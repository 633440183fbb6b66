import JackSyntax.Fault
import JackSyntax.Proofs.Documents.Agreement
import JackSyntax.Proofs.Documents.Calls

/-!
# Replaying a tree

Walking a tree feeds its events in order, whatever takes them. At a foreign value the walk stops:
the events before it have been fed, and the tags around it stay open.

## The model

* `Tree.feedAll`: feeds events one after the other.
* `Event.linesFrom indent tags events`: the lines of events, with these tags open before them.
* `Tree.foreigns`: the foreign values of a tree in pre-order.
* `Branch`: a node on the way from the root of a tree to a place inside it, and `Branch.fill` the
  tree with something in that place.
* `Event.openings name events`: from each event that opens a tag of that name on, all that follows.

## Results

* **`Tree.walk_eq_feedAll`**: walking a tree without foreign values is feeding its events.
* `Branch.walk_fill`: walking up to the first foreign value.
* `Tree.openings_eventsAll`: the events that open a tag are those of the nodes that are found.
* `Markup.feedAll_eq_ok`: markup takes events that leave some tags open.
* **`walk_replays_tree`**: walking any tree into any markup.
-/

namespace JackSyntax

/-! ## Feeding events -/

namespace Tree

section Feeding

variable {σ : Type} {accept : Event → σ → Except EventFault σ}

/-- Feeds events one after the other, up to the first that is refused. -/
def feedAll (accept : Event → σ → Except EventFault σ) (events : List Event) :
    EStateM WalkFault σ Unit :=
  events.forM (feed accept)

theorem feedAll_nil : feedAll accept [] = pure () := rfl

theorem feedAll_cons (event : Event) (rest : List Event) :
    feedAll accept (event :: rest) = (do feed accept event; feedAll accept rest) := rfl

theorem feedAll_append (first second : List Event) :
    feedAll accept (first ++ second) = (do feedAll accept first; feedAll accept second) :=
  List.forM_append

theorem feedAll_singleton (event : Event) : feedAll accept [event] = feed accept event := by
  rw [feedAll_cons, feedAll_nil, bind_pure]

theorem walkAll_append (first second : List Tree) :
    walkAll accept (first ++ second) = (do walkAll accept first; walkAll accept second) := by
  induction first with
  | nil => rfl
  | cons tree first ih => simp only [List.cons_append, walkAll, ih, bind_assoc]

mutual

/-- **Walking a tree is feeding its events.** -/
theorem walk_eq_feedAll : ∀ tree : Tree, tree.isProper = true →
    tree.walk accept = feedAll accept tree.events
  | .leaf kind text, _ => by rw [walk, events, feedAll_singleton]
  | .node tag children, h => by
    rw [isProper] at h
    rw [walk, events, walkAll_eq_feedAll children h, List.cons_append, feedAll_cons,
      feedAll_append, feedAll_singleton]
  | .foreign _, h => by cases h

/-- Walking several trees is feeding their events. -/
theorem walkAll_eq_feedAll : ∀ trees : List Tree, areProper trees = true →
    walkAll accept trees = feedAll accept (eventsAll trees)
  | [], _ => rfl
  | tree :: rest, h => by
    rw [areProper, Bool.and_eq_true] at h
    rw [walkAll, eventsAll, feedAll_append, walk_eq_feedAll tree h.1, walkAll_eq_feedAll rest h.2]

end

/-- An event that is taken, and what comes behind it. -/
theorem feedAll_cons_of_ok {event : Event} {state next : σ} (h : accept event state = .ok next)
    (rest : List Event) : feedAll accept (event :: rest) state = feedAll accept rest next := by
  simp only [feedAll_cons, bind, EStateM.bind, feed_eq_ok h]

/-- The first of the events that are taken. -/
theorem exists_of_feedAll_cons {event : Event} {rest : List Event} {state after : σ}
    (h : feedAll accept (event :: rest) state = .ok () after) :
    ∃ next, accept event state = .ok next ∧ feedAll accept rest next = .ok () after := by
  cases haccept : accept event state with
  | ok next => exact ⟨next, rfl, by rwa [feedAll_cons_of_ok haccept] at h⟩
  | error fault =>
    simp only [feedAll_cons, bind, EStateM.bind, feed, haccept] at h
    cases h

/-- Events that are taken, and what comes behind them. -/
theorem feedAll_append_of_ok {first : List Event} {state next : σ}
    (h : feedAll accept first state = .ok () next) (second : List Event) :
    feedAll accept (first ++ second) state = feedAll accept second next := by
  simp only [feedAll_append, bind, EStateM.bind, h]

end Feeding

/-! ## The first foreign value -/

mutual

/-- The foreign values of a tree in pre-order. -/
def foreigns : Tree → List Foreign
  | leaf _ _ => []
  | node _ children => foreignsAll children
  | foreign value => [value]

/-- The foreign values of several trees. -/
def foreignsAll : List Tree → List Foreign
  | [] => []
  | tree :: rest => tree.foreigns ++ foreignsAll rest

end

mutual

theorem isProper_eq_isEmpty : ∀ tree : Tree, tree.isProper = tree.foreigns.isEmpty
  | .leaf _ _ => rfl
  | .node _ children => by rw [isProper, foreigns, areProper_eq_isEmpty children]
  | .foreign _ => rfl

theorem areProper_eq_isEmpty : ∀ trees : List Tree, areProper trees = (foreignsAll trees).isEmpty
  | [] => rfl
  | tree :: rest => by
    rw [areProper, foreignsAll, isProper_eq_isEmpty tree, areProper_eq_isEmpty rest]
    cases tree.foreigns <;> rfl

end

theorem exists_foreign {tree : Tree} (h : tree.isProper = false) :
    ∃ value, tree.foreigns.head? = some value := by
  rw [isProper_eq_isEmpty] at h
  cases hforeigns : tree.foreigns with
  | nil =>
    rw [hforeigns] at h
    cases h
  | cons value others => exact ⟨value, rfl⟩

end Tree

/-- A node on the way to a place inside a tree: its tag, and its children on either side. -/
structure Branch where
  tag : String
  before : List Tree
  after : List Tree

namespace Branch

/-- The node around a tree. -/
def around (branch : Branch) (tree : Tree) : Tree :=
  .node branch.tag (branch.before ++ tree :: branch.after)

/-- The tree with another one at the end of a way, which starts at the root. -/
def fill (way : List Branch) (tree : Tree) : Tree :=
  way.foldr around tree

/-- The tags along a way, innermost first. -/
def tags (way : List Branch) : List String :=
  (way.map tag).reverse

/-- The events of a node before those of the place inside it. -/
def events (branch : Branch) : List Event :=
  .opened branch.tag :: Tree.eventsAll branch.before

/-- The events of a tree before those of the place at the end of a way. -/
def eventsBefore (way : List Branch) : List Event :=
  way.flatMap events

/-- No foreign value stands before the place at the end of a way. -/
def Proper (way : List Branch) : Prop :=
  ∀ branch ∈ way, Tree.areProper branch.before = true

variable {σ : Type} {accept : Event → σ → Except EventFault σ} {value : Foreign}
  {way : List Branch}

/-- **A walk stops at the first foreign value**, behind the events that precede it. -/
theorem walk_fill (h : Proper way) (value : Foreign) :
    (fill way (.foreign value)).walk accept =
      (do Tree.feedAll accept (eventsBefore way); throw (.foreign value)) := by
  induction way with
  | nil => rfl
  | cons branch way ih =>
    obtain ⟨hbranch, hway⟩ := List.forall_mem_cons.mp h
    have hinside := ih hway
    have hstop : ∀ rest : EStateM WalkFault σ Unit,
        (do throw (.foreign value); rest) = (throw (.foreign value) : EStateM WalkFault σ Unit) :=
      fun _ => rfl
    -- neither the children behind the way nor the closing tags are reached
    calc (fill (branch :: way) (.foreign value)).walk accept
      _ = (around branch (fill way (.foreign value))).walk accept := rfl
      _ = (do
            Tree.feed accept (.opened branch.tag)
            Tree.feedAll accept (Tree.eventsAll branch.before)
            Tree.feedAll accept (eventsBefore way)
            throw (.foreign value)) := by
        simp only [around, Tree.walk, Tree.walkAll_append, Tree.walkAll,
          Tree.walkAll_eq_feedAll branch.before hbranch, hinside, bind_assoc, hstop]
      _ = (do
            Tree.feedAll accept (branch.events ++ eventsBefore way)
            throw (.foreign value)) := by
        rw [Tree.feedAll_append, events, Tree.feedAll_cons]
        simp only [bind_assoc]

end Branch

namespace Tree

mutual

/-- There is a way to the first foreign value of a tree. -/
theorem exists_way : ∀ (tree : Tree) (value : Foreign), tree.foreigns.head? = some value →
    ∃ way, Branch.Proper way ∧ tree = Branch.fill way (.foreign value)
  | .leaf _ _, _, h => by cases h
  | .node tag children, value, h => by
    obtain ⟨before, tree, after, hchildren, hbefore, way, hway, htree⟩ :=
      exists_wayAmong children value h
    refine ⟨⟨tag, before, after⟩ :: way, List.forall_mem_cons.mpr ⟨hbefore, hway⟩, ?_⟩
    rw [hchildren, htree]
    rfl
  | .foreign _, value, h => by
    obtain rfl := Option.some.inj h
    exact ⟨[], List.forall_mem_nil _, rfl⟩

/-- Among several trees it leads into the first that has one. -/
theorem exists_wayAmong : ∀ (trees : List Tree) (value : Foreign),
    (foreignsAll trees).head? = some value →
    ∃ before tree after, trees = before ++ tree :: after ∧ areProper before = true ∧
      ∃ way, Branch.Proper way ∧ tree = Branch.fill way (.foreign value)
  | [], _, h => by cases h
  | tree :: rest, value, h => by
    rw [foreignsAll] at h
    cases hfirst : tree.foreigns with
    | nil =>
      rw [hfirst, List.nil_append] at h
      obtain ⟨before, inner, after, rfl, hbefore, hway⟩ := exists_wayAmong rest value h
      refine ⟨tree :: before, inner, after, rfl, ?_, hway⟩
      rw [areProper, isProper_eq_isEmpty, hfirst, hbefore]
      rfl
    | cons found others =>
      rw [hfirst] at h
      exact ⟨[], tree, rest, rfl, rfl, exists_way tree value (by rw [hfirst]; exact h)⟩

end

end Tree

/-! ## The nodes of a tag -/

/-- From each event that opens a tag of that name on, all that follows. -/
def Event.openings (name : String) : List Event → List (List Event)
  | [] => []
  | .opened tag :: rest =>
    (if tag == name then [.opened tag :: rest] else []) ++ openings name rest
  | _ :: rest => openings name rest

namespace Tree

/-- A node of that name is what the first of these events open. -/
def OpenedBy (name : String) (events : List Event) (found : Tree) : Prop :=
  (∃ children, found = node name children) ∧ found.events <+: events

/-- **The events that open a tag are those of the nodes of that tag**, in pre-order. -/
theorem openings_eventsAll (name : String) : ∀ (trees : List Tree) (more : List Event)
    (found : List Tree), List.Forall₂ (OpenedBy name) (Event.openings name more) found →
    List.Forall₂ (OpenedBy name) (Event.openings name (eventsAll trees ++ more))
      (findAmong name trees ++ found)
  | [], _, _, h => by rwa [eventsAll, findAmong]
  | .leaf kind text :: rest, more, found, h => by
    rw [eventsAll, findAmong]
    · exact openings_eventsAll name rest more found h
    · intro tag children hnode
      cases hnode
  | .foreign _ :: rest, more, found, h => by
    rw [eventsAll, findAmong]
    · exact openings_eventsAll name rest more found h
    · intro tag children hnode
      cases hnode
  | .node tag children :: rest, more, found, h => by
    have hrest := openings_eventsAll name rest more found h
    have hchildren := openings_eventsAll name children (.closed tag :: (eventsAll rest ++ more))
      (findAmong name rest ++ found) hrest
    have hevents : eventsAll (node tag children :: rest) ++ more =
        .opened tag :: (eventsAll children ++ .closed tag :: (eventsAll rest ++ more)) := by
      simp [eventsAll, events]
    rw [hevents, Event.openings, findAmong, List.append_assoc, List.append_assoc]
    by_cases htag : tag = name
    · subst htag
      simp only [beq_self_eq_true, reduceIte]
      refine .cons ⟨⟨children, rfl⟩, eventsAll rest ++ more, ?_⟩ hchildren
      simp [events]
    · have hne : (tag == name) = false := beq_eq_false_iff_ne.mpr htag
      simp only [hne, Bool.false_eq_true, reduceIte, List.nil_append]
      exact hchildren

/-- Below the root, the events that open a tag are those of the nodes that are found. -/
theorem openings_tail_events (name : String) : ∀ tree : Tree,
    List.Forall₂ (OpenedBy name) (Event.openings name tree.events.tail) (tree.findAll name)
  | .leaf _ _ => .nil
  | .node tag children => by
    have h := openings_eventsAll name children [.closed tag] [] .nil
    rwa [List.append_nil] at h
  | .foreign _ => .nil

/-! ## Well nested trees -/

mutual

/-- The events of a tree are well nested. -/
theorem wellNested_events : ∀ tree : Tree, WellNested tree.events
  | .leaf _ _ => .leaf .nil
  | .node _ children => .element (wellNested_eventsAll children) .nil
  | .foreign _ => .nil

/-- The events of several trees are well nested. -/
theorem wellNested_eventsAll : ∀ trees : List Tree, WellNested (eventsAll trees)
  | [] => .nil
  | tree :: rest => (wellNested_events tree).append (wellNested_eventsAll rest)

end

end Tree

/-- The events before the end of a way leave the tags along it open. -/
theorem Branch.unclosed_eventsBefore (way : List Branch) :
    Unclosed (tags way) (eventsBefore way) := by
  induction way using List.reverseRecOn with
  | nil => exact .none .nil
  | append_singleton way branch ih =>
    have htags : tags (way ++ [branch]) = branch.tag :: tags way := by simp [tags]
    have hevents : eventsBefore (way ++ [branch]) = eventsBefore way ++ branch.events := by
      simp [eventsBefore]
    rw [htags, hevents]
    exact .opened ih (Tree.wellNested_eventsAll branch.before)

/-! ## Markup -/

/-- The lines of events, with these tags open before them. -/
def Event.linesFrom (indent : Int) : List String → List Event → List String
  | _, [] => []
  | tags, event :: rest =>
    event.lineAt indent (event.outside tags).length ::
      linesFrom indent (event.openAfter tags) rest

namespace Tree

mutual

/-- The lines of a tree are those of its events, inside the tags around it. -/
theorem linesFrom_events (indent : Int) (tags : List String) (more : List Event) :
    ∀ tree : Tree, Event.linesFrom indent tags (tree.events ++ more) =
      tree.lines indent tags.length ++ Event.linesFrom indent tags more
  | .leaf _ _ => rfl
  | .node tag children => by
    have hchildren := linesFrom_eventsAll indent (tag :: tags) (.closed tag :: more) children
    rw [events, lines, List.cons_append, List.append_assoc]
    simp only [Event.linesFrom, Event.openAfter, Event.outside, hchildren,
      List.length_cons, List.tail_cons, List.cons_append, List.append_assoc, List.nil_append]
  | .foreign _ => rfl

/-- The lines of several trees are those of their events. -/
theorem linesFrom_eventsAll (indent : Int) (tags : List String) (more : List Event) :
    ∀ trees : List Tree, Event.linesFrom indent tags (eventsAll trees ++ more) =
      linesAll indent tags.length trees ++ Event.linesFrom indent tags more
  | [] => rfl
  | tree :: rest => by
    rw [eventsAll, linesAll, List.append_assoc, List.append_assoc, linesFrom_events,
      linesFrom_eventsAll]

end

end Tree

namespace Markup

theorem eq_add_of_accept {event : Event} {markup next : Markup}
    (h : accept event markup = .ok next) : next = markup.add event := by
  by_cases hfits : event.Fits markup.openTags
  · rw [accept_of_fits hfits] at h
    exact (Except.ok.inj h).symm
  · obtain ⟨tag, -, herror⟩ := accept_of_not_fits hfits
    rw [herror] at h
    cases h

/-- **What markup tells of the events that it has taken.** -/
theorem lines_of_feedAll {events : List Event} {markup after : Markup}
    (h : Tree.feedAll accept events markup = .ok () after) :
    after.lines = markup.lines ++ Event.linesFrom markup.indent markup.openTags events := by
  induction events generalizing markup with
  | nil =>
    obtain ⟨-, rfl⟩ := EStateM.Result.ok.inj h
    exact (List.append_nil _).symm
  | cons event events ih =>
    obtain ⟨next, haccept, hrest⟩ := Tree.exists_of_feedAll_cons h
    obtain rfl := eq_add_of_accept haccept
    rw [ih hrest, lines_add, List.append_assoc]
    rfl

/-- Markup takes well nested events. -/
theorem feedAll_eq_ok_of_wellNested {events : List Event} (h : WellNested events)
    (markup : Markup) :
    ∃ after, Tree.feedAll accept events markup = .ok () after ∧
      after.openTags = markup.openTags := by
  induction h generalizing markup with
  | nil => exact ⟨markup, rfl, rfl⟩
  | @leaf kind text rest _ ih =>
    have hfits : (Event.leaf kind text).Fits markup.openTags := trivial
    obtain ⟨after, hrest, hopen⟩ := ih (markup.add (.leaf kind text))
    refine ⟨after, ?_, hopen⟩
    rw [Tree.feedAll_cons_of_ok (accept_of_fits hfits), hrest]
  | @element tag inside rest _ _ ihinside ihrest =>
    have hopened : (Event.opened tag).Fits markup.openTags := trivial
    obtain ⟨between, hinside, hbetween⟩ := ihinside (markup.add (.opened tag))
    have hclosed : (Event.closed tag).Fits between.openTags := by
      rw [hbetween]
      rfl
    obtain ⟨after, hrest, hopen⟩ := ihrest (between.add (.closed tag))
    refine ⟨after, ?_, ?_⟩
    · calc Tree.feedAll accept (.opened tag :: (inside ++ .closed tag :: rest)) markup
        _ = Tree.feedAll accept (inside ++ .closed tag :: rest) (markup.add (.opened tag)) :=
          Tree.feedAll_cons_of_ok (accept_of_fits hopened) _
        _ = Tree.feedAll accept (.closed tag :: rest) between :=
          Tree.feedAll_append_of_ok hinside _
        _ = Tree.feedAll accept rest (between.add (.closed tag)) :=
          Tree.feedAll_cons_of_ok (accept_of_fits hclosed) rest
        _ = .ok () after := hrest
    · rw [hopen]
      change between.openTags.tail = _
      rw [hbetween]
      rfl

/-- **Markup takes events that leave some tags open**, and opens these. -/
theorem feedAll_eq_ok {tags : List String} {events : List Event} (h : Unclosed tags events)
    (markup : Markup) :
    ∃ after, Tree.feedAll accept events markup = .ok () after ∧
      after.openTags = tags ++ markup.openTags := by
  induction h with
  | none h => exact feedAll_eq_ok_of_wellNested h markup
  | @opened tags before tag inside _ hinside ih =>
    obtain ⟨between, hbefore, hbetween⟩ := ih
    have hopened : (Event.opened tag).Fits between.openTags := trivial
    obtain ⟨after, hafter, hopen⟩ := feedAll_eq_ok_of_wellNested hinside (between.add (.opened tag))
    refine ⟨after, ?_, ?_⟩
    · rw [Tree.feedAll_append_of_ok hbefore,
        Tree.feedAll_cons_of_ok (accept_of_fits hopened), hafter]
    · rw [hopen, List.cons_append, ← hbetween]
      rfl

end Markup

/-- **Walking a tree replays it, up to the first foreign value.** Whatever has been written before:
a tree without foreign values is walked to its end. The markup takes exactly the events of the tree,
so that its lines are added, and the open tags are those from before. The leaf events are the leaves
of the tree in order, and below the root the events that open a tag are those of the nodes of that
tag, one by one and in order. Any other tree is walked up to its first foreign value in pre-order,
whose type is told. The markup has taken exactly the events before that value, and on top of the
tags from before, those on the way from the root to that value are open. -/
theorem walk_replays_tree (markup : Markup) (tree : Tree) :
    (tree.isProper = true →
      (∃ after, tree.walk Markup.accept markup = .ok () after ∧
        Tree.feedAll Markup.accept tree.events markup = .ok () after ∧
        after.openTags = markup.openTags ∧
        after.lines = markup.lines ++ tree.lines markup.indent markup.openTags.length) ∧
      tree.events.filter Event.isLeaf = tree.leaves.map Event.ofLeaf ∧
      ∀ name, List.Forall₂ (Tree.OpenedBy name) (Event.openings name tree.events.tail)
        (tree.findAll name)) ∧
    (tree.isProper = false →
      ∃ value way after, tree.foreigns.head? = some value ∧
        tree = Branch.fill way (.foreign value) ∧ Branch.Proper way ∧
        tree.walk Markup.accept markup = .error (.foreign value) after ∧
        Tree.feedAll Markup.accept (Branch.eventsBefore way) markup = .ok () after ∧
        after.openTags = Branch.tags way ++ markup.openTags ∧
        after.lines = markup.lines ++
          Event.linesFrom markup.indent markup.openTags (Branch.eventsBefore way) ∧
        (Fault.unwritten .xml (.foreign value)).message =
          s!"Cannot serialize {value.typeName}; expected a ParseNode") := by
  refine ⟨fun hproper => ?_, fun hforeign => ?_⟩
  · obtain ⟨after, hfeed, hopen⟩ :=
      Markup.feedAll_eq_ok_of_wellNested tree.wellNested_events markup
    have hlines := tree.linesFrom_events markup.indent markup.openTags []
    rw [Event.linesFrom, List.append_nil, List.append_nil] at hlines
    refine ⟨⟨after, ?_, hfeed, hopen, ?_⟩, tree.filter_isLeaf_events,
      fun name => tree.openings_tail_events name⟩
    · rw [Tree.walk_eq_feedAll tree hproper, hfeed]
    · rw [Markup.lines_of_feedAll hfeed, hlines]
  · obtain ⟨value, hvalue⟩ := Tree.exists_foreign hforeign
    obtain ⟨way, hway, htree⟩ := tree.exists_way value hvalue
    obtain ⟨after, hfeed, hopen⟩ := Markup.feedAll_eq_ok (Branch.unclosed_eventsBefore way) markup
    refine ⟨value, way, after, hvalue, htree, hway, ?_, hfeed, hopen,
      Markup.lines_of_feedAll hfeed, rfl⟩
    rw [htree, Branch.walk_fill hway value]
    simp only [bind, EStateM.bind, hfeed]
    rfl

/-- Behind a leaf and inside two tags, a bare node is met. -/
example :
    (Tree.node "a" [.leaf "k" "t", .node "b" [.foreign .bareNode], .node "c" []]).walk
        Markup.accept { indent := 2 } =
      .error (.foreign .bareNode)
        { indent := 2, written := ["  <b>", "  <k> t </k>", "<a>"], openTags := ["b", "a"] } := by
  rfl

end JackSyntax
