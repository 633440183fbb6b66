import JackSyntax.Artifacts
import JackSyntax.Proofs.Documents.Listing
import JackSyntax.Proofs.Parsing.Exactness

/-!
# Reading a tree back from its markup

A markup document is read line by line: each line tells its event, whatever its margin, and the
events are put together again, a stack holding the tags that are open. So a document tells its tree,
for any indentation.

## The model

* `Tree.Legible`: the trees that a grammar and a scanner make. The tags are those of productions,
  the kinds those of tokens, no text has a newline, and a symbol is one of the marks.
* `Assembly`: trees being put together. `Tree.ofEvents?` puts a whole tree together.
* `Tree.ofMarkup?`: the tree of a document.

## Results

* `lines_tell_events`: the lines of a tree are those of its events, in order.
* **`foldlM_step_events`**: the events of a tree add that tree to what is there.
* `ofMarkup?_of_legible`: a legible tree is read back from its document.
* `legible_of_ofTokens`: the tree of well-formed tokens is legible.
* **`markup_determines_tree`**: legible trees with one document are one tree, and every source text
  has a legible tree.
-/

namespace JackSyntax

/-! ## Lines of events -/

/-- The lines are those of the events in order, each with some margin. -/
def Event.Shown (indent : Int) (lines : List String) (events : List Event) : Prop :=
  List.Forall₂ (fun line event => ∃ depth, line = event.lineAt indent depth) lines events

namespace Tree

mutual

/-- The lines of a tree are those of its events. -/
theorem lines_tell_events (indent : Int) (depth : Nat) :
    ∀ tree : Tree, Event.Shown indent (tree.lines indent depth) tree.events
  | .leaf kind text => .cons ⟨depth, rfl⟩ .nil
  | .node tag children => by
    rw [lines, events]
    exact .cons ⟨depth, rfl⟩
      (List.rel_append (linesAll_tell_events indent (depth + 1) children) (.cons ⟨depth, rfl⟩ .nil))
  | .foreign _ => .nil

/-- The lines of several trees are those of their events. -/
theorem linesAll_tell_events (indent : Int) (depth : Nat) :
    ∀ trees : List Tree, Event.Shown indent (linesAll indent depth trees) (eventsAll trees)
  | [] => .nil
  | tree :: rest => by
    rw [linesAll, eventsAll]
    exact List.rel_append (lines_tell_events indent depth tree)
      (linesAll_tell_events indent depth rest)

end

end Tree

section Shown

variable {indent : Int} {lines : List String} {events : List Event}

/-- Lines of clear events are read as these events. -/
theorem Event.Shown.mapM_ofLine? (h : Shown indent lines events)
    (hclear : ∀ event ∈ events, event.Clear) :
    (lines.map String.toList).mapM Event.ofLine? = some events := by
  induction h with
  | nil => rfl
  | @cons line event lines events hline _ ih =>
    obtain ⟨depth, rfl⟩ := hline
    obtain ⟨hevent, hevents⟩ := List.forall_mem_cons.mp hclear
    simp [List.mapM_cons, ofLine?_lineAt hevent, ih hevents]

/-- Lines of events without newlines have none. -/
theorem Event.Shown.newline_not_mem (h : Shown indent lines events)
    (hline : ∀ event ∈ events, event.OneLine) : ∀ line ∈ lines, '\n' ∉ line.toList := by
  induction h with
  | nil => simp
  | @cons line event lines events hshown _ ih =>
    obtain ⟨depth, rfl⟩ := hshown
    obtain ⟨hevent, hevents⟩ := List.forall_mem_cons.mp hline
    exact List.forall_mem_cons.mpr ⟨newline_not_mem_lineAt hevent indent depth, ih hevents⟩

end Shown

/-! ## Putting events together -/

/-- Trees being put together: those inside the innermost open tag, last one first, and around them
the open tags, innermost first, each with the trees in front of it. -/
structure Assembly where
  trees : List Tree := []
  around : List (String × List Tree) := []

namespace Assembly

/-- Takes an event. A tag that closes must be the innermost open one. -/
def step (assembly : Assembly) : Event → Option Assembly
  | .opened tag => some ⟨[], (tag, assembly.trees) :: assembly.around⟩
  | .leaf kind text => some { assembly with trees := .leaf kind text :: assembly.trees }
  | .closed tag =>
    match assembly.around with
    | [] => none
    | (innermost, before) :: outer =>
      if innermost = tag then some ⟨.node tag assembly.trees.reverse :: before, outer⟩ else none

mutual

/-- **The events of a tree add that tree** to what is there. -/
theorem foldlM_step_events : ∀ (tree : Tree) (assembly : Assembly), tree.isProper = true →
    tree.events.foldlM step assembly = some { assembly with trees := tree :: assembly.trees }
  | .leaf kind text, assembly, _ => rfl
  | .node tag children, assembly, h => by
    rw [Tree.isProper] at h
    have hchildren :=
      foldlM_step_eventsAll children ⟨[], (tag, assembly.trees) :: assembly.around⟩ h
    simp [Tree.events, List.foldlM_append, step, hchildren]
  | .foreign _, _, h => by cases h

/-- The events of several trees add these trees. -/
theorem foldlM_step_eventsAll : ∀ (trees : List Tree) (assembly : Assembly),
    Tree.areProper trees = true →
    (Tree.eventsAll trees).foldlM step assembly =
      some { assembly with trees := trees.reverse ++ assembly.trees }
  | [], assembly, _ => rfl
  | tree :: rest, assembly, h => by
    rw [Tree.areProper, Bool.and_eq_true] at h
    have hfirst := foldlM_step_events tree assembly h.1
    have hrest := foldlM_step_eventsAll rest { assembly with trees := tree :: assembly.trees } h.2
    simp [Tree.eventsAll, List.foldlM_append, hfirst, hrest]

end

end Assembly

namespace Tree

/-- The tree of a sequence of events. -/
def ofEvents? (events : List Event) : Option Tree :=
  match events.foldlM Assembly.step {} with
  | some ⟨[tree], []⟩ => some tree
  | _ => none

theorem ofEvents?_events {tree : Tree} (h : tree.isProper = true) :
    ofEvents? tree.events = some tree := by
  rw [ofEvents?, Assembly.foldlM_step_events tree {} h]

/-- The tree of a document, read line by line. -/
def ofMarkup? (document : String) : Option Tree :=
  ((Text.lines document.toList).mapM Event.ofLine?).bind ofEvents?

/-! ## Legible trees -/

/-- The tree is one that a grammar and a scanner can make. -/
inductive Legible : Tree → Prop
  | leaf {kind : TokenKind} {text : String} (hline : '\n' ∉ text.toList)
    (hmark : kind = .symbol → ∃ c ∈ Vocabulary.symbols, text = String.singleton c) :
    Legible (.leaf kind.tag text)
  | node {production : Production} {tag : String} {children : List Tree}
    (htag : production.tag? = some tag) (hchildren : ∀ child ∈ children, Legible child) :
    Legible (.node tag children)

theorem areProper_iff {trees : List Tree} :
    areProper trees = true ↔ ∀ tree ∈ trees, tree.isProper = true := by
  induction trees with
  | nil => simp [areProper]
  | cons tree trees ih => simp [areProper, ih]

theorem mem_eventsAll_iff {trees : List Tree} {event : Event} :
    event ∈ eventsAll trees ↔ ∃ tree ∈ trees, event ∈ tree.events := by
  induction trees with
  | nil => simp [eventsAll]
  | cons tree trees ih => simp [eventsAll, ih]

theorem Legible.isProper {tree : Tree} (h : tree.Legible) : tree.isProper = true := by
  induction h with
  | leaf => rfl
  | node _ _ ih => exact areProper_iff.mpr ih

/-- The tag of a production cannot be taken for anything else. -/
theorem clearName_of_tag? {production : Production} {tag : String}
    (h : production.tag? = some tag) : Event.ClearName tag ∧ '\n' ∉ tag.toList := by
  unfold Event.ClearName
  cases production <;> cases h <;> decide

/-- The lines of a legible tree tell its events. -/
theorem Legible.events {tree : Tree} (h : tree.Legible) :
    ∀ event ∈ tree.events, event.Clear ∧ event.OneLine := by
  induction h with
  | @leaf kind text hline hmark =>
    intro event hevent
    rw [List.mem_singleton.mp hevent]
    have hsymbol : kind.tag = TokenKind.symbol.tag → kind = .symbol := by
      cases kind <;> decide
    exact ⟨⟨clearName_tag kind, fun hkind => hmark (hsymbol hkind)⟩, newline_not_mem_tag kind,
      hline⟩
  | @node production tag children htag _ ih =>
    obtain ⟨hclear, hline⟩ := clearName_of_tag? htag
    intro event hevent
    simp only [Tree.events, List.cons_append, List.mem_cons, List.mem_append, List.not_mem_nil,
      or_false] at hevent
    rcases hevent with rfl | hevent | rfl
    · exact ⟨hclear, hline⟩
    · obtain ⟨child, hchild, hevent⟩ := mem_eventsAll_iff.mp hevent
      exact ih child hchild event hevent
    · exact ⟨trivial, hline⟩

/-- A tree is read back from its document when its lines tell its events. -/
theorem ofMarkup?_join_lines {tree : Tree} (h : tree.isProper = true)
    (hevents : ∀ event ∈ tree.events, event.Clear ∧ event.OneLine) (indent : Int) :
    ofMarkup? (String.join ((tree.lines indent 0).map (· ++ "\n"))) = some tree := by
  have hshown := lines_tell_events indent 0 tree
  rw [ofMarkup?,
    Text.lines_join (hshown.newline_not_mem fun event hevent => (hevents event hevent).2),
    hshown.mapM_ofLine? fun event hevent => (hevents event hevent).1, Option.bind_some,
    ofEvents?_events h]

theorem ofMarkup?_of_legible {tree : Tree} (h : tree.Legible) (indent : Option Int) :
    ∃ document, Document.ofTree .xml indent tree = .ok document ∧ ofMarkup? document = some tree :=
  ⟨_, Document.ofTree_xml h.isProper indent, ofMarkup?_join_lines h.isProper h.events _⟩

end Tree

/-! ## The trees of source texts -/

theorem Word.WellFormed.legible {word : Word} (h : word.WellFormed) : word.leaf.Legible := by
  refine .leaf h.newline_not_mem fun hsymbol => ?_
  cases h with
  | @symbol c hmark => exact ⟨c, hmark, rfl⟩
  | keyword | identifier | integer | string => cases hsymbol

/-- What a grammar derives from well-formed words is legible. -/
theorem Ebnf.Derives.legible {grammar : Production → Ebnf} {e : Ebnf} {n : Nat} {w : List Word}
    {ts : List Tree} (h : Derives grammar e n w ts) (hwords : ∀ word ∈ w, word.WellFormed) :
    ∀ tree ∈ ts, tree.Legible := by
  induction h with
  | terminal word =>
    intro tree htree
    rw [List.mem_singleton.mp htree]
    exact (hwords word List.mem_cons_self).legible
  | nonterminal production _ ih =>
    unfold Production.wrap
    split
    · rename_i tag htag
      intro tree htree
      rw [List.mem_singleton.mp htree]
      exact .node htag (ih hwords)
    · exact ih hwords
  | empty | done => simp
  | seq _ _ ihfirst ihsecond | more _ _ ihfirst ihsecond =>
    obtain ⟨hfirst, hsecond⟩ := List.forall_mem_append.mp hwords
    exact List.forall_mem_append.mpr ⟨ihfirst hfirst, ihsecond hsecond⟩
  | left _ ih | right _ ih => exact ih hwords

/-- The tree of some tokens is derived from their words. -/
theorem Tree.derives_of_ofTokens {tokens : List Token} {tree : Tree}
    (h : Tree.ofTokens tokens = .ok tree) :
    ∃ height ≤ Vocabulary.deepestNesting,
      Ebnf.Derives Grammar.matched (.nonterminal .unit) height (tokens.map Token.word) [tree] := by
  obtain ⟨after, h⟩ := Tree.ofTokens_eq_ok_iff.mp h
  obtain ⟨passed, hpass, hread⟩ := Session.reads_of_parse_ok rfl h
  obtain ⟨height, words, hle, hwords, hd⟩ := hread.derives
  rw [hread.unit_nest_rest, List.append_nil, Session.words_ofList] at hwords
  exact ⟨height, hle, hwords ▸ hd⟩

theorem Tree.legible_of_ofTokens {tokens : List Token} {tree : Tree}
    (hwords : ∀ word ∈ tokens.map Token.word, word.WellFormed)
    (h : Tree.ofTokens tokens = .ok tree) : tree.Legible := by
  obtain ⟨height, -, hd⟩ := derives_of_ofTokens h
  exact hd.legible hwords tree List.mem_cons_self

theorem Tree.legible_of_ofSource {source : String} {tree : Tree}
    (h : Tree.ofSource source = .ok tree) : tree.Legible := by
  unfold Tree.ofSource at h
  split at h
  · cases h
  · rename_i tokens hscan
    cases htree : Tree.ofTokens tokens with
    | error failure =>
      rw [htree] at h
      cases h
    | ok found =>
      rw [htree] at h
      cases h
      exact legible_of_ofTokens (wellFormed_of_scan hscan) htree

/-- **A markup document determines its tree.** For any indentation, a legible tree has a document
and is read back from it line by line, so legible trees with one document are one tree. The tree of
every source text is legible. -/
theorem markup_determines_tree :
    (∀ (indent : Option Int) (tree : Tree), tree.Legible →
      ∃ document, Document.ofTree .xml indent tree = .ok document ∧
        Tree.ofMarkup? document = some tree) ∧
    (∀ (indent : Option Int) (first second : Tree), first.Legible → second.Legible →
      (Document.ofTree .xml indent first = Document.ofTree .xml indent second ↔ first = second)) ∧
    ∀ (source : String) (tree : Tree), Tree.ofSource source = .ok tree → tree.Legible := by
  refine ⟨fun indent tree h => Tree.ofMarkup?_of_legible h indent,
    fun indent first second hfirst hsecond => ⟨fun hsame => ?_, fun hsame => by rw [hsame]⟩,
    fun source tree => Tree.legible_of_ofSource⟩
  obtain ⟨document, hdocument, hread⟩ := Tree.ofMarkup?_of_legible hfirst indent
  obtain ⟨other, hother, hreread⟩ := Tree.ofMarkup?_of_legible hsecond indent
  rw [hdocument, hother, Except.ok.injEq] at hsame
  rw [← hsame, hread] at hreread
  exact Option.some.inj hreread

/-- A tree whose texts look like markup. -/
def Tree.lookalike : Tree :=
  .node "term" [.leaf "stringConstant" " </stringConstant>", .leaf "symbol" "<",
    .leaf "stringConstant" "&lt;", .node "expressionList" [], .leaf "identifier" "<term>"]

theorem Tree.legible_lookalike : lookalike.Legible := by
  have hterm : Production.term.tag? = some "term" := rfl
  have hargs : Production.argList.tag? = some "expressionList" := rfl
  refine .node hterm fun child hchild => ?_
  simp only [List.mem_cons, List.not_mem_nil, or_false] at hchild
  rcases hchild with rfl | rfl | rfl | rfl | rfl
  · exact @Legible.leaf .stringConstant _ (by decide) nofun
  · exact @Legible.leaf .symbol _ (by decide) fun _ => ⟨'<', by decide, rfl⟩
  · exact @Legible.leaf .stringConstant _ (by decide) nofun
  · exact .node hargs nofun
  · exact @Legible.leaf .identifier _ (by decide) nofun

/-- The text of a class with two fields. -/
def sourceOfA : String :=
  "class A \x7b field int x, y; \x7d"

theorem Token.scan_sourceOfA : Token.scan sourceOfA = .ok fieldsOfA :=
  scan_of_outcomeIn (show (Reader.ofString sourceOfA).outcomeIn 11 = some _ by decide +kernel)

theorem Tree.ofSource_sourceOfA : Tree.ofSource sourceOfA = .ok treeOfA := by
  rw [Tree.ofSource, Token.scan_sourceOfA]
  simp only [ofTokens_of_derives fieldsOfA_derived (by decide), Except.mapError]

theorem lookalike_is_determined :
    (∃ document, Document.ofTree .xml (some (-2)) Tree.lookalike = .ok document ∧
      Tree.ofMarkup? document = some Tree.lookalike) ∧
    Tree.ofSource sourceOfA = .ok treeOfA ∧
    (Document.ofTree .xml none Tree.lookalike = Document.ofTree .xml none treeOfA ↔
      Tree.lookalike = treeOfA) := by
  have hlegible := markup_determines_tree.2.2 _ _ Tree.ofSource_sourceOfA
  exact ⟨markup_determines_tree.1 (some (-2)) Tree.lookalike Tree.legible_lookalike,
    Tree.ofSource_sourceOfA, markup_determines_tree.2.1 none _ _ Tree.legible_lookalike hlegible⟩

end JackSyntax
