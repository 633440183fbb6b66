import JackSyntax.Proofs.Documents.Replaying

/-!
# Both formats under the same calls

Markup keeps its lines and the names of the open tags, a JSON tree keeps half-built records that
move to their place when a tag closes. Under the same calls they accept the same events and have the
same tags open, as long as every leaf comes while some tag is open.

## The model

* `JsonTree.afterCalls`: a new JSON document after some calls.
* `LeavesInside indent calls`: every leaf among the calls comes while some tag is open.
* `Together markup json`: the two documents have accepted the same events and have the same tags
  open.

## Results

* `JsonTree.accept_of_fits`, `JsonTree.accept_of_not_fits`: what a JSON tree does with an event.
* `History.feedAll_accepted`: the accepted events alone lead to the document.
* `JsonTree.root_of_feedAll`: the events of a node leave its record at the root.
* `Together.step`, `together`: one call, then all of them.
* `Together.output_eq_error_iff`, `Together.output_eq_empty_iff`: finishing the documents.
* **`documents_in_lockstep`**: both documents under any calls.
-/

namespace JackSyntax

variable {event : Event}

/-! ## What a JSON tree does with an event -/

/-- A leaf comes while some tag is open. -/
def Event.Inside (tags : List String) : Event → Prop
  | leaf _ _ => tags ≠ []
  | opened _ | closed _ => True

namespace JsonTree

variable {json : JsonTree}

/-- Nothing has been built, and no tag is open. -/
def IsNew (json : JsonTree) : Prop :=
  json.frames = [] ∧ json.root = none

@[simp] theorem openTags_place (value : Json) (json : JsonTree) :
    (json.place value).openTags = json.openTags := by
  unfold place openTags
  split <;> simp_all

/-- A value that has its place is there. -/
theorem not_isNew_place (value : Json) (json : JsonTree) : ¬ (json.place value).IsNew := by
  intro hnew
  unfold place at hnew
  split at hnew
  · cases hnew.2
  · cases hnew.1

theorem frames_eq_nil_iff : json.frames = [] ↔ json.openTags = [] :=
  List.map_eq_nil_iff.symm

/-- An event that fits opens or closes a tag, and a leaf has a place inside an open one. -/
theorem accept_of_fits (hfits : event.Fits json.openTags) (hinside : event.Inside json.openTags) :
    ∃ next, accept event json = .ok next ∧ next.openTags = event.openAfter json.openTags ∧
      ¬ next.IsNew := by
  cases event with
  | opened tag => exact ⟨_, rfl, rfl, fun hnew => by cases hnew.1⟩
  | leaf kind text =>
    have hframes : json.frames.isEmpty = false :=
      List.isEmpty_eq_false_iff.mpr (mt frames_eq_nil_iff.mp hinside)
    exact ⟨_, by rw [accept, hframes]; rfl, openTags_place _ _, not_isNew_place _ _⟩
  | closed tag =>
    cases hframes : json.frames with
    | nil =>
      rw [openTags, hframes] at hfits
      cases hfits
    | cons frame outer =>
      have htag : frame.tag = tag := by
        rw [openTags, hframes] at hfits
        exact Option.some.inj hfits
      refine ⟨_, by simp only [accept, hframes, if_pos htag]; rfl, ?_, not_isNew_place _ _⟩
      rw [openTags_place, openTags, openTags, hframes]
      rfl

/-- Only a closing tag is refused for not fitting. -/
theorem accept_of_not_fits (h : ¬ event.Fits json.openTags) :
    ∃ tag, event = .closed tag ∧
      accept event json = .error (.mismatchedClose tag json.openTags.head?) := by
  cases event with
  | opened tag => exact absurd trivial h
  | leaf kind text => exact absurd trivial h
  | closed tag =>
    refine ⟨tag, rfl, ?_⟩
    cases hframes : json.frames with
    | nil => simp only [accept, openTags, hframes, List.map_nil, List.head?_nil]
    | cons frame outer =>
      have hne : frame.tag ≠ tag := fun heq => h (by rw [openTags, hframes, ← heq]; rfl)
      simp only [accept, openTags, hframes, if_neg hne, List.map_cons, List.head?_cons]

/-- A new JSON document after some calls. -/
def afterCalls (indent : Int) (calls : List Event) : History JsonTree :=
  .ofCalls accept { indent } calls

end JsonTree

/-! ## The accepted events -/

namespace History

variable {σ : Type} {accept : Event → σ → Except EventFault σ} {document : σ}

theorem ofCalls_append_singleton (calls : List Event) (event : Event) :
    ofCalls accept document (calls ++ [event]) =
      (ofCalls accept document calls).call accept event := by
  rw [ofCalls, ofCalls, List.foldl_append, List.foldl_cons, List.foldl_nil]

/-- **The accepted events alone lead to the document.** -/
theorem feedAll_accepted (document : σ) (calls : List Event) :
    Tree.feedAll accept (ofCalls accept document calls).accepted document =
      .ok () (ofCalls accept document calls).document := by
  refine ofCalls_induction
    (motive := fun history => Tree.feedAll accept history.accepted document =
      .ok () history.document) rfl (fun history event ih => ?_) calls
  cases haccept : accept event history.document with
  | ok next =>
    rw [call_of_ok haccept, Tree.feedAll_append_of_ok ih, Tree.feedAll_singleton]
    exact Tree.feed_eq_ok haccept
  | error fault => rwa [call_of_error haccept]

end History

/-- Whatever takes the events that another takes is led along by it. -/
theorem Tree.feedAll_map_eq_ok {σ τ : Type} {accept : Event → σ → Except EventFault σ}
    {accept' : Event → τ → Except EventFault τ} {f : σ → τ}
    (h : ∀ event state next, accept event state = .ok next → accept' event (f state) = .ok (f next))
    {events : List Event} {state after : σ} (hfeed : feedAll accept events state = .ok () after) :
    feedAll accept' events (f state) = .ok () (f after) := by
  induction events generalizing state with
  | nil =>
    obtain ⟨-, rfl⟩ := EStateM.Result.ok.inj hfeed
    rfl
  | cons event events ih =>
    obtain ⟨next, haccept, hrest⟩ := exists_of_feedAll_cons hfeed
    rw [feedAll_cons_of_ok (h event state next haccept), ih hrest]

/-- The events of a node leave its record at the root. -/
theorem JsonTree.root_of_feedAll {tag : String} {children : List Tree} {value : Json}
    {json after : JsonTree} (hproper : (Tree.node tag children).isProper = true)
    (hvalue : (Tree.node tag children).toJson? = some value) (hframes : json.frames = [])
    (h : Tree.feedAll accept (Tree.node tag children).events json = .ok () after) :
    after.root = some value := by
  have hfeed : Tree.feedAll Document.accept (Tree.node tag children).events (.json json) =
      .ok () (.json after) := by
    refine Tree.feedAll_map_eq_ok (fun event state next haccept => ?_) h
    rw [Document.accept, haccept]
    rfl
  have hwalk := Tree.walk_json _ value json hvalue (.inr ⟨tag, children, rfl⟩)
  rw [Tree.walk_eq_feedAll _ hproper, hfeed, place, hframes] at hwalk
  cases hwalk
  rfl

/-! ## Finishing a document -/

theorem unclosed_eq_error_iff {tags : List String} {text : String} {fault : EventFault} :
    (if tags.isEmpty then Except.ok text else .error (.unclosed tags.reverse)) = .error fault ↔
      tags ≠ [] ∧ fault = .unclosed tags.reverse := by
  cases tags with
  | nil => exact iff_of_false (fun h => by cases h) fun h => h.1 rfl
  | cons tag outer =>
    constructor
    · intro h
      exact ⟨List.cons_ne_nil tag outer, (Except.error.inj h).symm⟩
    · rintro ⟨-, rfl⟩
      rfl

theorem Markup.output_eq_error_iff {markup : Markup} {fault : EventFault} :
    markup.output = .error fault ↔
      markup.openTags ≠ [] ∧ fault = .unclosed markup.openTags.reverse :=
  unclosed_eq_error_iff

theorem JsonTree.output_eq_error_iff {json : JsonTree} {fault : EventFault} :
    json.output = .error fault ↔
      json.openTags ≠ [] ∧ fault = .unclosed json.openTags.reverse := by
  have hempty : json.frames.isEmpty = json.openTags.isEmpty := List.isEmpty_map.symm
  rw [output, hempty]
  exact unclosed_eq_error_iff

/-- A markup document is empty when it has no lines. -/
theorem Markup.output_eq_empty_iff {markup : Markup} :
    markup.output = .ok "" ↔ markup.openTags = [] ∧ markup.lines = [] := by
  unfold output
  cases markup.openTags with
  | nil => cases markup.lines <;> simp
  | cons tag outer => simp

/-- A JSON document is empty when nothing has been built. -/
theorem JsonTree.output_eq_empty_iff {json : JsonTree} : json.output = .ok "" ↔ json.IsNew := by
  unfold output IsNew
  cases json.frames with
  | nil => cases json.root <;> simp
  | cons frame outer => simp

/-! ## Both documents -/

/-- Every leaf among the calls comes while some tag is open. -/
def LeavesInside (indent : Int) (calls : List Event) : Prop :=
  ∀ before kind text, before ++ [Event.leaf kind text] <+: calls →
    (Markup.afterCalls indent before).document.openTags ≠ []

section LeavesInside

variable {indent : Int} {calls before : List Event}

theorem leavesInside_nil : LeavesInside indent [] := by
  intro before kind text hbefore
  exact absurd (List.prefix_nil.mp hbefore) (by simp)

theorem LeavesInside.of_prefix (h : LeavesInside indent calls) (hbefore : before <+: calls) :
    LeavesInside indent before :=
  fun earlier kind text hearlier => h earlier kind text (hearlier.trans hbefore)

theorem leavesInside_append_singleton :
    LeavesInside indent (calls ++ [event]) ↔ LeavesInside indent calls ∧
      event.Inside (Markup.afterCalls indent calls).document.openTags := by
  constructor
  · intro h
    refine ⟨h.of_prefix (List.prefix_append calls [event]), ?_⟩
    cases event with
    | opened tag => trivial
    | leaf kind text => exact h calls kind text (List.prefix_refl _)
    | closed tag => trivial
  · rintro ⟨h, hinside⟩ before kind text hbefore
    rcases List.prefix_concat_iff.mp hbefore with heq | hbefore
    · obtain ⟨rfl, hlast⟩ := List.append_inj' heq rfl
      obtain rfl := List.singleton_inj.mp hlast
      exact hinside
    · exact h before kind text hbefore

end LeavesInside

/-- Both have accepted the same events and have the same tags open, and the JSON tree is new as long
as it has accepted none. -/
structure Together (markup : History Markup) (json : History JsonTree) : Prop where
  accepted_eq : markup.accepted = json.accepted
  openTags_eq : markup.document.openTags = json.document.openTags
  isNew_iff : json.document.IsNew ↔ json.accepted = []

namespace Together

variable {markup : History Markup} {json : History JsonTree}

/-- An event is taken by both, or refused by both for the same reason. -/
theorem accept (h : Together markup json) (hinside : event.Inside markup.document.openTags) :
    (∃ next, Markup.accept event markup.document = .ok (markup.document.add event) ∧
      JsonTree.accept event json.document = .ok next ∧
      next.openTags = event.openAfter markup.document.openTags ∧ ¬ next.IsNew) ∨
    ∃ fault, Markup.accept event markup.document = .error fault ∧
      JsonTree.accept event json.document = .error fault := by
  by_cases hfits : event.Fits markup.document.openTags
  · have hmarkup := Markup.accept_of_fits hfits
    rw [h.openTags_eq] at hfits hinside ⊢
    obtain ⟨next, hjson, hopen, hnew⟩ := JsonTree.accept_of_fits hfits hinside
    exact .inl ⟨next, hmarkup, hjson, hopen, hnew⟩
  · obtain ⟨tag, rfl, hmarkup⟩ := Markup.accept_of_not_fits hfits
    rw [h.openTags_eq] at hfits hmarkup
    obtain ⟨_, hclosed, hjson⟩ := JsonTree.accept_of_not_fits hfits
    cases hclosed
    exact .inr ⟨_, hmarkup, hjson⟩

/-- **One call.** -/
theorem step (h : Together markup json) (hinside : event.Inside markup.document.openTags) :
    Together (markup.call Markup.accept event) (json.call JsonTree.accept event) := by
  rcases h.accept hinside with ⟨next, hmarkup, hjson, hopen, hnew⟩ | ⟨fault, hmarkup, hjson⟩
  · rw [History.call_of_ok hmarkup, History.call_of_ok hjson]
    exact ⟨by rw [h.accepted_eq], hopen.symm, iff_of_false hnew (by simp)⟩
  · rwa [History.call_of_error hmarkup, History.call_of_error hjson]

/-- A call changes both documents, or fails for both and leaves them as they were. -/
theorem feed (h : Together markup json) (hinside : event.Inside markup.document.openTags) :
    (∃ next next', Tree.feed Markup.accept event markup.document = .ok () next ∧
      Tree.feed JsonTree.accept event json.document = .ok () next') ∨
    ∃ fault, Tree.feed Markup.accept event markup.document = .error fault markup.document ∧
      Tree.feed JsonTree.accept event json.document = .error fault json.document := by
  rcases h.accept hinside with ⟨next, hmarkup, hjson, -, -⟩ | ⟨fault, hmarkup, hjson⟩
  · exact .inl ⟨_, next, Tree.feed_eq_ok hmarkup, Tree.feed_eq_ok hjson⟩
  · exact .inr ⟨.refused fault, by rw [Tree.feed, hmarkup], by rw [Tree.feed, hjson]⟩

theorem output_eq_error_iff (h : Together markup json) {fault : EventFault} :
    markup.document.output = .error fault ↔ json.document.output = .error fault := by
  rw [Markup.output_eq_error_iff, JsonTree.output_eq_error_iff, h.openTags_eq]

theorem output_eq_empty_iff (h : Together markup json) {indent : Int}
    (hrecords : Markup.Records indent markup.accepted markup.document) :
    markup.document.output = .ok "" ↔ json.document.output = .ok "" := by
  have hlines : markup.document.lines = [] ↔ markup.accepted = [] := by
    rw [← List.length_eq_zero_iff, hrecords.length_lines, List.length_eq_zero_iff]
  have hopen : json.document.IsNew → json.document.openTags = [] :=
    fun hnew => JsonTree.frames_eq_nil_iff.mp hnew.1
  rw [Markup.output_eq_empty_iff, JsonTree.output_eq_empty_iff, hlines, h.accepted_eq,
    h.openTags_eq, ← h.isNew_iff]
  exact and_iff_right_of_imp hopen

end Together

/-- **All calls**, one after the other, on new documents. -/
theorem together {indent : Int} (indent' : Int) {calls : List Event}
    (h : LeavesInside indent calls) :
    Together (Markup.afterCalls indent calls) (JsonTree.afterCalls indent' calls) := by
  induction calls using List.reverseRecOn with
  | nil => exact ⟨rfl, rfl, iff_of_true ⟨rfl, rfl⟩ rfl⟩
  | append_singleton calls event ih =>
    obtain ⟨hcalls, hinside⟩ := leavesInside_append_singleton.mp h
    have hstep := (ih hcalls).step hinside
    rwa [Markup.afterCalls, JsonTree.afterCalls, History.ofCalls_append_singleton,
      History.ofCalls_append_singleton]

/-- **Both formats in lockstep.** New documents of either format, with any indentations, are given
the same calls, every leaf while some tag is open. After each of them both have accepted the same
events and have the same tags open. The next call succeeds for both, or fails for both and leaves
them as they were. They fail to be finished for the same reason, and are empty at the same time.
When the accepted events are those of one node, its record is the root of the JSON document, and the
lines of the markup are those of its events. -/
theorem documents_in_lockstep (indent indent' : Int) (calls : List Event)
    (h : LeavesInside indent calls) (before : List Event) (hbefore : before <+: calls) :
    let markup := Markup.afterCalls indent before
    let json := JsonTree.afterCalls indent' before
    markup.accepted = json.accepted ∧
    markup.document.openTags = json.document.openTags ∧
    (∀ event, before ++ [event] <+: calls →
      (∃ next next', Tree.feed Markup.accept event markup.document = .ok () next ∧
        Tree.feed JsonTree.accept event json.document = .ok () next') ∨
      ∃ fault, Tree.feed Markup.accept event markup.document = .error fault markup.document ∧
        Tree.feed JsonTree.accept event json.document = .error fault json.document) ∧
    (∀ fault, markup.document.output = .error fault ↔ json.document.output = .error fault) ∧
    (markup.document.output = .ok "" ↔ json.document.output = .ok "") ∧
    ∀ tag children, (Tree.node tag children).isProper = true →
      markup.accepted = (Tree.node tag children).events →
      ∃ value, (Tree.node tag children).toJson? = some value ∧ json.document.root = some value ∧
        markup.document.lines = Event.linesFrom indent [] (Tree.node tag children).events := by
  intro markup json
  have htogether : Together markup json := together indent' (h.of_prefix hbefore)
  refine ⟨htogether.accepted_eq, htogether.openTags_eq, ?_,
    fun fault => htogether.output_eq_error_iff,
    htogether.output_eq_empty_iff (Markup.records indent before), ?_⟩
  · intro event hnext
    exact htogether.feed (leavesInside_append_singleton.mp (h.of_prefix hnext)).2
  · intro tag children hproper haccepted
    obtain ⟨value, hvalue⟩ := Tree.exists_toJson? _ hproper
    have hmarkup : Tree.feedAll Markup.accept markup.accepted { indent } = .ok () markup.document :=
      History.feedAll_accepted _ before
    have hjson : Tree.feedAll JsonTree.accept json.accepted { indent := indent' } =
        .ok () json.document := History.feedAll_accepted _ before
    rw [haccepted] at hmarkup
    rw [← htogether.accepted_eq, haccepted] at hjson
    exact ⟨value, hvalue, JsonTree.root_of_feedAll hproper hvalue rfl hjson,
      Markup.lines_of_feedAll hmarkup⟩

/-- A close that does not match comes before a leaf and an element. -/
def callsWithMismatch : List Event :=
  [.opened "a", .closed "b", .leaf "k" "t", .opened "b", .closed "b", .closed "a"]

theorem mismatch_in_lockstep :
    LeavesInside 2 callsWithMismatch ∧
    ∃ value, (Tree.node "a" [.leaf "k" "t", .node "b" []]).toJson? = some value ∧
      (JsonTree.afterCalls 4 callsWithMismatch).document.root = some value ∧
      (Markup.afterCalls 2 callsWithMismatch).document.lines =
        Event.linesFrom 2 [] (Tree.node "a" [.leaf "k" "t", .node "b" []]).events := by
  -- at the leaf, the tag that opened first is still open
  have hopen : (Markup.afterCalls 2
      ([] ++ [Event.opened "a"] ++ [Event.closed "b"])).document.openTags = ["a"] := by
    rfl
  have hcalls : LeavesInside 2 ([] ++ [Event.opened "a"] ++ [Event.closed "b"] ++
      [Event.leaf "k" "t"] ++ [Event.opened "b"] ++ [Event.closed "b"] ++ [Event.closed "a"]) := by
    simp only [leavesInside_append_singleton, hopen]
    exact ⟨⟨⟨⟨⟨⟨leavesInside_nil, trivial⟩, trivial⟩, List.cons_ne_nil "a" []⟩, trivial⟩, trivial⟩,
      trivial⟩
  obtain ⟨-, -, -, -, -, htree⟩ :=
    documents_in_lockstep 2 4 callsWithMismatch hcalls callsWithMismatch (List.prefix_refl _)
  exact ⟨hcalls, htree "a" [.leaf "k" "t", .node "b" []] rfl rfl⟩

/-- A leaf outside any tag sets them apart. -/
example :
    Markup.accept (.leaf "k" "t") {} = .ok { written := ["<k> t </k>"] } ∧
    JsonTree.accept (.leaf "k" "t") {} = .error (.leafOutside "k" "t") := by
  exact ⟨rfl, rfl⟩

end JackSyntax
