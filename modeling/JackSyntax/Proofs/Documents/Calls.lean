import JackSyntax.Proofs.Documents.Lines
import JackSyntax.Proofs.Disk.Touching

/-!
# Markup under any calls

A document takes events one at a time, from any caller and in any order. What is refused leaves no
trace, so the accepted events alone tell the lines, the open tags and whether the document can be
finished.

## The model

* `History`: a document together with the events it has accepted, `History.call` one more call.
* `WellNested events`: every tag that opens is closed by its own name, around well nested events.
* `Unclosed tags events`: `events` is well nested but for `tags`, which are open at its end,
  innermost first.
* `Event.Around event before tags`: these tags are open around the event when it comes behind
  `before`.
* `Markup.Records indent accepted markup`: what the accepted events tell of the markup.

## Results

* `Unclosed.unique`: events leave one list of tags open.
* `Markup.accept_of_fits`, `Markup.accept_eq_error_iff`: what a document does with an event.
* `Markup.Records.step`, `Markup.records`: one call, then all of them.
* **`markup_records_calls`**: the document after any calls.
-/

namespace JackSyntax

/-! ## Well nested events -/

/-- Every tag that opens is closed by its own name, around well nested events. -/
inductive WellNested : List Event → Prop
  | nil : WellNested []
  | leaf {kind text rest} (h : WellNested rest) : WellNested (.leaf kind text :: rest)
  | element {tag inside rest} (hinside : WellNested inside) (hrest : WellNested rest) :
    WellNested (.opened tag :: (inside ++ .closed tag :: rest))

/-- Well nested but for some tags that are never closed, innermost first. -/
inductive Unclosed : List String → List Event → Prop
  | none {events} (h : WellNested events) : Unclosed [] events
  | opened {tags before tag inside} (hbefore : Unclosed tags before)
    (hinside : WellNested inside) : Unclosed (tag :: tags) (before ++ .opened tag :: inside)

variable {tags around : List String} {before after inside : List Event} {event : Event}

theorem WellNested.append (hbefore : WellNested before) (hafter : WellNested after) :
    WellNested (before ++ after) := by
  induction hbefore with
  | nil => exact hafter
  | leaf _ ih => exact .leaf ih
  | element hinside _ _ ih =>
    rw [List.cons_append, List.append_assoc, List.cons_append]
    exact .element hinside ih

theorem Unclosed.append (h : Unclosed tags before) (hafter : WellNested after) :
    Unclosed tags (before ++ after) := by
  cases h with
  | none h => exact .none (h.append hafter)
  | opened h hinside =>
    rw [List.append_assoc, List.cons_append]
    exact .opened h (hinside.append hafter)

theorem unclosed_nil_iff : Unclosed [] before ↔ WellNested before := by
  constructor
  · intro h
    cases h with
    | none h => exact h
  · exact .none

/-! ## The tags around an event -/

namespace Event

/-- The tags that are open behind an event. -/
def openAfter (tags : List String) : Event → List String
  | opened tag => tag :: tags
  | leaf _ _ => tags
  | closed _ => tags.tail

/-- The tags that an event stands in, when these are open before it. -/
def outside (tags : List String) : Event → List String
  | opened _ | leaf _ _ => tags
  | closed _ => tags.tail

/-- A closing tag fits the innermost open one. -/
def Fits (tags : List String) : Event → Prop
  | opened _ | leaf _ _ => True
  | closed tag => tags.head? = some tag

/-- These tags are open around the event. A closing tag stands beside the one that it closes. -/
def Around (event : Event) (before : List Event) (around : List String) : Prop :=
  match event with
  | opened _ | leaf _ _ => Unclosed around before
  | closed tag => Unclosed (tag :: around) before

/-- There is no margin without an indentation. -/
theorem lineAt_of_nonpos {indent : Int} (h : indent ≤ 0) (event : Event) (depth : Nat) :
    event.lineAt indent depth = event.line := by
  have hmargin : (indent * depth).toNat = 0 :=
    Int.toNat_of_nonpos (Int.mul_nonpos_of_nonpos_of_nonneg h (Int.natCast_nonneg depth))
  rw [lineAt, Markup.margin, hmargin, List.replicate_zero]
  exact String.empty_append

end Event

theorem WellNested.openAfter_eq (h : WellNested before) (tags : List String) :
    before.foldl Event.openAfter tags = tags := by
  induction h generalizing tags with
  | nil => rfl
  | leaf _ ih => exact ih tags
  | element _ _ ihinside ihrest =>
    simp only [List.foldl_cons, List.foldl_append, Event.openAfter, ihinside, ihrest,
      List.tail_cons]

theorem Unclosed.openAfter_eq (h : Unclosed tags before) :
    before.foldl Event.openAfter [] = tags := by
  induction h with
  | none h => exact h.openAfter_eq []
  | opened _ hinside ih =>
    rw [List.foldl_append, List.foldl_cons, ih, hinside.openAfter_eq, Event.openAfter]

/-- **Events leave one list of tags open.** -/
theorem Unclosed.unique (h : Unclosed tags before) (h' : Unclosed around before) : tags = around :=
  h.openAfter_eq.symm.trans h'.openAfter_eq

/-- An event that fits opens or closes a tag. -/
theorem Unclosed.step (h : Unclosed tags before) (hfits : event.Fits tags) :
    Unclosed (event.openAfter tags) (before ++ [event]) := by
  cases event with
  | opened tag => exact .opened h .nil
  | leaf kind text => exact h.append (.leaf .nil)
  | closed tag =>
    cases h with
    | none => cases hfits
    | opened h hinside =>
      obtain rfl := Option.some.inj hfits
      rw [List.append_assoc, List.cons_append]
      exact h.append (.element hinside .nil)

theorem Unclosed.around_outside (h : Unclosed tags before) (hfits : event.Fits tags) :
    event.Around before (event.outside tags) := by
  cases event with
  | opened tag => exact h
  | leaf kind text => exact h
  | closed tag =>
    obtain ⟨outer, rfl⟩ := List.head?_eq_some_iff.mp hfits
    exact h

/-! ## Calls -/

/-- A document and the events that it has accepted. -/
structure History (σ : Type) where
  accepted : List Event := []
  document : σ

/-- One more call. An event that is refused is lost. -/
def History.call {σ : Type} (accept : Event → σ → Except EventFault σ) (history : History σ)
    (event : Event) : History σ :=
  match Tree.feed accept event history.document with
  | .ok () next => ⟨history.accepted ++ [event], next⟩
  | .error _ next => ⟨history.accepted, next⟩

/-- The calls one after the other, on a new document. -/
def History.ofCalls {σ : Type} (accept : Event → σ → Except EventFault σ) (document : σ)
    (calls : List Event) : History σ :=
  calls.foldl (call accept) { document }

section Calls

variable {σ : Type} {accept : Event → σ → Except EventFault σ} {history : History σ}

theorem History.call_of_ok {next : σ} (h : accept event history.document = .ok next) :
    history.call accept event = ⟨history.accepted ++ [event], next⟩ := by
  rw [call, Tree.feed, h]

/-- **A call that is refused changes nothing.** -/
theorem History.call_of_error {fault : EventFault}
    (h : accept event history.document = .error fault) : history.call accept event = history := by
  rw [call, Tree.feed, h]

/-- What every call keeps holds after all of them. -/
theorem History.ofCalls_induction {motive : History σ → Prop} {document : σ}
    (start : motive { document }) (step : ∀ history event, motive history →
      motive (History.call accept history event)) (calls : List Event) :
    motive (History.ofCalls accept document calls) := by
  suffices h : ∀ history, motive history → motive (calls.foldl (call accept) history) from
    h _ start
  induction calls with
  | nil => exact fun _ h => h
  | cons event calls ih => exact fun history h => ih _ (step history event h)

/-- The accepted events are among the calls, in their order. -/
theorem History.accepted_sublist {document : σ} (calls : List Event) :
    (History.ofCalls accept document calls).accepted.Sublist calls := by
  suffices h : ∀ history : History σ, (calls.foldl (call accept) history).accepted.Sublist
      (history.accepted ++ calls) from h { document }
  induction calls with
  | nil =>
    intro history
    rw [List.append_nil]
    exact List.Sublist.refl _
  | cons event calls ih =>
    intro history
    refine (ih (history.call accept event)).trans ?_
    cases haccept : accept event history.document with
    | ok next =>
      rw [call_of_ok haccept, List.append_assoc]
      exact List.Sublist.refl _
    | error fault =>
      rw [call_of_error haccept]
      exact (List.sublist_cons_self event calls).append_left history.accepted

end Calls

/-! ## What a markup document does with an event -/

namespace Markup

variable {markup : Markup} {fault : EventFault}

/-- The markup with the line of an event that it accepts. -/
def add (markup : Markup) (event : Event) : Markup :=
  { markup.addLines [event.lineAt markup.indent (event.outside markup.openTags).length] with
    openTags := event.openAfter markup.openTags }

theorem accept_of_fits (h : event.Fits markup.openTags) :
    accept event markup = .ok (markup.add event) := by
  cases event with
  | opened tag => rfl
  | leaf kind text => rfl
  | closed tag =>
    obtain ⟨outer, houter⟩ := List.head?_eq_some_iff.mp h
    rw [accept_closed houter]
    simp [add, Event.outside, Event.openAfter, houter]

/-- Only a closing tag can be refused. -/
theorem accept_of_not_fits (h : ¬ event.Fits markup.openTags) :
    ∃ tag, event = .closed tag ∧
      accept event markup = .error (.mismatchedClose tag markup.openTags.head?) := by
  cases event with
  | opened tag => exact absurd trivial h
  | leaf kind text => exact absurd trivial h
  | closed tag =>
    refine ⟨tag, rfl, ?_⟩
    cases hopen : markup.openTags with
    | nil => simp only [accept, hopen, List.head?_nil]
    | cons innermost outer =>
      have hne : innermost ≠ tag := fun heq => h (by rw [hopen, heq]; rfl)
      simp only [accept, hopen, if_neg hne, List.head?_cons]

theorem accept_eq_error_iff :
    accept event markup = .error fault ↔
      ∃ tag, event = .closed tag ∧ markup.openTags.head? ≠ some tag ∧
        fault = .mismatchedClose tag markup.openTags.head? := by
  by_cases h : event.Fits markup.openTags
  · rw [accept_of_fits h]
    constructor
    · intro hok
      cases hok
    · rintro ⟨tag, rfl, hne, -⟩
      exact absurd h hne
  · obtain ⟨tag, rfl, herror⟩ := accept_of_not_fits h
    rw [herror]
    constructor
    · intro hfault
      exact ⟨tag, rfl, h, (Except.error.inj hfault).symm⟩
    · rintro ⟨_, hclosed, -, rfl⟩
      rw [Event.closed.inj hclosed]

/-! ## What the accepted events tell -/

/-- A new document after some calls. -/
def afterCalls (indent : Int) (calls : List Event) : History Markup :=
  .ofCalls accept { indent } calls

/-- The accepted events tell the open tags and, event by event, the lines. -/
structure Records (indent : Int) (accepted : List Event) (markup : Markup) : Prop where
  indent_eq : markup.indent = indent
  unclosed : Unclosed markup.openTags accepted
  length_lines : markup.lines.length = accepted.length
  line_at : ∀ {i : Nat} {event : Event}, accepted[i]? = some event → ∃ around,
    event.Around (accepted.take i) around ∧
      markup.lines[i]? = some (event.lineAt indent around.length)

theorem lines_add (markup : Markup) (event : Event) :
    (markup.add event).lines =
      markup.lines ++ [event.lineAt markup.indent (event.outside markup.openTags).length] :=
  List.reverse_cons

namespace Records

variable {indent : Int} {accepted : List Event}

/-- An accepted event has one more line, inside the tags around it. -/
theorem add (h : Records indent accepted markup) (hfits : event.Fits markup.openTags) :
    Records indent (accepted ++ [event]) (markup.add event) where
  indent_eq := h.indent_eq
  unclosed := h.unclosed.step hfits
  length_lines := by
    rw [lines_add, List.length_append, List.length_append, h.length_lines]
    rfl
  line_at := by
    intro i told htold
    rw [lines_add, h.indent_eq]
    -- an event accepted before keeps its line, the new one has the last
    by_cases hless : i < accepted.length
    · rw [List.getElem?_append_left hless] at htold
      rw [List.take_append_of_le_length (Nat.le_of_lt hless),
        List.getElem?_append_left (by rwa [h.length_lines])]
      exact h.line_at htold
    · have hlast : i = accepted.length := by
        have hlength := (List.getElem?_eq_some_iff.mp htold).1
        rw [List.length_append, List.length_singleton] at hlength
        omega
      subst hlast
      rw [List.getElem?_concat_length] at htold
      obtain rfl := Option.some.inj htold
      refine ⟨event.outside markup.openTags, ?_, ?_⟩
      · rw [List.take_left]
        exact h.unclosed.around_outside hfits
      · rw [← h.length_lines, List.getElem?_concat_length]

/-- **One call**, accepted or refused. -/
theorem step {history : History Markup} (h : Records indent history.accepted history.document)
    (event : Event) :
    Records indent (history.call accept event).accepted (history.call accept event).document := by
  by_cases hfits : event.Fits history.document.openTags
  · rw [History.call_of_ok (accept_of_fits hfits)]
    exact h.add hfits
  · obtain ⟨tag, -, herror⟩ := accept_of_not_fits hfits
    rwa [History.call_of_error herror]

/-- The lines of a tag that opens and of the one that closes it start alike. -/
theorem alike {tag : String}
    (h : Records indent (before ++ .opened tag :: (inside ++ .closed tag :: after)) markup)
    (hinside : WellNested inside) :
    ∃ depth, markup.lines[before.length]? = some ((Event.opened tag).lineAt indent depth) ∧
      markup.lines[before.length + 1 + inside.length]? =
        some ((Event.closed tag).lineAt indent depth) := by
  have hfirst : (before ++ .opened tag :: (inside ++ .closed tag :: after))[before.length]? =
      some (.opened tag) := by simp
  obtain ⟨around, haround, hopened⟩ := h.line_at hfirst
  rw [List.take_left] at haround
  rw [← List.cons_append, ← List.append_assoc] at h
  have hlast : (before ++ .opened tag :: inside ++ .closed tag :: after)[
      (before ++ .opened tag :: inside).length]? = some (.closed tag) := by simp
  obtain ⟨outer, houter, hclosed⟩ := h.line_at hlast
  rw [List.take_left] at houter
  -- what is open before the closing tag is the opening one and the tags around it, and that is all
  have htags : tag :: outer = tag :: around := houter.unique (.opened haround hinside)
  obtain ⟨-, rfl⟩ := List.cons.inj htags
  have hindex : before.length + 1 + inside.length = (before ++ .opened tag :: inside).length := by
    rw [List.length_append, List.length_cons]
    omega
  exact ⟨_, hopened, by rw [hindex, hclosed]⟩

/-- Without an indentation the lines are those of the events. -/
theorem lines_eq (h : Records indent accepted markup) (hindent : indent ≤ 0) :
    markup.lines = accepted.map Event.line := by
  apply List.ext_getElem?
  intro i
  rw [List.getElem?_map]
  cases hevent : accepted[i]? with
  | none =>
    rw [List.getElem?_eq_none_iff] at hevent
    rw [List.getElem?_eq_none (by rwa [h.length_lines]), Option.map_none]
  | some event =>
    obtain ⟨around, -, hline⟩ := h.line_at hevent
    rw [hline, Option.map_some, Event.lineAt_of_nonpos hindent]

/-- The document can be finished exactly when the accepted events are well nested. -/
theorem output_eq_ok_iff (h : Records indent accepted markup) :
    (∃ text, markup.output = .ok text) ↔ WellNested accepted := by
  rw [← unclosed_nil_iff]
  unfold output
  split
  · rename_i hopen
    have hnil : markup.openTags = [] := List.isEmpty_iff.mp hopen
    exact iff_of_true ⟨_, rfl⟩ (hnil ▸ h.unclosed)
  · rename_i hopen
    refine iff_of_false (fun ⟨_, htext⟩ => by cases htext) fun hnested => hopen ?_
    exact List.isEmpty_iff.mpr (h.unclosed.unique hnested)

end Records

/-- **All calls**, one after the other, on a new document. -/
theorem records (indent : Int) (calls : List Event) :
    Records indent (afterCalls indent calls).accepted (afterCalls indent calls).document := by
  refine History.ofCalls_induction
    (motive := fun history => Records indent history.accepted history.document) ?_
    (fun _ event h => h.step event) calls
  exact ⟨rfl, .none .nil, rfl, fun h => by cases h⟩

theorem output_eq_error {markup : Markup} (h : ∀ text, markup.output ≠ .ok text) :
    markup.output = .error (.unclosed markup.openTags.reverse) := by
  unfold output at h ⊢
  split
  · rename_i hopen
    rw [if_pos hopen] at h
    exact absurd rfl (h _)
  · rfl

end Markup

/-- **A markup document under any calls.** After any sequence of calls on a new document, whatever
the indentation and the names, and those that are refused among them: the open tags are those that
the accepted calls leave open, there is one line for each accepted call, in order, and it stands
inside the tags that are open around it, without a margin when the indentation is not positive. A
tag that opens and the one that closes it stand alike. Only a closing tag is refused, when another
tag is the innermost open one or none is, and then nothing changes. The document can be finished
exactly when the accepted calls are well nested, and otherwise it tells the open tags. -/
theorem markup_records_calls (indent : Int) (calls : List Event) :
    let history := Markup.afterCalls indent calls
    let markup := history.document
    history.accepted.Sublist calls ∧
    Unclosed markup.openTags history.accepted ∧
    markup.lines.length = history.accepted.length ∧
    (∀ (i : Nat) event, history.accepted[i]? = some event → ∃ around,
      event.Around (history.accepted.take i) around ∧
        markup.lines[i]? = some (event.lineAt indent around.length)) ∧
    (indent ≤ 0 → markup.lines = history.accepted.map Event.line) ∧
    (∀ before tag inside after,
      history.accepted = before ++ .opened tag :: (inside ++ .closed tag :: after) →
      WellNested inside → ∃ depth,
        markup.lines[before.length]? = some ((Event.opened tag).lineAt indent depth) ∧
        markup.lines[before.length + 1 + inside.length]? =
          some ((Event.closed tag).lineAt indent depth)) ∧
    (∀ event fault next, Tree.feed Markup.accept event markup = .error fault next →
      next = markup ∧ history.call Markup.accept event = history ∧
        ∃ tag, event = .closed tag ∧ markup.openTags.head? ≠ some tag) ∧
    ((∃ text, markup.output = .ok text) ↔ WellNested history.accepted) ∧
    (¬ WellNested history.accepted →
      markup.output = .error (.unclosed markup.openTags.reverse)) := by
  intro history markup
  have h : Markup.Records indent history.accepted markup := Markup.records indent calls
  refine ⟨History.accepted_sublist calls, h.unclosed, h.length_lines, fun i event => h.line_at,
    h.lines_eq, ?_, ?_, h.output_eq_ok_iff, ?_⟩
  · intro before tag inside after haccepted hinside
    rw [haccepted] at h
    exact h.alike hinside
  · intro event fault next hfeed
    unfold Tree.feed at hfeed
    cases haccept : Markup.accept event markup with
    | ok next =>
      rw [haccept] at hfeed
      cases hfeed
    | error fault =>
      rw [haccept] at hfeed
      cases hfeed
      obtain ⟨tag, hclosed, hne, -⟩ := Markup.accept_eq_error_iff.mp haccept
      exact ⟨rfl, History.call_of_error haccept, tag, hclosed, hne⟩
  · intro hnested
    exact Markup.output_eq_error fun text htext => hnested (h.output_eq_ok_iff.mp ⟨text, htext⟩)

/-- A mismatched close in the middle is as if it had never come. -/
example :
    (Markup.afterCalls 2 [.opened "a", .closed "b", .leaf "k" "t", .closed "a"]).document.lines =
      ["<a>", "  <k> t </k>", "</a>"] := by
  rfl

end JackSyntax
