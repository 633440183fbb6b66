import JackSyntax.Document
import Mathlib.Data.List.Basic

/-!
# Markup line by line

A markup document has one line for each event. A line tells its event, so a document can be read
back line by line.

## The model

* `Event.line`: the line of an event, `Tree.lines` the lines of a tree with their margins.
* `Text.lines`: a text cut at its newlines.
* `Event.ofLine?`: the event of a line, found without knowing the margin.
* `Event.Clear`: the events that their line tells: tags are no markup themselves, and a symbol is
  one of the marks.

## Results

* **`ofTree_xml`**: the document of a tree without foreign values is made of its lines.
* `lines_join`: a text made of lines is cut into these lines.
* **`Event.ofLine?_lineAt`**: the line of a clear event tells that event, whatever the margin.
-/

namespace JackSyntax

/-! ## The lines of a tree -/

/-- The line of an event, without its margin. -/
def Event.line : Event → String
  | .opened tag => s!"<{tag}>"
  | .leaf kind text => s!"<{kind}> {Markup.leafText kind text} </{kind}>"
  | .closed tag => s!"</{tag}>"

/-- The line of an event inside `depth` tags. -/
def Event.lineAt (indent : Int) (depth : Nat) (event : Event) : String :=
  Markup.margin indent depth ++ event.line

namespace Event

theorem toList_line_opened (tag : String) :
    (opened tag).line.toList = '<' :: (tag.toList ++ ['>']) := by
  simp [line, toString]

theorem toList_line_leaf (kind text : String) :
    (leaf kind text).line.toList = '<' :: (kind.toList ++ '>' :: ' ' ::
      ((Markup.leafText kind text).toList ++ ' ' :: '<' :: '/' :: (kind.toList ++ ['>']))) := by
  simp [line, toString]

theorem toList_line_closed (tag : String) :
    (closed tag).line.toList = '<' :: '/' :: (tag.toList ++ ['>']) := by
  simp [line, toString]

/-- Every line starts with a bracket, its margin apart. -/
theorem toList_line_cons (event : Event) : ∃ rest, event.line.toList = '<' :: rest := by
  cases event with
  | opened tag => exact ⟨_, toList_line_opened tag⟩
  | leaf kind text => exact ⟨_, toList_line_leaf kind text⟩
  | closed tag => exact ⟨_, toList_line_closed tag⟩

end Event

namespace Tree

mutual

/-- The lines of a tree inside `depth` tags. -/
def lines (indent : Int) (depth : Nat) : Tree → List String
  | leaf kind text => [(Event.leaf kind text).lineAt indent depth]
  | node tag children =>
    (Event.opened tag).lineAt indent depth :: linesAll indent (depth + 1) children ++
      [(Event.closed tag).lineAt indent depth]
  | foreign _ => []

/-- The lines of several trees. -/
def linesAll (indent : Int) (depth : Nat) : List Tree → List String
  | [] => []
  | tree :: rest => tree.lines indent depth ++ linesAll indent depth rest

end

end Tree

namespace Markup

/-- The markup with more lines. -/
def addLines (markup : Markup) (lines : List String) : Markup :=
  { markup with written := lines.reverse ++ markup.written }

variable {markup : Markup}

theorem addLines_append (first second : List String) :
    markup.addLines (first ++ second) = (markup.addLines first).addLines second := by
  simp [addLines]

theorem accept_opened (tag : String) :
    accept (.opened tag) markup =
      .ok { markup.addLines [(Event.opened tag).lineAt markup.indent markup.openTags.length] with
        openTags := tag :: markup.openTags } := rfl

theorem accept_leaf (kind text : String) :
    accept (.leaf kind text) markup =
      .ok (markup.addLines [(Event.leaf kind text).lineAt markup.indent markup.openTags.length]) :=
  rfl

theorem accept_closed {tag : String} {outer : List String} (h : markup.openTags = tag :: outer) :
    accept (.closed tag) markup =
      .ok { markup.addLines [(Event.closed tag).lineAt markup.indent outer.length] with
        openTags := outer } := by
  unfold accept
  simp only [h, reduceIte]
  rfl

end Markup

/-! ## Writing a tree -/

namespace Tree

theorem feed_eq_ok {σ : Type} {accept : Event → σ → Except EventFault σ} {event : Event}
    {state next : σ} (h : accept event state = .ok next) :
    feed accept event state = .ok () next := by
  rw [feed, h]

mutual

/-- Writing a tree adds its lines and leaves the open tags as they were. -/
theorem walk_markup : ∀ (tree : Tree) (markup : Markup), tree.isProper = true →
    tree.walk Document.accept (.markup markup) =
      .ok () (.markup (markup.addLines (tree.lines markup.indent markup.openTags.length)))
  | .leaf kind text, markup, _ => by
    rw [walk, lines]
    exact feed_eq_ok (by rw [Document.accept, Markup.accept_leaf]; rfl)
  | .node tag children, markup, h => by
    rw [isProper] at h
    have hopened : feed Document.accept (.opened tag) (.markup markup) = .ok () (.markup _) :=
      feed_eq_ok (by rw [Document.accept, Markup.accept_opened]; rfl)
    have hchildren := walkAll_markup children
      { markup.addLines [(Event.opened tag).lineAt markup.indent markup.openTags.length] with
        openTags := tag :: markup.openTags } h
    have hclosed : ∀ inside : Markup, inside.openTags = tag :: markup.openTags →
        feed Document.accept (.closed tag) (.markup inside) = .ok () (.markup _) :=
      fun inside hinside => feed_eq_ok (by rw [Document.accept, Markup.accept_closed hinside]; rfl)
    simp only [walk, bind, EStateM.bind, hopened, hchildren]
    rw [hclosed _ rfl]
    simp [Markup.addLines, lines]
  | .foreign _, _, h => by cases h

/-- Writing several trees adds their lines. -/
theorem walkAll_markup : ∀ (trees : List Tree) (markup : Markup), areProper trees = true →
    walkAll Document.accept trees (.markup markup) =
      .ok () (.markup (markup.addLines (linesAll markup.indent markup.openTags.length trees)))
  | [], markup, _ => rfl
  | tree :: rest, markup, h => by
    rw [areProper, Bool.and_eq_true] at h
    have hfirst := walk_markup tree markup h.1
    have hrest := walkAll_markup rest
      (markup.addLines (tree.lines markup.indent markup.openTags.length)) h.2
    simp only [walkAll, bind, EStateM.bind, hfirst, hrest, linesAll, Markup.addLines_append]
    rfl

end

end Tree

/-- **A markup document is made of the lines of its tree.** -/
theorem Document.ofTree_xml {tree : Tree} (h : tree.isProper = true) (indent : Option Int) :
    Document.ofTree .xml indent tree =
      .ok (String.join ((tree.lines (indent.getD 0) 0).map (· ++ "\n"))) := by
  have hempty : Document.empty .xml indent = .markup { indent := indent.getD 0 } := by
    cases indent <;> rfl
  rw [Document.ofTree, hempty, Tree.walk_markup tree _ h]
  simp [Document.output, Markup.output, Markup.addLines, Markup.lines, Except.mapError]

/-! ## Cutting a text into lines -/

/-- The lines of a text in which every line ends with a newline. -/
def Text.lines (text : List Char) : List (List Char) :=
  (text.splitOn '\n').dropLast

theorem flatMap_append_newline (lines : List (List Char)) :
    lines.flatMap (· ++ ['\n']) = ['\n'].intercalate (lines ++ [[]]) := by
  induction lines with
  | nil => rfl
  | cons line lines ih =>
    cases lines with
    | nil => simp
    | cons next lines =>
      rw [List.flatMap_cons, ih, List.cons_append, List.cons_append, List.cons_append,
        List.intercalate_cons_cons]

/-- **A text made of lines is cut into these lines.** -/
theorem Text.lines_join {lines : List String} (h : ∀ line ∈ lines, '\n' ∉ line.toList) :
    Text.lines (String.join (lines.map (· ++ "\n"))).toList = lines.map String.toList := by
  have htext : (String.join (lines.map (· ++ "\n"))).toList =
      ['\n'].intercalate (lines.map String.toList ++ [[]]) := by
    rw [← flatMap_append_newline, String.toList_join, List.flatMap_map, List.flatMap_map]
    exact List.flatMap_congr fun line _ => String.toList_append
  have hpieces : ∀ piece ∈ lines.map String.toList ++ [[]], '\n' ∉ piece := by
    intro piece hpiece
    rcases List.mem_append.mp hpiece with hpiece | hpiece
    · obtain ⟨line, hline, rfl⟩ := List.mem_map.mp hpiece
      exact h line hline
    · rw [List.mem_singleton.mp hpiece]
      exact List.not_mem_nil
  rw [Text.lines, htext, List.splitOn_intercalate _ hpieces (by simp), List.dropLast_concat]

/-- The event holds no newline, so that its line is one line. -/
def Event.OneLine : Event → Prop
  | opened tag => '\n' ∉ tag.toList
  | leaf kind text => '\n' ∉ kind.toList ∧ '\n' ∉ text.toList
  | closed tag => '\n' ∉ tag.toList

/-- A leaf shows its text, or the escape of a mark. -/
theorem Markup.leafText_cases (kind text : String) :
    leafText kind text = text ∨ ∃ pair ∈ Vocabulary.markupEscapes, leafText kind text = pair.2 := by
  unfold leafText
  split
  · unfold escapeMark
    cases hmark : Vocabulary.markupEscapes.lookup text with
    | none => exact .inl rfl
    | some escape =>
      obtain ⟨before, after, hlist, -⟩ := List.lookup_eq_some_iff.mp hmark
      refine .inr ⟨(text, escape), ?_, rfl⟩
      rw [hlist]
      exact List.mem_append_cons_self
  · exact .inl rfl

theorem newline_not_mem_leafText {kind text : String} (h : '\n' ∉ text.toList) :
    '\n' ∉ (Markup.leafText kind text).toList := by
  have hescapes : Vocabulary.markupEscapes.all (fun pair => !pair.2.toList.contains '\n') = true :=
    by decide
  rcases Markup.leafText_cases kind text with htext | ⟨pair, hpair, htext⟩
  · rwa [htext]
  · rw [htext]
    simpa using List.all_eq_true.mp hescapes pair hpair

theorem newline_not_mem_lineAt {event : Event} (h : event.OneLine) (indent : Int) (depth : Nat) :
    '\n' ∉ (event.lineAt indent depth).toList := by
  have hmargin : '\n' ∉ (Markup.margin indent depth).toList := by
    simp [Markup.margin, List.mem_replicate]
  have hline : '\n' ∉ event.line.toList := by
    cases event with
    | opened tag =>
      have htag : '\n' ∉ tag.toList := h
      simp [Event.toList_line_opened, htag]
    | leaf kind text =>
      obtain ⟨hkind, htext⟩ := h
      simp [Event.toList_line_leaf, hkind, newline_not_mem_leafText htext]
    | closed tag =>
      have htag : '\n' ∉ tag.toList := h
      simp [Event.toList_line_closed, htag]
  simp [Event.lineAt, hmargin, hline]

/-! ## Reading a line -/

/-- The mark that is written in this way; any other text stays. -/
def Markup.unescapeMark (text : String) : String :=
  ((Vocabulary.markupEscapes.map Prod.swap).lookup text).getD text

/-- The text of a leaf that is written in this way; only marks are escaped. -/
def Markup.readText (kind text : String) : String :=
  if kind == TokenKind.symbol.tag then unescapeMark text else text

namespace Event

/-- The event of a line behind its margin. A tag ends with the first bracket behind its name; a leaf
ends with the closing tag of its kind. -/
def ofMarkup? : List Char → Option Event
  | '<' :: '/' :: rest => ([('>')].isSuffixOf? rest).map fun tag => .closed (String.ofList tag)
  | '<' :: rest =>
    let name := rest.takeWhile (· != '>')
    match rest.drop name.length with
    | ['>'] => some (.opened (String.ofList name))
    | '>' :: ' ' :: rest =>
      ((' ' :: '<' :: '/' :: (name ++ ['>'])).isSuffixOf? rest).map fun text =>
        .leaf (String.ofList name) (Markup.readText (String.ofList name) (String.ofList text))
    | _ => none
  | _ => none

/-- The event of a line. -/
def ofLine? (line : List Char) : Option Event :=
  ofMarkup? (line.dropWhile (· == ' '))

/-- The name cannot be taken for anything else between the brackets of a tag. -/
def ClearName (name : String) : Prop :=
  '>' ∉ name.toList ∧ name.toList.head? ≠ some '/'

/-- Tags are told from all else on their line, and only a mark stands where marks are escaped. -/
def Clear : Event → Prop
  | opened tag => ClearName tag
  | leaf kind text => ClearName kind ∧
    (kind = TokenKind.symbol.tag → ∃ c ∈ Vocabulary.symbols, text = String.singleton c)
  | closed _ => True

end Event

theorem Markup.unescapeMark_escapeMark {c : Char} (h : c ∈ Vocabulary.symbols) :
    unescapeMark (escapeMark (String.singleton c)) = String.singleton c := by
  have hall : Vocabulary.symbols.all (fun c =>
      unescapeMark (escapeMark (String.singleton c)) == String.singleton c) = true := by decide
  simpa using List.all_eq_true.mp hall c h

theorem Markup.readText_leafText {kind text : String}
    (h : kind = TokenKind.symbol.tag → ∃ c ∈ Vocabulary.symbols, text = String.singleton c) :
    readText kind (leafText kind text) = text := by
  by_cases hkind : kind = TokenKind.symbol.tag
  · obtain ⟨c, hc, rfl⟩ := h hkind
    simp only [readText, leafText, hkind, beq_self_eq_true, reduceIte]
    exact unescapeMark_escapeMark hc
  · simp [readText, leafText, hkind]

section Reading

variable {name : String} {rest : List Char}

/-- Behind a clear name, the first bracket is the one that ends the tag. -/
theorem takeWhile_clearName (h : Event.ClearName name) :
    (name.toList ++ '>' :: rest).takeWhile (· != '>') = name.toList := by
  have hname : ∀ c ∈ name.toList, (c != '>') = true := by
    intro c hc
    have hne : c ≠ '>' := fun heq => h.1 (heq ▸ hc)
    simpa using hne
  rw [List.takeWhile_append_of_pos hname, List.takeWhile_cons_of_neg (by simp), List.append_nil]

/-- A clear name does not make a closing tag of an opening one. -/
theorem ofMarkup?_clearName (h : Event.ClearName name) :
    Event.ofMarkup? ('<' :: (name.toList ++ '>' :: rest)) =
      match '>' :: rest with
      | ['>'] => some (.opened name)
      | '>' :: ' ' :: rest =>
        ((' ' :: '<' :: '/' :: (name.toList ++ ['>'])).isSuffixOf? rest).map fun text =>
          .leaf name (Markup.readText name (String.ofList text))
      | _ => none := by
  have hopen : ∀ more, name.toList ++ '>' :: rest ≠ '/' :: more := by
    intro more heq
    have hhead := congrArg List.head? heq
    cases hname : name.toList with
    | nil => simp [hname] at hhead
    | cons c cs =>
      refine h.2 ?_
      simpa [hname] using hhead
  rw [Event.ofMarkup?.eq_2 _ hopen, takeWhile_clearName h, List.drop_left, String.ofList_toList]

end Reading

theorem ofMarkup?_line {event : Event} (h : event.Clear) :
    Event.ofMarkup? event.line.toList = some event := by
  cases event with
  | opened tag =>
    rw [Event.toList_line_opened, ofMarkup?_clearName h]
    rfl
  | leaf kind text =>
    have hsuffix := List.isSuffixOf?_eq_some_iff_append_eq.mpr
      (rfl : (Markup.leafText kind text).toList ++
        (' ' :: '<' :: '/' :: (kind.toList ++ ['>'])) = _)
    rw [Event.toList_line_leaf, ofMarkup?_clearName h.1]
    simp only [hsuffix, Option.map_some, String.ofList_toList, Markup.readText_leafText h.2]
  | closed tag =>
    have hsuffix := List.isSuffixOf?_eq_some_iff_append_eq.mpr (rfl : tag.toList ++ ['>'] = _)
    rw [Event.toList_line_closed, Event.ofMarkup?.eq_1, hsuffix, Option.map_some,
      String.ofList_toList]

/-- Behind its margin, a line starts with a bracket. -/
theorem dropWhile_lineAt (event : Event) (indent : Int) (depth : Nat) :
    (event.lineAt indent depth).toList.dropWhile (· == ' ') = event.line.toList := by
  obtain ⟨rest, hline⟩ := event.toList_line_cons
  rw [Event.lineAt, String.toList_append, Markup.margin, String.toList_ofList,
    List.dropWhile_append_of_pos (by simp), hline, List.dropWhile_cons_of_neg (by simp)]

/-- **A line tells its event**, whatever the margin. -/
theorem ofLine?_lineAt {event : Event} (h : event.Clear) (indent : Int) (depth : Nat) :
    Event.ofLine? (event.lineAt indent depth).toList = some event := by
  rw [Event.ofLine?, dropWhile_lineAt, ofMarkup?_line h]

end JackSyntax
