import JackSyntax.Json.Render
import Mathlib.Algebra.Group.Nat.Defs
import Mathlib.Data.List.Forall2

/-!
# Reading JSON back

A reader for the texts, lists and records of standard JSON: blanks may stand around every mark,
a text may hold any escape, and characters beyond the basic plane may be surrogate pairs. It reads
more than is ever written here, and what is written it reads as the value it was written from.

## The model

* `Text.units`, `Text.ofUnits?`: the UTF-16 units of a character, and the characters of units.
* `Json.readUnits`: the units of a text up to its closing quote.
* `Json.readBracketed`: items between brackets, whatever reads an item.
* `Json.readValue`: a value that is nested no deeper than a limit. `Json.read?` reads a whole text;
  no value in it is nested deeper than the text is long.
* `Json.Takes`: reading takes a text as a value, whatever blanks stand before and text behind.

## Results

* `ofUnits?_units_append`: units tell their characters.
* **`readUnits_escape_append`**: an escaped character is read as its units.
* `readSequence_intercalate`: items that are taken one by one are taken with commas between them.
* **`takes_renderAt`**: the text of a value is taken as that value, in any layout.
* `isPlain_of_mem_renderAt`: it is printable ASCII and newlines.
-/

namespace JackSyntax

/-! ## Numerals and units -/

namespace Text

/-- The number of a hexadecimal digit, in upper or lower case. -/
def hexDigit? (c : Char) : Option Nat :=
  if '0' ≤ c ∧ c ≤ '9' then some (c.toNat - '0'.toNat)
  else if 'a' ≤ c ∧ c ≤ 'f' then some (c.toNat - 'a'.toNat + 10)
  else if 'A' ≤ c ∧ c ≤ 'F' then some (c.toNat - 'A'.toNat + 10)
  else none

/-- The number of some hexadecimal digits, most significant first. -/
def hexValue? (digits : List Char) : Option Nat :=
  digits.foldlM (fun value c => (hexDigit? c).map (16 * value + ·)) 0

theorem hexDigit?_hexDigit : ∀ n < 16, hexDigit? (hexDigit n) = some n := by decide

theorem hexValue?_hexDigits {width n : Nat} (h : n < 16 ^ width) :
    hexValue? (hexDigits width n) = some n := by
  induction width generalizing n with
  | zero =>
    obtain rfl : n = 0 := by simpa using h
    rfl
  | succ width ih =>
    have hfront := ih (n := n / 16) (by omega)
    have hlast := hexDigit?_hexDigit (n % 16) (by omega)
    have hdigits : 16 * (n / 16) + n % 16 = n := Nat.div_add_mod n 16
    rw [hexValue?] at hfront
    simp [hexDigits, hexValue?, List.foldlM_append, hfront, hlast, hdigits]

/-- The UTF-16 units of a character: itself, or a surrogate pair beyond the basic plane. -/
def units (c : Char) : List Nat :=
  if c.toNat < 0x10000 then [c.toNat]
  else [0xD800 + (c.toNat - 0x10000) / 0x400, 0xDC00 + (c.toNat - 0x10000) % 0x400]

theorem units_of_lt {c : Char} (h : c.toNat < 0x10000) : units c = [c.toNat] :=
  if_pos h

theorem lt_of_mem_units (c : Char) : ∀ unit ∈ units c, unit < 0x10000 := by
  have hvalid : c.toNat < 0xD800 ∨ 0xDFFF < c.toNat ∧ c.toNat < 0x110000 := c.valid
  unfold units
  split <;> simp <;> omega

/-- The characters of UTF-16 units. A high surrogate needs a low one behind it, and no low one
stands without. -/
def ofUnits? : List Nat → Option (List Char)
  | [] => some []
  | unit :: rest =>
    if unit < 0xD800 ∨ 0xE000 ≤ unit then (ofUnits? rest).map (Char.ofNat unit :: ·)
    else match rest with
      | [] => none
      | low :: rest =>
        if unit < 0xDC00 ∧ 0xDC00 ≤ low ∧ low < 0xE000 then
          (ofUnits? rest).map
            (Char.ofNat (0x10000 + (unit - 0xD800) * 0x400 + (low - 0xDC00)) :: ·)
        else none

/-- **Units tell their characters.** -/
theorem ofUnits?_units_append (c : Char) (rest : List Nat) :
    ofUnits? (units c ++ rest) = (ofUnits? rest).map (c :: ·) := by
  have hvalid : c.toNat < 0xD800 ∨ 0xDFFF < c.toNat ∧ c.toNat < 0x110000 := c.valid
  unfold units
  split
  · rw [List.singleton_append, ofUnits?.eq_def]
    simp only
    rw [if_pos (by omega), Char.ofNat_toNat]
  · have hback : 0x10000 + (0xD800 + (c.toNat - 0x10000) / 0x400 - 0xD800) * 0x400 +
        (0xDC00 + (c.toNat - 0x10000) % 0x400 - 0xDC00) = c.toNat := by omega
    rw [List.cons_append, List.singleton_append, ofUnits?.eq_def]
    simp only
    rw [if_neg (by omega), if_pos (by omega), hback, Char.ofNat_toNat]

theorem ofUnits?_flatMap_units (text : List Char) : ofUnits? (text.flatMap units) = some text := by
  induction text with
  | nil => rfl
  | cons c text ih => rw [List.flatMap_cons, ofUnits?_units_append, ih, Option.map_some]

end Text

namespace Json

/-! ## Reading texts -/

/-- The unit of an escape of one character. -/
def shortEscape? : Char → Option Nat
  | '"' => some '"'.toNat
  | '\\' => some '\\'.toNat
  | '/' => some '/'.toNat
  | 'b' => some 0x8
  | 'f' => some 0xC
  | 'n' => some 0xA
  | 'r' => some 0xD
  | 't' => some 0x9
  | _ => none

/-- The units of a text up to its closing quote, and what stands behind it. Control characters are
always escaped. -/
def readUnits : List Char → Option (List Nat × List Char)
  | '"' :: rest => some ([], rest)
  | '\\' :: 'u' :: a :: b :: c :: d :: rest =>
    (Text.hexValue? [a, b, c, d]).bind fun unit => (readUnits rest).map (Prod.map (unit :: ·) id)
  | '\\' :: c :: rest =>
    (shortEscape? c).bind fun unit => (readUnits rest).map (Prod.map (unit :: ·) id)
  | c :: rest =>
    if c.toNat < 0x20 then none else (readUnits rest).map (Prod.map (Text.units c ++ ·) id)
  | [] => none

/-- The text behind an opening quote, and what stands behind its closing one. -/
def readText (input : List Char) : Option (String × List Char) :=
  (readUnits input).bind fun (units, rest) =>
    (Text.ofUnits? units).map fun characters => (String.ofList characters, rest)

theorem readUnits_escapeUnit_append {unit : Nat} (h : unit < 0x10000) (rest : List Char) :
    readUnits (escapeUnit unit ++ rest) = (readUnits rest).map (Prod.map (unit :: ·) id) := by
  have hvalue := Text.hexValue?_hexDigits (show unit < 16 ^ 4 from h)
  obtain ⟨a, b, c, d, hdigits⟩ : ∃ a b c d, Text.hexDigits 4 unit = [a, b, c, d] :=
    ⟨_, _, _, _, rfl⟩
  rw [hdigits] at hvalue
  simp [escapeUnit, hdigits, readUnits, hvalue]

theorem readUnits_flatMap_escapeUnit {units : List Nat} (h : ∀ unit ∈ units, unit < 0x10000)
    (rest : List Char) :
    readUnits (units.flatMap escapeUnit ++ rest) =
      (readUnits rest).map (Prod.map (units ++ ·) id) := by
  induction units with
  | nil => exact (congrFun Option.map_id _).symm
  | cons unit units ih =>
    obtain ⟨hunit, hunits⟩ := List.forall_mem_cons.mp h
    rw [List.flatMap_cons, List.append_assoc, readUnits_escapeUnit_append hunit, ih hunits,
      Option.map_map]
    rfl

/-- An escape of one character that is no `u` stands for its unit. -/
theorem readUnits_shortEscape {c : Char} {unit : Nat} (h : shortEscape? c = some unit)
    (rest : List Char) :
    readUnits ('\\' :: c :: rest) = (readUnits rest).map (Prod.map (unit :: ·) id) := by
  have hmark : c ≠ 'u' := by
    rintro rfl
    cases h
  rw [readUnits, h, Option.bind_some]
  intro a b c' d rest' hu
  exact absurd hu hmark

/-- A character that is no control and neither a quote nor a backslash stands for itself. -/
theorem readUnits_plain {c : Char} (hquote : c ≠ '"') (hslash : c ≠ '\\') (hc : 0x20 ≤ c.toNat)
    (rest : List Char) :
    readUnits (c :: rest) = (readUnits rest).map (Prod.map (Text.units c ++ ·) id) := by
  rw [readUnits, if_neg (by omega)]
  -- What is left to show is that no case in front of this one applies.
  all_goals grind

/-- How a character is written: as an escape of one character, as itself, or unit by unit. -/
theorem escape_cases (c : Char) :
    (∃ mark, escape c = ['\\', mark] ∧ shortEscape? mark = some c.toNat ∧ c.toNat < 0x80) ∨
    (escape c = [c] ∧ c ≠ '"' ∧ c ≠ '\\' ∧ 0x20 ≤ c.toNat ∧ c.toNat ≤ 0x7E) ∨
    escape c = (Text.units c).flatMap escapeUnit := by
  unfold escape
  split_ifs with hmark hline hreturn htab hback hfeed hplain hbasic
  · simp only [Bool.or_eq_true, decide_eq_true_eq] at hmark
    rcases hmark with rfl | rfl
    · exact .inl ⟨'"', rfl, rfl, by decide⟩
    · exact .inl ⟨'\\', rfl, rfl, by decide⟩
  · exact .inl ⟨'n', rfl, hline ▸ rfl, hline ▸ by decide⟩
  · exact .inl ⟨'r', rfl, hreturn ▸ rfl, hreturn ▸ by decide⟩
  · exact .inl ⟨'t', rfl, htab ▸ rfl, htab ▸ by decide⟩
  · exact .inl ⟨'b', rfl, hback ▸ rfl, hback ▸ by decide⟩
  · exact .inl ⟨'f', rfl, hfeed ▸ rfl, hfeed ▸ by decide⟩
  · simp only [Bool.or_eq_true, decide_eq_true_eq, not_or] at hmark
    simp only [Bool.and_eq_true, decide_eq_true_eq] at hplain
    exact .inr (.inl ⟨rfl, hmark.1, hmark.2, hplain⟩)
  · exact .inr (.inr (by simp [Text.units, hbasic]))
  · exact .inr (.inr (by simp [Text.units, hbasic]))

/-- **An escaped character is read as its units.** -/
theorem readUnits_escape_append (c : Char) (rest : List Char) :
    readUnits (escape c ++ rest) = (readUnits rest).map (Prod.map (Text.units c ++ ·) id) := by
  rcases escape_cases c with ⟨mark, hescape, hunit, hbasic⟩ | ⟨hescape, hquote, hslash, hc, -⟩ |
    hescape
  · rw [hescape, List.cons_append, List.singleton_append, readUnits_shortEscape hunit,
      Text.units_of_lt (by omega)]
    rfl
  · rw [hescape, List.singleton_append, readUnits_plain hquote hslash hc]
  · rw [hescape, readUnits_flatMap_escapeUnit (Text.lt_of_mem_units c)]

theorem readUnits_renderText (text rest : List Char) :
    readUnits (text.flatMap escape ++ '"' :: rest) = some (text.flatMap Text.units, rest) := by
  induction text with
  | nil => rfl
  | cons c text ih =>
    rw [List.flatMap_cons, List.append_assoc, readUnits_escape_append, ih]
    rfl

theorem readText_renderText (text : String) (rest : List Char) :
    readText (text.toList.flatMap escape ++ '"' :: rest) = some (text, rest) := by
  rw [readText, readUnits_renderText, Option.bind_some]
  simp only [Text.ofUnits?_flatMap_units, Option.map_some, String.ofList_toList]

/-! ## Reading values -/

/-- The character may stand around any mark. -/
def isBlank (c : Char) : Bool :=
  c == ' ' || c == '\n' || c == '\t' || c == '\r'

/-- The text behind the blanks at its front. -/
def skipBlanks (input : List Char) : List Char :=
  input.dropWhile isBlank

/-- At most `limit` items with commas between them and the closing bracket behind the last one, and
what stands behind the bracket. -/
def readSequence {α : Type} (read : List Char → Option (α × List Char)) (closing : Char) :
    Nat → List Char → Option (List α × List Char)
  | 0, _ => none
  | limit + 1, input =>
    (read input).bind fun (item, behind) =>
      match skipBlanks behind with
      | ',' :: more => (readSequence read closing limit more).map (Prod.map (item :: ·) id)
      | mark :: rest => if mark = closing then some ([item], rest) else none
      | [] => none

/-- The items behind an opening bracket, and what stands behind the closing one. -/
def readBracketed {α : Type} (read : List Char → Option (α × List Char)) (closing : Char)
    (input : List Char) : Option (List α × List Char) :=
  match skipBlanks input with
  | mark :: rest =>
    if mark = closing then some ([], rest) else readSequence read closing input.length input
  | [] => none

/-- A field: its key, a colon and its value. -/
def readField (read : List Char → Option (Json × List Char)) (input : List Char) :
    Option ((String × Json) × List Char) :=
  match skipBlanks input with
  | '"' :: rest => (readText rest).bind fun (key, behind) =>
    match skipBlanks behind with
    | ':' :: rest => (read rest).map (Prod.map (key, ·) id)
    | _ => none
  | _ => none

/-- A value that is nested less than `depth` deep, and what stands behind it. -/
def readValue : Nat → List Char → Option (Json × List Char)
  | 0, _ => none
  | depth + 1, input =>
    match skipBlanks input with
    | '"' :: rest => (readText rest).map (Prod.map .text id)
    | '[' :: rest => (readBracketed (readValue depth) ']' rest).map (Prod.map .list id)
    | '\x7b' :: rest =>
      (readBracketed (readField (readValue depth)) '\x7d' rest).map (Prod.map .record id)
    | _ => none

/-- The value at the front of a text, and what stands behind it. -/
def read? (input : List Char) : Option (Json × List Char) :=
  readValue input.length input

/-! ## Items between brackets -/

/-- The text starts with a mark that opens a value. -/
def Opens (item : List Char) : Prop :=
  ∃ mark ∈ ['"', '[', '\x7b'], ∃ rest, item = mark :: rest

/-- Reading takes the text as the value, whatever blanks stand before and text behind; and the text
cannot be taken for a blank or a closing bracket. -/
structure Takes {α : Type} (read : List Char → Option (α × List Char)) (item : List Char)
    (value : α) : Prop where
  opens : Opens item
  reads : ∀ before rest, (∀ c ∈ before, isBlank c = true) →
    read (before ++ (item ++ rest)) = some (value, rest)

section Blanks

variable {mark : Char} {before rest : List Char}

theorem skipBlanks_cons (h : isBlank mark = false) : skipBlanks (mark :: rest) = mark :: rest :=
  List.dropWhile_cons_of_neg (by simp [h])

theorem skipBlanks_append (hbefore : ∀ c ∈ before, isBlank c = true) (h : isBlank mark = false) :
    skipBlanks (before ++ mark :: rest) = mark :: rest := by
  rw [skipBlanks, List.dropWhile_append_of_pos hbefore]
  exact skipBlanks_cons h

/-- A closing bracket is neither a blank, nor a comma, nor the start of a value. -/
theorem closing_apart {closing : Char} (h : closing ∈ [']', '\x7d']) :
    isBlank closing = false ∧ closing ≠ ',' ∧ closing ∉ ['"', '[', '\x7b'] := by
  simp only [List.mem_cons, List.not_mem_nil, or_false] at h
  rcases h with rfl | rfl <;> decide

theorem not_isBlank_of_opening (h : mark ∈ ['"', '[', '\x7b']) : isBlank mark = false := by
  simp only [List.mem_cons, List.not_mem_nil, or_false] at h
  rcases h with rfl | rfl | rfl <;> rfl

end Blanks

/-- A layout puts nothing but newlines and spaces between marks. -/
theorem Layout.mem_lineBreak (layout : Layout) (depth : Nat) :
    ∀ c ∈ layout.lineBreak depth, c = '\n' ∨ c = ' ' := by
  cases layout with
  | oneLine => simp [lineBreak]
  | indented width =>
    intro c hc
    rcases List.mem_cons.mp hc with rfl | hc
    · exact .inl rfl
    · exact .inr (List.eq_of_mem_replicate hc)

theorem Layout.separator_eq (layout : Layout) (depth : Nat) :
    ∃ gap, layout.separator depth = ',' :: gap ∧ ∀ c ∈ gap, c = '\n' ∨ c = ' ' := by
  cases layout with
  | oneLine => exact ⟨[' '], rfl, by simp⟩
  | indented width => exact ⟨_, rfl, mem_lineBreak (.indented width) depth⟩

theorem isBlank_of_mem {gap : List Char} (h : ∀ c ∈ gap, c = '\n' ∨ c = ' ') :
    ∀ c ∈ gap, isBlank c = true := by
  intro c hc
  rcases h c hc with rfl | rfl <;> rfl

section Brackets

theorem length_le_intercalate (gap : List Char) (items : List (List Char)) :
    items.length ≤ ((',' :: gap).intercalate items).length + 1 := by
  induction items with
  | nil => exact Nat.zero_le _
  | cons item items ih =>
    cases items with
    | nil => simp
    | cons next items =>
      rw [List.intercalate_cons_cons]
      simp only [List.length_cons, List.length_append] at ih ⊢
      omega

theorem length_le_of_mem_intercalate (separator : List Char) {item : List Char}
    {items : List (List Char)} (h : item ∈ items) :
    item.length ≤ (separator.intercalate items).length := by
  induction items with
  | nil => cases h
  | cons first items ih =>
    cases items with
    | nil => simp [List.mem_singleton.mp h]
    | cons next items =>
      rw [List.intercalate_cons_cons]
      simp only [List.length_append]
      rcases List.mem_cons.mp h with rfl | h
      · omega
      · have hle := ih h
        omega

theorem exists_eq_succ_of_bracket {layout : Layout} {depth fuel : Nat} {opening closing : Char}
    {items : List (List Char)} (h : (bracket layout depth opening closing items).length ≤ fuel) :
    ∃ more, fuel = more + 1 := by
  refine Nat.exists_eq_add_one.mpr (Nat.lt_of_lt_of_le ?_ h)
  rw [bracket]
  split <;> simp

theorem length_lt_bracket (layout : Layout) (depth : Nat) (opening closing : Char)
    {item : List Char} {items : List (List Char)} (h : item ∈ items) :
    item.length < (bracket layout depth opening closing items).length := by
  have hle := length_le_of_mem_intercalate (layout.separator (depth + 1)) h
  have hsome : items.isEmpty = false := by simp [List.ne_nil_of_mem h]
  simp only [bracket, hsome, Bool.false_eq_true, reduceIte, List.length_cons, List.length_append]
  omega

variable {α : Type} {read : List Char → Option (α × List Char)} {closing : Char}
  {items : List (List Char)} {values : List α}

/-- **Items that are taken one by one are taken with commas between them**, up to the closing
bracket. -/
theorem readSequence_intercalate {gap trail : List Char} (hclosing : closing ∈ [']', '\x7d'])
    (hgap : ∀ c ∈ gap, isBlank c = true) (htrail : ∀ c ∈ trail, isBlank c = true)
    (h : List.Forall₂ (Takes read) items values) (hsome : items ≠ []) {limit : Nat}
    (hlimit : items.length ≤ limit) (rest : List Char) :
    ∀ before, (∀ c ∈ before, isBlank c = true) →
      readSequence read closing limit
          (before ++ ((',' :: gap).intercalate items ++ (trail ++ closing :: rest))) =
        some (values, rest) := by
  obtain ⟨hblank, hcomma, -⟩ := closing_apart hclosing
  induction h generalizing limit with
  | nil => exact absurd rfl hsome
  | @cons item value items values hitem hitems ih =>
    intro before hbefore
    obtain ⟨limit, rfl⟩ : ∃ more, limit = more + 1 :=
      Nat.exists_eq_add_one.mpr (Nat.lt_of_lt_of_le (by simp) hlimit)
    cases hitems with
    | nil =>
      rw [List.intercalate_singleton, readSequence, hitem.reads _ _ hbefore, Option.bind_some]
      simp only [skipBlanks_append htrail hblank, reduceIte]
    | cons hnext hitems =>
      have hmore := ih (by simp) (Nat.le_of_succ_le_succ hlimit) gap hgap
      have hmark : isBlank ',' = false := rfl
      rw [List.intercalate_cons_cons, readSequence, List.append_assoc, List.append_assoc,
        hitem.reads _ _ hbefore, Option.bind_some]
      simp only [List.cons_append, skipBlanks_cons hmark, hmore, Option.map_some]
      rfl

/-- **What `bracket` writes behind the opening bracket is read as the items.** -/
theorem readBracketed_bracket (layout : Layout) (depth : Nat) (opening : Char)
    (hclosing : closing ∈ [']', '\x7d']) (h : List.Forall₂ (Takes read) items values) :
    ∃ inside, bracket layout depth opening closing items = opening :: inside ∧
      ∀ rest, readBracketed read closing (inside ++ rest) = some (values, rest) := by
  obtain ⟨hblank, -, hstart⟩ := closing_apart hclosing
  cases h with
  | nil =>
    refine ⟨[closing], rfl, fun rest => ?_⟩
    rw [List.singleton_append, readBracketed, skipBlanks_cons hblank]
    exact if_pos rfl
  | @cons item value items values hitem hitems =>
    obtain ⟨gap, hseparator, hgap⟩ := layout.separator_eq (depth + 1)
    have hbefore := isBlank_of_mem (layout.mem_lineBreak (depth + 1))
    have hbehind := isBlank_of_mem (layout.mem_lineBreak depth)
    refine ⟨layout.lineBreak (depth + 1) ++ ((',' :: gap).intercalate (item :: items) ++
      (layout.lineBreak depth ++ [closing])), by simp [bracket, hseparator], fun rest => ?_⟩
    have hlimit : (item :: items).length ≤ (layout.lineBreak (depth + 1) ++
        ((',' :: gap).intercalate (item :: items) ++
          (layout.lineBreak depth ++ closing :: rest))).length := by
      have hle := length_le_intercalate gap (item :: items)
      simp only [List.length_append, List.length_cons] at hle ⊢
      omega
    have hread := readSequence_intercalate hclosing (isBlank_of_mem hgap) hbehind
      (.cons hitem hitems) (by simp) hlimit rest _ hbefore
    -- The first item keeps what follows from being taken for the closing bracket.
    obtain ⟨mark, hmark, more, hopen⟩ := hitem.opens
    obtain ⟨tail, htail⟩ : ∃ tail, (',' :: gap).intercalate (item :: items) ++
        (layout.lineBreak depth ++ closing :: rest) = mark :: tail := by
      rw [hopen]
      cases items <;> simp [List.intercalate_cons_cons]
    have hapart : mark ≠ closing := fun hsame => hstart (hsame ▸ hmark)
    rw [htail] at hread
    simp only [List.append_assoc, List.singleton_append, readBracketed, htail,
      skipBlanks_append hbefore (not_isBlank_of_opening hmark), if_neg hapart, hread]

/-- Items in brackets are taken as a value when the opening bracket starts the reading of items. -/
theorem takes_bracket (layout : Layout) (depth : Nat) {opening : Char} {wrap : List α → Json}
    {readWhole : List Char → Option (Json × List Char)} (hopening : opening ∈ ['"', '[', '\x7b'])
    (hclosing : closing ∈ [']', '\x7d']) (h : List.Forall₂ (Takes read) items values)
    (hread : ∀ before rest, (∀ c ∈ before, isBlank c = true) →
      readWhole (before ++ opening :: rest) =
        (readBracketed read closing rest).map (Prod.map wrap id)) :
    Takes readWhole (bracket layout depth opening closing items) (wrap values) := by
  obtain ⟨inside, hbracket, hinside⟩ := readBracketed_bracket layout depth opening hclosing h
  rw [hbracket]
  refine ⟨⟨opening, hopening, inside, rfl⟩, fun before rest hbefore => ?_⟩
  rw [List.cons_append, hread before _ hbefore, hinside, Option.map_some]
  rfl

end Brackets

/-! ## Reading what is written -/

mutual

/-- **The text of a value is taken as that value.** -/
theorem takes_renderAt (layout : Layout) : ∀ (value : Json) (depth fuel : Nat),
    (value.renderAt layout depth).length ≤ fuel →
      Takes (readValue fuel) (value.renderAt layout depth) value
  | .text value, depth, fuel, hfuel => by
    rw [renderAt] at hfuel ⊢
    obtain ⟨fuel, rfl⟩ : ∃ more, fuel = more + 1 :=
      Nat.exists_eq_add_one.mpr (Nat.lt_of_lt_of_le (by simp [renderText]) hfuel)
    refine ⟨⟨'"', by simp, _, rfl⟩, fun before rest hbefore => ?_⟩
    have hquote : isBlank '"' = false := rfl
    simp only [renderText, List.cons_append, List.append_assoc, readValue,
      skipBlanks_append hbefore hquote, List.nil_append, readText_renderText, Option.map_some]
    rfl
  | .list items, depth, fuel, hfuel => by
    rw [renderAt] at hfuel ⊢
    obtain ⟨fuel, rfl⟩ := exists_eq_succ_of_bracket hfuel
    have hitems := takes_renderItems layout items (depth + 1) fuel fun item hitem =>
      Nat.le_of_lt_succ (Nat.lt_of_lt_of_le (length_lt_bracket layout depth '[' ']' hitem) hfuel)
    have hmark : isBlank '[' = false := rfl
    exact takes_bracket layout depth (by simp) (by simp) hitems fun before rest hbefore => by
      simp only [readValue, skipBlanks_append hbefore hmark]
  | .record fields, depth, fuel, hfuel => by
    rw [renderAt] at hfuel ⊢
    obtain ⟨fuel, rfl⟩ := exists_eq_succ_of_bracket hfuel
    have hfields := takes_renderFields layout fields (depth + 1) fuel fun field hfield =>
      Nat.le_of_lt_succ
        (Nat.lt_of_lt_of_le (length_lt_bracket layout depth '\x7b' '\x7d' hfield) hfuel)
    have hmark : isBlank '\x7b' = false := rfl
    exact takes_bracket layout depth (by simp) (by simp) hfields fun before rest hbefore => by
      simp only [readValue, skipBlanks_append hbefore hmark]

/-- The texts of the items of a list are taken as these items. -/
theorem takes_renderItems (layout : Layout) : ∀ (items : List Json) (depth fuel : Nat),
    (∀ item ∈ renderItems layout depth items, item.length ≤ fuel) →
      List.Forall₂ (Takes (readValue fuel)) (renderItems layout depth items) items
  | [], _, _, _ => .nil
  | item :: rest, depth, fuel, hfuel => by
    rw [renderItems] at hfuel ⊢
    obtain ⟨hitem, hrest⟩ := List.forall_mem_cons.mp hfuel
    exact .cons (takes_renderAt layout item depth fuel hitem)
      (takes_renderItems layout rest depth fuel hrest)

/-- The texts of the fields of a record are taken as these fields. -/
theorem takes_renderFields (layout : Layout) : ∀ (fields : List (String × Json)) (depth fuel : Nat),
    (∀ field ∈ renderFields layout depth fields, field.length ≤ fuel) →
      List.Forall₂ (Takes (readField (readValue fuel))) (renderFields layout depth fields) fields
  | [], _, _, _ => .nil
  | (key, value) :: rest, depth, fuel, hfuel => by
    rw [renderFields] at hfuel ⊢
    obtain ⟨hfield, hrest⟩ := List.forall_mem_cons.mp hfuel
    have hvalue := takes_renderAt layout value depth fuel (by simp at hfield; omega)
    refine .cons ⟨⟨'"', by simp, _, rfl⟩, fun before rest hbefore => ?_⟩
      (takes_renderFields layout rest depth fuel hrest)
    have hquote : isBlank '"' = false := rfl
    have hcolon : isBlank ':' = false := rfl
    have hread := hvalue.reads [' '] rest (by simp [isBlank])
    simp only [renderText, List.cons_append, List.append_assoc, List.nil_append, readField,
      skipBlanks_append hbefore hquote, readText_renderText, Option.bind_some,
      skipBlanks_cons hcolon] at hread ⊢
    rw [hread]
    rfl

end

/-- **A value is read back from its text**, with what stands behind it left over. -/
theorem read?_renderAt_append (layout : Layout) (value : Json) (rest : List Char) :
    read? (value.renderAt layout 0 ++ rest) = some (value, rest) :=
  (takes_renderAt layout value 0 _ (by simp)).reads [] rest (by simp)

/-! ## What is written is plain text -/

/-- The character is printable ASCII or a newline. -/
def IsPlain (c : Char) : Prop :=
  c = '\n' ∨ 0x20 ≤ c.toNat ∧ c.toNat ≤ 0x7E

theorem isPlain_of_mem_hexDigits {width n : Nat} : ∀ c ∈ Text.hexDigits width n, IsPlain c := by
  have hdigit : ∀ n < 16, 0x20 ≤ (Text.hexDigit n).toNat ∧ (Text.hexDigit n).toNat ≤ 0x7E := by
    decide
  induction width generalizing n with
  | zero => simp [Text.hexDigits]
  | succ width ih =>
    refine List.forall_mem_append.mpr ⟨ih, fun c hc => ?_⟩
    rw [List.mem_singleton.mp hc]
    exact .inr (hdigit (n % 16) (by omega))

theorem isPlain_of_shortEscape? {mark : Char} {unit : Nat} (h : shortEscape? mark = some unit) :
    IsPlain mark := by
  unfold shortEscape? at h
  split at h <;> first | exact .inr (by decide) | cases h

theorem isPlain_of_mem_escape (c : Char) : ∀ d ∈ escape c, IsPlain d := by
  have hslash : IsPlain '\\' := .inr (by decide)
  have hunit : IsPlain 'u' := .inr (by decide)
  rcases escape_cases c with ⟨mark, hescape, hmark, -⟩ | ⟨hescape, -, -, hplain⟩ | hescape
  · rw [hescape]
    simpa using ⟨hslash, isPlain_of_shortEscape? hmark⟩
  · rw [hescape]
    simpa using .inr hplain
  · rw [hescape]
    intro d hd
    obtain ⟨unit, -, hd⟩ := List.mem_flatMap.mp hd
    rcases List.mem_cons.mp hd with rfl | hd
    · exact hslash
    · rcases List.mem_cons.mp hd with rfl | hd
      · exact hunit
      · exact isPlain_of_mem_hexDigits d hd

theorem isPlain_of_mem_renderText (text : String) : ∀ c ∈ renderText text, IsPlain c := by
  have hquote : IsPlain '"' := .inr (by decide)
  intro c hc
  simp only [renderText, List.cons_append, List.mem_cons, List.mem_append, List.mem_flatMap,
    List.not_mem_nil, or_false] at hc
  rcases hc with rfl | ⟨d, -, hc⟩ | rfl
  · exact hquote
  · exact isPlain_of_mem_escape d c hc
  · exact hquote

theorem forall_mem_intercalate {p : Char → Prop} {separator : List Char} {items : List (List Char)}
    (hseparator : ∀ c ∈ separator, p c) (hitems : ∀ item ∈ items, ∀ c ∈ item, p c) :
    ∀ c ∈ separator.intercalate items, p c := by
  induction items with
  | nil => simp
  | cons item items ih =>
    obtain ⟨hitem, hrest⟩ := List.forall_mem_cons.mp hitems
    cases items with
    | nil => simpa using hitem
    | cons next items =>
      rw [List.intercalate_cons_cons]
      exact List.forall_mem_append.mpr ⟨List.forall_mem_append.mpr ⟨hitem, hseparator⟩, ih hrest⟩

theorem isPlain_of_mem_bracket {layout : Layout} {depth : Nat} {opening closing : Char}
    {items : List (List Char)} (hopening : IsPlain opening) (hclosing : IsPlain closing)
    (hitems : ∀ item ∈ items, ∀ c ∈ item, IsPlain c) :
    ∀ c ∈ bracket layout depth opening closing items, IsPlain c := by
  have hblank : ∀ c, c = '\n' ∨ c = ' ' → IsPlain c := by
    rintro c (rfl | rfl)
    · exact .inl rfl
    · exact .inr (by decide)
  have hcomma : IsPlain ',' := .inr (by decide)
  obtain ⟨gap, hseparator, hgap⟩ := layout.separator_eq (depth + 1)
  have hinside : ∀ c ∈ (layout.separator (depth + 1)).intercalate items, IsPlain c := by
    rw [hseparator]
    exact forall_mem_intercalate
      (List.forall_mem_cons.mpr ⟨hcomma, fun c hc => hblank c (hgap c hc)⟩) hitems
  intro c hc
  rw [bracket] at hc
  split at hc
  · simp only [List.mem_cons, List.not_mem_nil, or_false] at hc
    rcases hc with rfl | rfl
    · exact hopening
    · exact hclosing
  · simp only [List.cons_append, List.mem_cons, List.mem_append, List.not_mem_nil, or_false,
      or_assoc] at hc
    rcases hc with rfl | hc | hc | hc | rfl
    · exact hopening
    · exact hblank c (layout.mem_lineBreak (depth + 1) c hc)
    · exact hinside c hc
    · exact hblank c (layout.mem_lineBreak depth c hc)
    · exact hclosing

mutual

/-- The text of a value is plain. -/
theorem isPlain_of_mem_renderAt (layout : Layout) : ∀ (value : Json) (depth : Nat),
    ∀ c ∈ value.renderAt layout depth, IsPlain c
  | .text value, depth => isPlain_of_mem_renderText value
  | .list items, depth =>
    isPlain_of_mem_bracket (.inr (by decide)) (.inr (by decide))
      (isPlain_of_mem_renderItems layout items (depth + 1))
  | .record fields, depth =>
    isPlain_of_mem_bracket (.inr (by decide)) (.inr (by decide))
      (isPlain_of_mem_renderFields layout fields (depth + 1))

/-- The texts of items are plain. -/
theorem isPlain_of_mem_renderItems (layout : Layout) : ∀ (items : List Json) (depth : Nat),
    ∀ item ∈ renderItems layout depth items, ∀ c ∈ item, IsPlain c
  | [], _ => by simp [renderItems]
  | item :: rest, depth => by
    rw [renderItems]
    exact List.forall_mem_cons.mpr ⟨isPlain_of_mem_renderAt layout item depth,
      isPlain_of_mem_renderItems layout rest depth⟩

/-- The texts of fields are plain. -/
theorem isPlain_of_mem_renderFields (layout : Layout) : ∀ (fields : List (String × Json))
    (depth : Nat), ∀ field ∈ renderFields layout depth fields, ∀ c ∈ field, IsPlain c
  | [], _ => by simp [renderFields]
  | (key, value) :: rest, depth => by
    have hcolon : IsPlain ':' := .inr (by decide)
    have hblank : IsPlain ' ' := .inr (by decide)
    rw [renderFields]
    refine List.forall_mem_cons.mpr ⟨List.forall_mem_append.mpr
      ⟨isPlain_of_mem_renderText key, ?_⟩, isPlain_of_mem_renderFields layout rest depth⟩
    exact List.forall_mem_cons.mpr ⟨hcolon, List.forall_mem_cons.mpr ⟨hblank,
      isPlain_of_mem_renderAt layout value depth⟩⟩

end

end Json

end JackSyntax
