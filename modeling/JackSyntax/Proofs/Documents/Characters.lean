import JackSyntax.Proofs.Documents.Agreement

/-!
# Where the characters of a document come from

Between a source text and its documents characters are only dropped, moved, or replaced by ASCII. So
a markup document holds no character beyond ASCII that the source has not, and a JSON document holds
none at all.

## The model

* `Text.DrawnFrom source text`: every character of the text is ASCII or one of the source.
* `Event.DrawnFrom source event`: so are the names and the text of an event.

## Results

* `Spells.drawnFrom`, `Splits.drawnFrom`: tokens are drawn from what they are scanned from. The
  numeral of an integer is not what it was read from, but it is ASCII.
* `Ebnf.Derives.mem_events`: the events of a derived tree are those of its words, and tags.
* `Event.Shown.drawnFrom`: lines are drawn from what their events are.
* **`Artifacts.drawnFrom_source`**: both documents are drawn from the source text.
* `Artifacts.isPlain_of_json`: JSON documents are newlines and printable ASCII.
-/

namespace JackSyntax

/-! ## Texts drawn from a source -/

/-- Every character of the text is ASCII. -/
def Text.isAscii (text : String) : Bool :=
  text.toList.all (·.toNat < 0x80)

/-- Every character of the text is ASCII or one of the source. -/
def Text.DrawnFrom (source text : List Char) : Prop :=
  ∀ c ∈ text, c.toNat < 0x80 ∨ c ∈ source

namespace Text.DrawnFrom

variable {source more text : List Char}

theorem of_subset (h : text ⊆ source) : DrawnFrom source text :=
  fun _ hc => .inr (h hc)

theorem of_ascii (h : ∀ c ∈ text, c.toNat < 0x80) : DrawnFrom source text :=
  fun c hc => .inl (h c hc)

theorem of_isAscii {text : String} (h : isAscii text = true) : DrawnFrom source text.toList :=
  of_ascii (by simpa using List.all_eq_true.mp h)

theorem mono (h : DrawnFrom source text) (hsource : source ⊆ more) : DrawnFrom more text :=
  fun c hc => (h c hc).imp_right fun hc => hsource hc

theorem append_iff {first second : List Char} :
    DrawnFrom source (first ++ second) ↔ DrawnFrom source first ∧ DrawnFrom source second :=
  List.forall_mem_append

theorem cons_iff {c : Char} :
    DrawnFrom source (c :: text) ↔ (c.toNat < 0x80 ∨ c ∈ source) ∧ DrawnFrom source text :=
  List.forall_mem_cons

theorem nil : DrawnFrom source [] :=
  of_ascii (List.forall_mem_nil _)

end Text.DrawnFrom

open Text (DrawnFrom)

/-! ## Scanning -/

theorem toNat_lt_of_isDigit {c : Char} (h : isDigit c = true) : c.toNat < 0x80 := by
  simp only [isDigit, Bool.and_eq_true, decide_eq_true_eq, Char.le_def,
    UInt32.le_iff_toNat_le] at h
  exact Nat.lt_of_le_of_lt h.2 (by decide)

/-- **A word is drawn from the characters that spell it.** -/
theorem Spells.drawnFrom {word : Word} {l rest : List Char} (h : Spells word l rest) :
    DrawnFrom l word.text.toList := by
  cases h with
  | string =>
    rw [String.toList_ofList]
    exact .of_subset fun c hc => List.mem_cons_of_mem _ (List.mem_append_left _ hc)
  | integer => exact .of_ascii fun c hc => toNat_lt_of_isDigit (isDigit_of_mem_toString hc)
  | name =>
    rw [String.toList_ofList]
    exact .of_subset (List.Subset.refl _)
  | mark =>
    rw [String.toList_singleton]
    exact .of_subset (List.Subset.refl _)

theorem Splits.drawnFrom {passed text : List Char} {tokens : List Token}
    (h : Splits passed text tokens) : ∀ token ∈ tokens, DrawnFrom text token.text.toList := by
  induction h with
  | last => simp
  | @token passed g l rest word tokens _ hword _ ih =>
    intro token htoken
    rcases List.mem_cons.mp htoken with rfl | htoken
    · exact hword.drawnFrom.mono fun c hc =>
        List.mem_append_left _ (List.mem_append_right _ hc)
    · exact (ih token htoken).mono (List.subset_append_right _ _)

/-- The words of a source text are drawn from it. -/
theorem drawnFrom_of_scan {source : String} {tokens : List Token}
    (h : Token.scan source = .ok tokens) :
    ∀ word ∈ tokens.map Token.word, DrawnFrom source.toList word.text.toList := by
  intro word hword
  obtain ⟨token, htoken, rfl⟩ := List.mem_map.mp hword
  exact (Token.splits_of_scan h).drawnFrom token htoken

/-! ## Events -/

/-- The names and the text of the event are drawn from the source. -/
def Event.DrawnFrom (source : List Char) : Event → Prop
  | opened tag | closed tag => Text.DrawnFrom source tag.toList
  | leaf kind text => Text.DrawnFrom source kind.toList ∧ Text.DrawnFrom source text.toList

theorem drawnFrom_leafText {source : List Char} {kind text : String}
    (h : DrawnFrom source text.toList) : DrawnFrom source (Markup.leafText kind text).toList := by
  have hescapes : Vocabulary.markupEscapes.all (fun pair => Text.isAscii pair.2) = true := by decide
  rcases Markup.leafText_cases kind text with htext | ⟨pair, hpair, htext⟩
  · rwa [htext]
  · rw [htext]
    exact .of_isAscii (List.all_eq_true.mp hescapes pair hpair)

namespace Event.DrawnFrom

open Text.DrawnFrom (append_iff cons_iff nil)

variable {source : List Char} {event : Event}

/-- The brackets around names are ASCII. -/
theorem line (h : event.DrawnFrom source) : Text.DrawnFrom source event.line.toList := by
  cases event with
  | opened tag =>
    have htag : Text.DrawnFrom source tag.toList := h
    simp [toList_line_opened, append_iff, cons_iff, nil, htag]
  | leaf kind text =>
    obtain ⟨hkind, htext⟩ := h
    simp [toList_line_leaf, append_iff, cons_iff, nil, hkind, drawnFrom_leafText htext]
  | closed tag =>
    have htag : Text.DrawnFrom source tag.toList := h
    simp [toList_line_closed, append_iff, cons_iff, nil, htag]

theorem lineAt (h : event.DrawnFrom source) (indent : Int) (depth : Nat) :
    Text.DrawnFrom source (event.lineAt indent depth).toList := by
  rw [Event.lineAt, String.toList_append, append_iff]
  refine ⟨.of_ascii fun c hc => ?_, h.line⟩
  rw [Markup.margin, String.toList_ofList] at hc
  rw [List.eq_of_mem_replicate hc]
  decide

end Event.DrawnFrom

/-- **Lines are drawn from what their events are.** -/
theorem Event.Shown.drawnFrom {source : List Char} {indent : Int} {lines : List String}
    {events : List Event} (h : Shown indent lines events)
    (hevents : ∀ event ∈ events, event.DrawnFrom source) :
    Text.DrawnFrom source (String.join (lines.map (· ++ "\n"))).toList := by
  induction h with
  | nil => exact .nil
  | @cons line event lines events hline _ ih =>
    obtain ⟨depth, rfl⟩ := hline
    obtain ⟨hevent, hrest⟩ := List.forall_mem_cons.mp hevents
    rw [List.map_cons, String.join_cons, String.toList_append, String.toList_append,
      Text.DrawnFrom.append_iff, Text.DrawnFrom.append_iff]
    exact ⟨⟨hevent.lineAt indent depth, .of_isAscii rfl⟩, ih hrest⟩

/-! ## Trees -/

theorem Tree.eventsAll_append (ts us : List Tree) :
    Tree.eventsAll (ts ++ us) = Tree.eventsAll ts ++ Tree.eventsAll us := by
  induction ts with
  | nil => rfl
  | cons t ts ih => simp only [List.cons_append, Tree.eventsAll, ih, List.append_assoc]

/-- What an event of a tree is that a grammar derives from some words. -/
inductive Event.Derived (words : List Word) : Event → Prop
  | word {word : Word} (h : word ∈ words) : Derived words (.leaf word.kind.tag word.text)
  | opened {production : Production} {tag : String} (h : production.tag? = some tag) :
    Derived words (.opened tag)
  | closed {production : Production} {tag : String} (h : production.tag? = some tag) :
    Derived words (.closed tag)

theorem Event.Derived.mono {words more : List Word} {event : Event} (h : event.Derived words)
    (hwords : words ⊆ more) : event.Derived more := by
  cases h with
  | word h => exact .word (hwords h)
  | opened h => exact .opened h
  | closed h => exact .closed h

/-- **The events of a derived tree** are those of its words, and tags of productions. -/
theorem Ebnf.Derives.mem_events {grammar : Production → Ebnf} {e : Ebnf} {n : Nat} {w : List Word}
    {ts : List Tree} (h : Derives grammar e n w ts) :
    ∀ event ∈ Tree.eventsAll ts, event.Derived w := by
  induction h with
  | terminal word =>
    intro event hevent
    rw [List.mem_singleton.mp hevent]
    exact .word List.mem_cons_self
  | nonterminal production _ ih =>
    unfold Production.wrap
    split
    · rename_i tag htag
      simp only [Tree.eventsAll, Tree.events, List.append_nil, List.cons_append,
        List.forall_mem_cons, List.forall_mem_append]
      exact ⟨.opened htag, ih, .closed htag, List.forall_mem_nil _⟩
    · exact ih
  | empty | done => exact List.forall_mem_nil _
  | seq _ _ ihfirst ihsecond | more _ _ ihfirst ihsecond =>
    rw [Tree.eventsAll_append]
    exact List.forall_mem_append.mpr
      ⟨fun event hevent => (ihfirst event hevent).mono (List.subset_append_left _ _),
        fun event hevent => (ihsecond event hevent).mono (List.subset_append_right _ _)⟩
  | left _ ih | right _ ih => exact ih

theorem isAscii_tag (kind : TokenKind) : Text.isAscii kind.tag = true := by
  cases kind <;> decide

theorem isAscii_tag? {production : Production} {tag : String}
    (h : production.tag? = some tag) : Text.isAscii tag = true := by
  cases production <;> cases h <;> decide

/-- Tags are ASCII, and so are the kinds of tokens. -/
theorem Event.Derived.drawnFrom {source : List Char} {words : List Word} {event : Event}
    (h : event.Derived words) (hwords : ∀ word ∈ words, Text.DrawnFrom source word.text.toList) :
    event.DrawnFrom source := by
  cases h with
  | word hword => exact ⟨.of_isAscii (isAscii_tag _), hwords _ hword⟩
  | opened htag => exact .of_isAscii (isAscii_tag? htag)
  | closed htag => exact .of_isAscii (isAscii_tag? htag)

theorem Tree.drawnFrom_of_ofTokens {source : List Char} {tokens : List Token} {tree : Tree}
    (h : Tree.ofTokens tokens = .ok tree)
    (hwords : ∀ word ∈ tokens.map Token.word, DrawnFrom source word.text.toList) :
    ∀ event ∈ tree.events, event.DrawnFrom source := by
  obtain ⟨height, -, hd⟩ := derives_of_ofTokens h
  intro event hevent
  have hall : event ∈ Tree.eventsAll [tree] :=
    Tree.mem_eventsAll_iff.mpr ⟨tree, List.mem_cons_self, hevent⟩
  exact (hd.mem_events event hall).drawnFrom hwords

theorem Tree.drawnFrom_listingTree {source : List Char} {tokens : List Token}
    (hwords : ∀ word ∈ tokens.map Token.word, DrawnFrom source word.text.toList) :
    ∀ event ∈ (Document.listingTree tokens).events, event.DrawnFrom source := by
  have htag : DrawnFrom source Document.listingTag.toList := .of_isAscii rfl
  simp only [Document.listingTree, Tree.events, List.cons_append, List.forall_mem_cons,
    List.forall_mem_append]
  refine ⟨htag, fun event hevent => ?_, htag, List.forall_mem_nil _⟩
  obtain ⟨tree, htree, hevent⟩ := Tree.mem_eventsAll_iff.mp hevent
  obtain ⟨token, htoken, rfl⟩ := List.mem_map.mp htree
  rw [List.mem_singleton.mp hevent]
  exact ⟨.of_isAscii (isAscii_tag _), hwords _ (List.mem_map_of_mem htoken)⟩

/-! ## Documents -/

theorem Json.IsPlain.toNat_lt {c : Char} (h : IsPlain c) : c.toNat < 0x80 := by
  rcases h with rfl | h
  · decide
  · omega

namespace Document

theorem drawnFrom_of_ofTree_xml {source : List Char} {tree : Tree} {indent : Option Int}
    {document : String} (hproper : tree.isProper = true)
    (hevents : ∀ event ∈ tree.events, event.DrawnFrom source)
    (h : ofTree .xml indent tree = .ok document) : DrawnFrom source document.toList := by
  rw [ofTree_xml hproper, Except.ok.injEq] at h
  rw [← h]
  exact (Tree.lines_tell_events _ 0 tree).drawnFrom hevents

theorem isPlain_of_ofTree_json {tag : String} {children : List Tree} {indent : Option Int}
    {document : String} (hproper : (Tree.node tag children).isProper = true)
    (h : ofTree .json indent (.node tag children) = .ok document) :
    ∀ c ∈ document.toList, Json.IsPlain c := by
  obtain ⟨value, hvalue⟩ := Tree.exists_toJson? _ hproper
  rw [ofTree_json hvalue, Except.ok.injEq] at h
  rw [← h]
  exact Json.isPlain_of_mem_render _ value

end Document

namespace Artifacts

variable {target : Target} {indent : Option Int} {source : String} {artifacts : Artifacts}

/-- Both documents. -/
def documents (artifacts : Artifacts) : List String :=
  [artifacts.listing, artifacts.tree]

/-- JSON documents are newlines and printable ASCII. -/
theorem isPlain_of_json (h : ofSource .json indent source = .ok artifacts) :
    ∀ document ∈ artifacts.documents, ∀ c ∈ document.toList, Json.IsPlain c := by
  obtain ⟨tokens, tree, hscan, htree, -, -, hlisting, htext⟩ := ofSource_eq_ok_iff.mp h
  obtain ⟨tag, children, rfl⟩ := Tree.eq_node_of_ofTokens htree
  have hproper := (Tree.legible_of_ofTokens (wellFormed_of_scan hscan) htree).isProper
  simp only [documents, List.forall_mem_cons]
  exact ⟨Document.isPlain_of_ofTree_json (areProper_map_ofToken tokens) hlisting,
    Document.isPlain_of_ofTree_json hproper htext, List.forall_mem_nil _⟩

/-- **Both documents are drawn from the source text.** -/
theorem drawnFrom_source (h : ofSource target indent source = .ok artifacts) :
    ∀ document ∈ artifacts.documents, DrawnFrom source.toList document.toList := by
  cases target with
  | json => exact fun document hdocument =>
      .of_ascii fun c hc => (isPlain_of_json h document hdocument c hc).toNat_lt
  | xml =>
    obtain ⟨tokens, tree, hscan, htree, -, -, hlisting, htext⟩ := ofSource_eq_ok_iff.mp h
    have hwords := drawnFrom_of_scan hscan
    have hproper := (Tree.legible_of_ofTokens (wellFormed_of_scan hscan) htree).isProper
    have hlistingProper : (Document.listingTree tokens).isProper = true :=
      areProper_map_ofToken tokens
    simp only [documents, List.forall_mem_cons]
    exact ⟨Document.drawnFrom_of_ofTree_xml hlistingProper (Tree.drawnFrom_listingTree hwords)
        hlisting,
      Document.drawnFrom_of_ofTree_xml hproper (Tree.drawnFrom_of_ofTokens htree hwords) htext,
      List.forall_mem_nil _⟩

end Artifacts

end JackSyntax
