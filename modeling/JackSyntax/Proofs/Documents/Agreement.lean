import JackSyntax.Proofs.Documents.JsonCopy
import JackSyntax.Proofs.Documents.Margins

/-!
# The two documents of a source text agree

The listing is written from the tokens, the tree goes through every production of the grammar. Taken
down to their leaves, both say the same, and that is what was scanned.

## The model

* `Document.leafLines`: the lines of a markup document that are not those of tags, without margins.
* `Json.leaves`: the leaves of a record in document order, wherever they are nested.

## Results

* `leaves_of_ofTokens`: the leaves of a parse tree are its tokens.
* **`leafLines_join_lines`**: the leaf lines of a tree are the lines of its leaves.
* `leaves_of_toJson?`: the leaves of the record of a tree are those of the tree.
* **`documents_agree`**: both documents of a source text show its tokens, in either format.
-/

namespace JackSyntax

/-! ## The leaves of trees -/

/-- The event of a leaf. -/
def Event.ofLeaf (leaf : String × String) : Event :=
  .leaf leaf.1 leaf.2

/-- The event is that of a leaf. -/
def Event.isLeaf : Event → Bool
  | leaf _ _ => true
  | opened _ | closed _ => false

namespace Tree

mutual

/-- The leaf events of a tree are its leaves in order. -/
theorem filter_isLeaf_events : ∀ tree : Tree,
    tree.events.filter Event.isLeaf = tree.leaves.map Event.ofLeaf
  | .leaf _ _ => rfl
  | .node tag children => by
    have hchildren := filter_isLeaf_eventsAll children
    simp [events, leaves, Event.isLeaf, hchildren]
  | .foreign _ => rfl

/-- The leaf events of several trees are their leaves in order. -/
theorem filter_isLeaf_eventsAll : ∀ trees : List Tree,
    (eventsAll trees).filter Event.isLeaf = (leavesAll trees).map Event.ofLeaf
  | [] => rfl
  | tree :: rest => by
    rw [eventsAll, leavesAll, List.filter_append, List.map_append, filter_isLeaf_events tree,
      filter_isLeaf_eventsAll rest]

end

/-- The leaves of a listing are its tokens. -/
theorem leaves_listingTree (tokens : List Token) :
    (Document.listingTree tokens).leaves = tokens.map (·.word.shown) := by
  rw [Document.listingTree, leaves]
  induction tokens with
  | nil => rfl
  | cons token tokens ih =>
    rw [List.map_cons, leavesAll, ih]
    rfl

/-- **The leaves of a parse tree are its tokens.** -/
theorem leaves_of_ofTokens {tokens : List Token} {tree : Tree} (h : ofTokens tokens = .ok tree) :
    tree.leaves = tokens.map (·.word.shown) := by
  obtain ⟨height, -, hd⟩ := derives_of_ofTokens h
  have hleaves := hd.leavesAll
  rwa [leavesAll, leavesAll, List.append_nil, List.map_map] at hleaves

/-- A parse tree is a node. -/
theorem eq_node_of_ofTokens {tokens : List Token} {tree : Tree} (h : ofTokens tokens = .ok tree) :
    ∃ tag children, tree = node tag children := by
  obtain ⟨height, -, hd⟩ := derives_of_ofTokens h
  obtain ⟨_, children, -, -, hwrap⟩ := Ebnf.derives_nonterminal_iff.mp hd
  exact ⟨"class", children, List.singleton_inj.mp hwrap⟩

end Tree

/-! ## Leaf lines -/

/-- The lines of a markup document without their margins, those of tags left out. -/
def Document.leafLines (document : String) : List (List Char) :=
  ((Text.lines document.toList).map (·.dropWhile (· == ' '))).filter fun line =>
    (Event.ofMarkup? line).all Event.isLeaf

/-- Without their margins, lines are those of their events. -/
theorem Event.Shown.map_dropWhile {indent : Int} {lines : List String} {events : List Event}
    (h : Shown indent lines events) :
    (lines.map String.toList).map (·.dropWhile (· == ' ')) = events.map (·.line.toList) := by
  induction h with
  | nil => rfl
  | cons hline _ ih =>
    obtain ⟨depth, rfl⟩ := hline
    rw [List.map_cons, List.map_cons, List.map_cons, dropWhile_lineAt, ih]

theorem filter_line_of_clear {events : List Event} (h : ∀ event ∈ events, event.Clear) :
    (events.map (·.line.toList)).filter (fun line => (Event.ofMarkup? line).all Event.isLeaf) =
      (events.filter Event.isLeaf).map (·.line.toList) := by
  rw [List.filter_map]
  congr 1
  refine List.filter_congr fun event hevent => ?_
  simp [ofMarkup?_line (h event hevent)]

/-- **The leaf lines of a tree are the lines of its leaves**, when its lines tell its events. -/
theorem leafLines_join_lines {tree : Tree}
    (hevents : ∀ event ∈ tree.events, event.Clear ∧ event.OneLine) (indent : Int) :
    Document.leafLines (String.join ((tree.lines indent 0).map (· ++ "\n"))) =
      tree.leaves.map fun leaf => (Event.ofLeaf leaf).line.toList := by
  have hshown := Tree.lines_tell_events indent 0 tree
  rw [Document.leafLines,
    Text.lines_join (hshown.newline_not_mem fun event hevent => (hevents event hevent).2),
    hshown.map_dropWhile, filter_line_of_clear fun event hevent => (hevents event hevent).1,
    Tree.filter_isLeaf_events, List.map_map]
  rfl

theorem leafLines_of_ofTree {tree : Tree} (hproper : tree.isProper = true)
    (hevents : ∀ event ∈ tree.events, event.Clear ∧ event.OneLine) {indent : Option Int}
    {document : String} (h : Document.ofTree .xml indent tree = .ok document) :
    Document.leafLines document = tree.leaves.map fun leaf => (Event.ofLeaf leaf).line.toList := by
  rw [Document.ofTree_xml hproper, Except.ok.injEq] at h
  rw [← h, leafLines_join_lines hevents]

/-- The lines of a listing tell its events. -/
theorem events_listingTree {tokens : List Token}
    (h : ∀ word ∈ tokens.map Token.word, word.WellFormed) :
    ∀ event ∈ (Document.listingTree tokens).events, event.Clear ∧ event.OneLine := by
  have htag : Event.ClearName Document.listingTag ∧ '\n' ∉ Document.listingTag.toList := by
    unfold Event.ClearName
    decide
  intro event hevent
  simp only [Document.listingTree, Tree.events, List.cons_append, List.mem_cons, List.mem_append,
    List.not_mem_nil, or_false] at hevent
  rcases hevent with rfl | hevent | rfl
  · exact htag
  · obtain ⟨tree, htree, hevent⟩ := Tree.mem_eventsAll_iff.mp hevent
    obtain ⟨token, htoken, rfl⟩ := List.mem_map.mp htree
    rw [List.mem_singleton.mp hevent]
    have hword := h _ (List.mem_map_of_mem htoken)
    exact ⟨Token.clear_event hword, Token.oneLine_event hword⟩
  · exact ⟨trivial, htag.2⟩

/-! ## Leaves of records -/

namespace Json

/-- The leaf of a record with a kind and a text. -/
def leafOf? (fields : List (String × Json)) : Option (String × String) :=
  match fields.lookup "kind", fields.lookup "text" with
  | some (.text kind), some (.text shown) => some (kind, shown)
  | _, _ => none

mutual

/-- The leaves of a value in document order. -/
def leaves : Json → List (String × String)
  | text _ => []
  | list items => leavesAll items
  | record fields =>
    match leafOf? fields with
    | some leaf => [leaf]
    | none => leavesIn fields

/-- The leaves of several values. -/
def leavesAll : List Json → List (String × String)
  | [] => []
  | value :: rest => value.leaves ++ leavesAll rest

/-- The leaves in the fields of a record. -/
def leavesIn : List (String × Json) → List (String × String)
  | [] => []
  | (_, value) :: rest => value.leaves ++ leavesIn rest

end

theorem leaves_ofLeaf (kind text : String) : (ofLeaf kind text).leaves = [(kind, text)] := rfl

theorem leaves_ofNode (tag : String) (children : List Json) :
    (ofNode tag children).leaves = leavesAll children := by
  have hleaf : leafOf? [("tag", .text tag), ("children", .list children)] = none := rfl
  simp [ofNode, leaves, hleaf, leavesIn]

end Json

namespace Tree

mutual

/-- **The leaves of the record of a tree** are those of the tree. -/
theorem leaves_of_toJson? : ∀ (tree : Tree) (value : Json), tree.toJson? = some value →
    value.leaves = tree.leaves
  | .leaf kind text, value, h => by
    cases h
    exact Json.leaves_ofLeaf kind text
  | .node tag children, value, h => by
    obtain ⟨values, hvalues, rfl⟩ := toJson?_node_eq_some h
    rw [Json.leaves_ofNode, leaves, leavesAll_of_toJsonAll? children values hvalues]
  | .foreign _, _, h => by cases h

/-- The leaves of the records of trees are those of the trees. -/
theorem leavesAll_of_toJsonAll? : ∀ (trees : List Tree) (values : List Json),
    toJsonAll? trees = some values → Json.leavesAll values = leavesAll trees
  | [], values, h => by
    cases h
    rfl
  | tree :: rest, values, h => by
    obtain ⟨value, others, hvalue, hothers, rfl⟩ := toJsonAll?_cons_eq_some h
    rw [Json.leavesAll, leavesAll, leaves_of_toJson? tree value hvalue,
      leavesAll_of_toJsonAll? rest others hothers]

end

end Tree

/-- The document of a node is read as a record with the leaves of the node. -/
theorem exists_read?_of_isProper {tag : String} {children : List Tree} {document : String}
    {indent : Option Int} (hproper : (Tree.node tag children).isProper = true)
    (h : Document.ofTree .json indent (.node tag children) = .ok document) :
    ∃ value, Json.read? document.toList = some (value, ['\n']) ∧
      value.leaves = (Tree.node tag children).leaves := by
  obtain ⟨value, hvalue⟩ := Tree.exists_toJson? _ hproper
  rw [Document.ofTree_json hvalue, Except.ok.injEq] at h
  subst h
  exact ⟨value, Json.read?_render _ value, Tree.leaves_of_toJson? _ value hvalue⟩

/-! ## Both documents -/

theorem Document.exists_ofTree {tag : String} {children : List Tree}
    (h : (Tree.node tag children).isProper = true) (target : Target) (indent : Option Int) :
    ∃ document, Document.ofTree target indent (.node tag children) = .ok document := by
  cases target with
  | xml => exact ⟨_, Document.ofTree_xml h indent⟩
  | json =>
    obtain ⟨value, hvalue⟩ := Tree.exists_toJson? _ h
    exact ⟨_, Document.ofTree_json hvalue indent⟩

/-- The documents of a source text are those of its tokens and of their tree, when the margins of
both can be counted. -/
theorem Artifacts.ofSource_eq_ok_iff {target : Target} {indent : Option Int} {source : String}
    {artifacts : Artifacts} :
    Artifacts.ofSource target indent source = .ok artifacts ↔
      ∃ tokens tree, Token.scan source = .ok tokens ∧ Tree.ofTokens tokens = .ok tree ∧
        Document.fits target indent (Document.listingTree tokens) = true ∧
        Document.fits target indent tree = true ∧
        Document.listing target indent tokens = .ok artifacts.listing ∧
        Document.ofTree target indent tree = .ok artifacts.tree := by
  simp only [ofSource, ofTokens, except_bind_eq_ok_iff, mapError_eq_ok_iff,
    Document.checkMargins_eq_ok_iff]
  constructor
  · rintro ⟨tokens, hscan, -, hfirst, listing, hlisting, tree, htree, -, hsecond, text, htext,
      hpair⟩
    cases hpair
    exact ⟨tokens, tree, hscan, htree, hfirst, hsecond, hlisting, htext⟩
  · rintro ⟨tokens, tree, hscan, htree, hfirst, hsecond, hlisting, htext⟩
    exact ⟨tokens, hscan, (), hfirst, _, hlisting, tree, htree, (), hsecond, _, htext, rfl⟩

/-- A source text that has a tree has both documents, in either format, when the margins of both can
be counted. -/
theorem Artifacts.exists_of_fits {source : String} {tokens : List Token} {tree : Tree}
    {target : Target} {indent : Option Int} (hscan : Token.scan source = .ok tokens)
    (htree : Tree.ofTokens tokens = .ok tree)
    (hfirst : Document.fits target indent (Document.listingTree tokens) = true)
    (hsecond : Document.fits target indent tree = true) :
    ∃ artifacts, Artifacts.ofSource target indent source = .ok artifacts := by
  obtain ⟨tag, children, rfl⟩ := Tree.eq_node_of_ofTokens htree
  have hproper := (Tree.legible_of_ofTokens (wellFormed_of_scan hscan) htree).isProper
  obtain ⟨listing, hlisting⟩ :=
    Document.exists_ofTree (areProper_map_ofToken tokens) target indent
  obtain ⟨text, htext⟩ := Document.exists_ofTree hproper target indent
  exact ⟨⟨listing, text⟩, Artifacts.ofSource_eq_ok_iff.mpr
    ⟨tokens, _, hscan, htree, hfirst, hsecond, hlisting, htext⟩⟩

/-- The margins can be counted whenever those of the deepest nesting can. -/
theorem Artifacts.exists_ofSource {source : String} {tokens : List Token} {tree : Tree}
    (hscan : Token.scan source = .ok tokens) (htree : Tree.ofTokens tokens = .ok tree)
    (target : Target) {indent : Option Int}
    (hindent : ∀ width, indent = some width →
      Document.isIndex (width * Vocabulary.deepestNesting) = true) :
    ∃ artifacts, Artifacts.ofSource target indent source = .ok artifacts := by
  obtain ⟨hfirst, hsecond⟩ := Document.fits_of_ofTokens target hindent htree
  exact exists_of_fits hscan htree hfirst hsecond

/-- **The two documents of a source text agree.** Without the lines of tags, and without margins,
both markup documents are the lines of the tokens in order. Both JSON documents are read as records
whose leaves are the kinds and texts of the tokens in order. -/
theorem documents_agree (source : String) (indent : Option Int) :
    (∀ artifacts, Artifacts.ofSource .xml indent source = .ok artifacts →
      ∃ tokens, Token.scan source = .ok tokens ∧
        Document.leafLines artifacts.listing = tokens.map (·.event.line.toList) ∧
        Document.leafLines artifacts.tree = tokens.map (·.event.line.toList)) ∧
    ∀ artifacts, Artifacts.ofSource .json indent source = .ok artifacts →
      ∃ tokens listing tree, Token.scan source = .ok tokens ∧
        Json.read? artifacts.listing.toList = some (listing, ['\n']) ∧
        Json.read? artifacts.tree.toList = some (tree, ['\n']) ∧
        listing.leaves = tokens.map (fun token => (token.kind.tag, token.text)) ∧
        tree.leaves = tokens.map (fun token => (token.kind.tag, token.text)) := by
  refine ⟨fun artifacts h => ?_, fun artifacts h => ?_⟩
  · obtain ⟨tokens, tree, hscan, htree, -, -, hlisting, htext⟩ :=
      Artifacts.ofSource_eq_ok_iff.mp h
    have hwords := wellFormed_of_scan hscan
    have hlegible := Tree.legible_of_ofTokens hwords htree
    have hproper : (Document.listingTree tokens).isProper = true := areProper_map_ofToken tokens
    have hlines := leafLines_of_ofTree hproper (events_listingTree hwords) hlisting
    have hlines' := leafLines_of_ofTree hlegible.isProper hlegible.events htext
    rw [Tree.leaves_listingTree, List.map_map] at hlines
    rw [Tree.leaves_of_ofTokens htree, List.map_map] at hlines'
    exact ⟨tokens, hscan, hlines, hlines'⟩
  · obtain ⟨tokens, tree, hscan, htree, -, -, hlisting, htext⟩ :=
      Artifacts.ofSource_eq_ok_iff.mp h
    obtain ⟨tag, children, rfl⟩ := Tree.eq_node_of_ofTokens htree
    have hproper := (Tree.legible_of_ofTokens (wellFormed_of_scan hscan) htree).isProper
    obtain ⟨first, hfirst, hleaves⟩ :=
      exists_read?_of_isProper (areProper_map_ofToken tokens) hlisting
    obtain ⟨second, hsecond, hleaves'⟩ := exists_read?_of_isProper hproper htext
    rw [← Document.listingTree, Tree.leaves_listingTree] at hleaves
    rw [Tree.leaves_of_ofTokens htree] at hleaves'
    exact ⟨tokens, first, second, hscan, hfirst, hsecond, hleaves, hleaves'⟩

/-- A class that hands on a text that looks like the end of a tag. -/
def sourceOfCall : String :=
  "class A \x7b function void f() \x7b do g(\"</term>\"); \x7d \x7d"

/-- The tokens of that class. -/
def tokensOfCall : List Token :=
  [⟨.keyword, "class", ⟨1, 1⟩⟩, ⟨.identifier, "A", ⟨1, 7⟩⟩, ⟨.symbol, "\x7b", ⟨1, 9⟩⟩,
    ⟨.keyword, "function", ⟨1, 11⟩⟩, ⟨.keyword, "void", ⟨1, 20⟩⟩, ⟨.identifier, "f", ⟨1, 25⟩⟩,
    ⟨.symbol, "(", ⟨1, 26⟩⟩, ⟨.symbol, ")", ⟨1, 27⟩⟩, ⟨.symbol, "\x7b", ⟨1, 29⟩⟩,
    ⟨.keyword, "do", ⟨1, 31⟩⟩, ⟨.identifier, "g", ⟨1, 34⟩⟩, ⟨.symbol, "(", ⟨1, 35⟩⟩,
    ⟨.stringConstant, "</term>", ⟨1, 36⟩⟩, ⟨.symbol, ")", ⟨1, 45⟩⟩, ⟨.symbol, ";", ⟨1, 46⟩⟩,
    ⟨.symbol, "\x7d", ⟨1, 48⟩⟩, ⟨.symbol, "\x7d", ⟨1, 50⟩⟩]

theorem Token.scan_sourceOfCall : Token.scan sourceOfCall = .ok tokensOfCall :=
  scan_of_outcomeIn (show (Reader.ofString sourceOfCall).outcomeIn 18 = some _ by decide +kernel)

theorem Artifacts.exists_ofSource_sourceOfCall (target : Target) {indent : Option Int}
    (hindent : ∀ width, indent = some width →
      Document.isIndex (width * Vocabulary.deepestNesting) = true) :
    ∃ artifacts, Artifacts.ofSource target indent sourceOfCall = .ok artifacts := by
  have hsome : (Tree.ofTokens tokensOfCall).toOption.isSome = true := by decide +kernel
  cases htree : Tree.ofTokens tokensOfCall with
  | error failure =>
    rw [htree] at hsome
    cases hsome
  | ok tree => exact exists_ofSource Token.scan_sourceOfCall htree target hindent

theorem documents_of_call_agree :
    (∃ artifacts, Artifacts.ofSource .xml (some (-2)) sourceOfCall = .ok artifacts ∧
      ∃ tokens, Token.scan sourceOfCall = .ok tokens ∧
        Document.leafLines artifacts.listing = tokens.map (·.event.line.toList) ∧
        Document.leafLines artifacts.tree = tokens.map (·.event.line.toList)) ∧
    ∃ artifacts, Artifacts.ofSource .json none sourceOfCall = .ok artifacts ∧
      ∃ tokens listing tree, Token.scan sourceOfCall = .ok tokens ∧
        Json.read? artifacts.listing.toList = some (listing, ['\n']) ∧
        Json.read? artifacts.tree.toList = some (tree, ['\n']) ∧
        listing.leaves = tokens.map (fun token => (token.kind.tag, token.text)) ∧
        tree.leaves = tokens.map (fun token => (token.kind.tag, token.text)) := by
  obtain ⟨markup, hmarkup⟩ := @Artifacts.exists_ofSource_sourceOfCall .xml (some (-2)) (by decide)
  obtain ⟨json, hjson⟩ := @Artifacts.exists_ofSource_sourceOfCall .json none nofun
  exact ⟨⟨markup, hmarkup, (documents_agree sourceOfCall (some (-2))).1 markup hmarkup⟩,
    json, hjson, (documents_agree sourceOfCall none).2 json hjson⟩

end JackSyntax
