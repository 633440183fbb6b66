import JackSyntax.Proofs.Documents.Lines
import JackSyntax.Proofs.Json.Reading

/-!
# The JSON document of a tree

Frames gather the records of the children, and the record of the root is written out. What is
written is plain text, and reading it gives the record back.

## Results

* **`walk_json`**: walking a tree puts its record where it belongs.
* `ofTree_json`: the document of a node is the text of its record, and a newline.
* **`json_copies_tree`**: the document of a node is plain text and is read as its record.
-/

namespace JackSyntax

/-! ## Records of trees -/

namespace Tree

mutual

/-- A tree without foreign values has a record. -/
theorem exists_toJson? : ∀ tree : Tree, tree.isProper = true → ∃ value, tree.toJson? = some value
  | .leaf kind text, _ => ⟨_, rfl⟩
  | .node tag children, h => by
    rw [isProper] at h
    obtain ⟨values, hvalues⟩ := exists_toJsonAll? children h
    exact ⟨.ofNode tag values, by rw [toJson?, hvalues, Option.map_some]⟩
  | .foreign _, h => by cases h

/-- Trees without foreign values have records. -/
theorem exists_toJsonAll? : ∀ trees : List Tree, areProper trees = true →
    ∃ values, toJsonAll? trees = some values
  | [], _ => ⟨[], rfl⟩
  | tree :: rest, h => by
    rw [areProper, Bool.and_eq_true] at h
    obtain ⟨value, hvalue⟩ := exists_toJson? tree h.1
    obtain ⟨values, hvalues⟩ := exists_toJsonAll? rest h.2
    exact ⟨value :: values, by simp [toJsonAll?, hvalue, hvalues]⟩

end

theorem toJson?_node_eq_some {tag : String} {children : List Tree} {value : Json}
    (h : (node tag children).toJson? = some value) :
    ∃ values, toJsonAll? children = some values ∧ value = .ofNode tag values := by
  rw [toJson?, Option.map_eq_some_iff] at h
  obtain ⟨values, hvalues, rfl⟩ := h
  exact ⟨values, hvalues, rfl⟩

theorem toJsonAll?_cons_eq_some {tree : Tree} {rest : List Tree} {values : List Json}
    (h : toJsonAll? (tree :: rest) = some values) :
    ∃ value others, tree.toJson? = some value ∧ toJsonAll? rest = some others ∧
      values = value :: others := by
  rw [toJsonAll?] at h
  simp only [Option.pure_def, Option.bind_eq_bind, Option.bind_eq_some_iff, Option.some.injEq] at h
  obtain ⟨value, hvalue, others, hothers, rfl⟩ := h
  exact ⟨value, others, hvalue, hothers, rfl⟩

/-! ## Walking a tree -/

mutual

/-- **Walking a tree puts its record where it belongs**; a leaf needs a frame around it. -/
theorem walk_json : ∀ (tree : Tree) (value : Json) (json : JsonTree), tree.toJson? = some value →
    (json.frames ≠ [] ∨ ∃ tag children, tree = node tag children) →
    tree.walk Document.accept (.json json) = .ok () (.json (json.place value))
  | .leaf kind text, value, json, hvalue, hframe => by
    cases hvalue
    have hsome : json.frames.isEmpty = false := by
      rcases hframe with hframe | ⟨tag, children, htree⟩
      · simpa using hframe
      · cases htree
    rw [walk]
    exact feed_eq_ok (by rw [Document.accept, JsonTree.accept, hsome]; rfl)
  | .node tag children, value, json, hvalue, _ => by
    obtain ⟨values, hvalues, rfl⟩ := toJson?_node_eq_some hvalue
    have hopened : feed Document.accept (.opened tag) (.json json) =
        .ok () (.json { json with frames := { tag } :: json.frames }) := feed_eq_ok rfl
    have hchildren := walkAll_json children values { json with frames := { tag } :: json.frames }
      { tag } json.frames hvalues rfl
    simp only [walk, bind, EStateM.bind, hopened, hchildren]
    exact feed_eq_ok (by simp [Document.accept, JsonTree.accept, Frame.close])
  | .foreign _, _, _, hvalue, _ => by cases hvalue

/-- Walking several trees adds their records to the innermost frame. -/
theorem walkAll_json : ∀ (trees : List Tree) (values : List Json) (json : JsonTree) (frame : Frame)
    (outer : List Frame), toJsonAll? trees = some values → json.frames = frame :: outer →
    walkAll Document.accept trees (.json json) =
      .ok () (.json { json with
        frames := { frame with children := values.reverse ++ frame.children } :: outer })
  | [], values, json, frame, outer, hvalues, hframes => by
    cases hvalues
    obtain ⟨indent, root, frames⟩ := json
    cases hframes
    rfl
  | tree :: rest, values, json, frame, outer, hvalues, hframes => by
    obtain ⟨value, others, hvalue, hothers, rfl⟩ := toJsonAll?_cons_eq_some hvalues
    have hfirst := walk_json tree value json hvalue (.inl (by simp [hframes]))
    have hrest := walkAll_json rest others (json.place value)
      { frame with children := value :: frame.children } outer hothers
      (by simp [JsonTree.place, hframes])
    simp only [walkAll, bind, EStateM.bind, hfirst, hrest]
    simp [JsonTree.place, hframes]

end

end Tree

/-- **The document of a node** is the text of its record, and a newline. -/
theorem Document.ofTree_json {tag : String} {children : List Tree} {value : Json}
    (h : (Tree.node tag children).toJson? = some value) (indent : Option Int) :
    Document.ofTree .json indent (.node tag children) =
      .ok (value.render (.ofIndent (indent.getD 2)) ++ "\n") := by
  have hempty : Document.empty .json indent = .json { indent := indent.getD 2 } := by
    cases indent <;> rfl
  rw [Document.ofTree, hempty, Tree.walk_json _ value _ h (.inr ⟨tag, children, rfl⟩)]
  simp [Document.output, JsonTree.output, JsonTree.place, Except.mapError]

theorem Json.read?_render (layout : Json.Layout) (value : Json) :
    Json.read? (value.render layout ++ "\n").toList = some (value, ['\n']) := by
  rw [Json.render, String.toList_append, String.toList_ofList]
  exact Json.read?_renderAt_append layout value _

theorem Json.isPlain_of_mem_render (layout : Json.Layout) (value : Json) :
    ∀ c ∈ (value.render layout ++ "\n").toList, Json.IsPlain c := by
  rw [Json.render, String.toList_append, String.toList_ofList]
  exact List.forall_mem_append.mpr ⟨Json.isPlain_of_mem_renderAt layout value 0,
    fun c hc => .inl (List.mem_singleton.mp hc)⟩

/-- **A JSON document copies its tree.** For any indentation, a node without foreign values has a
document. It holds nothing but newlines and printable ASCII, and it is read as the record of the
tree, with the newline at its end left over. -/
theorem json_copies_tree (indent : Option Int) (tag : String) (children : List Tree)
    (h : (Tree.node tag children).isProper = true) :
    ∃ document value, Document.ofTree .json indent (.node tag children) = .ok document ∧
      (Tree.node tag children).toJson? = some value ∧
      (∀ c ∈ document.toList, Json.IsPlain c) ∧
      Json.read? document.toList = some (value, ['\n']) := by
  obtain ⟨value, hvalue⟩ := Tree.exists_toJson? (.node tag children) h
  exact ⟨_, value, Document.ofTree_json hvalue indent, hvalue, Json.isPlain_of_mem_render _ value,
    Json.read?_render _ value⟩

/-- Marks that are escaped, control characters, characters beyond ASCII and beyond the basic plane,
and a node without children. -/
def Tree.exotic : Tree :=
  .node "\"tag\" \\ \u00e9" [.leaf "a\nb\tc\x00" "\x7f\uffff", .node "" [], .leaf "😀" "</😀>"]

theorem exotic_is_copied :
    Tree.exotic.isProper = true ∧
    ∃ document value, Document.ofTree .json (some (-1)) Tree.exotic = .ok document ∧
      Tree.exotic.toJson? = some value ∧ (∀ c ∈ document.toList, Json.IsPlain c) ∧
      Json.read? document.toList = some (value, ['\n']) :=
  ⟨rfl, json_copies_tree (some (-1)) _ _ rfl⟩

end JackSyntax
