/-
Module: CodeNav.Proofs.Dump.Accepted
Purpose: What the elements of an accepted dump hold can be written and read again.
Main exports:
  Element.Legible, Dump.parseElements_encode, Dump.legible_of_parseElements,
  Vertex.content_reread, Dump.legible_hovers
-/
import CodeNav.Proofs.Document.Codec
import CodeNav.Proofs.Dump.Graph

namespace CodeNav

open Json (Decoder Field Node Value)
open Element (vertices)

/-! ### Elements of a text -/

/-- Every vertex holds a value that some text writes and that nests within the limit of a reader. -/
def Element.Legible (elements : List Element) : Prop :=
  ∀ v ∈ vertices elements, v.value.Legible ∧ v.value.nesting ≤ 127

theorem Element.mem_vertices {elements : List Element} {v : Vertex} :
    v ∈ vertices elements ↔ .vertex v ∈ elements := by
  simp only [vertices, List.mem_filterMap]
  constructor
  · rintro ⟨element, member, found⟩
    cases element with
    | vertex w =>
        cases found
        exact member
    | edge e => cases found
  · intro member
    exact ⟨_, member, rfl⟩

namespace Dump

/-- The object of a vertex is what was read. -/
theorem value_of_ofValue? {value : Value} {v : Vertex}
    (read : Element.ofValue? value = .ok (some (.vertex v))) : v.value = value := by
  unfold Element.ofValue? at read
  split at read
  · obtain ⟨w, built, read⟩ := Success.bind_eq_ok.mp read
    cases read
    unfold Element.vertexOf at built
    split at built
    · obtain ⟨id, _, built⟩ := Success.bind_eq_ok.mp built
      cases built
      rfl
    · cases built
  · obtain ⟨e, _, read⟩ := Success.bind_eq_ok.mp read
    cases read
  · cases read

theorem parse_within {octets : List UInt8} {value : Value}
    (read : Value.parse octets = .ok value) : value.Legible ∧ value.nesting ≤ 127 := by
  obtain ⟨found, tree, read⟩ := Success.bind_eq_ok.mp read
  obtain ⟨_, _, read⟩ := Success.bind_eq_ok.mp read
  cases read
  obtain ⟨ordered, nesting⟩ := Value.ofNode_within _ tree
  exact ⟨⟨ordered, Value.ofNode_readable _ (Json.readable_read octets) tree⟩, nesting⟩

theorem items_within {depth : Nat} {complete : Bool} {nodes : List Node} {n : Nat}
    {values : List Value} (readable : Node.ItemsReadable nodes)
    (read : Decoder.items Decoder.any ⟨depth + 1, complete⟩ n nodes = .ok values) :
    ∀ value ∈ values, value.Legible ∧ value.nesting ≤ depth := by
  induction nodes generalizing n values with
  | nil =>
      cases read
      exact nofun
  | cons node rest ih =>
      obtain ⟨value, own, read⟩ := Success.bind_eq_ok.mp read
      obtain ⟨others, later, read⟩ := Success.bind_eq_ok.mp read
      cases read
      have tree := Success.mapError_eq_ok.mp (Success.mapError_eq_ok.mp own)
      obtain ⟨ordered, nesting⟩ := Value.ofNode_within node tree
      exact List.forall_mem_cons.mpr
        ⟨⟨⟨ordered, Value.ofNode_readable node readable.1 tree⟩, nesting⟩, ih readable.2 later⟩

theorem refuse_ne_ok {α : Type} {expected : String} {node : Node} {a : α} :
    Decoder.refuse expected node ≠ .ok a := by
  intro read
  obtain ⟨_, _, read⟩ := Success.bind_eq_ok.mp read
  cases read

/-- The items of an array have one level of nesting less. -/
theorem list_within {node : Node} {values : List Value} (readable : node.Readable)
    (read : Decoder.list Decoder.any .text node = .ok values) :
    ∀ value ∈ values, value.Legible ∧ value.nesting ≤ 126 := by
  cases node with
  | list nodes stop =>
      obtain ⟨inner, entered, read⟩ := Success.bind_eq_ok.mp read
      obtain ⟨found, items, read⟩ := Success.bind_eq_ok.mp read
      obtain ⟨_, _, read⟩ := Success.bind_eq_ok.mp read
      cases read
      cases entered
      exact items_within readable items
  | _ => exact absurd read refuse_ne_ok

theorem elementsOfLines_within {text : List Char} {elements : List Element}
    (read : elementsOfLines text = .ok elements) {v : Vertex} (listed : .vertex v ∈ elements) :
    v.value.Legible ∧ v.value.nesting ≤ 127 := by
  obtain ⟨found, mapped, read⟩ := Success.bind_eq_ok.mp read
  cases read
  obtain ⟨⟨line, index⟩, _, own⟩ := Success.mem_of_mapM mapped (by simpa using listed)
  unfold elementOfLine at own
  dsimp only at own
  split at own
  · cases own
  · obtain ⟨value, parsed, own⟩ := Success.bind_eq_ok.mp own
    rw [value_of_ofValue? own]
    exact parse_within (Success.mapError_eq_ok.mp parsed)

theorem elementsOfArray_within {text : List Char} {elements : List Element}
    (read : elementsOfArray text = .ok elements) {v : Vertex} (listed : .vertex v ∈ elements) :
    v.value.Legible ∧ v.value.nesting ≤ 127 := by
  obtain ⟨values, parsed, read⟩ := Success.bind_eq_ok.mp read
  obtain ⟨found, mapped, read⟩ := Success.bind_eq_ok.mp read
  cases read
  obtain ⟨value, among, own⟩ := Success.mem_of_mapM mapped (by simpa using listed)
  rw [value_of_ofValue? own]
  obtain ⟨all, array, last⟩ := Success.bind_eq_ok.mp (Success.mapError_eq_ok.mp parsed)
  obtain ⟨_, _, last⟩ := Success.bind_eq_ok.mp last
  cases last
  obtain ⟨legible, nesting⟩ := list_within (Json.readable_read _) array value among
  exact ⟨legible, Nat.le_succ_of_le nesting⟩

/-- A dump that is not compressed is read as the text that its octets write. -/
theorem parseElements_encode {text : String} (plain : Gzip.isGzip (Utf8.encode text) = false)
    {limit : Option Nat} : parseElements limit (Utf8.encode text) = elementsOfText text := by
  have content : inflate limit (Utf8.encode text) = .ok (Utf8.encode text) := by
    rw [inflate, plain]
    rfl
  rw [parseElements, content, Success.ok_bind, Utf8.decode_encode]
  rfl

/-- The vertices of a text are legible, whichever way they were written. -/
theorem legible_of_parseElements {limit : Option Nat} {octets : List UInt8} {elements : List Element}
    (parsed : parseElements limit octets = .ok elements) :
    Element.Legible elements := by
  intro v among
  have listed : .vertex v ∈ elements := Element.mem_vertices.mp among
  obtain ⟨content, _, parsed⟩ := Success.bind_eq_ok.mp parsed
  obtain ⟨text, _, parsed⟩ := Success.bind_eq_ok.mp parsed
  unfold elementsOfText at parsed
  dsimp only at parsed
  split at parsed
  · obtain ⟨found, layout, parsed⟩ := Success.bind_eq_ok.mp parsed
    split at parsed
    · cases parsed
    · cases parsed
      exact elementsOfArray_within layout listed
  · obtain ⟨found, layout, parsed⟩ := Success.bind_eq_ok.mp parsed
    split at parsed
    · cases parsed
    · cases parsed
      exact elementsOfLines_within layout listed

end Dump

/-! ### Vertices that were written and read -/

theorem Position.decoder_follows : Position.decoder.Follows Eq := by
  refine Decoder.shape_follows rfl fun field known => ?_
  simp only [Position.shape, List.mem_cons, List.not_mem_nil, or_false] at known
  rcases known with rfl | rfl
  · exact Field.follows_eq Decoder.u32_follows
  · exact Field.follows_eq Decoder.u32_follows

theorem Range.decoder_follows : Range.decoder.Follows Eq := by
  refine Decoder.shape_follows rfl fun field known => ?_
  simp only [Range.shape, List.mem_cons, List.not_mem_nil, or_false] at known
  rcases known with rfl | rfl
  · exact Field.follows_eq Position.decoder_follows
  · exact Field.follows_eq Position.decoder_follows

theorem Package.decoder_follows : Package.decoder.Follows Eq := by
  refine Decoder.shape_follows rfl fun field known => ?_
  simp only [Package.shape, List.mem_cons, List.not_mem_nil, or_false] at known
  rcases known with rfl | rfl
  · exact Field.follows_eq Decoder.string_follows
  · exact Field.follows_eq Decoder.string_follows

theorem Dump.monikerShape_follows : (Decoder.shape Dump.monikerShape).Follows Eq := by
  refine Decoder.shape_follows rfl fun field known => ?_
  simp only [Dump.monikerShape, List.mem_cons, List.not_mem_nil, or_false] at known
  rcases known with rfl | rfl | rfl
  · exact Field.follows_eq Decoder.string_follows
  · exact Field.follows_eq Decoder.string_follows
  · exact Field.follows_eq (Decoder.option_follows Decoder.string_follows)

/-- The second hover is what the first is read back as. -/
def Hover.Again (first second : Hover) : Prop :=
  first.contents.Legible ∧ second = first.reread

theorem Hover.again_null : Hover.Again ⟨.null, none⟩ ⟨.null, none⟩ :=
  ⟨⟨trivial, trivial⟩, rfl⟩

theorem Hover.decoder_follows : Hover.decoder.Follows Hover.Again := by
  refine Decoder.shape_follows Hover.again_null fun field known => ?_
  simp only [Hover.shape, List.mem_cons, List.not_mem_nil, or_false] at known
  rcases known with rfl | rfl
  · refine Field.follows Decoder.any_follows ?_
    rintro s _ a _ ⟨_, rfl⟩ ⟨legible, rfl⟩
    exact ⟨legible, rfl⟩
  · refine Field.follows (Decoder.option_follows Range.decoder_follows) ?_
    rintro s _ a _ ⟨legible, rfl⟩ rfl
    exact ⟨legible, rfl⟩

theorem Dump.hoverShape_follows : (Decoder.shape Dump.hoverShape).Follows Hover.Again := by
  refine Decoder.shape_follows Hover.again_null fun field known => ?_
  obtain rfl := List.mem_singleton.mp known
  exact Field.follows Hover.decoder_follows fun _ _ _ _ _ again => again

namespace Element

theorem decode_follows {α : Type} {decoder : Decoder α} {R : α → α → Prop}
    (follows : decoder.Follows R) {value : Value} (legible : value.Legible) {a : α}
    (read : decode decoder value = .ok a) : ∃ b, decode decoder value.reread = .ok b ∧ R a b := by
  obtain ⟨b, again, related⟩ := follows _ _ _ legible (Success.mapError_eq_ok.mp read)
  exact ⟨b, by rw [decode, Decoder.ofValue, again]; rfl, related⟩

/-- The texts among the members of an object are read back as they are. -/
theorem text?_reread (value : Value) (name : String) :
    text? value.reread name = text? value name := by
  cases value with
  | object fields =>
      have member : (Value.object fields).reread.field? name =
          ((Value.object fields).field? name).map Value.reread := by
        change Json.Fields.get? (Value.rereadFields fields) name = _
        rw [Value.rereadFields_eq, Json.Fields.get?_map]
        rfl
      unfold text?
      rw [member]
      cases (Value.object fields).field? name with
      | none => rfl
      | some value => cases value <;> rfl
  | _ => rfl

end Element

/-- The content with the contents of its hover changed. -/
def VertexContent.mapContents (f : Value → Value) : VertexContent → VertexContent
  | .hover shown => .hover (shown.mapContents f)
  | content => content

/-- The vertex with the object that wrote it changed. -/
def Vertex.mapValue (f : Value → Value) (v : Vertex) : Vertex :=
  { v with value := f v.value }

theorem Vertex.mapValue_id (v : Vertex) : v.mapValue (fun value => value) = v :=
  rfl

/-- A vertex that is stored and read again holds what it held, with the contents of a hover as their
text is read. -/
theorem Vertex.content_reread {v : Vertex} (legible : v.value.Legible) {held : VertexContent}
    (read : v.content = .ok held) :
    (v.mapValue Value.reread).content = .ok (held.mapContents Value.reread) := by
  have plain {α : Type} {decoder : Decoder α} (follows : decoder.Follows Eq) {a : α}
      (own : Element.decode decoder v.value = .ok a) :
      Element.decode decoder v.value.reread = .ok a := by
    obtain ⟨_, again, rfl⟩ := Element.decode_follows follows legible own
    exact again
  unfold content at read ⊢
  dsimp only [mapValue]
  cases known : VertexLabel.ofName? v.label with
  | none =>
      rw [known] at read
      cases read
      rfl
  | some label =>
      rw [known] at read
      cases label with
      | metaData =>
          cases read
          exact congrArg (fun root => Except.ok (VertexContent.projectRoot root))
            (Element.text?_reread _ _)
      | document =>
          obtain ⟨uri, own, rfl⟩ := Success.map_eq_ok.mp read
          have again : Dump.addressOf (v.mapValue Value.reread) = .ok uri := by
            unfold Dump.addressOf at own ⊢
            rwa [← Element.text?_reread] at own
          exact congrArg (Except.map VertexContent.address) again
      | range =>
          obtain ⟨range, own, rfl⟩ := Success.map_eq_ok.mp read
          exact congrArg (Except.map _) (plain Range.decoder_follows own)
      | resultSet =>
          cases read
          rfl
      | definitionResult =>
          cases read
          rfl
      | referenceResult =>
          cases read
          rfl
      | hoverResult =>
          obtain ⟨hover, own, rfl⟩ := Success.map_eq_ok.mp read
          obtain ⟨_, again, _, rfl⟩ := Element.decode_follows Dump.hoverShape_follows legible own
          exact congrArg (Except.map _) again
      | moniker =>
          obtain ⟨moniker, own, rfl⟩ := Success.map_eq_ok.mp read
          exact congrArg (Except.map _) (plain Dump.monikerShape_follows own)
      | package =>
          obtain ⟨package, own, rfl⟩ := Success.map_eq_ok.mp read
          exact congrArg (Except.map _) (plain Package.decoder_follows own)

/-- The contents of the hover of a vertex are written by a text if the vertex is. -/
theorem Vertex.legible_hover {v : Vertex} (legible : v.value.Legible) {hover : Hover}
    (read : v.content = .ok (.hover hover)) : hover.contents.Legible := by
  have label := label?_content read
  unfold content at read
  rw [← label] at read
  obtain ⟨found, decoded, same⟩ := Success.map_eq_ok.mp read
  cases same
  obtain ⟨_, _, own, _⟩ := Element.decode_follows Dump.hoverShape_follows legible decoded
  exact own

/-- A hover of a dump is that of one of its vertices. -/
theorem Dump.exists_vertex_of_hover {elements : List Element} {dump : Dump}
    (accepted : Dump.ofElements elements = .ok dump) {id : VertexId} {hover : Hover}
    (found : dump.hovers[id]? = some hover) :
    ∃ v ∈ vertices elements, v.content = .ok (.hover hover) := by
  rw [Dump.hovers_ofElements accepted] at found
  obtain ⟨content, listed, own⟩ := List.mem_filterMap.mp (List.mem_of_getLast? found)
  obtain ⟨v, among, read⟩ := List.mem_filterMap.mp listed
  refine ⟨v, List.mem_of_mem_filter among, ?_⟩
  cases content with
  | hover shown =>
      cases own
      cases outcome : v.content with
      | error failure =>
          rw [outcome] at read
          cases read
      | ok held =>
          rw [outcome] at read
          cases read
          rfl
  | _ => cases own

/-- The contents of the hovers of a dump are written by some text. -/
theorem Dump.legible_hovers {elements : List Element} {dump : Dump}
    (accepted : Dump.ofElements elements = .ok dump)
    (legible : Element.Legible elements) {id : VertexId} {hover : Hover}
    (found : dump.hovers[id]? = some hover) : hover.contents.Legible := by
  obtain ⟨v, member, read⟩ := Dump.exists_vertex_of_hover accepted found
  exact Vertex.legible_hover (legible v member).1 read

end CodeNav
