/-
Module: CodeNav.Proofs.Dump.Statements
Purpose: What the value of an element does to a graph, whichever way its members are written.
Main exports:
  Taken.take?, Element.decode_record, Taken.take?_vertexId, Taken.take?_edge_congr,
  Taken.take?_oneTarget
-/
import CodeNav.Proofs.Dump.Facts
import CodeNav.Proofs.Json.Members
import CodeNav.Proofs.Json.Reordered

namespace CodeNav

open Json (Decoder Field Fields Node Shape Value)

/-- A graph under way, and whether any element has been taken into it. -/
structure Taken where
  dump : Dump
  nonempty : Bool

namespace Taken

/-- Takes the element that a value writes into the graph, if that can be done. -/
def take? (taken : Taken) (value : Value) : Option Taken :=
  (Element.ofValue? value).toOption.bind fun
    | none => some taken
    | some element => (taken.dump.addElement element).toOption.map (⟨·, true⟩)

end Taken

/-! ### What a record binds -/

section

variable {key name : String} {value : Value} {rest : List (String × Value)}

theorem field?_record_head (nodup : (key :: rest.map Prod.fst).Nodup) :
    (Value.record ((key, value) :: rest)).field? key = some value := by
  have distinct : (((key, value) :: rest).map Prod.fst).Nodup := nodup
  exact (Fields.get?_ofList distinct).mpr List.mem_cons_self

theorem field?_record_rest (nodup : (key :: rest.map Prod.fst).Nodup) (other : name ≠ key) :
    (Value.record ((key, value) :: rest)).field? name = (Value.record rest).field? name := by
  have distinct : (((key, value) :: rest).map Prod.fst).Nodup := nodup
  refine Option.ext fun found => (Fields.get?_ofList distinct).trans ?_
  refine Iff.trans ?_ (Fields.get?_ofList (List.nodup_cons.mp nodup).2).symm
  simp [other]

theorem text?_record_rest (nodup : (key :: rest.map Prod.fst).Nodup) (other : name ≠ key) :
    Element.text? (.record ((key, value) :: rest)) name = Element.text? (.record rest) name := by
  rw [Element.text?, Element.text?, field?_record_rest nodup other]

theorem text?_record_mem {text : String} (nodup : (rest.map Prod.fst).Nodup)
    (listed : (name, .string text) ∈ rest) : Element.text? (.record rest) name = some text := by
  have bound : (Value.record rest).field? name = some (.string text) :=
    (Fields.get?_ofList nodup).mpr listed
  rw [Element.text?, bound]

end

/-! ### Structures read off records -/

theorem Edge.shape_independent : Edge.shape.Independent := by
  simp only [Shape.Independent, Edge.shape, List.pairwise_cons, List.forall_mem_cons,
    List.not_mem_nil, List.Pairwise.nil, IsEmpty.forall_iff, implies_true, and_true]
  refine ⟨⟨?_, ?_, ?_, ?_, ?_⟩, ⟨?_, ?_, ?_, ?_⟩, ⟨?_, ?_, ?_⟩, ⟨?_, ?_⟩, ?_⟩
  all_goals exact Field.apart_of_set fun _ _ _ => rfl

theorem Range.shape_independent : Range.shape.Independent := by
  simp only [Shape.Independent, Range.shape, List.pairwise_cons, List.forall_mem_cons,
    List.not_mem_nil, List.Pairwise.nil, IsEmpty.forall_iff, implies_true, and_true]
  exact Field.apart_of_set fun _ _ _ => rfl

theorem Dump.hoverShape_independent : Dump.hoverShape.Independent :=
  List.pairwise_singleton _ _

theorem Dump.monikerShape_independent : Dump.monikerShape.Independent := by
  simp only [Shape.Independent, Dump.monikerShape, List.pairwise_cons, List.forall_mem_cons,
    List.not_mem_nil, List.Pairwise.nil, IsEmpty.forall_iff, implies_true, and_true]
  refine ⟨⟨?_, ?_⟩, ?_⟩
  all_goals exact Field.apart_of_set fun _ _ _ => rfl

theorem Package.shape_independent : Package.shape.Independent := by
  simp only [Shape.Independent, Package.shape, List.pairwise_cons, List.forall_mem_cons,
    List.not_mem_nil, List.Pairwise.nil, IsEmpty.forall_iff, implies_true, and_true]
  exact Field.apart_of_set fun _ _ _ => rfl

namespace Element

variable {σ : Type} {shape : Shape σ} {key : String} {v w : Value} {rest : List (String × Value)}

/-- A structure is read off a record member by member. -/
theorem decode_record (independent : shape.Independent)
    (nodup : (key :: rest.map Prod.fst).Nodup) :
    (decode (Decoder.shape shape) (.record ((key, v) :: rest))).toOption =
      if ∀ field ∈ shape.fields, field.required = true → field.name ∈ key :: rest.map Prod.fst then
        (shape.take? ⟨127, true⟩ shape.start (key, v)).bind (shape.takeAll? ⟨127, true⟩ · rest)
      else none := by
  rw [decode, Success.toOption_mapError]
  exact Decoder.shape_record_toOption independent 126 true nodup

/-- Members that are taken over alike may stand for each other. -/
theorem decode_record_congr (independent : shape.Independent)
    (nodup : (key :: rest.map Prod.fst).Nodup)
    (alike : ∀ s, shape.take? ⟨127, true⟩ s (key, v) = shape.take? ⟨127, true⟩ s (key, w)) :
    (decode (Decoder.shape shape) (.record ((key, v) :: rest))).toOption =
      (decode (Decoder.shape shape) (.record ((key, w) :: rest))).toOption := by
  rw [decode_record independent nodup, decode_record independent nodup, alike]

/-- A member that a structure does not know may be any value. -/
theorem decode_record_unknown (independent : shape.Independent)
    (nodup : (key :: rest.map Prod.fst).Nodup) (unknown : shape.knows key = false) :
    (decode (Decoder.shape shape) (.record ((key, v) :: rest))).toOption =
      (decode (Decoder.shape shape) (.record ((key, w) :: rest))).toOption :=
  decode_record_congr independent nodup fun s => by
    rw [Shape.take?_of_unknown unknown, Shape.take?_of_unknown unknown]

end Element

/-! ### Identifiers -/

namespace VertexId

theorem decoder_toOption (r : Json.Reading) (node : Node) :
    (decoder r node).toOption = (Decoder.any r node).toOption.bind ofValue? := by
  rw [decoder, Success.toOption_bind]
  refine congrArg _ (funext fun value => ?_)
  cases ofValue? value <;> rfl

/-- Whether a value is read as an identifier depends on nothing but the value. -/
theorem decoder_ofValue (depth : Nat) (complete : Bool) (value : Value) :
    (decoder ⟨depth + 1, complete⟩ (.ofValue value)).toOption = ofValue? value := by
  rw [decoder_toOption]
  cases value with
  | null => rfl
  | bool b => rfl
  | string s => rfl
  | number n => rfl
  | array items =>
      refine Option.bind_eq_none_iff.mpr fun found read => ?_
      have read := Success.mapError_eq_ok.mp (Success.toOption_eq_some.mp read)
      cases depth with
      | zero => cases read
      | succ depth =>
          obtain ⟨_, values, _, rfl⟩ := Value.ofNode_list_eq_ok.mp read
          rfl
  | object fields =>
      refine Option.bind_eq_none_iff.mpr fun found read => ?_
      have read := Success.mapError_eq_ok.mp (Success.toOption_eq_some.mp read)
      cases depth with
      | zero => cases read
      | succ depth =>
          obtain ⟨_, bindings, _, rfl⟩ := Value.ofNode_record_eq_ok.mp read
          rfl

/-- What writes an identifier holds no further values. -/
theorem ofNode_of_id {node : Node} {value : Value} {id : VertexId} {depth : Nat}
    (read : Value.ofNode (depth + 1) node = .ok value) (writes : ofValue? value = some id)
    (other : Nat) : Value.ofNode (other + 1) node = .ok value := by
  cases node with
  | list items stop =>
      cases depth with
      | zero => cases read
      | succ depth =>
          obtain ⟨_, values, _, rfl⟩ := Value.ofNode_list_eq_ok.mp read
          cases writes
  | record members stop =>
      cases depth with
      | zero => cases read
      | succ depth =>
          obtain ⟨_, bindings, _, rfl⟩ := Value.ofNode_record_eq_ok.mp read
          cases writes
  | _ => exact read

end VertexId

namespace Edge

variable {v w : Value}

/-- An identifier that may be missing, but is there. -/
theorem optionalId (depth : Nat) (complete : Bool) (present : v ≠ .null) :
    (Decoder.option VertexId.decoder ⟨depth + 1, complete⟩ (.ofValue v)).toOption =
      (VertexId.ofValue? v).map some := by
  have reads : Decoder.option VertexId.decoder ⟨depth + 1, complete⟩ (.ofValue v) =
      (VertexId.decoder ⟨depth + 1, complete⟩ (.ofValue v)).map some := by
    cases v <;> first | rfl | exact absurd rfl present
  rw [reads, Success.toOption_map, VertexId.decoder_ofValue]

theorem take?_source (s : Edge) : shape.take? ⟨127, true⟩ s ("outV", v) =
    (VertexId.ofValue? v).map fun source => { s with source } := by
  rw [← VertexId.decoder_ofValue 126 true, ← Success.toOption_map]
  rfl

theorem take?_target (present : v ≠ .null) (s : Edge) : shape.take? ⟨127, true⟩ s ("inV", v) =
    (VertexId.ofValue? v).map fun id => { s with target := some id } := by
  have taken : shape.take? ⟨127, true⟩ s ("inV", v) =
      (Decoder.option VertexId.decoder ⟨127, true⟩ (.ofValue v)).toOption.map
        fun target => { s with target } := Success.toOption_map _ _
  rw [taken, optionalId 126 true present, Option.map_map]
  rfl

theorem take?_document (present : v ≠ .null) (s : Edge) :
    shape.take? ⟨127, true⟩ s ("document", v) =
      (VertexId.ofValue? v).map fun id => { s with document := some id } := by
  have taken : shape.take? ⟨127, true⟩ s ("document", v) =
      (Decoder.option VertexId.decoder ⟨127, true⟩ (.ofValue v)).toOption.map
        fun document => { s with document } := Success.toOption_map _ _
  rw [taken, optionalId 126 true present, Option.map_map]
  rfl

theorem take?_furtherTargets (items : List Value) (s : Edge) :
    shape.take? ⟨127, true⟩ s ("inVs", .array items) =
      (items.mapM VertexId.ofValue?).map fun furtherTargets => { s with furtherTargets } := by
  have taken : shape.take? ⟨127, true⟩ s ("inVs", .array items) =
      (Decoder.list VertexId.decoder ⟨127, true⟩ (.list (Node.ofItems items) none)).toOption.map
        fun furtherTargets => { s with furtherTargets } := Success.toOption_map _ _
  have each : (Node.ofItems items).mapM
      (fun node => (VertexId.decoder ⟨126, true⟩ node).toOption) =
        items.mapM VertexId.ofValue? := by
    clear taken
    induction items with
    | nil => rfl
    | cons item rest ih =>
        rw [Node.ofItems, List.mapM_cons, List.mapM_cons, VertexId.decoder_ofValue 125 true, ih]
  rw [taken, Decoder.list_toOption, each]

end Edge

/-! ### What values state -/

namespace Taken

variable {value : Value} (taken : Taken)

theorem take?_vertex (typed : Element.text? value "type" = some "vertex") :
    taken.take? value = (Element.vertexOf value).toOption.bind fun v =>
      (taken.dump.addVertex v).toOption.map (⟨·, true⟩) := by
  rw [take?, Element.ofValue?, typed]
  cases Element.vertexOf value <;> rfl

theorem take?_edge (typed : Element.text? value "type" = some "edge") :
    taken.take? value = (Element.decode (Decoder.shape Edge.shape) value).toOption.map fun e =>
      ⟨taken.dump.addEdge e, true⟩ := by
  rw [take?, Element.ofValue?, typed]
  cases Element.decode (Decoder.shape Edge.shape) value <;> rfl

/-- A value that is neither vertex nor edge is passed over. -/
theorem take?_other (noVertex : Element.text? value "type" ≠ some "vertex")
    (noEdge : Element.text? value "type" ≠ some "edge") : taken.take? value = some taken := by
  rw [take?, Element.ofValue?]
  split
  · exact absurd ‹_› noVertex
  · exact absurd ‹_› noEdge
  · rfl

end Taken

theorem Element.vertexOf_toOption {value id : Value} (found : value.field? "id" = some id) :
    (vertexOf value).toOption = (VertexId.ofValue? id).map fun id =>
      ⟨id, (text? value "label").getD "", value⟩ := by
  have read : (decode VertexId.decoder id).toOption = VertexId.ofValue? id := by
    rw [decode, Success.toOption_mapError]
    exact VertexId.decoder_ofValue 127 true id
  rw [vertexOf, found, ← read]
  dsimp only
  cases decode VertexId.decoder id <;> rfl

/-! ### An identifier in other words -/

section

variable {v w : Value} {rest : List (String × Value)}

/-- What a vertex adds to a graph does not depend on how its own identifier is written. -/
theorem Vertex.content_id (nodup : ("id" :: rest.map Prod.fst).Nodup) (id : VertexId)
    (label : String) :
    (Vertex.content ⟨id, label, .record (("id", v) :: rest)⟩).toOption =
      (Vertex.content ⟨id, label, .record (("id", w) :: rest)⟩).toOption := by
  have texts (name : String) (other : name ≠ "id") :
      Element.text? (.record (("id", v) :: rest)) name =
        Element.text? (.record (("id", w) :: rest)) name :=
    (text?_record_rest nodup other).trans (text?_record_rest nodup other).symm
  unfold content
  cases VertexLabel.ofName? label with
  | none => rfl
  | some known =>
      cases known with
      | metaData => simp only [labelledContent, texts "projectRoot" (by decide)]
      | document => simp only [labelledContent, Dump.addressOf, texts "uri" (by decide)]
      | resultSet => rfl
      | definitionResult => rfl
      | referenceResult => rfl
      | range =>
          simp only [labelledContent, Success.toOption_map, Range.decoder]
          rw [Element.decode_record_unknown Range.shape_independent nodup rfl]
      | hoverResult =>
          simp only [labelledContent, Success.toOption_map]
          rw [Element.decode_record_unknown Dump.hoverShape_independent nodup rfl]
      | moniker =>
          simp only [labelledContent, Success.toOption_map]
          rw [Element.decode_record_unknown Dump.monikerShape_independent nodup rfl]
      | package =>
          simp only [labelledContent, Success.toOption_map, Package.decoder]
          rw [Element.decode_record_unknown Package.shape_independent nodup rfl]

theorem Taken.take?_vertexId (nodup : ("id" :: rest.map Prod.fst).Nodup)
    (typed : ("type", .string "vertex") ∈ rest) (same : VertexId.ofValue? v = VertexId.ofValue? w)
    (taken : Taken) : taken.take? (.record (("id", v) :: rest)) =
      taken.take? (.record (("id", w) :: rest)) := by
  have type (u : Value) : Element.text? (.record (("id", u) :: rest)) "type" = some "vertex" :=
    (text?_record_rest nodup (by decide)).trans
      (text?_record_mem (List.nodup_cons.mp nodup).2 typed)
  have label (u : Value) : Element.text? (.record (("id", u) :: rest)) "label" =
      Element.text? (.record rest) "label" := text?_record_rest nodup (by decide)
  rw [take?_vertex taken (type v), take?_vertex taken (type w),
    Element.vertexOf_toOption (field?_record_head nodup),
    Element.vertexOf_toOption (field?_record_head nodup), same, label, label]
  cases VertexId.ofValue? w with
  | none => rfl
  | some id =>
      simp only [Option.map_some, Option.bind_some, Dump.addVertex_eq_map_put,
        Success.toOption_map]
      rw [Vertex.content_id nodup]

/-- The members of an edge that hold one identifier. -/
def Edge.idMembers : List String :=
  ["id", "outV", "inV", "document"]

theorem Edge.take?_id {key : String} (among : key ∈ idMembers)
    (same : VertexId.ofValue? v = VertexId.ofValue? w) (present : v ≠ .null)
    (presentToo : w ≠ .null) (s : Edge) :
    shape.take? ⟨127, true⟩ s (key, v) = shape.take? ⟨127, true⟩ s (key, w) := by
  simp only [idMembers, List.mem_cons, List.not_mem_nil, or_false] at among
  rcases among with rfl | rfl | rfl | rfl
  · rfl
  · rw [take?_source, take?_source, same]
  · rw [take?_target present, take?_target presentToo, same]
  · rw [take?_document present, take?_document presentToo, same]

/-- An edge is taken alike if one of its members is. -/
theorem Taken.take?_edge_congr {key : String} (nodup : (key :: rest.map Prod.fst).Nodup)
    (typed : ("type", .string "edge") ∈ rest)
    (alike : ∀ s, Edge.shape.take? ⟨127, true⟩ s (key, v) =
      Edge.shape.take? ⟨127, true⟩ s (key, w)) (taken : Taken) :
    taken.take? (.record ((key, v) :: rest)) = taken.take? (.record ((key, w) :: rest)) := by
  have other : "type" ≠ key := fun same =>
    (List.nodup_cons.mp nodup).1 (List.mem_map.mpr ⟨_, typed, same⟩)
  have type (u : Value) : Element.text? (.record ((key, u) :: rest)) "type" = some "edge" :=
    (text?_record_rest nodup other).trans (text?_record_mem (List.nodup_cons.mp nodup).2 typed)
  rw [take?_edge taken (type v), take?_edge taken (type w),
    Element.decode_record_congr Edge.shape_independent nodup alike]

/-- The targets of an edge may be written in other words. -/
theorem Taken.take?_targets {values others : List Value}
    (nodup : ("inVs" :: rest.map Prod.fst).Nodup) (typed : ("type", .string "edge") ∈ rest)
    (same : values.map VertexId.ofValue? = others.map VertexId.ofValue?) {taken : Taken} :
    taken.take? (.record (("inVs", .array values) :: rest)) =
      taken.take? (.record (("inVs", .array others) :: rest)) := by
  refine take?_edge_congr nodup typed (fun s => ?_) taken
  have found : values.mapM VertexId.ofValue? = others.mapM VertexId.ofValue? := by
    have each := congrArg (List.mapM id) same
    rwa [List.mapM_map, List.mapM_map] at each
  rw [Edge.take?_furtherTargets, Edge.take?_furtherTargets, found]

end

/-! ### One target among further ones -/

namespace Edge

/-- An edge with other targets. -/
def retarget (target : Option VertexId) (furtherTargets : List VertexId) (edge : Edge) : Edge :=
  { edge with target, furtherTargets }

/-- A member other than the targets is taken over whatever the targets are. -/
theorem take?_retarget {name : String} (noTarget : name ≠ "inV") (noTargets : name ≠ "inVs")
    (target : Option VertexId) (furtherTargets : List VertexId) (value : Value) (s : Edge) :
    shape.take? ⟨127, true⟩ (s.retarget target furtherTargets) (name, value) =
      (shape.take? ⟨127, true⟩ s (name, value)).map (retarget target furtherTargets) := by
  unfold Shape.take?
  cases found : shape.fields.find? (·.name == name) with
  | none => rfl
  | some field =>
      have listed := List.mem_of_find?_eq_some found
      have own : field.name = name := by simpa using List.find?_some found
      simp only [shape, List.mem_cons, List.not_mem_nil, or_false] at listed
      rcases listed with rfl | rfl | rfl | rfl | rfl | rfl
      · simp only [Field.needed, Success.toOption_map, Option.map_map]
        rfl
      · simp only [Field.needed, Success.toOption_map, Option.map_map]
        rfl
      · exact absurd own.symm noTarget
      · exact absurd own.symm noTargets
      · simp only [Field.defaulted, Success.toOption_map, Option.map_map]
        rfl
      · simp only [Field.defaulted, Success.toOption_map, Option.map_map]
        rfl

theorem takeAll?_retarget {rest : List (String × Value)} (noTarget : "inV" ∉ rest.map Prod.fst)
    (noTargets : "inVs" ∉ rest.map Prod.fst) (target : Option VertexId)
    (furtherTargets : List VertexId) (s : Edge) :
    shape.takeAll? ⟨127, true⟩ (s.retarget target furtherTargets) rest =
      (shape.takeAll? ⟨127, true⟩ s rest).map (retarget target furtherTargets) := by
  induction rest generalizing s with
  | nil => rfl
  | cons member rest ih =>
      rw [List.map_cons, List.mem_cons, not_or] at noTarget noTargets
      rw [Shape.takeAll?, Shape.takeAll?, List.foldlM_cons, List.foldlM_cons,
        take?_retarget (Ne.symm noTarget.1) (Ne.symm noTargets.1)]
      cases shape.take? ⟨127, true⟩ s member with
      | none => rfl
      | some t => exact ih noTarget.2 noTargets.2 t

end Edge

/-- An edge that leads to the same vertices has the same effect. -/
theorem Dump.addEdge_retarget (dump : Dump) (edge : Edge) (id : VertexId) :
    dump.addEdge (edge.retarget (some id) []) = dump.addEdge (edge.retarget none [id]) := by
  unfold addEdge
  simp only [Edge.retarget]
  cases EdgeLabel.ofName? edge.label with
  | none => rfl
  | some label => cases label <;> rfl

section

variable {v : Value} {rest : List (String × Value)}

/-- An edge is read off its targets and its other members. -/
theorem Edge.decode_targets {key : String} (nodup : (key :: rest.map Prod.fst).Nodup)
    (own : key = "inV" ∨ key = "inVs") (noTarget : "inV" ∉ rest.map Prod.fst)
    (noTargets : "inVs" ∉ rest.map Prod.fst) {target : VertexId → Option VertexId}
    {furtherTargets : VertexId → List VertexId} {id : Option VertexId}
    (takes : shape.take? ⟨127, true⟩ shape.start (key, v) =
      id.map fun id => shape.start.retarget (target id) (furtherTargets id)) :
    (Element.decode (Decoder.shape shape) (.record ((key, v) :: rest))).toOption =
      if "label" ∈ rest.map Prod.fst ∧ "outV" ∈ rest.map Prod.fst then
        id.bind fun id => (shape.takeAll? ⟨127, true⟩ shape.start rest).map
          (retarget (target id) (furtherTargets id))
      else none := by
  rw [Element.decode_record shape_independent nodup, takes, Option.bind_map]
  have required : (∀ field ∈ shape.fields, field.required = true →
      field.name ∈ key :: rest.map Prod.fst) ↔
        "label" ∈ rest.map Prod.fst ∧ "outV" ∈ rest.map Prod.fst := by
    rcases own with rfl | rfl <;> simp [shape, Field.needed, Field.defaulted]
  refine if_congr required (congrArg _ (funext fun id => ?_)) rfl
  exact takeAll?_retarget noTarget noTargets (target id) (furtherTargets id) shape.start

theorem Edge.take?_furtherTarget (s : Edge) :
    shape.take? ⟨127, true⟩ s ("inVs", .array [v]) =
      (VertexId.ofValue? v).map fun id => { s with furtherTargets := [id] } := by
  have single : [v].mapM VertexId.ofValue? = (VertexId.ofValue? v).map fun id => [id] := by
    rw [List.mapM_cons]
    cases VertexId.ofValue? v <;> rfl
  rw [take?_furtherTargets, single, Option.map_map]
  rfl

theorem Edge.decode_furtherTarget (nodup : ("inVs" :: rest.map Prod.fst).Nodup)
    (noTarget : "inV" ∉ rest.map Prod.fst) :
    (Element.decode (Decoder.shape shape) (.record (("inVs", .array [v]) :: rest))).toOption =
      if "label" ∈ rest.map Prod.fst ∧ "outV" ∈ rest.map Prod.fst then
        (VertexId.ofValue? v).bind fun id =>
          (shape.takeAll? ⟨127, true⟩ shape.start rest).map (retarget none [id])
      else none :=
  decode_targets nodup (.inr rfl) noTarget (List.nodup_cons.mp nodup).1 (take?_furtherTarget _)

/-- A single target may stand alone or among the further ones. -/
theorem Taken.take?_oneTarget (nodup : ("inV" :: rest.map Prod.fst).Nodup)
    (noTargets : "inVs" ∉ rest.map Prod.fst) (typed : ("type", .string "edge") ∈ rest)
    (present : v ≠ .null) (taken : Taken) : taken.take? (.record (("inV", v) :: rest)) =
      taken.take? (.record (("inVs", .array [v]) :: rest)) := by
  obtain ⟨noTarget, others⟩ := List.nodup_cons.mp nodup
  have nodupToo : ("inVs" :: rest.map Prod.fst).Nodup := List.nodup_cons.mpr ⟨noTargets, others⟩
  have type := text?_record_mem others typed
  rw [take?_edge taken ((text?_record_rest nodup (by decide)).trans type),
    take?_edge taken ((text?_record_rest nodupToo (by decide)).trans type),
    Edge.decode_targets nodup (.inl rfl) noTarget noTargets (Edge.take?_target present _),
    Edge.decode_furtherTarget nodupToo noTarget]
  split
  · cases VertexId.ofValue? v with
    | none => rfl
    | some id =>
        simp only [Option.bind_some, Option.map_map]
        refine congrArg (Option.map · _) (funext fun edge => ?_)
        exact congrArg (Taken.mk · true) (taken.dump.addEdge_retarget edge id)
  · rfl

/-- A target that is taken is an identifier. -/
theorem Taken.id_of_oneTarget (nodup : ("inVs" :: rest.map Prod.fst).Nodup)
    (noTarget : "inV" ∉ rest.map Prod.fst) (typed : ("type", .string "edge") ∈ rest)
    {taken after : Taken}
    (read : taken.take? (.record (("inVs", .array [v]) :: rest)) = some after) :
    ∃ id, VertexId.ofValue? v = some id := by
  have type := text?_record_mem (List.nodup_cons.mp nodup).2 typed
  rw [take?_edge taken ((text?_record_rest nodup (by decide)).trans type),
    Edge.decode_furtherTarget nodup noTarget] at read
  cases own : VertexId.ofValue? v with
  | none => simp [own] at read
  | some id => exact ⟨id, rfl⟩

end

end CodeNav
