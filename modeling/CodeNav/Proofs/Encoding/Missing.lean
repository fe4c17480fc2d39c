/-
Module: CodeNav.Proofs.Encoding.Missing
Purpose: When an open dump that knows a document does not find it.
Main exports:
  Failure.NothingMissing, Dump.Displaces, Source.nothingMissing_iff, Source.displaced_missing
-/
import CodeNav.Proofs.Encoding.Locations
import CodeNav.Proofs.Service.Invalidation

namespace CodeNav

/-! ### Failures for other reasons -/

namespace Failure

variable {α β : Type}

/-- If a result is a failure, then not for want of something that is not found. -/
def NothingMissing (result : Except Failure α) : Prop :=
  ∀ failure, result = .error failure → failure.isNotFound = false

theorem NothingMissing.ok (a : α) : NothingMissing (.ok a) :=
  nofun

theorem NothingMissing.error {failure : Failure} (other : failure.isNotFound = false) :
    NothingMissing (.error failure : Except Failure α) := by
  intro failure' same
  cases same
  exact other

theorem NothingMissing.mapError {ε : Type} {describe : ε → Failure}
    (others : ∀ cause, (describe cause).isNotFound = false) (result : Except ε α) :
    NothingMissing (result.mapError describe) := by
  cases result with
  | error cause => exact .error (others cause)
  | ok a => exact .ok a

theorem NothingMissing.map {f : α → β} {result : Except Failure α}
    (found : NothingMissing result) : NothingMissing (result.map f) := by
  cases same : result with
  | error failure => exact .error (found failure same)
  | ok a => exact .ok (f a)

theorem NothingMissing.bind {first : Except Failure α} {next : α → Except Failure β}
    (one : NothingMissing first) (two : ∀ a, first = .ok a → NothingMissing (next a)) :
    NothingMissing (first >>= next) := by
  cases result : first with
  | error failure => exact .error (one failure result)
  | ok a => exact two a result

end Failure

open Failure (NothingMissing)

/-! ### Elements -/

namespace Dump

theorem nothingMissing_addElement (dump : Dump) (element : Element) :
    NothingMissing (dump.addElement element) := by
  have decodes {α : Type} (decoder : Json.Decoder α) (value : Json.Value) :
      NothingMissing (Element.decode decoder value) :=
    .mapError (fun _ => rfl) _
  have addresses (v : Vertex) : NothingMissing (addressOf v) := by
    unfold addressOf
    split
    · exact .ok _
    · exact .error rfl
  cases element with
  | edge e => exact .ok _
  | vertex v =>
      change NothingMissing (dump.addVertex v)
      unfold addVertex
      cases VertexLabel.ofName? v.label with
      | none => exact .ok _
      | some label =>
        cases label with
        | document => exact .bind (addresses v) fun _ _ => .ok _
        | range => exact .bind (decodes _ _) fun _ _ => .ok _
        | hoverResult => exact .bind (decodes _ _) fun _ _ => .ok _
        | moniker => exact .bind (decodes _ _) fun _ _ => .ok _
        | package => exact .bind (decodes _ _) fun _ _ => .ok _
        | metaData => exact .ok _
        | resultSet => exact .ok _
        | definitionResult => exact .ok _
        | referenceResult => exact .ok _

/-- Elements that do not make up a dump are malformed. -/
theorem nothingMissing_ofElements (elements : List Element) :
    NothingMissing (ofElements elements) := by
  unfold ofElements
  generalize empty = dump
  induction elements generalizing dump with
  | nil => exact .ok dump
  | cons element rest ih =>
      rw [List.foldlM_cons]
      exact .bind (nothingMissing_addElement dump element) fun next _ => ih next

/-- In the graph of a dump, the document that a path leads to has been displaced: a later vertex
with its identifier is not one of a document, and is stored in its place. -/
def Displaces (dump : Dump) (elements : List Element) (path : String) : Prop :=
  ∃ id, (dump.documentsAt ((ProjectRoot.ofOption dump.projectRoot).address path)).getLast? =
    some id ∧ Element.endsAsDocument elements id = false

end Dump

/-- Octets that are not those of a document are malformed. -/
theorem Document.nothingMissing_decode (octets : List UInt8) :
    NothingMissing (decode octets) := by
  have expands : NothingMissing (Dump.inflate none octets) := by
    unfold Dump.inflate
    split
    · exact .ok _
    · cases Gzip.decompress none octets with
      | error fault => exact .error rfl
      | ok outcome =>
          cases outcome with
          | exceeded => exact .error rfl
          | content content => exact .ok content
  exact .bind expands fun _ _ => .mapError (fun _ => rfl) _

/-! ### Graphs -/

namespace GraphTables

variable {tables : GraphTables}

theorem nothingMissing_collect (tables : GraphTables) (document : VertexId) (fuel : Nat)
    (queue seen : List VertexId) : NothingMissing (tables.collect document fuel queue seen) := by
  induction fuel generalizing queue seen with
  | zero => exact .ok []
  | succ fuel ih =>
      cases queue with
      | nil => exact .ok []
      | cons id queue =>
          unfold collect
          cases tables.vertices[id]? with
          | none => exact ih queue seen
          | some stored =>
              have read : NothingMissing (readVertex id stored) :=
                .bind (.mapError (fun _ => rfl) _) fun _ _ => .ok _
              exact .bind read fun _ _ => .bind (ih _ _) fun _ _ => .ok _

/-- What is collected for a stored vertex begins with that vertex, whatever becomes of its value. -/
theorem subgraph_head {id : VertexId} {stored : StoredVertex} {elements : List Element}
    (found : tables.vertices[id]? = some stored) (run : tables.subgraph id = .ok elements) :
    ∃ value rest, elements = .vertex ⟨id, stored.label, value⟩ :: rest := by
  unfold subgraph collect at run
  rw [found] at run
  obtain ⟨vertex, read, run⟩ := Success.bind_eq_ok.mp run
  obtain ⟨value, _, same⟩ := Success.bind_eq_ok.mp read
  obtain ⟨others, _, run⟩ := Success.bind_eq_ok.mp run
  cases same
  cases run
  exact ⟨value, _, rfl⟩

/-- A document is found if a vertex of a document is stored for its address. -/
theorem nothingMissing_document {uri : String} {id : VertexId} {stored : StoredVertex}
    (located : tables.documents[uri]? = some id) (found : tables.vertices[id]? = some stored)
    (isDocument : VertexLabel.ofName? stored.label = some .document) (path : String) :
    NothingMissing (tables.document uri path) := by
  unfold document
  simp only [located]
  refine .bind (nothingMissing_collect tables id _ _ _) fun elements run => ?_
  refine .bind (Dump.nothingMissing_ofElements elements) fun part accepted => ?_
  obtain ⟨value, rest, rfl⟩ := subgraph_head found run
  have listed : part.documents.contains id = true := by
    rw [Dump.documents_contains accepted, Element.hasVertex, Element.vertices_cons_vertex]
    simp [isDocument]
  unfold Dump.document?
  rw [if_pos listed]
  exact .ok _

end GraphTables

/-! ### Open dumps -/

namespace Source

variable [Gzip.Compressor] {elements : List Element} {dump : Dump} {source : Source}
  {path : String}

theorem nothingMissing_answer (served : NothingMissing (source.document path)) :
    NothingMissing (source.answer path) :=
  .bind served fun octets _ => Document.nothingMissing_decode octets

theorem ServesDocument.nothingMissing (serves : source.ServesDocument path) :
    NothingMissing (source.answer path) := by
  obtain ⟨document, served⟩ := serves
  apply nothingMissing_answer
  rw [served]
  exact .ok _

/-- The graph of a dump finds a document that has not been displaced. -/
theorem nothingMissing_graph {id : VertexId} (located : dump.Locates path id)
    (inPlace : ¬ dump.Displaces elements path) :
    NothingMissing ((tables (.graph (.ofDump elements dump))).answer path) := by
  apply nothingMissing_answer
  obtain ⟨last, listed⟩ := Dump.exists_getLast?_documentsAt located
  have ends : Element.endsAsDocument elements last = true := by
    rw [← Bool.not_eq_false]
    exact fun displaced => inPlace ⟨last, listed, displaced⟩
  obtain ⟨v, written, isDocument⟩ := (Option.any_eq_true _ _).mp ends
  have stored : (GraphTables.ofDump elements dump).vertices[last]? =
      some ⟨v.label, v.value.render⟩ := by
    rw [GraphTables.getElem?_vertices, written, Option.map_some]
  rw [← GraphTables.documents_eq_getLast? elements] at listed
  exact .map (GraphTables.nothingMissing_document listed stored (of_decide_eq_true isDocument) path)

/-- What a source does not know it does not find. -/
theorem answer_unknown (unknown : source.hasDocument path = false) :
    source.answer path = .error (.noDocument path) := by
  have absent : source.document path = .error (.noDocument path) := by
    unfold hasDocument at unknown
    unfold document
    cases source with
    | whole dump rows =>
        have nothing := Option.isNone_iff_eq_none.mp (Option.isSome_eq_false_iff.mp unknown)
        simp [wholeDocument, nothing, Except.map]
    | tables stored =>
        cases stored with
        | graph stored =>
            change stored.documents.contains _ = false at unknown
            rw [Std.ExtTreeMap.contains_eq_isSome_getElem?, Option.isSome_eq_false_iff,
              Option.isNone_iff_eq_none] at unknown
            simp [Tables.document, GraphTables.document, unknown, Except.map]
            rfl
        | blob stored =>
            change stored.documents.contains _ = false at unknown
            rw [Std.ExtTreeMap.contains_eq_isSome_getElem?, Option.isSome_eq_false_iff,
              Option.isNone_iff_eq_none] at unknown
            simp [Tables.document, BlobTables.document, BlobTables.octets?, unknown]
  rw [answer, absent]
  rfl

theorem accepted_of_ofElements {kind : Encoding}
    (converted : ofElements kind elements = .ok source) :
    ∃ dump, Dump.ofElements elements = .ok dump := by
  cases accepted : Dump.ofElements elements with
  | ok dump => exact ⟨dump, rfl⟩
  | error failure =>
      unfold ofElements Tables.ofElements at converted
      rw [accepted] at converted
      cases kind <;> cases converted

/-- An open dump finds the documents that it knows, unless they have been displaced, and does not
miss any other. -/
theorem nothingMissing_iff {kind : Encoding} (accepted : Dump.ofElements elements = .ok dump)
    (converted : ofElements kind elements = .ok source)
    (inPlace : kind = .graph → ¬ dump.Displaces elements path) :
    NothingMissing (source.answer path) ↔ source.hasDocument path = true := by
  constructor
  · intro found
    rw [← Bool.not_eq_false]
    intro unknown
    cases found _ (answer_unknown unknown)
  · intro known
    unfold ofElements Tables.ofElements at converted
    rw [accepted] at converted
    cases kind with
    | json =>
        cases converted
        obtain ⟨id, located⟩ := ((opened_ofDump dump).known path).mp known
        exact (servesDocument_ofDump located).nothingMissing
    | graph =>
        cases converted
        obtain ⟨id, located⟩ := ((opened_graph elements dump).known path).mp known
        exact nothingMissing_graph located (inPlace rfl)
    | blob =>
        cases converted
        obtain ⟨id, located⟩ := ((opened_blob dump).known path).mp known
        exact (servesDocument_blob located).nothingMissing

/-- The graph of a dump knows a document that has been displaced, and does not find it. -/
theorem displaced_missing (accepted : Dump.ofElements elements = .ok dump)
    (displaced : dump.Displaces elements path) :
    (tables (.graph (.ofDump elements dump))).hasDocument path = true ∧
      (Element.Legible elements →
        (tables (.graph (.ofDump elements dump))).answer path = .error (.noDocument path)) := by
  obtain ⟨id, listed, other⟩ := displaced
  have located : dump.Locates path id := Dump.mem_documentsAt.mp (List.mem_of_getLast? listed)
  refine ⟨((opened_graph elements dump).known path).mpr ⟨id, located⟩, fun legible => ?_⟩
  have missing := document_graph accepted legible.readBack listed
  rw [other, if_neg Bool.false_ne_true] at missing
  rw [answer, missing]
  rfl

end Source

end CodeNav
