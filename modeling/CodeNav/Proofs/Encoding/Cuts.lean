/-
Module: CodeNav.Proofs.Encoding.Cuts
Purpose: Documents that are read back from a stored dump are cut out of a dump.
Main exports:
  Document.IsCut, Document.IsCut.locations_ne_nil, Source.IsOf.isCut, Source.IsOf.answers
-/
import CodeNav.Proofs.Dump.Contents
import CodeNav.Proofs.Encoding.Served
import CodeNav.Proofs.Service.Invalidation

namespace CodeNav

open Element (vertices)
open Json (Value)

/-! ### Documents that were cut out of a dump -/

namespace Document

/-- A document is cut out of some dump, whatever its hovers show. -/
def IsCut (document : Document) : Prop :=
  ∃ elements dump id, Dump.ofElements elements = .ok dump ∧
    document = { dump.documentOf id with hovers := document.hovers }

variable {document : Document}

theorem mem_definitionResults {start : ChainNode} {result : DefinitionResult}
    (found : document.definition? start = some result) :
    ∃ id : VertexId, document.definitionResults[id]? = some result := by
  obtain ⟨node, _, named⟩ := List.exists_of_findSome?_eq_some found
  obtain ⟨id, _, stored⟩ := Option.bind_eq_some_iff.mp named
  exact ⟨id, stored⟩

theorem mem_of_rangeById? {id : VertexId} {entry : RangeEntry}
    (found : document.rangeById? id = some entry) : entry ∈ document.orderedRanges := by
  obtain ⟨index, _, place⟩ := Option.bind_eq_some_iff.mp found
  exact List.mem_of_getElem? place

/-- Locations carry the address that they are asked for, and ranges of the document. -/
theorem mem_locations {uri : String} {ids : List VertexId} {location : Location}
    (listed : location ∈ document.locations uri ids) :
    location.uri = uri ∧ ∃ entry ∈ document.orderedRanges, location.range = entry.range := by
  obtain ⟨entry, among, rfl⟩ := List.mem_map.mp listed
  obtain ⟨id, _, found⟩ := List.mem_filterMap.mp among
  exact ⟨rfl, entry, mem_of_rangeById? found, rfl⟩

/-- A definition result of a document leads to a place in it. -/
theorem IsCut.locations_ne_nil (cut : document.IsCut) {start : ChainNode}
    {result : DefinitionResult} (found : document.definition? start = some result)
    (uri : String) : document.locations uri result.values ≠ [] := by
  obtain ⟨id, stored⟩ := mem_definitionResults found
  obtain ⟨elements, dump, vertex, accepted, same⟩ := cut
  rw [same] at stored ⊢
  have ⟨filled, inside⟩ :=
    (Dump.cutOf_documentOf accepted vertex).definitionsResolve id result stored
  obtain ⟨value, listed⟩ := List.exists_mem_of_ne_nil _ filled
  obtain ⟨entry, resolved⟩ := Option.isSome_iff_exists.mp (inside value listed)
  have member : entry ∈ result.values.filterMap (dump.documentOf vertex).rangeById? :=
    List.mem_filterMap.mpr ⟨value, listed, resolved⟩
  exact List.ne_nil_of_mem (List.mem_map_of_mem member)

/-- What is read back of a document of a dump is a cut. -/
theorem isCut_of_decode [Gzip.Compressor] {elements : List Element} {dump : Dump}
    (accepted : Dump.ofElements elements = .ok dump) {id : VertexId}
    (hovers : ∀ entry ∈ (dump.documentOf id).hovers.toList, entry.2.contents.Legible)
    (decoded : decode (dump.documentOf id).encode = .ok document) : document.IsCut := by
  rw [decode_encode_eq _ hovers] at decoded
  split at decoded
  · cases decoded
    exact ⟨elements, dump, id, accepted, rfl⟩
  · cases decoded

end Document

/-! ### Tables -/

/-- Whatever the graph of a dump serves is cut out of a part of the dump. -/
theorem GraphTables.exists_part {elements : List Element} {dump : Dump}
    (accepted : Dump.ofElements elements = .ok dump) {again : Value → Value}
    (reads : Element.ReadBack elements again) {uri path : String} {document : Document}
    (served : (ofDump elements dump).document uri path = .ok document) :
    ∃ collected part id, Dump.ofElements collected = .ok part ∧ dump.HoversOf again part ∧
      document = part.documentOf id := by
  unfold GraphTables.document at served
  cases located : (ofDump elements dump).documents[uri]? with
  | none =>
      rw [located] at served
      cases served
  | some id =>
      obtain ⟨ids, result, nodup, stored, _⟩ := subgraph_eq_ok (readable_ofDump reads dump) id
      obtain ⟨part, partAccepted⟩ := ofElements_collected reads nodup stored accepted
      have hovers := hoversOf_collected reads nodup stored partAccepted accepted
      simp only [located, result, partAccepted, Success.ok_bind, Dump.document?] at served
      refine ⟨_, part, id, partAccepted, hovers, ?_⟩
      cases present : part.documents.contains id <;> simp only [present] at served <;> cases served
      rfl

/-- Octets that are found by an address are those of some document. -/
theorem BlobTables.exists_octets [Gzip.Compressor] {dump : Dump} {uri path : String}
    {served : List UInt8} (answered : (ofDump dump).document uri path = .ok served) :
    ∃ id, served = (dump.documentOf id).encode := by
  unfold BlobTables.document at answered
  cases last : (dump.documentsAt uri).getLast? with
  | none => simp [octets?, documents_eq_getLast?, last] at answered
  | some id =>
      obtain ⟨same, _, _, found⟩ := octets?_ofDump last
      rw [found] at answered
      cases answered
      exact ⟨same, rfl⟩

/-! ### Sources -/

namespace Source

/-- What a dump that is read as a whole answers. -/
theorem answer_ofDump [Gzip.Compressor] {dump : Dump} {path : String} {id : VertexId}
    (first : dump.documentId? ((ProjectRoot.ofOption dump.projectRoot).address path) = some id)
    (hovers : ∀ entry ∈ (dump.documentOf id).hovers.toList, entry.2.contents.Legible) :
    (ofDump dump).answer path =
      if ∀ entry ∈ (dump.documentOf id).hovers.toList, entry.2.contents.nesting ≤ 124 then
        .ok (dump.documentOf id).reread
      else .error (.malformedDocument .recursionLimit) := by
  rw [answer, document_ofDump first, Success.ok_bind]
  exact Document.decode_encode_eq _ hovers

section

variable [Gzip.Compressor] {octets : List UInt8} {elements : List Element} {dump : Dump}
  {source : Source}
  (opened : source.IsOf octets) (parsed : Dump.parseElements none octets = .ok elements)
  (accepted : Dump.ofElements elements = .ok dump)
include opened parsed accepted

/-- What is opened of an accepted dump is the dump itself, or one of the kinds of tables. -/
theorem IsOf.cases : source = .ofDump dump ∨
    source = .tables (.graph (.ofDump elements dump)) ∨
    source = .tables (.blob (.ofDump dump)) := by
  obtain ⟨kind, file, content, stored, opens⟩ := opened
  have ofTables (notJson : kind ≠ .json) {tables : Tables}
      (converted : Tables.ofElements kind elements = .ok tables) : source = .tables tables := by
    cases stored.symm.trans (Encoding.contentOf_tables notJson parsed converted)
    rw [Encoding.openContent_tables notJson (Tables.ofElements_kind converted notJson)] at opens
    exact (Except.ok.inj opens).symm
  cases kind with
  | json =>
      have whole : Dump.parse none octets = .ok dump := by
        rw [Dump.parse, parsed, Success.ok_bind, accepted]
      cases stored
      rw [Encoding.openContent_octets whole] at opens
      exact .inl (Except.ok.inj opens).symm
  | graph => exact .inr (.inl (ofTables (by decide) (by rw [Tables.ofElements, accepted]; rfl)))
  | blob => exact .inr (.inr (ofTables (by decide) (by rw [Tables.ofElements, accepted]; rfl)))

/-- What is served of a stored dump is cut out of the dump, or of a part of it. -/
theorem IsOf.exists_part {path : String} {served : List UInt8}
    (answered : source.document path = .ok served) :
    ∃ collected part id, Dump.ofElements collected = .ok part ∧
      (∀ (id : VertexId) hover, part.hovers[id]? = some hover → dump.Shows id hover) ∧
      served = (part.documentOf id).encode := by
  rcases opened.cases parsed accepted with rfl | rfl | rfl
  · cases first : dump.documentId? ((ProjectRoot.ofOption dump.projectRoot).address path) with
    | none =>
        have nothing : (ofDump dump).document path = .error (.noDocument path) := by
          change (wholeDocument dump ((ProjectRoot.ofOption dump.projectRoot).address path)
            path).map _ = _
          simp [wholeDocument, first, Except.map]
        rw [nothing] at answered
        cases answered
    | some id =>
        rw [document_ofDump first] at answered
        cases answered
        exact ⟨elements, dump, id, accepted, fun _ hover found => ⟨hover, found, .inl rfl⟩, rfl⟩
  · obtain ⟨document, found, rfl⟩ := Success.map_eq_ok.mp answered
    have legible := Dump.legible_of_parseElements parsed
    obtain ⟨collected, part, id, partAccepted, hovers, rfl⟩ :=
      GraphTables.exists_part accepted legible.readBack found
    refine ⟨collected, part, id, partAccepted, fun id hover known => ?_, rfl⟩
    obtain ⟨shown, there, same⟩ := hovers id hover known
    exact ⟨shown, there, .inr same⟩
  · obtain ⟨same, found⟩ := BlobTables.exists_octets answered
    exact ⟨elements, dump, same, accepted, fun _ hover found => ⟨hover, found, .inl rfl⟩, found⟩

/-- Whatever is read back of a stored dump is cut out of a dump. -/
theorem IsOf.isCut {path : String} {document : Document}
    (answered : source.answer path = .ok document) : document.IsCut := by
  have legible := Dump.legible_of_parseElements parsed
  obtain ⟨served, answered, decoded⟩ := Success.bind_eq_ok.mp answered
  obtain ⟨collected, part, id, partAccepted, hovers, rfl⟩ :=
    opened.exists_part parsed accepted answered
  refine Document.isCut_of_decode partAccepted (fun entry listed => ?_) decoded
  exact Dump.legible_of_shows accepted legible
    (hovers entry.1 entry.2 (Dump.hovers_documentOf listed))

/-- Every document of a dump is read back if no hover nests too deep and no other vertex has been
written in the place of a document. -/
theorem IsOf.answers {path : String} {id : VertexId} (located : dump.Locates path id)
    (ends : ∀ i, dump.Locates path i → Element.endsAsDocument elements i)
    (shallow : ∀ (i : VertexId) hover, dump.hovers[i]? = some hover →
      hover.contents.nesting ≤ 124) :
    ∃ document, source.answer path = .ok document := by
  have legible := Dump.legible_of_parseElements parsed
  have serves : source.Serves dump path := by
    rcases opened.cases parsed accepted with rfl | rfl | rfl
    · exact serves_whole accepted legible located
    · obtain ⟨i, there, served⟩ := serves_graph accepted legible located
      rwa [if_pos (ends i there)] at served
    · exact serves_blob accepted legible located
  obtain ⟨document, hovers, octets, decoded⟩ := serves
  have fits : ∀ entry ∈ document.hovers.toList, entry.2.contents.nesting ≤ 124 := by
    intro entry listed
    obtain ⟨shown, found, same | same⟩ := hovers entry listed
    · exact same ▸ shallow entry.1 shown found
    · rw [same]
      exact (Json.Value.nesting_reread _).trans_le (shallow entry.1 shown found)
  rw [if_pos fits] at decoded
  exact ⟨_, by rw [answer, octets, Success.ok_bind, decoded]⟩

end

end Source

end CodeNav
