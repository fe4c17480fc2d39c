/-
Module: CodeNav.Proofs.Encoding.Addresses
Purpose: Which of several documents with one address each encoding serves.
Main exports:
  Source.resolutions_agree_iff
-/
import CodeNav.Proofs.Encoding.Served

namespace CodeNav.Source

section

variable [Gzip.Compressor] {elements : List Element} {dump : Dump}

/-- A dump read as a whole serves the first document at an address. Both kinds of tables keep the
last one, whose octets the finished documents serve unless digests collide. The same document is
found exactly where there are not two. -/
theorem resolutions_agree_iff (accepted : Dump.ofElements elements = .ok dump) :
    ∃ graph blob,
      Tables.ofElements .graph elements = .ok (.graph graph) ∧
      Tables.ofElements .blob elements = .ok (.blob blob) ∧
      (∀ uri, dump.documentId? uri = (dump.documentsAt uri).head? ∧
        graph.documents[uri]? = (dump.documentsAt uri).getLast? ∧
        blob.documents[uri]? = (dump.documentsAt uri).getLast?.map fun id =>
          BlobTables.digest (dump.documentOf id).encode) ∧
      (∀ path id,
        (dump.documentsAt ((ProjectRoot.ofOption dump.projectRoot).address path)).head? = some id →
        (ofDump dump).document path = .ok (dump.documentOf id).encode) ∧
      (BlobTables.NoCollision dump → ∀ uri path id, (dump.documentsAt uri).getLast? = some id →
        blob.document uri path = .ok (dump.documentOf id).encode) ∧
      ∀ uri, dump.documentId? uri = graph.documents[uri]? ↔
        ∀ i j : VertexId, dump.documents[i]? = some uri → dump.documents[j]? = some uri →
          i = j := by
  refine ⟨.ofDump elements dump, .ofDump dump, ?_, ?_, ?_, ?_, ?_, ?_⟩
  · simp only [Tables.ofElements, accepted]
    rfl
  · simp only [Tables.ofElements, accepted]
    rfl
  · intro uri
    exact ⟨Dump.documentId?_eq_head?, GraphTables.documents_eq_getLast? elements dump uri,
      BlobTables.documents_eq_getLast? dump uri⟩
  · intro path id first
    exact document_ofDump (Dump.documentId?_eq_head?.trans first)
  · intro collisionFree uri path id last
    rw [BlobTables.document, BlobTables.octets?_eq_encode collisionFree last]
  · intro uri
    rw [Dump.documentId?_eq_head?, GraphTables.documents_eq_getLast?]
    exact Dump.head?_eq_getLast?_documentsAt

end

open scoped Gzip

theorem resolutions_agree_sample :
    ∃ dump graph, Dump.ofElements sample = .ok dump ∧
      Tables.ofElements .graph sample = .ok (.graph graph) ∧
      ∀ uri, dump.documentId? uri = graph.documents[uri]? := by
  have read : (Dump.ofElements sample).toOption.map (·.documents.toList) =
      some [(⟨"1"⟩, "file:///a.ts")] := by decide +kernel
  obtain ⟨dump, accepted, listed⟩ := Success.map_toOption_eq_some.mp read
  have only (i : VertexId) (uri : String) (found : dump.documents[i]? = some uri) :
      i = ⟨"1"⟩ := by
    rw [← Std.ExtTreeMap.mem_toList_iff_getElem?_eq_some, listed, List.mem_singleton] at found
    exact congrArg Prod.fst found
  obtain ⟨graph, _, toGraph, _, _, _, _, alike⟩ := resolutions_agree_iff accepted
  exact ⟨dump, graph, accepted, toGraph, fun uri => (alike uri).mpr fun i j first second =>
    (only i uri first).trans (only j uri second).symm⟩

/-- Two documents with one address, of which the first contains a range. -/
def twiceSample : List Element :=
  [.vertex ⟨⟨"1"⟩, "document", .record [("uri", .string "file:///a.ts")]⟩,
   .vertex ⟨⟨"2"⟩, "document", .record [("uri", .string "file:///a.ts")]⟩,
   .vertex ⟨⟨"3"⟩, "range",
     .record [("end", samplePosition 1 7), ("start", samplePosition 1 4)]⟩,
   .edge ⟨"contains", ⟨"1"⟩, none, [⟨"3"⟩], none, none⟩]

/-- Tables may find another document than the dump itself. -/
theorem resolutions_may_differ :
    ¬ ∀ (elements : List Element) (dump : Dump) (graph : GraphTables) (uri : String),
      Dump.ofElements elements = .ok dump →
      Tables.ofElements .graph elements = .ok (.graph graph) →
      dump.documentId? uri = graph.documents[uri]? := by
  intro alike
  have seen : (Dump.ofElements twiceSample).toOption.map (fun dump =>
      (dump.documentId? "file:///a.ts",
        (GraphTables.ofDump twiceSample dump).documents["file:///a.ts"]?)) =
      some (some ⟨"1"⟩, some ⟨"2"⟩) := by decide +kernel
  obtain ⟨dump, accepted, seen⟩ := Success.map_toOption_eq_some.mp seen
  obtain ⟨found, kept⟩ := Prod.mk.inj seen
  have converted : Tables.ofElements .graph twiceSample =
      .ok (.graph (.ofDump twiceSample dump)) := by
    simp only [Tables.ofElements, accepted]
    rfl
  have same := alike twiceSample dump _ "file:///a.ts" accepted converted
  rw [found, kept] at same
  exact absurd same (by decide)

end CodeNav.Source
