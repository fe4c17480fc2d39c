/-
Module: CodeNav.Proofs.Dump.Addresses
Purpose: The documents at an address, of which a dump finds the first and tables keep the last.
Main exports:
  Dump.DistinctAddresses, Dump.documentsAt, Dump.documentId?_eq_head?,
  Dump.getElem?_foldl_eq_getLast?, Dump.head?_eq_getLast?_documentsAt
-/
import CodeNav.Dump.Document
import CodeNav.Proofs.Keyed

namespace CodeNav.Dump

variable {dump : Dump} {uri : String}

/-- No two documents have one address. -/
def DistinctAddresses (dump : Dump) : Prop :=
  ∀ (i j : VertexId) uri, dump.documents[i]? = some uri → dump.documents[j]? = some uri → i = j

/-- The documents at an address, in the order of identifiers. -/
def documentsAt (dump : Dump) (uri : String) : List VertexId :=
  (dump.documents.toList.filter (·.2 = uri)).map (·.1)

theorem mem_documentsAt {id : VertexId} :
    id ∈ dump.documentsAt uri ↔ dump.documents[id]? = some uri := by
  simp only [documentsAt, List.mem_map, List.mem_filter, Prod.exists, decide_eq_true_eq,
    Std.ExtTreeMap.mem_toList_iff_getElem?_eq_some]
  constructor
  · rintro ⟨_, _, ⟨addressed, rfl⟩, rfl⟩
    exact addressed
  · intro addressed
    exact ⟨id, uri, ⟨addressed, rfl⟩, rfl⟩

theorem nodup_documentsAt (dump : Dump) (uri : String) : (dump.documentsAt uri).Nodup := by
  refine List.Nodup.sublist (List.filter_sublist.map _) ?_
  rw [Std.ExtTreeMap.map_fst_toList_eq_keys]
  exact Std.ExtTreeMap.nodup_keys

/-- The first document and the last one are the same exactly if there are not two. -/
theorem head?_eq_getLast?_documentsAt :
    (dump.documentsAt uri).head? = (dump.documentsAt uri).getLast? ↔
      ∀ i j : VertexId, dump.documents[i]? = some uri → dump.documents[j]? = some uri → i = j := by
  have nodup := dump.nodup_documentsAt uri
  simp only [← mem_documentsAt]
  generalize dump.documentsAt uri = ids at nodup
  cases ids with
  | nil => simp
  | cons first rest =>
      cases rest with
      | nil => simp
      | cons second rest =>
          obtain ⟨fresh, _⟩ := List.nodup_cons.mp nodup
          constructor
          · intro same
            have last : some first = (second :: rest).getLast? := by
              simpa [List.getLast?_cons_cons] using same
            exact absurd (List.mem_of_getLast? last.symm) fresh
          · intro only
            obtain rfl := only first second (by simp) (by simp)
            exact absurd List.mem_cons_self fresh

/-- The dump itself finds the first document. -/
theorem documentId?_eq_head? : dump.documentId? uri = (dump.documentsAt uri).head? := by
  rw [documentId?, documentsAt, List.head?_map, List.head?_filter]
  congr 2

/-- Tables by address keep what was made of the last document. -/
theorem getElem?_foldl_eq_getLast? {α : Type} (value : VertexId → α) :
    (dump.documents.toList.foldl (fun table entry => table.insert entry.2 (value entry.1))
      (∅ : Std.ExtTreeMap String α))[uri]? = (dump.documentsAt uri).getLast?.map value := by
  rw [Keyed.getElem?_foldl_insert Prod.snd _ (fun entry => value entry.1), documentsAt,
    List.getLast?_map, Option.map_map]
  simp [Function.comp_def]

/-- Where there are not two documents at an address, tables keep the one that the dump finds. -/
theorem DistinctAddresses.documentId? (distinct : dump.DistinctAddresses) :
    dump.documentId? uri = (dump.documentsAt uri).getLast? := by
  rw [documentId?_eq_head?, head?_eq_getLast?_documentsAt]
  exact fun i j => distinct i j uri

/-- The document found at an address has it. -/
theorem addressed_of_documentId? {id : VertexId} (found : dump.documentId? uri = some id) :
    dump.documents[id]? = some uri := by
  rw [documentId?_eq_head?] at found
  exact mem_documentsAt.mp (List.mem_of_head? found)

/-- Tables keep a document at every address. -/
theorem exists_getLast?_documentsAt {id : VertexId} (addressed : dump.documents[id]? = some uri) :
    ∃ last, (dump.documentsAt uri).getLast? = some last := by
  refine Option.ne_none_iff_exists'.mp fun nothing => ?_
  have listed := mem_documentsAt.mpr addressed
  rw [List.getLast?_eq_none_iff.mp nothing] at listed
  cases listed

theorem isSome_documentId?_iff :
    (dump.documentId? uri).isSome ↔ ∃ id : VertexId, dump.documents[id]? = some uri := by
  constructor
  · intro found
    obtain ⟨id, found⟩ := Option.isSome_iff_exists.mp found
    exact ⟨id, addressed_of_documentId? found⟩
  · rintro ⟨id, addressed⟩
    rw [documentId?, Option.isSome_map, List.find?_isSome]
    exact ⟨_, Std.ExtTreeMap.mem_toList_iff_getElem?_eq_some.mpr addressed, beq_self_eq_true _⟩

theorem isSome_getLast?_documentsAt_iff :
    (dump.documentsAt uri).getLast?.isSome ↔ ∃ id : VertexId, dump.documents[id]? = some uri := by
  constructor
  · intro found
    obtain ⟨id, last⟩ := Option.isSome_iff_exists.mp found
    exact ⟨id, mem_documentsAt.mp (List.mem_of_getLast? last)⟩
  · rintro ⟨id, addressed⟩
    exact Option.isSome_iff_exists.mpr (exists_getLast?_documentsAt addressed)

theorem mem_documents_of_addressed {id : VertexId} (addressed : dump.documents[id]? = some uri) :
    id ∈ dump.documents := by
  rw [Std.ExtTreeMap.mem_iff_isSome_getElem?, addressed]
  rfl

/-- A document with an address is cut out. -/
theorem document?_of_addressed {id : VertexId} (addressed : dump.documents[id]? = some uri) :
    dump.document? id = some (dump.documentOf id) := by
  rw [document?, if_pos (Std.ExtTreeMap.mem_iff_contains.mp (mem_documents_of_addressed addressed))]

end CodeNav.Dump
