/-
Module: CodeNav.Proofs.Encoding.Locations
Purpose: Whether the locations that are answered for a moniker can be asked about in turn.
Main exports:
  Source.ofElements, Source.Opened, Source.locations_lead_back
-/
import CodeNav.Proofs.Dump.MonikerRows
import CodeNav.Proofs.Encoding.Served
import CodeNav.Proofs.ProjectRoot

namespace CodeNav

variable {elements : List Element} {dump : Dump} {path : String}

/-! ### Addresses of documents -/

namespace Dump

/-- The address in a row is that of a document. -/
theorem addressed_of_mem_rows {kind : RowKind} {row : MonikerRow} (listed : row ∈ dump.rows kind) :
    ∃ id : VertexId, dump.documents[id]? = some row.uri := by
  obtain ⟨node, listed⟩ := mem_rows_iff_exists_node.mp listed
  obtain ⟨_, _, item, _, _, _, made⟩ := mem_nodeRows.mp listed
  obtain ⟨_, document, uri, _, _, addressed, rfl⟩ := row?_eq_some_iff.mp made
  exact ⟨document, addressed⟩

end Dump

namespace Source

/-! ### Sources of a dump -/

/-- What sources of one dump have in common, whatever their encoding: where addresses lead, which
documents there are, and the rows. -/
structure Opened (source : Source) (dump : Dump) : Prop where
  project : source.project = .ofOption dump.projectRoot
  known : ∀ path, source.hasDocument path = true ↔ ∃ id, dump.Locates path id
  rows : source.rows = .ofDump dump

theorem opened_ofDump (dump : Dump) : (ofDump dump).Opened dump where
  project := rfl
  known _ := Dump.isSome_documentId?_iff
  rows := rfl

theorem opened_graph (elements : List Element) (dump : Dump) :
    (tables (.graph (.ofDump elements dump))).Opened dump where
  project := rfl
  known path := by
    change (GraphTables.ofDump elements dump).documents.contains _ = true ↔ _
    rw [Std.ExtTreeMap.contains_eq_isSome_getElem?, GraphTables.documents_eq_getLast?]
    exact Dump.isSome_getLast?_documentsAt_iff
  rows := rfl

section

variable [Gzip.Compressor]

theorem opened_blob (dump : Dump) : (tables (.blob (.ofDump dump))).Opened dump where
  project := project_blob dump
  known path := by
    unfold hasDocument
    rw [project_blob]
    change (BlobTables.ofDump dump).documents.contains _ = true ↔ _
    rw [Std.ExtTreeMap.contains_eq_isSome_getElem?, BlobTables.documents_eq_getLast?,
      Option.isSome_map]
    exact Dump.isSome_getLast?_documentsAt_iff
  rows := (BlobTables.holds_ofDump dump).rows

/-! ### Documents that are served -/

/-- What is opened of a dump in an encoding: the dump itself, or the tables that it is converted
to. -/
def ofElements (kind : Encoding) (elements : List Element) : Except Failure Source :=
  match kind with
  | .json => (Dump.ofElements elements).map ofDump
  | kind => (Tables.ofElements kind elements).map tables

/-- A source serves the octets of some document for a path. -/
def ServesDocument (source : Source) (path : String) : Prop :=
  ∃ document : Document, source.document path = .ok document.encode

theorem servesDocument_ofDump {id : VertexId} (located : dump.Locates path id) :
    (ofDump dump).ServesDocument path := by
  obtain ⟨first, found⟩ := Option.isSome_iff_exists.mp
    (Dump.isSome_documentId?_iff.mpr ⟨id, located⟩)
  exact ⟨_, document_ofDump found⟩

theorem servesDocument_blob {id : VertexId} (located : dump.Locates path id) :
    (tables (.blob (.ofDump dump))).ServesDocument path := by
  obtain ⟨same, found⟩ := document_blob located
  exact ⟨_, found⟩

theorem servesDocument_graph (accepted : Dump.ofElements elements = .ok dump)
    (legible : Element.Legible elements) {id : VertexId} (located : dump.Locates path id)
    (kept : ∀ i, dump.Locates path i → Element.endsAsDocument elements i) :
    (tables (.graph (.ofDump elements dump))).ServesDocument path := by
  obtain ⟨last, listed⟩ := Dump.exists_getLast?_documentsAt located
  have there : dump.Locates path last := Dump.mem_documentsAt.mp (List.mem_of_getLast? listed)
  have served := document_graph accepted legible.readBack listed
  rw [if_pos (kept last there)] at served
  obtain ⟨part, _, found⟩ := served
  exact ⟨_, found⟩

/-- An accepted dump is opened in every encoding. A path of a document is served; by the graph, if
vertices are legible and none has been stored in place of a document of that path. -/
theorem ofElements_opened (accepted : Dump.ofElements elements = .ok dump) (kind : Encoding) :
    ∃ source, ofElements kind elements = .ok source ∧ source.Opened dump ∧
      ∀ path id, dump.Locates path id →
        (kind = .graph → Element.Legible elements ∧
          ∀ i, dump.Locates path i → Element.endsAsDocument elements i) →
        source.ServesDocument path := by
  unfold ofElements Tables.ofElements
  rw [accepted]
  cases kind with
  | json =>
      exact ⟨_, rfl, opened_ofDump dump, fun _ _ located _ => servesDocument_ofDump located⟩
  | graph =>
      refine ⟨_, rfl, opened_graph elements dump, fun path id located kept => ?_⟩
      exact servesDocument_graph accepted (kept rfl).1 located (kept rfl).2
  | blob =>
      exact ⟨_, rfl, opened_blob dump, fun _ _ located _ => servesDocument_blob located⟩

end

/-! ### Locations -/

/-- A location is a row for the moniker, with the path of its address. -/
theorem mem_locations_iff {source : Source} (opened : source.Opened dump) {kind : RowKind}
    {scheme identifier : String} {location : Location} :
    location ∈ source.locations kind scheme identifier ↔
      ∃ uri, ⟨scheme, identifier, uri, location.range⟩ ∈ dump.rows kind ∧
        location.uri = source.project.path uri := by
  unfold locations RowTables.locations
  have all : (RowTables.ofDump dump).ofKind kind = dump.rows kind := by
    cases kind <;> rfl
  rw [opened.rows, all]
  simp only [List.mem_map, List.mem_filter, Bool.and_eq_true, beq_iff_eq]
  constructor
  · rintro ⟨row, ⟨listed, rfl, rfl⟩, rfl⟩
    exact ⟨row.uri, listed, rfl⟩
  · rintro ⟨uri, listed, path⟩
    exact ⟨_, ⟨listed, rfl, rfl⟩, path ▸ rfl⟩

/-- Locations come from rows of documents. The path of a location leads back to its document, which
is known and served under it, if the document lies in the project; a document outside of it is
answered under its own address, which is a path of the project when it comes back. -/
theorem locations_lead_back [Gzip.Compressor] (accepted : Dump.ofElements elements = .ok dump)
    (kind : Encoding) :
    ∃ source, ofElements kind elements = .ok source ∧
      source.project = .ofOption dump.projectRoot ∧
      ∀ rows scheme identifier, ∀ location ∈ source.locations rows scheme identifier,
        ∃ (uri : String) (id : VertexId), dump.documents[id]? = some uri ∧
          ⟨scheme, identifier, uri, location.range⟩ ∈ dump.rows rows ∧
          (source.project.Covers uri →
            source.project.address location.uri = uri ∧
            source.hasDocument location.uri = true ∧
            ((kind = .graph → Element.Legible elements ∧
                ∀ i : VertexId, dump.documents[i]? = some uri →
                  Element.endsAsDocument elements i) →
              source.ServesDocument location.uri)) ∧
          (∀ root, source.project.root = some root → (∀ path, uri ≠ root ++ "/" ++ path) →
            location.uri = uri ∧
            (source.hasDocument location.uri = true ↔
              ∃ i : VertexId, dump.documents[i]? = some (source.project.address uri))) := by
  obtain ⟨source, converted, opened, served⟩ := ofElements_opened accepted kind
  refine ⟨source, converted, opened.project, ?_⟩
  intro rows scheme identifier location listed
  obtain ⟨uri, row, path⟩ := (mem_locations_iff opened).mp listed
  obtain ⟨id, addressed⟩ := Dump.addressed_of_mem_rows row
  refine ⟨uri, id, addressed, row, ?_, ?_⟩
  · intro inside
    have back : source.project.address location.uri = uri := by
      rw [path, ProjectRoot.address_path_iff]
      exact inside
    have leads (i : VertexId) : dump.Locates location.uri i ↔ dump.documents[i]? = some uri := by
      rw [Dump.Locates, ← opened.project, back]
    refine ⟨back, (opened.known _).mpr ⟨id, (leads id).mpr addressed⟩, fun kept => ?_⟩
    exact served _ id ((leads id).mpr addressed) fun graph =>
      ⟨(kept graph).1, fun i located => (kept graph).2 i ((leads i).mp located)⟩
  · intro root known outside
    have own : location.uri = uri := path.trans (ProjectRoot.path_outside known outside)
    refine ⟨own, ?_⟩
    rw [own, opened.known, opened.project]
    rfl

open scoped Gzip

/-- A dump with a root and one document, in which a symbol with a moniker is defined. -/
def rootedSample (uri : String) : List Element :=
  [.vertex ⟨⟨"1"⟩, "metaData", .record [("projectRoot", .string "file:///p/")]⟩,
   .vertex ⟨⟨"2"⟩, "document", .record [("uri", .string uri)]⟩,
   .vertex ⟨⟨"3"⟩, "range",
     .record [("end", samplePosition 1 7), ("start", samplePosition 1 4)]⟩,
   .vertex ⟨⟨"4"⟩, "definitionResult", .record []⟩,
   .vertex ⟨⟨"5"⟩, "moniker",
     .record [("identifier", .string "a:f"), ("kind", .string "export"),
       ("scheme", .string "tsc")]⟩,
   .edge ⟨"contains", ⟨"2"⟩, none, [⟨"3"⟩], none, none⟩,
   .edge ⟨"textDocument/definition", ⟨"3"⟩, some ⟨"4"⟩, [], none, none⟩,
   .edge ⟨"moniker", ⟨"3"⟩, some ⟨"5"⟩, [], none, none⟩,
   .edge ⟨"item", ⟨"4"⟩, none, [⟨"3"⟩], some ⟨"2"⟩, none⟩]

/-- What the sample holds of a document inside of the root, and of one outside. -/
theorem ofElements_rootedSample (uri : String)
    (one : uri ∈ ["file:///p/a.ts", "file:///q/a.ts"]) :
    ∃ dump, Dump.ofElements (rootedSample uri) = .ok dump ∧
      dump.projectRoot = some "file:///p/" ∧ dump.documents.toList = [(⟨"2"⟩, uri)] ∧
      dump.rows .definitions = [⟨"tsc", "a:f", uri, ⟨⟨1, 4⟩, ⟨1, 7⟩⟩⟩] := by
  have read : ∀ uri ∈ ["file:///p/a.ts", "file:///q/a.ts"],
      (Dump.ofElements (rootedSample uri)).toOption.map (fun dump =>
        (dump.projectRoot, dump.documents.toList, dump.rows .definitions)) =
      some (some "file:///p/", [(⟨"2"⟩, uri)],
        [⟨"tsc", "a:f", uri, ⟨⟨1, 4⟩, ⟨1, 7⟩⟩⟩]) := by
    decide +kernel
  obtain ⟨dump, accepted, seen⟩ := Success.map_toOption_eq_some.mp (read uri one)
  simp only [Prod.mk.injEq] at seen
  exact ⟨dump, accepted, seen⟩

theorem locations_lead_back_sample :
    ∃ source, ofElements .graph (rootedSample "file:///p/a.ts") = .ok source ∧
      ∃ location ∈ source.locations .definitions "tsc" "a:f",
        location.range = ⟨⟨1, 4⟩, ⟨1, 7⟩⟩ ∧
        source.project.address location.uri = "file:///p/a.ts" ∧
        source.hasDocument location.uri = true ∧ source.ServesDocument location.uri := by
  obtain ⟨dump, accepted, root, documents, rows⟩ :=
    ofElements_rootedSample "file:///p/a.ts" (by decide)
  have known : (ProjectRoot.ofOption dump.projectRoot).root = some "file:///p" := by
    rw [root]
    decide +kernel
  obtain ⟨source, converted, project, back⟩ := locations_lead_back accepted .graph
  obtain ⟨_, same, opened, _⟩ := ofElements_opened accepted .graph
  obtain rfl := Except.ok.inj (converted.symm.trans same)
  have listed : ⟨source.project.path "file:///p/a.ts", ⟨⟨1, 4⟩, ⟨1, 7⟩⟩⟩ ∈
      source.locations .definitions "tsc" "a:f" :=
    (mem_locations_iff opened).mpr ⟨_, rows ▸ List.mem_singleton_self _, rfl⟩
  obtain ⟨uri, id, _, row, inside, _⟩ := back .definitions "tsc" "a:f" _ listed
  rw [rows, List.mem_singleton] at row
  obtain rfl : uri = "file:///p/a.ts" := congrArg MonikerRow.uri row
  have covered : source.project.Covers "file:///p/a.ts" := by
    intro root stated
    rw [project, known] at stated
    cases stated
    exact ⟨"a.ts", by decide +kernel, by decide +kernel⟩
  obtain ⟨address, found, serves⟩ := inside covered
  refine ⟨source, converted, _, listed, rfl, address, found, serves fun _ => ⟨?_, ?_⟩⟩
  · have reread : Element.Rereadable (rootedSample "file:///p/a.ts") := by
      unfold Element.Rereadable
      decide +kernel
    exact reread.legible
  · intro i addressed
    rw [← Std.ExtTreeMap.mem_toList_iff_getElem?_eq_some, documents,
      List.mem_singleton] at addressed
    cases addressed
    decide +kernel

/-- A location outside of the root is answered as one that is no document. -/
theorem locations_may_lead_astray :
    ¬ ∀ (elements : List Element) (dump : Dump) (kind : Encoding),
      Dump.ofElements elements = .ok dump →
      ∃ source, ofElements kind elements = .ok source ∧
        ∀ rows scheme identifier, ∀ location ∈ source.locations rows scheme identifier,
          source.hasDocument location.uri = true := by
  intro claim
  obtain ⟨dump, accepted, root, documents, rows⟩ :=
    ofElements_rootedSample "file:///q/a.ts" (by decide)
  obtain ⟨source, converted, known⟩ := claim _ dump .json accepted
  obtain ⟨_, same, opened, _⟩ := ofElements_opened accepted .json
  obtain rfl := Except.ok.inj (converted.symm.trans same)
  have listed : ⟨source.project.path "file:///q/a.ts", ⟨⟨1, 4⟩, ⟨1, 7⟩⟩⟩ ∈
      source.locations .definitions "tsc" "a:f" :=
    (mem_locations_iff opened).mpr ⟨_, rows ▸ List.mem_singleton_self _, rfl⟩
  obtain ⟨id, located⟩ := (opened.known _).mp (known .definitions "tsc" "a:f" _ listed)
  have elsewhere : (ProjectRoot.ofOption dump.projectRoot).address
      (source.project.path "file:///q/a.ts") = "file:///p/file:///q/a.ts" := by
    rw [opened.project, root]
    decide +kernel
  rw [Dump.Locates, elsewhere, ← Std.ExtTreeMap.mem_toList_iff_getElem?_eq_some, documents,
    List.mem_singleton] at located
  have other : "file:///p/file:///q/a.ts" ≠ "file:///q/a.ts" := by decide
  exact other (congrArg Prod.snd located)

end Source

end CodeNav
