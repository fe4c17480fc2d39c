/-
Module: CodeNav.Proofs.Encoding.Splitting
Purpose: When a dump is the same for queries once its edges are split up by their targets.
Main exports:
  Element.SingleTargets, Dump.relinked_splitUp, Dump.splitUp_agrees_iff
-/
import CodeNav.Proofs.Dump.Relinked
import CodeNav.Proofs.Encoding.Agreement
import CodeNav.Proofs.Encoding.SplitEdges
import CodeNav.Proofs.Success

namespace CodeNav

namespace Element

/-! ### One target each -/

/-- An edge that names one vertex has one target, and an edge that lists items lists some. -/
structure SingleTargets (elements : List Element) : Prop where
  named : ∀ e ∈ edges elements, ∀ label, EdgeLabel.ofName? e.label = some label →
    label.namesOne → e.targets.length = 1
  listed : ∀ e ∈ edges elements, e.listsItems → e.targets ≠ []

variable {elements : List Element}

theorem SingleTargets.linksAlike (single : SingleTargets elements) (id : VertexId) :
    LinksAlike elements id := fun _ listed =>
  (oneTarget_edgesFrom single.named (Edge.namesOne_of_mem_linkLabels listed) id).named?

theorem SingleTargets.packageAlike (single : SingleTargets elements) (id : VertexId) :
    PackageAlike elements id :=
  (oneTarget_edgesFrom single.named rfl id).package?

theorem SingleTargets.listsItems_splitUp (single : SingleTargets elements) (id : VertexId) :
    listsItems (splitUp elements) id = listsItems elements id := by
  rw [listsItems, listsItems, edgesFrom_splitUp, List.any_flatMap, Bool.eq_iff_iff]
  simp only [List.any_eq_true]
  constructor
  · rintro ⟨e, member, part, inParts, lists⟩
    obtain ⟨_, _, rfl⟩ := Edge.mem_split.mp inParts
    exact ⟨e, member, lists⟩
  · rintro ⟨e, member, lists⟩
    obtain ⟨target, among⟩ := List.exists_mem_of_ne_nil _
      (single.listed e (List.mem_of_mem_filter member) lists)
    exact ⟨e, member, _, Edge.mem_split.mpr ⟨target, among, rfl⟩, lists⟩

theorem SingleTargets.nearest_splitUp (single : SingleTargets elements) (kind : RowKind) :
    Nearest (splitUp elements) kind = Nearest elements kind := by
  have links : linksOf (splitUp elements) = linksOf elements := by
    funext id
    exact (linksOf_splitUp_iff id).mpr (single.linksAlike id)
  have lists : listsItems (splitUp elements) = listsItems elements := by
    funext id
    exact single.listsItems_splitUp id
  unfold Nearest next? resultAt
  rw [links, lists]

end Element

/-! ### Graphs -/

namespace Dump

open Element

section

variable {elements : List Element} {dump split : Dump} (accepted : ofElements elements = .ok dump)

/-- Elements split up are accepted as the elements are, since their vertices are the same. -/
theorem exists_ofElements_splitUp (accepted : ofElements elements = .ok dump) :
    ∃ split, ofElements (splitUp elements) = .ok split := by
  rw [ofElements_isOk_iff, vertices_splitUp]
  exact (ofElements_isOk_iff elements).mp ⟨dump, accepted⟩

/-- A moniker vertex is what holds a moniker. -/
theorem exists_moniker_iff (accepted : ofElements elements = .ok dump) (id : VertexId) :
    (contentsOf elements id).filterMap VertexContent.moniker? ≠ [] ↔
      hasVertex elements .moniker id := by
  rw [← any_label?_contentsOf accepted, List.any_eq_true, ne_eq, List.filterMap_eq_nil_iff,
    not_forall]
  have isMoniker (content : VertexContent) :
      content.moniker? ≠ none ↔ content.label? = some .moniker := by
    cases content <;> simp [VertexContent.moniker?, VertexContent.label?]
  simp [← isMoniker]

variable (splitAccepted : ofElements (splitUp elements) = .ok split)
include accepted splitAccepted

/-- Splitting edges up changes links and packages alone. -/
theorem relinked_splitUp : dump.Relinked split where
  vertices id := by
    rw [vertexFacts_ofElements accepted, vertexFacts_ofElements splitAccepted, vertices_splitUp]
  contents id := by
    rw [contents_ofElements accepted, contents_ofElements splitAccepted, edgesFrom_splitUp,
      Edge.targetsOf_split]
  items id := by
    rw [items_ofElements accepted, items_ofElements splitAccepted]
    exact (itemsOf_splitUp id).symm
  places id := by
    rw [rangeDocuments_ofElements accepted, rangeDocuments_ofElements splitAccepted,
      rangeDocument?_splitUp]
  monikers id := by
    rw [nodeOf_ofElements accepted, nodeOf_ofElements splitAccepted, monikers_linksOf_splitUp]

theorem nodeOf_splitUp_iff (id : VertexId) :
    dump.nodeOf id = split.nodeOf id ↔ LinksAlike elements id := by
  rw [nodeOf_ofElements accepted, nodeOf_ofElements splitAccepted, eq_comm, linksOf_splitUp_iff]

theorem moniker?_splitUp_iff (id : VertexId) :
    dump.moniker? id = split.moniker? id ↔
      (hasVertex elements .moniker id → PackageAlike elements id) := by
  rw [moniker?_ofElements accepted, moniker?_ofElements splitAccepted, eq_comm,
    Element.moniker?_splitUp_iff, ← exists_moniker_iff accepted, ← or_iff_not_imp_left]

/-- A document is cut out alike exactly if its nodes link on alike and their monikers belong to the
same packages. -/
theorem document?_splitUp_iff (document : VertexId) :
    split.document? document = dump.document? document ↔
      ∀ cut, dump.document? document = some cut →
        ∀ id, id ∈ rangesIn elements document ∨ cut.resultSets.contains id →
          LinksAlike elements id ∧ ∀ named ∈ (linksOf elements id).monikers,
            hasVertex elements .moniker named → PackageAlike elements named := by
  have relinked := relinked_splitUp accepted splitAccepted
  rw [document?_ofElements accepted, document?_ofElements splitAccepted, hasVertex_splitUp]
  by_cases isDocument : hasVertex elements .document document
  · simp only [isDocument, if_true, Option.some.injEq, forall_eq']
    rw [eq_comm, relinked.documentOf_eq_iff]
    simp only [IsNode, mem_map_localRanges accepted, nodeOf_splitUp_iff accepted splitAccepted,
      moniker?_splitUp_iff accepted splitAccepted]
    simp only [nodeOf_ofElements accepted]
  · simp [isDocument]

theorem monikersWithPackages_splitUp_iff :
    split.monikersWithPackages = dump.monikersWithPackages ↔
      ∀ id, hasVertex elements .moniker id → PackageAlike elements id := by
  rw [eq_comm, (relinked_splitUp accepted splitAccepted).monikersWithPackages_eq_iff]
  simp only [moniker?_splitUp_iff accepted splitAccepted]

/-- The rows are the same if the nearest results of nodes with monikers are. -/
theorem rows_splitUp {kind : RowKind}
    (nearest : ∀ id result, (linksOf elements id).monikers ≠ [] →
      (Nearest (splitUp elements) kind id result ↔ Nearest elements kind id result)) :
    split.rows kind = dump.rows kind := by
  refine ((relinked_splitUp accepted splitAccepted).rows_eq_of_chains ?_).symm
  intro id attached
  rw [nodeOf_ofElements accepted] at attached
  apply Option.ext
  intro items
  rw [chainItems?_eq_some_iff accepted, chainItems?_eq_some_iff splitAccepted]
  simp only [itemsOf_splitUp, nearest id _ attached]

end

/-- Splitting edges up, as tables do, keeps a document exactly if its nodes name the last of their
targets and their monikers the last of their packages, and rows if the nearest results are kept.
It keeps everything if each edge that names one vertex has one target and each that lists items has
some. -/
theorem splitUp_agrees_iff {elements : List Element} {dump : Dump}
    (accepted : ofElements elements = .ok dump) :
    ∃ split, ofElements (splitUp elements) = .ok split ∧
      edges (splitUp elements) =
        (GraphTables.ofDump elements dump).edges.map GraphTables.readEdge ∧
      (∀ document, split.document? document = dump.document? document ↔
        ∀ cut, dump.document? document = some cut →
          ∀ id, id ∈ rangesIn elements document ∨ cut.resultSets.contains id →
            LinksAlike elements id ∧ ∀ named ∈ (linksOf elements id).monikers,
              hasVertex elements .moniker named → PackageAlike elements named) ∧
      (split.monikersWithPackages = dump.monikersWithPackages ↔
        ∀ id, hasVertex elements .moniker id → PackageAlike elements id) ∧
      (∀ kind, (∀ id result, (linksOf elements id).monikers ≠ [] →
          (Nearest (splitUp elements) kind id result ↔ Nearest elements kind id result)) →
        split.rows kind = dump.rows kind) ∧
      (SingleTargets elements →
        (∀ document, split.document? document = dump.document? document) ∧
        split.monikersWithPackages = dump.monikersWithPackages ∧
        ∀ kind, split.rows kind = dump.rows kind) := by
  obtain ⟨split, splitAccepted⟩ := exists_ofElements_splitUp accepted
  have documents := document?_splitUp_iff accepted splitAccepted
  have monikers := monikersWithPackages_splitUp_iff accepted splitAccepted
  refine ⟨split, splitAccepted, edges_splitUp_eq_stored elements dump, documents, monikers,
    fun kind => rows_splitUp accepted splitAccepted, fun single => ⟨?_, ?_, ?_⟩⟩
  · intro document
    exact (documents document).mpr fun _ _ id _ =>
      ⟨single.linksAlike id, fun named _ _ => single.packageAlike named⟩
  · exact monikers.mpr fun id _ => single.packageAlike id
  · intro kind
    apply rows_splitUp accepted splitAccepted
    intro id result _
    rw [single.nearest_splitUp]

theorem splitUp_agrees_sample :
    ∃ dump split, ofElements Source.sample = .ok dump ∧
      ofElements (splitUp Source.sample) = .ok split ∧
      (∀ document, split.document? document = dump.document? document) ∧
      ∀ kind, split.rows kind = dump.rows kind := by
  have readable : (ofElements Source.sample).isOk := by decide +kernel
  obtain ⟨dump, accepted⟩ := Success.isOk_iff.mp readable
  have targets : ∀ e ∈ edges Source.sample, e.targets ≠ [] ∧
      (e.targets.length = 1 ∨ EdgeLabel.ofName? e.label = some .item) := by decide +kernel
  have single : SingleTargets Source.sample := by
    refine ⟨?_, fun e member _ => (targets e member).1⟩
    intro e member label known names
    rcases (targets e member).2 with one | isItem
    · exact one
    · rw [isItem] at known
      cases known
      cases names
  obtain ⟨split, splitAccepted, _, _, _, _, agree⟩ := splitUp_agrees_iff accepted
  obtain ⟨documents, _, rows⟩ := agree single
  exact ⟨dump, split, accepted, splitAccepted, documents, rows⟩

/-- A range that one edge lets inherit from two result sets. -/
def twoTargetsSample : List Element :=
  [.vertex ⟨⟨"1"⟩, "document", .record [("uri", .string "file:///a.ts")]⟩,
   .vertex ⟨⟨"2"⟩, "range",
     .record [("end", Source.samplePosition 1 7), ("start", Source.samplePosition 1 4)]⟩,
   .vertex ⟨⟨"3"⟩, "resultSet", .record []⟩,
   .vertex ⟨⟨"4"⟩, "resultSet", .record []⟩,
   .edge ⟨"contains", ⟨"1"⟩, none, [⟨"2"⟩], none, none⟩,
   .edge ⟨"next", ⟨"2"⟩, none, [⟨"3"⟩, ⟨"4"⟩], none, none⟩]

/-- Splitting edges up may change a document: as a whole an edge names its first target. -/
theorem splitUp_may_differ :
    ¬ ∀ (elements : List Element) (dump split : Dump),
      ofElements elements = .ok dump → ofElements (splitUp elements) = .ok split →
      (∀ document, split.document? document = dump.document? document) ∧
        split.monikersWithPackages = dump.monikersWithPackages ∧
        ∀ kind, split.rows kind = dump.rows kind := by
  intro agree
  have whole : (ofElements twoTargetsSample).toOption.map (fun dump =>
      (dump.document? ⟨"1"⟩).map fun cut => cut.orderedRanges.map (·.node.next)) =
      some (some [some ⟨"3"⟩]) := by decide +kernel
  have parts : (ofElements (splitUp twoTargetsSample)).toOption.map (fun dump =>
      (dump.document? ⟨"1"⟩).map fun cut => cut.orderedRanges.map (·.node.next)) =
      some (some [some ⟨"4"⟩]) := by decide +kernel
  obtain ⟨dump, accepted, whole⟩ := Success.map_toOption_eq_some.mp whole
  obtain ⟨split, splitAccepted, parts⟩ := Success.map_toOption_eq_some.mp parts
  rw [(agree twoTargetsSample dump split accepted splitAccepted).1 ⟨"1"⟩, whole] at parts
  exact absurd parts (by decide)

end Dump

end CodeNav
