/-
Module: CodeNav.Proofs.Dump.Contents
Purpose: What the document that is cut out of a dump holds, and that it holds nothing else.
Main exports:
  Element.Inherited, Element.NodeIn, Dump.CutOf, Dump.document?_exact
-/
import CodeNav.Proofs.Dump.Settling
import CodeNav.Proofs.Dump.Worklist
import CodeNav.Proofs.Position

namespace CodeNav

namespace Element

variable (elements : List Element) (document : VertexId)

/-- The result sets that the ranges of a document inherit from, directly or through other result
sets. -/
def Inherited (id : VertexId) : Prop :=
  ∃ range ∈ rangesIn elements document,
    Relation.TransGen (fun a b => successor? elements a = some b) range id

/-- The vertices that count for a document: its ranges and what they inherit from. -/
def NodeIn (id : VertexId) : Prop :=
  id ∈ rangesIn elements document ∨ Inherited elements document id

/-- What the entry of a range says. -/
def IsEntry (id : VertexId) (entry : RangeEntry) : Prop :=
  range? elements id = some entry.range ∧ entry.node = linksOf elements id

end Element

namespace Dump

open Element

/-- What a document holds that is cut out of a dump. -/
structure CutOf (elements : List Element) (document : VertexId) (cut : Document) : Prop where
  /-- Entries are ordered by start and end. -/
  sorted : cut.orderedRanges.Pairwise fun a b => (a.range.order b.range).isLE = true
  /-- There is an entry for each time that the document is said to contain a range. -/
  occurrences : ∃ ids, ids.Perm (rangesIn elements document) ∧
    List.Forall₂ (IsEntry elements) ids cut.orderedRanges
  /-- The ranges with an index are those that the document contains. -/
  keys : ∀ id, cut.ranges.contains id = true ↔ id ∈ rangesIn elements document
  /-- The index of a range is that of an entry of its own. -/
  indexed : ∀ id ∈ rangesIn elements document, ∃ index entry,
    cut.ranges[id]? = some (UInt64.ofNat index) ∧ cut.orderedRanges[index]? = some entry ∧
      IsEntry elements id entry
  /-- As far as indices go, the entry is found by the identifier of the range. -/
  resolved : cut.orderedRanges.length ≤ capacity 64 → ∀ id ∈ rangesIn elements document,
    ∃ entry, cut.rangeById? id = some entry ∧ IsEntry elements id entry
  resultSets : ∀ id node, cut.resultSets[id]? = some node ↔
    Inherited elements document id ∧ node = linksOf elements id
  definitionResults : ∀ id result, cut.definitionResults[id]? = some result ↔
    (∃ node, NodeIn elements document node ∧
      (linksOf elements node).definitionResult = some id) ∧
    definitionOf elements document id = some result
  referenceResults : ∀ id result, cut.referenceResults[id]? = some result ↔
    (∃ node, NodeIn elements document node ∧
      (linksOf elements node).referenceResult = some id) ∧
    referenceOf elements document id = some result
  hovers : ∀ id shown, cut.hovers[id]? = some shown ↔
    (∃ node, NodeIn elements document node ∧ (linksOf elements node).hoverResult = some id) ∧
    Element.hover? elements id = some shown
  monikers : ∀ id moniker, cut.monikers[id]? = some moniker ↔
    (∃ node, NodeIn elements document node ∧ id ∈ (linksOf elements node).monikers) ∧
    Element.moniker? elements id = some moniker
  packages : ∀ id package, cut.packages[id]? = some package ↔
    (∃ (key : VertexId) (moniker : Moniker),
      cut.monikers[key]? = some moniker ∧ moniker.package = some id) ∧
    Element.package? elements id = some package
  /-- A definition result lists something, and nothing that is not there. -/
  definitionsResolve : ∀ (id : VertexId) (result : DefinitionResult),
    cut.definitionResults[id]? = some result →
    result.values ≠ [] ∧ ∀ value ∈ result.values, (cut.rangeById? value).isSome = true
  /-- A reference result lists something, and nothing that is not there. -/
  referencesResolve : ∀ (id : VertexId) (result : ReferenceResult),
    cut.referenceResults[id]? = some result →
    result.definitions ++ result.references ≠ [] ∧
      ∀ value ∈ result.definitions ++ result.references, (cut.rangeById? value).isSome = true

/-! ### Results -/

/-- What is kept of a definition result is not empty, and lies in the document. -/
theorem mem_definitionOf {elements : List Element} {document id : VertexId}
    {result : DefinitionResult}
    (kept : definitionOf elements document id = some result) :
    result.values ≠ [] ∧ ∀ value ∈ result.values, value ∈ rangesIn elements document := by
  simp only [definitionOf] at kept
  split at kept
  · cases kept
  · rename_i present
    cases kept
    refine ⟨(not_or.mp present).2, fun value listed => ?_⟩
    simpa using (List.mem_filter.mp listed).2

/-- What is kept of a reference result is not empty, and lies in the document. -/
theorem mem_referenceOf {elements : List Element} {document id : VertexId}
    {result : ReferenceResult}
    (kept : referenceOf elements document id = some result) :
    result.definitions ++ result.references ≠ [] ∧
      ∀ value ∈ result.definitions ++ result.references, value ∈ rangesIn elements document := by
  simp only [referenceOf] at kept
  split at kept
  · cases kept
  · rename_i present
    cases kept
    refine ⟨?_, fun value listed => ?_⟩
    · rw [ne_eq, List.append_eq_nil_iff]
      exact (not_or.mp present).2
    · simp only [List.mem_append] at listed
      rcases listed with listed | listed | listed <;> simpa using (List.mem_filter.mp listed).2

section

variable {dump : Dump} {document : VertexId}

/-! ### Ranges -/

theorem pairwise_localRanges (dump : Dump) (document : VertexId) :
    (dump.localRanges document).Pairwise fun a b => (a.2.order b.2).isLE = true := by
  apply List.pairwise_mergeSort
  · intro a b c first second
    rw [Range.isLE_order_iff] at first second ⊢
    omega
  · intro a b
    rw [Bool.or_eq_true, Range.isLE_order_iff, Range.isLE_order_iff]
    omega

theorem contains_indexTable {ids : List VertexId} {id : VertexId} :
    (indexTable ids).contains id = true ↔ id ∈ ids := by
  constructor
  · intro present
    rw [Std.ExtTreeMap.contains_eq_isSome_getElem?, indexTable,
      getElem?_foldl_indexTable] at present
    simp only [Std.ExtTreeMap.getElem?_empty, Option.or_none, Option.isSome_map] at present
    obtain ⟨entry, last⟩ := Option.isSome_iff_exists.mp present
    obtain ⟨listed, same⟩ := List.mem_filter.mp (List.mem_of_getLast? last)
    rw [List.mem_zipIdx_iff_getElem?] at listed
    simp only [decide_eq_true_eq] at same
    exact same ▸ List.mem_of_getElem? listed
  · intro listed
    obtain ⟨index, -, indexed⟩ := exists_getElem?_indexTable listed
    rw [Std.ExtTreeMap.contains_eq_isSome_getElem?, indexed]
    rfl

/-- An index that is stored leads to an entry, even if it does not fit. -/
theorem isSome_rangeById? {id : VertexId}
    (listed : id ∈ (dump.localRanges document).map (·.1)) :
    ((dump.documentOf document).rangeById? id).isSome = true := by
  obtain ⟨index, place, indexed⟩ := exists_getElem?_indexTable listed
  have inside : index < (dump.localRanges document).length := by
    simpa using (List.getElem?_eq_some_iff.mp place).1
  have wrapped : (UInt64.ofNat index).toNat ≤ index := by
    rw [UInt64.toNat_ofNat']
    exact Nat.mod_le _ _
  have stored : (dump.documentOf document).ranges[id]? = some (UInt64.ofNat index) := indexed
  unfold Document.rangeById?
  rw [stored]
  change (((dump.localRanges document).map _)[(UInt64.ofNat index).toNat]?).isSome = true
  rw [List.getElem?_eq_getElem (by rw [List.length_map]; omega)]
  rfl

variable {elements : List Element} (accepted : ofElements elements = .ok dump)
include accepted

theorem perm_map_localRanges (document : VertexId) :
    ((dump.localRanges document).map (·.1)).Perm (rangesIn elements document) := by
  have read (id : VertexId) : (dump.ranges[id]?.map fun range => (id, range)).map (·.1) =
      if hasVertex elements .range id then some id else none := by
    rw [← ranges_contains accepted]
    cases dump.ranges[id]? <;> rfl
  refine ((List.mergeSort_perm _ _).map _).trans (.of_eq ?_)
  rw [List.map_filterMap, contents_ofElements accepted, rangesIn, ← List.filterMap_eq_filter]
  apply List.filterMap_congr
  intro id _
  rw [read]
  rfl

theorem isEntry_of_mem {entry : VertexId × Range} (listed : entry ∈ dump.localRanges document) :
    IsEntry elements entry.1 ⟨entry.2, dump.nodeOf entry.1⟩ := by
  have stored := (mem_localRanges listed).2
  rw [ranges_ofElements accepted] at stored
  exact ⟨stored, nodeOf_ofElements accepted entry.1⟩

/-! ### Nodes -/

theorem setAfter?_ofElements (id : VertexId) : dump.setAfter? id = successor? elements id := by
  rw [setAfter?, successor?, nodeOf_ofElements accepted]
  congr 1
  funext next
  exact resultSets_ofElements accepted next

theorem inherits_iff (document id : VertexId) :
    dump.Inherits ((dump.localRanges document).map (·.1)) id ↔
      Inherited elements document id := by
  simp only [Inherits, Inherited, setAfter?_ofElements accepted, mem_map_localRanges accepted]

theorem getElem?_resultSets_iff (document id : VertexId) (node : ChainNode) :
    (dump.documentOf document).resultSets[id]? = some node ↔
      Inherited elements document id ∧ node = linksOf elements id := by
  rw [← inherits_iff accepted, ← nodeOf_ofElements accepted]
  exact Agenda.getElem?_visited_iff (dump.run_reachable _) id node

theorem mem_nodesOf_iff (document : VertexId) (node : ChainNode) :
    node ∈ dump.nodesOf document ↔
      ∃ id, NodeIn elements document id ∧ node = linksOf elements id := by
  rw [nodesOf, List.mem_append, List.mem_map, Table.mem_values]
  simp only [mem_map_localRanges accepted, getElem?_resultSets_iff accepted,
    nodeOf_ofElements accepted, NodeIn]
  grind

/-- A table of what nodes name holds just that. -/
theorem getElem?_tableOf_nodesOf {α : Type} (pick : ChainNode → List VertexId)
    (find : VertexId → Option α) (document id : VertexId) (value : α) :
    (tableOf find ((dump.nodesOf document).flatMap pick))[id]? = some value ↔
      (∃ node, NodeIn elements document node ∧ id ∈ pick (linksOf elements node)) ∧
        find id = some value := by
  have named : id ∈ (dump.nodesOf document).flatMap pick ↔
      ∃ node, NodeIn elements document node ∧ id ∈ pick (linksOf elements node) := by
    rw [List.mem_flatMap]
    simp only [mem_nodesOf_iff accepted]
    grind
  rw [getElem?_tableOf, ← named]
  by_cases listed : id ∈ (dump.nodesOf document).flatMap pick <;> simp [listed]

theorem definitionIn?_eq_definitionOf (document id : VertexId) :
    dump.definitionIn? ((dump.localRanges document).map (·.1)) id =
      definitionOf elements document id := by
  have items := congrArg Items.values (items_ofElements accepted id)
  simp only [definitionIn?, inDocument_eq_filter accepted, items,
    definitionResults_ofElements accepted]
  simp [definitionOf, itemsIn, EdgeFacts.ofEdges]

theorem referenceIn?_eq_referenceOf (document id : VertexId) :
    dump.referenceIn? ((dump.localRanges document).map (·.1)) id =
      referenceOf elements document id := by
  have items := items_ofElements accepted id
  simp only [referenceIn?, inDocument_eq_filter accepted, items,
    referenceResults_ofElements accepted]
  simp [referenceOf, itemsIn, EdgeFacts.ofEdges]

/-- A table of what nodes name at most once holds just that. -/
theorem getElem?_tableOf_named {α : Type} (pick : ChainNode → Option VertexId)
    (find : VertexId → Option α) (document id : VertexId) (value : α) :
    (tableOf find ((dump.nodesOf document).filterMap pick))[id]? = some value ↔
      (∃ node, NodeIn elements document node ∧ pick (linksOf elements node) = some id) ∧
        find id = some value := by
  have named := getElem?_tableOf_nodesOf accepted (fun node => (pick node).toList) find document id
    value
  rw [← List.filterMap_eq_flatMap_toList] at named
  simpa only [Option.mem_toList, Option.mem_def] using named

/-! ### Documents -/

theorem exists_index {document id : VertexId} (contained : id ∈ rangesIn elements document) :
    ∃ index entry, (dump.documentOf document).ranges[id]? = some (UInt64.ofNat index) ∧
      (dump.documentOf document).orderedRanges[index]? = some entry ∧
      IsEntry elements id entry := by
  obtain ⟨index, place, indexed⟩ :=
    exists_getElem?_indexTable ((mem_map_localRanges accepted).mpr contained)
  obtain ⟨entry, found, rfl⟩ := Option.map_eq_some_iff.mp (List.getElem?_map ▸ place)
  refine ⟨index, _, indexed, ?_, isEntry_of_mem accepted (List.mem_of_getElem? found)⟩
  exact List.getElem?_map.trans (congrArg (Option.map _) found)

theorem getElem?_definitionResults_iff (document id : VertexId) (result : DefinitionResult) :
    (dump.documentOf document).definitionResults[id]? = some result ↔
      (∃ node, NodeIn elements document node ∧
        (linksOf elements node).definitionResult = some id) ∧
      definitionOf elements document id = some result := by
  rw [← definitionIn?_eq_definitionOf accepted]
  exact getElem?_tableOf_named accepted (·.definitionResult) _ document id result

theorem getElem?_referenceResults_iff (document id : VertexId) (result : ReferenceResult) :
    (dump.documentOf document).referenceResults[id]? = some result ↔
      (∃ node, NodeIn elements document node ∧
        (linksOf elements node).referenceResult = some id) ∧
      referenceOf elements document id = some result := by
  rw [← referenceIn?_eq_referenceOf accepted]
  exact getElem?_tableOf_named accepted (·.referenceResult) _ document id result

theorem getElem?_packages_iff (document id : VertexId) (package : Package) :
    (dump.documentOf document).packages[id]? = some package ↔
      (∃ (key : VertexId) (moniker : Moniker),
        (dump.documentOf document).monikers[key]? = some moniker ∧ moniker.package = some id) ∧
      Element.package? elements id = some package := by
  have named : id ∈ (dump.documentOf document).monikers.values.filterMap (·.package) ↔
      ∃ (key : VertexId) (moniker : Moniker),
        (dump.documentOf document).monikers[key]? = some moniker ∧ moniker.package = some id := by
    rw [List.mem_filterMap]
    simp only [Table.mem_values]
    grind
  have table : (dump.documentOf document).packages[id]? =
      if id ∈ (dump.documentOf document).monikers.values.filterMap (·.package) then
        dump.packages[id]? else none := getElem?_tableOf _ _ id
  rw [table, ← named, ← packages_ofElements accepted]
  by_cases listed : id ∈ (dump.documentOf document).monikers.values.filterMap (·.package)
  · simp only [listed, if_true, true_and]
  · simp only [listed, if_false, false_and, reduceCtorEq]

theorem cutOf_documentOf (document : VertexId) :
    CutOf elements document (dump.documentOf document) where
  sorted := by
    change List.Pairwise _ ((dump.localRanges document).map _)
    rw [List.pairwise_map]
    exact pairwise_localRanges dump document
  occurrences := by
    refine ⟨_, perm_map_localRanges accepted document, ?_⟩
    change List.Forall₂ _ _ ((dump.localRanges document).map _)
    rw [List.forall₂_map_left_iff, List.forall₂_map_right_iff, List.forall₂_same]
    exact fun entry listed => isEntry_of_mem accepted listed
  keys id := contains_indexTable.trans (mem_map_localRanges accepted)
  indexed id contained := exists_index accepted contained
  resolved fits id contained := by
    obtain ⟨index, entry, indexed, place, isEntry⟩ := exists_index accepted contained
    have inside := (List.getElem?_eq_some_iff.mp place).1
    have whole : (UInt64.ofNat index).toNat = index :=
      UInt64.toNat_ofNat_of_lt' (Nat.lt_of_lt_of_le inside fits)
    refine ⟨entry, ?_, isEntry⟩
    rw [Document.rangeById?, indexed, Option.bind_eq_bind, Option.bind_some, whole, place]
  resultSets id node := getElem?_resultSets_iff accepted document id node
  definitionResults id result := getElem?_definitionResults_iff accepted document id result
  referenceResults id result := getElem?_referenceResults_iff accepted document id result
  hovers id shown := by
    rw [← hovers_ofElements accepted]
    exact getElem?_tableOf_named accepted (·.hoverResult) _ document id shown
  monikers id moniker := by
    rw [← moniker?_ofElements accepted]
    exact getElem?_tableOf_nodesOf accepted (·.monikers) _ document id moniker
  packages id package := getElem?_packages_iff accepted document id package
  definitionsResolve id result stored := by
    have ⟨filled, inside⟩ :=
      mem_definitionOf ((getElem?_definitionResults_iff accepted document id result).mp stored).2
    exact ⟨filled, fun value listed =>
      isSome_rangeById? ((mem_map_localRanges accepted).mpr (inside value listed))⟩
  referencesResolve id result stored := by
    have ⟨filled, inside⟩ :=
      mem_referenceOf ((getElem?_referenceResults_iff accepted document id result).mp stored).2
    exact ⟨filled, fun value listed =>
      isSome_rangeById? ((mem_map_localRanges accepted).mpr (inside value listed))⟩

/-- Every document of a dump is cut out, and holds exactly what `CutOf` says.  The search for its
result sets ends in whichever order pending ones are looked at, and always with the same. -/
theorem document?_exact (document : VertexId) :
    ((dump.document? document).isSome = true ↔
      hasVertex elements .document document = true) ∧
    (WellFounded fun after before => Agenda.Step dump before after) ∧
    ∀ cut, dump.document? document = some cut →
      CutOf elements document cut ∧
      ∀ last, Agenda.Run dump ⟨cut.orderedRanges.filterMap (·.node.next), ∅⟩ last →
        (∀ after, ¬Agenda.Step dump last after) → last = ⟨[], cut.resultSets⟩ := by
  refine ⟨?_, Agenda.wellFounded_step dump, fun cut known => ?_⟩
  · rw [document?_ofElements accepted]
    split <;> simp_all
  · obtain ⟨-, rfl⟩ : hasVertex elements .document document = true ∧
        dump.documentOf document = cut := by
      simpa [document?_ofElements accepted] using known
    refine ⟨cutOf_documentOf accepted document, fun last run final => ?_⟩
    have started :
        (⟨(dump.documentOf document).orderedRanges.filterMap (·.node.next), ∅⟩ : Agenda) =
          .start dump ((dump.localRanges document).map (·.1)) := by
      simp [Agenda.start, documentOf, List.filterMap_map, Function.comp_def]
    rw [started] at run
    have visited := Agenda.visited_eq_reachable run final
    have pending := Agenda.pending_eq_nil final
    obtain ⟨_, _⟩ := last
    simp_all [documentOf]

end

/-- A document contains one range twice, and a range before it in the text.  Two result sets inherit
from one another. -/
def contentsSample : List Element :=
  let position (line character : Int) : Json.Value :=
    .record [("line", .number (.integer line)), ("character", .number (.integer character))]
  let range (line : Int) : Json.Value :=
    .record [("start", position line 4), ("end", position line 7)]
  [.vertex ⟨⟨"1"⟩, "document", .record [("uri", .string "file:///a.ts")]⟩,
   .vertex ⟨⟨"2"⟩, "range", range 5⟩,
   .vertex ⟨⟨"3"⟩, "range", range 2⟩,
   .vertex ⟨⟨"4"⟩, "resultSet", .record []⟩,
   .vertex ⟨⟨"5"⟩, "resultSet", .record []⟩,
   .vertex ⟨⟨"6"⟩, "range", range 9⟩,
   .edge ⟨"contains", ⟨"1"⟩, none, [⟨"2"⟩, ⟨"3"⟩, ⟨"2"⟩], none, none⟩,
   .edge ⟨"next", ⟨"2"⟩, some ⟨"4"⟩, [], none, none⟩,
   .edge ⟨"next", ⟨"4"⟩, some ⟨"5"⟩, [], none, none⟩,
   .edge ⟨"next", ⟨"5"⟩, some ⟨"4"⟩, [], none, none⟩]

theorem document?_exact_sample :
    ∃ dump cut, ofElements contentsSample = .ok dump ∧ dump.document? ⟨"1"⟩ = some cut ∧
      cut.orderedRanges.length = 3 ∧ cut.ranges.contains ⟨"6"⟩ = false ∧
      cut.resultSets[(⟨"5"⟩ : VertexId)]? = some (linksOf contentsSample ⟨"5"⟩) ∧
      ∀ last, Agenda.Run dump ⟨cut.orderedRanges.filterMap (·.node.next), ∅⟩ last →
        (∀ after, ¬Agenda.Step dump last after) → last.visited = cut.resultSets := by
  have readable : (ofElements contentsSample).isOk := by decide +kernel
  obtain ⟨dump, accepted⟩ := Success.isOk_iff.mp readable
  have ⟨isSome, _, cuts⟩ := document?_exact accepted ⟨"1"⟩
  obtain ⟨cut, known⟩ := Option.isSome_iff_exists.mp (isSome.mpr (by decide +kernel))
  have ⟨exact, ends⟩ := cuts cut known
  refine ⟨dump, cut, accepted, known, ?_, ?_, ?_, fun last run final => ?_⟩
  · obtain ⟨ids, perm, entries⟩ := exact.occurrences
    rw [← entries.length_eq, perm.length_eq]
    decide +kernel
  · rw [Bool.eq_false_iff, ne_eq, exact.keys]
    decide +kernel
  · apply (exact.resultSets _ _).mpr
    refine ⟨⟨⟨"2"⟩, by decide +kernel, ?_⟩, rfl⟩
    exact .tail (.single (b := ⟨"4"⟩) (by decide +kernel)) (by decide +kernel)
  · rw [ends last run final]

/-- The only range of a document leads to a result set through a range of no document.  Its
definition result lists it as a definition, its reference result as a result of its own. -/
def strayLinksSample : List Element :=
  let position (line character : Int) : Json.Value :=
    .record [("line", .number (.integer line)), ("character", .number (.integer character))]
  let range (line : Int) : Json.Value :=
    .record [("start", position line 0), ("end", position line 4)]
  [.vertex ⟨⟨"1"⟩, "document", .record [("uri", .string "file:///a.ts")]⟩,
   .vertex ⟨⟨"2"⟩, "range", range 0⟩,
   .vertex ⟨⟨"3"⟩, "range", range 1⟩,
   .vertex ⟨⟨"4"⟩, "resultSet", .record []⟩,
   .vertex ⟨⟨"5"⟩, "definitionResult", .record []⟩,
   .vertex ⟨⟨"6"⟩, "referenceResult", .record []⟩,
   .edge ⟨"contains", ⟨"1"⟩, none, [⟨"2"⟩], none, none⟩,
   .edge ⟨"next", ⟨"2"⟩, some ⟨"3"⟩, [], none, none⟩,
   .edge ⟨"next", ⟨"3"⟩, some ⟨"4"⟩, [], none, none⟩,
   .edge ⟨"textDocument/definition", ⟨"2"⟩, some ⟨"5"⟩, [], none, none⟩,
   .edge ⟨"item", ⟨"5"⟩, none, [⟨"2"⟩], none, some "definitions"⟩,
   .edge ⟨"textDocument/references", ⟨"2"⟩, some ⟨"6"⟩, [], none, none⟩,
   .edge ⟨"item", ⟨"6"⟩, none, [⟨"2"⟩], none, some "referenceResults"⟩]

/-- Not all that a document's ranges lead to is in the document: a link to something other than a
result set is not followed, and not every item keeps a result. -/
theorem contents_may_be_fewer :
    (¬∀ (elements : List Element) (dump : Dump) (document : VertexId) (cut : Document),
      ofElements elements = .ok dump → dump.document? document = some cut →
      ∀ id, cut.resultSets.contains id = true ↔
        (∃ range ∈ rangesIn elements document,
          Relation.TransGen (fun a b => (linksOf elements a).next = some b) range id) ∧
        hasVertex elements .resultSet id = true) ∧
    (¬∀ (elements : List Element) (dump : Dump) (document : VertexId) (cut : Document),
      ofElements elements = .ok dump → dump.document? document = some cut →
      ∀ id, cut.definitionResults.contains id = true ↔
        (∃ node, (node ∈ rangesIn elements document ∨ cut.resultSets.contains node = true) ∧
          (linksOf elements node).definitionResult = some id) ∧
        hasVertex elements .definitionResult id = true ∧
        itemsIn elements document id (fun _ => true) ≠ []) ∧
    ¬∀ (elements : List Element) (dump : Dump) (document : VertexId) (cut : Document),
      ofElements elements = .ok dump → dump.document? document = some cut →
      ∀ id, cut.referenceResults.contains id = true ↔
        (∃ node, (node ∈ rangesIn elements document ∨ cut.resultSets.contains node = true) ∧
          (linksOf elements node).referenceResult = some id) ∧
        hasVertex elements .referenceResult id = true ∧
        itemsIn elements document id (fun _ => true) ≠ [] := by
  have held : (ofElements strayLinksSample).toOption.map (fun dump =>
      (dump.document? ⟨"1"⟩).map fun cut => (cut.resultSets.contains ⟨"4"⟩,
        cut.definitionResults.contains ⟨"5"⟩, cut.referenceResults.contains ⟨"6"⟩)) =
      some (some (false, false, false)) := by decide +kernel
  obtain ⟨dump, accepted, held⟩ := Success.map_toOption_eq_some.mp held
  obtain ⟨cut, known, held⟩ := Option.map_eq_some_iff.mp held
  simp only [Prod.mk.injEq] at held
  obtain ⟨noSet, noDefinition, noReference⟩ := held
  have contained : (⟨"2"⟩ : VertexId) ∈ rangesIn strayLinksSample ⟨"1"⟩ := by decide +kernel
  refine ⟨fun all => ?_, fun all => ?_, fun all => ?_⟩
  · have present := (all strayLinksSample dump ⟨"1"⟩ cut accepted known ⟨"4"⟩).mpr
      ⟨⟨⟨"2"⟩, contained,
        .tail (.single (b := ⟨"3"⟩) (by decide +kernel)) (by decide +kernel)⟩, by decide +kernel⟩
    rw [noSet] at present
    cases present
  · have present := (all strayLinksSample dump ⟨"1"⟩ cut accepted known ⟨"5"⟩).mpr
      ⟨⟨⟨"2"⟩, .inl contained, by decide +kernel⟩, by decide +kernel, by decide +kernel⟩
    rw [noDefinition] at present
    cases present
  · have present := (all strayLinksSample dump ⟨"1"⟩ cut accepted known ⟨"6"⟩).mpr
      ⟨⟨⟨"2"⟩, .inl contained, by decide +kernel⟩, by decide +kernel, by decide +kernel⟩
    rw [noReference] at present
    cases present

end Dump

end CodeNav
