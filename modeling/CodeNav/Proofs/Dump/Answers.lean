/-
Module: CodeNav.Proofs.Dump.Answers
Purpose: What a document answers at a range is what a walk of the dump from that range finds.
Main exports:
  Element.hoverAt, Element.definitionAt, Element.referenceAt, Element.monikersAt,
  Moniker.sort_eq_inOrder, Dump.answers_eq_walk
-/
import CodeNav.Proofs.Dump.Reach

namespace CodeNav

/-! ### Monikers in order -/

namespace Moniker

/-- The ranks of monikers, the first ones first: by kind, and within a kind by scheme. -/
def ranks : List (Nat × Nat) :=
  [0, 1, 2].flatMap fun kind => [0, 1, 2].map fun scheme => (kind, scheme)

/-- Monikers by rank, in the order in which they come within a rank. -/
def inOrder (monikers : List Moniker) : List Moniker :=
  ranks.flatMap fun rank => monikers.filter (·.rank = rank)

theorem rank_mem_ranks (m : Moniker) : m.rank ∈ ranks := by
  have late : schemeRank m.scheme ∈ [0, 1, 2] := by
    unfold schemeRank lateSchemes
    simp only [List.idxOf?_cons]
    split <;> (try split) <;> simp
  have early : m.kind.preference ∈ [0, 1, 2] := by
    cases m.kind <;> simp [MonikerKind.preference]
  exact List.mem_flatMap.mpr ⟨_, early, List.mem_map.mpr ⟨_, late, rfl⟩⟩

theorem notAfter_iff (a b : Moniker) :
    a.notAfter b ↔ a.rank.1 < b.rank.1 ∨ (a.rank.1 = b.rank.1 ∧ a.rank.2 ≤ b.rank.2) := by
  simp [notAfter]

theorem notAfter_trans (a b c : Moniker) (first : a.notAfter b) (second : b.notAfter c) :
    a.notAfter c := by
  rw [notAfter_iff] at *
  omega

theorem notAfter_total (a b : Moniker) : (a.notAfter b || b.notAfter a) = true := by
  rw [Bool.or_eq_true, notAfter_iff, notAfter_iff]
  omega

/-- Sorting keeps the order of the monikers of one rank. -/
theorem filter_rank_sort (monikers : List Moniker) (rank : Nat × Nat) :
    (sort monikers).filter (·.rank = rank) = monikers.filter (·.rank = rank) := by
  have ordered : (monikers.filter (·.rank = rank)).Pairwise fun a b => a.notAfter b := by
    apply List.pairwise_filter.mpr
    apply List.pairwise_of_forall
    intro a b first second
    simp only [decide_eq_true_eq] at first second
    rw [notAfter_iff, first, second]
    simp
  have kept := (List.sublist_mergeSort notAfter_trans notAfter_total ordered
    List.filter_sublist).filter (·.rank = rank)
  rw [List.filter_filter] at kept
  simp only [Bool.and_self] at kept
  exact (kept.eq_of_length ((List.mergeSort_perm monikers notAfter).filter _).length_eq.symm).symm

/-- A list in which no element that meets a condition follows one that does not falls into two. -/
theorem eq_filter_append_filter_not {α : Type} {p : α → Bool} {l : List α}
    (ordered : l.Pairwise fun a b => p b → p a) : l = l.filter p ++ l.filter (!p ·) := by
  induction l with
  | nil => rfl
  | cons a l ih =>
      obtain ⟨first, ordered⟩ := List.pairwise_cons.mp ordered
      cases met : p a with
      | true => simpa [met] using ih ordered
      | false =>
          have none (b) (member : b ∈ l) : p b = false := by
            simpa [met] using first b member
          have nothing : l.filter p = [] := by
            simpa [List.filter_eq_nil_iff] using none
          have all : l.filter (!p ·) = l := by
            simpa [List.filter_eq_self] using none
          simp [met, nothing, all]

/-- Monikers in order are grouped by rank. -/
theorem flatMap_filter_rank {ks : List (Nat × Nat)} {monikers : List Moniker}
    (ascending : ks.Pairwise fun j k => j.1 < k.1 ∨ (j.1 = k.1 ∧ j.2 < k.2))
    (ordered : monikers.Pairwise fun a b => a.notAfter b)
    (ranked : ∀ m ∈ monikers, m.rank ∈ ks) :
    ks.flatMap (fun k => monikers.filter (·.rank = k)) = monikers := by
  induction ks generalizing monikers with
  | nil =>
      symm
      simpa [List.eq_nil_iff_forall_not_mem] using ranked
  | cons k ks ih =>
      obtain ⟨lowest, ascending⟩ := List.pairwise_cons.mp ascending
      have parted : monikers = monikers.filter (·.rank = k) ++ monikers.filter (¬ ·.rank = k) := by
        have before : monikers.Pairwise fun a b => decide (b.rank = k) → decide (a.rank = k) := by
          refine ordered.imp_of_mem ?_
          intro a b listed _ notAfter last
          simp only [decide_eq_true_eq] at last ⊢
          by_contra different
          have later := lowest a.rank ((List.mem_cons.mp (ranked a listed)).resolve_left different)
          rw [notAfter_iff, last] at notAfter
          omega
        simpa using eq_filter_append_filter_not before
      have others (m) (listed : m ∈ monikers.filter (¬ ·.rank = k)) : m.rank ∈ ks := by
        obtain ⟨member, different⟩ := List.mem_filter.mp listed
        exact (List.mem_cons.mp (ranked m member)).resolve_left (by simpa using different)
      have rest := ih ascending (ordered.filter _) others
      have same : ks.flatMap (fun j => (monikers.filter (¬ ·.rank = k)).filter (·.rank = j)) =
          ks.flatMap (fun j => monikers.filter (·.rank = j)) := by
        apply List.flatMap_congr
        intro j listed
        rw [List.filter_filter]
        apply List.filter_congr
        intro m _
        have different : j ≠ k := by
          rintro rfl
          have := lowest j listed
          omega
        by_cases here : m.rank = j <;> simp [here, different]
      rw [List.flatMap_cons, ← same, rest]
      exact parted.symm

theorem sort_eq_inOrder (monikers : List Moniker) : sort monikers = inOrder monikers := by
  have grouped : inOrder (sort monikers) = sort monikers := by
    apply flatMap_filter_rank (by decide)
    · exact List.pairwise_mergeSort notAfter_trans notAfter_total monikers
    · exact fun m _ => rank_mem_ranks m
  rw [← grouped]
  unfold inOrder
  simp only [filter_rank_sort]

end Moniker

/-! ### What is found at a vertex -/

namespace Element

variable (elements : List Element) (document id : VertexId)

/-- The items of a result that a document contains, listed by edges whose property meets a
condition. -/
def itemsIn (condition : Option String → Bool) : List VertexId :=
  (Edge.itemsWith condition (edgesFrom elements id)).filter (· ∈ rangesIn elements document)

/-- The hover result that a vertex names. -/
def hoverAt : Option Hover :=
  (linksOf elements id).hoverResult.bind (hover? elements)

/-- What the definition result that a vertex names lists in a document, if it lists anything. -/
def definitionAt : Option DefinitionResult := do
  let result ← (linksOf elements id).definitionResult.filter (hasVertex elements .definitionResult)
  let values := itemsIn elements document result Edge.isPlain
  if values = [] then none else some ⟨values⟩

/-- What the reference result that a vertex names lists in a document, if it lists anything. -/
def referenceAt : Option ReferenceResult := do
  let result ← (linksOf elements id).referenceResult.filter (hasVertex elements .referenceResult)
  let definitions := itemsIn elements document result (· = some "definitions")
  let references := itemsIn elements document result (· = some "references") ++
    itemsIn elements document result Edge.isPlain
  if definitions = [] ∧ references = [] then none else some ⟨definitions, references⟩

/-- The monikers attached to a vertex, with their packages. -/
def monikersAt : List Moniker :=
  (linksOf elements id).monikers.filterMap (moniker? elements)

end Element

/-! ### What a document holds -/

namespace Dump

open Element

section

variable {elements : List Element} {dump : Dump} {document id : VertexId}

/-- The nodes from which the tables of a document are made. -/
def nodesOf (dump : Dump) (document : VertexId) : List ChainNode :=
  ((dump.localRanges document).map (·.1)).map dump.nodeOf ++
    (dump.documentOf document).resultSets.values

theorem IsNode.mem_nodesOf (isNode : IsNode dump document id) :
    dump.nodeOf id ∈ dump.nodesOf document := by
  unfold nodesOf
  rcases isNode with listed | met
  · exact List.mem_append_left _ (List.mem_map.mpr ⟨id, listed, rfl⟩)
  · exact List.mem_append_right _
      (Table.mem_values.mpr ⟨id, getElem?_resultSets_documentOf met⟩)

/-- What nodes name is found in a table of everything that they name. -/
theorem IsNode.bind_tableOf {α : Type} (isNode : IsNode dump document id)
    (pick : ChainNode → Option VertexId) (find : VertexId → Option α) :
    ((pick (dump.nodeOf id)).bind fun named =>
      (tableOf find ((dump.nodesOf document).filterMap pick))[named]?) =
      (pick (dump.nodeOf id)).bind find := by
  cases picked : pick (dump.nodeOf id) with
  | none => rfl
  | some named =>
      have listed : named ∈ (dump.nodesOf document).filterMap pick :=
        List.mem_filterMap.mpr ⟨_, isNode.mem_nodesOf, picked⟩
      rw [Option.bind_some, getElem?_tableOf, if_pos listed, Option.bind_some]

theorem IsNode.monikers (isNode : IsNode dump document id) :
    ((dump.nodeOf id).monikers.filterMap fun named =>
      (dump.documentOf document).monikers[named]?) =
      (dump.nodeOf id).monikers.filterMap dump.moniker? := by
  apply List.filterMap_congr
  intro named attached
  have listed : named ∈ (dump.nodesOf document).flatMap (·.monikers) :=
    List.mem_flatMap.mpr ⟨_, isNode.mem_nodesOf, attached⟩
  exact (getElem?_tableOf _ _ named).trans (if_pos listed)

variable (accepted : ofElements elements = .ok dump)
include accepted

theorem inDocument_eq_filter (ids : List VertexId) :
    inDocument ((dump.localRanges document).map (·.1)) ids =
      ids.filter (· ∈ rangesIn elements document) := by
  apply List.filter_congr
  intro id _
  rw [Bool.eq_iff_iff]
  simp only [List.contains_iff_mem, decide_eq_true_eq]
  exact mem_map_localRanges accepted

theorem IsNode.hoverAt (isNode : IsNode dump document id) :
    ((dump.nodeOf id).hoverResult.bind fun named =>
      (dump.documentOf document).hovers[named]?) = Element.hoverAt elements id := by
  have found := isNode.bind_tableOf (·.hoverResult) (dump.hovers[·]?)
  rw [Element.hoverAt, ← nodeOf_ofElements accepted]
  refine Eq.trans found ?_
  congr 1
  funext named
  exact hovers_ofElements accepted named

theorem IsNode.definitionAt (isNode : IsNode dump document id) :
    ((dump.nodeOf id).definitionResult.bind fun named =>
      (dump.documentOf document).definitionResults[named]?) =
      Element.definitionAt elements document id := by
  have found := isNode.bind_tableOf (·.definitionResult)
    (dump.definitionIn? ((dump.localRanges document).map (·.1)))
  refine Eq.trans found ?_
  rw [Element.definitionAt, ← nodeOf_ofElements accepted]
  cases (dump.nodeOf id).definitionResult with
  | none => rfl
  | some result =>
      have items := congrArg Items.values (items_ofElements accepted result)
      simp only [Option.bind_some, definitionIn?, inDocument_eq_filter accepted, items,
        definitionResults_ofElements accepted]
      by_cases isResult : hasVertex elements .definitionResult result <;>
        simp [isResult, itemsIn, EdgeFacts.ofEdges, Option.filter_some]

theorem IsNode.referenceAt (isNode : IsNode dump document id) :
    ((dump.nodeOf id).referenceResult.bind fun named =>
      (dump.documentOf document).referenceResults[named]?) =
      Element.referenceAt elements document id := by
  have found := isNode.bind_tableOf (·.referenceResult)
    (dump.referenceIn? ((dump.localRanges document).map (·.1)))
  refine Eq.trans found ?_
  rw [Element.referenceAt, ← nodeOf_ofElements accepted]
  cases (dump.nodeOf id).referenceResult with
  | none => rfl
  | some result =>
      have items := items_ofElements accepted result
      simp only [Option.bind_some, referenceIn?, inDocument_eq_filter accepted, items,
        referenceResults_ofElements accepted]
      by_cases isResult : hasVertex elements .referenceResult result <;>
        simp [isResult, itemsIn, EdgeFacts.ofEdges, Option.filter_some]

theorem IsNode.monikersAt (isNode : IsNode dump document id) :
    ((dump.nodeOf id).monikers.filterMap fun named =>
      (dump.documentOf document).monikers[named]?) = Element.monikersAt elements id := by
  rw [isNode.monikers, Element.monikersAt, ← nodeOf_ofElements accepted]
  apply List.filterMap_congr
  intro named _
  exact moniker?_ofElements accepted named

/-! ### Answers -/

/-- What is looked for along the chain from a range is looked for along the walk. -/
theorem IsNode.findSome?_chain {α : Type} (isNode : IsNode dump document id)
    {find : ChainNode → Option α} {at? : VertexId → Option α}
    (same : ∀ other, IsNode dump document other → find (dump.nodeOf other) = at? other) :
    ((dump.documentOf document).chain (dump.nodeOf id)).findSome? find =
      (Element.walk elements id).findSome? at? := by
  rw [Document.chain, isNode.walk accepted, List.findSome?_map,
    (isWalk_walk elements id).findSome?_trail (isNode.length_walk_le accepted)]
  have nodes (other) (met : other ∈ Element.walk elements id) : IsNode dump document other :=
    isNode.of_mem_walk accepted met
  generalize Element.walk elements id = nodesMet at nodes
  induction nodesMet with
  | nil => rfl
  | cons other rest ih =>
      rw [List.findSome?_cons, List.findSome?_cons, Function.comp_apply,
        same other (nodes other List.mem_cons_self),
        ih fun later met => nodes later (List.mem_cons_of_mem other met)]

theorem IsNode.hover? (isNode : IsNode dump document id) :
    (dump.documentOf document).hover? (dump.nodeOf id) =
      (Element.walk elements id).findSome? (Element.hoverAt elements) :=
  isNode.findSome?_chain accepted fun _ met => met.hoverAt accepted

theorem IsNode.definition? (isNode : IsNode dump document id) :
    (dump.documentOf document).definition? (dump.nodeOf id) =
      (Element.walk elements id).findSome? (Element.definitionAt elements document) :=
  isNode.findSome?_chain accepted fun _ met => met.definitionAt accepted

theorem IsNode.reference? (isNode : IsNode dump document id) :
    (dump.documentOf document).reference? (dump.nodeOf id) =
      (Element.walk elements id).findSome? (Element.referenceAt elements document) :=
  isNode.findSome?_chain accepted fun _ met => met.referenceAt accepted

theorem IsNode.findMonikers (isNode : IsNode dump document id)
    (ends : (Element.walk elements id).getLast?.bind (Element.successor? elements) = none) :
    (dump.documentOf document).findMonikers (dump.nodeOf id) =
      Moniker.sort ((Element.walk elements id).flatMap (Element.monikersAt elements)) := by
  obtain ⟨more, followed, _, stops⟩ :=
    (isWalk_walk elements id).trail_eq (isNode.length_walk_le accepted)
  rw [Document.findMonikers, Document.chain, isNode.walk accepted, followed, stops ends,
    List.append_nil, List.flatMap_map]
  congr 1
  apply List.flatMap_congr
  intro other met
  exact (isNode.of_mem_walk accepted met).monikersAt accepted

/-- On the document that is cut out of a dump, what is found for a range is found by walking the
dump from the range to result sets, as long as there is a further one. -/
theorem answers_eq_walk (isDocument : hasVertex elements .document document)
    (contained : id ∈ rangesIn elements document) :
    ∃ cut range index,
      dump.document? document = some cut ∧
      range? elements id = some range ∧
      cut.ranges[id]? = some (UInt64.ofNat index) ∧
      cut.orderedRanges[index]? = some ⟨range, linksOf elements id⟩ ∧
      cut.hover? (linksOf elements id) =
        (walk elements id).findSome? (Element.hoverAt elements) ∧
      cut.definition? (linksOf elements id) =
        (walk elements id).findSome? (Element.definitionAt elements document) ∧
      cut.reference? (linksOf elements id) =
        (walk elements id).findSome? (Element.referenceAt elements document) ∧
      (cut.hover? (linksOf elements id) = none ↔
        ∀ node ∈ walk elements id, Element.hoverAt elements node = none) ∧
      (cut.definition? (linksOf elements id) = none ↔
        ∀ node ∈ walk elements id, Element.definitionAt elements document node = none) ∧
      (cut.reference? (linksOf elements id) = none ↔
        ∀ node ∈ walk elements id, Element.referenceAt elements document node = none) ∧
      ((walk elements id).getLast?.bind (successor? elements) = none →
        cut.findMonikers (linksOf elements id) =
          Moniker.inOrder ((walk elements id).flatMap (Element.monikersAt elements))) := by
  have known : dump.document? document = some (dump.documentOf document) := by
    rw [document?_ofElements accepted, if_pos isDocument]
  have listed : id ∈ (dump.localRanges document).map (·.1) :=
    (mem_map_localRanges accepted).mpr contained
  have isNode : IsNode dump document id := .inl listed
  obtain ⟨index, place, indexed⟩ := exists_getElem?_indexTable listed
  obtain ⟨⟨_, range⟩, entry, rfl⟩ := Option.map_eq_some_iff.mp (List.getElem?_map ▸ place)
  have stored := (mem_localRanges (List.mem_of_getElem? entry)).2
  rw [ranges_ofElements accepted] at stored
  refine ⟨dump.documentOf document, range, index, known, stored, indexed, ?_⟩
  rw [← nodeOf_ofElements accepted]
  rw [isNode.hover? accepted, isNode.definition? accepted, isNode.reference? accepted]
  refine ⟨(List.getElem?_map).trans (congrArg (Option.map _) entry), rfl, rfl, rfl,
    List.findSome?_eq_none_iff, List.findSome?_eq_none_iff, List.findSome?_eq_none_iff, ?_⟩
  intro ends
  rw [isNode.findMonikers accepted ends, Moniker.sort_eq_inOrder]

end

/-- A document with one range, which inherits from a result set with a hover, monikers and a
definition both inside and outside the document. -/
def walkSample : List Element :=
  let position (line character : Int) : Json.Value :=
    .record [("line", .number (.integer line)), ("character", .number (.integer character))]
  let moniker (kind identifier : String) : Json.Value :=
    .record [("scheme", .string "tsc"), ("identifier", .string identifier),
      ("kind", .string kind)]
  [.vertex ⟨⟨"1"⟩, "document", .record [("uri", .string "file:///a.ts")]⟩,
   .vertex ⟨⟨"2"⟩, "range", .record [("start", position 1 4), ("end", position 1 7)]⟩,
   .vertex ⟨⟨"3"⟩, "resultSet", .record []⟩,
   .vertex ⟨⟨"4"⟩, "definitionResult", .record []⟩,
   .vertex ⟨⟨"5"⟩, "hoverResult",
     .record [("result", .record [("contents", .string "shown")])]⟩,
   .vertex ⟨⟨"6"⟩, "moniker", moniker "export" "a:f"⟩,
   .vertex ⟨⟨"7"⟩, "moniker", moniker "import" "b:f"⟩,
   .edge ⟨"contains", ⟨"1"⟩, none, [⟨"2"⟩], none, none⟩,
   .edge ⟨"next", ⟨"2"⟩, some ⟨"3"⟩, [], none, none⟩,
   .edge ⟨"textDocument/definition", ⟨"3"⟩, some ⟨"4"⟩, [], none, none⟩,
   .edge ⟨"textDocument/hover", ⟨"3"⟩, some ⟨"5"⟩, [], none, none⟩,
   .edge ⟨"moniker", ⟨"2"⟩, some ⟨"6"⟩, [], none, none⟩,
   .edge ⟨"moniker", ⟨"3"⟩, some ⟨"7"⟩, [], none, none⟩,
   .edge ⟨"item", ⟨"4"⟩, none, [⟨"2"⟩, ⟨"9"⟩], some ⟨"1"⟩, none⟩]

theorem answers_eq_walk_sample :
    ∃ dump cut, ofElements walkSample = .ok dump ∧ dump.document? ⟨"1"⟩ = some cut ∧
      (cut.hover? (linksOf walkSample ⟨"2"⟩)).map (·.contents) = some (.string "shown") ∧
      cut.definition? (linksOf walkSample ⟨"2"⟩) = some ⟨[⟨"2"⟩]⟩ ∧
      cut.reference? (linksOf walkSample ⟨"2"⟩) = none ∧
      (cut.findMonikers (linksOf walkSample ⟨"2"⟩)).map (·.identifier) = ["b:f", "a:f"] := by
  have readable : (ofElements walkSample).isOk := by decide +kernel
  cases accepted : ofElements walkSample with
  | error failure =>
      rw [accepted] at readable
      cases readable
  | ok dump =>
      have isDocument : hasVertex walkSample .document ⟨"1"⟩ := by decide +kernel
      have contained : ⟨"2"⟩ ∈ rangesIn walkSample ⟨"1"⟩ := by decide +kernel
      obtain ⟨cut, _, _, known, _, _, _, hover, definition, reference, _, _, _, monikers⟩ :=
        answers_eq_walk accepted isDocument contained
      refine ⟨dump, cut, rfl, known, ?_, ?_, ?_, ?_⟩
      · rw [hover]
        decide +kernel
      · rw [definition]
        decide +kernel
      · rw [reference]
        decide +kernel
      · rw [monikers (by decide +kernel)]
        decide +kernel

end Dump

end CodeNav
