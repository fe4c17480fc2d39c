/-
Module: CodeNav.Proofs.Dump.Settling
Purpose: When a document and the rows of monikers settle on the same result of a chain.
Main exports:
  Element.definitionOf, Element.referenceOf, Element.settles_iff, Dump.lookups_settle_iff
-/
import CodeNav.Proofs.Dump.Answers
import CodeNav.Proofs.Dump.Nearest
import CodeNav.Proofs.Success

namespace CodeNav

/-! ### What a document keeps of a result -/

namespace Element

section

variable (elements : List Element) (document result : VertexId)

/-- What a document keeps of a definition result: nothing unless the result lists a range in it. -/
def definitionOf : Option DefinitionResult :=
  let values := itemsIn elements document result Edge.isPlain
  if !hasVertex elements .definitionResult result ∨ values = [] then none else some ⟨values⟩

/-- What a document keeps of a reference result: nothing unless the result lists a range in it. -/
def referenceOf : Option ReferenceResult :=
  let definitions := itemsIn elements document result (· = some "definitions")
  let references := itemsIn elements document result (· = some "references") ++
    itemsIn elements document result Edge.isPlain
  if !hasVertex elements .referenceResult result ∨ definitions = [] ∧ references = [] then none
  else some ⟨definitions, references⟩

theorem definitionAt_eq_bind (id : VertexId) :
    definitionAt elements document id =
      (RowKind.definitions.resultOf (linksOf elements id)).bind
        (definitionOf elements document) := by
  simp only [definitionAt, RowKind.resultOf]
  cases (linksOf elements id).definitionResult with
  | none => rfl
  | some result =>
      by_cases isResult : hasVertex elements .definitionResult result <;>
        simp [Option.filter_some, definitionOf, isResult]

theorem referenceAt_eq_bind (id : VertexId) :
    referenceAt elements document id =
      (RowKind.references.resultOf (linksOf elements id)).bind
        (referenceOf elements document) := by
  simp only [referenceAt, RowKind.resultOf]
  cases (linksOf elements id).referenceResult with
  | none => rfl
  | some result =>
      by_cases isResult : hasVertex elements .referenceResult result <;>
        simp [Option.filter_some, referenceOf, isResult]

variable {elements document result}

/-- A result with a range in a document lists items. -/
theorem listsItems_of_itemsIn {condition : Option String → Bool}
    (kept : itemsIn elements document result condition ≠ []) : listsItems elements result := by
  obtain ⟨item, member⟩ := List.exists_mem_of_ne_nil _ kept
  obtain ⟨listed, _⟩ := List.mem_filter.mp member
  obtain ⟨e, among, lists, _⟩ := Edge.mem_itemsWith.mp listed
  exact List.any_eq_true.mpr ⟨e, among, lists⟩

theorem listsItems_of_definitionOf {found : DefinitionResult}
    (kept : definitionOf elements document result = some found) : listsItems elements result := by
  simp only [definitionOf] at kept
  split at kept
  · cases kept
  · rename_i present
    exact listsItems_of_itemsIn (not_or.mp present).2

theorem listsItems_of_referenceOf {found : ReferenceResult}
    (kept : referenceOf elements document result = some found) : listsItems elements result := by
  simp only [referenceOf] at kept
  split at kept
  · cases kept
  · rename_i present
    have some := (not_or.mp present).2
    simp only [List.append_eq_nil_iff, not_and_or] at some
    rcases some with definitions | references | values
    · exact listsItems_of_itemsIn definitions
    · exact listsItems_of_itemsIn references
    · exact listsItems_of_itemsIn values

end

/-! ### Two ways along a chain -/

section

variable {elements : List Element} {kind : RowKind} {α : Type} {at? keeps : VertexId → Option α}
  (here : ∀ node, at? node = (kind.resultOf (linksOf elements node)).bind keeps)
  (lists : ∀ result kept, keeps result = some kept → listsItems elements result)
  {id : VertexId} {found : α}
include here lists

/-- What is kept of a result along a chain is that of the nearest result, unless nothing is kept of
that one and it is passed over. -/
theorem nearest_of_finds (finds : Walk.Finds (successor? elements) at? id found) :
    ∃ result, Nearest elements kind id result ∧
      (keeps result = some found ∨ keeps result = none) := by
  induction finds with
  | @here node value found =>
      rw [here] at found
      obtain ⟨result, named, kept⟩ := Option.bind_eq_some_iff.mp found
      refine ⟨result, .here ?_, .inl kept⟩
      exact Option.filter_eq_some_iff.mpr ⟨named, lists result _ kept⟩
  | @onward node next _ nothing links _ ih =>
      cases own : resultAt elements kind node with
      | some result =>
          obtain ⟨named, _⟩ := Option.filter_eq_some_iff.mp own
          rw [here, named, Option.bind_some] at nothing
          exact ⟨result, .here own, .inr nothing⟩
      | none =>
          obtain ⟨result, nearest, kept⟩ := ih
          exact ⟨result, .onward own (Option.filter_eq_some_iff.mp links).1 nearest, kept⟩

/-- A look-up finds only what is kept of the nearest result exactly if it finds nothing where
nothing is kept of that one. -/
theorem settles_iff :
    (∀ found, (walk elements id).findSome? at? = some found →
        ∃ result, Nearest elements kind id result ∧ keeps result = some found) ↔
      ∀ result, Nearest elements kind id result → keeps result = none →
        ∀ node ∈ walk elements id, at? node = none := by
  constructor
  · intro settles result nearest dropped
    rw [← List.findSome?_eq_none_iff, Option.eq_none_iff_forall_ne_some]
    intro found lookedUp
    obtain ⟨other, again, kept⟩ := settles found lookedUp
    rw [← nearest.unique again, dropped] at kept
    cases kept
  · intro absent found lookedUp
    obtain ⟨result, nearest, kept | dropped⟩ :=
      nearest_of_finds here lists ((isWalk_walk elements id).findSome?_eq_some_iff.mp lookedUp)
    · exact ⟨result, nearest, kept⟩
    · rw [List.findSome?_eq_none_iff.mpr (absent result nearest dropped)] at lookedUp
      cases lookedUp

end

end Element

/-! ### Documents and rows -/

namespace Dump

open Element

section

variable {elements : List Element} {dump : Dump} {document id : VertexId} {cut : Document}

/-- At every node of a document, the nearest result is the one that rows are taken from. What the
document finds there is what it keeps of this result, exactly if nothing further along the chain is
found where it keeps nothing of it. -/
theorem lookups_settle_iff (accepted : ofElements elements = .ok dump)
    (known : dump.document? document = some cut)
    (isNode : id ∈ rangesIn elements document ∨ cut.resultSets.contains id) :
    (∀ kind result, Nearest elements kind id result →
        dump.chainItems? kind (dump.links.size + 1) id = some (itemsOf elements result)) ∧
      ((∀ found, cut.definition? (linksOf elements id) = some found →
          ∃ result, Nearest elements .definitions id result ∧
            definitionOf elements document result = some found) ↔
        ∀ result, Nearest elements .definitions id result →
          definitionOf elements document result = none →
          ∀ node ∈ walk elements id, Element.definitionAt elements document node = none) ∧
      ((∀ found, cut.reference? (linksOf elements id) = some found →
          ∃ result, Nearest elements .references id result ∧
            referenceOf elements document result = some found) ↔
        ∀ result, Nearest elements .references id result →
          referenceOf elements document result = none →
          ∀ node ∈ walk elements id, Element.referenceAt elements document node = none) := by
  obtain rfl : dump.documentOf document = cut := by
    rw [document?_ofElements accepted] at known
    split at known
    · exact Option.some.inj known
    · cases known
  have isNode : IsNode dump document id :=
    isNode.imp (mem_map_localRanges accepted).mpr fun met => met
  rw [← nodeOf_ofElements accepted, isNode.definition? accepted, isNode.reference? accepted]
  refine ⟨?_, ?_, ?_⟩
  · intro kind result nearest
    exact (chainItems?_eq_some_iff accepted kind id _).mpr ⟨result, nearest, rfl⟩
  · exact settles_iff (definitionAt_eq_bind elements document) fun _ _ => listsItems_of_definitionOf
  · exact settles_iff (referenceAt_eq_bind elements document) fun _ _ => listsItems_of_referenceOf

end

theorem lookups_settle_sample :
    ∃ dump cut, ofElements walkSample = .ok dump ∧ dump.document? ⟨"1"⟩ = some cut ∧
      ∀ found, cut.definition? (linksOf walkSample ⟨"2"⟩) = some found →
        ∃ result, Nearest walkSample .definitions ⟨"2"⟩ result ∧
          definitionOf walkSample ⟨"1"⟩ result = some found := by
  have readable : (ofElements walkSample).isOk := by decide +kernel
  obtain ⟨dump, accepted⟩ := Success.isOk_iff.mp readable
  have isDocument : hasVertex walkSample .document ⟨"1"⟩ := by decide +kernel
  have known : dump.document? ⟨"1"⟩ = some (dump.documentOf ⟨"1"⟩) := by
    rw [document?_ofElements accepted, if_pos isDocument]
  have contained : ⟨"2"⟩ ∈ rangesIn walkSample ⟨"1"⟩ := by decide +kernel
  refine ⟨dump, dump.documentOf ⟨"1"⟩, accepted, known, ?_⟩
  apply (lookups_settle_iff accepted known (.inl contained)).2.1.mpr
  intro result nearest dropped
  have further : next? walkSample ⟨"2"⟩ = some ⟨"3"⟩ := by decide +kernel
  have four : Nearest walkSample .definitions ⟨"2"⟩ ⟨"4"⟩ :=
    .onward (by decide +kernel) further (.here (by decide +kernel))
  obtain rfl := nearest.unique four
  revert dropped
  decide +kernel

/-- A range whose nearest definition lies in another document, and a further one in its own. -/
def passedSample : List Element :=
  let position (line character : Int) : Json.Value :=
    .record [("line", .number (.integer line)), ("character", .number (.integer character))]
  let range (line : Int) : Json.Value :=
    .record [("start", position line 0), ("end", position line 1)]
  [.vertex ⟨⟨"1"⟩, "document", .record [("uri", .string "file:///a.ts")]⟩,
   .vertex ⟨⟨"2"⟩, "document", .record [("uri", .string "file:///b.ts")]⟩,
   .vertex ⟨⟨"3"⟩, "range", range 0⟩,
   .vertex ⟨⟨"4"⟩, "range", range 0⟩,
   .vertex ⟨⟨"5"⟩, "resultSet", .record []⟩,
   .vertex ⟨⟨"6"⟩, "resultSet", .record []⟩,
   .vertex ⟨⟨"7"⟩, "definitionResult", .record []⟩,
   .vertex ⟨⟨"8"⟩, "definitionResult", .record []⟩,
   .edge ⟨"contains", ⟨"1"⟩, none, [⟨"3"⟩], none, none⟩,
   .edge ⟨"contains", ⟨"2"⟩, none, [⟨"4"⟩], none, none⟩,
   .edge ⟨"next", ⟨"3"⟩, some ⟨"5"⟩, [], none, none⟩,
   .edge ⟨"next", ⟨"5"⟩, some ⟨"6"⟩, [], none, none⟩,
   .edge ⟨"textDocument/definition", ⟨"5"⟩, some ⟨"7"⟩, [], none, none⟩,
   .edge ⟨"textDocument/definition", ⟨"6"⟩, some ⟨"8"⟩, [], none, none⟩,
   .edge ⟨"item", ⟨"7"⟩, none, [⟨"4"⟩], some ⟨"2"⟩, none⟩,
   .edge ⟨"item", ⟨"8"⟩, none, [⟨"3"⟩], some ⟨"1"⟩, none⟩]

/-- What a document finds may be from further along the chain than what rows are taken from. -/
theorem lookups_may_pass_over :
    ¬ ∀ (elements : List Element) (dump : Dump) (document id : VertexId) (cut : Document)
        (found : DefinitionResult) (items : Items),
      ofElements elements = .ok dump → dump.document? document = some cut →
      id ∈ rangesIn elements document → cut.definition? (linksOf elements id) = some found →
      dump.chainItems? .definitions (dump.links.size + 1) id = some items →
      found.values = items.values.filter (· ∈ rangesIn elements document) := by
  intro settles
  have readable : (ofElements passedSample).isOk := by decide +kernel
  obtain ⟨dump, accepted⟩ := Success.isOk_iff.mp readable
  have isDocument : hasVertex passedSample .document ⟨"1"⟩ := by decide +kernel
  have known : dump.document? ⟨"1"⟩ = some (dump.documentOf ⟨"1"⟩) := by
    rw [document?_ofElements accepted, if_pos isDocument]
  have contained : ⟨"3"⟩ ∈ rangesIn passedSample ⟨"1"⟩ := by decide +kernel
  have isNode : IsNode dump ⟨"1"⟩ ⟨"3"⟩ := .inl ((mem_map_localRanges accepted).mpr contained)
  have lookedUp : (dump.documentOf ⟨"1"⟩).definition? (linksOf passedSample ⟨"3"⟩) =
      some ⟨[⟨"3"⟩]⟩ := by
    rw [← nodeOf_ofElements accepted, isNode.definition? accepted]
    decide +kernel
  have further : next? passedSample ⟨"3"⟩ = some ⟨"5"⟩ := by decide +kernel
  have nearest : Nearest passedSample .definitions ⟨"3"⟩ ⟨"7"⟩ :=
    .onward (by decide +kernel) further (.here (by decide +kernel))
  have reached := (chainItems?_eq_some_iff accepted .definitions ⟨"3"⟩ _).mpr
    ⟨⟨"7"⟩, nearest, rfl⟩
  have same := settles passedSample dump ⟨"1"⟩ ⟨"3"⟩ _ _ _ accepted known contained lookedUp
    reached
  revert same
  decide +kernel

end Dump

end CodeNav
