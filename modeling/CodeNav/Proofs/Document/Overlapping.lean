/-
Module: CodeNav.Proofs.Document.Overlapping
Purpose: Which unambiguous positions halving finds in a document whose ranges may overlap.
Main exports:
  Search.probes, Search.bisect_eq_iff, Search.Alone, Dump.unambiguous_found_iff,
  Dump.unambiguous_may_be_missed
-/
import CodeNav.Proofs.Document.Search
import CodeNav.Proofs.Dump.Contents
import Mathlib.Data.List.Permutation
import Mathlib.Data.Nat.Find

namespace CodeNav

namespace Search

/-! ### Where halving ends -/

/-- The indices that halving looks at on its way to one of `size` indices from `base` on. -/
def probes (last base size : Nat) : List Nat :=
  if size ≤ 1 then []
  else
    let half := size / 2
    let middle := base + half
    middle :: probes last (if last < middle then base else middle) (size - half)
termination_by size
decreasing_by omega

theorem base_le_bisect (isAfter : Nat → Bool) (base size : Nat) :
    base ≤ bisect isAfter base size := by
  induction size using Nat.strong_induction_on generalizing base with
  | _ size ih =>
      rw [bisect]
      split
      · exact Nat.le_refl base
      · by_cases after : isAfter (base + size / 2) = true
        · simp only [if_pos after]
          exact ih _ (by omega) base
        · simp only [if_neg after]
          exact Nat.le_of_add_right_le (ih _ (by omega) _)

/-- Halving does not end before an index up to which nothing lies after. -/
theorem le_bisect {isAfter : Nat → Bool} {base size last : Nat} (high : last < base + size)
    (reached : ∀ i ≤ last, isAfter i = false) : last ≤ bisect isAfter base size := by
  induction size using Nat.strong_induction_on generalizing base with
  | _ size ih =>
      rw [bisect]
      split
      · omega
      · by_cases after : isAfter (base + size / 2) = true
        · have behind : last < base + size / 2 := by
            by_contra early
            simp [reached _ (Nat.le_of_not_lt early)] at after
          simp only [if_pos after]
          exact ih _ (by omega) (by omega)
        · simp only [if_neg after]
          exact ih _ (by omega) (by omega)

/-- Halving ends at an index up to which nothing lies after exactly if all it looks at behind the
index does. -/
theorem bisect_eq_iff {isAfter : Nat → Bool} {base size last : Nat} (low : base ≤ last)
    (high : last < base + size) (reached : ∀ i ≤ last, isAfter i = false) :
    bisect isAfter base size = last ↔
      ∀ i ∈ probes last base size, last < i → isAfter i = true := by
  induction size using Nat.strong_induction_on generalizing base with
  | _ size ih =>
      rw [bisect, probes]
      by_cases single : size ≤ 1
      · rw [if_pos single, if_pos single]
        simp only [List.not_mem_nil, false_imp_iff, implies_true, iff_true]
        omega
      · rw [if_neg single, if_neg single]
        simp only [List.forall_mem_cons]
        by_cases behind : last < base + size / 2
        · rw [if_pos behind]
          cases after : isAfter (base + size / 2) with
          | true =>
              simpa only [if_true, behind, true_imp_iff, true_and] using
                ih _ (by omega) low (by omega)
          | false =>
              -- one look at an entry that lies before, and the index is left behind for good
              have further := base_le_bisect isAfter (base + size / 2) (size - size / 2)
              simp only [Bool.false_eq_true, if_false, behind, true_imp_iff, false_and, iff_false]
              omega
        · have early := reached _ (Nat.le_of_not_lt behind)
          simpa only [early, Bool.false_eq_true, if_false, behind, false_imp_iff, true_and] using
            ih _ (by omega) (by omega) (by omega)

theorem lt_of_mem_probes {last base size i : Nat} (probed : i ∈ probes last base size) :
    i < base + size := by
  induction size using Nat.strong_induction_on generalizing base with
  | _ size ih =>
      rw [probes] at probed
      split at probed
      · cases probed
      · rcases List.mem_cons.mp probed with rfl | later
        · omega
        · have inside := ih _ (by omega) later
          split at inside <;> omega

/-! ### Ranges that overlap -/

/-- Of ordered entries one contains a position and is the only one that does, though it may be
listed several times; `last` is the last time. -/
structure Alone (entries : List RangeEntry) (position : Position) (entry : RangeEntry)
    (last : Nat) : Prop where
  sorted : entries.Pairwise fun a b => (a.range.order b.range).isLE = true
  within : entry.range.contains position = true
  unique : ∀ other ∈ entries, other.range.contains position = true → other = entry
  place : entries[last]? = some entry
  final : ∀ i, last < i → entries[i]? ≠ some entry

section Alone

variable {entries : List RangeEntry} {position : Position} {entry : RangeEntry} {last : Nat}

/-- Entries up to the one with the position start no later, and so not after the position. -/
theorem Alone.reached (alone : Alone entries position entry last) {i : Nat} (early : i ≤ last) :
    (entries[i]?.any fun other => other.range.compare position == .gt) = false := by
  obtain ⟨inside, here⟩ := List.getElem?_eq_some_iff.mp alone.place
  have start := Range.contains_iff.mp alone.within
  rw [List.getElem?_eq_getElem (by omega), Option.any_some, beq_eq_false_iff_ne]
  have notLater : entries[i].range.start.rank ≤ entry.range.start.rank := by
    rcases Nat.lt_or_eq_of_le early with before | rfl
    · have ordered := List.pairwise_iff_getElem.mp alone.sorted i last (by omega) inside before
      rw [here, Range.isLE_order_iff] at ordered
      omega
    · rw [here]
  intro after
  have seen := entries[i].range.compare_cases position
  simp only [after, true_and, reduceCtorEq, false_and, or_false] at seen
  omega

/-- Either the one entry with the position is found, or none is. -/
theorem Alone.found_or_missed (alone : Alone entries position entry last) :
    findRange? entries.toArray position = some entry ∨
      findRange? entries.toArray position = none := by
  cases found : findRange? entries.toArray position with
  | none => exact .inr rfl
  | some other =>
      obtain ⟨member, within⟩ := findRange?_eq_some found
      exact .inl (congrArg some (alone.unique other member within))

/-- The entry with the position is found exactly if every entry behind it that halving looks at lies
after the position. -/
theorem Alone.findRange?_eq_some_iff (alone : Alone entries position entry last) :
    findRange? entries.toArray position = some entry ↔
      ∀ i ∈ probes last 0 entries.length, last < i →
        ∃ other, entries[i]? = some other ∧ other.range.compare position = .gt := by
  have inside := (List.getElem?_eq_some_iff.mp alone.place).1
  let isAfter (i : Nat) : Bool :=
    (entries[i]?).any fun other => other.range.compare position == .gt
  have reached : ∀ i ≤ last, isAfter i = false := fun i early => alone.reached early
  have ends : findRange? entries.toArray position = some entry ↔
      bisect isAfter 0 entries.length = last := by
    have high : last < 0 + entries.length := by omega
    have notBefore := le_bisect high reached
    simp only [findRange?, List.getElem?_toArray, List.size_toArray]
    change (entries[bisect isAfter 0 entries.length]?.bind fun other => _) = _ ↔ _
    constructor
    · intro found
      obtain ⟨other, listed, same⟩ := Option.bind_eq_some_iff.mp found
      obtain rfl : other = entry := (Option.ite_none_right_eq_some.mp same).2 |> Option.some.inj
      by_contra elsewhere
      exact alone.final _ (Nat.lt_of_le_of_ne notBefore (Ne.symm elsewhere)) listed
    · intro here
      have compared := Range.compare_eq_iff.mpr alone.within
      simp [here, alone.place, compared]
  rw [ends, bisect_eq_iff (Nat.zero_le last) (by omega) reached]
  simp only [isAfter, Option.any_eq_true, beq_iff_eq]

/-- No harm is done by ranges that lie after the position, wherever halving looks. -/
theorem Alone.findRange?_of_after (alone : Alone entries position entry last)
    (after : ∀ other ∈ entries, other ≠ entry → (entry.range.order other.range).isLE = true →
      other.range.compare position = .gt) :
    findRange? entries.toArray position = some entry := by
  apply alone.findRange?_eq_some_iff.mpr
  intro i probed behind
  obtain ⟨inside, here⟩ := List.getElem?_eq_some_iff.mp alone.place
  have within : i < entries.length := by simpa using lt_of_mem_probes probed
  have ordered := List.pairwise_iff_getElem.mp alone.sorted last i inside within behind
  refine ⟨entries[i], List.getElem?_eq_getElem within, ?_⟩
  apply after _ (List.getElem_mem within)
  · intro same
    exact alone.final i behind (List.getElem?_eq_some_iff.mpr ⟨within, same⟩)
  · rwa [here] at ordered

end Alone

end Search

/-! ### Documents -/

namespace Element

theorem IsEntry.unique {elements : List Element} {id : VertexId} {first second : RangeEntry}
    (one : IsEntry elements id first) (other : IsEntry elements id second) : first = second := by
  obtain ⟨place, links⟩ := one
  obtain ⟨otherPlace, otherLinks⟩ := other
  rcases first with ⟨range, node⟩
  rcases second with ⟨otherRange, otherNode⟩
  obtain rfl : range = otherRange := Option.some.inj (place.symm.trans otherPlace)
  obtain rfl : node = otherNode := links.trans otherLinks.symm
  rfl

end Element

namespace Dump

open Element

/-- A position that lies in one range of a document, and in no other one. -/
structure LiesIn (elements : List Element) (document : VertexId) (position : Position)
    (id : VertexId) (range : Range) : Prop where
  contained : id ∈ rangesIn elements document
  place : range? elements id = some range
  within : range.contains position = true
  only : ∀ other ∈ rangesIn elements document, ∀ otherRange,
    range? elements other = some otherRange → otherRange.contains position = true → other = id

section

variable {elements : List Element} {dump : Dump} {document id : VertexId} {cut : Document}
  {position : Position} {range : Range}

theorem CutOf.exists_entry (exact : CutOf elements document cut) {entry : RangeEntry}
    (member : entry ∈ cut.orderedRanges) :
    ∃ id ∈ rangesIn elements document, IsEntry elements id entry := by
  obtain ⟨ids, perm, entries⟩ := exact.occurrences
  obtain ⟨index, inside, rfl⟩ := List.getElem_of_mem member
  have among : index < ids.length := entries.length_eq ▸ inside
  exact ⟨ids[index], perm.mem_iff.mp (List.getElem_mem among), entries.get among inside⟩

theorem LiesIn.entry_eq (lies : LiesIn elements document position id range) {entry : RangeEntry}
    (isEntry : IsEntry elements id entry) : entry = ⟨range, linksOf elements id⟩ :=
  isEntry.unique ⟨lies.place, rfl⟩

theorem LiesIn.alone (lies : LiesIn elements document position id range)
    (exact : CutOf elements document cut) :
    ∃ last, Search.Alone cut.orderedRanges position ⟨range, linksOf elements id⟩ last := by
  obtain ⟨index, entry, -, listed, isEntry⟩ := exact.indexed id lies.contained
  rw [lies.entry_eq isEntry] at listed
  let Listed (i : Nat) : Prop := cut.orderedRanges[i]? = some ⟨range, linksOf elements id⟩
  have inside (i : Nat) (here : Listed i) : i ≤ cut.orderedRanges.length :=
    Nat.le_of_lt (List.getElem?_eq_some_iff.mp here).1
  refine ⟨Nat.findGreatest Listed cut.orderedRanges.length, ?_⟩
  exact {
    sorted := exact.sorted
    within := lies.within
    unique := fun other member within => by
      obtain ⟨otherId, contained, otherEntry⟩ := exact.exists_entry member
      obtain rfl := lies.only otherId contained other.range otherEntry.1 within
      exact lies.entry_eq otherEntry
    place := Nat.findGreatest_spec (P := Listed) (inside index listed) listed
    final := fun i behind here => Nat.findGreatest_is_greatest behind (inside i here) here }

/-- A position that lies in exactly one range of a document is answered with that range or with
none.  It is found exactly if, of the ranges that are ordered after it, those that halving looks at
lie after the position; so it is found wherever the others do, apart from those ordered before. -/
theorem unambiguous_found_iff (accepted : ofElements elements = .ok dump)
    (known : dump.document? document = some cut)
    (lies : LiesIn elements document position id range) :
    (cut.findRange? position = some ⟨range, linksOf elements id⟩ ∨
      cut.findRange? position = none) ∧
    (∃ last, cut.orderedRanges[last]? = some ⟨range, linksOf elements id⟩ ∧
      (∀ i, last < i → cut.orderedRanges[i]? ≠ some ⟨range, linksOf elements id⟩) ∧
      (cut.findRange? position = some ⟨range, linksOf elements id⟩ ↔
        ∀ i ∈ Search.probes last 0 cut.orderedRanges.length, last < i →
          ∃ other, cut.orderedRanges[i]? = some other ∧ other.range.compare position = .gt)) ∧
    ((∀ other ∈ rangesIn elements document, other ≠ id → ∀ otherRange,
        range? elements other = some otherRange → (range.order otherRange).isLE = true →
        otherRange.compare position = .gt) →
      cut.findRange? position = some ⟨range, linksOf elements id⟩) := by
  have ⟨exact, _⟩ := (document?_exact accepted document).2.2 cut known
  obtain ⟨last, alone⟩ := lies.alone exact
  refine ⟨alone.found_or_missed, ⟨last, alone.place, alone.final, alone.findRange?_eq_some_iff⟩,
    fun after => alone.findRange?_of_after fun other member different behind => ?_⟩
  obtain ⟨otherId, contained, isEntry⟩ := exact.exists_entry member
  refine after otherId contained ?_ other.range isEntry.1 behind
  rintro rfl
  exact different (lies.entry_eq isEntry)

end

/-- A document with a call over ten characters and a name within it, in front of its middle. -/
def nestedSample : List Element :=
  let position (character : Int) : Json.Value :=
    .record [("line", .number (.integer 0)), ("character", .number (.integer character))]
  let range (start stop : Int) : Json.Value :=
    .record [("start", position start), ("end", position stop)]
  [.vertex ⟨⟨"1"⟩, "document", .record [("uri", .string "p")]⟩,
   .vertex ⟨⟨"2"⟩, "range", range 0 10⟩,
   .vertex ⟨⟨"3"⟩, "range", range 2 3⟩,
   .edge ⟨"contains", ⟨"1"⟩, none, [⟨"2"⟩, ⟨"3"⟩], none, none⟩]

theorem nestedSample_liesIn (character : UInt32) (outside : character = 1 ∨ character = 5) :
    LiesIn nestedSample ⟨"1"⟩ ⟨0, character⟩ ⟨"2"⟩ ⟨⟨0, 0⟩, ⟨0, 10⟩⟩ where
  contained := by decide +kernel
  place := by decide +kernel
  within := by
    rcases outside with rfl | rfl <;> decide +kernel
  only := by
    have ranges : rangesIn nestedSample ⟨"1"⟩ = [⟨"2"⟩, ⟨"3"⟩] := by decide +kernel
    have inner : range? nestedSample ⟨"3"⟩ = some ⟨⟨0, 2⟩, ⟨0, 3⟩⟩ := by decide +kernel
    rw [ranges]
    intro other listed otherRange place within
    rcases List.mem_pair.mp listed with rfl | rfl
    · rfl
    · obtain rfl := Option.some.inj (inner.symm.trans place)
      rcases outside with rfl | rfl <;> revert within <;> decide +kernel

theorem nestedSample_orderedRanges {cut : Document} (exact : CutOf nestedSample ⟨"1"⟩ cut) :
    cut.orderedRanges =
      [⟨⟨⟨0, 0⟩, ⟨0, 10⟩⟩, .empty⟩, ⟨⟨⟨0, 2⟩, ⟨0, 3⟩⟩, .empty⟩] := by
  have outer {entry : RangeEntry} (isEntry : IsEntry nestedSample ⟨"2"⟩ entry) :
      entry = ⟨⟨⟨0, 0⟩, ⟨0, 10⟩⟩, .empty⟩ := by
    have place : range? nestedSample ⟨"2"⟩ = some ⟨⟨0, 0⟩, ⟨0, 10⟩⟩ := by decide +kernel
    have bare : linksOf nestedSample ⟨"2"⟩ = .empty := by decide +kernel
    exact isEntry.unique ⟨place, bare.symm⟩
  have inner {entry : RangeEntry} (isEntry : IsEntry nestedSample ⟨"3"⟩ entry) :
      entry = ⟨⟨⟨0, 2⟩, ⟨0, 3⟩⟩, .empty⟩ := by
    have place : range? nestedSample ⟨"3"⟩ = some ⟨⟨0, 2⟩, ⟨0, 3⟩⟩ := by decide +kernel
    have bare : linksOf nestedSample ⟨"3"⟩ = .empty := by decide +kernel
    exact isEntry.unique ⟨place, bare.symm⟩
  obtain ⟨ids, perm, entries⟩ := exact.occurrences
  have sorted := exact.sorted
  have ranges : rangesIn nestedSample ⟨"1"⟩ = [⟨"2"⟩, ⟨"3"⟩] := by decide +kernel
  rw [ranges] at perm
  generalize cut.orderedRanges = listed at entries sorted
  rcases List.perm_pair.mp perm with rfl | rfl
  · rcases entries with _ | ⟨first, _ | ⟨second, _ | _⟩⟩
    rw [outer first, inner second]
  · -- the other order is not that of the starts
    rcases entries with _ | ⟨first, _ | ⟨second, _ | _⟩⟩
    rw [inner first, outer second] at sorted
    exact absurd sorted (by decide +kernel)

/-- In front of the name the call is found. -/
theorem unambiguous_found_iff_sample :
    ∃ dump cut, ofElements nestedSample = .ok dump ∧ dump.document? ⟨"1"⟩ = some cut ∧
      LiesIn nestedSample ⟨"1"⟩ ⟨0, 1⟩ ⟨"2"⟩ ⟨⟨0, 0⟩, ⟨0, 10⟩⟩ ∧
      cut.findRange? ⟨0, 1⟩ = some ⟨⟨⟨0, 0⟩, ⟨0, 10⟩⟩, .empty⟩ := by
  have readable : (ofElements nestedSample).isOk := by decide +kernel
  obtain ⟨dump, accepted⟩ := Success.isOk_iff.mp readable
  obtain ⟨cut, known⟩ := Option.isSome_iff_exists.mp
    ((document?_exact accepted ⟨"1"⟩).1.mpr (by decide +kernel))
  have lies := nestedSample_liesIn 1 (.inl rfl)
  have bare : linksOf nestedSample ⟨"2"⟩ = .empty := by decide +kernel
  refine ⟨dump, cut, accepted, known, lies, ?_⟩
  rw [← bare]
  apply (unambiguous_found_iff accepted known lies).2.2
  have ranges : rangesIn nestedSample ⟨"1"⟩ = [⟨"2"⟩, ⟨"3"⟩] := by decide +kernel
  have inner : range? nestedSample ⟨"3"⟩ = some ⟨⟨0, 2⟩, ⟨0, 3⟩⟩ := by decide +kernel
  rw [ranges]
  intro other listed different otherRange place _
  rcases List.mem_pair.mp listed with rfl | rfl
  · exact absurd rfl different
  · obtain rfl := Option.some.inj (inner.symm.trans place)
    decide +kernel

/-- Behind the name the call is missed: halving looks at the name first, and keeps to what follows
it. -/
theorem unambiguous_may_be_missed :
    ¬∀ (elements : List Element) (dump : Dump) (document : VertexId) (cut : Document)
      (position : Position) (id : VertexId) (range : Range),
      ofElements elements = .ok dump → dump.document? document = some cut →
      LiesIn elements document position id range →
      cut.findRange? position = some ⟨range, linksOf elements id⟩ := by
  intro found
  have readable : (ofElements nestedSample).isOk := by decide +kernel
  obtain ⟨dump, accepted⟩ := Success.isOk_iff.mp readable
  obtain ⟨cut, known⟩ := Option.isSome_iff_exists.mp
    ((document?_exact accepted ⟨"1"⟩).1.mpr (by decide +kernel))
  have listed := nestedSample_orderedRanges ((document?_exact accepted ⟨"1"⟩).2.2 cut known).1
  have here := found nestedSample dump ⟨"1"⟩ cut ⟨0, 5⟩ ⟨"2"⟩ ⟨⟨0, 0⟩, ⟨0, 10⟩⟩ accepted known
    (nestedSample_liesIn 5 (.inr rfl))
  have missed : cut.findRange? ⟨0, 5⟩ = none := by
    rw [Document.findRange?, listed]
    decide +kernel
  rw [missed] at here
  cases here

end Dump

end CodeNav
