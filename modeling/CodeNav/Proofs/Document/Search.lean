/-
Module: CodeNav.Proofs.Document.Search
Purpose: Halving a document's ranges finds what looking at each of them finds.
Main exports:
  Search.bisect_eq, Search.Separated, Search.findRange?_eq_find?, Search.halving_agrees_with_scan,
  Document.findRange?_eq_scanRange?
-/
import CodeNav.Document.Search
import CodeNav.Proofs.Position
import Mathlib.Data.List.Chain

namespace CodeNav

namespace Search

/-- Halving ends at the last index that does not lie after. -/
theorem bisect_eq {isAfter : Nat → Bool} {base size last : Nat}
    (low : base ≤ last) (high : last < base + size)
    (parted : ∀ i, base ≤ i → i < base + size → (isAfter i = true ↔ last < i)) :
    bisect isAfter base size = last := by
  induction size using Nat.strong_induction_on generalizing base with
  | _ size ih =>
      rw [bisect]
      by_cases single : size ≤ 1
      · rw [if_pos single]
        omega
      · rw [if_neg single]
        have middle := parted (base + size / 2) (by omega) (by omega)
        by_cases after : isAfter (base + size / 2) = true
        · simp only [if_pos after]
          have before := middle.mp after
          exact ih _ (by omega) low (by omega) fun i _ _ => parted i (by omega) (by omega)
        · simp only [if_neg after]
          have reached : ¬last < base + size / 2 := fun before => after (middle.mpr before)
          exact ih _ (by omega) (by omega) (by omega) fun i _ _ => parted i (by omega) (by omega)

/-- The entries as they lie around a position: those before it, then at most one with the position
in it, then those after. -/
def Ordered (entries : List RangeEntry) (position : Position) : Prop :=
  entries.Pairwise fun entry later =>
    entry.range.compare position ≠ .lt → later.range.compare position = .gt

section Ordered

variable {entries : List RangeEntry} {position : Position}

theorem Ordered.getElem (ordered : Ordered entries position) {i j : Nat}
    (first : i < entries.length) (second : j < entries.length) (before : i < j)
    (reached : entries[i].range.compare position ≠ .lt) :
    entries[j].range.compare position = .gt :=
  List.pairwise_iff_getElem.mp ordered i j first second before reached

theorem Ordered.eq_of_contains (ordered : Ordered entries position) {i j : Nat}
    (first : i < entries.length) (second : j < entries.length)
    (here : entries[i].range.contains position = true)
    (there : entries[j].range.contains position = true) : i = j := by
  have atFirst := Range.compare_eq_iff.mpr here
  have atSecond := Range.compare_eq_iff.mpr there
  rcases Nat.lt_trichotomy i j with before | same | before
  · have after := ordered.getElem first second before (by simp [atFirst])
    simp [after] at atSecond
  · exact same
  · have after := ordered.getElem second first before (by simp [atSecond])
    simp [after] at atFirst

/-- Seen from the entry with the position in it, the entries after are those that follow. -/
theorem Ordered.after_iff (ordered : Ordered entries position) {last i : Nat}
    (high : last < entries.length) (inside : i < entries.length)
    (here : entries[last].range.compare position = .eq) :
    entries[i].range.compare position = .gt ↔ last < i := by
  constructor
  · intro after
    by_contra early
    rcases Nat.lt_or_eq_of_le (Nat.le_of_not_lt early) with before | rfl
    · have passed := ordered.getElem inside high before (by simp [after])
      simp [passed] at here
    · simp [after] at here
  · intro follows
    exact ordered.getElem high inside follows (by simp [here])

theorem findRange?_eq_some {entry : RangeEntry}
    (found : findRange? entries.toArray position = some entry) :
    entry ∈ entries ∧ entry.range.contains position = true := by
  simp only [findRange?, List.getElem?_toArray, Option.bind_eq_bind, Option.bind_eq_some_iff,
    Option.ite_none_right_eq_some, Option.some.injEq, beq_iff_eq] at found
  obtain ⟨entry, listed, within, rfl⟩ := found
  exact ⟨List.mem_of_getElem? listed, Range.compare_eq_iff.mp within⟩

/-- Halving finds what a scan finds. -/
theorem findRange?_eq_find? (ordered : Ordered entries position) :
    findRange? entries.toArray position =
      entries.find? fun entry => entry.range.contains position := by
  cases scanned : entries.find? fun entry => entry.range.contains position with
  | none =>
      have outside := List.find?_eq_none.mp scanned
      cases found : findRange? entries.toArray position with
      | none => rfl
      | some entry =>
          have ⟨member, within⟩ := findRange?_eq_some found
          exact absurd within (outside entry member)
  | some entry =>
      obtain ⟨within, last, high, rfl, -⟩ := List.find?_eq_some_iff_getElem.mp scanned
      have here := Range.compare_eq_iff.mpr within
      let isAfter (i : Nat) : Bool :=
        (entries[i]?).any fun entry => entry.range.compare position == .gt
      have kept : bisect isAfter 0 entries.length = last := by
        apply bisect_eq (Nat.zero_le last) (by omega)
        intro i _ inside
        have inside : i < entries.length := by omega
        simpa [isAfter, inside] using ordered.after_iff high inside here
      simp only [findRange?, List.getElem?_toArray, List.size_toArray]
      change (entries[bisect isAfter 0 entries.length]?.bind fun entry => _) = _
      simp [kept, high, here]

end Ordered

/-- Ranges that run forward, one after the other, with nothing in common. -/
structure Separated (entries : List RangeEntry) : Prop where
  forward : ∀ entry ∈ entries, entry.range.start.le entry.range.stop = true
  apart : entries.IsChain fun entry next => compare entry.range.stop next.range.start = .lt

namespace Separated

variable {entries : List RangeEntry}

theorem runs (separated : Separated entries) {entry : RangeEntry} (member : entry ∈ entries) :
    entry.range.start.rank ≤ entry.range.stop.rank :=
  Position.le_iff.mp (separated.forward entry member)

theorem tail {entry : RangeEntry} (separated : Separated (entry :: entries)) :
    Separated entries :=
  ⟨fun e member => separated.forward e (List.mem_cons_of_mem _ member), separated.apart.tail⟩

/-- An entry ends before any later one starts, not only before the next. -/
theorem pairwise (separated : Separated entries) :
    entries.Pairwise fun entry later => entry.range.stop.rank < later.range.start.rank := by
  induction entries with
  | nil => exact .nil
  | cons entry rest ih =>
      have onward := ih separated.tail
      refine .cons (fun later member => ?_) onward
      cases rest with
      | nil => cases member
      | cons next more =>
          have step : entry.range.stop.rank < next.range.start.rank :=
            Position.lt_iff.mp (List.isChain_cons_cons.mp separated.apart).1
          rcases List.mem_cons.mp member with rfl | member
          · exact step
          · have runs : next.range.start.rank ≤ next.range.stop.rank :=
              separated.tail.runs List.mem_cons_self
            have further := List.rel_of_pairwise_cons onward member
            omega

theorem ordered (separated : Separated entries) (position : Position) :
    Ordered entries position := by
  apply separated.pairwise.imp_of_mem
  intro entry later member listed apart
  exact Range.compare_later (separated.runs member) apart (separated.runs listed)

end Separated

/-- Comparing finds a position in exactly the ranges that contain it.  Where ranges run forward
with nothing in common, halving finds the first one that contains the position, and there is no
other. -/
theorem halving_agrees_with_scan :
    (∀ (range : Range) (position : Position),
      range.compare position = .eq ↔ range.contains position = true) ∧
    ∀ (entries : List RangeEntry), Separated entries → ∀ position : Position,
      findRange? entries.toArray position =
        entries.find? (fun entry => entry.range.contains position) ∧
      ∀ (i j : Nat) (first : i < entries.length) (second : j < entries.length),
        entries[i].range.contains position = true → entries[j].range.contains position = true →
          i = j := by
  refine ⟨fun _ _ => Range.compare_eq_iff, fun entries separated position => ?_⟩
  have ordered := separated.ordered position
  exact ⟨findRange?_eq_find? ordered, fun i j first second => ordered.eq_of_contains first second⟩

/-- A range over three lines, an empty one on the line where it ends, and one on the next line. -/
def separatedSample : List RangeEntry :=
  [⟨⟨⟨0, 4⟩, ⟨2, 1⟩⟩, .empty⟩, ⟨⟨⟨2, 2⟩, ⟨2, 2⟩⟩, .empty⟩, ⟨⟨⟨3, 0⟩, ⟨3, 5⟩⟩, .empty⟩]

theorem separated_separatedSample : Separated separatedSample :=
  ⟨by decide +kernel, by decide +kernel⟩

theorem halving_agrees_with_scan_sample :
    Separated separatedSample ∧
    findRange? separatedSample.toArray ⟨1, 90⟩ = some ⟨⟨⟨0, 4⟩, ⟨2, 1⟩⟩, .empty⟩ ∧
    findRange? separatedSample.toArray ⟨2, 2⟩ = some ⟨⟨⟨2, 2⟩, ⟨2, 2⟩⟩, .empty⟩ ∧
    findRange? separatedSample.toArray ⟨2, 3⟩ = none := by
  have agrees := halving_agrees_with_scan.2 separatedSample separated_separatedSample
  refine ⟨separated_separatedSample, ?_, ?_, ?_⟩
  · exact (agrees ⟨1, 90⟩).1.trans (by decide +kernel)
  · exact (agrees ⟨2, 2⟩).1.trans (by decide +kernel)
  · exact (agrees ⟨2, 3⟩).1.trans (by decide +kernel)

-- Where one range lies within another, halving can settle on the inner one and miss the outer.
example :
    let entries : List RangeEntry :=
      [⟨⟨⟨0, 0⟩, ⟨0, 10⟩⟩, .empty⟩, ⟨⟨⟨0, 2⟩, ⟨0, 3⟩⟩, .empty⟩]
    findRange? entries.toArray ⟨0, 5⟩ = none ∧
      (entries.find? fun entry => entry.range.contains ⟨0, 5⟩) = entries[0]? := by
  decide +kernel

end Search

namespace Document

theorem findRange?_eq_scanRange? {document : Document}
    (separated : Search.Separated document.orderedRanges) (position : Position) :
    document.findRange? position = document.scanRange? position :=
  Search.findRange?_eq_find? (separated.ordered position)

end Document

end CodeNav
