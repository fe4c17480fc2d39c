/-
Module: CodeNav.Proofs.Position
Purpose: Positions stand in a row, and comparing a range with a position is a matter of that row.
Main exports:
  Position.rank, Position.compare_eq, Range.contains_iff, Range.compare_eq_iff, Range.isLE_order_iff
-/
import CodeNav.Position
import Mathlib.Data.Nat.Basic
import Mathlib.Tactic.Cases

namespace CodeNav

theorem isLE_then_compare {a b c d : Nat} :
    ((compare a b).then (compare c d)).isLE = true ↔ a < b ∨ a = b ∧ c ≤ d := by
  rcases Nat.lt_trichotomy a b with before | same | behind
  · simp [Nat.compare_eq_lt.mpr before, before]
  · simp [same, Nat.isLE_compare]
  · simp [Nat.compare_eq_gt.mpr behind]
    omega

namespace Position

/-- The place of a position among all positions. -/
def rank (position : Position) : Nat :=
  position.line.toNat * capacity 32 + position.character.toNat

theorem rank_eq (position : Position) :
    position.rank = position.line.toNat * 4294967296 + position.character.toNat :=
  rfl

theorem compare_eq (a b : Position) : compare a b = compare a.rank b.rank := by
  have aLow := a.character.toNat_lt
  have bLow := b.character.toNat_lt
  change (compare a.line b.line).then (compare a.character b.character) = _
  simp only [rank_eq, compare, compareOfLessAndEq, UInt32.lt_iff_toNat_lt, ← UInt32.toNat_inj]
  split <;> split <;> simp <;> grind

theorem le_iff {a b : Position} : a.le b = true ↔ a.rank ≤ b.rank := by
  rw [le, compare_eq, Nat.isLE_compare]

theorem lt_iff {a b : Position} : compare a b = .lt ↔ a.rank < b.rank := by
  rw [compare_eq, Nat.compare_eq_lt]

end Position

namespace Range

theorem contains_iff {range : Range} {position : Position} :
    range.contains position = true ↔
      range.start.rank ≤ position.rank ∧ position.rank ≤ range.stop.rank := by
  rw [contains, Bool.and_eq_true, Position.le_iff, Position.le_iff]

/-- What the comparison says is so, whichever way round the range is. -/
theorem compare_cases (range : Range) (position : Position) :
    range.compare position = .gt ∧ position.rank < range.start.rank ∨
    range.compare position = .lt ∧ range.stop.rank < position.rank ∨
    range.compare position = .eq ∧ range.contains position = true := by
  have low := position.character.toNat_lt
  have startLow := range.start.character.toNat_lt
  have stopLow := range.stop.character.toNat_lt
  rw [contains_iff]
  unfold compare
  simp only [Position.rank_eq, UInt32.lt_iff_toNat_lt, ← UInt32.toNat_inj]
  -- Characters only matter on a boundary line; elsewhere the lines decide the row alone.
  split
  · exact .inl ⟨rfl, by omega⟩
  split
  · exact .inr (.inl ⟨rfl, by omega⟩)
  split
  · exact .inl ⟨rfl, by omega⟩
  split
  · exact .inr (.inl ⟨rfl, by omega⟩)
  · exact .inr (.inr ⟨rfl, by omega, by omega⟩)

theorem compare_eq_iff {range : Range} {position : Position} :
    range.compare position = .eq ↔ range.contains position = true := by
  have cases := range.compare_cases position
  rw [contains_iff] at cases ⊢
  grind

/-- Going along ranges that run forward with nothing in common, a position that has been reached
is left behind. -/
theorem compare_later {range later : Range} {position : Position}
    (runs : range.start.rank ≤ range.stop.rank) (apart : range.stop.rank < later.start.rank)
    (runsLater : later.start.rank ≤ later.stop.rank) (reached : range.compare position ≠ .lt) :
    later.compare position = .gt := by
  have here := range.compare_cases position
  have there := later.compare_cases position
  rw [contains_iff] at here there
  grind

theorem order_eq (a b : Range) :
    a.order b =
      (Ord.compare a.start.rank b.start.rank).then (Ord.compare a.stop.rank b.stop.rank) := by
  rw [order, Position.compare_eq, Position.compare_eq]

theorem isLE_order_iff {a b : Range} :
    (a.order b).isLE = true ↔
      a.start.rank < b.start.rank ∨
        a.start.rank = b.start.rank ∧ a.stop.rank ≤ b.stop.rank := by
  rw [order_eq, isLE_then_compare]

end Range

end CodeNav
