/-
Module: CodeNav.Proofs.Decimal.Shortest
Purpose: The shortest decimals of doubles do not exceed what reads back to them.
Main exports:
  Decimal.AtMost, Decimal.stripZeros_atMost, Binary64.Magnitude.shortest_atMost
-/
import CodeNav.Decimal.Shortest
import CodeNav.Proofs.Decimal.Rounding

namespace CodeNav

namespace Decimal

/-! ### Bounds of decimals -/

/-- A decimal is at most some number. -/
def AtMost (d : Decimal) (bound : Nat) : Prop :=
  d.digits * 10 ^ d.exponent.toNat ≤ bound * 10 ^ (-d.exponent).toNat

/-- Exponents count by their difference only. -/
theorem mul_pow_le_iff {a b base up down : Nat} {e : Int} (positive : 0 < base)
    (same : (up : Int) - down = e) :
    a * base ^ up ≤ b * base ^ down ↔ a * base ^ e.toNat ≤ b * base ^ (-e).toNat := by
  obtain ⟨k, rfl⟩ : ∃ k, up = e.toNat + k := ⟨up - e.toNat, by omega⟩
  obtain rfl : down = (-e).toNat + k := by omega
  rw [Nat.pow_add, Nat.pow_add, ← Nat.mul_assoc, ← Nat.mul_assoc]
  exact Nat.mul_le_mul_right_iff (Nat.pow_pos positive)

/-- Trailing zeros count nothing. -/
theorem stripZeros_spec {bound : Nat} (fuel : Nat) {d : Decimal} (atMost : d.AtMost bound)
    (some : d.digits ≠ 0) :
    (stripZeros fuel d).AtMost bound ∧ (stripZeros fuel d).digits ≠ 0 ∧
      d.exponent ≤ (stripZeros fuel d).exponent := by
  induction fuel generalizing d with
  | zero => exact ⟨atMost, some, Int.le_refl _⟩
  | succ fuel ih =>
      unfold stripZeros
      split
      · rename_i strips
        simp only [Bool.and_eq_true, bne_iff_ne, beq_iff_eq] at strips
        have whole : d.digits / 10 * 10 = d.digits :=
          Nat.div_mul_cancel (Nat.dvd_of_mod_eq_zero strips.2)
        have next : (⟨d.digits / 10, d.exponent + 1⟩ : Decimal).AtMost bound := by
          unfold AtMost at atMost ⊢
          dsimp only
          have same :
              ((d.exponent.toNat + 1 : Nat) : Int) - (-d.exponent).toNat = d.exponent + 1 := by
            omega
          rw [← mul_pow_le_iff (by decide) same, Nat.pow_succ, Nat.mul_comm (10 ^ _) 10,
            ← Nat.mul_assoc, whole]
          exact atMost
        obtain ⟨atMost, some, later⟩ := ih next (by dsimp only; omega)
        exact ⟨atMost, some, Int.le_trans (Int.le_add_of_nonneg_right (by decide)) later⟩
      · exact ⟨atMost, some, Int.le_refl _⟩

end Decimal

namespace Binary64.Magnitude

variable {x : Magnitude} {bound : Nat} {tie : Decimal.Tie}

/-! ### What reads back -/

/-- The middle between a magnitude and the next one is at most some number. -/
def MiddleAtMost (x : Magnitude) (bound : Nat) : Prop :=
  (4 * x.m + 2) * 2 ^ (x.q - 2).toNat ≤ bound * 2 ^ (-(x.q - 2)).toNat

theorem atMost_of_readsBack {d : Decimal} (middle : x.MiddleAtMost bound)
    (reads : x.readsBack d = true) : d.AtMost bound := by
  have above : Decimal.compareScaled d.digits d.exponent (4 * x.m + 2) (x.q - 2) ≠ .gt := by
    intro greater
    simp [readsBack, greater] at reads
  have below : d.digits * 10 ^ d.exponent.toNat * 2 ^ (-(x.q - 2)).toNat ≤
      (4 * x.m + 2) * 2 ^ (x.q - 2).toNat * 10 ^ (-d.exponent).toNat := by
    refine Nat.le_of_not_lt fun less => above ?_
    exact Nat.compare_eq_gt.mpr less
  refine Nat.le_of_mul_le_mul_right (Nat.le_trans below ?_)
    (Nat.two_pow_pos (-(x.q - 2)).toNat)
  rw [Nat.mul_right_comm bound]
  exact Nat.mul_le_mul_right _ middle

/-! ### The shortest decimal -/

theorem candidate?_cases {exponent : Int} {d : Decimal}
    (found : x.candidate? tie exponent = some d) :
    d.digits ≠ 0 ∧ d.exponent = exponent ∧ x.readsBack d = true := by
  unfold candidate? at found
  dsimp only at found
  have low {n : Nat} (reads : (x.readsBack ⟨n, exponent⟩ && n != 0) = true)
      (same : (⟨n, exponent⟩ : Decimal) = d) :
      d.digits ≠ 0 ∧ d.exponent = exponent ∧ x.readsBack d = true := by
    subst same
    rw [Bool.and_eq_true, bne_iff_ne] at reads
    exact ⟨reads.2, rfl, reads.1⟩
  have high {n : Nat} (reads : x.readsBack ⟨n + 1, exponent⟩ = true)
      (same : (⟨n + 1, exponent⟩ : Decimal) = d) :
      d.digits ≠ 0 ∧ d.exponent = exponent ∧ x.readsBack d = true := by
    subst same
    exact ⟨Nat.succ_ne_zero n, rfl, reads⟩
  split at found
  · cases found
  · exact low ‹_› (Option.some.inj found)
  · exact high ‹_› (Option.some.inj found)
  · split at found
    · exact low ‹_› (Option.some.inj found)
    · exact high ‹_› (Option.some.inj found)
    · exact high ‹_› (Option.some.inj found)
    · split at found
      · exact low ‹_› (Option.some.inj found)
      · exact high ‹_› (Option.some.inj found)

theorem scaleEstimate_le_scale (x : Magnitude) : x.scaleEstimate - 1 ≤ x.scale := by
  unfold scale
  dsimp only
  generalize found : ((List.range 5).map fun (i : Nat) => x.scaleEstimate - 1 + (i : Int)).find? _ =
    step
  cases step with
  | none =>
      dsimp only [Option.getD]
      omega
  | some k =>
      obtain ⟨i, _, rfl⟩ := List.mem_map.mp (List.mem_of_find?_eq_some found)
      dsimp only [Option.getD]
      omega

/-- The shortest decimal does not exceed what reads back, is not zero, and has no exponent below
what doubles need. -/
theorem shortest_spec (tie : Decimal.Tie) (some : x.m ≠ 0) (low : -1074 ≤ x.q)
    (middle : x.MiddleAtMost bound) :
    (x.shortest tie).AtMost bound ∧ (x.shortest tie).digits ≠ 0 ∧
      -1100 ≤ (x.shortest tie).exponent := by
  unfold shortest
  dsimp only
  split
  · rename_i d found
    obtain ⟨n, few, candidate⟩ := List.exists_of_findSome?_eq_some found
    obtain ⟨digits, exponent, reads⟩ := candidate?_cases candidate
    obtain ⟨atMost, stripped, later⟩ :=
      Decimal.stripZeros_spec 20 (atMost_of_readsBack middle reads) digits
    have estimate := scaleEstimate_le_scale x
    have close := List.mem_range.mp few
    unfold scaleEstimate at estimate
    refine ⟨atMost, stripped, Int.le_trans ?_ later⟩
    omega
  · -- Without a short decimal the magnitude is written as it is.
    have exact : x.m * 2 ^ x.q.toNat ≤ bound * 2 ^ (-x.q).toNat := by
      have same : (x.q.toNat : Int) - ((-x.q).toNat + 2 : Nat) = x.q - 2 := by omega
      have doubled := (Decimal.mul_pow_le_iff (by decide) same).mpr middle
      rw [Nat.pow_add, ← Nat.mul_assoc, Nat.add_mul, Nat.mul_assoc 4] at doubled
      omega
    refine ⟨?_, ?_, ?_⟩
    · unfold Decimal.AtMost
      dsimp only
      have up : (min x.q 0).toNat = 0 := by omega
      have down : (-min x.q 0).toNat = (-x.q).toNat := by omega
      rw [up, down, Nat.pow_zero, Nat.mul_one, show 10 = 2 * 5 from rfl, Nat.mul_pow,
        ← Nat.mul_assoc]
      exact Nat.mul_le_mul_right _ exact
    · exact Nat.ne_of_gt (Nat.mul_pos (Nat.mul_pos (Nat.pos_of_ne_zero some)
        (Nat.pow_pos (by decide))) (Nat.pow_pos (by decide)))
    · dsimp only
      omega

end Binary64.Magnitude

/-! ### Magnitudes of doubles -/

namespace Binary64

theorem toNat_fields (x : Binary64) :
    x.exponentField = x.bits.toNat / 2 ^ 52 % 2 ^ 11 ∧ x.fractionField = x.bits.toNat % 2 ^ 52 := by
  constructor
  · unfold exponentField
    rw [UInt64.toNat_and, UInt64.toNat_shiftRight]
    exact (Nat.and_two_pow_sub_one_eq_mod _ 11).trans
      (congrArg (· % 2 ^ 11) (Nat.shiftRight_eq_div_pow ..))
  · unfold fractionField
    rw [UInt64.toNat_and]
    exact Nat.and_two_pow_sub_one_eq_mod _ 52

theorem isZero_of_fields {x : Binary64} (exponent : x.exponentField = 0)
    (fraction : x.fractionField = 0) : x.isZero = true := by
  obtain ⟨high, low⟩ := toNat_fields x
  unfold isZero
  rw [beq_iff_eq, ← UInt64.toNat_inj, UInt64.toNat_and]
  refine (Nat.and_two_pow_sub_one_eq_mod _ 63).trans ?_
  rw [show 2 ^ 63 = 2 ^ 52 * 2 ^ 11 from rfl, Nat.mod_mul, ← high, ← low, exponent, fraction]
  rfl

/-- The magnitude of a finite double: at most 53 digits, and an exponent in its range. -/
theorem magnitude_spec {x : Binary64} (finite : x.isFinite = true) :
    x.magnitude.m < 2 ^ 53 ∧ -1074 ≤ x.magnitude.q ∧ x.magnitude.q ≤ 971 ∧
      (x.isZero = false → x.magnitude.m ≠ 0) := by
  obtain ⟨high, low⟩ := toNat_fields x
  have exponent : x.exponentField < 2 ^ 11 := high ▸ Nat.mod_lt _ (by decide)
  have fraction : x.fractionField < 2 ^ 52 := low ▸ Nat.mod_lt _ (by decide)
  have notAll : x.exponentField ≠ 0x7FF := bne_iff_ne.mp finite
  have whole : capacity 52 = 2 ^ 52 := rfl
  unfold magnitude
  split
  · rename_i none
    refine ⟨?_, Int.le_refl _, (by dsimp only; decide), fun some zero => ?_⟩
    · dsimp only
      omega
    · rw [isZero_of_fields (beq_iff_eq.mp none) zero] at some
      cases some
  · rename_i some
    rw [beq_iff_eq] at some
    dsimp only
    rw [whole]
    omega

open Rounding (greatestSafe halfPlace)

/-- Only the greatest double is written with a decimal that may exceed what is safe to read. -/
theorem Magnitude.middleAtMost {x : Magnitude} (digits : x.m < 2 ^ 53) (high : x.q ≤ 971)
    (notGreatest : ¬ (x.m = 2 ^ 53 - 1 ∧ x.q = 971)) : x.MiddleAtMost greatestSafe := by
  have step {a e : Nat} (least : 4 * x.m + 2 ≤ (2 ^ 54 - 3) * 2 ^ a) (most : a + e ≤ halfPlace)
      (same : (x.q - 2).toNat = e) : x.MiddleAtMost greatestSafe := by
    unfold MiddleAtMost greatestSafe
    rw [same]
    calc (4 * x.m + 2) * 2 ^ e ≤ (2 ^ 54 - 3) * 2 ^ a * 2 ^ e := Nat.mul_le_mul_right _ least
      _ = (2 ^ 54 - 3) * 2 ^ (a + e) := by rw [Nat.mul_assoc, ← Nat.pow_add]
      _ ≤ (2 ^ 54 - 3) * 2 ^ halfPlace :=
          Nat.mul_le_mul_left _ (Nat.pow_le_pow_right (by decide) most)
      _ ≤ (2 ^ 54 - 3) * 2 ^ halfPlace * 2 ^ (-(x.q - 2)).toNat :=
          Nat.le_mul_of_pos_right _ (Nat.two_pow_pos _)
  unfold halfPlace at step
  by_cases top : x.q = 971
  · exact step (a := 1) (by omega) (by omega) rfl
  · exact step (a := 2) (by omega) (by omega) rfl

end Binary64

end CodeNav
