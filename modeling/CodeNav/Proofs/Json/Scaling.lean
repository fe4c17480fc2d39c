/-
Module: CodeNav.Proofs.Json.Scaling
Purpose: Which significands scaled by a power of ten stay within the range of doubles.
Main exports:
  Json.Numeral.isFinite_scale, Json.Numeral.scale_isOk
-/
import CodeNav.Json.Numeral
import CodeNav.Proofs.Decimal.Rounding
import CodeNav.Proofs.Success

namespace CodeNav.Json.Numeral

open Float.Model Float.Model.UnpackedFloat
open Rounding

/-! ### Powers of ten -/

/-- What a table holds for a small power of ten is close to it. -/
def isNear (f : Float) (n : Nat) : Bool :=
  match f.toModel.unpack with
  | .finite .positive m e _ => 2 ^ 52 ≤ m && m < 2 ^ 53 && (n.log2 : Int) - 52 ≤ e &&
    e ≤ (n.log2 : Int) - 51 && m * 2 ^ (e + 52).toNat ≤ 2 ^ 52 * ceiling n
  | _ => false

theorem near_of_isNear {f : Float} {n : Nat} (near : isNear f n = true) : Near f n := by
  unfold isNear at near
  split at near
  · rename_i m e some unpacked
    simp only [Bool.and_eq_true, decide_eq_true_eq] at near
    obtain ⟨⟨⟨⟨low, high⟩, least⟩, most⟩, bound⟩ := near
    exact ⟨m, e, some, unpacked, low, high, least, most, bound⟩
  · cases near

theorem isNear_power : ∀ n ≤ 22, isNear (power n) (10 ^ n) = true := by
  decide +kernel

/-- An exponent up to which every word times a power of ten stays within the range, with room to
spare. -/
def freePower : Nat := 288

/-- How some powers of ten lie to the range. -/
theorem maxPower_spec : 10 ^ maxPower < limit ∧ (10 ^ maxPower).log2 = 1023 ∧
    greatestSafe < 10 ^ (maxPower + 1) ∧ 2 * capacity 64 * (2 * 10 ^ freePower) < limit := by
  decide +kernel

theorem ten_pow_lt_limit {n : Nat} (small : n ≤ maxPower) : 10 ^ n < limit :=
  Nat.lt_of_le_of_lt (Nat.pow_le_pow_right (by decide) small) maxPower_spec.1

/-- Every power of ten that has a double of its own is close to it. -/
theorem near_power {n : Nat} (small : n ≤ maxPower) : Near (power n) (10 ^ n) := by
  by_cases short : n ≤ 22
  · exact near_of_isNear (isNear_power n short)
  · have long : ¬ ((1 : Nat) < 2 ^ 53 ∧ n ≤ 22) := fun short' => short short'.2
    have digits : 53 ≤ (10 ^ n).log2 := by
      rw [Nat.le_log2 (Nat.ne_of_gt (Nat.pow_pos (by decide)))]
      exact Nat.le_trans (by decide) (Nat.pow_le_pow_right (by decide)
        (Nat.le_of_lt (Nat.lt_of_not_le short)))
    refine near_of_round (c := 53) (Nat.pow_pos (by decide)) (ten_pow_lt_limit small) (by omega) ?_
    have model := toModel_ofScientific (e := n) (Nat.one_ne_zero)
      (Nat.le_trans small (by decide)) long
    rwa [Nat.one_mul] at model

/-! ### Products -/

/-- Whether all significands of a length leave room for a power of ten, as far as they do not exceed
the greatest safe number together with it. -/
def leavesRoom (n t : Nat) : Bool :=
  let most := min (greatestSafe / 10 ^ n) (2 ^ (53 + t) - 1)
  0 < t && most < 2 ^ (52 + t) ||
    (2 * most + 2 ^ t) / 2 ^ (t + 1) * 2 ^ t * ceiling (10 ^ n) < limit

/-- Lesser powers are not looked at: they leave room for every word. -/
theorem leavesRoom_all :
    ∀ n ≤ maxPower, freePower < n → ∀ t < 12, leavesRoom n t = true := by
  decide +kernel

theorem ceiling_le (n : Nat) : ceiling n ≤ 2 * n := by
  rcases Nat.eq_zero_or_pos n with rfl | positive
  · exact Nat.le_of_eq (by decide)
  have place : 2 ^ (n.log2 - 52) ≤ n :=
    Nat.le_trans (Nat.pow_le_pow_right (by decide) (Nat.sub_le _ _))
      (Nat.log2_self_le (Nat.ne_of_gt positive))
  have most := Nat.div_mul_le_self (2 * n + 2 ^ (n.log2 - 52)) (2 ^ (n.log2 - 52 + 1))
  rw [Nat.pow_succ, ← Nat.mul_assoc] at most
  unfold ceiling
  rw [Nat.pow_succ]
  omega

/-- A word times a power of ten that is not among the greatest stays far within the range. -/
theorem ceiling_mul_lt_of_le {s n : Nat} (small : s < capacity 64) (low : n ≤ freePower) :
    ceiling s * ceiling (10 ^ n) < limit :=
  calc ceiling s * ceiling (10 ^ n)
      ≤ 2 * s * (2 * 10 ^ n) := Nat.mul_le_mul (ceiling_le s) (ceiling_le _)
    _ ≤ 2 * capacity 64 * (2 * 10 ^ freePower) :=
        Nat.mul_le_mul (Nat.mul_le_mul_left 2 (Nat.le_of_lt small))
          (Nat.mul_le_mul_left 2 (Nat.pow_le_pow_right (by decide) low))
    _ < limit := maxPower_spec.2.2.2

theorem ceiling_mul_lt {s n : Nat} (positive : 0 < s) (small : s < capacity 64)
    (inRange : n ≤ maxPower) (safe : s * 10 ^ n ≤ greatestSafe) :
    ceiling s * ceiling (10 ^ n) < limit := by
  rcases Nat.lt_or_ge freePower n with high | low
  case inr => exact ceiling_mul_lt_of_le small low
  have some : s ≠ 0 := Nat.ne_of_gt positive
  have size : s.log2 < 64 := (Nat.log2_lt some).mpr small
  have room := leavesRoom_all n inRange high (s.log2 - 52) (by omega)
  have fits : s ≤ min (greatestSafe / 10 ^ n) (2 ^ (53 + (s.log2 - 52)) - 1) := by
    refine Nat.le_min.mpr ⟨(Nat.le_div_iff_mul_le (Nat.pow_pos (by decide))).mpr safe, ?_⟩
    have above : s < 2 ^ (s.log2 + 1) := Nat.lt_log2_self
    have longer : 2 ^ (s.log2 + 1) ≤ 2 ^ (53 + (s.log2 - 52)) :=
      Nat.pow_le_pow_right (by decide) (by omega)
    omega
  have least (long : 0 < s.log2 - 52) : 2 ^ (52 + (s.log2 - 52)) ≤ s := by
    rw [show 52 + (s.log2 - 52) = s.log2 by omega]
    exact Nat.log2_self_le some
  unfold leavesRoom at room
  generalize min (greatestSafe / 10 ^ n) (2 ^ (53 + (s.log2 - 52)) - 1) = most at room fits
  simp only [Bool.or_eq_true, Bool.and_eq_true, decide_eq_true_eq] at room
  rcases room with ⟨long, few⟩ | room
  · exact absurd (Nat.le_trans (least long) fits) (Nat.not_le_of_lt few)
  · refine Nat.lt_of_le_of_lt (Nat.mul_le_mul_right _ ?_) room
    exact Nat.mul_le_mul_right _ (Nat.div_le_div_right (by omega))

/-- A product that is not above the greatest safe number stays within the range. -/
theorem isInf_mul_power {s n : Nat} (positive : 0 < s) (small : s < capacity 64)
    (inRange : n ≤ maxPower) (safe : s * 10 ^ n ≤ greatestSafe) :
    (Float.ofNat s * power n).isInf = false := by
  obtain ⟨m, e, model, long, whole, bound⟩ :=
    (near_ofNat positive small).mul (near_power inRange)
  have below : m * 2 ^ (e + (104 : Nat)).toNat < limit * 2 ^ 104 := by
    refine Nat.lt_of_le_of_lt bound ?_
    rw [Nat.mul_comm]
    exact Nat.mul_lt_mul_of_pos_right (ceiling_mul_lt positive small inRange safe)
      (Nat.two_pow_pos _)
  have digits := le_log2_of_two_pow_le long
  obtain ⟨r, f, some, rounds, fits⟩ := round_fits .positive
    (Nat.le_trans (by decide) long) (by omega) (by omega) below
  change (Float.ofNat s * power n).toModel.unpack.isInf = false
  rw [model, rounds, unpack_pack .positive some fits]
  rfl

/-! ### What is read is finite -/

theorem within_ofNat {s : Nat} (small : s < capacity 64) : Within (Float.ofNat s) 64 := by
  rcases Nat.eq_zero_or_pos s with rfl | positive
  · exact .inl ⟨.positive, rfl⟩
  · have size : s.log2 < 64 := (Nat.log2_lt (Nat.ne_of_gt positive)).mpr small
    obtain ⟨m, e, some, unpacked, low, high, _, most, _⟩ := near_ofNat positive small
    refine .inr ⟨.positive, m, e, some, unpacked, ?_⟩
    rw [digits_of_lead low high]
    omega

theorem unpack_zero_mul {n : Nat} (inRange : n ≤ maxPower) :
    (Float.ofNat 0 * power n).toModel.unpack = .zero .positive := by
  obtain ⟨m, e, some, unpacked, _⟩ := near_power inRange
  have zero : (Float.ofNat 0).toModel.unpack = .zero .positive := rfl
  rw [toModel_mul, zero, unpacked]
  exact unpack_pack_zero _

/-- A product that is not infinite is finite. -/
theorem isFinite_mul_power {s n : Nat} (small : s < capacity 64) (inRange : n ≤ maxPower)
    (noInf : (Float.ofNat s * power n).isInf = false) :
    (Float.ofNat s * power n).isFinite = true := by
  rcases Nat.eq_zero_or_pos s with rfl | positive
  · exact congrArg UnpackedFloat.isFinite (unpack_zero_mul inRange)
  · obtain ⟨m, e, model, long, whole, _⟩ := (near_ofNat positive small).mul (near_power inRange)
    have digits := le_log2_of_two_pow_le long
    exact isFinite_of_round (Nat.le_trans (by decide) long) (by omega) model noInf

theorem isFinite_divide {f : Float} (within : Within f 64) (n : Nat) :
    (divide f n).isFinite = true := by
  induction n using Nat.strongRecOn generalizing f with
  | ind n ih =>
      unfold divide
      by_cases inRange : n ≤ maxPower
      · obtain ⟨m, e, some, unpacked, low, high, least, _⟩ := near_power inRange
        rw [if_pos inRange]
        have great : (0 : Int) ≤ (m.log2 : Int) + e := by
          rw [digits_of_lead low high]
          omega
        exact (within.div unpacked great (by decide)).isFinite
      · rw [if_neg inRange]
        split
        · exact within.isFinite
        · obtain ⟨m, e, some, unpacked, low, high, least, _⟩ := near_power (Nat.le_refl maxPower)
          have great : (1023 : Int) ≤ (m.log2 : Int) + e := by
            rw [digits_of_lead low high]
            rw [maxPower_spec.2.1] at least
            omega
          exact ih (n - maxPower) (Nat.sub_lt (Nat.lt_of_not_le fun none =>
            inRange (Nat.le_trans none (Nat.zero_le _))) (by decide))
            ((within.div unpacked great (by decide)).mono (by decide))

theorem isFinite_signed {f : Float} (finite : f.isFinite = true) (negative : Bool) :
    (if negative then (Binary64.ofFloat f).neg else .ofFloat f).isFinite = true := by
  cases negative with
  | false => exact Binary64.isFinite_ofFloat finite
  | true => exact (Binary64.isFinite_neg _).trans (Binary64.isFinite_ofFloat finite)

/-- The double of a significand and an exponent, without a sign. -/
def scale (s : Nat) (e : Int) : Except Cause Float :=
  if 0 ≤ e then multiply (Float.ofNat s) e.toNat else .ok (divide (Float.ofNat s) e.natAbs)

theorem scaled_eq (negative : Bool) (s : Nat) (e : Int) :
    scaled negative s e = (scale s e).map fun f =>
      .real (if negative then (Binary64.ofFloat f).neg else .ofFloat f) := by
  unfold scaled scale
  by_cases upward : 0 ≤ e
  · simp only [if_pos upward]
    cases multiply (Float.ofNat s) e.toNat <;> rfl
  · simp only [if_neg upward]
    rfl

/-- What is scaled within the range is finite. -/
theorem isFinite_scale {s : Nat} {e : Int} {f : Float} (small : s < capacity 64)
    (scales : scale s e = .ok f) : f.isFinite = true := by
  unfold scale multiply at scales
  split at scales
  · split at scales
    · rename_i inRange
      dsimp only at scales
      split at scales
      · cases scales
      · cases scales
        exact isFinite_mul_power small inRange (Bool.eq_false_iff.mpr ‹_›)
    · split at scales
      · cases scales
        exact (within_ofNat small).isFinite
      · cases scales
  · cases scales
    exact isFinite_divide (within_ofNat small) _

theorem scaled_isFinite {negative : Bool} {s : Nat} {e : Int} (small : s < capacity 64)
    {number : Number} (read : scaled negative s e = .ok number) :
    ∃ x : Binary64, number = .real x ∧ x.isFinite = true := by
  rw [scaled_eq] at read
  obtain ⟨f, scales, rfl⟩ := Success.map_eq_ok.mp read
  exact ⟨_, rfl, isFinite_signed (isFinite_scale small scales) negative⟩

/-- What is not above the greatest safe number is scaled within the range. -/
theorem scale_isOk {s : Nat} {e : Int} (small : s < capacity 64)
    (safe : 0 ≤ e → s * 10 ^ e.toNat ≤ greatestSafe) : ∃ f, scale s e = .ok f := by
  unfold scale
  split
  · rename_i upward
    have bound := safe upward
    unfold multiply
    split
    · rename_i inRange
      have noInf : (Float.ofNat s * power e.toNat).isInf = false := by
        rcases Nat.eq_zero_or_pos s with rfl | positive
        · exact congrArg UnpackedFloat.isInf (unpack_zero_mul inRange)
        · exact isInf_mul_power positive small inRange bound
      dsimp only
      rw [noInf]
      exact ⟨_, rfl⟩
    · rename_i beyond
      have great : greatestSafe < 10 ^ e.toNat :=
        Nat.lt_of_lt_of_le maxPower_spec.2.2.1
          (Nat.pow_le_pow_right (by decide) (Nat.lt_of_not_le beyond))
      obtain rfl : s = 0 := by
        refine Nat.eq_zero_of_not_pos fun positive => ?_
        exact absurd (Nat.le_trans (Nat.le_mul_of_pos_left (10 ^ e.toNat) positive) bound)
          (Nat.not_le_of_lt great)
      exact ⟨_, rfl⟩
  · exact ⟨_, rfl⟩

end CodeNav.Json.Numeral
