/-
Module: CodeNav.Proofs.Decimal.Rounding
Purpose: How operations on machine floats round, as far as the range of doubles depends on it.
Main exports:
  Rounding.round_eq, Rounding.unpack_pack, Rounding.near_of_round, Rounding.Within.div,
  Binary64.isFinite_ofFloat
-/
import CodeNav.Decimal.Binary64
import Mathlib.Algebra.Group.Nat.Defs

namespace CodeNav.Rounding

open Float.Model Float.Model.UnpackedFloat
open Float.Model.UnpackedFloat.ExtendedMantissa (ofMantissaAndAccuracy)

/-! ### Shifted mantissas -/

theorem shiftRight_succ (em : ExtendedMantissa) (k : Nat) :
    em >>> (k + 1) = (em >>> k).shiftRightOne :=
  rfl

theorem mantissa_shiftRight (em : ExtendedMantissa) (k : Nat) :
    (em >>> k).mantissa = em.mantissa / 2 ^ k := by
  induction k with
  | zero => exact (Nat.div_one _).symm
  | succ k ih =>
      rw [shiftRight_succ]
      change (em >>> k).mantissa / 2 = _
      rw [ih, Nat.div_div_eq_div_mul, Nat.pow_succ]

theorem mantissa_le_rounded (em : ExtendedMantissa) : em.mantissa ≤ em.roundedMantissa := by
  obtain ⟨m, round, sticky⟩ := em
  cases round <;> cases sticky <;>
    simp [ExtendedMantissa.roundedMantissa, ExtendedMantissa.accuracy, Accuracy.roundToNearestEven]

/-- Only half of the last place or more is rounded up. -/
theorem rounded_le_mantissa (em : ExtendedMantissa) :
    em.roundedMantissa ≤ em.mantissa + em.roundBit.toNat := by
  obtain ⟨m, round, sticky⟩ := em
  cases round <;> cases sticky <;>
    simp [ExtendedMantissa.roundedMantissa, ExtendedMantissa.accuracy, Accuracy.roundToNearestEven]
  omega

/-- What is cut off an exact mantissa is rounded up by half of the last place at most. -/
theorem rounded_le (m k : Nat) :
    2 * ((⟨m, false, false⟩ : ExtendedMantissa) >>> k).roundedMantissa * 2 ^ k ≤
      2 * m + 2 ^ k := by
  have rounded := rounded_le_mantissa ((⟨m, false, false⟩ : ExtendedMantissa) >>> k)
  rw [mantissa_shiftRight] at rounded
  dsimp only at rounded
  refine Nat.le_trans (Nat.mul_le_mul_right _ (Nat.mul_le_mul_left 2 rounded)) ?_
  have whole := Nat.div_add_mod m (2 ^ k)
  cases k with
  | zero =>
      change 2 * (m / 1 + 0) * 1 ≤ _
      omega
  | succ k =>
      have bit : ((⟨m, false, false⟩ : ExtendedMantissa) >>> (k + 1)).roundBit =
          (m / 2 ^ k % 2 != 0) := by
        rw [shiftRight_succ]
        change (((⟨m, false, false⟩ : ExtendedMantissa) >>> k).mantissa % 2 != 0) = _
        rw [mantissa_shiftRight]
      rw [bit]
      -- The bit that decides is the first of those that are cut off.
      have cut : m % 2 ^ (k + 1) = m % 2 ^ k + 2 ^ k * (m / 2 ^ k % 2) := by
        rw [Nat.pow_succ, Nat.mod_mul]
      have double : 2 ^ (k + 1) = 2 * 2 ^ k := by rw [Nat.pow_succ, Nat.mul_comm]
      generalize m / 2 ^ (k + 1) = front at *
      rcases Nat.mod_two_eq_zero_or_one (m / 2 ^ k) with even | odd
      · rw [even] at cut ⊢
        change 2 * (front + 0) * 2 ^ (k + 1) ≤ _
        grind
      · rw [odd] at cut ⊢
        change 2 * (front + 1) * 2 ^ (k + 1) ≤ _
        grind

/-! ### Rounding -/

/-- Where the last binary digit of a double of some magnitude stands. -/
def place (m : Nat) (e : Int) : Int :=
  max ((m.log2 : Int) + e - 52) (-1074)

theorem targetExponent_eq (m : Nat) (e : Int) :
    Format.binary64.targetExponent (totalExponent m e) = place m e := by
  change max ((m.log2 : Int) + 1 + e - 53) (-1074) = _
  unfold place
  omega

theorem shiftToTargetExponent_eq (m : Nat) (e : Int) (accuracy : Accuracy) :
    shiftToTargetExponent Format.binary64 m e accuracy =
      (ofMantissaAndAccuracy m accuracy >>> (place m e - e).toNat,
        e + ((place m e - e).toNat : Nat)) := by
  unfold shiftToTargetExponent
  rw [targetExponent_eq]
  rfl

theorem mantissa_ofMantissaAndAccuracy (m : Nat) (accuracy : Accuracy) :
    (ofMantissaAndAccuracy m accuracy).mantissa = m := by
  unfold ofMantissaAndAccuracy
  split <;> rfl

/-- The mantissa that a magnitude is rounded to. -/
def rounded (m : Nat) (e : Int) (accuracy : Accuracy) : Nat :=
  (ofMantissaAndAccuracy m accuracy >>> (place m e - e).toNat).roundedMantissa

theorem rounded_le_two_pow (m : Nat) (e : Int) (accuracy : Accuracy) :
    rounded m e accuracy ≤ 2 ^ 53 := by
  have bound := rounded_le_mantissa (ofMantissaAndAccuracy m accuracy >>> (place m e - e).toNat)
  rw [mantissa_shiftRight, mantissa_ofMantissaAndAccuracy] at bound
  have small : m / 2 ^ (place m e - e).toNat < 2 ^ 53 := by
    rw [Nat.div_lt_iff_lt_mul (Nat.two_pow_pos _), ← Nat.pow_add]
    refine Nat.lt_of_lt_of_le Nat.lt_log2_self (Nat.pow_le_pow_right (by decide) ?_)
    unfold place
    omega
  have bit := Bool.toNat_le (ofMantissaAndAccuracy m accuracy >>> (place m e - e).toNat).roundBit
  exact Nat.le_trans bound (by omega)

/-- A mantissa that fits is left as it is. -/
theorem shiftToTargetExponent_of_lt {m : Nat} {e : Int} (small : m < 2 ^ 53) (low : -1074 ≤ e) :
    shiftToTargetExponent Format.binary64 m e .exact = (⟨m, false, false⟩, e) := by
  have digits : m.log2 ≤ 52 := by
    rcases Nat.eq_zero_or_pos m with rfl | positive
    · decide
    · exact Nat.le_of_lt_succ ((Nat.log2_lt (Nat.ne_of_gt positive)).mpr small)
  have none : (place m e - e).toNat = 0 := by
    unfold place
    omega
  rw [shiftToTargetExponent_eq, none]
  simp [ofMantissaAndAccuracy, HShiftRight.hShiftRight, Nat.repeat]

/-- A mantissa that has become one digit too long is halved. -/
theorem shiftToTargetExponent_two_pow {e : Int} (low : -1074 ≤ e) :
    shiftToTargetExponent Format.binary64 (2 ^ 53) e .exact =
      (⟨2 ^ 52, false, false⟩, e + 1) := by
  have one : (place (2 ^ 53) e - e).toNat = 1 := by
    unfold place
    rw [Nat.log2_two_pow]
    omega
  rw [shiftToTargetExponent_eq, one]
  rfl

/-- The number of a shifted mantissa. -/
def ofShifted (sign : Sign) (shifted : ExtendedMantissa × Int) : UnpackedFloat :=
  if zero : shifted.1.mantissa = 0 then .zero sign
  else .finite sign shifted.1.mantissa shifted.2 (Nat.pos_of_ne_zero zero)

theorem ofShifted_of_pos (sign : Sign) {m : Nat} (e : Int) (positive : 0 < m) :
    ofShifted sign (⟨m, false, false⟩, e) = .finite sign m e positive :=
  dif_neg (Nat.ne_of_gt positive)

theorem round_eq_ofShifted (sign : Sign) (m : Nat) (e : Int) (accuracy : Accuracy) :
    roundWithAccuracy Format.binary64 sign m e accuracy =
      ofShifted sign (shiftToTargetExponent Format.binary64 (rounded m e accuracy)
        (e + ((place m e - e).toNat : Nat)) .exact) := by
  unfold roundWithAccuracy rounded
  rw [shiftToTargetExponent_eq]
  rfl

/-- What a magnitude is rounded to. -/
theorem round_eq (sign : Sign) (m : Nat) (e : Int) (accuracy : Accuracy) :
    roundWithAccuracy Format.binary64 sign m e accuracy =
      if zero : rounded m e accuracy = 0 then .zero sign
      else if rounded m e accuracy < 2 ^ 53 then
        .finite sign (rounded m e accuracy) (e + ((place m e - e).toNat : Nat))
          (Nat.pos_of_ne_zero zero)
      else .finite sign (2 ^ 52) (e + ((place m e - e).toNat : Nat) + 1) (by decide) := by
  have low : -1074 ≤ e + ((place m e - e).toNat : Nat) := by
    unfold place
    omega
  have bound := rounded_le_two_pow m e accuracy
  rw [round_eq_ofShifted]
  generalize rounded m e accuracy = r at *
  by_cases small : r < 2 ^ 53
  · rw [shiftToTargetExponent_of_lt small low, ofShifted]
    exact dite_congr rfl (fun _ => rfl) fun _ => (if_pos small).symm
  · obtain rfl : r = 2 ^ 53 := Nat.le_antisymm bound (Nat.le_of_not_lt small)
    rw [shiftToTargetExponent_two_pow low]
    rfl

/-! ### Packing -/

/-- A mantissa and an exponent that a double can hold. -/
structure Fits (m : Nat) (e : Int) : Prop where
  high : e ≤ 971
  lead : 2 ^ 52 ≤ m ∧ m < 2 ^ 53 ∧ -1074 ≤ e ∨ m < 2 ^ 52 ∧ e = -1074

theorem unpackSign_packComponents (sign : Sign) (exponent : BitVec 11) (m : BitVec 52) :
    Sign.ofBitVec (unpackSign (packComponents Format.binary64 sign exponent m)) = sign := by
  have bit : unpackSign (packComponents Format.binary64 sign exponent m) = sign.toBitVec := by
    apply BitVec.eq_of_getLsbD_eq
    intro i bound
    obtain rfl : i = 0 := by omega
    change (BitVec.extractLsb' 63 1 (sign.toBitVec ++ exponent ++ m)).getLsbD 0 = _
    rw [BitVec.getLsbD_extractLsb', BitVec.getLsbD_append, BitVec.getLsbD_append]
    rfl
  rw [bit]
  cases sign <;> rfl

/-- The number of packed components. -/
theorem unpack_packComponents (sign : Sign) (exponent : BitVec 11) (m : BitVec 52)
    (finite : exponent ≠ -1#11) :
    UnpackedFloat.unpack Format.binary64 (packComponents Format.binary64 sign exponent m) =
      ofShifted sign (if exponent = 0#11 then (⟨m.toNat, false, false⟩, -1074)
        else (⟨2 ^ 52 + m.toNat, false, false⟩, (exponent.toNat : Int) - 1075)) := by
  have signs := unpackSign_packComponents sign exponent m
  have exponents : unpackExponent (packComponents Format.binary64 sign exponent m) = exponent :=
    unpackExponent_packComponents ..
  have mantissas : unpackMantissa (packComponents Format.binary64 sign exponent m) = m :=
    unpackMantissa_packComponents ..
  unfold UnpackedFloat.unpack
  rw [if_neg fun all => finite (exponents.symm.trans all)]
  by_cases bottom : exponent = 0#11
  · rw [if_pos (exponents.trans bottom), if_pos bottom]
    by_cases none : m = 0#52
    · rw [dif_pos (mantissas.trans none), signs, none]
      rfl
    · have some : 0 < m.toNat := Nat.pos_of_ne_zero fun zero => none (BitVec.eq_of_toNat_eq zero)
      rw [dif_neg fun zero => none (mantissas.symm.trans zero), ofShifted_of_pos sign _ some]
      refine (UnpackedFloat.finite.injEq ..).mpr ⟨signs, congrArg BitVec.toNat mantissas, ?_⟩
      exact congrArg (fun e : BitVec 11 => (e.toNat : Int) - 1075 + 1) (exponents.trans bottom)
  · rw [if_neg fun zero => bottom (exponents.symm.trans zero), if_neg bottom,
      ofShifted_of_pos sign _ (Nat.add_pos_left (by decide) _)]
    refine (UnpackedFloat.finite.injEq ..).mpr ⟨signs, ?_,
      congrArg (fun e : BitVec 11 => (e.toNat : Int) - 1075) exponents⟩
    rw [mantissas, BitVec.toNat_append, ← Nat.shiftLeft_add_eq_or_of_lt m.isLt]
    rfl

/-- What fits is packed without loss. -/
theorem unpack_pack (sign : Sign) {m : Nat} {e : Int} (positive : 0 < m) (fits : Fits m e) :
    (Float.Model.pack (.finite sign m e positive)).unpack = .finite sign m e positive := by
  have some : m ≠ 0 := Nat.ne_of_gt positive
  change UnpackedFloat.unpack Format.binary64 (if 2 ^ 11 ≤ (e + 1023 + 52).toNat + 1 then _ else
    if m.log2 + 1 = 53 then packComponents Format.binary64 sign
      (BitVec.ofNat 11 (e + 1023 + 52).toNat) (BitVec.ofNat 52 m)
    else packComponents Format.binary64 sign 0#11 (BitVec.ofNat 52 m)) = _
  obtain ⟨high, ⟨low, small, bottom⟩ | ⟨small, rfl⟩⟩ := fits
  · obtain ⟨field, same⟩ : ∃ field : Nat, e + 1023 + 52 = field :=
      Int.eq_ofNat_of_zero_le (by omega)
    have exponent : (BitVec.ofNat 11 field).toNat = field := by
      rw [BitVec.toNat_ofNat, Nat.mod_eq_of_lt (by omega)]
    have whole : 2 ^ 52 + (BitVec.ofNat 52 m).toNat = m := by
      rw [BitVec.toNat_ofNat]
      omega
    have digits : m.log2 = 52 := (Nat.log2_eq_iff some).mpr ⟨low, small⟩
    rw [same, Int.toNat_natCast, if_neg (by omega), if_pos (by omega), unpack_packComponents,
      if_neg, whole, exponent, ofShifted_of_pos sign _ positive]
    · refine (UnpackedFloat.finite.injEq ..).mpr ⟨rfl, rfl, ?_⟩
      omega
    · intro none
      have : field = 0 := exponent.symm.trans (congrArg BitVec.toNat none)
      omega
    · intro all
      have : field = 2047 := exponent.symm.trans (congrArg BitVec.toNat all)
      omega
  · have digits : m.log2 < 52 := (Nat.log2_lt some).mpr small
    have whole : (BitVec.ofNat 52 m).toNat = m := by
      rw [BitVec.toNat_ofNat, Nat.mod_eq_of_lt small]
    rw [if_neg (by decide), if_neg (by omega), unpack_packComponents _ _ _ (by decide), if_pos rfl,
      whole, ofShifted_of_pos sign _ positive]

/-- What is too great is packed as infinite. -/
theorem unpack_pack_overflow (sign : Sign) {m : Nat} {e : Int} (positive : 0 < m)
    (great : 971 < e) :
    (Float.Model.pack (.finite sign m e positive)).unpack = .infinity sign := by
  change UnpackedFloat.unpack Format.binary64 (if 2 ^ 11 ≤ (e + 1023 + 52).toNat + 1 then
    packedInfinity Format.binary64 sign else _) = _
  rw [if_pos (by omega)]
  cases sign <;> rfl

theorem unpack_pack_zero (sign : Sign) : (Float.Model.pack (.zero sign)).unpack = .zero sign := by
  cases sign <;> rfl

/-! ### Exact magnitudes -/

/-- A magnitude with digits enough is rounded to as many digits as a double has. -/
theorem round_long (sign : Sign) {m : Nat} {e : Int} (long : 2 ^ 52 ≤ m)
    (low : -1022 ≤ (m.log2 : Int) + e) :
    ∃ r, 2 * r * 2 ^ (m.log2 - 52) ≤ 2 * m + 2 ^ (m.log2 - 52) ∧ 2 ^ 52 ≤ r ∧
      ((∃ positive, roundWithAccuracy Format.binary64 sign m e .exact =
        .finite sign r (m.log2 + e - 52) positive) ∧ r < 2 ^ 53 ∨
      r = 2 ^ 53 ∧ ∃ positive, roundWithAccuracy Format.binary64 sign m e .exact =
        .finite sign (2 ^ 52) (m.log2 + e - 51) positive) := by
  have some : m ≠ 0 := Nat.ne_of_gt (Nat.lt_of_lt_of_le (by decide) long)
  have digits : 52 ≤ m.log2 := (Nat.le_log2 some).mpr long
  have count : (place m e - e).toNat = m.log2 - 52 := by
    unfold place
    omega
  have shifted : e + ((m.log2 - 52 : Nat) : Int) = m.log2 + e - 52 := by omega
  have bound := rounded_le m (m.log2 - 52)
  have least : 2 ^ 52 ≤ rounded m e .exact := by
    refine Nat.le_trans ?_ (mantissa_le_rounded _)
    rw [mantissa_shiftRight, mantissa_ofMantissaAndAccuracy, count,
      Nat.le_div_iff_mul_le (Nat.two_pow_pos _), ← Nat.pow_add, Nat.add_sub_cancel' digits]
    exact Nat.log2_self_le some
  have same : rounded m e .exact =
      ((⟨m, false, false⟩ : ExtendedMantissa) >>> (m.log2 - 52)).roundedMantissa := by
    unfold rounded
    rw [count]
    rfl
  have most := rounded_le_two_pow m e .exact
  have rounds := round_eq sign m e .exact
  rw [← same] at bound
  rw [count, shifted] at rounds
  refine ⟨rounded m e .exact, bound, least, ?_⟩
  generalize rounded m e .exact = r at *
  have positive : r ≠ 0 := Nat.ne_of_gt (Nat.lt_of_lt_of_le (by decide) least)
  rw [dif_neg positive] at rounds
  by_cases small : r < 2 ^ 53
  · rw [if_pos small] at rounds
    exact .inl ⟨⟨_, rounds⟩, small⟩
  · rw [if_neg small, show (m.log2 : Int) + e - 52 + 1 = m.log2 + e - 51 by omega] at rounds
    exact .inr ⟨Nat.le_antisymm most (Nat.le_of_not_lt small), _, rounds⟩

/-- Half of the last place of the greatest double, as a power of two. -/
def halfPlace : Nat := 970

/-- What is rounded from digits enough is finite unless it is infinite. -/
theorem isFinite_of_round {f : Float} {sign : Sign} {m : Nat} {e : Int} (long : 2 ^ 52 ≤ m)
    (low : -1022 ≤ (m.log2 : Int) + e)
    (model : f.toModel = Float.Model.pack (roundWithAccuracy Format.binary64 sign m e .exact))
    (noInf : f.isInf = false) : f.isFinite = true := by
  have whole {r : Nat} {d : Int} (positive : 0 < r) (lead : 2 ^ 52 ≤ r ∧ r < 2 ^ 53 ∧ -1074 ≤ d)
      (rounds : f.toModel = Float.Model.pack (.finite sign r d positive)) : f.isFinite = true := by
    by_cases high : d ≤ 971
    · change f.toModel.unpack.isFinite = true
      rw [rounds, unpack_pack sign positive ⟨high, .inl lead⟩]
      rfl
    · change f.toModel.unpack.isInf = false at noInf
      rw [rounds, unpack_pack_overflow sign positive (Int.not_le.mp high)] at noInf
      cases noInf
  obtain ⟨r, _, least, ⟨⟨positive, rounds⟩, small⟩ | ⟨_, positive, rounds⟩⟩ :=
    round_long sign long low
  · exact whole positive ⟨least, small, by omega⟩ (rounds ▸ model)
  · exact whole positive ⟨by decide, by decide, by omega⟩ (rounds ▸ model)

/-- The middle between the greatest double and the next power of two. -/
def limit : Nat :=
  (2 ^ 54 - 1) * 2 ^ halfPlace

/-- The middle between the greatest double and the one before. -/
def greatestSafe : Nat :=
  (2 ^ 54 - 3) * 2 ^ halfPlace

theorem limit_mul (c : Nat) : limit * 2 ^ c = (2 ^ 54 - 1) * 2 ^ (970 + c) := by
  unfold limit
  rw [Nat.mul_assoc, ← Nat.pow_add]
  rfl

theorem two_pow_le_limit : 2 ^ 64 ≤ limit :=
  Nat.le_trans (Nat.pow_le_pow_right (by decide) (show 64 ≤ halfPlace by decide))
    (Nat.le_mul_of_pos_left (2 ^ halfPlace) (show 0 < 2 ^ 54 - 1 by decide))

/-- Below the limit nothing is rounded out of the range. -/
theorem round_fits (sign : Sign) {m c : Nat} {e : Int} (long : 2 ^ 52 ≤ m)
    (low : -1022 ≤ (m.log2 : Int) + e) (whole : 0 ≤ e + c)
    (below : m * 2 ^ (e + c).toNat < limit * 2 ^ c) :
    ∃ r f positive, roundWithAccuracy Format.binary64 sign m e .exact =
      .finite sign r f positive ∧ Fits r f := by
  have some : m ≠ 0 := Nat.ne_of_gt (Nat.lt_of_lt_of_le (by decide) long)
  obtain ⟨n, same⟩ := Int.eq_ofNat_of_zero_le whole
  rw [same, Int.toNat_natCast, limit_mul] at below
  have digits : 52 ≤ m.log2 := (Nat.le_log2 some).mpr long
  have size : m.log2 + n < 1024 + c := by
    rw [← Nat.pow_lt_pow_iff_right (show 1 < 2 by decide)]
    calc 2 ^ (m.log2 + n) = 2 ^ m.log2 * 2 ^ n := Nat.pow_add ..
      _ ≤ m * 2 ^ n := Nat.mul_le_mul_right _ (Nat.log2_self_le some)
      _ < (2 ^ 54 - 1) * 2 ^ (970 + c) := below
      _ ≤ 2 ^ 54 * 2 ^ (970 + c) := Nat.mul_le_mul_right _ (by decide)
      _ = 2 ^ (1024 + c) := by rw [← Nat.pow_add, ← Nat.add_assoc]
  obtain ⟨r, bound, least, ⟨⟨positive, rounds⟩, small⟩ | ⟨full, positive, rounds⟩⟩ :=
    round_long sign long low
  · exact ⟨_, _, positive, rounds, by omega, .inl ⟨least, small, by omega⟩⟩
  · refine ⟨_, _, positive, rounds, ?_, .inl ⟨by decide, by decide, by omega⟩⟩
    -- Rounding up to the next power of two would need the middle at least.
    refine Int.not_lt.mp fun beyond => ?_
    rw [full] at bound
    have cut : m.log2 - 52 + n = 971 + c := by omega
    have doubled : 2 * m * 2 ^ n < (2 ^ 54 - 1) * 2 ^ (971 + c) := by
      calc 2 * m * 2 ^ n = m * 2 ^ n * 2 := by rw [Nat.mul_assoc, Nat.mul_comm]
        _ < (2 ^ 54 - 1) * 2 ^ (970 + c) * 2 := Nat.mul_lt_mul_of_pos_right below Nat.two_pos
        _ = (2 ^ 54 - 1) * 2 ^ (971 + c) := by
          rw [Nat.mul_assoc, ← Nat.pow_succ, show (970 + c).succ = 971 + c by omega]
    have reached : 2 ^ 54 * 2 ^ (971 + c) ≤ 2 * m * 2 ^ n + 2 ^ (971 + c) := by
      rw [← cut, Nat.pow_add, ← Nat.mul_assoc, ← Nat.add_mul]
      exact Nat.mul_le_mul_right _ bound
    omega

theorem round_of_fits (sign : Sign) {m : Nat} {e : Int} (positive : 0 < m) (fits : Fits m e) :
    roundWithAccuracy Format.binary64 sign m e .exact = .finite sign m e positive := by
  have small : m < 2 ^ 53 := by
    obtain ⟨_, ⟨_, small, _⟩ | ⟨small, _⟩⟩ := fits <;> omega
  have low : -1074 ≤ e := by
    obtain ⟨_, ⟨_, _, low⟩ | ⟨_, low⟩⟩ := fits <;> omega
  have digits : m.log2 ≤ 52 := Nat.le_of_lt_succ ((Nat.log2_lt (Nat.ne_of_gt positive)).mpr small)
  have none : (place m e - e).toNat = 0 := by
    unfold place
    omega
  have same : rounded m e .exact = m := by
    unfold rounded
    rw [none]
    rfl
  rw [round_eq_ofShifted, same, none]
  change ofShifted sign (shiftToTargetExponent Format.binary64 m (e + 0) .exact) = _
  rw [Int.add_zero, shiftToTargetExponent_of_lt small low, ofShifted_of_pos sign e positive]

/-! ### Natural numbers -/

theorem le_log2_of_two_pow_le {k n : Nat} (least : 2 ^ k ≤ n) : k ≤ n.log2 :=
  (Nat.le_log2 (Nat.ne_of_gt (Nat.lt_of_lt_of_le (Nat.two_pow_pos k) least))).mpr least

/-- A bound of the double nearest to a natural number: multiples of the place of its last digit, at
most half of that place above. -/
def ceiling (n : Nat) : Nat :=
  (2 * n + 2 ^ (n.log2 - 52)) / 2 ^ (n.log2 - 52 + 1) * 2 ^ (n.log2 - 52)

theorem toModel_mul (a b : Float) :
    (a * b).toModel = Float.Model.pack (UnpackedFloat.mul Format.binary64 a.toModel.unpack
      b.toModel.unpack) :=
  rfl

theorem mul_finite (sign sign' : Sign) {m m' : Nat} {e e' : Int} (positive : 0 < m)
    (positive' : 0 < m') :
    UnpackedFloat.mul Format.binary64 (.finite sign m e positive) (.finite sign' m' e' positive') =
      roundWithAccuracy Format.binary64 (sign * sign') (m * m') (e + e') .exact :=
  rfl

theorem toModel_div (a b : Float) :
    (a / b).toModel = Float.Model.pack (UnpackedFloat.div Format.binary64 a.toModel.unpack
      b.toModel.unpack) :=
  rfl

/-- The machine float of a word that is short enough. -/
theorem unpack_toFloat {n : Nat} (positive : 0 < n) (small : n < 2 ^ 53) :
    ∃ some, (n.toUInt64.toFloat).toModel.unpack =
      .finite .positive (n * 2 ^ (52 - n.log2)) ((n.log2 : Int) - 52) some ∧
        Fits (n * 2 ^ (52 - n.log2)) ((n.log2 : Int) - 52) := by
  have digits : n.log2 ≤ 52 := Nat.le_of_lt_succ ((Nat.log2_lt (Nat.ne_of_gt positive)).mpr small)
  have some : 0 < n * 2 ^ (52 - n.log2) := Nat.mul_pos positive (Nat.two_pow_pos _)
  have fits : Fits (n * 2 ^ (52 - n.log2)) ((n.log2 : Int) - 52) := by
    refine ⟨by omega, .inl ⟨?_, ?_, by omega⟩⟩
    · calc 2 ^ 52 = 2 ^ n.log2 * 2 ^ (52 - n.log2) := by
            rw [← Nat.pow_add, Nat.add_sub_cancel' digits]
        _ ≤ n * 2 ^ (52 - n.log2) :=
            Nat.mul_le_mul_right _ (Nat.log2_self_le (Nat.ne_of_gt positive))
    · calc n * 2 ^ (52 - n.log2) < 2 ^ (n.log2 + 1) * 2 ^ (52 - n.log2) :=
            Nat.mul_lt_mul_of_pos_right Nat.lt_log2_self (Nat.two_pow_pos _)
        _ = 2 ^ 53 := by
            rw [← Nat.pow_add]
            congr 1
            omega
  refine ⟨some, ?_, fits⟩
  have whole : n.toUInt64.toNat = n := Nat.mod_eq_of_lt (by omega)
  have rounds : UnpackedFloat.round Format.binary64 .positive n 0 =
      .finite .positive (n * 2 ^ (52 - n.log2)) ((n.log2 : Int) - 52) some := by
    have shift : ((0 : Int) - place n 0).toNat = 52 - n.log2 := by
      unfold place
      omega
    have exponent : (0 : Int) - ((52 - n.log2 : Nat) : Int) = (n.log2 : Int) - 52 := by omega
    unfold UnpackedFloat.round decreaseExponent
    rw [targetExponent_eq]
    dsimp only
    rw [shift, exponent, Nat.shiftLeft_eq]
    exact round_of_fits .positive some fits
  have model : n.toUInt64.toFloat.toModel = Float.Model.pack
      (UnpackedFloat.normalize Format.binary64 (n.toUInt64.toNat : Int) 0 .positive) := rfl
  have greater : compare (n : Int) 0 = .gt := Int.compare_eq_gt.mpr (by omega)
  rw [model, whole, UnpackedFloat.normalize, greater]
  dsimp only
  rw [Int.toNat_natCast, rounds, unpack_pack .positive some fits]

/-- What a natural number with zero bits behind it is rounded to is not above the bound. -/
theorem rounded_le_ceiling {n c r : Nat} (behind : 52 + (52 - n.log2) ≤ c)
    (bound : 2 * r * 2 ^ (n.log2 + c - 52) ≤ 2 * (n * 2 ^ c) + 2 ^ (n.log2 + c - 52)) :
    r * 2 ^ n.log2 ≤ 2 ^ 52 * ceiling n := by
  unfold ceiling
  rcases Nat.lt_or_ge n.log2 52 with short | long
  · obtain ⟨j, gap⟩ : ∃ j, n.log2 + j = 52 := ⟨52 - n.log2, by omega⟩
    have none : n.log2 - 52 = 0 := by omega
    have split : 2 ^ c = 2 ^ j * 2 ^ (n.log2 + c - 52) := by
      rw [← Nat.pow_add]
      congr 1
      omega
    have least : 2 * r ≤ 2 * (n * 2 ^ j) + 1 := by
      refine Nat.le_of_mul_le_mul_right ?_ (Nat.two_pow_pos (n.log2 + c - 52))
      rw [split] at bound
      calc 2 * r * 2 ^ (n.log2 + c - 52)
          ≤ 2 * (n * (2 ^ j * 2 ^ (n.log2 + c - 52))) + 2 ^ (n.log2 + c - 52) := bound
        _ = (2 * (n * 2 ^ j) + 1) * 2 ^ (n.log2 + c - 52) := by grind
    rw [none]
    calc r * 2 ^ n.log2 ≤ n * 2 ^ j * 2 ^ n.log2 := Nat.mul_le_mul_right _ (by omega)
      _ = 2 ^ 52 * n := by rw [Nat.mul_assoc, ← Nat.pow_add, Nat.add_comm j, gap, Nat.mul_comm]
      _ = 2 ^ 52 * ((2 * n + 2 ^ 0) / 2 ^ (0 + 1) * 2 ^ 0) := by
        congr 1
        omega
  · obtain ⟨t, gap⟩ : ∃ t, n.log2 = 52 + t := ⟨n.log2 - 52, by omega⟩
    have split : 2 ^ (n.log2 + c - 52) = 2 ^ t * 2 ^ c := by
      rw [← Nat.pow_add]
      congr 1
      omega
    have least : r * 2 ^ (t + 1) ≤ 2 * n + 2 ^ t := by
      refine Nat.le_of_mul_le_mul_right ?_ (Nat.two_pow_pos c)
      rw [split] at bound
      calc r * 2 ^ (t + 1) * 2 ^ c = 2 * r * (2 ^ t * 2 ^ c) := by grind
        _ ≤ 2 * (n * 2 ^ c) + 2 ^ t * 2 ^ c := bound
        _ = (2 * n + 2 ^ t) * 2 ^ c := by grind
    rw [gap, Nat.add_sub_cancel_left, Nat.pow_add, Nat.mul_left_comm]
    exact Nat.mul_le_mul_left _ (Nat.mul_le_mul_right _
      ((Nat.le_div_iff_mul_le (Nat.two_pow_pos _)).mpr least))

/-- A machine float holds a natural number, or a double close to it that is not above its
ceiling. -/
def Near (f : Float) (n : Nat) : Prop :=
  ∃ m e some, f.toModel.unpack = .finite .positive m e some ∧ 2 ^ 52 ≤ m ∧ m < 2 ^ 53 ∧
    (n.log2 : Int) - 52 ≤ e ∧ e ≤ (n.log2 : Int) - 51 ∧
    m * 2 ^ (e + 52).toNat ≤ 2 ^ 52 * ceiling n

/-- What a natural number with zero bits behind it is rounded to. -/
theorem near_of_round {f : Float} {n c : Nat} (positive : 0 < n)
    (small : n < limit) (behind : 52 + (52 - n.log2) ≤ c)
    (rounds : f.toModel = Float.Model.pack
      (roundWithAccuracy Format.binary64 .positive (n * 2 ^ c) (-(c : Int)) .exact)) :
    Near f n := by
  have some : n * 2 ^ c ≠ 0 := Nat.ne_of_gt (Nat.mul_pos positive (Nat.two_pow_pos c))
  have digits : (n * 2 ^ c).log2 = n.log2 + c := by
    refine (Nat.log2_eq_iff some).mpr ⟨?_, ?_⟩
    · rw [Nat.pow_add]
      exact Nat.mul_le_mul_right _ (Nat.log2_self_le (Nat.ne_of_gt positive))
    · rw [Nat.add_right_comm, Nat.pow_add]
      exact Nat.mul_lt_mul_of_pos_right Nat.lt_log2_self (Nat.two_pow_pos c)
  have long : 2 ^ 52 ≤ n * 2 ^ c := (Nat.le_log2 some).mp (by omega)
  have low : -1022 ≤ ((n * 2 ^ c).log2 : Int) + -(c : Int) := by omega
  have below : n * 2 ^ c * 2 ^ (-(c : Int) + c).toNat < limit * 2 ^ c := by
    rw [Int.add_left_neg]
    exact Nat.lt_of_le_of_lt (Nat.le_of_eq (Nat.mul_one _))
      (Nat.mul_lt_mul_of_pos_right small (Nat.two_pow_pos c))
  obtain ⟨r', e', some', result, fits⟩ := round_fits .positive long low (by omega) below
  have unpacked := unpack_pack .positive some' fits
  rw [result] at rounds
  rw [← rounds] at unpacked
  obtain ⟨r, bound, least, ⟨⟨_, same⟩, most⟩ | ⟨full, _, same⟩⟩ := round_long .positive long low
  · have place : ((n * 2 ^ c).log2 : Int) + -(c : Int) - 52 = n.log2 - 52 := by omega
    cases result.symm.trans same
    rw [digits] at bound
    refine ⟨r', _, _, unpacked, least, most, by omega, by omega, ?_⟩
    rw [place, Int.sub_add_cancel, Int.toNat_natCast]
    exact rounded_le_ceiling behind bound
  · have place : ((n * 2 ^ c).log2 : Int) + -(c : Int) - 51 = n.log2 - 51 := by omega
    cases result.symm.trans same
    rw [digits] at bound
    refine ⟨2 ^ 52, _, _, unpacked, by decide, by decide, by omega, by omega, ?_⟩
    have exponent : ((n.log2 : Int) - 51 + 52).toNat = n.log2 + 1 := by omega
    have doubled : 2 ^ 52 * 2 ^ (n.log2 + 1) = 2 ^ 53 * 2 ^ n.log2 := by
      rw [← Nat.pow_add, ← Nat.pow_add]
      congr 1
      omega
    rw [full] at bound
    rw [place, exponent, doubled]
    exact rounded_le_ceiling behind bound

/-- Digits times a power of ten, as machine floats read them if they are not short. -/
theorem toModel_ofScientific {n e : Nat} (some : n ≠ 0) (inRange : e ≤ 2 ^ 11)
    (long : ¬ (n < 2 ^ 53 ∧ e ≤ 22)) :
    (Float.ofScientific n false e).toModel = Float.Model.pack (roundWithAccuracy Format.binary64
      .positive (n * 10 ^ e * 2 ^ 53) (-((53 : Nat) : Int)) .exact) := by
  have model : (Float.ofScientific n false e).toModel =
      Float.Model.pack (UnpackedFloat.ofScientific Format.binary64 n e) := by
    unfold Float.ofScientific
    rw [dif_neg long]
    rfl
  have high : ¬ (e : Int) > 2 ^ Format.binary64.exponentBits := by
    change ¬ (2048 : Int) < e
    omega
  have low : ¬ (e : Int) < -(2 ^ Format.binary64.exponentBits + (n.log2 : Int)) := by
    change ¬ (e : Int) < -(2048 + (n.log2 : Int))
    omega
  rw [model, UnpackedFloat.ofScientific, dif_neg some, if_neg high, if_neg low,
    if_pos (Int.natCast_nonneg e), mul_finite, Nat.shiftLeft_eq, Int.toNat_natCast,
    Nat.mul_right_comm]
  rfl

/-- A natural number of 64 bits is rounded to a double that fits and is not above the bound. -/
theorem near_ofNat {n : Nat} (positive : 0 < n) (small : n < 2 ^ 64) : Near (Float.ofNat n) n := by
  have below : n < limit := Nat.lt_of_lt_of_le small two_pow_le_limit
  by_cases short : n < 2 ^ 53
  · obtain ⟨some, unpacked, fits⟩ := unpack_toFloat positive short
    have digits : n.log2 ≤ 52 :=
      Nat.le_of_lt_succ ((Nat.log2_lt (Nat.ne_of_gt positive)).mpr short)
    have product : Float.ofNat n = n.toUInt64.toFloat * Float.ofBits 4607182418800017408 := by
      change Float.ofScientific n false 0 = _
      unfold Float.ofScientific
      rw [dif_pos ⟨short, by decide⟩]
      rfl
    have one : (Float.ofBits 4607182418800017408).toModel.unpack =
        .finite .positive (2 ^ 52) (-52) (by decide) :=
      rfl
    have exponent : (n.log2 : Int) - 52 + -52 = -((52 - n.log2 + 52 : Nat) : Int) := by omega
    refine near_of_round (c := 52 - n.log2 + 52) positive below (by omega) ?_
    rw [product, toModel_mul, unpacked, one, mul_finite, Nat.mul_assoc, ← Nat.pow_add, exponent]
    rfl
  · have some : n ≠ 0 := Nat.ne_of_gt positive
    have digits : 53 ≤ n.log2 := (Nat.le_log2 some).mpr (Nat.le_of_not_lt short)
    refine near_of_round (c := 53) positive below (by omega) ?_
    have model := toModel_ofScientific (e := 0) some (by decide) fun short' => short short'.1
    rw [Nat.pow_zero, Nat.mul_one] at model
    exact model

theorem digits_of_lead {m : Nat} (low : 2 ^ 52 ≤ m) (high : m < 2 ^ 53) : m.log2 = 52 :=
  (Nat.log2_eq_iff (Nat.ne_of_gt (Nat.lt_of_lt_of_le (by decide) low))).mpr ⟨low, high⟩

/-- A product of numbers close to natural numbers is rounded once more. -/
theorem Near.mul {f p : Float} {a b : Nat} (near : Near f a) (factor : Near p b) :
    ∃ m e, (f * p).toModel =
      Float.Model.pack (roundWithAccuracy Format.binary64 .positive m e .exact) ∧
      2 ^ 104 ≤ m ∧ -104 ≤ e ∧ m * 2 ^ (e + 104).toNat ≤ 2 ^ 104 * (ceiling a * ceiling b) := by
  obtain ⟨m, e, some, unpacked, low, high, from_, to_, bound⟩ := near
  obtain ⟨m', e', some', unpacked', low', high', from', to', bound'⟩ := factor
  refine ⟨m * m', e + e', ?_, Nat.le_trans (by decide) (Nat.mul_le_mul low low'), by omega, ?_⟩
  · rw [toModel_mul, unpacked, unpacked', mul_finite]
    rfl
  · have split : (e + e' + 104).toNat = (e + 52).toNat + (e' + 52).toNat := by omega
    calc m * m' * 2 ^ (e + e' + 104).toNat
        = m * 2 ^ (e + 52).toNat * (m' * 2 ^ (e' + 52).toNat) := by
          rw [split, Nat.pow_add]
          exact Nat.mul_mul_mul_comm ..
      _ ≤ 2 ^ 52 * ceiling a * (2 ^ 52 * ceiling b) := Nat.mul_le_mul bound bound'
      _ = 2 ^ 104 * (ceiling a * ceiling b) := by
          rw [Nat.mul_mul_mul_comm, ← Nat.pow_add]

/-! ### Quotients -/

/-- A zero, or a finite number whose leading digit does not stand above a place. -/
def Within (f : Float) (bound : Int) : Prop :=
  (∃ sign, f.toModel.unpack = .zero sign) ∨
    ∃ sign m e positive, f.toModel.unpack = .finite sign m e positive ∧ (m.log2 : Int) + e ≤ bound

theorem Within.mono {f : Float} {bound other : Int} (within : Within f bound)
    (less : bound ≤ other) : Within f other := by
  obtain zero | ⟨sign, m, e, positive, unpacked, most⟩ := within
  · exact .inl zero
  · exact .inr ⟨sign, m, e, positive, unpacked, Int.le_trans most less⟩

/-- What is rounded down to the last place of a double is at most doubled. -/
theorem within_round {f : Float} {sign : Sign} {m : Nat} {e : Int} {accuracy : Accuracy}
    (model : f.toModel = Float.Model.pack (roundWithAccuracy Format.binary64 sign m e accuracy))
    (low : e ≤ place m e) (high : place m e ≤ 970) :
    Within f (max (m.log2 + e + 1) (-1021)) := by
  have shifted : e + ((place m e - e).toNat : Int) = place m e := by omega
  have bound := rounded_le_two_pow m e accuracy
  have least : place m e = -1074 ∨ 2 ^ 52 ≤ rounded m e accuracy := by
    refine Decidable.or_iff_not_imp_left.mpr fun above => ?_
    have digits : m.log2 = 52 + (place m e - e).toNat := by
      unfold place at above low ⊢
      omega
    have some : m ≠ 0 := by
      rintro rfl
      cases (Nat.zero_add 0).symm.trans (digits.trans (Nat.add_comm ..))
    refine Nat.le_trans ?_ (mantissa_le_rounded _)
    rw [mantissa_shiftRight, mantissa_ofMantissaAndAccuracy,
      Nat.le_div_iff_mul_le (Nat.two_pow_pos _), ← Nat.pow_add, ← digits]
    exact Nat.log2_self_le some
  have rounds := round_eq sign m e accuracy
  rw [shifted] at rounds
  generalize rounded m e accuracy = r at *
  by_cases none : r = 0
  · rw [dif_pos none] at rounds
    exact .inl ⟨sign, by rw [model, rounds, unpack_pack_zero]⟩
  · rw [dif_neg none] at rounds
    by_cases small : r < 2 ^ 53
    · rw [if_pos small] at rounds
      have fits : Fits r (place m e) := by
        refine ⟨by omega, ?_⟩
        unfold place at least ⊢
        omega
      have digits : r.log2 ≤ 52 := Nat.le_of_lt_succ ((Nat.log2_lt none).mpr small)
      refine .inr ⟨sign, r, place m e, Nat.pos_of_ne_zero none, ?_, ?_⟩
      · rw [model, rounds, unpack_pack sign _ fits]
      · unfold place
        omega
    · rw [if_neg small] at rounds
      have fits : Fits (2 ^ 52) (place m e + 1) := by
        refine ⟨by omega, .inl ⟨by decide, by decide, ?_⟩⟩
        unfold place
        omega
      refine .inr ⟨sign, 2 ^ 52, place m e + 1, by decide, ?_, ?_⟩
      · rw [model, rounds, unpack_pack sign _ fits]
      · rw [Nat.log2_two_pow]
        unfold place
        omega

/-- How many digits a quotient has. -/
theorem log2_quotient {n m : Nat} (shift : Nat) (some : n ≠ 0) (positive : 0 < m) :
    (53 + m.log2 ≤ n.log2 + shift → 52 ≤ (n * 2 ^ shift / m).log2) ∧
      (n * 2 ^ shift / m ≠ 0 → (n * 2 ^ shift / m).log2 + m.log2 ≤ n.log2 + shift) := by
  constructor
  · intro long
    have least : 2 ^ 52 ≤ n * 2 ^ shift / m := by
      rw [Nat.le_div_iff_mul_le positive]
      calc 2 ^ 52 * m ≤ 2 ^ 52 * 2 ^ (m.log2 + 1) :=
            Nat.mul_le_mul_left _ (Nat.le_of_lt Nat.lt_log2_self)
        _ = 2 ^ (53 + m.log2) := by
            rw [← Nat.pow_add]
            congr 1
            omega
        _ ≤ 2 ^ (n.log2 + shift) := Nat.pow_le_pow_right (by decide) long
        _ = 2 ^ n.log2 * 2 ^ shift := Nat.pow_add ..
        _ ≤ n * 2 ^ shift := Nat.mul_le_mul_right _ (Nat.log2_self_le some)
    exact le_log2_of_two_pow_le least
  · intro quotient
    have bound : 2 ^ ((n * 2 ^ shift / m).log2 + m.log2) < 2 ^ (n.log2 + shift + 1) := by
      calc 2 ^ ((n * 2 ^ shift / m).log2 + m.log2)
          = 2 ^ (n * 2 ^ shift / m).log2 * 2 ^ m.log2 := Nat.pow_add ..
        _ ≤ n * 2 ^ shift / m * m :=
            Nat.mul_le_mul (Nat.log2_self_le quotient) (Nat.log2_self_le (Nat.ne_of_gt positive))
        _ ≤ n * 2 ^ shift := Nat.div_mul_le_self ..
        _ < 2 ^ (n.log2 + 1) * 2 ^ shift :=
            Nat.mul_lt_mul_of_pos_right Nat.lt_log2_self (Nat.two_pow_pos _)
        _ = 2 ^ (n.log2 + shift + 1) := by rw [← Nat.pow_add, Nat.add_right_comm]
    exact Nat.le_of_lt_succ ((Nat.pow_lt_pow_iff_right (by decide)).mp bound)

/-- A quotient is as much smaller than the dividend as the divisor is great. -/
theorem Within.div {f p : Float} {bound least : Int} (within : Within f bound) {m : Nat} {e : Int}
    {positive : 0 < m} (divisor : p.toModel.unpack = .finite .positive m e positive)
    (great : least ≤ (m.log2 : Int) + e) (small : bound - least ≤ 1000) :
    Within (f / p) (max (bound - least + 1) (-1021)) := by
  obtain ⟨sign, zero⟩ | ⟨sign, n, d, some, unpacked, most⟩ := within
  · refine .inl ⟨sign / .positive, ?_⟩
    rw [toModel_div, zero, divisor]
    exact unpack_pack_zero _
  · obtain ⟨target, same⟩ : ∃ target, target = min (d - e)
        (Format.binary64.targetExponent (totalExponent n d - totalExponent m e)) := ⟨_, rfl⟩
    have choice : target = min (d - e) (max ((n.log2 : Int) + d - (m.log2 + e) - 53) (-1074)) := by
      rw [same]
      change min (d - e) (max ((n.log2 : Int) + 1 + d - (m.log2 + 1 + e) - 53) (-1074)) = _
      omega
    obtain ⟨shift, count⟩ : ∃ shift : Nat, d - e - target = shift :=
      Int.eq_ofNat_of_zero_le (by omega)
    obtain ⟨accuracy, model⟩ : ∃ accuracy, (f / p).toModel = Float.Model.pack
        (roundWithAccuracy Format.binary64 (sign / .positive) (n * 2 ^ shift / m) target
          accuracy) := by
      refine ⟨accuracyOfFraction (n * 2 ^ shift % m) m, ?_⟩
      rw [toModel_div, unpacked, divisor]
      unfold UnpackedFloat.div divCore
      dsimp only
      rw [← same, count, Int.toNat_natCast, Nat.shiftLeft_eq]
    obtain ⟨long, digits⟩ := log2_quotient shift (Nat.ne_of_gt some) positive
    generalize n * 2 ^ shift / m = quotient at *
    have low : target ≤ place quotient target := by
      unfold place
      omega
    have high : (quotient.log2 : Int) + target ≤ max (bound - least) (-1074) := by
      by_cases none : quotient = 0
      · have : quotient.log2 = 0 := by
          rw [none]
          decide
        omega
      · have := digits none
        omega
    refine (within_round model low ?_).mono ?_
    · unfold place
      omega
    · omega

/-- A number within the range is neither infinite nor a NaN. -/
theorem Within.isFinite {f : Float} {bound : Int} (within : Within f bound) :
    f.isFinite = true := by
  change f.toModel.unpack.isFinite = true
  obtain ⟨sign, zero⟩ | ⟨sign, m, e, positive, unpacked, _⟩ := within
  · rw [zero]
    rfl
  · rw [unpacked]
    rfl

end CodeNav.Rounding

/-! ### Bits -/

namespace CodeNav.Binary64

open Float.Model Float.Model.UnpackedFloat

theorem toNat_unpackExponent (bits : UInt64) :
    (@unpackExponent Format.binary64 bits.toBitVec).toNat =
      (⟨bits⟩ : Binary64).exponentField := by
  change ((BitVec.extractLsb' 52 11 bits.toBitVec)).toNat = ((bits >>> 52) &&& 0x7FF).toNat
  rw [BitVec.extractLsb'_toNat, UInt64.toNat_and, UInt64.toNat_shiftRight]
  exact (Nat.and_two_pow_sub_one_eq_mod _ 11).symm

theorem isFinite_ofFloat {f : Float} (finite : f.isFinite = true) :
    (ofFloat f).isFinite = true := by
  change f.toModel.unpack.isFinite = true at finite
  refine bne_iff_ne.mpr fun all => ?_
  have exponent : @unpackExponent Format.binary64 f.toModel.toBits.toBitVec = -1#11 :=
    BitVec.eq_of_toNat_eq ((toNat_unpackExponent _).trans all)
  unfold Float.Model.unpack UnpackedFloat.unpack at finite
  dsimp only at finite
  rw [if_pos exponent] at finite
  split at finite <;> cases finite

theorem isFinite_neg (x : Binary64) : x.neg.isFinite = x.isFinite := by
  have same : x.neg.exponentField = x.exponentField := by
    unfold exponentField neg
    dsimp only
    rw [UInt64.toNat_and, UInt64.toNat_and, UInt64.toNat_shiftRight, UInt64.toNat_shiftRight,
      UInt64.toNat_xor, Nat.shiftRight_xor_distrib, Nat.and_xor_distrib_right]
    exact Nat.xor_zero _
  unfold isFinite
  rw [same]

end CodeNav.Binary64
