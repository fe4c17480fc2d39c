/-
Module: CodeNav.Proofs.Json.Doubles
Purpose: Every number that a text can write is printed so that it can be read again.
Main exports:
  Json.Number.Readable, Json.Numeral.value_readable, Json.Number.exists_again, Json.Number.reread
-/
import CodeNav.Proofs.Decimal.Shortest
import CodeNav.Proofs.Json.Numerals
import CodeNav.Proofs.Json.Scaling

namespace CodeNav.Json

open Rounding (greatestSafe)

/-- The numbers that texts write: integers of 64 bits and finite doubles. -/
def Number.Readable : Number → Prop
  | .integer n => -(capacity 63 : Int) ≤ n ∧ n < capacity 64
  | .real x => x.isFinite = true

namespace Numeral

/-! ### Significands -/

theorem mul_pow_le_foldl (s : Nat) (ds : List Nat) :
    s * 10 ^ ds.length ≤ ds.foldl (fun n d => n * 10 + d) s := by
  induction ds generalizing s with
  | nil => exact Nat.le_of_eq (Nat.mul_one s)
  | cons d ds ih =>
      refine Nat.le_trans ?_ (ih (s * 10 + d))
      rw [List.length_cons, Nat.pow_succ, Nat.mul_comm (10 ^ _) 10, ← Nat.mul_assoc]
      exact Nat.mul_le_mul_right _ (Nat.le_add_right ..)

/-- The digits that are joined fit 64 bits, and are at most all of them. -/
theorem absorb_spec {s : Nat} (small : s < capacity 64) (ds : List Nat) :
    (absorb s ds).1 < capacity 64 ∧ (absorb s ds).2.length ≤ ds.length ∧
      (absorb s ds).1 * 10 ^ (absorb s ds).2.length ≤ ds.foldl (fun n d => n * 10 + d) s := by
  induction ds generalizing s with
  | nil => exact ⟨small, Nat.le_refl _, mul_pow_le_foldl s []⟩
  | cons d ds ih =>
      unfold absorb
      split
      · obtain ⟨fits, shorter, bound⟩ := ih ‹_›
        exact ⟨fits, Nat.le_succ_of_le shorter, bound⟩
      · exact ⟨small, Nat.le_refl _, mul_pow_le_foldl s (d :: ds)⟩

/-! ### Values -/

/-- Where the digits of a numeral are scaled to. -/
def total (n : Numeral) : Int :=
  (((absorb 0 n.whole).2.length : Int) -
      (n.fraction.length - (absorb (absorb 0 n.whole).1 n.fraction).2.length : Nat)) +
    (if n.exponentNegative then -(natural n.exponent : Int) else natural n.exponent)

theorem value_eq (n : Numeral) :
    n.value =
      if n.fraction.isEmpty && n.exponent.isEmpty && (absorb 0 n.whole).2.isEmpty &&
          (!n.negative || (0 < (absorb 0 n.whole).1 && (absorb 0 n.whole).1 ≤ capacity 63)) then
        .ok (.integer (if n.negative then -((absorb 0 n.whole).1 : Int) else (absorb 0 n.whole).1))
      else if natural n.exponent ≤ exponentLimit then
        scaled n.negative (absorb (absorb 0 n.whole).1 n.fraction).1 n.total
      else if (absorb (absorb 0 n.whole).1 n.fraction).1 != 0 && !n.exponentNegative then
        .error .numberOutOfRange
      else scaled n.negative 0 0 :=
  rfl

/-- A numeral writes an integer of 64 bits or a finite double. -/
theorem value_readable {n : Numeral} {number : Number} (read : n.value = .ok number) :
    number.Readable := by
  have zero : 0 < capacity 64 := by decide
  obtain ⟨fits, _⟩ := absorb_spec zero n.whole
  obtain ⟨fitsToo, _⟩ := absorb_spec fits n.fraction
  have real {s : Nat} {e : Int} (small : s < capacity 64)
      (read : scaled n.negative s e = .ok number) : number.Readable := by
    obtain ⟨x, rfl, finite⟩ := scaled_isFinite small read
    exact finite
  rw [value_eq] at read
  generalize (absorb 0 n.whole).1 = s at *
  split at read
  · rename_i whole
    cases read
    simp only [Bool.and_eq_true, Bool.or_eq_true, Bool.not_eq_true', decide_eq_true_eq] at whole
    have least : (0 : Int) ≤ capacity 63 := Int.natCast_nonneg _
    cases negative : n.negative with
    | false =>
        refine ⟨?_, Int.ofNat_lt.mpr fits⟩
        exact Int.le_trans (Int.neg_nonpos_of_nonneg least) (Int.natCast_nonneg s)
    | true =>
        rcases whole.2 with positive | ⟨some, bounded⟩
        · cases negative.symm.trans positive
        · refine ⟨Int.neg_le_neg (Int.ofNat_le.mpr bounded), ?_⟩
          exact Int.lt_of_le_of_lt (Int.neg_nonpos_of_nonneg (Int.natCast_nonneg s))
            (Int.ofNat_lt.mpr zero)
  · split at read
    · exact real fitsToo read
    · split at read
      · cases read
      · exact real zero read

/-- The power of ten behind all digits of a numeral. -/
def point (n : Numeral) : Int :=
  (if n.exponentNegative then -(natural n.exponent : Int) else natural n.exponent) -
    n.fraction.length

/-- A numeral with a fraction or an exponent writes a double if it is not too great. -/
theorem value_real {n : Numeral} (marked : n.fraction ≠ [] ∨ n.exponent ≠ [])
    (short : natural n.whole < capacity 64) (near : natural n.exponent ≤ exponentLimit)
    (safe : natural (n.whole ++ n.fraction) * 10 ^ n.point.toNat ≤
      greatestSafe * 10 ^ (-n.point).toNat) :
    ∃ x : Binary64, n.value = .ok (.real x) ∧ x.isFinite = true := by
  have joined : absorb 0 n.whole = (natural n.whole, []) := absorb_eq 0 n.whole rfl short
  obtain ⟨fits, shorter, bound⟩ := absorb_spec short n.fraction
  have digits : n.fraction.foldl (fun n d => n * 10 + d) (natural n.whole) =
      natural (n.whole ++ n.fraction) :=
    List.foldl_append.symm
  have read : n.value = scaled n.negative (absorb (natural n.whole) n.fraction).1 n.total := by
    rw [value_eq, joined, if_pos near, if_neg]
    rcases marked with some | some <;> simp [some]
  rw [digits] at bound
  have total : n.total = ((absorb (natural n.whole) n.fraction).2.length : Int) + n.point := by
    unfold Numeral.total Numeral.point
    rw [joined]
    dsimp only [List.length_nil]
    omega
  have inRange : 0 ≤ n.total → (absorb (natural n.whole) n.fraction).1 * 10 ^ n.total.toNat ≤
      greatestSafe := by
    intro upward
    have exponents : n.total.toNat + (-n.point).toNat =
        (absorb (natural n.whole) n.fraction).2.length + n.point.toNat := by omega
    refine Nat.le_of_mul_le_mul_right ?_
      (Nat.pow_pos (show 0 < 10 by decide) (n := (-n.point).toNat))
    rw [Nat.mul_assoc, ← Nat.pow_add, exponents, Nat.pow_add, ← Nat.mul_assoc]
    exact Nat.le_trans (Nat.mul_le_mul_right _ bound) safe
  obtain ⟨f, scales⟩ := scale_isOk fits inRange
  rw [read, scaled_eq, scales]
  exact ⟨_, rfl, isFinite_signed (isFinite_scale fits scales) n.negative⟩

/-! ### Texts of numerals -/

/-- The digits behind a point, if there are any. -/
def fractionOctets (n : Numeral) : List UInt8 :=
  if n.fraction = [] then [] else 0x2E :: octetsOf n.fraction

/-- The exponent with its mark and sign, if there is one. -/
def exponentOctets (n : Numeral) : List UInt8 :=
  if n.exponent = [] then []
  else 0x65 :: (if n.exponentNegative then 0x2D else 0x2B) :: octetsOf n.exponent

/-- The text of a numeral. -/
def octets (n : Numeral) : List UInt8 :=
  (if n.negative then [0x2D] else []) ++
    (octetsOf n.whole ++ (n.fractionOctets ++ n.exponentOctets))

/-- The parts of a numeral are digits, with no zero in front of others, and no sign without an
exponent. -/
structure Proper (n : Numeral) : Prop where
  whole : ∀ d ∈ n.whole, d < 10
  fraction : ∀ d ∈ n.fraction, d < 10
  exponent : ∀ d ∈ n.exponent, d < 10
  nonempty : n.whole ≠ []
  lead : n.whole.head? = some 0 → n.whole = [0]
  unsigned : n.exponent = [] → n.exponentNegative = false

theorem splitSign_octets {n : Numeral} (proper : n.Proper) :
    splitSign n.octets =
      (n.negative, octetsOf n.whole ++ (n.fractionOctets ++ n.exponentOctets)) := by
  unfold octets
  cases n.negative with
  | true => rfl
  | false =>
      have other : ∀ d < 10, UInt8.ofNat (d + 48) ≠ 0x2D := by decide
      obtain ⟨d, more, first⟩ := List.exists_cons_of_ne_nil proper.nonempty
      have digit := other d (proper.whole d (first ▸ List.mem_cons_self))
      rw [first]
      exact if_neg fun minus => digit (Option.some.inj minus)

/-- The text of a numeral is scanned as the numeral. -/
theorem scan_octets {n : Numeral} (proper : n.Proper) : scan n.octets = .ok (n, []) := by
  have signed := splitSign_octets proper
  obtain ⟨whole, fraction, exponent, nonempty, lead, unsigned⟩ := proper
  have behind : digits n.exponentOctets = ([], n.exponentOctets) := by
    unfold exponentOctets
    split <;> rfl
  have ends : digits (n.fractionOctets ++ n.exponentOctets) =
      ([], n.fractionOctets ++ n.exponentOctets) := by
    unfold fractionOctets
    split
    · exact behind
    · rfl
  refine scan_eq_ok.mpr ⟨n.fractionOctets ++ n.exponentOctets, n.exponentOctets, ?_, ?_, ?_, ?_⟩
  · rw [signed]
    unfold scanWhole
    rw [digits_octetsOf_append whole ends]
    generalize n.whole = ds at nonempty lead
    obtain _ | ⟨_ | d, _ | ⟨e, more⟩⟩ := ds
    · exact absurd rfl nonempty
    · rfl
    · cases lead rfl
    · rfl
    · rfl
  · have found := digits_octetsOf_append fraction behind
    unfold fractionOctets
    split
    · rename_i none
      rw [none]
      refine scanFraction_none ?_
      unfold exponentOctets
      split <;> simp
    · rename_i some
      change scanFraction (0x2E :: (octetsOf n.fraction ++ n.exponentOctets)) = _
      simp only [scanFraction, found]
      generalize n.fraction = ds at some
      obtain _ | ⟨d, more⟩ := ds
      · exact absurd rfl some
      · rfl
  · unfold exponentOctets
    split
    · rename_i none
      rw [none, unsigned none]
      rfl
    · rename_i some
      have found : digits (octetsOf n.exponent) = (n.exponent, []) := digits_octetsOf exponent
      have sign :
          exponentSign ((if n.exponentNegative then 0x2D else 0x2B) :: octetsOf n.exponent) =
            (n.exponentNegative, octetsOf n.exponent) := by
        cases n.exponentNegative <;> rfl
      rw [scanExponent_mark (by decide), sign]
      unfold exponentDigits
      rw [found, if_neg]
      exact fun none => some (List.isEmpty_iff.mp none)
  · rw [signed]

/-! ### Numerals of decimals -/

theorem natural_append (ds es : List Nat) :
    natural (ds ++ es) = es.foldl (fun n d => n * 10 + d) (natural ds) :=
  List.foldl_append

theorem foldl_zeros (s k : Nat) :
    (List.replicate k 0).foldl (fun n d => n * 10 + d) s = s * 10 ^ k := by
  induction k generalizing s with
  | zero => exact (Nat.mul_one s).symm
  | succ k ih =>
      rw [List.replicate_succ, List.foldl_cons, ih, Nat.pow_succ, Nat.add_zero, Nat.mul_assoc,
        Nat.mul_comm 10]

theorem foldl_lt (s : Nat) {ds : List Nat} (small : ∀ d ∈ ds, d < 10) :
    ds.foldl (fun n d => n * 10 + d) s < (s + 1) * 10 ^ ds.length := by
  induction ds generalizing s with
  | nil => exact Nat.lt_of_lt_of_eq (Nat.lt_succ_self s) (Nat.mul_one _).symm
  | cons d ds ih =>
      have digit := small d List.mem_cons_self
      refine Nat.lt_of_lt_of_le (ih (s * 10 + d) fun e listed =>
        small e (List.mem_cons_of_mem d listed)) ?_
      rw [List.length_cons, Nat.pow_succ, Nat.mul_comm (10 ^ _) 10, ← Nat.mul_assoc]
      exact Nat.mul_le_mul_right _ (by omega)

theorem natural_lt {ds : List Nat} (small : ∀ d ∈ ds, d < 10) : natural ds < 10 ^ ds.length := by
  have bound := foldl_lt 0 small
  rwa [Nat.zero_add, Nat.one_mul] at bound

/-- A numeral writes the number of a decimal. -/
def Writes (n : Numeral) (d : Decimal) : Prop :=
  ∃ k : Nat, natural (n.whole ++ n.fraction) = d.digits * 10 ^ k ∧ n.point + k = d.exponent

/-- A decimal that is not too great is read. -/
theorem value_of_writes {n : Numeral} {d : Decimal} (writes : n.Writes d)
    (marked : n.fraction ≠ [] ∨ n.exponent ≠ []) (short : natural n.whole < capacity 64)
    (near : natural n.exponent ≤ exponentLimit) (atMost : d.AtMost greatestSafe) :
    ∃ x : Binary64, n.value = .ok (.real x) ∧ x.isFinite = true := by
  obtain ⟨k, digits, place⟩ := writes
  refine value_real marked short near ?_
  have exponents : ((k + n.point.toNat : Nat) : Int) - (-n.point).toNat = d.exponent := by omega
  rw [digits, Nat.mul_assoc, ← Nat.pow_add]
  exact (Decimal.mul_pow_le_iff (by decide) exponents).mpr atMost

/-- The numeral of a decimal without an exponent. -/
def positional (d : Decimal) : Numeral :=
  if 0 ≤ d.exponent then
    ⟨false, decimals d.digits ++ List.replicate d.exponent.toNat 0, [0], false, []⟩
  else
    let whole := (d.exponent + d.length).toNat
    if whole = 0 then
      ⟨false, [0], List.replicate (-(d.exponent + d.length)).toNat 0 ++ decimals d.digits,
        false, []⟩
    else ⟨false, (decimals d.digits).take whole, (decimals d.digits).drop whole, false, []⟩

/-- The numeral of a decimal with an exponent. -/
def scientific (d : Decimal) : Numeral :=
  ⟨false, (decimals d.digits).take 1, (decimals d.digits).drop 1, d.leading < 0,
    decimals d.leading.natAbs⟩

theorem encode_zeros (k : Nat) : Utf8.encode (Decimal.zeros k) = octetsOf (List.replicate k 0) := by
  unfold Decimal.zeros
  rw [encode_digits fun c listed => List.eq_of_mem_replicate listed ▸ by decide,
    List.map_replicate]
  rfl

theorem length_decimals (n : Nat) : (decimals n).length = (Nat.toDigits 10 n).length :=
  List.length_map _

/-- Without an exponent a decimal is laid out as its numeral. -/
theorem encode_positional (d : Decimal) :
    Utf8.encode (d.positional true) = (positional d).octets := by
  have zero : Utf8.encode "0." = [0x30, 0x2E] := Utf8.encode_eq _
  have zeroFraction : Utf8.encode ".0" = [0x2E, 0x30] := Utf8.encode_eq _
  have all : Utf8.encode (String.ofList (Nat.toDigits 10 d.digits)) =
      octetsOf (decimals d.digits) := encode_digits fun _ => isDigit_toDigits
  unfold Decimal.positional positional
  dsimp only
  split
  · rw [if_pos rfl, Utf8.encode_append, Utf8.encode_append, all, encode_zeros, zeroFraction]
    simp [octets, fractionOctets, exponentOctets, octetsOf]
  · change Utf8.encode (if (d.exponent + d.length).toNat == 0 then _ else _) = _
    by_cases none : (d.exponent + d.length).toNat = 0
    · rw [if_pos (beq_iff_eq.mpr none), if_pos none, Utf8.encode_append, Utf8.encode_append, all,
        encode_zeros, zero]
      have some : List.replicate (-(d.exponent + d.length)).toNat 0 ++ decimals d.digits ≠ [] :=
        List.append_ne_nil_of_right_ne_nil _ (decimals_ne_nil d.digits)
      simp only [octets, fractionOctets, exponentOctets, if_neg some]
      simp [octetsOf, Decimal.length]
    · rw [if_neg (by simpa using none), if_neg none, Utf8.encode_append, Utf8.encode_append,
        Utf8.encode_point,
        encode_digits fun _ listed => isDigit_toDigits (List.mem_of_mem_take listed),
        encode_digits fun _ listed => isDigit_toDigits (List.mem_of_mem_drop listed)]
      have some : (decimals d.digits).drop (d.exponent + d.length).toNat ≠ [] := by
        rw [Ne, List.drop_eq_nil_iff, length_decimals]
        change ¬ d.length ≤ _
        omega
      simp only [octets, fractionOctets, exponentOctets, if_neg some]
      simp [decimals, octetsOf, Decimal.length]

/-- With an exponent a decimal is laid out as its numeral. -/
theorem encode_scientific (d : Decimal) :
    Utf8.encode d.scientific = (scientific d).octets := by
  have exponent : Utf8.encode "e" = [0x65] := Utf8.encode_eq _
  have plus : Utf8.encode "+" = [0x2B] := Utf8.encode_eq _
  have sign : Utf8.encode (if d.leading < 0 then "-" else "+") =
      [if d.leading < 0 then 0x2D else 0x2B] := by
    split
    · exact Utf8.encode_minus
    · exact plus
  have fraction : Utf8.encode (if ((Nat.toDigits 10 d.digits).drop 1).isEmpty then ""
      else "." ++ String.ofList ((Nat.toDigits 10 d.digits).drop 1)) =
      (scientific d).fractionOctets := by
    unfold fractionOctets scientific
    dsimp only
    rw [show (decimals d.digits).drop 1 = ((Nat.toDigits 10 d.digits).drop 1).map _ from
      (List.map_drop ..).symm]
    split
    · rename_i none
      rw [List.isEmpty_iff.mp none, Utf8.encode_empty]
      rfl
    · rename_i some
      rw [if_neg fun none => some (List.isEmpty_iff.mpr (List.map_eq_nil_iff.mp none)),
        Utf8.encode_append, Utf8.encode_point,
        encode_digits fun _ listed => isDigit_toDigits (List.mem_of_mem_drop listed)]
      rfl
  unfold Decimal.scientific
  dsimp only
  rw [Utf8.encode_append, Utf8.encode_append, Utf8.encode_append, Utf8.encode_append, fraction,
    encode_digits fun _ listed => isDigit_toDigits (List.mem_of_mem_take listed), exponent, sign,
    encode_toString]
  have some : (scientific d).exponent ≠ [] := decimals_ne_nil _
  unfold octets exponentOctets
  rw [if_neg some]
  simp [scientific, decimals, octetsOf]

/-! ### What the numerals of decimals write -/

variable {d : Decimal}

theorem natural_digits (front back : Nat) :
    natural (List.replicate front 0 ++ decimals d.digits ++ List.replicate back 0) =
      d.digits * 10 ^ back := by
  rw [natural_append, natural_append, foldl_zeros, natural, foldl_zeros, Nat.zero_mul]
  exact congrArg (· * 10 ^ back) (natural_decimals d.digits)

theorem point_unmarked (n : Numeral) (none : n.exponent = [])
    (unsigned : n.exponentNegative = false) :
    n.point = -(n.fraction.length : Int) := by
  unfold point
  rw [none, unsigned]
  exact Int.zero_sub _

theorem writes_positional (d : Decimal) : (positional d).Writes d := by
  unfold positional
  split
  · rename_i upward
    refine ⟨d.exponent.toNat + 1, ?_, ?_⟩
    · have digits := natural_digits (d := d) 0 (d.exponent.toNat + 1)
      rwa [List.replicate_succ', ← List.append_assoc] at digits
    · rw [point_unmarked _ rfl rfl]
      dsimp only [List.length_singleton]
      omega
  · dsimp only
    split
    · refine ⟨0, ?_, ?_⟩
      · have digits := natural_digits (d := d) ((-(d.exponent + d.length)).toNat + 1) 0
        rwa [List.replicate_zero, List.append_nil] at digits
      · rw [point_unmarked _ rfl rfl]
        dsimp only
        rw [List.length_append, List.length_replicate, length_decimals]
        change -(((-(d.exponent + d.length)).toNat + d.length : Nat) : Int) + (0 : Nat) = _
        omega
    · refine ⟨0, ?_, ?_⟩
      · dsimp only
        rw [List.take_append_drop, natural_decimals, Nat.pow_zero, Nat.mul_one]
      · rw [point_unmarked _ rfl rfl]
        dsimp only
        rw [List.length_drop, length_decimals]
        change -((d.length - _ : Nat) : Int) + (0 : Nat) = _
        omega

theorem length_pos (d : Decimal) : 0 < d.length := by
  have some := List.length_pos_iff.mpr (decimals_ne_nil d.digits)
  rwa [length_decimals] at some

theorem signed_natAbs (e : Int) :
    (if decide (e < 0) = true then -(e.natAbs : Int) else e.natAbs) = e := by
  by_cases negative : e < 0
  · rw [if_pos (decide_eq_true negative)]
    omega
  · rw [if_neg (by simpa using negative)]
    omega

theorem writes_scientific (d : Decimal) : (scientific d).Writes d := by
  have some := length_pos d
  refine ⟨0, ?_, ?_⟩
  · unfold scientific
    dsimp only
    rw [List.take_append_drop, natural_decimals, Nat.pow_zero, Nat.mul_one]
  · unfold point scientific
    dsimp only
    rw [natural_decimals, signed_natAbs, List.length_drop, length_decimals]
    change d.exponent + d.length - 1 - ((d.length - 1 : Nat) : Int) + (0 : Nat) = _
    omega

theorem proper_positional (some : d.digits ≠ 0) : (positional d).Proper := by
  have lead := head?_decimals d.digits (Nat.pos_of_ne_zero some)
  have digit {e : Nat} (listed : e ∈ decimals d.digits) : e < 10 := lt_ten_of_mem_decimals listed
  have zero {k e : Nat} (listed : e ∈ List.replicate k 0) : e < 10 :=
    List.eq_of_mem_replicate listed ▸ by decide
  have lone : ∀ e ∈ [0], e < 10 := by decide
  unfold positional
  split
  · refine ⟨fun e listed => ?_, lone, nofun, ?_, fun none => ?_, fun _ => rfl⟩
    · exact (List.mem_append.mp listed).elim digit zero
    · exact List.append_ne_nil_of_left_ne_nil (decimals_ne_nil d.digits) _
    · rw [List.head?_append_of_ne_nil _ (decimals_ne_nil d.digits)] at none
      exact absurd none lead
  · dsimp only
    split
    · refine ⟨lone, fun e listed => ?_, nofun, nofun, fun _ => rfl, fun _ => rfl⟩
      exact (List.mem_append.mp listed).elim zero digit
    · rename_i several
      refine ⟨fun e listed => digit (List.mem_of_mem_take listed),
        fun e listed => digit (List.mem_of_mem_drop listed), nofun, ?_, fun none => ?_,
        fun _ => rfl⟩
      · dsimp only
        simp [several, decimals_ne_nil]
      · dsimp only at none
        rw [List.head?_take, if_neg several] at none
        exact absurd none lead

theorem proper_scientific (some : d.digits ≠ 0) : (scientific d).Proper := by
  have lead := head?_decimals d.digits (Nat.pos_of_ne_zero some)
  have digit {n e : Nat} (listed : e ∈ decimals n) : e < 10 := lt_ten_of_mem_decimals listed
  refine ⟨fun e listed => digit (List.mem_of_mem_take listed),
    fun e listed => digit (List.mem_of_mem_drop listed), fun e listed => digit listed, ?_,
    fun none => ?_, fun none => absurd none (decimals_ne_nil _)⟩
  · unfold scientific
    simp [decimals_ne_nil]
  · unfold scientific at none
    dsimp only at none
    rw [List.head?_take, if_neg (by decide)] at none
    exact absurd none lead

/-- With a sign. -/
def signed (negative : Bool) (n : Numeral) : Numeral :=
  { n with negative }

/-- The text of a positive decimal in the format of numbers, with a sign. -/
def ofDecimal (negative : Bool) (d : Decimal) : Numeral :=
  signed negative (if numberFormat.isPlain d then positional d else scientific d)

theorem encode_sign (negative : Bool) {n : Numeral} (unsigned : n.negative = false) :
    Utf8.encode (if negative then "-" else "") ++ n.octets = (signed negative n).octets := by
  unfold octets
  rw [unsigned]
  cases negative with
  | false => exact congrArg (· ++ _) Utf8.encode_empty
  | true => exact congrArg (· ++ _) Utf8.encode_minus

theorem fraction_positional (d : Decimal) : (positional d).fraction ≠ [] := by
  unfold positional
  split
  · exact List.cons_ne_nil _ _
  · dsimp only
    split
    · exact List.append_ne_nil_of_right_ne_nil _ (decimals_ne_nil d.digits)
    · rw [Ne, List.drop_eq_nil_iff, length_decimals]
      change ¬ d.length ≤ _
      omega

theorem natural_lt_of_length {ds : List Nat} (small : ∀ d ∈ ds, d < 10) (short : ds.length ≤ 16) :
    natural ds < capacity 64 := by
  refine Nat.lt_trans (natural_lt small) (Nat.lt_of_le_of_lt (Nat.pow_le_pow_right ?_ short) ?_)
  · decide
  · decide

/-- What is written without an exponent has at most sixteen digits in front of the point. -/
theorem whole_positional (some : d.digits ≠ 0) (short : d.leading < 16) :
    natural (positional d).whole < capacity 64 := by
  refine natural_lt_of_length (proper_positional some).whole ?_
  unfold Decimal.leading at short
  unfold positional
  split
  · dsimp only
    rw [List.length_append, List.length_replicate, length_decimals]
    change d.length + _ ≤ 16
    omega
  · dsimp only
    split
    · exact show 1 ≤ 16 by decide
    · rw [List.length_take]
      omega

/-- The leading digit of a decimal stands where its number allows it. -/
theorem leading_le (some : d.digits ≠ 0) (atMost : d.AtMost greatestSafe) : d.leading ≤ 308 := by
  have least : 10 ^ (d.length - 1) ≤ d.digits := by
    have lead := head?_decimals d.digits (Nat.pos_of_ne_zero some)
    have count := length_decimals d.digits
    have value := natural_decimals d.digits
    obtain ⟨e, rest, split⟩ := List.exists_cons_of_ne_nil (decimals_ne_nil d.digits)
    rw [split] at lead count value
    have positive : 0 < e := Nat.pos_of_ne_zero fun none => lead (by rw [none]; rfl)
    have bound := mul_pow_le_foldl e rest
    have all : rest.foldl (fun n d => n * 10 + d) e = d.digits := by
      rwa [natural, List.foldl_cons, Nat.zero_mul, Nat.zero_add] at value
    have same : d.length - 1 = rest.length := by
      change (Nat.toDigits 10 d.digits).length - 1 = _
      rw [← count]
      rfl
    rw [same, ← all]
    exact Nat.le_trans (Nat.le_mul_of_pos_left _ positive) bound
  have below : 10 ^ (d.length - 1 + d.exponent.toNat) <
      10 ^ (maxPower + 1 + (-d.exponent).toNat) := by
    rw [Nat.pow_add, Nat.pow_add]
    refine Nat.lt_of_le_of_lt (Nat.le_trans (Nat.mul_le_mul_right _ least) atMost) ?_
    exact Nat.mul_lt_mul_of_pos_right maxPower_spec.2.2.1 (Nat.pow_pos (by decide))
  have exponents := (Nat.pow_lt_pow_iff_right (by decide)).mp below
  unfold maxPower at exponents
  unfold Decimal.leading
  omega

theorem exponent_positional (d : Decimal) : (positional d).exponent = [] := by
  unfold positional
  split
  · rfl
  · dsimp only
    split <;> rfl

/-- The numeral of a decimal of a double is read, and as a double. -/
theorem value_ofDecimal (negative : Bool) (some : d.digits ≠ 0) (low : -1100 ≤ d.exponent)
    (atMost : d.AtMost greatestSafe) :
    ∃ x : Binary64, (ofDecimal negative d).value = .ok (.real x) ∧ x.isFinite = true := by
  unfold ofDecimal
  split
  · rename_i plain
    have short : d.leading < 16 := by
      unfold Decimal.Format.isPlain at plain
      simpa [numberFormat] using (Bool.and_eq_true_iff.mp plain).2
    refine value_of_writes (n := signed negative (positional d)) (writes_positional d)
      (.inl (fraction_positional d)) (whole_positional some short) ?_ atMost
    change natural (positional d).exponent ≤ exponentLimit
    rw [exponent_positional]
    exact Nat.zero_le _
  · refine value_of_writes (n := signed negative (scientific d)) (writes_scientific d)
      (.inr (decimals_ne_nil _)) ?_ ?_ atMost
    · refine natural_lt_of_length (proper_scientific some).whole ?_
      change ((decimals d.digits).take 1).length ≤ 16
      rw [List.length_take]
      omega
    · change natural (decimals d.leading.natAbs) ≤ exponentLimit
      have high := leading_le some atMost
      have digits := length_pos d
      have limit : exponentLimit = 2147483647 := by decide
      rw [natural_decimals, limit]
      unfold Decimal.leading at high ⊢
      omega

theorem scan_ofDecimal (negative : Bool) (some : d.digits ≠ 0) :
    scan (ofDecimal negative d).octets = .ok (ofDecimal negative d, []) := by
  unfold ofDecimal
  split
  · obtain ⟨whole, fraction, exponent, nonempty, lead, unsigned⟩ := proper_positional some
    exact scan_octets ⟨whole, fraction, exponent, nonempty, lead, unsigned⟩
  · obtain ⟨whole, fraction, exponent, nonempty, lead, unsigned⟩ := proper_scientific some
    exact scan_octets ⟨whole, fraction, exponent, nonempty, lead, unsigned⟩

theorem encode_ofDecimal (negative : Bool) (d : Decimal) :
    Utf8.encode ((if negative then "-" else "") ++
      if numberFormat.isPlain d then d.positional true else d.scientific) =
        (ofDecimal negative d).octets := by
  have unsigned : (positional d).negative = false := by
    unfold positional
    split
    · rfl
    · dsimp only
      split <;> rfl
  unfold ofDecimal
  rw [Utf8.encode_append]
  cases numberFormat.isPlain d with
  | true =>
      change _ ++ Utf8.encode (d.positional true) = (signed negative (positional d)).octets
      rw [encode_positional, encode_sign negative unsigned]
  | false =>
      change _ ++ Utf8.encode d.scientific = (signed negative (scientific d)).octets
      rw [encode_scientific, encode_sign negative rfl]

/-- A numeral is read as a finite double. -/
def writesDouble (n : Numeral) : Bool :=
  match n.value with
  | .ok (.real x) => x.isFinite
  | _ => false

theorem writesDouble_iff {n : Numeral} :
    n.writesDouble = true ↔ ∃ x : Binary64, n.value = .ok (.real x) ∧ x.isFinite = true := by
  unfold writesDouble
  constructor
  · intro reads
    split at reads
    · exact ⟨_, ‹_›, reads⟩
    · cases reads
  · rintro ⟨x, read, finite⟩
    rw [read]
    exact finite

/-- The greatest double is read, too, although its decimal exceeds it. -/
theorem writesDouble_greatest (negative : Bool) :
    (ofDecimal negative ⟨17976931348623157, 292⟩).writesDouble = true := by
  cases negative <;> decide +kernel

theorem shortest_greatest : ∀ narrowBelow : Bool,
    (⟨2 ^ 53 - 1, 971, narrowBelow⟩ : Binary64.Magnitude).shortest .toEven =
      ⟨17976931348623157, 292⟩ := by
  decide +kernel

/-- What is written for a zero. -/
def zero (negative : Bool) : Numeral :=
  ⟨negative, [0], [0], false, []⟩

end Numeral

open Numeral

theorem Number.render_real {x : Binary64} (finite : x.isFinite = true) :
    Utf8.encode (Number.real x).render =
      if x.isZero then (zero x.isNegative).octets
      else (ofDecimal x.isNegative (x.magnitude.shortest .toEven)).octets := by
  have noNaN : x.isNaN = false := by
    unfold Binary64.isNaN
    rw [Bool.and_eq_false_iff, beq_eq_false_iff_ne]
    exact .inl (bne_iff_ne.mp finite)
  change Utf8.encode (numberFormat.render x) = _
  unfold Decimal.Format.render
  rw [noNaN, finite]
  cases none : x.isZero with
  | true =>
      have text : ∀ negative : Bool,
          Utf8.encode ((if negative then "-" else "") ++ "0" ++ ".0") = (zero negative).octets := by
        intro negative
        cases negative <;> exact Utf8.encode_eq _
      exact text x.isNegative
  | false => exact encode_ofDecimal x.isNegative _

/-- The text of a finite double can be read again, as a finite double. -/
theorem Number.exists_again {x : Binary64} (finite : x.isFinite = true) :
    ∃ numeral y, scan (Utf8.encode (Number.real x).render) = .ok (numeral, []) ∧
      numeral.value = .ok (.real y) ∧ y.isFinite = true := by
  rw [Number.render_real finite]
  obtain ⟨digits, low, high, nonzero⟩ := Binary64.magnitude_spec finite
  cases none : x.isZero with
  | true =>
      have short : natural [0] < capacity 64 := by decide
      obtain ⟨y, read, finite⟩ := value_real (n := zero x.isNegative)
        (.inl (List.cons_ne_nil _ _)) short (Nat.zero_le _)
        (Nat.le_trans (Nat.le_of_eq (Nat.zero_mul _)) (Nat.zero_le _))
      exact ⟨zero x.isNegative, y, by cases x.isNegative <;> rfl, read, finite⟩
  | false =>
      have some := nonzero none
      by_cases greatest : x.magnitude.m = 2 ^ 53 - 1 ∧ x.magnitude.q = 971
      · have decimal : x.magnitude.shortest .toEven = ⟨17976931348623157, 292⟩ := by
          generalize x.magnitude = magnitude at greatest
          obtain ⟨m, q, narrowBelow⟩ := magnitude
          obtain ⟨rfl, rfl⟩ := greatest
          exact shortest_greatest narrowBelow
        obtain ⟨y, read, finite⟩ := writesDouble_iff.mp (writesDouble_greatest x.isNegative)
        rw [decimal]
        exact ⟨_, y, scan_ofDecimal x.isNegative (by decide), read, finite⟩
      · obtain ⟨atMost, digits, low⟩ := Binary64.Magnitude.shortest_spec .toEven some low
          (Binary64.Magnitude.middleAtMost digits high greatest)
        obtain ⟨y, read, finite⟩ := value_ofDecimal x.isNegative digits low atMost
        exact ⟨_, y, scan_ofDecimal x.isNegative digits, read, finite⟩

namespace Number

/-- What the text of a number is read as. -/
def reread (number : Number) : Number :=
  match scan (Utf8.encode number.render) with
  | .ok (numeral, _) => numeral.value.toOption.getD number
  | .error _ => number

theorem reread_eq {number read : Number} {numeral : Numeral}
    (scanned : scan (Utf8.encode number.render) = .ok (numeral, []))
    (value : numeral.value = .ok read) : number.reread = read := by
  simp only [reread, scanned, value]
  rfl

/-- A number that is read back as itself could be written by a text. -/
theorem Survives.readable {number : Number} (survives : number.Survives) : number.Readable := by
  obtain ⟨_, _, value⟩ := survives
  exact value_readable value

theorem Survives.reread {number : Number} (survives : number.Survives) :
    number.reread = number := by
  obtain ⟨_, scanned, value⟩ := survives
  exact reread_eq scanned value

/-- The text of a number that some text can write can be read again. -/
theorem Readable.again {number : Number} (readable : number.Readable) :
    ∃ numeral, scan (Utf8.encode number.render) = .ok (numeral, []) ∧
      numeral.value = .ok number.reread := by
  cases number with
  | integer n =>
      have survives := survives_integer readable.1 readable.2
      rw [survives.reread]
      exact survives
  | real x =>
      obtain ⟨numeral, y, scanned, value, _⟩ := exists_again readable
      rw [reread_eq scanned value]
      exact ⟨numeral, scanned, value⟩

theorem Readable.reread {number : Number} (readable : number.Readable) :
    number.reread.Readable := by
  obtain ⟨_, _, value⟩ := readable.again
  exact value_readable value

/-- An integer is read back as itself. -/
theorem reread_integer {n : Int} (readable : Readable (.integer n)) :
    reread (.integer n) = .integer n :=
  (survives_integer readable.1 readable.2).reread

/-- A double is read back as a double. -/
theorem exists_reread_real {x : Binary64} (readable : Readable (.real x)) :
    ∃ y, reread (.real x) = .real y := by
  obtain ⟨_, y, scanned, value, _⟩ := exists_again readable
  exact ⟨y, reread_eq scanned value⟩

end Number

end CodeNav.Json
