/-
Module: CodeNav.Proofs.Json.Numerals
Purpose: Numbers written and read again.
Main exports:
  Json.EndsNumber, Json.Numeral.scan_append, Json.Number.Survives, Json.Number.survives_integer
-/
import CodeNav.Json.Printer
import CodeNav.Json.Reader
import CodeNav.Proofs.Success
import CodeNav.Proofs.Text.Utf8
import Mathlib.Data.Nat.Digits.Defs

namespace CodeNav.Json

open String (utf8EncodeChar)

/-! ### Numerals in a text -/

/-- Octets that no numeral goes on with: nothing, a blank, or what may follow a value inside
another. -/
def EndsNumber (rest : List UInt8) : Prop :=
  ∀ b ∈ rest.head?, b = 0x2C ∨ b = 0x5D ∨ b = 0x7D ∨ isSpace b = true

theorem isSpace_iff {b : UInt8} :
    isSpace b = true ↔ b = 0x20 ∨ b = 0x09 ∨ b = 0x0A ∨ b = 0x0D := by
  simp only [isSpace, Bool.or_eq_true, beq_iff_eq, or_assoc]

theorem EndsNumber.cases {b : UInt8} {rest : List UInt8} (ends : EndsNumber (b :: rest)) :
    b = 0x2C ∨ b = 0x5D ∨ b = 0x7D ∨ b = 0x20 ∨ b = 0x09 ∨ b = 0x0A ∨ b = 0x0D := by
  have first := ends b rfl
  rwa [isSpace_iff] at first

namespace Numeral

variable {s left rest : List UInt8} {ds : List Nat}

theorem digits_of_endsNumber (ends : EndsNumber rest) : digits rest = ([], rest) := by
  cases rest with
  | nil => rfl
  | cons b rest => rcases ends.cases with rfl | rfl | rfl | rfl | rfl | rfl | rfl <;> rfl

theorem digits_append (s : List UInt8) (ends : EndsNumber rest) :
    digits (s ++ rest) = ((digits s).1, (digits s).2 ++ rest) := by
  induction s with
  | nil => exact digits_of_endsNumber ends
  | cons b s ih =>
      rw [List.cons_append, digits, digits]
      cases digit? b with
      | none => rfl
      | some d => simp only [ih]

theorem scanWhole_append (found : scanWhole s = .ok (ds, left)) (ends : EndsNumber rest) :
    scanWhole (s ++ rest) = .ok (ds, left ++ rest) := by
  unfold scanWhole at found ⊢
  rw [digits_append s ends]
  generalize digits s = scanned at found
  obtain ⟨_ | ⟨_ | d, _ | ⟨e, more⟩⟩, after⟩ := scanned <;> cases found <;> rfl

theorem scanFraction_none (noPoint : s.head? ≠ some 0x2E) : scanFraction s = .ok ([], s) := by
  unfold scanFraction
  split
  · exact absurd rfl noPoint
  · rfl

theorem scanFraction_append (found : scanFraction s = .ok (ds, left)) (ends : EndsNumber rest) :
    scanFraction (s ++ rest) = .ok (ds, left ++ rest) := by
  have noPoint : rest.head? ≠ some 0x2E := by
    intro point
    obtain ⟨more, rfl⟩ := List.head?_eq_some_iff.mp point
    have first := ends.cases
    revert first
    decide
  rcases s with _ | ⟨b, s⟩
  · cases found
    exact scanFraction_none noPoint
  · by_cases point : b = 0x2E
    · subst point
      rw [List.cons_append]
      simp only [scanFraction] at found ⊢
      rw [digits_append s ends]
      generalize digits s = scanned at found
      obtain ⟨_ | ⟨d, more⟩, after⟩ := scanned <;> cases found
      rfl
    · have other (t : List UInt8) : (b :: t).head? ≠ some 0x2E := by simpa using point
      rw [scanFraction_none (other s)] at found
      cases found
      exact scanFraction_none (other (s ++ rest))

/-- The sign of an exponent, and what follows it. -/
def exponentSign (s : List UInt8) : Bool × List UInt8 :=
  if s.head? = some 0x2B then (false, s.tail)
  else if s.head? = some 0x2D then (true, s.tail)
  else (false, s)

/-- The digits of an exponent whose sign has been read. -/
def exponentDigits (negative : Bool) (s : List UInt8) :
    Except Fault (Bool × List Nat × List UInt8) :=
  if (digits s).1.isEmpty then .error (missingDigit (digits s).2) else .ok (negative, digits s)

theorem scanExponent_mark {b : UInt8} (mark : ¬ (b != 0x65 && b != 0x45) = true)
    (s : List UInt8) :
    scanExponent (b :: s) = exponentDigits (exponentSign s).1 (exponentSign s).2 := by
  unfold exponentDigits
  by_cases plus : s.head? = some 0x2B
  · obtain ⟨after, rfl⟩ := List.head?_eq_some_iff.mp plus
    have signed : exponentSign (0x2B :: after) = (false, after) := by simp [exponentSign]
    rw [signed]
    simp only [scanExponent, mark]
    generalize digits after = scanned
    obtain ⟨_ | ⟨d, more⟩, rest⟩ := scanned <;> rfl
  · by_cases minus : s.head? = some 0x2D
    · obtain ⟨after, rfl⟩ := List.head?_eq_some_iff.mp minus
      have signed : exponentSign (0x2D :: after) = (true, after) := by simp [exponentSign]
      rw [signed]
      simp only [scanExponent, mark]
      generalize digits after = scanned
      obtain ⟨_ | ⟨d, more⟩, rest⟩ := scanned <;> rfl
    · have signed : exponentSign s = (false, s) := by simp [exponentSign, plus, minus]
      rw [signed, scanExponent, if_neg mark]
      · generalize digits s = scanned
        obtain ⟨_ | ⟨d, more⟩, rest⟩ := scanned <;> rfl
      · rintro after rfl
        exact plus rfl
      · rintro after rfl
        exact minus rfl

theorem exponentDigits_append {negative sign : Bool}
    (found : exponentDigits sign s = .ok (negative, ds, left)) (ends : EndsNumber rest) :
    exponentDigits sign (s ++ rest) = .ok (negative, ds, left ++ rest) := by
  unfold exponentDigits at found ⊢
  rw [digits_append s ends]
  generalize digits s = scanned at found
  obtain ⟨_ | ⟨d, more⟩, after⟩ := scanned <;> cases found
  rfl

theorem exponentSign_append (c : UInt8) (s rest : List UInt8) :
    exponentSign (c :: s ++ rest) =
      ((exponentSign (c :: s)).1, (exponentSign (c :: s)).2 ++ rest) := by
  by_cases plus : c = 0x2B
  · rw [plus]
    rfl
  · by_cases minus : c = 0x2D
    · rw [minus]
      rfl
    · simp [exponentSign, plus, minus]

theorem scanExponent_append {negative : Bool} (found : scanExponent s = .ok (negative, ds, left))
    (ends : EndsNumber rest) : scanExponent (s ++ rest) = .ok (negative, ds, left ++ rest) := by
  rcases s with _ | ⟨b, s⟩
  · cases found
    rcases rest with _ | ⟨b, rest⟩
    · rfl
    · rcases ends.cases with rfl | rfl | rfl | rfl | rfl | rfl | rfl <;> rfl
  · rw [List.cons_append]
    by_cases mark : (b != 0x65 && b != 0x45) = true
    · unfold scanExponent at found ⊢
      simp only [mark, if_true] at found ⊢
      cases found
      rfl
    · rw [scanExponent_mark mark] at found ⊢
      rcases s with _ | ⟨c, s⟩
      · cases found
      · rw [exponentSign_append]
        exact exponentDigits_append found ends

/-- The sign of a numeral, and what follows it. -/
def splitSign (s : List UInt8) : Bool × List UInt8 :=
  if s.head? = some 0x2D then (true, s.tail) else (false, s)

theorem splitSign_append (c : UInt8) (s rest : List UInt8) :
    splitSign (c :: s ++ rest) = ((splitSign (c :: s)).1, (splitSign (c :: s)).2 ++ rest) := by
  unfold splitSign
  split
  · rename_i minus
    rw [if_pos (show (c :: s).head? = _ from minus)]
    rfl
  · rename_i noMinus
    rw [if_neg (show ¬ (c :: s).head? = _ from noMinus)]

/-- A numeral is scanned part by part. -/
theorem scan_eq_ok {numeral : Numeral} : scan s = .ok (numeral, left) ↔
    ∃ afterWhole afterFraction,
      scanWhole (splitSign s).2 = .ok (numeral.whole, afterWhole) ∧
      scanFraction afterWhole = .ok (numeral.fraction, afterFraction) ∧
      scanExponent afterFraction = .ok (numeral.exponentNegative, numeral.exponent, left) ∧
      (splitSign s).1 = numeral.negative := by
  have parts (negative : Bool) (digits : List UInt8)
      (signed : splitSign s = (negative, digits)) : scan s = (do
        let found ← scanWhole digits
        let fraction ← scanFraction found.2
        let exponent ← scanExponent fraction.2
        return (⟨negative, found.1, fraction.1, exponent.1, exponent.2.1⟩, exponent.2.2)) := by
    unfold splitSign at signed
    split at signed
    · rename_i minus
      obtain ⟨after, rfl⟩ := List.head?_eq_some_iff.mp minus
      cases signed
      rfl
    · rename_i noMinus
      cases signed
      rw [scan]
      rintro after rfl
      exact noMinus rfl
  rw [parts (splitSign s).1 (splitSign s).2 rfl]
  simp only [Success.bind_eq_ok, Success.pure_eq_ok]
  constructor
  · rintro ⟨whole, first, fraction, second, exponent, third, same⟩
    cases same
    exact ⟨_, _, first, second, third, rfl⟩
  · rintro ⟨afterWhole, afterFraction, first, second, third, signed⟩
    refine ⟨_, first, _, second, _, third, ?_⟩
    rw [signed]

/-- A numeral is scanned alike whatever ends it. -/
theorem scan_append {numeral : Numeral} (found : scan s = .ok (numeral, left))
    (ends : EndsNumber rest) : scan (s ++ rest) = .ok (numeral, left ++ rest) := by
  obtain ⟨afterWhole, afterFraction, whole, fraction, exponent, signed⟩ := scan_eq_ok.mp found
  rcases s with _ | ⟨c, s⟩
  · cases found
  · refine scan_eq_ok.mpr ⟨afterWhole ++ rest, afterFraction ++ rest, ?_, scanFraction_append fraction ends,
      scanExponent_append exponent ends, ?_⟩
    · rw [splitSign_append]
      exact scanWhole_append whole ends
    · rw [splitSign_append]
      exact signed

/-- A numeral starts with a digit or a minus sign. -/
theorem head_of_scan {numeral : Numeral} (found : scan s = .ok (numeral, left)) :
    ∃ b more, s = b :: more ∧ (b == 0x2D || (digit? b).isSome) = true := by
  cases s with
  | nil => cases found
  | cons b more =>
      refine ⟨b, more, rfl, ?_⟩
      obtain ⟨afterWhole, _, whole, _⟩ := scan_eq_ok.mp found
      by_cases minus : b = 0x2D
      · simp [minus]
      · have signed : splitSign (b :: more) = (false, b :: more) := by
          simp [splitSign, minus]
        rw [signed, scanWhole, digits] at whole
        cases digit : digit? b with
        | none =>
            rw [digit] at whole
            cases whole
        | some d => simp

/-! ### Integers -/

/-- The decimal digits of a number, the leading one first. -/
def decimals (n : Nat) : List Nat :=
  (Nat.toDigits 10 n).map fun c => c.toNat - 48

/-- The octets of digits. -/
def octetsOf (ds : List Nat) : List UInt8 :=
  ds.map fun d => .ofNat (d + 48)

theorem code_of_mem_toDigits {n : Nat} {c : Char} (listed : c ∈ Nat.toDigits 10 n) :
    48 ≤ c.toNat ∧ c.toNat ≤ 57 :=
  Char.isDigit_iff_toNat.mp (Nat.isDigit_of_mem_toDigits (by decide) (by decide) listed)

theorem lt_ten_of_mem_decimals {n d : Nat} (listed : d ∈ decimals n) : d < 10 := by
  obtain ⟨c, member, rfl⟩ := List.mem_map.mp listed
  have := code_of_mem_toDigits member
  omega

theorem natural_decimals (n : Nat) : natural (decimals n) = n := by
  unfold natural decimals
  rw [List.foldl_map]
  have value : Nat.ofDigitChars 10 (Nat.toDigits 10 n) 0 = n := Nat.ofDigitChars_ten_toDigits
  simp only [Nat.ofDigitChars, Nat.mul_comm 10] at value
  exact value

theorem decimals_ne_nil (n : Nat) : decimals n ≠ [] := by
  simp [decimals]

/-- Only zero is written with a leading zero. -/
theorem head?_decimals (n : Nat) (positive : 0 < n) : (decimals n).head? ≠ some 0 := by
  unfold decimals
  rw [Nat.toDigits_eq_if (by decide)]
  split
  · rename_i small
    rw [List.map_singleton, List.head?_cons, Nat.toNat_digitChar_sub_48_of_lt_ten small]
    simpa using positive.ne'
  · have shorter : n / 10 < n := Nat.div_lt_self positive (by decide)
    have rest := head?_decimals (n / 10) (by omega)
    rw [List.map_append]
    change (decimals (n / 10) ++ _).head? ≠ some 0
    rw [List.head?_append_of_ne_nil _ (decimals_ne_nil (n / 10))]
    exact rest

theorem encode_digits {cs : List Char} (digits : ∀ c ∈ cs, c.isDigit = true) :
    Utf8.encode (String.ofList cs) = octetsOf (cs.map fun c => c.toNat - 48) := by
  rw [Utf8.encode_ofList]
  unfold octetsOf
  rw [List.map_map, ← List.flatMap_pure_eq_map]
  apply List.flatMap_congr
  intro c listed
  have code : 48 ≤ c.toNat ∧ c.toNat ≤ 57 := Char.isDigit_iff_toNat.mp (digits c listed)
  rw [Utf8.utf8EncodeChar_eq, if_pos (by omega)]
  simp only [Function.comp_apply, pure]
  congr 2
  omega

theorem isDigit_toDigits {n : Nat} {c : Char} (listed : c ∈ Nat.toDigits 10 n) :
    c.isDigit = true :=
  Nat.isDigit_of_mem_toDigits (by decide) (by decide) listed

theorem encode_toString (n : Nat) : Utf8.encode (toString n) = octetsOf (decimals n) := by
  rw [Nat.toString_eq_ofList_toDigits]
  exact encode_digits fun _ => isDigit_toDigits

theorem digits_octetsOf_append {rest : List UInt8} (small : ∀ d ∈ ds, d < 10)
    (ends : digits rest = ([], rest)) : digits (octetsOf ds ++ rest) = (ds, rest) := by
  have digit : ∀ d < 10, digit? (.ofNat (d + 48)) = some d := by decide
  induction ds with
  | nil => exact ends
  | cons d ds ih =>
      have rest := ih fun other member => small other (List.mem_cons_of_mem d member)
      change digits (.ofNat (d + 48) :: (octetsOf ds ++ _)) = _
      rw [digits, digit d (small d List.mem_cons_self), rest]

theorem digits_octetsOf (small : ∀ d ∈ ds, d < 10) : digits (octetsOf ds) = (ds, []) := by
  have whole := @digits_octetsOf_append ds [] small rfl
  rwa [List.append_nil] at whole

/-- Digits are joined completely if their number fits. -/
theorem absorb_eq {bound : Nat} (significand : Nat) (ds : List Nat)
    (joined : ds.foldl (fun n d => n * 10 + d) significand = bound) (fits : bound < capacity 64) :
    absorb significand ds = (bound, []) := by
  induction ds generalizing significand with
  | nil =>
      cases joined
      rfl
  | cons d ds ih =>
      have grows (n : Nat) : n ≤ ds.foldl (fun n d => n * 10 + d) n := by
        clear joined ih
        induction ds generalizing n with
        | nil => exact Nat.le_refl n
        | cons e ds ih => exact Nat.le_trans (by omega) (ih (n * 10 + e))
      have next := grows (significand * 10 + d)
      rw [List.foldl_cons] at joined
      rw [joined] at next
      rw [absorb, if_pos (Nat.lt_of_le_of_lt next fits)]
      exact ih _ joined

/-- The numeral of an integer. -/
def ofParts (negative : Bool) (n : Nat) : Numeral :=
  ⟨negative, decimals n, [], false, []⟩

theorem scanWhole_decimals (n : Nat) :
    scanWhole (octetsOf (decimals n)) = .ok (decimals n, []) := by
  have found := digits_octetsOf (fun d => @lt_ten_of_mem_decimals n d)
  have leading : 0 < n → (decimals n).head? ≠ some 0 := head?_decimals n
  have zero : n = 0 → decimals n = [0] := by
    rintro rfl
    rfl
  have some := decimals_ne_nil n
  unfold scanWhole
  rw [found]
  generalize decimals n = ds at leading zero some
  obtain _ | ⟨_ | d, _ | ⟨e, more⟩⟩ := ds
  · exact absurd rfl some
  · rfl
  · rcases Nat.eq_zero_or_pos n with none | positive
    · cases zero none
    · exact absurd rfl (leading positive)
  · rfl
  · rfl

/-- A scanned sign and whole part are all there is of the numeral of an integer. -/
theorem scan_decimals {negative : Bool} {n : Nat}
    (signed : splitSign s = (negative, octetsOf (decimals n))) :
    scan s = .ok (ofParts negative n, []) := by
  refine scan_eq_ok.mpr ⟨[], [], ?_, rfl, rfl, ?_⟩
  · rw [signed]
    exact scanWhole_decimals n
  · rw [signed]
    rfl

/-- The numeral of an integer of 64 bits writes that integer. -/
theorem value_ofParts {negative : Bool} {n : Nat} (fits : n < capacity 64)
    (signed : negative = true → 0 < n ∧ n ≤ capacity 63) :
    (ofParts negative n).value = .ok (.integer (if negative then -(n : Int) else n)) := by
  have joined : absorb 0 (decimals n) = (n, []) := absorb_eq 0 _ (natural_decimals n) fits
  unfold value ofParts
  simp only [joined]
  cases negative with
  | false => rfl
  | true =>
      obtain ⟨positive, bounded⟩ := signed rfl
      simp [positive, bounded]

theorem splitSign_decimals (n : Nat) :
    splitSign (octetsOf (decimals n)) = (false, octetsOf (decimals n)) := by
  unfold splitSign
  rw [if_neg]
  intro minus
  rw [octetsOf, List.head?_map, Option.map_eq_some_iff] at minus
  obtain ⟨d, first, octet⟩ := minus
  have small := lt_ten_of_mem_decimals (List.mem_of_head? first)
  have other : ∀ d < 10, UInt8.ofNat (d + 48) ≠ 0x2D := by decide
  exact other d small octet

end Numeral

/-! ### Numbers -/

/-- The text of a number is read back as the number. -/
def Number.Survives (number : Number) : Prop :=
  ∃ numeral, Numeral.scan (Utf8.encode number.render) = .ok (numeral, []) ∧
    numeral.value = .ok number

/-- Integers of 64 bits survive. -/
theorem Number.survives_integer {n : Int} (low : -(capacity 63 : Int) ≤ n)
    (high : n < capacity 64) : Number.Survives (.integer n) := by
  have limits : capacity 63 < capacity 64 := by decide
  cases n with
  | ofNat n =>
      have fits : n < capacity 64 := Int.ofNat_lt.mp high
      refine ⟨Numeral.ofParts false n, Numeral.scan_decimals ?_, Numeral.value_ofParts fits nofun⟩
      change Numeral.splitSign (Utf8.encode (toString n)) = _
      rw [Numeral.encode_toString]
      exact Numeral.splitSign_decimals n
  | negSucc n =>
      have bounded : n + 1 ≤ capacity 63 := by omega
      refine ⟨Numeral.ofParts true (n + 1), Numeral.scan_decimals ?_,
        Numeral.value_ofParts (Nat.lt_of_le_of_lt bounded limits)
          fun _ => ⟨Nat.succ_pos n, bounded⟩⟩
      change Numeral.splitSign (Utf8.encode ("-" ++ toString (n + 1))) = _
      rw [Utf8.encode_append, Numeral.encode_toString, Utf8.encode_minus]
      rfl

end CodeNav.Json
