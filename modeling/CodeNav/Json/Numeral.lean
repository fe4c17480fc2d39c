/-
Module: CodeNav.Json.Numeral
Purpose: Numerals of JSON texts and the numbers that they write.
Main exports:
  Json.Numeral, Json.Numeral.scan, Json.Numeral.value
-/
import CodeNav.Count
import CodeNav.Json.Cause
import CodeNav.Json.Value

namespace CodeNav.Json

/-- A numeral by its parts, each a list of decimal digits. -/
structure Numeral where
  negative : Bool
  whole : List Nat
  fraction : List Nat
  exponentNegative : Bool
  exponent : List Nat
deriving Repr, DecidableEq

namespace Numeral

/-- The value of a digit octet. -/
def digit? (b : UInt8) : Option Nat :=
  if 0x30 ≤ b && b ≤ 0x39 then some (b.toNat - 0x30) else none

/-- The leading digits, and what follows them. -/
def digits : List UInt8 → List Nat × List UInt8
  | [] => ([], [])
  | b :: rest =>
    match digit? b with
    | some d =>
      let (ds, left) := digits rest
      (d :: ds, left)
    | none => ([], b :: rest)

/-- The fault at a place where a digit has to stand. -/
def missingDigit : List UInt8 → Fault
  | [] => ⟨.endInValue, .invalidNumber⟩
  | _ :: _ => .of .invalidNumber

/-- The whole part: a lone zero, or digits that start with another one. -/
def scanWhole (s : List UInt8) : Except Fault (List Nat × List UInt8) :=
  match digits s with
  | ([], rest) => .error (missingDigit rest)
  | (0 :: _ :: _, _) => .error (.of .invalidNumber)
  | found => .ok found

/-- The digits after a point, if there is one. -/
def scanFraction : List UInt8 → Except Fault (List Nat × List UInt8)
  | 0x2E :: s =>
    match digits s with
    | ([], rest) => .error (missingDigit rest)
    | found => .ok found
  | s => .ok ([], s)

/-- The sign and digits of an exponent, if there is one. -/
def scanExponent : List UInt8 → Except Fault (Bool × List Nat × List UInt8)
  | [] => .ok (false, [], [])
  | b :: s =>
    if b != 0x65 && b != 0x45 then .ok (false, [], b :: s)
    else
      let (negative, s) := match s with
        | 0x2B :: s => (false, s)
        | 0x2D :: s => (true, s)
        | s => (false, s)
      match digits s with
      | ([], rest) => .error (missingDigit rest)
      | (ds, rest) => .ok (negative, ds, rest)

/-- Scans a numeral whose first octet is a digit or a minus sign. -/
def scan (s : List UInt8) : Except Fault (Numeral × List UInt8) := do
  let (negative, s) := match s with
    | 0x2D :: s => (true, s)
    | s => (false, s)
  let (whole, s) ← scanWhole s
  let (fraction, s) ← scanFraction s
  let (exponentNegative, exponent, s) ← scanExponent s
  return (⟨negative, whole, fraction, exponentNegative, exponent⟩, s)

/-!
A numeral without point and exponent that fits 64 bits is an integer.  Every other numeral is a
double: its leading digits that fit 64 bits, scaled by one multiplication with, or division by,
a power of ten.  The result can differ from the nearest double in its last place.
-/

/-- Joins digits to a significand as long as it stays below `2^64`; the digits left over. -/
def absorb : Nat → List Nat → Nat × List Nat
  | significand, [] => (significand, [])
  | significand, d :: ds =>
    if significand * 10 + d < capacity 64 then absorb (significand * 10 + d) ds
    else (significand, d :: ds)

/-- The greatest exponent that has a double of its own. -/
def maxPower : Nat := 308

/-- The double of a power of ten. -/
def power (n : Nat) : Float :=
  Float.ofScientific 1 false n

/-- A float divided by a power of ten, in steps of at most `10^308`. -/
def divide (f : Float) (n : Nat) : Float :=
  if n ≤ maxPower then f / power n
  else if f == 0 then f
  else divide (f / power maxPower) (n - maxPower)
termination_by n
decreasing_by unfold maxPower at *; omega

/-- A float multiplied by a power of ten, unless that leaves the range. -/
def multiply (f : Float) (n : Nat) : Except Cause Float :=
  if n ≤ maxPower then
    let product := f * power n
    if product.isInf then .error .numberOutOfRange else .ok product
  else if f == 0 then .ok f
  else .error .numberOutOfRange

/-- The double of a sign, a significand and an exponent of ten. -/
def scaled (negative : Bool) (significand : Nat) (exponent : Int) : Except Cause Number := do
  let f := Float.ofNat significand
  let scaled ← if 0 ≤ exponent then multiply f exponent.toNat
    else .ok (divide f exponent.natAbs)
  let magnitude := Binary64.ofFloat scaled
  return .real (if negative then magnitude.neg else magnitude)

/-- The greatest exponent kept apart from all greater ones. -/
def exponentLimit : Nat := capacity 31 - 1

/-- The number written in decimal digits. -/
def natural (ds : List Nat) : Nat :=
  ds.foldl (fun n d => n * 10 + d) 0

/-- The number that a numeral writes. -/
def value (n : Numeral) : Except Cause Number :=
  let (significand, overflow) := absorb 0 n.whole
  if n.fraction.isEmpty && n.exponent.isEmpty && overflow.isEmpty
      && (!n.negative || (0 < significand && significand ≤ capacity 63)) then
    .ok (.integer (if n.negative then -(significand : Int) else significand))
  else
    let (significand, dropped) := absorb significand n.fraction
    let point : Int := overflow.length - (n.fraction.length - dropped.length : Nat)
    let exponent := natural n.exponent
    if exponent ≤ exponentLimit then
      let total := point + (if n.exponentNegative then -(exponent : Int) else exponent)
      scaled n.negative significand total
    else if significand != 0 && !n.exponentNegative then .error .numberOutOfRange
    else scaled n.negative 0 0

end Numeral

end CodeNav.Json
