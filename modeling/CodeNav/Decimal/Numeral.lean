/-
Module: CodeNav.Decimal.Numeral
Purpose: Integers and doubles read from decimal text.
Main exports:
  Decimal.natural?, Decimal.integer?, Decimal.real?, Decimal.nearest
-/
import CodeNav.Count
import CodeNav.Decimal.Binary64

namespace CodeNav.Decimal

/-- The value of a run of decimal digits. -/
def ofDigits (digits : List Char) : Nat :=
  digits.foldl (fun n c => 10 * n + (c.toNat - '0'.toNat)) 0

/-- Whether a text consists of at least one decimal digit. -/
def isNatural (s : List Char) : Bool :=
  !s.isEmpty && s.all Char.isDigit

/-- A sign, if there is one, and what follows it. -/
def splitSign : List Char → Bool × List Char
  | '-' :: rest => (true, rest)
  | '+' :: rest => (false, rest)
  | rest => (false, rest)

/-- The natural number below `bound` that a text writes, with a plus sign or without one. -/
def natural? (bound : Nat) (text : String) : Option Nat :=
  match splitSign text.toList with
  | (true, _) => none
  | (false, digits) =>
    if isNatural digits && ofDigits digits < bound then some (ofDigits digits) else none

/-- Whether an integer fits 64 bits. -/
def fitsWord (n : Int) : Bool :=
  -(capacity 63 : Int) ≤ n && n < capacity 63

/-- The integer of 64 bits that a text writes, with a sign or without one. -/
def integer? (text : String) : Option Int :=
  let (negative, digits) := splitSign text.toList
  let n : Int := if negative then -(ofDigits digits : Int) else ofDigits digits
  if isNatural digits && fitsWord n then some n else none

/-- No double is as great as a decimal whose leading digit stands at this place or above. -/
def greatestPlace : Int := 400

/-- The double nearest to some digits times a power of ten. -/
def nearest (negative : Bool) (digits : List Char) (exponent : Int) : Binary64 :=
  let significand := ofDigits digits
  let magnitude : Float :=
    if significand == 0 || exponent + digits.length < -greatestPlace then 0
    else if greatestPlace < exponent then 1 / 0
    else Float.ofScientific significand (exponent < 0) exponent.natAbs
  if negative then (Binary64.ofFloat magnitude).neg else .ofFloat magnitude

/-- The exponent after its mark; without a mark it is zero. -/
def exponent? : List Char → Option Int
  | [] => some 0
  | mark :: rest =>
    let (negative, digits) := splitSign rest
    if (mark == 'e' || mark == 'E') && isNatural digits then
      some (if negative then -(ofDigits digits : Int) else ofDigits digits)
    else none

/-- The double that digits with a point and an exponent write. -/
def positional? (negative : Bool) (s : List Char) : Option Binary64 := do
  let whole := s.takeWhile Char.isDigit
  let rest := s.dropWhile Char.isDigit
  let (fraction, rest) := match rest with
    | '.' :: rest => (rest.takeWhile Char.isDigit, rest.dropWhile Char.isDigit)
    | rest => ([], rest)
  if whole.isEmpty && fraction.isEmpty then none
  else
    let exponent ← exponent? rest
    return nearest negative (whole ++ fraction) (exponent - fraction.length)

/-- The double that a text writes, infinity and the undefined number by name. -/
def real? (text : String) : Option Binary64 :=
  let (negative, s) := splitSign text.toList
  let sign (x : Binary64) : Binary64 := if negative then x.neg else x
  match (String.ofList s).toLower with
  | "inf" | "infinity" => some (sign (.ofFloat (1 / 0)))
  | "nan" => some (sign (.ofFloat (0 / 0)))
  | _ => positional? negative s

end CodeNav.Decimal
