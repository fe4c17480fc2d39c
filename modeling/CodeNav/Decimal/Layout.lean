/-
Module: CodeNav.Decimal.Layout
Purpose: How a selected decimal is laid out as text.
Main exports:
  Decimal.Format, Decimal.Format.render, Decimal.plain
-/
import CodeNav.Decimal.Shortest

namespace CodeNav.Decimal

/-- The decisions of a number format: which leading exponents are written positionally, whether an
integral value keeps a fraction digit, and which of two equally close decimals is written. -/
structure Format where
  /-- Leading exponents below this are written with an exponent, unless absent. -/
  plainFrom : Option Int
  /-- Leading exponents from this on are written with an exponent, unless absent. -/
  plainBelow : Option Int
  /-- An integral value is followed by a zero fraction. -/
  fractionZero : Bool
  tie : Tie
  notANumber : String
  infinite : String

/-- A run of zeros. -/
def zeros (n : Nat) : String :=
  String.ofList (List.replicate n '0')

/-- The exponent of the leading digit. -/
def leading (d : Decimal) : Int :=
  d.exponent + d.length - 1

/-- Digits with a point, or with zeros up to the point. -/
def positional (d : Decimal) (fractionZero : Bool) : String :=
  let digits := Nat.toDigits 10 d.digits
  if 0 ≤ d.exponent then
    String.ofList digits ++ zeros d.exponent.toNat ++ (if fractionZero then ".0" else "")
  else
    let whole := (d.exponent + digits.length).toNat
    if whole == 0 then
      "0." ++ zeros (-(d.exponent + digits.length)).toNat ++ String.ofList digits
    else String.ofList (digits.take whole) ++ "." ++ String.ofList (digits.drop whole)

/-- Digits with the point after the first one, and a signed exponent. -/
def scientific (d : Decimal) : String :=
  let digits := Nat.toDigits 10 d.digits
  let fraction := digits.drop 1
  let point := if fraction.isEmpty then "" else "." ++ String.ofList fraction
  let sign := if d.leading < 0 then "-" else "+"
  String.ofList (digits.take 1) ++ point ++ "e" ++ sign ++ toString d.leading.natAbs

/-- Whether a decimal is written positionally. -/
def Format.isPlain (format : Format) (d : Decimal) : Bool :=
  format.plainFrom.all (· ≤ d.leading) && format.plainBelow.all (d.leading < ·)

/-- The text of a double in a format. -/
def Format.render (format : Format) (x : Binary64) : String :=
  if x.isNaN then format.notANumber
  else
    let sign := if x.isNegative then "-" else ""
    if !x.isFinite then sign ++ format.infinite
    else if x.isZero then sign ++ "0" ++ (if format.fractionZero then ".0" else "")
    else
      let d := x.magnitude.shortest format.tie
      sign ++ (if format.isPlain d then d.positional format.fractionZero else d.scientific)

/-- Numbers in full: never with an exponent, and with a fraction only if there is one; a tie goes
to the greater digit. -/
def plain : Format where
  plainFrom := none
  plainBelow := none
  fractionZero := false
  tie := .upward
  notANumber := "NaN"
  infinite := "inf"

end CodeNav.Decimal
