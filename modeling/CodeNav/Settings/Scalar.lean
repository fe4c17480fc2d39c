/-
Module: CodeNav.Settings.Scalar
Purpose: Configuration values read as truth values, numbers and texts.
Main exports:
  Tree.toBool?, Tree.toNat?, Tree.toText?, Tree.ofVariable
-/
import CodeNav.Decimal.Layout
import CodeNav.Decimal.Numeral
import CodeNav.Settings.Tree

namespace CodeNav.Tree

/-- The words for true. -/
def trueWords : List String :=
  ["true", "on", "yes"]

/-- The words for false. -/
def falseWords : List String :=
  ["false", "off", "no"]

/-- The truth value that a text writes. -/
def textToBool? (text : String) : Option Bool :=
  let word := text.toLower
  if word == "1" || trueWords.contains word then some true
  else if word == "0" || falseWords.contains word then some false
  else none

/-- A value as a truth value: numbers are true unless they are zero. -/
def toBool? : Tree → Option Bool
  | .bool b => some b
  | .integer n => some (n != 0)
  | .real x => some (!x.isZero)
  | .text s => textToBool? s
  | .list _ | .table _ => none

/-- The number that a text writes; the words for true and false are one and zero. -/
def textToNat? (text : String) : Option Nat :=
  let word := text.toLower
  if trueWords.contains word then some 1
  else if falseWords.contains word then some 0
  else Decimal.natural? (capacity 64) text

/-- The natural number of 64 bits nearest to a double. -/
def realToNat (x : Binary64) : Nat :=
  x.toFloat.round.toUInt64.toNat

/-- A value as a natural number below `bound`. -/
def toNat? (bound : Nat) (value : Tree) : Option Nat := do
  let n ← match value with
    | .bool b => some b.toNat
    | .integer n => if 0 ≤ n then some n.toNat else none
    | .real x => some (realToNat x)
    | .text s => textToNat? s
    | .list _ | .table _ => none
  if n < bound then some n else none

/-- A value as a text. -/
def toText? : Tree → Option String
  | .bool b => some (toString b)
  | .integer n => some (toString n)
  | .real x => some (Decimal.plain.render x)
  | .text s => some s
  | .list _ | .table _ => none

/-- The value of a variable: a truth value or a number if it writes one, otherwise a text. -/
def ofVariable (text : String) : Tree :=
  match text.toLower, Decimal.integer? text, Decimal.real? text with
  | "true", _, _ => .bool true
  | "false", _, _ => .bool false
  | _, some n, _ => .integer n
  | _, none, some x => .real x
  | _, none, none => .text text

end CodeNav.Tree
