/-
Module: CodeNav.Json.Printer
Purpose: The compact text of JSON values.
Main exports:
  Json.numberFormat, Json.Number.render, Json.quote, Json.Value.render
-/
import CodeNav.Decimal.Layout
import CodeNav.Json.Value

namespace CodeNav.Json

/-- Doubles are written with the fewest digits that identify them, with a point from `0.00001` up
to below `10^16`, otherwise with a signed exponent; a tie goes to the even digit. -/
def numberFormat : Decimal.Format where
  plainFrom := some (-5)
  plainBelow := some 16
  fractionZero := true
  tie := .toEven
  notANumber := "null"
  infinite := "null"

/-- The text of a number. -/
def Number.render : Number → String
  | .integer n => toString n
  | .real x => numberFormat.render x

/-- The characters that stand for one character inside quotes. -/
def escape (c : Char) : List Char :=
  match c with
  | '"' => ['\\', '"']
  | '\\' => ['\\', '\\']
  | '\n' => ['\\', 'n']
  | '\r' => ['\\', 'r']
  | '\t' => ['\\', 't']
  | '\x08' => ['\\', 'b']
  | '\x0c' => ['\\', 'f']
  | c =>
    if c.toNat < 0x20 then
      ['\\', 'u', '0', '0', Nat.digitChar (c.toNat / 16), Nat.digitChar (c.toNat % 16)]
    else [c]

/-- A text in quotes. -/
def quote (s : String) : String :=
  String.ofList ('"' :: s.toList.flatMap escape ++ ['"'])

mutual

/-- The compact text of a value. -/
def Value.render : Value → String
  | .null => "null"
  | .bool b => if b then "true" else "false"
  | .number n => n.render
  | .string s => quote s
  | .array items => "[" ++ renderItems true items ++ "]"
  | .object fields => "\x7b" ++ renderFields true fields ++ "\x7d"

/-- The items of an array, each after the first behind a comma. -/
def renderItems : Bool → List Value → String
  | _, [] => ""
  | first, item :: rest =>
    (if first then "" else ",") ++ Value.render item ++ renderItems false rest

/-- The members of an object, each after the first behind a comma. -/
def renderFields : Bool → List (String × Value) → String
  | _, [] => ""
  | first, (key, value) :: rest =>
    (if first then "" else ",") ++ quote key ++ ":" ++ Value.render value
      ++ renderFields false rest

end

end CodeNav.Json
