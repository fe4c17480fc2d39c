/-
Module: CodeNav.Toml.Number
Purpose: Numbers, truth values and dates of TOML documents.
Main exports:
  Toml.scalar?
-/
import CodeNav.Decimal.Numeral
import CodeNav.Settings.Tree

namespace CodeNav.Toml

/-- Digits without the underscores that stand between two of them. -/
def ungroup (isDigit : Char → Bool) : List Char → Option (List Char)
  | [] => some []
  | [c] => if isDigit c then some [c] else none
  | c :: '_' :: d :: rest =>
    if isDigit c && isDigit d then (ungroup isDigit (d :: rest)).map (c :: ·) else none
  | c :: rest => if isDigit c then (ungroup isDigit rest).map (c :: ·) else none

/-- Decimal digits, at least one. -/
def digits? (s : List Char) : Option (List Char) :=
  (ungroup Char.isDigit s).filter (!·.isEmpty)

/-- Decimal digits without a superfluous zero in front. -/
def whole? (s : List Char) : Option (List Char) :=
  (digits? s).filter fun ds => ds.length == 1 || ds.head? != some '0'

/-- An integer, if it fits 64 bits. -/
def word? (n : Int) : Option Tree :=
  if Decimal.fitsWord n then some (.integer n) else none

/-- Whether a character is a digit in a base. -/
def isDigitOf (base : Nat) (c : Char) : Bool :=
  if base == 16 then c.isDigit || ('a' ≤ c.toLower && c.toLower ≤ 'f')
  else c.isDigit && c.toNat - '0'.toNat < base

/-- The value of a hexadecimal digit. -/
def digitValue (c : Char) : Nat :=
  if c.isDigit then c.toNat - '0'.toNat else c.toLower.toNat - 'a'.toNat + 10

/-- An integer in a base other than ten. -/
def based? (base : Nat) (s : List Char) : Option Tree := do
  let ds ← (ungroup (isDigitOf base) s).filter (!·.isEmpty)
  word? (ds.foldl (fun n c => base * n + digitValue c) 0 : Nat)

/-- A decimal integer or a double, with its sign apart. -/
def decimal? (negative : Bool) (s : List Char) : Option Tree := do
  let isMark (c : Char) : Bool := c == 'e' || c == 'E'
  let plain := s.takeWhile (!isMark ·)
  let marked := s.dropWhile (!isMark ·)
  let whole ← whole? (plain.takeWhile (· != '.'))
  let point := plain.dropWhile (· != '.')
  if point.isEmpty && marked.isEmpty then
    let n : Int := Decimal.ofDigits whole
    word? (if negative then -n else n)
  else
    let fraction ← if point.isEmpty then some [] else digits? (point.drop 1)
    let (down, shift) := Decimal.splitSign (marked.drop 1)
    let shift ← if marked.isEmpty then some ['0'] else digits? shift
    let exponent : Int := Decimal.ofDigits shift
    return .real (Decimal.nearest negative (whole ++ fraction)
      ((if down then -exponent else exponent) - fraction.length))

/-- The value of a number with its sign apart. -/
def unsigned? (negative : Bool) : List Char → Option Tree
  | ['i', 'n', 'f'] => some (.real (.ofFloat (if negative then -1 / 0 else 1 / 0)))
  | ['n', 'a', 'n'] => some (.real (.ofFloat (0 / 0)))
  | s => decimal? negative s

/-- The number that a word writes. -/
def number? : List Char → Option Tree
  | '0' :: 'x' :: s => based? 16 s
  | '0' :: 'o' :: s => based? 8 s
  | '0' :: 'b' :: s => based? 2 s
  | '-' :: s => unsigned? true s
  | '+' :: s => unsigned? false s
  | s => unsigned? false s

/-! ### Dates and times -/

/-- The number that exactly `n` digits write. -/
def fixedDigits? (n : Nat) (s : List Char) : Option (Nat × List Char) :=
  let ds := s.take n
  if ds.length == n && ds.all Char.isDigit then some (Decimal.ofDigits ds, s.drop n) else none

/-- What follows a character. -/
def after? (c : Char) : List Char → Option (List Char)
  | d :: rest => if c == d then some rest else none
  | [] => none

/-- What follows a date. -/
def skipDate? (s : List Char) : Option (List Char) := do
  let (_, s) ← fixedDigits? 4 s
  let (month, s) ← fixedDigits? 2 (← after? '-' s)
  let (day, s) ← fixedDigits? 2 (← after? '-' s)
  if 1 ≤ month && month ≤ 12 && 1 ≤ day && day ≤ 31 then some s else none

/-- What follows the fraction of a second, if there is one. -/
def skipFraction? : List Char → Option (List Char)
  | '.' :: s => if (s.takeWhile Char.isDigit).isEmpty then none else some (s.dropWhile Char.isDigit)
  | s => some s

/-- What follows the seconds of a time, if there are any. -/
def skipSeconds? : List Char → Option (List Char)
  | ':' :: s => do
    let (second, s) ← fixedDigits? 2 s
    if second ≤ 60 then skipFraction? s else none
  | s => some s

/-- What follows a time of day. -/
def skipTime? (s : List Char) : Option (List Char) := do
  let (hour, s) ← fixedDigits? 2 s
  let (minute, s) ← fixedDigits? 2 (← after? ':' s)
  if hour ≤ 23 && minute ≤ 59 then skipSeconds? s else none

/-- Whether an offset from universal time ends a date, or nothing does. -/
def isOffset (s : List Char) : Bool :=
  match s with
  | [] | ['Z'] | ['z'] => true
  | c :: rest =>
    (c == '+' || c == '-') && (do
      let (hour, rest) ← fixedDigits? 2 rest
      let (minute, rest) ← fixedDigits? 2 (← after? ':' rest)
      if hour ≤ 23 && minute ≤ 59 && rest.isEmpty then some () else none).isSome

/-- Whether a word writes a date, a time, or both. -/
def isMoment (s : List Char) : Bool :=
  match skipDate? s with
  | some [] => true
  | some (c :: rest) => (c == 'T' || c == 't' || c == ' ') && (skipTime? rest).any isOffset
  | none => skipTime? s == some []

/-- A date or time as a text, in its usual spelling. -/
def momentText (s : List Char) : String :=
  String.ofList (s.map fun c => if c == ' ' then 'T' else c.toUpper)

/-- The value that a word without quotes writes. -/
def scalar? (s : List Char) : Option Tree :=
  if s == "true".toList then some (.bool true)
  else if s == "false".toList then some (.bool false)
  else
    match number? s with
    | some value => some value
    | none => if isMoment s then some (.text (momentText s)) else none

end CodeNav.Toml
