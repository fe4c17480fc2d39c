/-
Module: CodeNav.Toml.Quoted
Purpose: Quoted texts of TOML documents.
Main exports:
  Toml.quoted?
-/
import CodeNav.Toml.Number

namespace CodeNav.Toml

/-- Whether a character may stand inside quotes: no control character but the tab. -/
def isContent (c : Char) : Bool :=
  c == '\t' || (0x20 ≤ c.toNat && c.toNat != 0x7F)

/-- The character with a number, unless it is half of a pair. -/
def charOf? (n : Nat) : Option Char :=
  if n < 0xD800 || (0xE000 ≤ n && n < 0x110000) then some (Char.ofNat n) else none

/-- The character that `n` hexadecimal digits write. -/
def hexChar? (n : Nat) (s : List Char) : Option (Char × List Char) :=
  let ds := s.take n
  if ds.length == n && ds.all (isDigitOf 16) then
    (charOf? (ds.foldl (fun n c => 16 * n + digitValue c) 0)).map fun c => (c, s.drop n)
  else none

/-- The character that stands behind a backslash. -/
def escape? : List Char → Option (Char × List Char)
  | 'b' :: s => some ('\x08', s)
  | 't' :: s => some ('\t', s)
  | 'n' :: s => some ('\n', s)
  | 'f' :: s => some ('\x0c', s)
  | 'r' :: s => some ('\r', s)
  | 'e' :: s => some ('\x1b', s)
  | '"' :: s => some ('"', s)
  | '\\' :: s => some ('\\', s)
  | 'x' :: s => hexChar? 2 s
  | 'u' :: s => hexChar? 4 s
  | 'U' :: s => hexChar? 8 s
  | _ => none

/-- Whether a character is a blank on a line. -/
def isSpace (c : Char) : Bool :=
  c == ' ' || c == '\t'

/-- What follows a line break. -/
def lineBreak? : List Char → Option (List Char)
  | '\n' :: s => some s
  | '\r' :: '\n' :: s => some s
  | _ => none

/-- What follows blanks and line breaks. -/
def skipBlank : List Char → List Char
  | ' ' :: s | '\t' :: s | '\n' :: s => skipBlank s
  | '\r' :: '\n' :: s => skipBlank s
  | s => s

/-- What follows a backslash at the end of a line: blanks and line breaks do not count. -/
def continued? (s : List Char) : Option (List Char) :=
  if (lineBreak? (s.dropWhile isSpace)).isSome then some (skipBlank s) else none

/-- The text up to a closing quote on the same line; `fuel` bounds its length. -/
def basic? : Nat → List Char → Option (List Char × List Char)
  | 0, _ | _ + 1, [] => none
  | _ + 1, '"' :: s => some ([], s)
  | fuel + 1, '\\' :: s => do
    let (c, s) ← escape? s
    let (text, s) ← basic? fuel s
    return (c :: text, s)
  | fuel + 1, c :: s =>
    if isContent c then (basic? fuel s).map fun (text, s) => (c :: text, s) else none

/-- The text up to a closing single quote on the same line. -/
def literal? : List Char → Option (List Char × List Char)
  | [] => none
  | '\'' :: s => some ([], s)
  | c :: s => if isContent c then (literal? s).map fun (text, s) => (c :: text, s) else none

/-- The quotes that stand before what follows a long text: it ends with three of them, and up to
two more belong to the text. -/
def closing? (quote : Char) (s : List Char) : Option (List Char × List Char) :=
  let run := (s.takeWhile (· == quote)).length
  if run < 3 then none
  else
    let own := min (run - 3) 2
    some (List.replicate own quote, s.drop (own + 3))

/-- A long text, in which `escapes` tells whether backslashes count; `fuel` bounds its length. -/
def long? (quote : Char) (escapes : Bool) : Nat → List Char → Option (List Char × List Char)
  | 0, _ => none
  | fuel + 1, s =>
    match closing? quote s with
    | some found => some found
    | none =>
      match s with
      | [] => none
      | '\\' :: rest =>
        if !escapes then (long? quote escapes fuel rest).map fun (text, s) => ('\\' :: text, s)
        else
          match continued? rest with
          | some rest => long? quote escapes fuel rest
          | none => do
            let (c, rest) ← escape? rest
            let (text, rest) ← long? quote escapes fuel rest
            return (c :: text, rest)
      | c :: rest =>
        if isContent c || (lineBreak? (c :: rest)).isSome then
          (long? quote escapes fuel rest).map fun (text, s) => (c :: text, s)
        else none

/-- What follows a line break, if a long text starts with one. -/
def afterFirstBreak (s : List Char) : List Char :=
  (lineBreak? s).getD s

/-- A quoted text on one line, and what follows it. -/
def shortQuoted? : List Char → Option (List Char × List Char)
  | '"' :: s => basic? (s.length + 1) s
  | '\'' :: s => literal? s
  | _ => none

/-- A quoted text, and what follows it. -/
def quoted? : List Char → Option (List Char × List Char)
  | '"' :: '"' :: '"' :: s => long? '"' true (s.length + 1) (afterFirstBreak s)
  | '\'' :: '\'' :: '\'' :: s => long? '\'' false (s.length + 1) (afterFirstBreak s)
  | s => shortQuoted? s

end CodeNav.Toml
