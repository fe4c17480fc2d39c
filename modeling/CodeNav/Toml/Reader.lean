/-
Module: CodeNav.Toml.Reader
Purpose: TOML documents read as configuration values.
Main exports:
  Toml.key?, Toml.value?, Toml.parse
-/
import CodeNav.Toml.Quoted
import CodeNav.Toml.Tables

namespace CodeNav.Toml

/-! ### Blanks and comments -/

/-- What follows the blanks of a line. -/
def skipSpace (s : List Char) : List Char :=
  s.dropWhile isSpace

/-- What follows a comment, if there is one; it ends with the line. -/
def skipComment? (s : List Char) : Option (List Char) :=
  match s with
  | '#' :: rest =>
    let left := rest.dropWhile isContent
    if left.isEmpty || (lineBreak? left).isSome then some left else none
  | s => some s

/-- What follows blanks, comments and line breaks; `fuel` bounds the lines. -/
def skipLines? : Nat → List Char → Option (List Char)
  | 0, s => some s
  | fuel + 1, s => do
    let s ← skipComment? (skipSpace s)
    match lineBreak? s with
    | some rest => skipLines? fuel rest
    | none => return s

/-- What follows all that does not count. -/
def skip? (s : List Char) : Option (List Char) :=
  skipLines? (s.length + 1) s

/-! ### Keys -/

/-- One part of a key. -/
def part? (s : List Char) : Option (String × List Char) :=
  match s with
  | '"' :: _ | '\'' :: _ => (shortQuoted? s).map fun (name, s) => (String.ofList name, s)
  | s =>
    let name := s.takeWhile Tree.isNameChar
    if name.isEmpty then none else some (String.ofList name, s.dropWhile Tree.isNameChar)

/-- A key: parts joined by points; `fuel` bounds their number. -/
def keyParts? : Nat → List Char → Option (List String × List Char)
  | 0, _ => none
  | fuel + 1, s => do
    let (name, s) ← part? (skipSpace s)
    match skipSpace s with
    | '.' :: rest =>
      let (path, rest) ← keyParts? fuel rest
      return (name :: path, rest)
    | rest => return ([name], rest)

/-- A key, and what follows it. -/
def key? (s : List Char) : Option (List String × List Char) :=
  keyParts? (s.length + 1) s

/-- What follows an equals sign and blanks. -/
def equals? : List Char → Option (List Char)
  | '=' :: s => some (skipSpace s)
  | _ => none

/-! ### Values -/

/-- The characters of a word without quotes. -/
def isWordChar (c : Char) : Bool :=
  c.isAlphanum || ['+', '-', '_', '.', ':'].contains c

/-- Whether a blank joins a date with a time. -/
def joinsTime (date : List Char) (rest : List Char) : Bool :=
  skipDate? date == some [] &&
    match rest with
    | ' ' :: c :: _ => c.isDigit
    | _ => false

/-- A word without quotes, and what follows it. -/
def word (s : List Char) : List Char × List Char :=
  let first := s.takeWhile isWordChar
  let rest := s.dropWhile isWordChar
  if joinsTime first rest then
    (first ++ ' ' :: (rest.drop 1).takeWhile isWordChar, (rest.drop 1).dropWhile isWordChar)
  else (first, rest)

mutual

/-- A value; `fuel` bounds the nesting and the number of items. -/
def valueOf? : Nat → List Char → Option (Tree × List Char)
  | 0, _ => none
  | fuel + 1, s =>
    match s with
    | '"' :: _ | '\'' :: _ => (quoted? s).map fun (text, s) => (.text (String.ofList text), s)
    | '[' :: rest => itemsOf? fuel [] rest
    | '\x7b' :: rest => fieldsOf? fuel [] rest
    | s => do
      let (name, rest) := word s
      let tree ← scalar? name
      return (tree, rest)

/-- The items of a list from one on, with the items before it in reverse. -/
def itemsOf? : Nat → List Tree → List Char → Option (Tree × List Char)
  | 0, _, _ => none
  | fuel + 1, before, s => do
    match ← skip? s with
    | ']' :: rest => return (.list before.reverse, rest)
    | s =>
      let (item, rest) ← valueOf? fuel s
      match ← skip? rest with
      | ',' :: rest => itemsOf? fuel (item :: before) rest
      | ']' :: rest => return (.list (item :: before).reverse, rest)
      | _ => none

/-- The fields of an inline table from one on, with those before it. -/
def fieldsOf? : Nat → Entries → List Char → Option (Tree × List Char)
  | 0, _, _ => none
  | fuel + 1, before, s => do
    match ← skip? s with
    | '\x7d' :: rest => return (.table (Entries.treesOf before), rest)
    | s =>
      let (path, rest) ← key? s
      let (value, rest) ← valueOf? fuel (← equals? rest)
      let entries ← Entries.assignHere? value path before
      match ← skip? rest with
      | ',' :: rest => fieldsOf? fuel entries rest
      | '\x7d' :: rest => return (.table (Entries.treesOf entries), rest)
      | _ => none

end

/-- A value, and what follows it. -/
def value? (s : List Char) : Option (Tree × List Char) :=
  valueOf? (2 * s.length + 2) s

/-! ### Documents -/

/-- The document so far: the path of the header last read, and all tables. -/
structure Draft where
  header : List String
  entries : Entries

/-- A header from behind its opening brackets to behind its `closing` ones. -/
def headerPath? (closing : List Char) (s : List Char) : Option (List String × List Char) := do
  let (path, rest) ← key? s
  if closing.isPrefixOf rest then some (path, rest.drop closing.length) else none

/-- One header or binding. -/
def statement? (draft : Draft) (s : List Char) : Option (Draft × List Char) :=
  match s with
  | '[' :: '[' :: s => do
    let (path, rest) ← headerPath? [']', ']'] s
    return (⟨path, ← draft.entries.appendTable? path⟩, rest)
  | '[' :: s => do
    let (path, rest) ← headerPath? [']'] s
    return (⟨path, ← draft.entries.openTable? path⟩, rest)
  | s => do
    let (path, rest) ← key? s
    let (value, rest) ← value? (← equals? rest)
    return (⟨draft.header, ← draft.entries.assign? draft.header path value⟩, rest)

/-- What follows the end of a line, on which nothing but a comment may be left. -/
def endLine? (s : List Char) : Option (List Char) := do
  let s ← skipComment? (skipSpace s)
  if s.isEmpty then some [] else lineBreak? s

/-- Headers and bindings to the end; `fuel` bounds their number. -/
def statements? : Nat → Draft → List Char → Option Draft
  | 0, _, _ => none
  | fuel + 1, draft, s => do
    match ← skip? s with
    | [] => return draft
    | s =>
      let (draft, rest) ← statement? draft s
      statements? fuel draft (← endLine? rest)

/-- The outermost fields of a document, unless it is malformed. A mark of the octet order in front
does not count. -/
def parse (text : String) : Option (List (String × Tree)) := do
  let s := text.toList
  let s := if s.head? == some '\ufeff' then s.drop 1 else s
  let draft ← statements? (s.length + 1) ⟨[], []⟩ s
  return Entries.treesOf draft.entries

end CodeNav.Toml
