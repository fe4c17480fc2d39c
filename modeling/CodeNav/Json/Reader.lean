/-
Module: CodeNav.Json.Reader
Purpose: JSON texts read from octets into trees and values.
Main exports:
  Json.Text, Json.read, Json.Value.parse
-/
import CodeNav.Json.Node
import CodeNav.Json.Numeral
import CodeNav.Text.Utf8

namespace CodeNav.Json

/-- A text read into a tree, and whether anything but blanks follows it. -/
structure Text where
  root : Node
  trailing : Bool

/-- The blanks between tokens: space, tab, line feed and carriage return. -/
def isSpace (b : UInt8) : Bool :=
  b == 0x20 || b == 0x09 || b == 0x0A || b == 0x0D

/-- Drops leading blanks. -/
def skipSpace (s : List UInt8) : List UInt8 :=
  s.dropWhile isSpace

/-- What reading a part leaves: the part, and the octets after it unless reading has to stop. -/
structure Step (α : Type) where
  part : α
  rest : Option (List UInt8)

/-- Reads the remaining letters of a literal. -/
def readLiteral (node : Node) : List UInt8 → List UInt8 → Step Node
  | [], s => ⟨node, some s⟩
  | _ :: _, [] => ⟨.fault (.of .endInValue), none⟩
  | w :: word, b :: s =>
    if w == b then readLiteral node word s else ⟨.fault (.of .expectedIdent), none⟩

/-! ### Strings -/

/-- The value of a hexadecimal digit octet. -/
def hexDigit? (b : UInt8) : Option Nat :=
  if 0x30 ≤ b && b ≤ 0x39 then some (b.toNat - 0x30)
  else if 0x41 ≤ b && b ≤ 0x46 then some (b.toNat - 0x37)
  else if 0x61 ≤ b && b ≤ 0x66 then some (b.toNat - 0x57)
  else none

/-- Reads the four hexadecimal digits of an escape. -/
def readHex : List UInt8 → Except Cause (Nat × List UInt8)
  | a :: b :: c :: d :: s =>
    match hexDigit? a, hexDigit? b, hexDigit? c, hexDigit? d with
    | some a, some b, some c, some d => .ok (((a * 16 + b) * 16 + c) * 16 + d, s)
    | _, _, _, _ => .error .invalidEscape
  | _ => .error .endInString

/-- A code unit that announces a pair. -/
def isLeading (unit : Nat) : Bool :=
  0xD800 ≤ unit && unit ≤ 0xDBFF

/-- A code unit that completes a pair. -/
def isTrailing (unit : Nat) : Bool :=
  0xDC00 ≤ unit && unit ≤ 0xDFFF

/-- The character that a pair of code units writes. -/
def pair (leading trailing : Nat) : Char :=
  Char.ofNat (0x10000 + (leading - 0xD800) * 0x400 + (trailing - 0xDC00))

/-- The second unit of a pair, written as an escape of its own. -/
def readTrailing : List UInt8 → Except Cause (Nat × List UInt8)
  | 0x5C :: 0x75 :: s => do
    let (unit, rest) ← readHex s
    if isTrailing unit then return (unit, rest) else throw .loneSurrogate
  | [] | [0x5C] => .error .endInString
  | _ => .error .unpairedSurrogate

/-- The character of an escape whose first unit has been read, and what follows it. -/
def readUnit (unit : Nat) (s : List UInt8) : Except Cause (Char × List UInt8) :=
  if isTrailing unit then .error .loneSurrogate
  else if isLeading unit then do
    let (trailing, rest) ← readTrailing s
    return (pair unit trailing, rest)
  else .ok (Char.ofNat unit, s)

/-- The octet that a one-letter escape stands for. -/
def letter? : UInt8 → Option UInt8
  | 0x22 => some 0x22
  | 0x5C => some 0x5C
  | 0x2F => some 0x2F
  | 0x62 => some 0x08
  | 0x66 => some 0x0C
  | 0x6E => some 0x0A
  | 0x72 => some 0x0D
  | 0x74 => some 0x09
  | _ => none

/-- The octets of a string read so far, in reverse, and the first cause why it is no proper text
although reading can go on. -/
structure Quoted where
  octets : List UInt8
  refused : Option Cause

namespace Quoted

/-- Adds an octet. -/
def push (q : Quoted) (b : UInt8) : Quoted :=
  { q with octets := b :: q.octets }

/-- Adds the octets of a character. -/
def pushChar (q : Quoted) (c : Char) : Quoted :=
  { q with octets := (Utf8.encode (String.singleton c)).reverse ++ q.octets }

/-- Records a cause unless there is an earlier one. -/
def refuse (q : Quoted) (cause : Cause) : Quoted :=
  { q with refused := q.refused.or (some cause) }

/-- The fault of a string that cannot be read on. -/
def stop (q : Quoted) (cause : Cause) : Fault :=
  ⟨q.refused.getD cause, cause⟩

/-- The text of a closed string. -/
def close (q : Quoted) : Except Cause String :=
  match q.refused with
  | some cause => .error cause
  | none => (Utf8.decode q.octets.reverse).mapError fun _ => .invalidCodePoint

end Quoted

/-- Reads a string up to its closing quote, with `fuel` bounding the characters. -/
def readQuoted : Nat → Quoted → List UInt8 →
    Except Fault (Except Cause String × List UInt8)
  | 0, q, _ => .error (q.stop .endInString)
  | _, q, [] => .error (q.stop .endInString)
  | fuel + 1, q, b :: s =>
    if b == 0x22 then .ok (q.close, s)
    else if b < 0x20 then .error (q.stop .controlCharacter)
    else if b != 0x5C then readQuoted fuel (q.push b) s
    else
      match s with
      | [] => .error (q.stop .endInString)
      | 0x75 :: s =>
        match readHex s with
        | .error cause => .error (q.stop cause)
        | .ok (unit, s) =>
          match readUnit unit s with
          | .ok (c, s) => readQuoted fuel (q.pushChar c) s
          | .error cause => readQuoted fuel (q.refuse cause) s
      | b :: s =>
        match letter? b with
        | some b => readQuoted fuel (q.push b) s
        | none => .error (q.stop .invalidEscape)

/-- Reads a string whose opening quote has been read. -/
def readString (s : List UInt8) : Except Fault (Except Cause String × List UInt8) :=
  readQuoted (s.length + 1) ⟨[], none⟩ s

/-! ### Values -/

/-- Puts a fault behind what has been read of a list. -/
def stopList (items : List Node) (fault : Fault) : Step Node :=
  ⟨.list items.reverse (some fault), none⟩

/-- Puts a fault behind what has been read of a record. -/
def stopRecord (members : List (Except Cause String × Node)) (fault : Fault) : Step Node :=
  ⟨.record members.reverse (some fault), none⟩

mutual

/-- Reads a value; `fuel` bounds the parts still to be read. -/
def readNode : Nat → List UInt8 → Step Node
  | 0, _ => ⟨.fault (.of .endInValue), none⟩
  | fuel + 1, s =>
    match skipSpace s with
    | [] => ⟨.fault (.of .endInValue), none⟩
    | b :: s =>
      if b == 0x6E then readLiteral .null [0x75, 0x6C, 0x6C] s
      else if b == 0x74 then readLiteral (.bool true) [0x72, 0x75, 0x65] s
      else if b == 0x66 then readLiteral (.bool false) [0x61, 0x6C, 0x73, 0x65] s
      else if b == 0x22 then
        match readString s with
        | .ok (text, s) => ⟨.string text, some s⟩
        | .error fault => ⟨.fault fault, none⟩
      else if b == 0x5B then readFirstItem fuel s
      else if b == 0x7B then readFirstMember fuel s
      else if b == 0x2D || (Numeral.digit? b).isSome then
        match Numeral.scan (b :: s) with
        | .ok (numeral, s) => ⟨.number numeral.value, some s⟩
        | .error fault => ⟨.fault fault, none⟩
      else ⟨.fault (.of .expectedValue), none⟩

/-- Reads the first item of a list, or its end. -/
def readFirstItem : Nat → List UInt8 → Step Node
  | 0, _ => ⟨.fault (.of .endInValue), none⟩
  | fuel + 1, s =>
    match skipSpace s with
    | [] => stopList [] (.of .endInList)
    | 0x5D :: s => ⟨.list [] none, some s⟩
    | s => readItem fuel [] s

/-- Reads an item of a list, and what follows it. -/
def readItem : Nat → List Node → List UInt8 → Step Node
  | 0, items, _ => stopList items (.of .endInValue)
  | fuel + 1, items, s =>
    let ⟨item, rest⟩ := readNode fuel s
    match rest with
    | none => ⟨.list (item :: items).reverse none, none⟩
    | some s => readNextItem fuel (item :: items) (skipSpace s)

/-- Reads what follows an item of a list. -/
def readNextItem : Nat → List Node → List UInt8 → Step Node
  | 0, items, _ => stopList items (.of .endInValue)
  | _, items, [] => stopList items (.of .endInList)
  | fuel + 1, items, b :: s =>
    if b == 0x5D then ⟨.list items.reverse none, some s⟩
    else if b != 0x2C then stopList items (.of .expectedListCommaOrEnd)
    else
      match skipSpace s with
      | [] => stopList items (.of .endInValue)
      | 0x5D :: _ => stopList items ⟨.trailingComma, .expectedValue⟩
      | s => readItem fuel items s

/-- Reads the first member of a record, or its end. -/
def readFirstMember : Nat → List UInt8 → Step Node
  | 0, _ => ⟨.fault (.of .endInValue), none⟩
  | fuel + 1, s =>
    match skipSpace s with
    | [] => stopRecord [] (.of .endInObject)
    | 0x7D :: s => ⟨.record [] none, some s⟩
    | 0x22 :: s => readMember fuel [] s
    | _ => stopRecord [] (.of .keyMustBeString)

/-- Reads a member of a record whose key has been opened, and what follows it. -/
def readMember : Nat → List (Except Cause String × Node) → List UInt8 → Step Node
  | 0, members, _ => stopRecord members (.of .endInValue)
  | fuel + 1, members, s =>
    match readString s with
    | .error fault => stopRecord members fault
    | .ok (key, s) =>
      match skipSpace s with
      | [] => ⟨.record ((key, .fault (.of .endInObject)) :: members).reverse none, none⟩
      | 0x3A :: s =>
        let ⟨item, rest⟩ := readNode fuel s
        match rest with
        | none => ⟨.record ((key, item) :: members).reverse none, none⟩
        | some s => readNextMember fuel ((key, item) :: members) (skipSpace s)
      | _ => ⟨.record ((key, .fault (.of .expectedColon)) :: members).reverse none, none⟩

/-- Reads what follows a member of a record. -/
def readNextMember : Nat → List (Except Cause String × Node) → List UInt8 → Step Node
  | 0, members, _ => stopRecord members (.of .endInValue)
  | _, members, [] => stopRecord members (.of .endInObject)
  | fuel + 1, members, b :: s =>
    if b == 0x7D then ⟨.record members.reverse none, some s⟩
    else if b != 0x2C then stopRecord members (.of .expectedObjectCommaOrEnd)
    else
      match skipSpace s with
      | [] => stopRecord members ⟨.endInValue, .endInObject⟩
      | 0x22 :: s => readMember fuel members s
      | 0x7D :: _ => stopRecord members ⟨.trailingComma, .keyMustBeString⟩
      | _ => stopRecord members (.of .keyMustBeString)

end

/-- Reads a text. -/
def read (octets : List UInt8) : Text :=
  let ⟨root, rest⟩ := readNode (4 * octets.length + 4) octets
  match rest with
  | none => ⟨root, false⟩
  | some rest => ⟨root, !(skipSpace rest).isEmpty⟩

/-- Ends the reading of a text: nothing but blanks may follow its value. -/
def Text.finish (text : Text) : Except Cause Unit :=
  if text.trailing then .error .trailingCharacters else .ok ()

/-- The value that a text writes. -/
def Value.parse (octets : List UInt8) : Except Cause Value := do
  let text := read octets
  let value ← Value.ofNode nestingLimit text.root
  text.finish
  return value

end CodeNav.Json
