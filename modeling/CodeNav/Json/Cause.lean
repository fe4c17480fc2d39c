/-
Module: CodeNav.Json.Cause
Purpose: Why a JSON text, or the value that it writes, is refused.
Main exports:
  Json.Cause, Json.Cause.isSyntax, Json.Cause.message, Json.Fault
-/

namespace CodeNav.Json

/-- Why a JSON text or value is refused. -/
inductive Cause where
  | endInValue
  | endInList
  | endInObject
  | endInString
  | expectedValue
  | expectedIdent
  | keyMustBeString
  | expectedColon
  | expectedListCommaOrEnd
  | expectedObjectCommaOrEnd
  | trailingComma
  | trailingCharacters
  | invalidNumber
  | numberOutOfRange
  | invalidEscape
  | loneSurrogate
  | unpairedSurrogate
  | controlCharacter
  | invalidCodePoint
  | recursionLimit
  /-- A member that a structure requires is absent. -/
  | missingField (name : String)
  /-- A member occurs twice. -/
  | duplicateField (name : String)
  /-- A value of the wrong kind. -/
  | invalidType (found expected : String)
  /-- A value of the right kind that does not fit. -/
  | invalidValue (found expected : String)
  /-- A sequence of the wrong length. -/
  | invalidLength (length : Nat) (expected : String)
  /-- A name outside an enumeration. -/
  | unknownVariant (found : String) (expected : List String)
  /-- A value that is none of the alternatives of a type. -/
  | noVariant (type : String)
deriving Repr, DecidableEq

namespace Cause

/-- Whether the text itself is refused, rather than the value that it writes. -/
def isSyntax : Cause → Bool
  | missingField _ | duplicateField _ | invalidType _ _ | invalidValue _ _ | invalidLength _ _
  | unknownVariant _ _ | noVariant _ => false
  | _ => true

/-- A name as it stands in a message. -/
def quoted (name : String) : String :=
  "\x60" ++ name ++ "\x60"

/-- The wording of a cause. -/
def message : Cause → String
  | endInValue => "EOF while parsing a value"
  | endInList => "EOF while parsing a list"
  | endInObject => "EOF while parsing an object"
  | endInString => "EOF while parsing a string"
  | expectedValue => "expected value"
  | expectedIdent => "expected ident"
  | keyMustBeString => "key must be a string"
  | expectedColon => "expected " ++ quoted ":"
  | expectedListCommaOrEnd => "expected " ++ quoted "," ++ " or " ++ quoted "]"
  | expectedObjectCommaOrEnd => "expected " ++ quoted "," ++ " or " ++ quoted "\x7d"
  | trailingComma => "trailing comma"
  | trailingCharacters => "trailing characters"
  | invalidNumber => "invalid number"
  | numberOutOfRange => "number out of range"
  | invalidEscape => "invalid escape"
  | loneSurrogate => "lone leading surrogate in hex escape"
  | unpairedSurrogate => "unexpected end of hex escape"
  | controlCharacter =>
    "control character (\\u0000-\\u001F) found while parsing a string"
  | invalidCodePoint => "invalid unicode code point"
  | recursionLimit => "recursion limit exceeded"
  | missingField name => "missing field " ++ quoted name
  | duplicateField name => "duplicate field " ++ quoted name
  | invalidType found expected => "invalid type: " ++ found ++ ", expected " ++ expected
  | invalidValue found expected => "invalid value: " ++ found ++ ", expected " ++ expected
  | invalidLength length expected =>
    "invalid length " ++ toString length ++ ", expected " ++ expected
  | unknownVariant found expected =>
    "unknown variant " ++ quoted found ++ ", expected one of "
      ++ ", ".intercalate (expected.map quoted)
  | noVariant type => "data did not match any variant of untagged enum " ++ type

end Cause

/-- A place where no reading can go on: the cause that a full reading reports there, and the one
reported by a reading that only skips the value. -/
structure Fault where
  full : Cause
  skim : Cause
deriving Repr, DecidableEq

/-- A fault that both readings report alike. -/
def Fault.of (cause : Cause) : Fault :=
  ⟨cause, cause⟩

end CodeNav.Json
