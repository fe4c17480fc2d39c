/-
Module: CodeNav.Http.MediaType
Purpose: Media types of request bodies.
Main exports:
  Http.MediaType, Http.MediaType.ofText?, Http.MediaType.isJson
-/

namespace CodeNav.Http

/-- A media type such as `application/problem+json`: type, subtype and what follows the last plus
sign. -/
structure MediaType where
  type : String
  subtype : String
  suffix : Option String
deriving Repr, DecidableEq

namespace MediaType

/-- The characters of names and of bare values of parameters. -/
def isToken (c : Char) : Bool :=
  c.isAlphanum || ['!', '#', '$', '%', '&', '\'', '*', '+', '-', '.', '^', '_', '\x60', '|',
    '~'].contains c

/-- The characters inside a quoted value. -/
def isQuotedText (c : Char) : Bool :=
  c != '"' && 0x20 ≤ c.toNat && c.toNat != 0x7F

/-- What follows the quoted value of a parameter: blanks up to the next parameter. -/
def afterQuoted (s : List Char) : Option (List Char) :=
  match s.dropWhile (· == ' ') with
  | [] => some []
  | ';' :: rest => some rest
  | _ => none

/-- Skips the value of a parameter. -/
def skipValue (s : List Char) : Option (List Char) :=
  match s with
  | '"' :: quoted =>
    match quoted.takeWhile isQuotedText, quoted.dropWhile isQuotedText with
    | _ :: _, '"' :: rest => afterQuoted rest
    | _, _ => none
  | bare =>
    match bare.takeWhile isToken, bare.dropWhile isToken with
    | _, [] => some []
    | _ :: _, ';' :: rest => some rest
    | _, _ => none

/-- Whether a text consists of parameters; `fuel` bounds their number. -/
def areParameters : Nat → List Char → Bool
  | 0, _ => false
  | _ + 1, [] => true
  | fuel + 1, s =>
    let s := s.dropWhile (· == ' ')
    match s.takeWhile isToken, s.dropWhile isToken with
    | _ :: _, '=' :: value => (skipValue value).any (areParameters fuel)
    | _, _ => false

/-- The part of a subtype after its last plus sign, unless the plus sign comes first. -/
def suffixOf (subtype : List Char) : Option (List Char) :=
  let reversed := subtype.reverse
  let before := (reversed.dropWhile (· != '+')).drop 1
  if before.isEmpty then none else some (reversed.takeWhile (· != '+')).reverse

/-- A subtype without its suffix. -/
def bareSubtype (subtype : List Char) : List Char :=
  match suffixOf subtype with
  | some suffix => subtype.take (subtype.length - suffix.length - 1)
  | none => subtype

/-- The media type with a type and a subtype. The case of letters does not count. -/
def ofNames (type subtype : List Char) : MediaType where
  type := (String.ofList type).toLower
  subtype := (String.ofList (bareSubtype subtype)).toLower
  suffix := (suffixOf subtype).map fun s => (String.ofList s).toLower

/-- The media type that a header states. -/
def ofText? (text : String) : Option MediaType :=
  let s := text.toList
  match s.takeWhile isToken, s.dropWhile isToken with
  | type@(_ :: _), '/' :: rest =>
    match rest.takeWhile isToken, rest.dropWhile isToken with
    | subtype@(_ :: _), [] => some (ofNames type subtype)
    | subtype@(_ :: _), ';' :: parameters =>
      if areParameters (parameters.length + 1) parameters then some (ofNames type subtype)
      else none
    | _, _ => none
  | _, _ => none

/-- Whether bodies of a type are JSON. -/
def isJson (media : MediaType) : Bool :=
  media.type == "application" && (media.subtype == "json" || media.suffix == some "json")

end MediaType

end CodeNav.Http
