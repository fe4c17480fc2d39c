/-
Module: CodeNav.Dump.Text
Purpose: Dumps read from octets, compressed or not, as lines or as one array.
Main exports:
  Dump.inflate, Dump.lines, Dump.elementsOfText, Dump.parseElements
-/
import CodeNav.Dump.Element
import CodeNav.Text.Blank

namespace CodeNav.Dump

open Json (Decoder Value)

/-- The content of a gzip member, which may not exceed a limit; all other octets are taken as they
are, whatever their number. -/
def inflate (limit : Option Nat) (octets : List UInt8) : Except Failure (List UInt8) :=
  if !Gzip.isGzip octets then .ok octets
  else
    match Gzip.decompress limit octets with
    | .ok (.content content) => .ok content
    | .ok .exceeded => .error (.inflatedTooLarge (limit.getD 0))
    | .error fault => .error (.malformedGzip fault)

/-- The lines of a text. -/
def lines (text : List Char) : List (List Char) :=
  go [] [] text
where
  /-- Splits on, with the characters of the line under way and the lines before it in reverse. -/
  go (line : List Char) (done : List (List Char)) : List Char → List (List Char)
    | [] => (line.reverse :: done).reverse
    | c :: rest => if c == '\n' then go [] (line.reverse :: done) rest else go (c :: line) done rest

/-- The octets of some characters. -/
def octetsOf (chars : List Char) : List UInt8 :=
  Utf8.encode (String.ofList chars)

/-- The element on a numbered line; a blank line holds none. -/
def elementOfLine (number : Nat) (line : List Char) : Except Failure (Option Element) := do
  let line := Text.trimEndList (Text.trimStartList line)
  if line.isEmpty then return none
  let value ← (Value.parse (octetsOf line)).mapError (.malformedLine number)
  Element.ofValue? value

/-- The elements of a dump that has one element on each line, counted from one. -/
def elementsOfLines (text : List Char) : Except Failure (List Element) := do
  let found ← (lines text).zipIdx.mapM fun (line, index) => elementOfLine (index + 1) line
  return found.filterMap id

/-- The elements of a dump that is one array. -/
def elementsOfArray (text : List Char) : Except Failure (List Element) := do
  let values ← (Decoder.parse (Decoder.list Decoder.any) (octetsOf text)).mapError
    fun m => Failure.malformedElement m.cause
  let found ← values.mapM Element.ofValue?
  return found.filterMap id

/-- Whether a text starts as an array does, blanks apart. -/
def isArray (text : List Char) : Bool :=
  (Text.trimStartList text).head? == some '['

/-- The elements of a text in either layout; there has to be at least one. -/
def elementsOfText (text : String) : Except Failure (List Element) := do
  let chars := text.toList
  let elements ← if isArray chars then elementsOfArray chars else elementsOfLines chars
  if elements.isEmpty then throw .noElements
  return elements

/-- The elements of a dump; a compressed one may not expand past the limit. -/
def parseElements (limit : Option Nat) (octets : List UInt8) : Except Failure (List Element) := do
  let content ← inflate limit octets
  let text ← (Utf8.decode content).mapError .malformedText
  elementsOfText text

end CodeNav.Dump
