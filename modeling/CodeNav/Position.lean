/-
Module: CodeNav.Position
Purpose: Positions, ranges and locations in documents.
Main exports:
  Position, Range, Range.contains, Range.compare, Location, Location.remote
-/
import CodeNav.Json.Decoder

namespace CodeNav

open Json (Decoder Field Shape Value)

/-- A place in a document: a line and a character on it, both counted from zero. -/
structure Position where
  line : UInt32
  character : UInt32
deriving Repr, DecidableEq, Hashable, Inhabited

namespace Position

/-- Positions are ordered by line, then by character. -/
instance : Ord Position where
  compare a b := (compare a.line b.line).then (compare a.character b.character)

/-- Whether one position is another or lies before it. -/
def le (a b : Position) : Bool :=
  (compare a b).isLE

/-- The members of a position. -/
def shape : Shape Position where
  name := "struct Position"
  start := ⟨0, 0⟩
  fields :=
    [.needed "line" Decoder.u32 fun p line => { p with line },
     .needed "character" Decoder.u32 fun p character => { p with character }]

/-- Reads a position. -/
def decoder : Decoder Position :=
  Decoder.shape shape

/-- The position as an object. -/
def toValue (p : Position) : Value :=
  .record [("line", .nat p.line.toNat), ("character", .nat p.character.toNat)]

end Position

/-- The stretch of a document from one position to another, both included. -/
structure Range where
  start : Position
  stop : Position
deriving Repr, DecidableEq, Hashable, Inhabited

namespace Range

/-- Whether a position lies within a range. -/
def contains (range : Range) (position : Position) : Bool :=
  range.start.le position && position.le range.stop

/-- Where a range lies as seen from a position: `lt` when it ends before, `gt` when it starts
after, `eq` when the position lies within. -/
def compare (range : Range) (position : Position) : Ordering :=
  if position.line < range.start.line then .gt
  else if range.stop.line < position.line then .lt
  else if position.line = range.start.line ∧ position.character < range.start.character then .gt
  else if position.line = range.stop.line ∧ range.stop.character < position.character then .lt
  else .eq

/-- The order of ranges by start, then by end. -/
def order (a b : Range) : Ordering :=
  (Ord.compare a.start b.start).then (Ord.compare a.stop b.stop)

/-- The members of a range. -/
def shape : Shape Range where
  name := "struct Range"
  start := ⟨default, default⟩
  fields :=
    [.needed "start" Position.decoder fun r start => { r with start },
     .needed "end" Position.decoder fun r stop => { r with stop }]

/-- Reads a range. -/
def decoder : Decoder Range :=
  Decoder.shape shape

/-- The range as an object. -/
def toValue (range : Range) : Value :=
  .record [("start", range.start.toValue), ("end", range.stop.toValue)]

end Range

/-- A range of a document. -/
structure Location where
  uri : String
  range : Range
deriving Repr, DecidableEq, Hashable, Inhabited

namespace Location

/-- A location in another repository, addressed by repository, commit and path. -/
def remote (repository commit path : String) (range : Range) : Location :=
  ⟨"git://" ++ repository ++ "?" ++ commit ++ "#" ++ path, range⟩

/-- The location as an object. -/
def toValue (location : Location) : Value :=
  .record [("uri", .string location.uri), ("range", location.range.toValue)]

end Location

end CodeNav
