/-
Module: CodeNav.Hover
Purpose: What is shown for a symbol, passed through untouched.
Main exports:
  Hover, Hover.decoder, Hover.toValue
-/
import CodeNav.Position

namespace CodeNav

open Json (Decoder Shape Value)

/-- What a dump shows for a symbol. -/
structure Hover where
  contents : Value
  range : Option Range
deriving DecidableEq, Inhabited

namespace Hover

/-- The members of a hover. -/
def shape : Shape Hover where
  name := "struct Hover"
  start := ⟨.null, none⟩
  fields :=
    [.needed "contents" Decoder.any fun h contents => { h with contents },
     .defaulted "range" (Decoder.option Range.decoder) fun h range => { h with range }]

/-- Reads a hover. -/
def decoder : Decoder Hover :=
  Decoder.shape shape

/-- The hover as an object; an absent range is left out. -/
def toValue (hover : Hover) : Value :=
  .record (("contents", hover.contents)
    :: (hover.range.map fun range => ("range", range.toValue)).toList)

end Hover

end CodeNav
