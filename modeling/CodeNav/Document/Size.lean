/-
Module: CodeNav.Document.Size
Purpose: The approximate memory taken by a document, used as its weight in a cache.
Main exports:
  Document.approximateSize
-/
import CodeNav.Document.Basic

namespace CodeNav.Document

/-- The bytes taken by a document of its own. -/
def ownSize : Nat := 192

/-- The bytes taken by the entry of a range. -/
def rangeSize : Nat := 136

/-- The bytes taken by a result set. -/
def resultSetSize : Nat := 120

/-- The bytes taken by a moniker, its texts apart. -/
def monikerSize : Nat := 80

/-- The bytes taken by an identifier. -/
def idSize : Nat := 24

/-- The identifiers listed by the results of a document. -/
def listedIds (document : Document) : Nat :=
  total (document.definitionResults.values.map (·.values.length))
    + total (document.referenceResults.values.map fun r =>
        r.definitions.length + r.references.length)

/-- The texts of the monikers, with their own sizes. -/
def monikerTotal (document : Document) : Nat :=
  total (document.monikers.values.map fun m =>
    monikerSize + m.scheme.utf8ByteSize + m.identifier.utf8ByteSize)

/-- The texts of the hovers. -/
def hoverTotal (document : Document) : Nat :=
  total (document.hovers.values.map fun h => h.contents.render.utf8ByteSize)

/-- The approximate memory taken by a document, in bytes. -/
def approximateSize (document : Document) : Nat :=
  ownSize + document.orderedRanges.length * rangeSize
    + document.resultSets.size * resultSetSize + document.monikerTotal + document.hoverTotal
    + document.listedIds * idSize

end CodeNav.Document
