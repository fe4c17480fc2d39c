/-
Module: CodeNav.Document.Search
Purpose: The range at a position.
Main exports:
  Search.bisect, Document.findRange?, Document.scanRange?
-/
import CodeNav.Document.Basic

namespace CodeNav

/-!
Ranges are ordered by start and do not overlap, so halving finds the one range that holds a
position.  Each step keeps the half whose first entry does not lie after the position; the one
entry that is left decides.
-/

/-- The index kept after halving: the last of the `size` entries from `base` on that can still
hold what is sought. -/
def Search.bisect (isAfter : Nat → Bool) (base size : Nat) : Nat :=
  if size ≤ 1 then base
  else
    let half := size / 2
    let middle := base + half
    Search.bisect isAfter (if isAfter middle then base else middle) (size - half)
termination_by size
decreasing_by omega

/-- The entry at a position, found by halving an ordered array. -/
def Search.findRange? (entries : Array RangeEntry) (position : Position) : Option RangeEntry := do
  let isAfter (i : Nat) : Bool :=
    (entries[i]?).any fun entry => entry.range.compare position == .gt
  let entry ← entries[Search.bisect isAfter 0 entries.size]?
  if entry.range.compare position == .eq then some entry else none

namespace Document

/-- The entry at a position. -/
def findRange? (document : Document) (position : Position) : Option RangeEntry :=
  Search.findRange? document.orderedRanges.toArray position

/-- The first entry that holds a position, found by looking at each. -/
def scanRange? (document : Document) (position : Position) : Option RangeEntry :=
  document.orderedRanges.find? fun entry => entry.range.contains position

end Document

end CodeNav
