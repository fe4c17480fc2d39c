/-
Module: CodeNav.Gzip.Bits
Purpose: Octets read bit by bit, least significant bit first.
Main exports:
  Gzip.Bits, Gzip.Bits.take?, Gzip.Bits.align
-/

namespace CodeNav.Gzip

/-- A stream of bits: those left of the octet under way, and the octets after it. -/
structure Bits where
  /-- The bits left of the octet under way, the next one least significant. -/
  pending : UInt8
  /-- How many bits are left of the octet under way. -/
  count : Nat
  octets : List UInt8
deriving Repr, DecidableEq

namespace Bits

/-- The bits of some octets. -/
def ofOctets (octets : List UInt8) : Bits :=
  ⟨0, 0, octets⟩

/-- The number of bits left. -/
def size (s : Bits) : Nat :=
  s.count + 8 * s.octets.length

/-- The next bit. -/
def next? (s : Bits) : Option (Nat × Bits) :=
  match s.count, s.octets with
  | 0, [] => none
  | 0, b :: rest => some ((b &&& 1).toNat, ⟨b >>> 1, 7, rest⟩)
  | n + 1, rest => some ((s.pending &&& 1).toNat, ⟨s.pending >>> 1, n, rest⟩)

/-- The next `n` bits as a number, the first one least significant. -/
def take? : Nat → Bits → Option (Nat × Bits)
  | 0, s => some (0, s)
  | n + 1, s => do
    let (bit, s) ← s.next?
    let (bits, s) ← take? n s
    return (bit + 2 * bits, s)

/-- Drops what is left of the octet under way. -/
def align (s : Bits) : Bits :=
  ⟨0, 0, s.octets⟩

end Bits

end CodeNav.Gzip
