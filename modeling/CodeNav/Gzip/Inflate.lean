/-
Module: CodeNav.Gzip.Inflate
Purpose: Deflate data expanded, with the place where it turns out to be unreadable.
Main exports:
  Gzip.Expansion, Gzip.inflate
-/
import CodeNav.Gzip.Huffman

namespace CodeNav.Gzip

/-- What comes out of compressed data: the octets expanded, and either the octets that follow the
data or why it cannot be read on. -/
structure Expansion where
  output : Array UInt8
  rest : Except Halt (List UInt8)

/-- The state after part of the data, or what had come out when it could not be read on. -/
abbrev Progress := Except (Array UInt8 × Halt) (Array UInt8 × Bits)

/-- Attaches the output so far to a failed step. -/
def halting {α : Type} (output : Array UInt8) (step : Except Halt α) :
    Except (Array UInt8 × Halt) α :=
  step.mapError fun halt => (output, halt)

/-- Reads a number of bits. -/
def number (n : Nat) (s : Bits) : Except Halt (Nat × Bits) :=
  match s.take? n with
  | some found => .ok found
  | none => .error .truncated

/-- The base and the extra bits of each length symbol, from 257 on. -/
def lengthTable : Array (Nat × Nat) :=
  #[(3, 0), (4, 0), (5, 0), (6, 0), (7, 0), (8, 0), (9, 0), (10, 0), (11, 1), (13, 1), (15, 1),
    (17, 1), (19, 2), (23, 2), (27, 2), (31, 2), (35, 3), (43, 3), (51, 3), (59, 3), (67, 4),
    (83, 4), (99, 4), (115, 4), (131, 5), (163, 5), (195, 5), (227, 5), (258, 0)]

/-- The base and the extra bits of each distance symbol. -/
def distanceTable : Array (Nat × Nat) :=
  #[(1, 0), (2, 0), (3, 0), (4, 0), (5, 1), (7, 1), (9, 2), (13, 2), (17, 3), (25, 3), (33, 4),
    (49, 4), (65, 5), (97, 5), (129, 6), (193, 6), (257, 7), (385, 7), (513, 8), (769, 8),
    (1025, 9), (1537, 9), (2049, 10), (3073, 10), (4097, 11), (6145, 11), (8193, 12), (12289, 12),
    (16385, 13), (24577, 13)]

/-- A base with its extra bits read. -/
def extended (table : Array (Nat × Nat)) (symbol : Nat) (s : Bits) :
    Except Halt (Nat × Bits) :=
  match table[symbol]? with
  | none => .error .corrupt
  | some (base, extra) => do
    let (bits, s) ← number extra s
    return (base + bits, s)

/-- Repeats octets from a distance back; what lies before the start counts as zeros. -/
def copyBack (distance : Nat) : Nat → Array UInt8 → Array UInt8
  | 0, output => output
  | n + 1, output =>
    let octet := if distance ≤ output.size then (output[output.size - distance]?).getD 0 else 0
    copyBack distance n (output.push octet)

/-- Expands a compressed block up to its end symbol; `fuel` bounds the symbols. -/
def expand (literals distances : Code) : Nat → Array UInt8 → Bits → Progress
  | 0, output, _ => .error (output, .truncated)
  | fuel + 1, output, s => do
    let (symbol, s) ← halting output (literals.read s)
    if symbol < 256 then expand literals distances fuel (output.push (UInt8.ofNat symbol)) s
    else if symbol == 256 then return (output, s)
    else
      let (length, s) ← halting output (extended lengthTable (symbol - 257) s)
      let (symbol, s) ← halting output (distances.read s)
      let (distance, s) ← halting output (extended distanceTable symbol s)
      expand literals distances fuel (copyBack distance length output) s

/-- Copies the octets of a stored block. -/
def copyStored : Nat → Array UInt8 → List UInt8 → Progress
  | 0, output, rest => .ok (output, .ofOctets rest)
  | _ + 1, output, [] => .error (output, .truncated)
  | n + 1, output, b :: rest => copyStored n (output.push b) rest

/-- Expands a stored block: its length, the complement of the length, and its octets. -/
def expandStored (output : Array UInt8) (s : Bits) : Progress := do
  let (length, s) ← halting output (number 16 s.align)
  let (check, s) ← halting output (number 16 s)
  if length + check != 0xFFFF then throw (output, .corrupt)
  copyStored length output s.octets

/-- The literal code of blocks without codes of their own. -/
def fixedLiterals : Option Code :=
  Code.ofLengths? false (List.replicate 144 8 ++ List.replicate 112 9 ++ List.replicate 24 7
    ++ List.replicate 8 8)

/-- The distance code of blocks without codes of their own. -/
def fixedDistances : Option Code :=
  Code.ofLengths? false (List.replicate 32 5)

/-- The order in which the lengths of the code for code lengths are written. -/
def lengthOrder : List Nat :=
  [16, 17, 18, 0, 8, 7, 9, 6, 10, 5, 11, 4, 12, 3, 13, 2, 14, 1, 15]

/-- Reads numbers of three bits. -/
def readTriples : Nat → Bits → Except Halt (List Nat × Bits)
  | 0, s => .ok ([], s)
  | n + 1, s => do
    let (value, s) ← number 3 s
    let (values, s) ← readTriples n s
    return (value :: values, s)

/-- Reads code lengths, the latest first, until there are `wanted` of them; `fuel` bounds the
words read. -/
def readLengths (code : Code) (wanted : Nat) :
    Nat → List Nat → Bits → Except Halt (List Nat × Bits)
  | 0, _, _ => .error .truncated
  | fuel + 1, read, s => do
    if wanted < read.length then throw .corrupt
    if read.length == wanted then return (read, s)
    let (symbol, s) ← code.read s
    if symbol < 16 then readLengths code wanted fuel (symbol :: read) s
    else if symbol == 16 then
      match read with
      | [] => throw .corrupt
      | last :: _ =>
        let (extra, s) ← number 2 s
        readLengths code wanted fuel (List.replicate (3 + extra) last ++ read) s
    else if symbol == 17 then
      let (extra, s) ← number 3 s
      readLengths code wanted fuel (List.replicate (3 + extra) 0 ++ read) s
    else
      let (extra, s) ← number 7 s
      readLengths code wanted fuel (List.replicate (11 + extra) 0 ++ read) s

/-- A code that has to exist. -/
def required (code : Option Code) : Except Halt Code :=
  match code with
  | some code => .ok code
  | none => .error .corrupt

/-- Reads the codes of a block that brings its own. -/
def readCodes (s : Bits) : Except Halt (Code × Code × Bits) := do
  let (literals, s) ← number 5 s
  let (distances, s) ← number 5 s
  let (lengths, s) ← number 4 s
  let literals := literals + 257
  let distances := distances + 1
  if 286 < literals || 30 < distances then throw .corrupt
  let (triples, s) ← readTriples (lengths + 4) s
  let placed := lengthOrder.zip triples
  let code ← required (Code.ofLengths? false
    ((List.range 19).map fun symbol => (placed.lookup symbol).getD 0))
  let (read, s) ← readLengths code (literals + distances) (literals + distances + 1) [] s
  let all := read.reverse
  let literalCode ← required (Code.ofLengths? true (all.take literals))
  let distanceCode ← required (Code.ofLengths? true (all.drop literals))
  return (literalCode, distanceCode, s)

/-- Expands blocks up to the last one; `fuel` bounds the blocks. -/
def expandBlocks : Nat → Array UInt8 → Bits → Progress
  | 0, output, _ => .error (output, .truncated)
  | fuel + 1, output, s => do
    let (last, s) ← halting output (number 1 s)
    let (type, s) ← halting output (number 2 s)
    let (output, s) ←
      if type == 0 then expandStored output s
      else if type == 1 then do
        let literals ← halting output (required fixedLiterals)
        let distances ← halting output (required fixedDistances)
        expand literals distances (s.size + 1) output s
      else if type == 2 then do
        let (literals, distances, s) ← halting output (readCodes s)
        expand literals distances (s.size + 1) output s
      else .error (output, .corrupt)
    if last == 1 then return (output, s) else expandBlocks fuel output s

/-- Expands deflate data. -/
def inflate (octets : List UInt8) : Expansion :=
  let s := Bits.ofOctets octets
  match expandBlocks (s.size + 1) #[] s with
  | .ok (output, s) => ⟨output, .ok s.octets⟩
  | .error (output, halt) => ⟨output, .error halt⟩

end CodeNav.Gzip
