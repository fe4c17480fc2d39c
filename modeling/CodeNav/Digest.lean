/-
Module: CodeNav.Digest
Purpose: Digests of octets, by which stored documents are told apart.
Main exports:
  Digest.sha256, Digest.hex
-/

namespace CodeNav.Digest

/-! ### Words -/

/-- The bits of a word moved around to the right. -/
def rotate (x : UInt32) (n : UInt32) : UInt32 :=
  (x >>> n) ||| (x <<< (32 - n))

/-- The word that four octets write, the most significant one first. -/
def word (a b c d : UInt8) : UInt32 :=
  (a.toUInt32 <<< 24) ||| (b.toUInt32 <<< 16) ||| (c.toUInt32 <<< 8) ||| d.toUInt32

/-- The words that octets write; octets that fill no word are left out. -/
def words : List UInt8 → List UInt32
  | a :: b :: c :: d :: rest => word a b c d :: words rest
  | _ => []

/-- The octets of a number, the most significant one first. -/
def octetsOf : Nat → Nat → List UInt8
  | 0, _ => []
  | count + 1, n => octetsOf count (n / 256) ++ [UInt8.ofNat n]

/-- Octets filled up to whole blocks: a single bit, zeros, and the number of bits. -/
def pad (octets : List UInt8) : List UInt8 :=
  octets ++ 0x80 :: List.replicate ((119 - octets.length % 64) % 64) 0
    ++ octetsOf 8 (8 * octets.length)

/-- The first blocks of sixteen words. -/
def blocks : Nat → List UInt32 → List (List UInt32)
  | 0, _ => []
  | count + 1, words => words.take 16 :: blocks count (words.drop 16)

/-! ### Rounds -/

/-- The words added in the rounds. -/
def roundWords : List UInt32 :=
  [0x428a2f98, 0x71374491, 0xb5c0fbcf, 0xe9b5dba5, 0x3956c25b, 0x59f111f1, 0x923f82a4, 0xab1c5ed5,
   0xd807aa98, 0x12835b01, 0x243185be, 0x550c7dc3, 0x72be5d74, 0x80deb1fe, 0x9bdc06a7, 0xc19bf174,
   0xe49b69c1, 0xefbe4786, 0x0fc19dc6, 0x240ca1cc, 0x2de92c6f, 0x4a7484aa, 0x5cb0a9dc, 0x76f988da,
   0x983e5152, 0xa831c66d, 0xb00327c8, 0xbf597fc7, 0xc6e00bf3, 0xd5a79147, 0x06ca6351, 0x14292967,
   0x27b70a85, 0x2e1b2138, 0x4d2c6dfc, 0x53380d13, 0x650a7354, 0x766a0abb, 0x81c2c92e, 0x92722c85,
   0xa2bfe8a1, 0xa81a664b, 0xc24b8b70, 0xc76c51a3, 0xd192e819, 0xd6990624, 0xf40e3585, 0x106aa070,
   0x19a4c116, 0x1e376c08, 0x2748774c, 0x34b0bcb5, 0x391c0cb3, 0x4ed8aa4a, 0x5b9cca4f, 0x682e6ff3,
   0x748f82ee, 0x78a5636f, 0x84c87814, 0x8cc70208, 0x90befffa, 0xa4506ceb, 0xbef9a3f7, 0xc67178f2]

/-- The eight words under way. -/
structure Sums where
  a : UInt32
  b : UInt32
  c : UInt32
  d : UInt32
  e : UInt32
  f : UInt32
  g : UInt32
  h : UInt32
deriving Repr, DecidableEq

namespace Sums

/-- The words before the first block. -/
def start : Sums :=
  ⟨0x6a09e667, 0xbb67ae85, 0x3c6ef372, 0xa54ff53a, 0x510e527f, 0x9b05688c, 0x1f83d9ab, 0x5be0cd19⟩

/-- Words added one by one. -/
def add (s t : Sums) : Sums :=
  ⟨s.a + t.a, s.b + t.b, s.c + t.c, s.d + t.d, s.e + t.e, s.f + t.f, s.g + t.g, s.h + t.h⟩

/-- One round with the word of the block and the word of the round. -/
def round (s : Sums) (input added : UInt32) : Sums :=
  let mixed := rotate s.e 6 ^^^ rotate s.e 11 ^^^ rotate s.e 25
  let chosen := (s.e &&& s.f) ^^^ (~~~s.e &&& s.g)
  let first := s.h + mixed + chosen + added + input
  let major := (s.a &&& s.b) ^^^ (s.a &&& s.c) ^^^ (s.b &&& s.c)
  let second := (rotate s.a 2 ^^^ rotate s.a 13 ^^^ rotate s.a 22) + major
  ⟨first + second, s.a, s.b, s.c, s.d + first, s.e, s.f, s.g⟩

/-- The words as octets. -/
def octets (s : Sums) : List UInt8 :=
  [s.a, s.b, s.c, s.d, s.e, s.f, s.g, s.h].flatMap fun w => octetsOf 4 w.toNat

end Sums

/-- The words of the rounds: those of the block, and more words mixed from earlier ones. -/
def schedule : Nat → Array UInt32 → Array UInt32
  | 0, words => words
  | count + 1, words =>
    let back (n : Nat) : UInt32 := words.getD (words.size - n) 0
    let near := rotate (back 2) 17 ^^^ rotate (back 2) 19 ^^^ (back 2 >>> 10)
    let far := rotate (back 15) 7 ^^^ rotate (back 15) 18 ^^^ (back 15 >>> 3)
    schedule count (words.push (near + back 7 + far + back 16))

/-- Takes a block in. -/
def absorb (s : Sums) (block : List UInt32) : Sums :=
  let inputs := (schedule 48 block.toArray).toList
  s.add ((inputs.zip roundWords).foldl (fun t (input, added) => t.round input added) s)

/-- The digest of 256 bits of some octets. -/
def sha256 (octets : List UInt8) : List UInt8 :=
  let padded := words (pad octets)
  ((blocks (padded.length / 16) padded).foldl absorb .start).octets

/-- Octets in hexadecimal digits. -/
def hex (octets : List UInt8) : String :=
  String.ofList (octets.flatMap fun b =>
    [Nat.digitChar (b.toNat / 16), Nat.digitChar (b.toNat % 16)])

end CodeNav.Digest
