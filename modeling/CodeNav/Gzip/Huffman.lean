/-
Module: CodeNav.Gzip.Huffman
Purpose: Prefix codes given by the lengths of their words.
Main exports:
  Gzip.Code, Gzip.Code.ofLengths?, Gzip.Code.read
-/
import CodeNav.Count
import CodeNav.Gzip.Bits

namespace CodeNav.Gzip

/-- Why compressed data cannot be read on. -/
inductive Halt where
  | corrupt
  | truncated
deriving Repr, DecidableEq

/-- A prefix code. Words of one length are consecutive numbers in the order of their symbols, and
the words of the next length go on where those end. -/
structure Code where
  /-- How many words have the length one, two, … fifteen. -/
  counts : List Nat
  /-- The symbols by length of their words, then by number. -/
  symbols : Array Nat
deriving Repr

namespace Code

/-- The greatest length of a word. -/
def maxLength : Nat := 15

/-- How many words have the length one, two, … fifteen. -/
def countsOf (lengths : List Nat) : List Nat :=
  (List.range maxLength).map fun n => lengths.count (n + 1)

/-- The symbols with words of one length, in order. -/
def symbolsOf (lengths : List Nat) (length : Nat) : List Nat :=
  (lengths.zipIdx.filter fun (l, _) => l == length).map (·.2)

/-- The words left over after words of each length have been given out, or none if there are not
enough; the count starts from one empty word. -/
def spare : List Nat → Nat → Option Nat
  | [], left => some left
  | count :: counts, left =>
    if 2 * left < count then none else spare counts (2 * left - count)

/-- The code with words of the given lengths, where zero stands for a symbol without a word.
Every word has to be given out, unless `lenient` and at most one symbol has a word. -/
def ofLengths? (lenient : Bool) (lengths : List Nat) : Option Code := do
  let counts := countsOf lengths
  let left ← spare counts 1
  if left == 0 || (lenient && total counts ≤ 1) then
    let symbols := (List.range maxLength).flatMap fun n => symbolsOf lengths (n + 1)
    return ⟨counts, symbols.toArray⟩
  else none

/-- Reads a word bit by bit: `code` is what has been read, `first` the first word of this length
and `index` the place of its symbol. -/
def walk (symbols : Array Nat) :
    List Nat → Nat → Nat → Nat → Bits → Except Halt (Nat × Bits)
  | [], _, _, _, _ => .error .corrupt
  | count :: counts, code, first, index, s =>
    match s.next? with
    | none => .error .truncated
    | some (bit, s) =>
      let code := code + bit
      if code < first + count then
        match symbols[index + (code - first)]? with
        | some symbol => .ok (symbol, s)
        | none => .error .corrupt
      else walk symbols counts (2 * code) (2 * (first + count)) (index + count) s

/-- Reads the symbol of the next word. -/
def read (code : Code) (s : Bits) : Except Halt (Nat × Bits) :=
  walk code.symbols code.counts 0 0 0 s

end Code

end CodeNav.Gzip
