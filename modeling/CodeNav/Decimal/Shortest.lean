/-
Module: CodeNav.Decimal.Shortest
Purpose: The fewest decimal digits that identify a double.
Main exports:
  Decimal, Decimal.Tie, Binary64.Magnitude.readsBack, Binary64.Magnitude.shortest
-/
import CodeNav.Decimal.Binary64

namespace CodeNav

/-- The number `digits * 10^exponent`. -/
structure Decimal where
  digits : Nat
  exponent : Int
deriving Repr, DecidableEq

/-- Which of two equally close decimals of the least length is taken. -/
inductive Decimal.Tie where
  | toEven
  | upward
deriving Repr, DecidableEq

namespace Decimal

/-- A number times a power, unless the exponent is negative. -/
def scaleUp (n base : Nat) (exponent : Int) : Nat :=
  n * Nat.pow base exponent.toNat

/-- Compares `a * 10^i` with `n * 2^j`, exactly. -/
def compareScaled (a : Nat) (i : Int) (n : Nat) (j : Int) : Ordering :=
  compare (scaleUp (scaleUp a 10 i) 2 (-j)) (scaleUp (scaleUp n 2 j) 10 (-i))

/-- The same number without trailing zero digits; `fuel` bounds how many are dropped. -/
def stripZeros : Nat → Decimal → Decimal
  | 0, d => d
  | fuel + 1, d =>
    if d.digits != 0 && d.digits % 10 == 0 then stripZeros fuel ⟨d.digits / 10, d.exponent + 1⟩
    else d

/-- The number of decimal digits written. -/
def length (d : Decimal) : Nat :=
  (Nat.toDigits 10 d.digits).length

end Decimal

namespace Binary64.Magnitude

/-!
The reals that round to a double form an interval around it: from halfway to the double below to
halfway to the double above, with its ends exactly when `m` is even.  The shortest decimal is
sought on the grids of one, two, … seventeen digits; on each, the two neighbours of the value are
the only candidates.
-/

/-- Whether a decimal lies among the reals that round to this magnitude. -/
def readsBack (x : Magnitude) (d : Decimal) : Bool :=
  let low := if x.narrowBelow then 4 * x.m - 1 else 4 * x.m - 2
  let high := 4 * x.m + 2
  let closed := x.m % 2 == 0
  let below := Decimal.compareScaled d.digits d.exponent low (x.q - 2)
  let above := Decimal.compareScaled d.digits d.exponent high (x.q - 2)
  (below == .gt || (closed && below == .eq)) && (above == .lt || (closed && above == .eq))

/-- The greatest multiple of `10^exponent` that is at most the magnitude, as a count of units. -/
def floorAt (x : Magnitude) (exponent : Int) : Nat :=
  Decimal.scaleUp (Decimal.scaleUp x.m 2 x.q) 10 (-exponent)
    / Decimal.scaleUp (Decimal.scaleUp 1 2 (-x.q)) 10 exponent

/-- Twice the magnitude compared with the sum of the two neighbours `n` and `n + 1` on a grid. -/
def compareMiddle (x : Magnitude) (n : Nat) (exponent : Int) : Ordering :=
  Decimal.compareScaled (2 * n + 1) exponent (2 * x.m) x.q

/-- The candidate on the grid `10^exponent`, if one of the two neighbours reads back. -/
def candidate? (x : Magnitude) (tie : Decimal.Tie) (exponent : Int) : Option Decimal :=
  let n := x.floorAt exponent
  let low : Decimal := ⟨n, exponent⟩
  let high : Decimal := ⟨n + 1, exponent⟩
  match x.readsBack low && n != 0, x.readsBack high with
  | false, false => none
  | true, false => some low
  | false, true => some high
  | true, true =>
    match x.compareMiddle n exponent, tie with
    | .gt, _ => some low
    | .lt, _ => some high
    | .eq, .upward => some high
    | .eq, .toEven => if n % 2 == 0 then some low else some high

/-- An exponent `k` near the least one with `m * 2^q < 10^k`. -/
def scaleEstimate (x : Magnitude) : Int :=
  ((x.m.log2 : Int) + x.q) * 1233 / 4096

/-- The least exponent `k` with `m * 2^q < 10^k`, reached from the estimate in a few steps. -/
def scale (x : Magnitude) : Int :=
  let start := x.scaleEstimate - 1
  let steps := (List.range 5).map fun (i : Nat) => start + (i : Int)
  (steps.find? fun k => Decimal.compareScaled 1 k x.m x.q == .gt).getD (start + 5)

/-- The shortest decimal that reads back to a positive magnitude; of two, the closer. -/
def shortest (x : Magnitude) (tie : Decimal.Tie) : Decimal :=
  let k := x.scale
  let found := (List.range 17).findSome? fun (n : Nat) => x.candidate? tie (k - 1 - (n : Int))
  match found with
  | some d => d.stripZeros 20
  | none => ⟨Decimal.scaleUp (Decimal.scaleUp x.m 2 x.q) 5 (-x.q), min x.q 0⟩

end Binary64.Magnitude

end CodeNav
