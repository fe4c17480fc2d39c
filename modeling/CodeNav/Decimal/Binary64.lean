/-
Module: CodeNav.Decimal.Binary64
Purpose: Double-precision numbers held as their bits, with decidable equality.
Main exports:
  Binary64, Binary64.ofFloat, Binary64.toFloat, Binary64.isNegative, Binary64.magnitude
-/
import CodeNav.Count

namespace CodeNav

/-- A double-precision number, known by its bits, so that equality is decidable and tells the two
zeros apart. -/
structure Binary64 where
  bits : UInt64
deriving Repr, DecidableEq, Inhabited

namespace Binary64

/-- The bits of a machine float. -/
def ofFloat (x : Float) : Binary64 :=
  ⟨x.toBits⟩

/-- The machine float with these bits. -/
def toFloat (x : Binary64) : Float :=
  Float.ofBits x.bits

/-- The double nearest to a natural number. -/
def ofNat (n : Nat) : Binary64 :=
  ofFloat (Float.ofNat n)

/-- Whether the sign bit is set. -/
def isNegative (x : Binary64) : Bool :=
  x.bits >>> 63 == 1

/-- The exponent field. -/
def exponentField (x : Binary64) : Nat :=
  ((x.bits >>> 52) &&& 0x7FF).toNat

/-- The fraction field. -/
def fractionField (x : Binary64) : Nat :=
  (x.bits &&& 0xFFFFFFFFFFFFF).toNat

/-- Neither infinite nor a NaN. -/
def isFinite (x : Binary64) : Bool :=
  x.exponentField != 0x7FF

/-- A NaN. -/
def isNaN (x : Binary64) : Bool :=
  x.exponentField == 0x7FF && x.fractionField != 0

/-- One of the two zeros. -/
def isZero (x : Binary64) : Bool :=
  x.bits &&& 0x7FFFFFFFFFFFFFFF == 0

/-- A number with its sign turned. -/
def neg (x : Binary64) : Binary64 :=
  ⟨x.bits ^^^ 0x8000000000000000⟩

/-!
A finite magnitude is `m * 2^q`.  Directly below a power of two the neighbouring doubles lie half
as far apart as above it; `narrowBelow` marks those magnitudes.
-/

/-- The magnitude of a finite double, as `m * 2^q`. -/
structure Magnitude where
  m : Nat
  q : Int
  narrowBelow : Bool
deriving Repr, DecidableEq

/-- The magnitude of a finite double; infinities and NaNs have no magnitude. -/
def magnitude (x : Binary64) : Magnitude :=
  if x.exponentField == 0 then ⟨x.fractionField, -1074, false⟩
  else
    ⟨capacity 52 + x.fractionField, (x.exponentField : Int) - 1075,
      x.fractionField == 0 && x.exponentField > 1⟩

end Binary64

end CodeNav
