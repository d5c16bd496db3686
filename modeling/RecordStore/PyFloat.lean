import Mathlib.Data.Nat.Defs
import Mathlib.Algebra.Group.Int

/-!
# Python floats and the `f` format

A Python `float` is an IEEE 754 binary64; `PyFloat` keeps its bit pattern. `Fmt.roundMag`
rounds a nonnegative rational to the nearest value of a binary format, ties to even, or reports
that it is past the largest finite one. The float literals of the source, `float(s)` and
`struct.pack("f", x)` all round through it, and past the largest finite value all three give an
infinity; `struct.unpack("f", ·)` widens a binary32 exactly.
Comparisons are IEEE ones: a NaN compares with nothing, `-0.0 == 0.0`, and otherwise the order is
that of the sign-magnitude key.
-/

namespace RecordStore

/-- ⌊log₂ n⌋ for `0 < n`, by at most `fuel` halvings. -/
def log2Aux : Nat → Nat → Nat
  | 0, _ => 0
  | fuel + 1, n => if n < 2 then 0 else log2Aux fuel (n / 2) + 1

/-- ⌊log₂ n⌋, by halving (`n` halvings are more than enough). -/
def ilog2 (n : Nat) : Nat := log2Aux n n

/-- ⌊log₂ (num / den)⌋ for `0 < num` and `0 < den`: `ilog2 num - ilog2 den`, or one less. -/
def floorLog2 (num den : Nat) : Int :=
  let a := ilog2 num
  let b := ilog2 den
  if den * 2 ^ a ≤ num * 2 ^ b then (a : Int) - b else (a : Int) - b - 1

/-- A binary interchange format: its stored significand bits and its exponent bits. -/
structure Fmt where
  mant : Nat
  exp : Nat

namespace Fmt

/-- binary64, a C `double`. -/
def binary64 : Fmt := ⟨52, 11⟩

/-- binary32, a C `float`. -/
def binary32 : Fmt := ⟨23, 8⟩

def bias (F : Fmt) : Nat := 2 ^ (F.exp - 1) - 1

/-- The magnitude field (exponent and significand, no sign) of infinity. Larger ones are NaNs. -/
def infMag (F : Fmt) : Nat := (2 ^ F.exp - 1) * 2 ^ F.mant

/-- The magnitude field of the value of `F` nearest to `num / den` (`0 < den`), ties to even;
`none` when it rounds past the largest finite value. Below the normal range the exponent stays
at its least value and the significand loses bits (subnormals); a significand rounded up to
`2 ^ (mant + 1)` carries into the exponent field on its own. -/
def roundMag (F : Fmt) (num den : Nat) : Option Nat :=
  if num = 0 then some 0 else
  let e := max (floorLog2 num den) (1 - (F.bias : Int))
  let E := e - F.mant
  let n := num * 2 ^ (-E).toNat
  let d := den * 2 ^ E.toNat
  let q := n / d
  let r := n % d
  let m := if d < 2 * r ∨ (2 * r = d ∧ q % 2 = 1) then q + 1 else q
  let mag := (e + F.bias - 1).toNat * 2 ^ F.mant + m
  if mag < F.infMag then some mag else none

/-- The value `num / den` of a finite magnitude field. -/
def magValue (F : Fmt) (mag : Nat) : Nat × Nat :=
  let ef := mag / 2 ^ F.mant
  let sig := if ef = 0 then mag % 2 ^ F.mant else mag % 2 ^ F.mant + 2 ^ F.mant
  let E : Int := ((max ef 1 : Nat) : Int) - F.bias - F.mant
  (sig * 2 ^ E.toNat, 2 ^ (-E).toNat)

end Fmt

/-- A Python `float`: the bit pattern of an IEEE 754 binary64. -/
structure PyFloat where
  bits : UInt64
deriving DecidableEq, Repr

namespace PyFloat

/-- The sign bit. -/
def neg (x : PyFloat) : Bool := decide (2 ^ 63 ≤ x.bits.toNat)

/-- The magnitude field: exponent and significand. -/
def mag (x : PyFloat) : Nat := x.bits.toNat % 2 ^ 63

def isNaN (x : PyFloat) : Bool := decide (Fmt.binary64.infMag < x.mag)

def isInf (x : PyFloat) : Bool := x.mag = Fmt.binary64.infMag

/-- The float with sign `neg` and magnitude field `mag < 2 ^ 63`. -/
def ofMag (neg : Bool) (mag : Nat) : PyFloat :=
  ⟨UInt64.ofNat ((if neg then 2 ^ 63 else 0) + mag)⟩

/-- The binary64 nearest to `±num / den`; infinity past the largest finite one. -/
def ofRat (neg : Bool) (num den : Nat) : PyFloat :=
  ofMag neg ((Fmt.binary64.roundMag num den).getD Fmt.binary64.infMag)

/-- The binary64 nearest to `m * 10 ^ e`, as a decimal literal denotes. -/
def ofDecimal (m : Nat) (e : Int) : PyFloat :=
  if 0 ≤ e then ofRat false (m * 10 ^ e.toNat) 1 else ofRat false m (10 ^ (-e).toNat)

/-- `float("nan")`. -/
def nan : PyFloat := ⟨0x7FF8000000000000⟩

/-- `float("inf")`. -/
def inf : PyFloat := ⟨0x7FF0000000000000⟩

/-- `-x`: flip the sign bit. -/
def negate (x : PyFloat) : PyFloat := ofMag (!x.neg) x.mag

/-- The order key: for floats that are not NaN, `x < y` exactly when `key x < key y`, and the two
zeros share the key 0. -/
def key (x : PyFloat) : Int := if x.neg then -(x.mag : Int) else x.mag

/-- Python's `x < y` on floats. -/
def lt (x y : PyFloat) : Bool := !x.isNaN && !y.isNaN && decide (x.key < y.key)

/-- Python's `x == y` on floats. -/
def eq (x y : PyFloat) : Bool := !x.isNaN && !y.isNaN && decide (x.key = y.key)

/-- The bits of `(float)x`, the C conversion that native `struct.pack("f", x)` makes: the binary32
nearest to `x`, ties to even, and infinity of the sign of `x` when it rounds past the largest
finite one. A NaN stays a quiet NaN with the top of its payload. Nothing is raised. -/
def toF32 (x : PyFloat) : UInt32 :=
  let sign : Nat := if x.neg then 2 ^ 31 else 0
  if x.isNaN then UInt32.ofNat (sign + 0x7FC00000 + x.mag % 2 ^ 51 / 2 ^ 29)
  else if x.isInf then UInt32.ofNat (sign + Fmt.binary32.infMag)
  else
    let (n, d) := Fmt.binary64.magValue x.mag
    UInt32.ofNat (sign + (Fmt.binary32.roundMag n d).getD Fmt.binary32.infMag)

/-- `struct.unpack("f", ·)` widened to a Python float: exact for every finite binary32; a NaN
comes back quiet with its payload shifted up. -/
def ofF32 (u : UInt32) : PyFloat :=
  let neg := decide (2 ^ 31 ≤ u.toNat)
  let m := u.toNat % 2 ^ 31
  if Fmt.binary32.infMag < m then ofMag neg (0x7FF8000000000000 + m % 2 ^ 22 * 2 ^ 29)
  else if m = Fmt.binary32.infMag then ofMag neg Fmt.binary64.infMag
  else
    let (n, d) := Fmt.binary32.magValue m
    ofRat neg n d

end PyFloat

end RecordStore
