import Mathlib.Algebra.Order.Floor.Ring
import Mathlib.Algebra.Order.Field.Rat
import Mathlib.Data.Rat.Floor
import Mathlib.Data.Rat.Sqrt
import Mathlib.Analysis.Real.Sqrt
import Mathlib.Analysis.SpecialFunctions.Trigonometric.Basic

/-!
# Scalars of the programs

Library `Base`. The Python and TypeScript sources compute in floating point; the model
computes in an ordered field with a floor, a square root and a circle constant. The rational
instance runs, its square root being exact on squares; the real instance is the exact
arithmetic of the numerical statements.
-/

namespace VisionGame.Base

/-- A test that evaluates to `true`. -/
class Passes (test : Bool) : Prop where
  passed : test = true

instance passes_true : Passes no_index true := ⟨rfl⟩

/-- Every numeral from 2 on is one. The proof names the numeral alone, so that a literal is the
same term wherever it stands. -/
instance atLeastTwo_of_passes {n : ℕ} [h : Passes (Nat.ble 2 n)] : n.AtLeastTwo :=
  ⟨Nat.le_of_ble_eq_true h.passed⟩

/-- Ordered field with the mathematical functions the sources call. -/
class Scalar (R : Type) extends Field R, LinearOrder R, IsStrictOrderedRing R, FloorRing R where
  /-- `math.sqrt`. -/
  sqrt : R → R
  /-- `math.pi` and `Math.PI`. -/
  pi : R

/-- Rationals, which evaluate; the square root is exact on squares. -/
instance : Scalar ℚ where
  sqrt := Rat.sqrt
  pi := 355 / 113

/-- Reals, for statements about exact arithmetic. -/
noncomputable instance : Scalar ℝ where
  sqrt := Real.sqrt
  pi := Real.pi

namespace Scalar

variable {R : Type} [Scalar R]

/-- `int(x)` of Python: truncation toward zero. -/
def toInt (x : R) : ℤ := if 0 ≤ x then ⌊x⌋ else ⌈x⌉

/-- Truncation brings a number nearer to zero. -/
theorem abs_toInt_le (x : R) : |(toInt x : R)| ≤ |x| := by
  unfold toInt
  split
  · next h =>
    have hfloor : (0 : R) ≤ ⌊x⌋ := by exact_mod_cast Int.floor_nonneg.mpr h
    rw [abs_of_nonneg hfloor, abs_of_nonneg h]
    exact Int.floor_le x
  · next h =>
    have hneg := (not_le.mp h).le
    have hceil : (⌈x⌉ : R) ≤ 0 := by exact_mod_cast Int.ceil_le.mpr (by simpa using hneg)
    rw [abs_of_nonpos hceil, abs_of_nonpos hneg]
    exact neg_le_neg (Int.le_ceil x)

/-- `Math.hypot(x, y)`. -/
def hypot (x y : R) : R := sqrt (x * x + y * y)

/-- `str(x)` of a number: integers in full, other numbers to 17 decimals. -/
def text (x : R) : String :=
  if (⌊x⌋ : R) = x then toString ⌊x⌋
  else
    let decimals := toString ⌊(|x| - ⌊|x|⌋) * 10 ^ 17⌋
    (if x < 0 then "-" else "") ++ toString ⌊|x|⌋ ++ "." ++ decimals.leftpad 17 '0'

end Scalar
end VisionGame.Base
