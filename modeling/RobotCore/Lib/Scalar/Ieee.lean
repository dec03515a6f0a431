import RobotCore.Lib.Ieee.Numeric
import RobotCore.Lib.Scalar

/-!
# Floating-point scalars

A floating-point format is a `Scalar`, with the functions of a mathematical library.
-/

namespace Ieee

/-- What a mathematical library computes. -/
structure MathLibrary (f : Format) where
  pi : Number f
  sqrt : Number f → Number f
  sin : Number f → Number f
  cos : Number f → Number f
  asin : Number f → Number f
  acos : Number f → Number f
  atan2 : Number f → Number f → Number f

/-- `x % y` of Python -/
def Number.mod {f : Format} (x y : Number f) : Number f :=
  match x.value, y.value with
  | .finite a, .finite b => if b = 0 then nan else ofRat f (a - b * ⌊a / b⌋)
  | .finite a, .infinity t => if a = 0 ∨ decide (a < 0) = t then x else infinity t
  | _, _ => nan

/-- The numbers of a format with a mathematical library. -/
@[reducible] def scalar {f : Format} (library : MathLibrary f) : Scalar (Number f) where
  ofRat := Number.ofRat f
  div := Number.divide
  lt := Number.lt
  le := Number.le
  isFinite := Number.isFinite
  abs := Number.abs
  mod := Number.mod
  pi := library.pi
  sqrt := library.sqrt
  sin := library.sin
  cos := library.cos
  asin := library.asin
  acos := library.acos
  atan2 := library.atan2

end Ieee
