import Mathlib.Algebra.Order.Field.Rat
import Mathlib.Data.Rat.Defs

/-!
# Scalars

Numerical code is written over a `Scalar`: a type with the arithmetic, the comparisons and the
mathematical functions of a programming language.  The real numbers are one, and so are
floating-point numbers.  The class has no laws, since rounding breaks those of a field.

`Vec` and `Quat` are the vectors and quaternions over it.
-/

/-- Numbers as a program computes with them. -/
class Scalar (α : Type*) extends Add α, Sub α, Mul α, Div α, Neg α where
  ofRat : ℚ → α
  pi : α
  /-- `<` and `<=`, both of which are false of a nan -/
  lt : α → α → Bool
  le : α → α → Bool
  isFinite : α → Bool
  abs : α → α
  /-- the remainder with the sign of the divisor -/
  mod : α → α → α
  sqrt : α → α
  sin : α → α
  cos : α → α
  asin : α → α
  acos : α → α
  atan2 : α → α → α

namespace Scalar

variable {α : Type*} [Scalar α]

/-- Python's `max`: the second argument only when it is greater. -/
def pyMax (a b : α) : α := if lt a b then b else a

/-- Python's `min` -/
def pyMin (a b : α) : α := if lt b a then b else a

/-- The number is a nan. -/
def isNan (a : α) : Bool := !le a a

/-- `numpy.maximum`, which passes a nan through -/
def maximum (a b : α) : α := if isNan a then a else if isNan b || lt a b then b else a

/-- `numpy.minimum` -/
def minimum (a b : α) : α := if isNan a then a else if isNan b || lt b a then b else a

/-- `numpy.clip` -/
def clip (a lower upper : α) : α := minimum (maximum a lower) upper

/-- `a ** n`, by repeated multiplication -/
def pow (a : α) : ℕ → α
  | 0 => ofRat 1
  | n + 1 => pow a n * a

def radians (degrees : α) : α := degrees * (pi / ofRat 180)

/-- `numpy.linspace(0, stop, n + 1)` -/
def linspace (stop : α) (n : ℕ) : List α :=
  let step := stop / ofRat n
  (List.range (n + 1)).map fun i => if i = n then stop else ofRat i * step

/-- `math.isclose(a, 0, abs_tol=tolerance)` -/
def isCloseToZero (a tolerance : α) : Bool := isFinite a && le (abs a) tolerance

end Scalar

open Scalar

/-! ### Vectors -/

@[ext]
structure Vec (α : Type*) where
  x : α
  y : α
  z : α

namespace Vec

variable {α : Type*}

/-- Every component satisfies `p`. -/
def all (v : Vec α) (p : α → Bool) : Bool := p v.x && p v.y && p v.z

/-- Every pair of components satisfies `p`. -/
def all₂ (u v : Vec α) (p : α → α → Bool) : Bool := p u.x v.x && p u.y v.y && p u.z v.z

/-- Some pair of components satisfies `p`. -/
def any₂ (u v : Vec α) (p : α → α → Bool) : Bool := p u.x v.x || p u.y v.y || p u.z v.z

def map (v : Vec α) (f : α → α) : Vec α := ⟨f v.x, f v.y, f v.z⟩

inductive Axis where
  | x
  | y
  | z
  deriving DecidableEq

def component (v : Vec α) : Axis → α
  | .x => v.x
  | .y => v.y
  | .z => v.z

/-- An array with three elements. -/
def ofList? : List α → Option (Vec α)
  | [x, y, z] => some ⟨x, y, z⟩
  | _ => none

variable [Scalar α]

instance : Add (Vec α) := ⟨fun u v => ⟨u.x + v.x, u.y + v.y, u.z + v.z⟩⟩

instance : Sub (Vec α) := ⟨fun u v => ⟨u.x - v.x, u.y - v.y, u.z - v.z⟩⟩

/-- `c * v` -/
def scale (c : α) (v : Vec α) : Vec α := ⟨c * v.x, c * v.y, c * v.z⟩

def zero : Vec α := ⟨ofRat 0, ofRat 0, ofRat 0⟩

def dot (u v : Vec α) : α := u.x * v.x + u.y * v.y + u.z * v.z

def cross (u v : Vec α) : Vec α :=
  ⟨u.y * v.z - u.z * v.y, u.z * v.x - u.x * v.z, u.x * v.y - u.y * v.x⟩

/-- `numpy.linalg.norm` -/
def norm (v : Vec α) : α := sqrt (dot v v)

def allFinite (v : Vec α) : Bool := v.all isFinite

/-- Every component lies between those of the two corners. -/
def inBox (v lower upper : Vec α) : Bool := lower.all₂ v le && v.all₂ upper le

/-- Some component lies beyond those of the two corners. -/
def outside (v lower upper : Vec α) : Bool := v.any₂ lower lt || upper.any₂ v lt

end Vec

/-! ### Quaternions -/

@[ext]
structure Quat (α : Type*) where
  w : α
  x : α
  y : α
  z : α

namespace Quat

variable {α : Type*} [Scalar α]

def identity : Quat α := ⟨ofRat 1, ofRat 0, ofRat 0, ofRat 0⟩

def dot (p q : Quat α) : α := p.w * q.w + p.x * q.x + p.y * q.y + p.z * q.z

def norm (q : Quat α) : α := sqrt (dot q q)

def map (q : Quat α) (f : α → α) : Quat α := ⟨f q.w, f q.x, f q.y, f q.z⟩

def scale (c : α) (q : Quat α) : Quat α := q.map (c * ·)

def divide (q : Quat α) (c : α) : Quat α := q.map (· / c)

def add (p q : Quat α) : Quat α := ⟨p.w + q.w, p.x + q.x, p.y + q.y, p.z + q.z⟩

def allFinite (q : Quat α) : Bool := isFinite q.w && isFinite q.x && isFinite q.y && isFinite q.z

end Quat
