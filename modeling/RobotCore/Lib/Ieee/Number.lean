import RobotCore.Lib.Ieee.Rounding

/-!
# Floating-point numbers

A `Number f` is a NaN, an infinity, or a rational that the format `f` can represent.  The sign of
zero is not kept: nothing here divides by zero or inspects a sign bit.  Arithmetic rounds the
exact result with `roundTo` and overflows to an infinity; comparisons with a NaN are false.

`AbsLe x c` says that `x` is finite and at most `c` in absolute value.  The lemmas about it follow
a computation from the bounds of its inputs to the bound of its result.
-/

namespace Ieee

/-- What a floating-point number stands for. -/
inductive Value where
  | nan
  | infinity (negative : Bool)
  | finite (q : ℚ)
  deriving DecidableEq

/-- A finite value has to be representable. -/
def Value.InFormat (f : Format) : Value → Prop
  | .finite q => Representable f q
  | _ => True

/-- A floating-point number of the format `f`. -/
@[ext]
structure Number (f : Format) where
  value : Value
  inFormat : value.InFormat f

instance (f : Format) : DecidableEq (Number f) := fun x y =>
  decidable_of_iff (x.value = y.value) ⟨Number.ext, congrArg Number.value⟩

/-- The C++ `float`. -/
abbrev Binary32 := Number binary32

/-- The C++ `double`. -/
abbrev Binary64 := Number binary64

namespace Number

variable {f : Format}

def nan : Number f := ⟨.nan, trivial⟩

def infinity (negative : Bool) : Number f := ⟨.infinity negative, trivial⟩

/-- The rational `q` rounded to the format. -/
def ofRat (f : Format) (q : ℚ) : Number f :=
  if 2 ^ f.maxExponent ≤ |roundTo f q| then infinity (decide (q < 0))
  else ⟨.finite (roundTo f q), representable_roundTo q⟩

instance : Zero (Number f) := ⟨⟨.finite 0, 0, f.minExponent, by simp, by simp, le_rfl⟩⟩

instance : Inhabited (Number f) := ⟨0⟩

instance : Neg (Number f) where
  neg x := match x with
    | ⟨.nan, _⟩ => nan
    | ⟨.infinity s, _⟩ => infinity !s
    | ⟨.finite q, h⟩ => ⟨.finite (-q), representable_neg h⟩

instance : Add (Number f) where
  add x y := match x.value, y.value with
    | .nan, _ => nan
    | _, .nan => nan
    | .infinity s, .infinity t => if s = t then infinity s else nan
    | .infinity s, .finite _ => infinity s
    | .finite _, .infinity t => infinity t
    | .finite a, .finite b => ofRat f (a + b)

instance : Sub (Number f) where
  sub x y := x + -y

instance : Mul (Number f) where
  mul x y := match x.value, y.value with
    | .nan, _ => nan
    | _, .nan => nan
    | .infinity s, .infinity t => infinity (s != t)
    | .infinity s, .finite q => if q = 0 then nan else infinity (s != decide (q < 0))
    | .finite q, .infinity t => if q = 0 then nan else infinity (decide (q < 0) != t)
    | .finite a, .finite b => ofRat f (a * b)

/-- Division by a positive constant of the format. -/
def divConst (x : Number f) (d : ℚ) : Number f :=
  match x.value with
  | .nan => nan
  | .infinity s => infinity s
  | .finite q => ofRat f (q / d)

/-- `std::abs` -/
def abs (x : Number f) : Number f :=
  match x with
  | ⟨.nan, _⟩ => nan
  | ⟨.infinity _, _⟩ => infinity false
  | ⟨.finite q, h⟩ => if q < 0 then ⟨.finite (-q), representable_neg h⟩ else ⟨.finite q, h⟩

/-- `std::isfinite` -/
def isFinite (x : Number f) : Bool :=
  match x.value with
  | .finite _ => true
  | _ => false

/-- The rational a finite number stands for. -/
def toRat (x : Number f) : ℚ :=
  match x.value with
  | .finite q => q
  | _ => 0

/-- The comparison `x < y`, false when either side is a NaN. -/
def lt (x y : Number f) : Bool :=
  match x.value, y.value with
  | .finite a, .finite b => decide (a < b)
  | .infinity s, .finite _ => s
  | .finite _, .infinity t => !t
  | .infinity s, .infinity t => s && !t
  | _, _ => false

/-- The comparison `x <= y`, false when either side is a NaN. -/
def le (x y : Number f) : Bool :=
  match x.value, y.value with
  | .nan, _ => false
  | _, .nan => false
  | _, _ => !y.lt x

/-- `std::clamp`: the tests of the standard, so that a NaN comes back unchanged. -/
def clamp (x lo hi : Number f) : Number f :=
  if x.lt lo then lo else if hi.lt x then hi else x

/-- `std::lround`: halves away from zero.  The result is unspecified for a NaN or an infinity. -/
def lround (x : Number f) : ℤ :=
  match x.value with
  | .finite q => roundHalfAway q
  | _ => 0

/-- The conversion from `float` to `double`, which is exact. -/
def widen (x : Binary32) : Binary64 :=
  match x with
  | ⟨.nan, _⟩ => nan
  | ⟨.infinity s, _⟩ => infinity s
  | ⟨.finite q, h⟩ => ⟨.finite q, by
      obtain ⟨m, e, hq, hm, he⟩ := h
      refine ⟨m, e, hq, hm.trans (by norm_num [binary32, binary64]), le_trans ?_ he⟩
      norm_num [binary32, binary64]⟩

/-- The conversion from `double` to `float`, which rounds. -/
def narrow (x : Binary64) : Binary32 :=
  match x.value with
  | .nan => nan
  | .infinity s => infinity s
  | .finite q => ofRat binary32 q

/-! ### Finite values -/

@[simp] theorem value_zero : (0 : Number f).value = .finite 0 := rfl

theorem value_ofRat {q : ℚ} (h : |roundTo f q| < 2 ^ f.maxExponent) :
    (ofRat f q).value = .finite (roundTo f q) := by
  unfold ofRat
  rw [if_neg (not_le.mpr h)]

theorem toRat_of_finite {x : Number f} {q : ℚ} (h : x.value = .finite q) : x.toRat = q := by
  unfold toRat
  rw [h]

theorem value_neg {x : Number f} {q : ℚ} (h : x.value = .finite q) : (-x).value = .finite (-q) := by
  obtain ⟨v, hv⟩ := x
  simp only at h
  subst h
  rfl

theorem add_eq_ofRat {x y : Number f} {a b : ℚ} (hx : x.value = .finite a)
    (hy : y.value = .finite b) : x + y = ofRat f (a + b) := by
  show (match x.value, y.value with
    | .nan, _ => nan
    | _, .nan => nan
    | .infinity s, .infinity t => if s = t then infinity s else nan
    | .infinity s, .finite _ => infinity s
    | .finite _, .infinity t => infinity t
    | .finite a, .finite b => ofRat f (a + b)) = _
  rw [hx, hy]

theorem sub_eq_ofRat {x y : Number f} {a b : ℚ} (hx : x.value = .finite a)
    (hy : y.value = .finite b) : x - y = ofRat f (a - b) := by
  rw [sub_eq_add_neg a b]
  exact add_eq_ofRat hx (value_neg hy)

theorem mul_eq_ofRat {x y : Number f} {a b : ℚ} (hx : x.value = .finite a)
    (hy : y.value = .finite b) : x * y = ofRat f (a * b) := by
  show (match x.value, y.value with
    | .nan, _ => nan
    | _, .nan => nan
    | .infinity s, .infinity t => infinity (s != t)
    | .infinity s, .finite q => if q = 0 then nan else infinity (s != decide (q < 0))
    | .finite q, .infinity t => if q = 0 then nan else infinity (decide (q < 0) != t)
    | .finite a, .finite b => ofRat f (a * b)) = _
  rw [hx, hy]

/-- Both parts of a finite sum are finite. -/
theorem exists_of_add {x y : Number f} {r : ℚ} (h : (x + y).value = .finite r) :
    ∃ p q, x.value = .finite p ∧ y.value = .finite q := by
  obtain ⟨v, hv⟩ := x
  obtain ⟨w, hw⟩ := y
  cases v with
  | nan => cases h
  | infinity s =>
    cases w with
    | nan => cases h
    | infinity t =>
      have hvalue : (if s = t then infinity s else nan : Number f).value = .finite r := h
      split_ifs at hvalue <;> cases hvalue
    | finite q => cases h
  | finite p =>
    cases w with
    | nan => cases h
    | infinity t => cases h
    | finite q => exact ⟨p, q, rfl, rfl⟩

theorem exists_of_mul_self {x : Number f} {r : ℚ} (h : (x * x).value = .finite r) :
    ∃ p, x.value = .finite p := by
  obtain ⟨v, hv⟩ := x
  cases v with
  | nan => cases h
  | infinity s => cases h
  | finite p => exact ⟨p, rfl⟩

/-- A nan goes through the arithmetic. -/
theorem value_add_nan {x y : Number f} (h : x.value = .nan ∨ y.value = .nan) :
    (x + y).value = .nan := by
  obtain ⟨v, hv⟩ := x
  obtain ⟨w, hw⟩ := y
  rcases h with rfl | rfl
  · cases w <;> rfl
  · cases v <;> rfl

theorem value_mul_nan {x y : Number f} (h : x.value = .nan ∨ y.value = .nan) :
    (x * y).value = .nan := by
  obtain ⟨v, hv⟩ := x
  obtain ⟨w, hw⟩ := y
  rcases h with rfl | rfl
  · cases w <;> rfl
  · cases v <;> rfl

/-- A rational is not rounded to a nan. -/
theorem value_ofRat_ne_nan (q : ℚ) : (ofRat f q).value ≠ .nan := by
  unfold ofRat
  split_ifs <;> exact nofun

/-- Adding a finite number makes no nan. -/
theorem value_add_ne_nan {x y : Number f} (hx : x.value ≠ .nan) (hy : y.isFinite = true) :
    (x + y).value ≠ .nan := by
  obtain ⟨v, hv⟩ := x
  obtain ⟨w, hw⟩ := y
  cases w with
  | nan => cases hy
  | infinity t => cases hy
  | finite q =>
    cases v with
    | nan => exact absurd rfl hx
    | infinity s => exact nofun
    | finite p => exact value_ofRat_ne_nan (p + q)

theorem value_widen {x : Binary32} {q : ℚ} (h : x.value = .finite q) :
    x.widen.value = .finite q := by
  obtain ⟨v, hv⟩ := x
  simp only at h
  subst h
  rfl

theorem narrow_eq_ofRat {x : Binary64} {q : ℚ} (h : x.value = .finite q) :
    x.narrow = ofRat binary32 q := by
  unfold narrow
  rw [h]

theorem isFinite_iff {x : Number f} : x.isFinite = true ↔ ∃ q, x.value = .finite q := by
  unfold isFinite
  cases x.value <;> simp

theorem lt_iff_of_finite {x y : Number f} {a b : ℚ} (hx : x.value = .finite a)
    (hy : y.value = .finite b) : x.lt y = true ↔ a < b := by
  unfold lt
  rw [hx, hy]
  simp

/-! ### Bounded numbers -/

/-- `x` is finite and at most `c` in absolute value. -/
def AbsLe (x : Number f) (c : ℚ) : Prop :=
  ∃ q, x.value = .finite q ∧ |q| ≤ c

namespace AbsLe

variable {x y : Number f} {a b c : ℚ}

theorem mono (h : AbsLe x a) (hab : a ≤ b) : AbsLe x b := by
  obtain ⟨q, hq, hle⟩ := h
  exact ⟨q, hq, hle.trans hab⟩

theorem isFinite (h : AbsLe x a) : x.isFinite = true := by
  obtain ⟨q, hq, -⟩ := h
  exact isFinite_iff.mpr ⟨q, hq⟩

theorem zero (h : 0 ≤ c) : AbsLe (0 : Number f) c := ⟨0, rfl, by simpa using h⟩

theorem ofRat {q : ℚ} (hc : Representable f c) (hmax : c < 2 ^ f.maxExponent) (h : |q| ≤ c) :
    AbsLe (Number.ofRat f q) c :=
  ⟨roundTo f q, value_ofRat ((abs_roundTo_le hc h).trans_lt hmax), abs_roundTo_le hc h⟩

theorem neg (h : AbsLe x a) : AbsLe (-x) a := by
  obtain ⟨q, hq, hle⟩ := h
  exact ⟨-q, value_neg hq, by rwa [abs_neg]⟩

theorem add (hx : AbsLe x a) (hy : AbsLe y b) (hc : Representable f (a + b))
    (hmax : a + b < 2 ^ f.maxExponent) : AbsLe (x + y) (a + b) := by
  obtain ⟨p, hp, hpa⟩ := hx
  obtain ⟨q, hq, hqb⟩ := hy
  rw [add_eq_ofRat hp hq]
  exact ofRat hc hmax ((abs_add_le p q).trans (add_le_add hpa hqb))

/-- Small integer bounds add up. -/
theorem add_natCast {m n : ℕ} (hx : AbsLe x m) (hy : AbsLe y n) (hlt : m + n < 2 ^ f.precision)
    (hmin : f.minExponent ≤ 0) (hmax : f.precision ≤ f.maxExponent) :
    AbsLe (x + y) ((m + n : ℕ) : ℚ) := by
  have hrep := representable_natCast hlt hmin
  rw [Nat.cast_add] at hrep ⊢
  refine hx.add hy hrep (lt_of_lt_of_le (b := (2 : ℚ) ^ (f.precision : ℤ)) ?_ ?_)
  · rw [zpow_natCast]
    exact_mod_cast hlt
  · exact zpow_le_zpow_right₀ (by norm_num) hmax

theorem mul (hx : AbsLe x a) (hy : AbsLe y b) (hc : Representable f (a * b))
    (hmax : a * b < 2 ^ f.maxExponent) : AbsLe (x * y) (a * b) := by
  obtain ⟨p, hp, hpa⟩ := hx
  obtain ⟨q, hq, hqb⟩ := hy
  rw [mul_eq_ofRat hp hq]
  refine ofRat hc hmax ?_
  rw [abs_mul]
  exact mul_le_mul hpa hqb (abs_nonneg q) ((abs_nonneg p).trans hpa)

theorem widen {x : Binary32} (h : AbsLe x a) : AbsLe x.widen a := by
  obtain ⟨q, hq, hle⟩ := h
  exact ⟨q, value_widen hq, hle⟩

theorem narrow {x : Binary64} (h : AbsLe x c) (hc : Representable binary32 c)
    (hmax : c < 2 ^ binary32.maxExponent) : AbsLe x.narrow c := by
  obtain ⟨q, hq, hle⟩ := h
  rw [narrow_eq_ofRat hq]
  exact ofRat hc hmax hle

end AbsLe

end Number

end Ieee
