import Mathlib.Analysis.Real.Pi.Bounds
import RobotCore.Lib.Scalar.Accuracy
import RobotCore.Trajectory.Node

/-!
# Attitudes in doubles

The attitude of finite angles is a unit up to roundings (`nearUnit_rpyQuaternion`), and between two
such attitudes there is always one (`quatMag_quaternionSlerp`): the two branches of the
interpolation give a combination that does not meet zero, since the attitudes are in one half space
up to roundings.
-/

namespace RobotCore

open Scalar Ieee Ieee.Double

section Attitudes

variable {library : MathLibrary binary64} (hlibrary : library.Accurate)
  {p q : Quat (Double library)} {x y z t : Double library}

theorem away_two : Away (ofRat 2 : Double library) 0 :=
  Away.ofRat (a := 1) (by norm_num) (by omega) (by norm_num) (by omega)

include hlibrary in
/-- The attitude of finite angles is nearly a unit. -/
theorem nearUnit_rpyQuaternion {a : ℕ} (hx : Mag x a) (hy : Mag y a) (hz : Mag z a)
    (ha : a ≤ 1023) : NearUnit (rpyQuaternion x y z) := by
  obtain ⟨sr, cr, hsr, hcr, hr⟩ := onCircle_sin_cos hlibrary (hx.div away_two (by omega) ha)
  obtain ⟨sp, cp, hsp, hcp, hp⟩ := onCircle_sin_cos hlibrary (hy.div away_two (by omega) ha)
  obtain ⟨sy, cy, hsy, hcy, hy⟩ := onCircle_sin_cos hlibrary (hz.div away_two (by omega) ha)
  have hproduct {u v w : Double library} {u' v' w' : ℚ} (hu : u.value = .finite u')
      (hv : v.value = .finite v') (hw : w.value = .finite w') (hu' : |u'| ≤ 3 / 2)
      (hv' : |v'| ≤ 3 / 2) (hw' : |w'| ≤ 3 / 2) :=
    And.intro (rounded_mul_mul hu hv hw hu' hv' hw') (abs_mul_mul_le hu' hv' hw')
  obtain ⟨⟨_, hccc, hccc'⟩, hcccle⟩ := hproduct hcr hcp hcy hr.cos_le hp.cos_le hy.cos_le
  obtain ⟨⟨_, hsss, hsss'⟩, hsssle⟩ := hproduct hsr hsp hsy hr.sin_le hp.sin_le hy.sin_le
  obtain ⟨⟨_, hscc, hscc'⟩, hsccle⟩ := hproduct hsr hcp hcy hr.sin_le hp.cos_le hy.cos_le
  obtain ⟨⟨_, hcss, hcss'⟩, hcssle⟩ := hproduct hcr hsp hsy hr.cos_le hp.sin_le hy.sin_le
  obtain ⟨⟨_, hcsc, hcsc'⟩, hcscle⟩ := hproduct hcr hsp hcy hr.cos_le hp.sin_le hy.cos_le
  obtain ⟨⟨_, hscs, hscs'⟩, hscsle⟩ := hproduct hsr hcp hsy hr.sin_le hp.cos_le hy.sin_le
  obtain ⟨⟨_, hccs, hccs'⟩, hccsle⟩ := hproduct hcr hcp hsy hr.cos_le hp.cos_le hy.sin_le
  obtain ⟨⟨_, hssc, hssc'⟩, hsscle⟩ := hproduct hsr hsp hcy hr.sin_le hp.sin_le hy.cos_le
  obtain ⟨w', hw, hw'⟩ := rounded_add_products hccc hsss hccc' hsss' hcccle hsssle
  obtain ⟨x', hx, hx'⟩ := rounded_sub_products hscc hcss hscc' hcss' hsccle hcssle
  obtain ⟨y', hy', hy''⟩ := rounded_add_products hcsc hscs hcsc' hscs' hcscle hscsle
  obtain ⟨z', hz, hz'⟩ := rounded_sub_products hccs hssc hccs' hssc' hccsle hsscle
  -- the exact square norm is the product of those of three points near the circle
  have hexact := abs_product_sub_one_le hr.norm hp.norm hy.norm
  have heq : (sr * sr + cr * cr) * (sp * sp + cp * cp) * (sy * sy + cy * cy) =
      (cr * cp * cy + sr * sp * sy) * (cr * cp * cy + sr * sp * sy) +
      (sr * cp * cy - cr * sp * sy) * (sr * cp * cy - cr * sp * sy) +
      (cr * sp * cy + sr * cp * sy) * (cr * sp * cy + sr * cp * sy) +
      (cr * cp * sy - sr * sp * cy) * (cr * cp * sy - sr * sp * cy) := by ring
  rw [heq] at hexact
  have hclose := abs_norm_sub_le hw' hx' hy'' hz' (by norm_num [roundingError])
    (by linarith [(abs_le.mp hexact).2])
  refine ⟨w', x', y', z', ⟨hw, hx, hy', hz⟩, (abs_sub_le _ _ _).trans
    ((add_le_add hclose hexact).trans ?_)⟩
  norm_num [roundingError]

theorem nearUnit_identity : NearUnit (Quat.identity : Quat (Double library)) :=
  ⟨1, 0, 0, 0, ⟨value_ofRat_one, value_ofRat_zero, value_ofRat_zero, value_ofRat_zero⟩, by norm_num⟩

include hlibrary in
theorem mag_quaternionToRpy (hq : QuatMag q 2) : VecMag (quaternionToRpy q) 3 := by
  have hdouble {a b c d : Double library} (ha : Mag a 2) (hb : Mag b 2) (hc : Mag c 2)
      (hd : Mag d 2) : Mag (ofRat 2 * (a * b + c * d)) 6 ∧ Mag (ofRat 2 * (a * b - c * d)) 6 := by
    have htwo : Mag (ofRat 2 : Double library) 1 := Mag.ofRat (by norm_num) (by omega)
    have hab := ha.mul hb le_rfl (by omega)
    have hcd := hc.mul hd le_rfl (by omega)
    exact ⟨htwo.mul (hab.add hcd (n := 5) (by omega) (by omega) (by omega)) (by omega) (by omega),
      htwo.mul (hab.sub hcd (n := 5) (by omega) (by omega) (by omega)) (by omega) (by omega)⟩
  have hrest {a b : Double library} (ha : Mag a 2) (hb : Mag b 2) :
      Mag (ofRat 1 - ofRat 2 * (a * a + b * b)) 7 := by
    have hone : Mag (ofRat 1 : Double library) 0 := Mag.ofRat (by norm_num) (by omega)
    exact hone.sub (hdouble ha ha hb hb).1 (by omega) (by omega) (by omega)
  exact ⟨mag_atan2 hlibrary (hdouble hq.w hq.x hq.y hq.z).1 (hrest hq.x hq.y),
    (mag_asin_clip hlibrary (hdouble hq.w hq.y hq.z hq.x).2.isNan).mono (by omega),
    mag_atan2 hlibrary (hdouble hq.w hq.z hq.x hq.y).1 (hrest hq.y hq.z)⟩

include hlibrary in
/-- The heading of an attitude. -/
theorem nearUnit_levelHeading (hq : QuatMag q 2) : NearUnit (levelHeadingQuaternion q) := by
  have hzero : Mag (ofRat 0 : Double library) 3 := Mag.ofRat (by norm_num) (by omega)
  exact nearUnit_rpyQuaternion hlibrary hzero hzero (mag_quaternionToRpy hlibrary hq).z (by omega)

/-! ### Rates -/

/-- The rows are bounded. -/
structure RotationMag (r : Rotation (Double library)) (n : ℕ) : Prop where
  row0 : VecMag r.row0 n
  row1 : VecMag r.row1 n
  row2 : VecMag r.row2 n

theorem mag_rotationMatrix (hq : QuatMag q 2) : RotationMag (rotationMatrix q) 7 := by
  have htwo : Mag (ofRat 2 : Double library) 1 := Mag.ofRat (by norm_num) (by omega)
  have hone : Mag (ofRat 1 : Double library) 0 := Mag.ofRat (by norm_num) (by omega)
  have hsum {a b c d : Double library} (ha : Mag a 2) (hb : Mag b 2) (hc : Mag c 2)
      (hd : Mag d 2) : Mag (ofRat 2 * (a * b + c * d)) 7 ∧ Mag (ofRat 2 * (a * b - c * d)) 7 := by
    have hab := ha.mul hb le_rfl (by omega)
    have hcd := hc.mul hd le_rfl (by omega)
    exact ⟨htwo.mul (hab.add hcd (n := 5) (by omega) (by omega) (by omega)) (by omega) (by omega),
      htwo.mul (hab.sub hcd (n := 5) (by omega) (by omega) (by omega)) (by omega) (by omega)⟩
  have hdiagonal {a b : Double library} (ha : Mag a 2) (hb : Mag b 2) :
      Mag (ofRat 1 - ofRat 2 * (a * a + b * b)) 7 := by
    have haa := ha.mul ha le_rfl (by omega)
    have hbb := hb.mul hb le_rfl (by omega)
    exact hone.sub (htwo.mul (haa.add hbb (n := 5) (by omega) (by omega) (by omega)) (n := 6)
      (by omega) (by omega)) (by omega) (by omega) (by omega)
  exact ⟨⟨hdiagonal hq.y hq.z, (hsum hq.x hq.y hq.z hq.w).2, (hsum hq.x hq.z hq.y hq.w).1⟩,
    ⟨(hsum hq.x hq.y hq.z hq.w).1, hdiagonal hq.x hq.z, (hsum hq.y hq.z hq.x hq.w).2⟩,
    ⟨(hsum hq.x hq.z hq.y hq.w).2, (hsum hq.y hq.z hq.x hq.w).1, hdiagonal hq.x hq.y⟩⟩

/-- A difference quotient over a step that is not minute. -/
theorem mag_quotient {u v : Vec (Double library)} {step : Double library} {a n : ℕ}
    (hu : VecMag u a) (hv : VecMag v a) (hstep : Mag step 0) (hstep' : Away step 100)
    (h : a + 101 ≤ n) (hn : n ≤ 1023) : VecMag ((u - v).map (· / (ofRat 2 * step))) n := by
  have htwo : Mag (ofRat 2 : Double library) 1 := Mag.ofRat (by norm_num) (by omega)
  have hdouble : Away (ofRat 2 * step) 100 :=
    away_two.mul hstep' htwo (hstep.mono (by omega)) (by omega) (by omega) (by omega)
  exact (hu.sub hv (lt_add_one a) (lt_add_one a) (by omega)).map_div hdouble (by omega) hn

section Rates

variable {attitude : Double library → Quat (Double library)} {step : Double library}
  (hattitude : ∀ t, Mag t 104 → QuatMag (attitude t) 2) (hstep : Mag step 0)
  (hstep' : Away step 100)

include hattitude hstep hstep' in
theorem mag_angularVelocityAt {a : ℕ} (ht : Mag t a) (ha : a ≤ 103) :
    VecMag (angularVelocityAt attitude t step) 120 := by
  have hzero : Mag (ofRat 0 : Double library) 104 :=
    Mag.ofRat (by rw [abs_zero]; positivity) (by omega)
  have hbefore := mag_rotationMatrix (hattitude (pyMax (ofRat 0) (t - step))
    (pyMax_of (P := (Mag · 104)) hzero (ht.sub hstep (by omega) (by omega) (by omega))))
  have hafter := mag_rotationMatrix (hattitude (t + step)
    (ht.add hstep (by omega) (by omega) (by omega)))
  obtain ⟨hrow0, hrow1, hrow2⟩ := mag_rotationMatrix (hattitude t (ht.mono (by omega)))
  have hrate {u v : Vec (Double library)} (hu : VecMag u 7) (hv : VecMag v 7) :
      VecMag ((u - v).map (· / (ofRat 2 * step))) 108 :=
    mag_quotient hu hv hstep hstep' (by omega) (by omega)
  exact ⟨(hrate hafter.row2 hbefore.row2).dot hrow1 (by omega) (by omega),
    (hrate hafter.row0 hbefore.row0).dot hrow2 (by omega) (by omega),
    (hrate hafter.row1 hbefore.row1).dot hrow0 (by omega) (by omega)⟩

end Rates

/-! ### Interpolation -/

theorem div_four_le_sin {a : ℝ} (ha : 0 ≤ a) (ha' : a ≤ 2) : a / 4 ≤ Real.sin a := by
  rcases le_total a (Real.pi / 2) with hle | hge
  · have hpi : 1 / 4 ≤ 2 / Real.pi := by
      rw [div_le_div_iff₀ (by norm_num) Real.pi_pos]
      linarith [Real.pi_le_four]
    calc a / 4 = 1 / 4 * a := by ring
      _ ≤ 2 / Real.pi * a := mul_le_mul_of_nonneg_right hpi ha
      _ ≤ Real.sin a := Real.mul_le_sin ha hle
  · have hcos := Real.one_sub_sq_div_two_le_cos (x := a - Real.pi / 2)
    rw [Real.cos_sub_pi_div_two] at hcos
    nlinarith [Real.pi_gt_three]

/-- A weight of the interpolation. -/
theorem exists_weight {angle sine v : Double library} {t s u : ℚ} (hlibrary : library.Accurate)
    (hangle : angle.value = .finite t) (ht : 1 / 51 ≤ t) (ht' : t ≤ 2)
    (hsine : sine.value = .finite s) (hs : 1 / 205 ≤ s) (hs' : s ≤ 3 / 2)
    (hv : v.value = .finite u) (hu : 0 ≤ u) (hu' : u ≤ 1) :
    ∃ c, (sin (v * angle) / sine).value = .finite c ∧ -(1 / 2 ^ 42) ≤ c ∧ c ≤ 256 ∧
      (1 / 2 ≤ u → 1 / 2 ^ 11 ≤ c) := by
  have hround : ∀ {q : ℚ}, |q| ≤ 2 ^ 8 → ∃ r, (ofRat q : Double library).value = .finite r ∧
      r = roundTo binary64 q := by
    intro q hq
    obtain ⟨r, hr, -⟩ : Mag (ofRat q : Double library) 8 := Mag.ofRat hq (by omega)
    exact ⟨r, hr, eq_roundTo hr⟩
  have hut : 0 ≤ u * t := mul_nonneg hu (by linarith)
  have hut' : u * t ≤ t := mul_le_of_le_one_left (by linarith) hu'
  have hproduct : v * angle = ofRat (u * t) := value_mul hv hangle
  -- the rounded part of the angle lies between zero and the angle, which is a double
  obtain ⟨a, ha, haround⟩ := hround (q := u * t) (by rw [abs_of_nonneg hut]; linarith)
  have ha0 : 0 ≤ a := haround ▸ roundTo_nonneg hut
  have hat : a ≤ t := haround.trans_le ((roundTo_mono hut').trans_eq
    (roundTo_of_representable (representable_of_value hangle)))
  rw [hproduct]
  -- so that its sine is negative only by the error of the library
  obtain ⟨b, hb, hberror⟩ := hlibrary.sin _ a ha
  have ha0' : (0 : ℝ) ≤ a := by exact_mod_cast ha0
  have ha2 : (a : ℝ) ≤ 2 := by exact_mod_cast hat.trans ht'
  have hsin := div_four_le_sin ha0' ha2
  have herror : libraryError ≤ 1 / 2 ^ 50 := le_rfl
  obtain ⟨hblow, hbhigh⟩ := abs_le.mp hberror
  have hb0 : -(1 / 2 ^ 50) ≤ b := by
    have hreal : -(1 / 2 ^ 50 : ℝ) ≤ b := by linarith
    exact (Rat.cast_le (K := ℝ)).mp (by push_cast; exact hreal)
  have hb1 : b ≤ 1 + 1 / 2 ^ 50 := by
    have hreal : (b : ℝ) ≤ 1 + 1 / 2 ^ 50 := by linarith [Real.sin_le_one (a : ℝ)]
    exact (Rat.cast_le (K := ℝ)).mp (by push_cast; exact hreal)
  have hpos : 0 < s := by linarith
  have hlow : -(1 / 2 ^ 42) ≤ b / s := by
    rw [le_div_iff₀ hpos]
    linarith
  have hhigh : b / s ≤ 2 ^ 8 := by
    rw [div_le_iff₀ hpos]
    linarith
  obtain ⟨c, hc, hcround⟩ := hround (q := b / s) (abs_le.mpr ⟨by linarith, hhigh⟩)
  have hquotient : sin (ofRat (u * t) : Double library) / sine = ofRat (b / s) :=
    value_div hb hsine hpos.ne'
  rw [hquotient]
  refine ⟨c, hc, ?_, ?_, fun hhalf => ?_⟩ <;> rw [hcround]
  · rw [← roundTo_of_representable (representable_neg (representable_inv (n := 42) (by omega)))]
    exact roundTo_mono hlow
  · have hrep := roundTo_of_representable (representable_two_pow (n := 8) (by omega))
    exact (roundTo_mono hhigh).trans (hrep.trans_le (by norm_num))
  · have hamin : 1 / 2 ^ 7 ≤ a := by
      rw [haround, ← roundTo_of_representable (representable_inv (n := 7) (by omega))]
      exact roundTo_mono (by nlinarith)
    have hbmin : 1 / 2 ^ 10 ≤ b := by
      have hreal : (1 / 2 ^ 10 : ℝ) ≤ b := by
        have hareal : (1 / 2 ^ 7 : ℝ) ≤ a := by
          have := (Rat.cast_le (K := ℝ)).mpr hamin
          push_cast at this
          exact this
        linarith
      exact (Rat.cast_le (K := ℝ)).mp (by push_cast; exact hreal)
    rw [← roundTo_of_representable (representable_inv (n := 11) (by omega))]
    refine roundTo_mono ?_
    rw [le_div_iff₀ hpos]
    linarith

/-- A component between two points. -/
theorem rounded_mix {a b w : Double library} {a' b' w' : ℚ} (ha : a.value = .finite a')
    (hb : b.value = .finite b') (hw : w.value = .finite w') (ha' : |a'| ≤ 3 / 2)
    (hb' : |b'| ≤ 3 / 2) (hw0 : 0 ≤ w') (hw1 : w' ≤ 1) :
    ∃ r, (a + w * (b + -a)).value = .finite r ∧
      |r - ((1 - w') * a' + w' * b')| ≤ 1 / 2 ^ 43 := by
  have herror : roundingError ≤ 1 / 2 ^ 49 := le_rfl
  obtain ⟨halow, hahigh⟩ := abs_le.mp ha'
  obtain ⟨hblow, hbhigh⟩ := abs_le.mp hb'
  obtain ⟨d, hd, hderror⟩ := rounded_add hb (value_neg ha)
    (abs_lt.mpr ⟨by linarith, by linarith⟩)
  obtain ⟨hdlow, hdhigh⟩ := abs_le.mp hderror
  have hdle : |d| ≤ 4 := abs_le.mpr ⟨by linarith, by linarith⟩
  have hwd : |w' * d| ≤ 4 := by
    rw [abs_mul, abs_of_nonneg hw0]
    exact (mul_le_of_le_one_left (abs_nonneg d) hw1).trans hdle
  obtain ⟨e, he, heerror⟩ := rounded_mul hw hd (hwd.trans_lt (by norm_num))
  obtain ⟨helow, hehigh⟩ := abs_le.mp heerror
  obtain ⟨hwdlow, hwdhigh⟩ := abs_le.mp hwd
  obtain ⟨r, hr, hrerror⟩ := rounded_add ha he (abs_lt.mpr ⟨by linarith, by linarith⟩)
  obtain ⟨hrlow, hrhigh⟩ := abs_le.mp hrerror
  refine ⟨r, hr, ?_⟩
  have hscaled : |w' * (d - (b' + -a'))| ≤ roundingError := by
    rw [abs_mul, abs_of_nonneg hw0]
    exact (mul_le_of_le_one_left (abs_nonneg _) hw1).trans hderror
  obtain ⟨hslow, hshigh⟩ := abs_le.mp hscaled
  refine abs_le.mpr ⟨?_, ?_⟩ <;> linarith

/-- Below 1024 a rounding is off a little more. -/
theorem value_rounded_large {q : ℚ} (h : |q| < 1024) :
    ∃ r, (ofRat q : Double library).value = .finite r ∧ |r - q| ≤ 1 / 2 ^ 44 := by
  have hmag : Mag (ofRat q : Double library) 10 := Mag.ofRat (h.le.trans (by norm_num)) (by omega)
  obtain ⟨r, hr, -⟩ := hmag
  refine ⟨r, hr, ?_⟩
  rw [eq_roundTo hr]
  refine (abs_roundTo_sub_le (k := 10) (h.trans_le (by norm_num)) (by norm_num [binary64])).trans ?_
  norm_num [binary64]

/-- A component of a weighted sum. -/
theorem rounded_weighted {a b c d : Double library} {a' b' c' d' : ℚ} (ha : a.value = .finite a')
    (hb : b.value = .finite b') (hc : c.value = .finite c') (hd : d.value = .finite d')
    (ha' : |a'| ≤ 3 / 2) (hb' : |b'| ≤ 3 / 2) (hc' : |c'| ≤ 256) (hd' : |d'| ≤ 256) :
    ∃ r, (c * a + d * b).value = .finite r ∧ |r - (c' * a' + d' * b')| ≤ 1 / 2 ^ 42 := by
  have hproduct {u v : ℚ} (hu : |u| ≤ 256) (hv : |v| ≤ 3 / 2) : |u * v| ≤ 384 := by
    rw [abs_mul]
    have huv : |u| * |v| ≤ 256 * (3 / 2) := mul_le_mul hu hv (abs_nonneg v) (by norm_num)
    linarith
  obtain ⟨e, he, heerror⟩ := @value_rounded_large library _
    ((hproduct hc' ha').trans_lt (by norm_num))
  obtain ⟨f, hf, hferror⟩ := @value_rounded_large library _
    ((hproduct hd' hb').trans_lt (by norm_num))
  obtain ⟨helow, hehigh⟩ := abs_le.mp heerror
  obtain ⟨hflow, hfhigh⟩ := abs_le.mp hferror
  obtain ⟨hcalow, hcahigh⟩ := abs_le.mp (hproduct hc' ha')
  obtain ⟨hdblow, hdbhigh⟩ := abs_le.mp (hproduct hd' hb')
  obtain ⟨r, hr, hrerror⟩ := @value_rounded_large library (e + f)
    (abs_lt.mpr ⟨by linarith, by linarith⟩)
  obtain ⟨hrlow, hrhigh⟩ := abs_le.mp hrerror
  refine ⟨r, ?_, abs_le.mpr ⟨by linarith, by linarith⟩⟩
  rw [value_mul hc ha, value_mul hd hb, Double.value_add he hf]
  exact hr

/-- The values of a component near a combination. -/
theorem exists_component {r₁ r₂ r₃ r₄ c₁ c₂ c₃ c₄ m e : ℚ} (h₁ : |r₁ - c₁| ≤ e)
    (h₂ : |r₂ - c₂| ≤ e) (h₃ : |r₃ - c₃| ≤ e) (h₄ : |r₄ - c₄| ≤ e)
    (h : m ≤ |c₁| ∨ m ≤ |c₂| ∨ m ≤ |c₃| ∨ m ≤ |c₄|) : ∃ u ∈ [r₁, r₂, r₃, r₄], m - e ≤ |u| := by
  have hclose {r c : ℚ} (hr : |r - c| ≤ e) (hc : m ≤ |c|) : m - e ≤ |r| := by
    have hsub := abs_sub_abs_le_abs_sub c r
    rw [abs_sub_comm] at hsub
    linarith
  rcases h with h | h | h | h
  · exact ⟨r₁, by simp, hclose h₁ h⟩
  · exact ⟨r₂, by simp, hclose h₂ h⟩
  · exact ⟨r₃, by simp, hclose h₃ h⟩
  · exact ⟨r₄, by simp, hclose h₄ h⟩

include hlibrary in
/-- A result near a combination that is long has a direction. -/
theorem quatMag_of_combination {result : Quat (Double library)} {w x y z w' x' y' z' s t e : ℚ}
    {r₁ r₂ r₃ r₄ δ : ℚ} {k : ℕ} (hresult : QuatValue result r₁ r₂ r₃ r₄)
    (h₁ : |r₁ - (s * w + t * w')| ≤ e) (h₂ : |r₂ - (s * x + t * x')| ≤ e)
    (h₃ : |r₃ - (s * y + t * y')| ≤ e) (h₄ : |r₄ - (s * z + t * z')| ≤ e)
    (hp : 1 / 2 ≤ w * w + x * x + y * y + z * z) (hp' : w * w + x * x + y * y + z * z ≤ 3 / 2)
    (hq : 1 / 2 ≤ w' * w' + x' * x' + y' * y' + z' * z')
    (hq' : w' * w' + x' * x' + y' * y' + z' * z' ≤ 3 / 2)
    (hs : |s| ≤ 256) (ht : |t| ≤ 256) (he : e ≤ 1 / 2 ^ (k + 1)) (hk : k ≤ 98)
    (hdot : -δ ≤ s * t * (w * w' + x * x' + y * y' + z * z'))
    (h : 4 * (1 / 2 ^ k * (1 / 2 ^ k)) + 2 * δ < (s * s + t * t) / 2) :
    QuatMag (result.divide result.norm) 1 := by
  have hbound := abs_le_of_norm hp'
  have hbound' := abs_le_of_norm hq'
  have hk1 : (1 : ℚ) / 2 ^ (k + 1) ≤ 1 := div_le_one_of_le₀ (one_le_pow₀ (by norm_num))
    (by positivity)
  have hmag {r u v : ℚ} {c : Double library} (hc : c.value = .finite r)
      (hr : |r - (s * u + t * v)| ≤ e) (hu : |u| ≤ 3 / 2) (hv : |v| ≤ 3 / 2) : Mag c 10 := by
    refine ⟨r, hc, ?_⟩
    have hsu : |s * u| ≤ 384 := by
      rw [abs_mul]
      have := mul_le_mul hs hu (abs_nonneg u) (by norm_num)
      linarith
    have htv : |t * v| ≤ 384 := by
      rw [abs_mul]
      have := mul_le_mul ht hv (abs_nonneg v) (by norm_num)
      linarith
    calc |r| = |(r - (s * u + t * v)) + (s * u + t * v)| := by rw [sub_add_cancel]
      _ ≤ |r - (s * u + t * v)| + |s * u + t * v| := abs_add_le _ _
      _ ≤ 1 + (|s * u| + |t * v|) := add_le_add ((hr.trans he).trans hk1) (abs_add_le _ _)
      _ ≤ 2 ^ 10 := by linarith
  have hresultMag : QuatMag result 10 :=
    ⟨hmag hresult.w h₁ (hbound w (by simp)) (hbound' w' (by simp)),
      hmag hresult.x h₂ (hbound x (by simp)) (hbound' x' (by simp)),
      hmag hresult.y h₃ (hbound y (by simp)) (hbound' y' (by simp)),
      hmag hresult.z h₄ (hbound z (by simp)) (hbound' z' (by simp))⟩
  -- a component of the combination is large, and so is that of the result
  obtain ⟨u, hu, hle⟩ := exists_component h₁ h₂ h₃ h₄ (exists_large_component hp hq hdot h)
  have hlarge : 1 / 2 ^ (k + 1) ≤ |u| := by
    refine le_trans ?_ hle
    have hhalf : (1 : ℚ) / 2 ^ k = 1 / 2 ^ (k + 1) + 1 / 2 ^ (k + 1) := by
      rw [pow_succ]
      field_simp
      norm_num
    linarith
  exact quatMag_divide_norm hlibrary (away_norm hlibrary hresultMag hresult ⟨u, hu, hlarge⟩
    (by omega) (by omega)) (by omega)

/-- A quaternion that is neither short nor long. -/
structure Long (q : Quat (Double library)) (w x y z : ℚ) : Prop where
  value : QuatValue q w x y z
  low : 1 / 2 ≤ w * w + x * x + y * y + z * z
  high : w * w + x * x + y * y + z * z ≤ 3 / 2

theorem dot_le {w x y z w' x' y' z' : ℚ} (h : w * w + x * x + y * y + z * z ≤ 3 / 2)
    (h' : w' * w' + x' * x' + y' * y' + z' * z' ≤ 3 / 2) :
    w * w' + x * x' + y * y' + z * z' ≤ 3 / 2 := by
  nlinarith [mul_self_nonneg (w - w'), mul_self_nonneg (x - x'), mul_self_nonneg (y - y'),
    mul_self_nonneg (z - z')]

/-- Weights that are hardly negative, of attitudes that are hardly opposite. -/
theorem weighted_dot_low {a b d : ℚ} (ha : -(1 / 2 ^ 42) ≤ a) (ha' : a ≤ 256)
    (hb : -(1 / 2 ^ 42) ≤ b) (hb' : b ≤ 256) (hd : -(1 / 2 ^ 46) ≤ d) (hd' : d ≤ 3 / 2) :
    -(1 / 2 ^ 30) ≤ a * b * d := by
  have hlow : -(1 / 2 ^ 33) ≤ a * b := by
    rcases le_total 0 a with ha0 | ha0
    · nlinarith
    · rcases le_total 0 b with hb0 | hb0
      · nlinarith
      · nlinarith
  have hhigh : a * b ≤ 2 ^ 16 := by
    rcases le_total 0 a with ha0 | ha0
    · nlinarith
    · rcases le_total 0 b with hb0 | hb0
      · nlinarith
      · nlinarith
  rcases le_total 0 d with hd0 | hd0
  · nlinarith
  · nlinarith

include hlibrary in
/-- The angle between attitudes that are neither nearly the same nor opposite. -/
theorem exists_angle {dot : Double library} {d : ℚ} (hdot : dot.value = .finite d) (hd : 0 ≤ d)
    (hd' : d ≤ 9996 / 10000) : ∃ t s, (acos dot).value = .finite t ∧ 1 / 51 ≤ t ∧ t ≤ 2 ∧
      (sin (acos dot)).value = .finite s ∧ 1 / 205 ≤ s ∧ s ≤ 3 / 2 := by
  obtain ⟨t, ht, hterror⟩ := hlibrary.acos dot d hdot (abs_le.mpr ⟨by linarith, by linarith⟩)
  obtain ⟨s, hs, hserror⟩ := hlibrary.sin _ t ht
  have herror : libraryError ≤ 1 / 2 ^ 50 := le_rfl
  have hdreal : (d : ℝ) ≤ 9996 / 10000 := by
    have := (Rat.cast_le (K := ℝ)).mpr hd'
    push_cast at this
    exact this
  -- the arccosine falls, so that the branch of the program keeps the angle away from zero
  have hlow : 1 / 50 ≤ Real.arccos d := by
    have hcos : (d : ℝ) ≤ Real.cos (1 / 50) :=
      hdreal.trans (le_trans (by norm_num) (Real.one_sub_sq_div_two_le_cos (x := 1 / 50)))
    have harccos := Real.arccos_le_arccos hcos
    rwa [Real.arccos_cos (by norm_num) (by linarith [Real.two_le_pi])] at harccos
  have hhigh : Real.arccos d ≤ Real.pi / 2 := Real.arccos_le_pi_div_two.mpr (by exact_mod_cast hd)
  obtain ⟨htlow, hthigh⟩ := abs_le.mp hterror
  have ht1 : (1 / 51 : ℝ) ≤ t := by linarith
  have ht2 : (t : ℝ) ≤ 2 := by linarith [Real.pi_lt_d2]
  have hsin := div_four_le_sin (by linarith : (0 : ℝ) ≤ t) ht2
  obtain ⟨hslow, hshigh⟩ := abs_le.mp hserror
  refine ⟨t, s, ht, (Rat.cast_le (K := ℝ)).mp (by push_cast; exact ht1), by exact_mod_cast ht2, hs,
    (Rat.cast_le (K := ℝ)).mp ?_, (Rat.cast_le (K := ℝ)).mp ?_⟩
  · push_cast
    linarith
  · push_cast
    linarith [Real.sin_le_one (t : ℝ)]

section Slerp

variable {start target : Quat (Double library)} {weight : Double library}
  {w x y z w' x' y' z' v : ℚ} (hstart : Long start w x y z) (htarget : Long target w' x' y' z')
  (hweight : weight.value = .finite v) (hv : 0 ≤ v) (hv' : v ≤ 1)

include hlibrary hstart htarget hweight hv hv' in
/-- Between attitudes that are nearly the same. -/
theorem quatMag_near (hdot : -(1 / 2 ^ 40) ≤ w * w' + x * x' + y * y' + z * z') :
    let result := start.add ((target.add (start.map (-·))).scale weight)
    QuatMag (result.divide result.norm) 1 := by
  have hbound := abs_le_of_norm hstart.high
  have hbound' := abs_le_of_norm htarget.high
  obtain ⟨r₁, hr₁, h₁⟩ := rounded_mix hstart.value.w htarget.value.w hweight (hbound w (by simp))
    (hbound' w' (by simp)) hv hv'
  obtain ⟨r₂, hr₂, h₂⟩ := rounded_mix hstart.value.x htarget.value.x hweight (hbound x (by simp))
    (hbound' x' (by simp)) hv hv'
  obtain ⟨r₃, hr₃, h₃⟩ := rounded_mix hstart.value.y htarget.value.y hweight (hbound y (by simp))
    (hbound' y' (by simp)) hv hv'
  obtain ⟨r₄, hr₄, h₄⟩ := rounded_mix hstart.value.z htarget.value.z hweight (hbound z (by simp))
    (hbound' z' (by simp)) hv hv'
  -- the two weights add up to one, so that one of them is at least a half
  have hvv : 0 ≤ (1 - v) * v := mul_nonneg (by linarith) hv
  have hvv' : (1 - v) * v ≤ 1 := by nlinarith
  refine quatMag_of_combination hlibrary (k := 3) (δ := 1 / 2 ^ 40) ⟨hr₁, hr₂, hr₃, hr₄⟩ h₁ h₂ h₃ h₄
    hstart.low hstart.high htarget.low htarget.high (abs_le.mpr ⟨by linarith, by linarith⟩)
    (abs_le.mpr ⟨by linarith, by linarith⟩) (by norm_num) (by omega) ?_ ?_
  · calc -(1 / 2 ^ 40) ≤ (1 - v) * v * -(1 / 2 ^ 40) := by nlinarith
      _ ≤ (1 - v) * v * (w * w' + x * x' + y * y' + z * z') :=
        mul_le_mul_of_nonneg_left hdot hvv
  · nlinarith [sq_nonneg (2 * v - 1)]

include hlibrary hstart htarget hweight hv hv' in
/-- Between attitudes that are not opposite. -/
theorem quatMag_far {angle sine : Double library} {t s : ℚ} (hangle : angle.value = .finite t)
    (ht : 1 / 51 ≤ t) (ht' : t ≤ 2) (hsine : sine.value = .finite s) (hs : 1 / 205 ≤ s)
    (hs' : s ≤ 3 / 2) (hdot : -(1 / 2 ^ 46) ≤ w * w' + x * x' + y * y' + z * z') :
    let result := (start.scale (sin ((ofRat 1 - weight) * angle) / sine)).add
      (target.scale (sin (weight * angle) / sine))
    QuatMag (result.divide result.norm) 1 := by
  have hbound := abs_le_of_norm hstart.high
  have hbound' := abs_le_of_norm htarget.high
  have hrest : ∃ u, (ofRat 1 - weight).value = .finite u ∧ 0 ≤ u ∧ u ≤ 1 ∧
      (v ≤ 1 / 2 → 1 / 2 ≤ u) := by
    have hmag : Mag (ofRat (1 - v) : Double library) 0 := Mag.ofRat (by
      rw [abs_of_nonneg (by linarith), pow_zero]
      linarith) (by omega)
    obtain ⟨u, hu, hle⟩ := hmag
    have hround := eq_roundTo hu
    refine ⟨u, by rw [value_sub value_ofRat_one hweight]; exact hu,
      hround ▸ roundTo_nonneg (by linarith), by simpa using le_of_abs_le hle, fun hhalf => ?_⟩
    have hrep := roundTo_of_representable (representable_inv (n := 1) (by omega))
    rw [hround]
    refine le_trans (by norm_num) (hrep.symm.trans_le (roundTo_mono ?_))
    linarith
  obtain ⟨u, hu, hu0, hu1, huhalf⟩ := hrest
  obtain ⟨a, ha, halow, hahigh, hahalf⟩ := exists_weight hlibrary hangle ht ht' hsine hs hs' hu hu0
    hu1
  obtain ⟨b, hb, hblow, hbhigh, hbhalf⟩ := exists_weight hlibrary hangle ht ht' hsine hs hs' hweight
    hv hv'
  have haabs : |a| ≤ 256 := abs_le.mpr ⟨by linarith, hahigh⟩
  have hbabs : |b| ≤ 256 := abs_le.mpr ⟨by linarith, hbhigh⟩
  obtain ⟨r₁, hr₁, h₁⟩ := rounded_weighted hstart.value.w htarget.value.w ha hb (hbound w (by simp))
    (hbound' w' (by simp)) haabs hbabs
  obtain ⟨r₂, hr₂, h₂⟩ := rounded_weighted hstart.value.x htarget.value.x ha hb (hbound x (by simp))
    (hbound' x' (by simp)) haabs hbabs
  obtain ⟨r₃, hr₃, h₃⟩ := rounded_weighted hstart.value.y htarget.value.y ha hb (hbound y (by simp))
    (hbound' y' (by simp)) haabs hbabs
  obtain ⟨r₄, hr₄, h₄⟩ := rounded_weighted hstart.value.z htarget.value.z ha hb (hbound z (by simp))
    (hbound' z' (by simp)) haabs hbabs
  refine quatMag_of_combination hlibrary (k := 13) (δ := 1 / 2 ^ 30) ⟨hr₁, hr₂, hr₃, hr₄⟩ h₁ h₂ h₃
    h₄ hstart.low hstart.high htarget.low htarget.high haabs hbabs (by norm_num) (by omega) ?_ ?_
  · exact weighted_dot_low halow hahigh hblow hbhigh hdot (dot_le hstart.high htarget.high)
  · -- one of the two weights is that of the nearer attitude
    have hmax : 1 / 2 ^ 11 ≤ a ∨ 1 / 2 ^ 11 ≤ b := by
      rcases le_total v (1 / 2) with hle | hge
      · exact Or.inl (hahalf (huhalf hle))
      · exact Or.inr (hbhalf hge)
    rcases hmax with hmax | hmax
    · nlinarith [mul_self_nonneg b]
    · nlinarith [mul_self_nonneg a]

include hlibrary hstart htarget hweight hv hv' in
/-- Between attitudes in one half space there is always one. -/
theorem quatMag_slerp {dot : Double library} {d : ℚ} (hdot : dot.value = .finite d) (hd : 0 ≤ d)
    (herror : |d - (w * w' + x * x' + y * y' + z * z')| ≤ 7 * roundingError) :
    QuatMag (let dot := clip dot (ofRat (-1)) (ofRat 1)
      if lt (ofRat (9995 / 10000)) dot then
        let difference := target.add (start.map (-·))
        let result := start.add (difference.scale weight)
        result.divide result.norm
      else
        let angle := acos dot
        let sine := sin angle
        let result := (start.scale (sin ((ofRat 1 - weight) * angle) / sine)).add
          (target.scale (sin (weight * angle) / sine))
        result.divide result.norm) 1 := by
  have hsmall : 7 * roundingError ≤ 1 / 2 ^ 46 := by norm_num [roundingError]
  have hlow : -(1 / 2 ^ 46) ≤ w * w' + x * x' + y * y' + z * z' := by
    linarith [(abs_le.mp (herror.trans hsmall)).2]
  have hone : Representable binary64 1 := by
    simpa using representable_two_pow (n := 0) (by omega)
  have hclip : (clip dot (ofRat (-1)) (ofRat 1)).value = .finite (min (max d (-1)) 1) :=
    value_clip hdot (value_ofRat (representable_neg hone) (n := 0) (by norm_num) (by norm_num))
      value_ofRat_one
  dsimp only
  generalize clip dot (ofRat (-1)) (ofRat 1) = dot' at hclip
  rw [max_eq_left (by linarith)] at hclip
  -- the first branch of the program mixes the attitudes, the second weights them by sines
  split_ifs with hnear
  · exact quatMag_near hlibrary hstart htarget hweight hv hv' (by linarith)
  · obtain ⟨c, hc, -⟩ : Mag (ofRat (9995 / 10000) : Double library) 0 :=
      Mag.ofRat (by norm_num) (by omega)
    have hclose := abs_roundTo_sub_le (f := binary64) (q := 9995 / 10000) (k := 0) (by norm_num)
      (by norm_num [binary64])
    rw [← eq_roundTo hc] at hclose
    have hc' : c ≤ 9996 / 10000 := by
      have hbits : (2 : ℚ) ^ ((0 : ℤ) - binary64.precision) / 2 ≤ 1 / 10000 := by
        norm_num [binary64]
      linarith [(abs_le.mp (hclose.trans hbits)).2]
    rw [lt_eq hc hclip, decide_eq_true_iff, not_lt] at hnear
    obtain ⟨t, s, hangle, ht, ht', hsine, hs, hs'⟩ := exists_angle hlibrary hclip
      (le_min hd zero_le_one) (hnear.trans hc')
    exact quatMag_far hlibrary hstart htarget hweight hv hv' hangle ht ht' hsine hs hs' hlow

end Slerp

include hlibrary in
/-- Between nearly unit attitudes there is always an attitude. -/
theorem quatMag_quaternionSlerp {a : ℕ} (hp : NearUnit p) (hq : NearUnit q) (hx : Mag x a) :
    QuatMag (quaternionSlerp p q x) 1 := by
  obtain ⟨w, x', y', z', hstart, hlow, hhigh⟩ := hp.exists_divide_norm hlibrary
  obtain ⟨w₂, x₂, y₂, z₂, htarget, hlow₂, hhigh₂⟩ := hq.exists_divide_norm hlibrary
  obtain ⟨v, hv, hv0, hv1⟩ := clip_mem hx.isNan value_ofRat_zero value_ofRat_one zero_le_one
  obtain ⟨d, hd, herror⟩ := rounded_dot hstart htarget (abs_le_of_norm hhigh)
    (abs_le_of_norm hhigh₂)
  unfold quaternionSlerp
  dsimp only
  -- an attitude in the other half space is replaced by its opposite
  cases hneg : lt ((p.divide p.norm).dot (q.divide q.norm)) (ofRat 0) with
  | true =>
    simp only [if_true]
    rw [lt_eq hd value_ofRat_zero, decide_eq_true_iff] at hneg
    have hopposite : Long ((q.divide q.norm).map (-·)) (-w₂) (-x₂) (-y₂) (-z₂) :=
      ⟨⟨value_neg htarget.w, value_neg htarget.x, value_neg htarget.y, value_neg htarget.z⟩,
        by linarith, by linarith⟩
    refine quatMag_slerp hlibrary ⟨hstart, hlow, hhigh⟩ hopposite hv hv0 hv1 (value_neg hd)
      (by linarith) ?_
    have hsplit : -d - (w * -w₂ + x' * -x₂ + y' * -y₂ + z' * -z₂) =
        -(d - (w * w₂ + x' * x₂ + y' * y₂ + z' * z₂)) := by ring
    rw [hsplit, abs_neg]
    exact herror
  | false =>
    simp only [Bool.false_eq_true, if_false]
    rw [lt_eq hd value_ofRat_zero, decide_eq_false_iff_not, not_lt] at hneg
    exact quatMag_slerp hlibrary ⟨hstart, hlow, hhigh⟩ ⟨htarget, hlow₂, hhigh₂⟩ hv hv0 hv1 hd hneg
      herror

end Attitudes

end RobotCore
