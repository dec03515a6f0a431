import RobotCore.Lib.Except
import RobotCore.Lib.Machine
import RobotCore.Lib.Scalar.Real
import RobotCore.Policy.T60Node
import RobotCore.Policy.T60Observation

/-!
# The observations of the two policy nodes

Both nodes see the inputs from the same attitude and put the same entries in the same order: what
the C++ node writes at offsets is what the Python node concatenates (`writeCurrent_eq`), and the
error of the attitude that one of them normalizes is a unit already (`frameVectors_eq`).  Their
checks differ: the C++ node looks at the quaternions only (`of_buildFrame`), the Python node at
every value (`usable_of_build`).  On ticks with the same verdict they stay in step (`InStep.tick`),
and `observationsAgree_iff` is that no other tick agrees.
-/

namespace RobotCore

open Scalar Extended

/-! ### Arrays -/

section Arrays

variable {α : Type} [Scalar α] {filled : List α} {offset : ℕ}

/-- A vector is written where the array is not filled yet. -/
theorem writeVec_append (h : filled.length = offset) (k : ℕ) (v : Vec α) :
    T60PolicyNode.writeVec (filled ++ List.replicate (k + 3) (ofRat 0)) offset v =
      filled ++ v.toList ++ List.replicate k (ofRat 0) := by
  subst h
  simp [T60PolicyNode.writeVec, Vec.toList, List.replicate_succ]

theorem writeQuat_append (h : filled.length = offset) (k : ℕ) (q : Quat α) :
    T60PolicyNode.writeQuat (filled ++ List.replicate (k + 4) (ofRat 0)) offset q =
      filled ++ q.toList ++ List.replicate k (ofRat 0) := by
  subst h
  simp [T60PolicyNode.writeQuat, Quat.toList, List.replicate_succ]

theorem writeCommand_append (h : filled.length = offset) (command : Fin 8 → α) :
    T60PolicyNode.writeCommand (filled ++ List.replicate 8 (ofRat 0)) offset command =
      filled ++ List.ofFn command := by
  subst h
  simp [T60PolicyNode.writeCommand, List.finRange_succ, List.replicate_succ, List.ofFn_succ]

variable (vectors : T60PolicyNode.FrameVectors α) (command : Fin 8 → α)

/-- The array of the current entries, in the order of its offsets. -/
theorem writeCurrent_eq :
    T60PolicyNode.writeCurrent vectors command =
      vectors.positionError.toList ++ vectors.targetVelocity.toList ++
        vectors.velocityError.toList ++ vectors.attitudeError.toList ++
        vectors.measuredRate.toList ++ vectors.targetRate.toList ++
        vectors.targetAcceleration.toList ++ List.ofFn command := by
  simp only [T60PolicyNode.writeCurrent]
  rw [show List.replicate T60PolicyNode.currentSize (ofRat 0 : α) =
    [] ++ List.replicate (27 + 3) (ofRat 0) from rfl]
  rw [writeVec_append, writeVec_append, writeVec_append, writeQuat_append, writeVec_append,
    writeVec_append, writeVec_append, writeCommand_append, List.nil_append] <;> rfl

theorem writeHistory_eq :
    T60PolicyNode.writeHistory vectors command =
      vectors.positionError.toList ++ vectors.velocityError.toList ++
        vectors.attitudeError.toList ++ vectors.rateError.toList ++ List.ofFn command := by
  simp only [T60PolicyNode.writeHistory]
  rw [show List.replicate T60PolicyNode.historyFrameSize (ofRat 0 : α) =
    [] ++ List.replicate (18 + 3) (ofRat 0) from rfl]
  rw [writeVec_append, writeVec_append, writeQuat_append, writeVec_append, writeCommand_append,
    List.nil_append] <;> rfl

theorem observationScale_eq :
    (T60PolicyNode.observationScale : List α) = T60ObservationState.obsScale := rfl

theorem historyScale_eq :
    (T60PolicyNode.historyScale : List α) = T60ObservationState.historyScale := rfl

end Arrays

/-! ### Quaternions -/

/-- A finite quaternion with a norm that is not below the tolerance. -/
def HasDirection {α : Type} [Scalar α] (q : Quat α) (tolerance : ℚ) : Prop :=
  q.allFinite = true ∧ lt q.norm (ofRat tolerance) = false

section Quaternions

variable {K : Type} [Field K] [LinearOrder K] [IsStrictOrderedRing K] [FloorRing K]
  [MathLibrary K] {p q : Quat (Extended K)}

theorem HasDirection.mono {c d : ℚ} (h : HasDirection q d) (hcd : c ≤ d) : HasDirection q c := by
  obtain ⟨hfinite, hnorm⟩ := h
  obtain ⟨n, hn⟩ := isFinite_iff.mp ((isFinite_norm q).trans hfinite)
  refine ⟨hfinite, ?_⟩
  rw [hn, ofRat_eq, lt_finite, decide_eq_false_iff_not, not_lt] at hnorm ⊢
  exact (Rat.cast_le.mpr hcd).trans hnorm

theorem normalized_eq_ok_iff {r : Quat (Extended K)} :
    T60PolicyNode.normalized q = .ok r ↔
      HasDirection q (1 / 10 ^ 9) ∧ r = q.divide q.norm := by
  rw [T60PolicyNode.normalized, HasDirection, isFinite_norm]
  cases q.allFinite <;> cases lt q.norm (ofRat (1 / 10 ^ 9)) <;> simp [eq_comm]

theorem unitQuaternion_eq_ok_iff {r : Quat (Extended K)} {label : String} :
    T60ObservationState.unitQuaternion q label = .ok r ↔
      HasDirection q (1 / 10 ^ 6) ∧ r = q.divide q.norm := by
  rw [T60ObservationState.unitQuaternion, HasDirection]
  cases q.allFinite <;> cases lt q.norm (ofRat (1 / 10 ^ 6)) <;> simp [eq_comm]

theorem HasDirection.isUnit {c : ℚ} (h : HasDirection q c) (hc : 0 < c) :
    IsUnit (q.divide q.norm) :=
  isUnit_divide_norm h.1 hc h.2

/-- A unit has a direction, its own. -/
theorem normalized_of_isUnit (h : IsUnit q) : T60PolicyNode.normalized q = .ok q := by
  refine normalized_eq_ok_iff.mpr ⟨⟨h.allFinite, ?_⟩, ?_⟩
  · rw [h.norm_eq_one, ofRat_eq, lt_finite, decide_eq_false_iff_not, not_lt]
    exact_mod_cast (by norm_num : (1 / 10 ^ 9 : ℚ) ≤ 1)
  · rw [h.norm_eq_one, h.divide_one]

theorem quatConjugate_eq (h : IsUnit q) :
    T60ObservationState.quatConjugate q = T60PolicyNode.conjugate q := by
  obtain ⟨w, x, y, z, rfl, -⟩ := h
  simp [T60ObservationState.quatConjugate, T60PolicyNode.conjugate]

theorem isUnit_conjugate (h : IsUnit q) : IsUnit (T60PolicyNode.conjugate q) := by
  obtain ⟨w, x, y, z, rfl, hsq⟩ := h
  exact ⟨w, -x, -y, -z, rfl, by linear_combination hsq⟩

theorem isUnit_multiply (hp : IsUnit p) (hq : IsUnit q) : IsUnit (T60PolicyNode.multiply p q) := by
  obtain ⟨a, b, c, d, rfl, hp⟩ := hp
  obtain ⟨w, x, y, z, rfl, hq⟩ := hq
  refine ⟨a * w - b * x - c * y - d * z, a * x + b * w + c * z - d * y,
    a * y - b * z + c * w + d * x, a * z + b * y - c * x + d * w, ?_, ?_⟩
  · simp [T60PolicyNode.multiply]
  · linear_combination (w * w + x * x + y * y + z * z) * hp + hq

theorem isUnit_withSign (h : IsUnit q) : IsUnit (T60PolicyNode.withSign q) := by
  rw [T60PolicyNode.withSign]
  split_ifs
  · obtain ⟨w, x, y, z, rfl, hsq⟩ := h
    exact ⟨-w, -x, -y, -z, rfl, by linear_combination hsq⟩
  · exact h

theorem allFinite_rotate {v : Vec (Extended K)} (hq : q.allFinite = true)
    (hv : v.allFinite = true) : (T60PolicyNode.rotate q v).allFinite = true := by
  simp only [Quat.allFinite, Bool.and_eq_true] at hq
  obtain ⟨⟨⟨hw, hx⟩, hy⟩, hz⟩ := hq
  have hxyz : (⟨q.x, q.y, q.z⟩ : Vec (Extended K)).allFinite = true :=
    allFinite_iff.mpr ⟨hx, hy, hz⟩
  have hcross := allFinite_scale (c := ofRat 2) rfl (allFinite_cross hxyz hv)
  exact allFinite_add (allFinite_add hv (allFinite_scale hw hcross)) (allFinite_cross hxyz hcross)

/-- `std::clamp` and `numpy.clip` agree on numbers. -/
theorem clamp_eq_clip (a : K) :
    T60PolicyNode.clamp (finite a) (ofRat (-1)) (ofRat 1) =
      clip (finite a) (ofRat (-1)) (ofRat 1) := by
  rw [ofRat_eq, ofRat_eq, clip_finite, T60PolicyNode.clamp, lt_finite, lt_finite]
  have hle : ((-1 : ℚ) : K) ≤ ((1 : ℚ) : K) := by simp
  rcases lt_or_ge a ((-1 : ℚ) : K) with hlow | hlow
  · rw [if_pos (decide_eq_true hlow), max_eq_right hlow.le, min_eq_left hle]
  · rw [if_neg (by simpa using hlow), max_eq_left hlow]
    rcases lt_or_ge ((1 : ℚ) : K) a with hhigh | hhigh
    · rw [if_pos (decide_eq_true hhigh), min_eq_right hhigh.le]
    · rw [if_neg (by simpa using hhigh), min_eq_left hhigh]

/-- The angles of a unit are finite, and the same in both nodes. -/
theorem quaternionToRpy_eq (h : IsUnit q) :
    T60PolicyNode.quaternionToRpy q = T60ObservationState.quaternionToRpy q ∧
      (T60ObservationState.quaternionToRpy q).allFinite = true := by
  obtain ⟨w, x, y, z, rfl, -⟩ := h
  constructor
  · simp only [T60PolicyNode.quaternionToRpy, T60ObservationState.quaternionToRpy]
    simp only [ofRat_eq (2 : ℚ), finite_mul, finite_sub, clamp_eq_clip]
  · refine allFinite_iff.mpr ⟨isFinite_atan2 ?_ ?_, isFinite_asin_clip ?_, isFinite_atan2 ?_ ?_⟩ <;>
      simp

/-- Finite angles are those of a unit. -/
theorem quaternionFromRpy_eq {rpy : Vec (Extended K)} (h : rpy.allFinite = true) :
    T60PolicyNode.quaternionFromRpy rpy = .ok (T60ObservationState.rpyQuaternion rpy) ∧
      IsUnit (T60ObservationState.rpyQuaternion rpy) := by
  obtain ⟨x, y, z⟩ := rpy
  obtain ⟨hx, hy, hz⟩ := allFinite_iff.mp h
  obtain ⟨a, rfl⟩ := isFinite_iff.mp hx
  obtain ⟨b, rfl⟩ := isFinite_iff.mp hy
  obtain ⟨c, rfl⟩ := isFinite_iff.mp hz
  obtain ⟨sr, cr, hsr, hcr, hr⟩ := sin_cos_finite (a * (1 / 2 : ℚ))
  obtain ⟨sp, cp, hsp, hcp, hp⟩ := sin_cos_finite (b * (1 / 2 : ℚ))
  obtain ⟨sy, cy, hsy, hcy, hy⟩ := sin_cos_finite (c * (1 / 2 : ℚ))
  set raw : Quat (Extended K) := ⟨finite (cr * cp * cy + sr * sp * sy),
    finite (sr * cp * cy - cr * sp * sy), finite (cr * sp * cy + sr * cp * sy),
    finite (cr * cp * sy - sr * sp * cy)⟩ with hraw
  have hunit : IsUnit raw := by
    refine ⟨_, _, _, _, hraw, ?_⟩
    linear_combination (cp * cp + sp * sp) * (cy * cy + sy * sy) * hr +
      (cy * cy + sy * sy) * hp + hy
  have hrpy : T60ObservationState.rpyQuaternion ⟨finite a, finite b, finite c⟩ = raw := by
    simp only [T60ObservationState.rpyQuaternion, ofRat_eq, finite_mul, hsr, hcr, hsp, hcp, hsy,
      hcy, finite_add, finite_sub]
    rw [← hraw, hunit.norm_eq_one, hunit.divide_one]
  rw [hrpy]
  refine ⟨?_, hunit⟩
  rw [← normalized_of_isUnit hunit, hraw]
  simp only [T60PolicyNode.quaternionFromRpy, Extended.mul_comm (ofRat (1 / 2))]
  simp only [ofRat_eq, finite_mul, hsr, hcr, hsp, hcp, hsy, hcy, finite_add, finite_sub]

end Quaternions

/-! ### Frames -/

namespace PolicyInputs

section Lists

variable {α : Type} (inputs : PolicyInputs α)

def orientations : List (Quat α) :=
  [inputs.body.orientation, inputs.imu.orientation, inputs.target.orientation]

/-- The vectors that a frame is made of. -/
def vectors : List (Vec α) :=
  [inputs.body.position, inputs.body.linearVelocity, inputs.imu.angularVelocity,
    inputs.target.position, inputs.target.linearVelocity, inputs.target.angularVelocity,
    inputs.target.linearAcceleration]

variable {inputs}

theorem forall_orientations {P : Quat α → Prop} :
    (∀ q ∈ inputs.orientations, P q) ↔
      P inputs.body.orientation ∧ P inputs.imu.orientation ∧ P inputs.target.orientation := by
  simp [orientations]

theorem forall_vectors {P : Vec α → Prop} :
    (∀ v ∈ inputs.vectors, P v) ↔
      P inputs.body.position ∧ P inputs.body.linearVelocity ∧ P inputs.imu.angularVelocity ∧
        P inputs.target.position ∧ P inputs.target.linearVelocity ∧
        P inputs.target.angularVelocity ∧ P inputs.target.linearAcceleration := by
  simp [vectors]

end Lists

variable {α : Type} [Scalar α] (inputs : PolicyInputs α)

/-- The attitude with the roll and pitch of the IMU and the yaw of the localization. -/
def measuredAttitude : Quat α :=
  let localization := inputs.body.orientation.divide inputs.body.orientation.norm
  let imu := inputs.imu.orientation.divide inputs.imu.orientation.norm
  let localizationRpy := T60ObservationState.quaternionToRpy localization
  let imuRpy := T60ObservationState.quaternionToRpy imu
  T60ObservationState.rpyQuaternion ⟨imuRpy.x, imuRpy.y, localizationRpy.z⟩

def targetAttitude : Quat α := inputs.target.orientation.divide inputs.target.orientation.norm

def rawFrames : List α × List α :=
  T60ObservationState.rawFrames inputs inputs.measuredAttitude inputs.targetAttitude

/-- The scaled current entries. -/
def current : List α := List.zipWith (· / ·) inputs.rawFrames.1 T60ObservationState.obsScale

/-- The frame for the history. -/
def frame : List α := List.zipWith (· / ·) inputs.rawFrames.2 T60ObservationState.historyScale

end PolicyInputs

section Frames

variable {K : Type} [Field K] [LinearOrder K] [IsStrictOrderedRing K] [FloorRing K]
  [MathLibrary K] {inputs : PolicyInputs (Extended K)} {measured target : Quat (Extended K)}

theorem require_eq_ok_iff {c : Bool} {text : String} {u : Unit} :
    T60ObservationState.require c text = .ok u ↔ c = true := by
  rw [T60ObservationState.require]
  cases c <;> simp

theorem length_rawFrames (measured target : Quat (Extended K)) :
    (T60ObservationState.rawFrames inputs measured target).1.length = 30 ∧
      (T60ObservationState.rawFrames inputs measured target).2.length = 21 := by
  simp [T60ObservationState.rawFrames, Vec.toList, Quat.toList]

/-- The checks of the Python node on its way to the frames. -/
theorem buildFrames_eq_ok_iff {r : List (Extended K) × List (Extended K)} :
    T60ObservationState.buildFrames inputs = .ok r ↔
      (inputs.target.valid = true ∧ (∀ v ∈ inputs.vectors, v.allFinite = true) ∧
        ∀ q ∈ inputs.orientations, HasDirection q (1 / 10 ^ 6)) ∧
      r = (inputs.current, inputs.frame) := by
  simp only [T60ObservationState.buildFrames, bind_eq_ok_iff, require_eq_ok_iff,
    unitQuaternion_eq_ok_iff, T60ObservationState.requireVec3, T60ObservationState.requireShape,
    PolicyInputs.forall_vectors, PolicyInputs.forall_orientations]
  constructor
  · rintro ⟨-, hvalid, -, h1, _, ⟨hbody, rfl⟩, _, ⟨himu, rfl⟩, -, h2, -, h3, -, h4, _,
      ⟨htarget, rfl⟩,
      -, h5, -, h6, -, h7, -, -, -, -, hr⟩
    exact ⟨⟨hvalid, ⟨h1, h2, h3, h4, h5, h6, h7⟩, hbody, himu, htarget⟩, (Except.ok.inj hr).symm⟩
  · rintro ⟨⟨hvalid, ⟨h1, h2, h3, h4, h5, h6, h7⟩, hbody, himu, htarget⟩, rfl⟩
    exact ⟨(), hvalid, (), h1, _, ⟨hbody, rfl⟩, _, ⟨himu, rfl⟩, (), h2, (), h3, (), h4, _,
      ⟨htarget, rfl⟩, (), h5, (), h6, (), h7, (), beq_iff_eq.mpr (length_rawFrames _ _).1, (),
      beq_iff_eq.mpr (length_rawFrames _ _).2, rfl⟩

variable (inputs) in
/-- The vectors of the C++ node make the arrays of the Python node. -/
theorem frameVectors_eq (hmeasured : IsUnit measured) (htarget : IsUnit target) :
    ∃ vectors, T60PolicyNode.frameVectors inputs measured target = .ok vectors ∧
      (T60PolicyNode.writeCurrent vectors inputs.command,
          T60PolicyNode.writeHistory vectors inputs.command) =
        T60ObservationState.rawFrames inputs measured target := by
  have hunit := isUnit_multiply (isUnit_conjugate hmeasured) htarget
  rw [T60PolicyNode.frameVectors, normalized_of_isUnit hunit]
  refine ⟨_, rfl, ?_⟩
  rw [writeCurrent_eq, writeHistory_eq, T60ObservationState.rawFrames, quatConjugate_eq hmeasured]
  rfl

/-- The measured attitude is a unit, the same one in both nodes. -/
theorem measuredAttitude_eq {c : ℚ} (hc : 0 < c) (hbody : HasDirection inputs.body.orientation c)
    (himu : HasDirection inputs.imu.orientation c) :
    let localizationRpy := T60PolicyNode.quaternionToRpy
      (inputs.body.orientation.divide inputs.body.orientation.norm)
    let imuRpy := T60PolicyNode.quaternionToRpy
      (inputs.imu.orientation.divide inputs.imu.orientation.norm)
    T60PolicyNode.quaternionFromRpy ⟨imuRpy.x, imuRpy.y, localizationRpy.z⟩ =
        .ok inputs.measuredAttitude ∧ IsUnit inputs.measuredAttitude := by
  obtain ⟨hbodyRpy, hbodyFinite⟩ := quaternionToRpy_eq (hbody.isUnit hc)
  obtain ⟨himuRpy, himuFinite⟩ := quaternionToRpy_eq (himu.isUnit hc)
  rw [hbodyRpy, himuRpy]
  exact quaternionFromRpy_eq (allFinite_iff.mpr ⟨(allFinite_iff.mp himuFinite).1,
    (allFinite_iff.mp himuFinite).2.1, (allFinite_iff.mp hbodyFinite).2.2⟩)

/-- The quaternions are all the C++ node checks, and its arrays are those of the Python node. -/
theorem of_buildFrame {frame : ObservationFrame (Extended K)}
    (h : T60PolicyNode.buildFrame inputs = .ok frame) :
    (∀ q ∈ inputs.orientations, HasDirection q (1 / 10 ^ 9)) ∧ frame.current = inputs.current ∧
      frame.history = inputs.frame := by
  simp only [T60PolicyNode.buildFrame, bind_eq_ok_iff, normalized_eq_ok_iff] at h
  obtain ⟨_, ⟨hbody, rfl⟩, _, ⟨himu, rfl⟩, measured, hmeasured, _, ⟨htarget, rfl⟩, vectors,
    hvectors,
    hframe⟩ := h
  obtain ⟨hattitude, hunit⟩ := measuredAttitude_eq (by norm_num) hbody himu
  obtain rfl := Except.ok.inj (hattitude.symm.trans hmeasured)
  obtain ⟨vectors', hvectors', harrays⟩ := frameVectors_eq inputs hunit
    (htarget.isUnit (by norm_num))
  obtain rfl := Except.ok.inj (hvectors'.symm.trans hvectors)
  obtain ⟨hcurrent, hhistory⟩ := Prod.mk.inj harrays
  obtain rfl := Except.ok.inj hframe
  refine ⟨PolicyInputs.forall_orientations.mpr ⟨hbody, himu, htarget⟩, ?_, ?_⟩
  · dsimp only
    rw [hcurrent, observationScale_eq]
    rfl
  · dsimp only
    rw [hhistory, historyScale_eq]
    rfl

theorem exists_buildFrame (h : ∀ q ∈ inputs.orientations, HasDirection q (1 / 10 ^ 9)) :
    ∃ frame, T60PolicyNode.buildFrame inputs = .ok frame := by
  obtain ⟨hbody, himu, htarget⟩ := PolicyInputs.forall_orientations.mp h
  obtain ⟨hattitude, hunit⟩ := measuredAttitude_eq (by norm_num) hbody himu
  obtain ⟨vectors, hvectors, -⟩ := frameVectors_eq inputs hunit
    (htarget.isUnit (by norm_num))
  simp only [T60PolicyNode.buildFrame, bind_eq_ok_iff, normalized_eq_ok_iff]
  exact ⟨_, _, ⟨hbody, rfl⟩, _, ⟨himu, rfl⟩, _, hattitude, _, ⟨htarget, rfl⟩, vectors, hvectors,
    rfl⟩

/-! ### Finite frames -/

theorem all_toList {v : Vec (Extended K)} : v.toList.all isFinite = v.allFinite := by
  simp [Vec.toList, Vec.allFinite, Vec.all, Bool.and_assoc]

theorem all_toList_quat {q : Quat (Extended K)} : q.toList.all isFinite = q.allFinite := by
  simp [Quat.toList, Quat.allFinite, Bool.and_assoc]

/-- Dividing by scales keeps numbers finite, and only them. -/
theorem all_isFinite_scaled {scale : List ℚ} (hscale : ∀ q ∈ scale, q ≠ 0)
    {l : List (Extended K)} (hlength : l.length = scale.length) :
    (List.zipWith (· / ·) l (scale.map ofRat)).all isFinite = l.all isFinite := by
  induction scale generalizing l with
  | nil => rw [List.length_eq_zero_iff.mp hlength]; rfl
  | cons q scale ih =>
    cases l with
    | nil => cases hlength
    | cons x l =>
      obtain ⟨hq, hscale⟩ := List.forall_mem_cons.mp hscale
      rw [List.map_cons, List.zipWith_cons_cons, List.all_cons, List.all_cons, isFinite_div hq,
        ih hscale (Nat.succ.inj hlength)]

/-- The entries that are not of the command are finite. -/
theorem all_rawFrames (hvectors : ∀ v ∈ inputs.vectors, v.allFinite = true)
    (hmeasured : IsUnit measured) (htarget : IsUnit target) :
    (T60ObservationState.rawFrames inputs measured target).1.all isFinite =
        (List.ofFn inputs.command).all isFinite ∧
      (T60ObservationState.rawFrames inputs measured target).2.all isFinite =
        (List.ofFn inputs.command).all isFinite := by
  obtain ⟨h1, h2, h3, h4, h5, h6, h7⟩ := PolicyInputs.forall_vectors.mp hvectors
  have hbody := isUnit_conjugate hmeasured
  rw [← quatConjugate_eq hmeasured] at hbody
  have hrotate {v : Vec (Extended K)} (hv : v.allFinite = true) :
      (T60ObservationState.quatApply (T60ObservationState.quatConjugate measured) v).allFinite =
        true := allFinite_rotate hbody.allFinite hv
  have hattitude : (T60ObservationState.quatUnique (T60ObservationState.quatMultiply
      (T60ObservationState.quatConjugate measured) target)).allFinite = true :=
    (isUnit_withSign (isUnit_multiply hbody htarget)).allFinite
  simp only [T60ObservationState.rawFrames, List.all_append, all_toList, all_toList_quat,
    hrotate (allFinite_sub h4 h1), hrotate h5, hrotate h6, hrotate h7, hattitude, h3,
    allFinite_sub (hrotate h5) h2, allFinite_sub (hrotate h6) h3, Bool.true_and, and_self]

/-- The inputs of a frame the Python node accepts. -/
def PolicyInputs.Usable (inputs : PolicyInputs (Extended K)) : Prop :=
  (∀ v ∈ inputs.vectors, v.allFinite = true) ∧
    (∀ channel, isFinite (inputs.command channel) = true) ∧
    ∀ q ∈ inputs.orientations, HasDirection q (1 / 10 ^ 6)

/-- A frame of finite numbers. -/
def IsFrame (frame : List (Extended K)) : Prop := frame.length = 21 ∧ frame.all isFinite = true

theorem all_command : (List.ofFn inputs.command).all isFinite = true ↔
    ∀ channel, isFinite (inputs.command channel) = true := by
  rw [List.all_eq_true, List.forall_mem_ofFn_iff]

theorem length_current : inputs.current.length = 30 := by
  rw [PolicyInputs.current, List.length_zipWith]
  rw [PolicyInputs.rawFrames, (length_rawFrames _ _).1]
  rfl

theorem length_frame : inputs.frame.length = 21 := by
  rw [PolicyInputs.frame, List.length_zipWith]
  rw [PolicyInputs.rawFrames, (length_rawFrames _ _).2]
  rfl

theorem isFinite_scaledFrames (hvectors : ∀ v ∈ inputs.vectors, v.allFinite = true)
    (horientations : ∀ q ∈ inputs.orientations, HasDirection q (1 / 10 ^ 6)) :
    inputs.current.all isFinite = (List.ofFn inputs.command).all isFinite ∧
      inputs.frame.all isFinite = (List.ofFn inputs.command).all isFinite := by
  obtain ⟨hbody, himu, htarget⟩ := PolicyInputs.forall_orientations.mp horientations
  obtain ⟨-, hunit⟩ := measuredAttitude_eq (by norm_num) hbody himu
  obtain ⟨hcurrent, hframe⟩ := all_rawFrames hvectors hunit (htarget.isUnit (by norm_num))
  constructor
  · rw [← hcurrent]
    exact all_isFinite_scaled (by simp) (length_rawFrames _ _).1
  · rw [← hframe]
    exact all_isFinite_scaled (by simp) (length_rawFrames _ _).2

theorem PolicyInputs.Usable.isFrame (h : inputs.Usable) : IsFrame inputs.frame :=
  ⟨length_frame, (isFinite_scaledFrames h.1 h.2.2).2.trans (all_command.mpr h.2.1)⟩

end Frames

/-! ### Histories -/

/-- The rows of a history: the frames of the last eight commits, then zeros. -/
def historyRows {α : Type} [Scalar α] (frames : List (List α)) : List (List α) :=
  (frames ++ List.replicate 8 (List.replicate 21 (ofRat 0))).take 8

section Rows

variable {α : Type} {frames : List (List α)}

/-- What is packed of a deque of at most eight frames. -/
theorem packed_rows {zeros : List α} :
    ((List.range 8).flatMap fun i => ((frames.take 8)[i]?).getD zeros) =
      ((frames ++ List.replicate 8 zeros).take 8).flatten := by
  rw [List.flatMap_def]
  congr 1
  refine List.ext_getElem (by simp) fun i hi _ => ?_
  have hlt : i < 8 := by simpa using hi
  rw [List.getElem_map, List.getElem_range, List.getElem_take, List.getElem?_take_of_lt hlt]
  rcases lt_or_ge i frames.length with hlength | hlength
  · rw [List.getElem_append_left hlength, List.getElem?_eq_getElem hlength, Option.getD_some]
  · rw [List.getElem_append_right hlength, List.getElem_replicate,
      List.getElem?_eq_none hlength, Option.getD_none]

theorem history_pushFront {node : T60PolicyNode α} (h : node.history = frames.take 8)
    (frame : List α) : (node.pushFront frame).history = (frame :: frames).take 8 := by
  rw [T60PolicyNode.pushFront, List.take_succ_cons]
  dsimp only
  rw [h, T60PolicyNode.historyFrames, List.length_cons, List.length_take]
  rcases lt_or_ge frames.length 8 with hlt | hge
  · rw [if_neg (by omega), List.take_of_length_le hlt.le, List.take_of_length_le (by omega)]
  · rw [if_pos (by omega), List.dropLast_eq_take, List.length_cons, List.length_take,
      min_eq_left hge, Nat.add_sub_cancel, List.take_succ_cons, List.take_take]
    rfl

variable [Scalar α]

theorem length_historyRows : (historyRows frames).length = 8 := by
  simp [historyRows]

theorem packObservation_eq {node : T60PolicyNode α} (h : node.history = frames.take 8)
    (current : List α) :
    node.packObservation current = current ++ (historyRows frames).flatten := by
  rw [T60PolicyNode.packObservation, h]
  exact congrArg _ packed_rows

theorem historyRows_cons (frame : List α) :
    historyRows (frame :: frames) = frame :: (historyRows frames).dropLast := by
  rw [List.dropLast_eq_take, length_historyRows, historyRows, historyRows, List.cons_append,
    List.take_succ_cons, List.take_take]
  rfl

end Rows

section Histories

variable {K : Type} [Field K] [LinearOrder K] [IsStrictOrderedRing K] [FloorRing K]
  [MathLibrary K] {inputs : PolicyInputs (Extended K)} {frames : List (List (Extended K))}

theorem mem_historyRows (h : ∀ frame ∈ frames, IsFrame frame) :
    ∀ row ∈ historyRows frames, IsFrame row := by
  intro row hrow
  rcases List.mem_append.mp (List.mem_of_mem_take hrow) with hmem | hmem
  · exact h row hmem
  · rw [List.eq_of_mem_replicate hmem]
    exact ⟨List.length_replicate, by simp⟩

theorem length_flatten_historyRows (h : ∀ frame ∈ frames, IsFrame frame) :
    (historyRows frames).flatten.length = 168 := by
  have hlengths : (historyRows frames).map List.length = List.replicate 8 21 := by
    refine List.eq_replicate_iff.mpr ⟨by rw [List.length_map, length_historyRows], ?_⟩
    intro n hn
    obtain ⟨row, hrow, rfl⟩ := List.mem_map.mp hn
    exact (mem_historyRows h row hrow).1
  rw [List.length_flatten, hlengths]
  rfl

theorem all_flatten_historyRows (h : ∀ frame ∈ frames, IsFrame frame) :
    (historyRows frames).flatten.all isFinite = true := by
  rw [List.all_flatten, List.all_eq_true]
  exact fun row hrow => (mem_historyRows h row hrow).2

/-- Whatever the history, the Python node observes usable inputs only. -/
theorem usable_of_build {state : T60ObservationState (Extended K)}
    {r : List (Extended K) × T60ObservationState (Extended K)} (h : state.build inputs = .ok r) :
    inputs.Usable := by
  simp only [T60ObservationState.build, bind_eq_ok_iff, buildFrames_eq_ok_iff,
    require_eq_ok_iff] at h
  obtain ⟨_, ⟨⟨-, hvectors, horientations⟩, rfl⟩, -, -, -, hall, -⟩ := h
  rw [List.all_append, Bool.and_eq_true, (isFinite_scaledFrames hvectors horientations).1] at hall
  exact ⟨hvectors, all_command.mp hall.1, horientations⟩

theorem build_of_usable {state : T60ObservationState (Extended K)}
    (hframes : ∀ frame ∈ frames, IsFrame frame) (hstate : state.history = historyRows frames)
    (hvalid : inputs.target.valid = true) (husable : inputs.Usable) :
    state.build inputs = .ok (inputs.current ++ (historyRows frames).flatten,
      { state with pendingHistoryFrame := some inputs.frame }) := by
  obtain ⟨hvectors, hcommand, horientations⟩ := husable
  simp only [T60ObservationState.build, bind_eq_ok_iff, buildFrames_eq_ok_iff, require_eq_ok_iff,
    T60ObservationState.requireShape, hstate]
  refine ⟨_, ⟨⟨hvalid, hvectors, horientations⟩, rfl⟩, (), ?_, (), ?_, rfl⟩
  · rw [List.length_append, length_current, length_flatten_historyRows hframes]
    rfl
  · rw [List.all_append, (isFinite_scaledFrames hvectors horientations).1,
      all_command.mpr hcommand, all_flatten_historyRows hframes]
    rfl

end Histories

/-! ### Side by side -/

section Machine

variable {α : Type} [Scalar α]

/-- The two nodes on the same ticks. -/
def policyNodes : Machine (T60PolicyNode α × BodyPolicyNode α) (PolicyTick α)
    (PolicyOutput α × PolicyOutput α) where
  init := ({}, ⟨.initial, false⟩)
  step nodes tick :=
    let cpp := nodes.1.tick tick
    let python := nodes.2.tick tick
    some ((cpp.1, python.1), (cpp.2, python.2))

abbrev PolicyHistory (α : Type) :=
  Machine.History (T60PolicyNode α × BodyPolicyNode α) (PolicyTick α)
    (PolicyOutput α × PolicyOutput α)

/-- The frame of a tick whose inference succeeded. -/
def PolicyTick.committed? : PolicyTick α → Option (List α)
  | .missing _ => none
  | .ready inputs inference =>
    if inputs.missing.isEmpty && inference.isOk then
      (T60PolicyNode.buildFrame inputs).toOption.map ObservationFrame.history
    else none

/-- What a tick makes of the committed frames: any other one clears them. -/
def PolicyTick.framesAfter (tick : PolicyTick α) (frames : List (List α)) : List (List α) :=
  match tick.committed? with
  | none => []
  | some frame => frame :: frames

/-- The frames of the ticks since the last one without an inference that succeeded, newest first. -/
def committedFrames : PolicyHistory α → List (List α)
  | [] => []
  | x :: before => x.input.framesAfter (committedFrames before)

/-- The nodes agree at a tick that comes after others: both reject it, or both observe thirty
scaled entries and the eight frames committed last. -/
structure ObservationsAgree
    (x : Machine.Transition (T60PolicyNode α × BodyPolicyNode α) (PolicyTick α)
      (PolicyOutput α × PolicyOutput α)) (before : PolicyHistory α) : Prop where
  same : x.output.1.observation = x.output.2.observation
  packed : ∀ observation, x.output.1.observation = some observation →
    ∃ inputs inference frame, x.input = .ready inputs inference ∧
      T60PolicyNode.buildFrame inputs = .ok frame ∧
      observation = frame.current ++ (historyRows (committedFrames before)).flatten ∧
      frame.current.length = 30 ∧ observation.length = 198

end Machine

section Runs

variable {K : Type} [Field K] [LinearOrder K] [IsStrictOrderedRing K] [FloorRing K]
  [MathLibrary K]

/-- Inputs on which the nodes give the same verdict: something is missing, the values are usable, or
some orientation has no direction even for the C++ node. -/
def PolicyTick.SameVerdict : PolicyTick (Extended K) → Prop
  | .missing _ => True
  | .ready inputs _ => inputs.missing ≠ [] ∨ inputs.Usable ∨
      ∃ q ∈ inputs.orientations, ¬ HasDirection q (1 / 10 ^ 9)

/-- The nodes after the commits of some frames, newest first. -/
structure InStep (nodes : T60PolicyNode (Extended K) × BodyPolicyNode (Extended K))
    (frames : List (List (Extended K))) : Prop where
  cpp : nodes.1.history = frames.take 8
  python : nodes.2.observationState.history = historyRows frames
  unready : nodes.2.lastInputReady = false → frames = []
  isFrame : ∀ frame ∈ frames, IsFrame frame

variable {nodes : T60PolicyNode (Extended K) × BodyPolicyNode (Extended K)}
  {frames : List (List (Extended K))} {inputs : PolicyInputs (Extended K)}
  {inference : Except String Unit}

theorem inStep_cleared : InStep (K := K) ({ history := [] }, ⟨.initial, false⟩) [] :=
  ⟨rfl, rfl, fun _ => rfl, List.forall_mem_nil _⟩

/-- The Python node resets its runner once, and it has nothing to reset after that. -/
theorem InStep.cleared (h : InStep nodes frames) :
    InStep ({ nodes.1 with history := [] }, nodes.2.notReady) [] := by
  refine ⟨rfl, ?_, fun _ => rfl, List.forall_mem_nil _⟩
  rw [BodyPolicyNode.notReady]
  dsimp only
  cases hready : nodes.2.lastInputReady with
  | true => rfl
  | false => rw [if_neg Bool.false_ne_true, h.python, h.unready hready]

theorem valid_of_missing {α : Type} {inputs : PolicyInputs α} (h : inputs.missing = []) :
    inputs.target.valid = true := by
  by_contra hvalid
  simp [PolicyInputs.missing, hvalid] at h

/-- The C++ node rejects what has no direction, and so does the Python node. -/
theorem rejected_of_not_hasDirection (state : T60ObservationState (Extended K))
    {q : Quat (Extended K)}
    (hq : q ∈ inputs.orientations) (hdirection : ¬ HasDirection q (1 / 10 ^ 9)) :
    (∃ text, T60PolicyNode.buildFrame inputs = .error text) ∧
      ∃ text, state.build inputs = .error text := by
  constructor
  · cases hframe : T60PolicyNode.buildFrame inputs with
    | error text => exact ⟨text, rfl⟩
    | ok frame => exact absurd ((of_buildFrame hframe).1 q hq) hdirection
  · cases hbuild : state.build inputs with
    | error text => exact ⟨text, rfl⟩
    | ok r =>
      exact absurd (((usable_of_build hbuild).2.2 q hq).mono (by norm_num)) hdirection

/-- Both nodes observe what is usable. -/
theorem InStep.accepted (h : InStep nodes frames) (hvalid : inputs.target.valid = true)
    (husable : inputs.Usable) :
    (∃ frame, T60PolicyNode.buildFrame inputs = .ok frame ∧ frame.current = inputs.current ∧
        frame.history = inputs.frame) ∧
      nodes.2.observationState.build inputs = .ok
        (inputs.current ++ (historyRows frames).flatten,
          { nodes.2.observationState with pendingHistoryFrame := some inputs.frame }) := by
  obtain ⟨frame, hframe⟩ := exists_buildFrame fun q hq => (husable.2.2 q hq).mono (by norm_num)
  exact ⟨⟨frame, hframe, (of_buildFrame hframe).2⟩,
    build_of_usable h.isFrame h.python hvalid husable⟩

section Ticks

variable {α : Type} [Scalar α] {inputs : PolicyInputs α} {inference : Except String Unit}

theorem T60PolicyNode.tick_of_missing {node : T60PolicyNode α} (h : inputs.missing ≠ []) :
    node.tick (.ready inputs inference) = ({ node with history := [] }, ⟨none, inputs.missing⟩) :=
  if_neg (by simpa using h)

theorem BodyPolicyNode.tick_of_missing {node : BodyPolicyNode α} (h : inputs.missing ≠ []) :
    node.tick (.ready inputs inference) = (node.notReady, ⟨none, inputs.missing⟩) :=
  if_neg (by simpa using h)

theorem PolicyTick.committed?_of_missing (h : inputs.missing ≠ []) :
    (PolicyTick.ready inputs inference).committed? = none :=
  if_neg (by simp [h])

theorem T60PolicyNode.tick_of_ready {node : T60PolicyNode α} (h : inputs.missing = []) :
    node.tick (.ready inputs inference) = node.infer inputs inference :=
  if_pos (by simp [h])

theorem BodyPolicyNode.tick_of_ready {node : BodyPolicyNode α} (h : inputs.missing = []) :
    node.tick (.ready inputs inference) = node.run inputs inference :=
  if_pos (by simp [h])

theorem PolicyTick.committed?_of_ready (h : inputs.missing = []) :
    (PolicyTick.ready inputs inference).committed? =
      if inference.isOk then
        (T60PolicyNode.buildFrame inputs).toOption.map ObservationFrame.history
      else none := by
  rw [PolicyTick.committed?, h, List.isEmpty_nil, Bool.true_and]

end Ticks

/-- The step of inputs none of which is missing. -/
theorem InStep.ready (h : InStep nodes frames) (hmissing : inputs.missing = [])
    (hverdict : inputs.Usable ∨ ∃ q ∈ inputs.orientations, ¬ HasDirection q (1 / 10 ^ 9)) :
    InStep ((nodes.1.tick (.ready inputs inference)).1, (nodes.2.tick (.ready inputs inference)).1)
        ((PolicyTick.ready inputs inference).framesAfter frames) ∧
      (nodes.1.tick (.ready inputs inference)).2.observation =
        (nodes.2.tick (.ready inputs inference)).2.observation ∧
      ∀ observation, (nodes.1.tick (.ready inputs inference)).2.observation = some observation →
        ∃ inputs' inference' frame, PolicyTick.ready inputs inference = .ready inputs' inference' ∧
          T60PolicyNode.buildFrame inputs' = .ok frame ∧
          observation = frame.current ++ (historyRows frames).flatten ∧
          frame.current.length = 30 ∧ observation.length = 198 := by
  rw [T60PolicyNode.tick_of_ready hmissing, BodyPolicyNode.tick_of_ready hmissing,
    PolicyTick.framesAfter, PolicyTick.committed?_of_ready hmissing, T60PolicyNode.infer,
    BodyPolicyNode.run]
  rcases hverdict with husable | ⟨q, hq, hdirection⟩
  · obtain ⟨⟨frame, hframe, hcurrent, hhistory⟩, hbuild⟩ :=
      h.accepted (valid_of_missing hmissing) husable
    have hobservation : nodes.1.packObservation frame.current =
        frame.current ++ (historyRows frames).flatten := packObservation_eq h.cpp _
    have hlength : (frame.current ++ (historyRows frames).flatten).length = 198 := by
      rw [hcurrent, List.length_append, length_current, length_flatten_historyRows h.isFrame]
    have hpacked (observation : List (Extended K))
        (h : some (nodes.1.packObservation frame.current) = some observation) :
        ∃ inputs' inference' frame, PolicyTick.ready inputs inference = .ready inputs' inference' ∧
          T60PolicyNode.buildFrame inputs' = .ok frame ∧
          observation = frame.current ++ (historyRows frames).flatten ∧
          frame.current.length = 30 ∧ observation.length = 198 := by
      obtain rfl := (Option.some.inj h).symm.trans hobservation
      exact ⟨inputs, inference, frame, rfl, hframe, rfl, hcurrent ▸ length_current, hlength⟩
    rw [hframe, hbuild, ← hcurrent, ← hobservation]
    cases inference with
    | error text => exact ⟨inStep_cleared, rfl, hpacked⟩
    | ok _ =>
      refine ⟨⟨history_pushFront h.cpp _, ?_, nofun, ?_⟩, rfl, hpacked⟩
      · change inputs.frame :: nodes.2.observationState.history.dropLast =
          historyRows (frame.history :: frames)
        rw [historyRows_cons, hhistory, h.python]
      · exact List.forall_mem_cons.mpr ⟨hhistory ▸ husable.isFrame, h.isFrame⟩
  · obtain ⟨⟨_, hframe⟩, _, hbuild⟩ := rejected_of_not_hasDirection nodes.2.observationState hq
      hdirection
    rw [hframe, hbuild]
    cases inference <;> exact ⟨inStep_cleared, rfl, nofun⟩

/-- A tick with the same verdict keeps the nodes in step, with the same observation. -/
theorem InStep.tick (h : InStep nodes frames) {tick : PolicyTick (Extended K)}
    (hverdict : tick.SameVerdict) :
    InStep ((nodes.1.tick tick).1, (nodes.2.tick tick).1) (tick.framesAfter frames) ∧
      (nodes.1.tick tick).2.observation = (nodes.2.tick tick).2.observation ∧
      ∀ observation, (nodes.1.tick tick).2.observation = some observation →
        ∃ inputs inference frame, tick = .ready inputs inference ∧
          T60PolicyNode.buildFrame inputs = .ok frame ∧
          observation = frame.current ++ (historyRows frames).flatten ∧
          frame.current.length = 30 ∧ observation.length = 198 := by
  cases tick with
  | missing names => exact ⟨h.cleared, rfl, nofun⟩
  | ready inputs inference =>
    by_cases hmissing : inputs.missing = []
    · exact h.ready hmissing (hverdict.resolve_left (not_not.mpr hmissing))
    · rw [T60PolicyNode.tick_of_missing hmissing, BodyPolicyNode.tick_of_missing hmissing,
        PolicyTick.framesAfter,
        PolicyTick.committed?_of_missing hmissing]
      exact ⟨h.cleared, rfl, nofun⟩

variable {h : PolicyHistory (Extended K)}
  {s : T60PolicyNode (Extended K) × BodyPolicyNode (Extended K)}

theorem step_policyNodes {x : Machine.Transition (T60PolicyNode (Extended K) ×
      BodyPolicyNode (Extended K)) (PolicyTick (Extended K))
      (PolicyOutput (Extended K) × PolicyOutput (Extended K))}
    (hx : policyNodes.step x.pre x.input = some (x.post, x.output)) :
    x.post = ((x.pre.1.tick x.input).1, (x.pre.2.tick x.input).1) ∧
      x.output = ((x.pre.1.tick x.input).2, (x.pre.2.tick x.input).2) := by
  obtain ⟨hpost, houtput⟩ := Prod.mk.inj (Option.some.inj hx)
  exact ⟨hpost.symm, houtput.symm⟩

/-- Ticks with the same verdict keep the nodes in step. -/
theorem inStep_of_run (hrun : policyNodes.Run h s)
    (hverdict : ∀ x ∈ h, x.input.SameVerdict) : InStep s (committedFrames h) := by
  refine hrun.invariant_of (C := fun x => x.input.SameVerdict)
    (I := fun h s => InStep s (committedFrames h)) inStep_cleared ?_ hverdict
  intro _ s i s' o _ hinv hstep hC
  obtain ⟨hpost, -⟩ := Prod.mk.inj (Option.some.inj hstep)
  rw [← hpost]
  exact (hinv.tick hC).1

/-- The same observation, or none, has the same verdict. -/
theorem sameVerdict_of_same {tick : PolicyTick (Extended K)}
    (hsame : (nodes.1.tick tick).2.observation = (nodes.2.tick tick).2.observation) :
    tick.SameVerdict := by
  cases tick with
  | missing names => trivial
  | ready inputs inference =>
    refine or_iff_not_imp_left.mpr fun hmissing => ?_
    rw [not_not] at hmissing
    rw [T60PolicyNode.tick_of_ready hmissing, BodyPolicyNode.tick_of_ready hmissing,
      T60PolicyNode.infer, BodyPolicyNode.run] at hsame
    by_contra hverdict
    rw [not_or, not_exists] at hverdict
    obtain ⟨hunusable, hdirection⟩ := hverdict
    have hdirections (q) (hq : q ∈ inputs.orientations) : HasDirection q (1 / 10 ^ 9) :=
      not_not.mp fun h => hdirection q ⟨hq, h⟩
    obtain ⟨frame, hframe⟩ := exists_buildFrame hdirections
    cases hbuild : nodes.2.observationState.build inputs with
    | ok r => exact hunusable (usable_of_build hbuild)
    | error text =>
      rw [hframe, hbuild] at hsame
      cases inference <;> cases hsame

/-- **The two policy nodes agree exactly on the ticks on which they give the same verdict.** -/
theorem observationsAgree_iff (hrun : policyNodes.Run h s) :
    (∀ after x before, h = after ++ x :: before → ObservationsAgree x before) ↔
      ∀ x ∈ h, x.input.SameVerdict := by
  constructor
  · intro hagree x hx
    obtain ⟨after, before, rfl⟩ := List.append_of_mem hx
    have hsame := (hagree after x before rfl).same
    rw [(step_policyNodes (hrun.step_of_mem hx)).2] at hsame
    exact sameVerdict_of_same hsame
  · rintro hverdict after x before rfl
    have hbefore : InStep x.pre (committedFrames before) :=
      inStep_of_run hrun.split.tail fun y hy => hverdict y (by simp [hy])
    obtain ⟨-, hsame, hpacked⟩ := hbefore.tick (hverdict x (by simp))
    have houtput := (step_policyNodes hrun.split.head_step).2
    constructor
    · rw [houtput]
      exact hsame
    · rw [houtput]
      exact hpacked

end Runs

/-! ### Inputs at rest -/

section Resting

/-- Inputs at rest, but for the position of the body. -/
noncomputable def restingInputs (position : Vec (Extended ℝ)) : PolicyInputs (Extended ℝ) where
  body := ⟨true, false, true, position, Quat.identity, Vec.zero⟩
  imu := ⟨Quat.identity, Vec.zero⟩
  command _ := finite 0
  target := ⟨true, Vec.zero, Quat.identity, Vec.zero, Vec.zero, Vec.zero⟩

/-- The transition of the first tick, with an inference that succeeds. -/
noncomputable def firstTick (position : Vec (Extended ℝ)) :
    Machine.Transition (T60PolicyNode (Extended ℝ) × BodyPolicyNode (Extended ℝ))
      (PolicyTick (Extended ℝ)) (PolicyOutput (Extended ℝ) × PolicyOutput (Extended ℝ)) :=
  let tick := PolicyTick.ready (restingInputs position) (.ok ())
  let nodes : T60PolicyNode (Extended ℝ) × BodyPolicyNode (Extended ℝ) := policyNodes.init
  ⟨nodes, tick, ((nodes.1.tick tick).2, (nodes.2.tick tick).2),
    ((nodes.1.tick tick).1, (nodes.2.tick tick).1)⟩

theorem run_firstTick (position : Vec (Extended ℝ)) :
    policyNodes.Run [firstTick position] (firstTick position).post :=
  .step .start rfl

theorem hasDirection_identity {tolerance : ℚ} (h : tolerance ≤ 1) :
    HasDirection (Quat.identity : Quat (Extended ℝ)) tolerance := by
  have hunit : IsUnit (Quat.identity : Quat (Extended ℝ)) :=
    ⟨(1 : ℚ), (0 : ℚ), (0 : ℚ), (0 : ℚ), rfl, by norm_num⟩
  refine ⟨hunit.allFinite, ?_⟩
  rw [hunit.norm_eq_one, ofRat_eq, lt_finite, decide_eq_false_iff_not, not_lt]
  exact_mod_cast h

theorem orientations_restingInputs (position : Vec (Extended ℝ)) :
    ∀ q ∈ (restingInputs position).orientations, q = Quat.identity :=
  PolicyInputs.forall_orientations.mpr ⟨rfl, rfl, rfl⟩

theorem usable_restingInputs {position : Vec (Extended ℝ)} (h : position.allFinite = true) :
    (restingInputs position).Usable := by
  refine ⟨PolicyInputs.forall_vectors.mpr ⟨h, rfl, rfl, rfl, rfl, rfl, rfl⟩, fun _ => rfl, ?_⟩
  intro q hq
  rw [orientations_restingInputs position q hq]
  exact hasDirection_identity (by norm_num)

theorem observationsAgree_resting : ObservationsAgree (firstTick Vec.zero) [] :=
  (observationsAgree_iff (run_firstTick Vec.zero)).mpr
    (List.forall_mem_singleton.mpr (Or.inr (Or.inl (usable_restingInputs rfl)))) [] _ [] rfl

/-- At a position that is not a number the C++ node has an observation and the Python node none. -/
theorem observations_differ_nan :
    ¬ ∀ (h : PolicyHistory (Extended ℝ)) s, policyNodes.Run h s →
      ∀ after x before, h = after ++ x :: before → ObservationsAgree x before := by
  intro hagree
  have hsame := (hagree _ _ (run_firstTick ⟨nan, finite 0, finite 0⟩) [] _ [] rfl).same
  rcases sameVerdict_of_same hsame with hmissing | husable | ⟨q, hq, hdirection⟩
  · exact hmissing rfl
  · exact Bool.false_ne_true (PolicyInputs.forall_vectors.mp husable.1).1
  · rw [orientations_restingInputs _ q hq] at hdirection
    exact hdirection (hasDirection_identity (by norm_num))

end Resting

end RobotCore
