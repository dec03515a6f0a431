import RobotCore.HostManager.AprilTag
import RobotCore.Lib.Ieee.Numeric
import RobotCore.Lib.Numeral

/-!
# The map the localizer reads

`parse_apriltag_map` with the ids, the ranges and the check of a Tag against the surfaces of the
pool.  Only an object with an object under `tags` is a document here; any other root is refused.
What Eigen and the mathematical library compute is a parameter, and a number of the document is the
double nearest to it.
-/

namespace RobotCore

open Ieee Std

attribute [local instance] Numeral.neZero_three

/-! ### Geometry -/

/-- `Eigen::Vector3d` -/
structure Vec3 where
  x : Binary64
  y : Binary64
  z : Binary64
  deriving DecidableEq

namespace Vec3

def add (u v : Vec3) : Vec3 := ⟨u.x + v.x, u.y + v.y, u.z + v.z⟩

def neg (v : Vec3) : Vec3 := ⟨-v.x, -v.y, -v.z⟩

def map (v : Vec3) (f : Binary64 → Binary64) : Vec3 := ⟨f v.x, f v.y, f v.z⟩

def allFinite (v : Vec3) : Bool := v.x.isFinite && v.y.isFinite && v.z.isFinite

/-- `v[axis]` -/
def get (v : Vec3) (axis : Fin 3) : Binary64 :=
  match axis with
  | 0 => v.x
  | 1 => v.y
  | 2 => v.z

def one : Binary64 := Number.ofRat binary64 1

def unitX : Vec3 := ⟨one, 0, 0⟩

def unitY : Vec3 := ⟨0, one, 0⟩

def unitZ : Vec3 := ⟨0, 0, one⟩

end Vec3

/-- The rows of an `Eigen::Matrix3d`. -/
structure Mat3 where
  row0 : Vec3
  row1 : Vec3
  row2 : Vec3

/-- The products of Eigen, `fixed_axis_rpy_rotation` and `std::cos`. -/
structure TagMath where
  rotation : Vec3 → Mat3
  dot : Vec3 → Vec3 → Binary64
  cos : Binary64 → Binary64

/-- `rotation * v` -/
def TagMath.mul (math : TagMath) (rotation : Mat3) (v : Vec3) : Vec3 :=
  ⟨math.dot rotation.row0 v, math.dot rotation.row1 v, math.dot rotation.row2 v⟩

/-- `std::acos(-1.0)` -/
def piValue : Binary64 := Number.ofRat binary64 (884279719003555 / 281474976710656)

structure CuboidPoolGeometry where
  enforce : Bool
  lengthM : Binary64
  widthM : Binary64
  surfaceToleranceM : Binary64
  orientationToleranceRad : Binary64

/-- A floor or a wall that the center of a Tag may lie on. -/
structure Surface where
  axis : Fin 3
  coordinate : Binary64
  inwardNormal : Vec3
  wall : Bool

namespace CuboidPoolGeometry

variable (pool : CuboidPoolGeometry)

def isValid : Bool :=
  pool.lengthM.isFinite && pool.widthM.isFinite && pool.surfaceToleranceM.isFinite &&
    pool.orientationToleranceRad.isFinite && !pool.lengthM.le 0 && !pool.widthM.le 0 &&
    !pool.surfaceToleranceM.lt 0 && !pool.orientationToleranceRad.lt 0 &&
    !piValue.lt pool.orientationToleranceRad

/-- The floor and the four walls, in the order they are tried. -/
def surfaces : List Surface :=
  [⟨2, 0, .unitZ, false⟩, ⟨0, 0, .unitX, true⟩, ⟨0, pool.lengthM, Vec3.unitX.neg, true⟩,
    ⟨1, 0, .unitY, true⟩, ⟨1, pool.widthM, Vec3.unitY.neg, true⟩]

/-- The coordinate of a point is that of the surface. -/
def touches (surface : Surface) (point : Vec3) : Bool :=
  (point.get surface.axis - surface.coordinate).abs.le pool.surfaceToleranceM

def candidates (center : Vec3) : List Surface :=
  pool.surfaces.filter fun surface => pool.touches surface center

def cornerValid (surface : Surface) (corner : Vec3) : Bool :=
  let tolerance := pool.surfaceToleranceM
  corner.allFinite && (-tolerance).le corner.x && corner.x.le (pool.lengthM + tolerance) &&
    (-tolerance).le corner.y && corner.y.le (pool.widthM + tolerance) &&
    (-tolerance).le corner.z && pool.touches surface corner

variable (math : TagMath)

def surfaceAccepts (rotation : Mat3) (corners : List Vec3) (surface : Surface) : Bool :=
  let printedTop := math.mul rotation .unitY
  let faceNormal := math.mul rotation .unitZ
  let minimumAlignment := math.cos pool.orientationToleranceRad
  !(math.dot faceNormal surface.inwardNormal).lt minimumAlignment &&
    !(surface.wall && (math.dot printedTop .unitZ).lt minimumAlignment) &&
    corners.all (pool.cornerValid surface)

end CuboidPoolGeometry

/-! ### Errors -/

inductive MapError where
  | runtime (message : String)
  /-- thrown by `nlohmann::json` -/
  | json
  /-- thrown by `std::stoul` -/
  | outOfRange
  deriving DecidableEq

/-! ### Numbers of the document -/

/-- `get<double>()` -/
def getDouble : Json → Except MapError Binary64
  | .int value =>
    let x := Number.ofRat binary64 value
    if x.isFinite then .ok x else .error .json
  | .float value => .ok value
  | _ => .error .json

/-- `get<std::vector<double>>()` -/
def getDoubles : Json → Except MapError (List Binary64)
  | .array values => values.mapM getDouble
  | _ => .error .json

/-- `at(key)` -/
def atMember (members : List (String × Json)) (key : String) : Except MapError Json :=
  match members.lookup key with
  | some value => .ok value
  | none => .error .json

/-- `is_number_integer()` and `get<int>() == 1`; the conversion to `int` wraps. -/
def isSchemaVersionOne : Json → Bool
  | .int value => decide (-2 ^ 63 ≤ value ∧ value < 2 ^ 64 ∧ value % 2 ^ 32 = 1)
  | _ => false

/-! ### Definitions -/

/-- `canonical_tag_id` -/
def canonicalTagId (rawId : String) : Except MapError ℕ :=
  let refusal := MapError.runtime ("tag id must be a canonical unsigned integer: " ++ rawId)
  if rawId.toList.isEmpty || !rawId.toList.all Char.isDigit then .error refusal
  else
    let parsed := Nat.ofDigitChars 10 rawId.toList 0
    if 2 ^ 64 ≤ parsed then .error .outOfRange
    else if 65535 < parsed ∨ toString parsed ≠ rawId then .error refusal
    else .ok parsed

structure TagDefinition where
  corners : List Vec3
  size : Binary64
  deriving DecidableEq

/-- `validate_tag_on_pool` -/
def validateTagOnPool (math : TagMath) (pool : CuboidPoolGeometry) (id : ℕ) (center : Vec3)
    (rotation : Mat3) (corners : List Vec3) : Except MapError Unit :=
  if !pool.enforce then .ok ()
  else if !pool.isValid then .error (.runtime "invalid cuboid pool geometry parameters")
  else if (pool.candidates center).any (pool.surfaceAccepts math rotation corners) then .ok ()
  else
    .error (.runtime ("tag " ++ toString id ++
      " is not on a pool surface with inward normal, upright wall axes, and in-bounds corners"))

/-- What a definition of the document says, with its ranges. -/
def readPlacement (key : String) : Json → Except MapError TagPlacement
  | .object members =>
    if (members.lookup "size_m").isNone then
      .error (.runtime ("tag " ++ key ++ " requires an explicit measured size_m"))
    else do
      let positionM ← getDoubles (← atMember members "position_m")
      let rpyDeg ← getDoubles (← atMember members "rpy_deg")
      let sizeM ← getDouble (← atMember members "size_m")
      if positionM.length ≠ 3 || rpyDeg.length ≠ 3 || !sizeM.isFinite ||
          sizeM.lt (Number.ofRat binary64 (1 / 100)) || (Number.ofRat binary64 2).lt sizeM then
        .error (.runtime ("invalid tag definition " ++ key))
      else .ok { positionM, rpyDeg, sizeM }
  | _ => .error (.runtime ("tag " ++ key ++ " requires an explicit measured size_m"))

/-- The three values of a list. -/
def toVec3 : List Binary64 → Vec3
  | [x, y, z] => ⟨x, y, z⟩
  | _ => ⟨0, 0, 0⟩

def TagPlacement.center (placement : TagPlacement) : Vec3 := toVec3 placement.positionM

/-- In radians. -/
def TagPlacement.rpy (placement : TagPlacement) : Vec3 :=
  (toVec3 placement.rpyDeg).map fun value =>
    (value * piValue).divide (Number.ofRat binary64 180)

def TagPlacement.inRange (placement : TagPlacement) : Bool :=
  placement.center.allFinite && placement.rpy.allFinite &&
    (placement.positionM.all fun value => value.abs.le (Number.ofRat binary64 100)) &&
    placement.rpyDeg.all fun value => value.abs.le (Number.ofRat binary64 360)

/-- The corners of a Tag in the map. -/
def TagPlacement.corners (math : TagMath) (placement : TagPlacement) : List Vec3 :=
  let half := Number.ofRat binary64 (1 / 2) * placement.sizeM
  let local_ : List Vec3 := [⟨-half, half, 0⟩, ⟨half, half, 0⟩, ⟨half, -half, 0⟩, ⟨-half, -half, 0⟩]
  local_.map fun corner => (math.mul (math.rotation placement.rpy) corner).add placement.center

def TagPlacement.definition (math : TagMath) (placement : TagPlacement) : TagDefinition where
  corners := placement.corners math
  size := placement.sizeM

/-! ### The document -/

section Parse

variable (math : TagMath) (pool : CuboidPoolGeometry)

/-- One round of the loop of `parse_apriltag_map`, without the result. -/
def parseTag (key : String) (value : Json) : Except MapError (ℕ × TagDefinition) := do
  let id ← canonicalTagId key
  let placement ← readPlacement key value
  if !placement.inRange then
    .error (.runtime ("out-of-range or non-finite tag definition " ++ key))
  else
    validateTagOnPool math pool id placement.center (math.rotation placement.rpy)
      (placement.corners math)
    return (id, placement.definition math)

abbrev TagMap := ExtTreeMap ℕ TagDefinition

/-- The loop of `parse_apriltag_map`. -/
def parseTags (result : TagMap) : List (String × Json) → Except MapError TagMap
  | [] => .ok result
  | (key, value) :: rest => do
    let (id, definition) ← parseTag math pool key value
    if id ∈ result then .error (.runtime ("duplicate numeric tag id " ++ toString id))
    else parseTags (result.insert id definition) rest

/-- `parse_apriltag_map` -/
def parseAprilTagMap (expectedFrame : String) (document : MapDocument) : Except MapError TagMap :=
  if !isSchemaVersionOne (getMember document.members "schema_version") then
    .error (.runtime "tag map schema_version must be integer 1")
  else
    match getMember document.members "frame" with
    | .string frame =>
      if frame ≠ expectedFrame then .error (.runtime ("tag map frame must match " ++ expectedFrame))
      else parseTags math pool ∅ document.tags.toList
    | _ => .error (.runtime ("tag map frame must match " ++ expectedFrame))

end Parse

end RobotCore
