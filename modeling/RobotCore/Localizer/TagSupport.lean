import Mathlib.Algebra.Group.Int.Defs
import Mathlib.Algebra.Group.Nat.Defs

/-!
# The Tags that the inliers support

`independently_supported_tag_indices`: the points of a Tag are numbered one after the other, and a
Tag is supported by its distinct points among the inliers.  The numbers are those of `int`, whose
increment past the largest one is undefined, and of `std::size_t`.
-/

namespace RobotCore

/-- The largest `int`. -/
def intMax : ℤ := 2 ^ 31 - 1

/-- `point_seen` and `inlier_counts` -/
structure InlierTables where
  pointSeen : List Bool
  inlierCounts : List ℤ
  deriving DecidableEq

/-- One inlier of the loop; `none` where the behaviour is undefined. -/
def countInlier (pointsPerTag pointCount : ℕ) (tables : InlierTables) (rawIndex : ℤ) :
    Option InlierTables :=
  if rawIndex < 0 then some tables
  else
    let pointIndex := rawIndex.toNat
    if pointCount ≤ pointIndex || tables.pointSeen.getD pointIndex false then some tables
    else
      let tagIndex := pointIndex / pointsPerTag
      if tables.inlierCounts.getD tagIndex 0 = intMax then none
      else some
        { pointSeen := tables.pointSeen.set pointIndex true
          inlierCounts := tables.inlierCounts.modify tagIndex (· + 1) }

/-- `independently_supported_tag_indices` -/
def independentlySupportedTagIndices (inlierPointIndices : List ℤ) (tagCount pointsPerTag : ℕ)
    (minimumInlierPointsPerTag : ℤ) : Option (List ℕ) :=
  if tagCount = 0 || pointsPerTag = 0 || minimumInlierPointsPerTag ≤ 0 then some []
  else
    let pointCount := tagCount * pointsPerTag % 2 ^ 64
    let tables : InlierTables :=
      { pointSeen := List.replicate pointCount false, inlierCounts := List.replicate tagCount 0 }
    (inlierPointIndices.foldlM (countInlier pointsPerTag pointCount) tables).map fun tables =>
      (List.range tagCount).filter fun tagIndex =>
        minimumInlierPointsPerTag ≤ tables.inlierCounts.getD tagIndex 0

end RobotCore
