import Mathlib.Analysis.Real.Sqrt
import Mathlib.Order.WithBot
import RobotCore.Lib.Quadrilateral
import RobotCore.Lib.Numeral

/-!
# The image quality of a Tag

`assess_tag_image_quality` in exact arithmetic: a real number is finite, so the checks for finite
numbers pass.  The loop over the four corners is a scan which stops at the first corner that is
refused.
-/

namespace RobotCore

open Quadrilateral

attribute [local instance] Numeral.neZero_four Numeral.atLeastTwo_two

noncomputable section

structure TagImageQuality where
  accepted : Bool := false
  score : ℝ := 0
  minimumEdgePx : ℝ := 0
  areaPx2 : ℝ := 0

/-- `(next - current).norm()` -/
def edgeLength (corners : Fin 4 → Point ℝ) (i : Fin 4) : ℝ :=
  √(((corners (i + 1)).1 - (corners i).1) ^ 2 + ((corners (i + 1)).2 - (corners i).2) ^ 2)

/-- The variables of the loop; the shortest edge is infinite before the first corner. -/
structure CornerScan where
  shortest : WithTop ℝ := ⊤
  longest : ℝ := 0
  signedTwiceArea : ℝ := 0
  windingSign : ℝ := 0

/-- `std::copysign(1.0, x)` of a number which is not zero. -/
def copysignOfNonzero (x : ℝ) : ℝ := if x < 0 then -1 else 1

/-- One corner of the loop; `none` is the early return. -/
def scanCorner (corners : Fin 4 → Point ℝ) (imageWidth imageHeight : ℕ) (scan : CornerScan)
    (index : Fin 4) : Option CornerScan :=
  let previous := corners (index - 1)
  let current := corners index
  let next := corners (index + 1)
  if current.1 < 0 ∨ current.2 < 0 ∨ imageWidth ≤ current.1 ∨ imageHeight ≤ current.2 then none
  else
    let edge := edgeLength corners index
    let incoming := current - previous
    let outgoing := next - current
    let cross := incoming.1 * outgoing.2 - incoming.2 * outgoing.1
    let sign := copysignOfNonzero cross
    if |cross| < 1e-6 then none
    else if scan.windingSign ≠ 0 ∧ sign ≠ scan.windingSign then none
    else some
      { shortest := min scan.shortest edge
        longest := max scan.longest edge
        signedTwiceArea := scan.signedTwiceArea + (current.1 * next.2 - current.2 * next.1)
        windingSign := sign }

def scanCorners (corners : Fin 4 → Point ℝ) (imageWidth imageHeight : ℕ) : Option CornerScan :=
  (List.finRange 4).foldlM (scanCorner corners imageWidth imageHeight) {}

/-- What follows the loop. -/
def CornerScan.quality (scan : CornerScan) (minimumEdgePx maximumEdgeRatio : ℝ) :
    TagImageQuality :=
  let area := 1 / 2 * |scan.signedTwiceArea|
  match scan.shortest with
  | ⊤ => {}
  | (shortest : ℝ) =>
    if shortest < minimumEdgePx ∨ maximumEdgeRatio < scan.longest / shortest ∨
        area < 1 / 2 * minimumEdgePx * minimumEdgePx then {}
    else
      { accepted := true
        minimumEdgePx := shortest
        areaPx2 := area
        score := √area * shortest / scan.longest }

def assessTagImageQuality (corners : Fin 4 → Point ℝ) (imageWidth imageHeight : ℕ)
    (minimumEdgePx maximumEdgeRatio : ℝ) : TagImageQuality :=
  if imageWidth = 0 ∨ imageHeight = 0 ∨ minimumEdgePx ≤ 0 ∨ maximumEdgeRatio < 1 then {}
  else
    match scanCorners corners imageWidth imageHeight with
    | none => {}
    | some scan => scan.quality minimumEdgePx maximumEdgeRatio

end

end RobotCore
