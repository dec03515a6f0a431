import Mathlib.Data.List.Sort
import RobotCore.Fusion.Rotation
import RobotCore.Lib.Numeral

/-!
# Consistent clusters of poses

`normalized_pose_distance` and `tightest_consistent_pose_cluster` of `geometry.hpp` in exact
arithmetic.  The cluster is found from the distances between the indices of the poses.
-/

namespace RobotCore

/-! ### One seed -/

section Seed

variable {K : Type} [LinearOrder K] (distance : ℕ → ℕ → K) (limit : K)

/-- The comparison of `std::sort`: the nearer pose first, of equally near ones the newer. -/
def ranksBefore (seed left right : ℕ) : Bool :=
  if distance seed left ≠ distance seed right then distance seed left < distance seed right
  else right < left

/-- `ranked`, sorted by its one order. -/
def rankedIndices (count seed : ℕ) : List ℕ :=
  ((List.range count).filter fun index => distance seed index ≤ limit).insertionSort
    fun left right => (!ranksBefore distance seed right left) = true

/-- The loop over the ranked poses, which ends when the cluster is full. -/
def growCluster (maximumCount : ℕ) (cluster : List ℕ) : List ℕ → List ℕ
  | [] => cluster
  | index :: ranked =>
    let mutuallyConsistent := cluster.all fun selected => distance selected index ≤ limit
    if !mutuallyConsistent then growCluster maximumCount cluster ranked
    else
      let cluster := cluster ++ [index]
      if cluster.length = maximumCount then cluster else growCluster maximumCount cluster ranked

/-- `cluster` -/
def seedCluster (count maximumCount seed : ℕ) : List ℕ :=
  growCluster distance limit maximumCount [] (rankedIndices distance limit count seed)

end Seed

/-! ### The best cluster -/

noncomputable section

attribute [local instance] Numeral.atLeastTwo_ten

/-- `best`, `best_spread` and `best_newest_index`; before the first seed the spread is infinite. -/
structure BestCluster where
  indices : List ℕ := []
  spread : WithTop ℝ := ⊤
  newestIndex : ℕ := 0

variable (distance : ℕ → ℕ → ℝ)

/-- The sum of the distances of all pairs. -/
def clusterSpread : List ℕ → ℝ
  | [] => 0
  | left :: cluster => (cluster.map (distance left)).sum + clusterSpread cluster

def newestIndex (cluster : List ℕ) : ℕ := cluster.foldl max 0

open Classical in
/-- The comparisons of `better`, with the tolerance on the side where it is added. -/
def isBetter (best : BestCluster) (cluster : List ℕ) : Bool :=
  let spread : WithTop ℝ := (clusterSpread distance cluster : ℝ)
  let tolerance : WithTop ℝ := (1 / 10 ^ 12 : ℝ)
  decide (best.indices.length < cluster.length) ||
    (decide (cluster.length = best.indices.length) && decide (spread + tolerance < best.spread)) ||
    (decide (cluster.length = best.indices.length) &&
      decide (spread ≤ best.spread + tolerance ∧ best.spread ≤ spread + tolerance) &&
      decide (best.newestIndex < newestIndex cluster))

/-- One seed of the loop. -/
def tryCluster (best : BestCluster) (cluster : List ℕ) : BestCluster :=
  if isBetter distance best cluster then
    ⟨cluster, (clusterSpread distance cluster : ℝ), newestIndex cluster⟩
  else best

/-- The loop over the seeds, the newest first. -/
def bestCluster (count maximumCount : ℕ) : BestCluster :=
  (List.range count).reverse.foldl
    (fun best seed => tryCluster distance best (seedCluster distance 1 count maximumCount seed)) {}

/-! ### Poses -/

/-- `normalized_pose_distance` of positive tolerances. -/
def normalizedPoseDistance (first second : Isometry3d)
    (translationToleranceM rotationToleranceRad : ℝ) : ℝ :=
  max (norm3 (first.translation - second.translation) / translationToleranceM)
    (rotationDistance first.linear second.linear / rotationToleranceRad)

/-- The identity, which stands for the poses past the end of the list. -/
def identityPose : Isometry3d := poseTransform 0 1

/-- The distances between the poses of a list. -/
def poseDistance (poses : List Isometry3d) (translationToleranceM rotationToleranceRad : ℝ)
    (i j : ℕ) : ℝ :=
  normalizedPoseDistance (poses.getD i identityPose) (poses.getD j identityPose)
    translationToleranceM rotationToleranceRad

open Classical in
/-- `tightest_consistent_pose_cluster` -/
def tightestConsistentPoseCluster (poses : List Isometry3d) (maximumCount : ℕ)
    (translationToleranceM rotationToleranceRad : ℝ) : List ℕ :=
  if maximumCount = 0 ∨ poses = [] ∨ translationToleranceM ≤ 0 ∨ rotationToleranceRad ≤ 0 then []
  else
    let distance := poseDistance poses translationToleranceM rotationToleranceRad
    (bestCluster distance poses.length maximumCount).indices.insertionSort (· ≤ ·)

end

end RobotCore
