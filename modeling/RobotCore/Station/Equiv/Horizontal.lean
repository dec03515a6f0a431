import RobotCore.Station.Equiv.Node

/-!
# The horizontal efforts and what is reported of them

In every run the three horizontal efforts enter the mixer within the command limit, those that the
fast station mode limits in their rate included, since a new limit or another mode drops them
(`StationNode.Inv`).  The clips of the mixer therefore change nothing, and its outputs are the mix
of the efforts that are reported as applied (`horizontal_bounded_of_run`).
-/

namespace RobotCore.Exact

open Clip Machine

variable {K : Type} [Field K] [LinearOrder K] [IsStrictOrderedRing K]

/-- What holds of the horizontal efforts of a tick, with its limit `limit`. -/
structure HorizontalBounds (limit : K) (input : StationInput K) (efforts : StationNode.Efforts K)
    (node node' : StationNode K) : Prop where
  surge_le : |efforts.horizontal.surgeEffort| ≤ limit
  sway_le : |efforts.horizontal.swayEffort| ≤ limit
  yaw_le : |efforts.horizontal.yawEffort| ≤ limit
  /-- The efforts that last are among them. -/
  sway_lasts : input.controlMode = .stationHoldFast →
    node'.fastStationSwayLimitedEffort = efforts.horizontal.swayEffort
  yaw_lasts :
    input.straightLateralManeuver (node.enterMode input.controlMode input.trajectoryPhase) = true →
      node'.fastStationLateralYawLimitedEffort = efforts.horizontal.yawEffort
  surge_unclipped : clip efforts.horizontal.surgeEffort (-|limit|) |limit| =
    efforts.horizontal.surgeEffort
  sway_unclipped : clip efforts.horizontal.swayEffort (-|limit|) |limit| =
    efforts.horizontal.swayEffort
  yaw_unclipped : clip efforts.horizontal.yawEffort (-|limit|) |limit| =
    efforts.horizontal.yawEffort
  scale_eq : efforts.horizontal.mixScale = (stationHorizontalPwmMix efforts.horizontal.surgeEffort
    efforts.horizontal.swayEffort efforts.horizontal.yawEffort limit).2
  commands_eq : ∀ i, efforts.commands.horizontal i =
    horizontalMix efforts.horizontal.appliedSurgeEffort efforts.horizontal.appliedSwayEffort
      efforts.horizontal.appliedYawEffort i
  integrals : efforts.horizontal.mixScale < 1 - tolerance →
    StationNode.IntegralsHeld node node'

/-- The efforts of a tick in a station mode. -/
theorem horizontalBounds_of_spec {cfg : StationConfig K} {node node' : StationNode K}
    {input : StationInput K} {efforts : StationNode.Efforts K} (h : node.Inv)
    (hmode : input.controlMode.isStation = true)
    (hspec : StationNode.EffortsSpec cfg
      (node.enterMode input.controlMode input.trajectoryPhase) input efforts node') :
    HorizontalBounds node.commandLimit input efforts node node' := by
  obtain ⟨hinv, hpwm, hheld⟩ :=
    StationNode.enterMode_spec input.controlMode input.trajectoryPhase h
  have hlimit : (node.enterMode input.controlMode input.trajectoryPhase).commandLimit =
      node.commandLimit := congrArg (· / _) hpwm
  obtain ⟨hhorizontal, hcommands⟩ := hspec.station hmode
  rw [hlimit] at hcommands
  have hsurge := hhorizontal.surge_le.trans_eq hlimit
  have hsway := hhorizontal.sway_le.trans_eq hlimit
  have hyaw := hhorizontal.yaw_le.trans_eq hlimit
  have hscale := hhorizontal.mixScale_eq
  rw [hlimit] at hscale
  have habs : |node.commandLimit| = node.commandLimit := abs_of_nonneg h.commandLimit_nonneg
  exact {
    surge_le := hsurge
    sway_le := hsway
    yaw_le := hyaw
    sway_lasts := hhorizontal.sway_eq
    yaw_lasts := hhorizontal.yaw_eq
    surge_unclipped := by rw [habs, clip_of_abs_le hsurge]
    sway_unclipped := by rw [habs, clip_of_abs_le hsway]
    yaw_unclipped := by rw [habs, clip_of_abs_le hyaw]
    scale_eq := hscale
    commands_eq := fun i => by
      rw [hcommands, stationHorizontalPwmMix_fst hsurge hsway hyaw, ← hscale]
      rfl
    integrals := fun h => hheld.trans (hhorizontal.integrals h) }

/-- **The horizontal efforts are within the limit.**  In every run, whatever its targets, its
parameters, its modes and its limits: every tick can take place, and one that closes the loops
publishes them; every published action is within the limit; and in a station mode the efforts enter
the mixer within the limit, the outputs of the mixer are the mix of the efforts reported as applied
and are published unclipped, and where the mixer scales the efforts down no horizontal integral
grows. -/
theorem horizontal_bounded_of_run {math : MathModule K} {cfg : StationConfig K}
    {tr : History (StationNode K) (StationEvent K) (Option (StationNode.Publication K))}
    {s : StationNode K} (h : (stationMachine math cfg).Run tr s) :
    (∀ ready dt input, (stationMachine math cfg).step s (.tick ready dt input) ≠ none) ∧
    ∀ x ∈ tr, ∀ ready dt input, x.input = .tick ready dt input →
      (StationNode.Closes x.pre ready dt input →
        ∃ p efforts, x.output = some p ∧ p.efforts = some efforts) ∧
      ∀ p, x.output = some p →
        (∀ i, 250 * |p.action.vertical i| ≤ x.pre.pwmLimitUs ∧
          250 * |p.action.horizontal i| ≤ x.pre.pwmLimitUs) ∧
        ∀ efforts, p.efforts = some efforts → input.controlMode.isStation = true →
          HorizontalBounds x.pre.commandLimit input efforts x.pre x.post ∧
            ∀ i, p.action.horizontal i = 2 * efforts.commands.horizontal i := by
  refine ⟨StationNode.tick_ne_none h, fun x hx ready dt input hinput => ?_⟩
  obtain ⟨hinv, hspec, hcloses⟩ := StationNode.tick_of_run h hx hinput
  exact ⟨hcloses, fun p hp => ⟨hspec.actions p hp, fun efforts hefforts hmode =>
    ⟨horizontalBounds_of_spec hinv hmode (hspec.efforts p hp efforts hefforts),
      fun i => (hspec.action_eq p hp efforts hefforts i).2⟩⟩⟩

/-- A run with a tick whose horizontal efforts are scaled down. -/
theorem horizontal_bounded_of_run_fastEvents :
    ∃ x tr s, (stationMachine tangentMath poolConfig).Run (x :: tr) s ∧ scaledDown x = true ∧
      ∀ ready dt input, x.input = .tick ready dt input → ∀ p, x.output = some p →
        ∀ efforts, p.efforts = some efforts → input.controlMode.isStation = true →
          HorizontalBounds x.pre.commandLimit input efforts x.pre x.post ∧
            ∀ i, p.action.horizontal i = 2 * efforts.commands.horizontal i := by
  obtain ⟨x, tr, s, hrun, hcheck⟩ := run_of_execCheck (stationMachine tangentMath poolConfig)
    fastEvents (fun x _ => scaledDown x) (by decide +kernel)
  refine ⟨x, tr, s, hrun, hcheck, fun ready dt input hinput p hp => ?_⟩
  exact (((horizontal_bounded_of_run hrun).2 x List.mem_cons_self ready dt input hinput).2 p hp).2

end RobotCore.Exact
