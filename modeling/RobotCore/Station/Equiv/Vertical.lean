import RobotCore.Station.Equiv.Node

/-!
# Attitude has priority on the vertical thrusters

`altitudeLevelPwmCommands` scales the demanded attitude down to the limit and clips the collective
to what is left of it (`mixer_attitudePriority`).  The level loop of the fast station mode keeps its
efforts within the limit, and the altitude loop is limited to what they leave, so that in its ticks
neither is scaled nor clipped
(`attitude_priority_of_run`).

A sign that `math.isclose` takes for zero is rejected, and of another one only its sign counts
(`not_attitudePriority_tinySign`).
-/

namespace RobotCore.Exact

open Clip Machine

attribute [local instance] Numeral.neZero_four Numeral.atLeastTwo_four

variable {K : Type} [Field K] [LinearOrder K]

/-! ### The parts of the vertical commands -/

/-- What the four thrusters have in common. -/
def collective (vertical : Fin 4 → K) : K :=
  (vertical 0 + vertical 1 + vertical 2 + vertical 3) / 4

def rollDifferential (vertical : Fin 4 → K) : K :=
  (vertical 0 + vertical 1 - vertical 2 - vertical 3) / 4

def pitchDifferential (vertical : Fin 4 → K) : K :=
  (vertical 0 - vertical 1 + vertical 2 - vertical 3) / 4

/-- Commands of a limit whose attitude leaves headroom to a collective effort. -/
structure AttitudePriority (altitude roll pitch commandLimit sign : K) (vertical : Fin 4 → K) :
    Prop where
  within : ∀ i, |vertical i| ≤ |commandLimit|
  roll_eq : rollDifferential vertical = roll * min 1 (|commandLimit| / (|roll| + |pitch|))
  pitch_eq : pitchDifferential vertical = pitch * min 1 (|commandLimit| / (|roll| + |pitch|))
  collective_eq : collective vertical = clip (sign * altitude)
    (-(|commandLimit| - (|rollDifferential vertical| + |pitchDifferential vertical|)))
    (|commandLimit| - (|rollDifferential vertical| + |pitchDifferential vertical|))
  unclipped : ∀ i, vertical i = collective vertical +
    attitudeMix (rollDifferential vertical) (pitchDifferential vertical) i

variable [IsStrictOrderedRing K]

theorem collective_add (effort roll pitch : K) :
    collective (fun i => effort + attitudeMix roll pitch i) = effort := by
  simp only [collective, attitudeMix, Matrix.cons_val]
  ring

theorem rollDifferential_add (effort roll pitch : K) :
    rollDifferential (fun i => effort + attitudeMix roll pitch i) = roll := by
  simp only [rollDifferential, attitudeMix, Matrix.cons_val]
  ring

theorem pitchDifferential_add (effort roll pitch : K) :
    pitchDifferential (fun i => effort + attitudeMix roll pitch i) = pitch := by
  simp only [pitchDifferential, attitudeMix, Matrix.cons_val]
  ring

/-- The factor of the attitude, where there is one. -/
theorem mul_scaleToLimit_eq (roll pitch limit : K) :
    roll * scaleToLimit limit (|roll| + |pitch|) = roll * min 1 (limit / (|roll| + |pitch|)) ∧
      pitch * scaleToLimit limit (|roll| + |pitch|) =
        pitch * min 1 (limit / (|roll| + |pitch|)) := by
  rcases (add_nonneg (abs_nonneg roll) (abs_nonneg pitch)).eq_or_lt with hzero | hpos
  · have hroll : roll = 0 := abs_nonpos_iff.mp (by linarith [abs_nonneg pitch])
    have hpitch : pitch = 0 := abs_nonpos_iff.mp (by linarith [abs_nonneg roll])
    rw [hroll, hpitch, zero_mul, zero_mul]
    exact ⟨rfl, rfl⟩
  · rw [scaleToLimit_eq_min hpos]
    exact ⟨rfl, rfl⟩

/-- The mixer gives priority to the attitude. -/
theorem mixer_attitudePriority (altitude roll pitch commandLimit : K) {sign : K}
    (hsign : tolerance < |sign|) :
    ∃ commands, altitudeLevelPwmCommands altitude roll pitch commandLimit sign = .ok commands ∧
      AttitudePriority altitude roll pitch commandLimit (copysignOne sign) commands.vertical := by
  obtain ⟨hok, hbound⟩ := altitudeLevelPwmCommands_eq altitude roll pitch commandLimit hsign
  obtain ⟨hroll, hpitch⟩ := mul_scaleToLimit_eq roll pitch |commandLimit|
  refine ⟨_, hok, hbound, ?_, ?_, ?_, fun i => ?_⟩
  · rw [rollDifferential_add, hroll]
  · rw [pitchDifferential_add, hpitch]
  · rw [collective_add, rollDifferential_add, pitchDifferential_add]
  · rw [collective_add, rollDifferential_add, pitchDifferential_add]

/-- **Attitude has priority.**  For every altitude, roll and pitch effort, every limit and every
sign that does not count as zero, the vertical commands are within the limit, the attitude is the
demanded one times a factor that does not depend on the altitude, and the collective is the altitude
effort with the sign applied, clipped to what the attitude leaves.  In every tick of a run that
closes the loops of the fast station mode the altitude PID is limited to just that, and the
collective is its effort with the sign applied. -/
theorem attitude_priority_of_run (math : MathModule K) (cfg : StationConfig K) :
    (∀ altitude roll pitch commandLimit sign : K, tolerance < |sign| →
      ∃ commands, altitudeLevelPwmCommands altitude roll pitch commandLimit sign = .ok commands ∧
        AttitudePriority altitude roll pitch commandLimit (copysignOne sign) commands.vertical) ∧
    ∀ tr s, (stationMachine math cfg).Run tr s → ∀ x ∈ tr, ∀ ready dt input,
      x.input = .tick ready dt input → input.controlMode = .stationHoldFast →
      (StationNode.Closes x.pre ready dt input →
        ∃ p efforts, x.output = some p ∧ p.efforts = some efforts) ∧
      ∀ p efforts, x.output = some p → p.efforts = some efforts →
        efforts.altitudeOutputLimit = x.pre.commandLimit -
          (|rollDifferential efforts.commands.vertical| +
            |pitchDifferential efforts.commands.vertical|) ∧
        rollDifferential efforts.commands.vertical = efforts.levelEfforts 0 ∧
        pitchDifferential efforts.commands.vertical = efforts.levelEfforts 1 ∧
        collective efforts.commands.vertical =
          cfg.altitudePwmCommandSign * efforts.controllerEffort ∧
        ∀ i, efforts.commands.vertical i = collective efforts.commands.vertical +
          attitudeMix (efforts.levelEfforts 0) (efforts.levelEfforts 1) i := by
  refine ⟨fun altitude roll pitch commandLimit sign => mixer_attitudePriority _ _ _ _,
    fun tr s hrun x hx ready dt input hinput _ => ?_⟩
  obtain ⟨hinv, hspec, hcloses⟩ := StationNode.tick_of_run hrun hx hinput
  refine ⟨hcloses, fun p efforts hp hefforts => ?_⟩
  have hlimit := (StationNode.enterMode_spec input.controlMode input.trajectoryPhase hinv).2.1
  obtain ⟨-, -, houtput, -, hmix, -⟩ := hspec.efforts p hp efforts hefforts
  have hvertical : efforts.commands.vertical = fun i => cfg.altitudePwmCommandSign *
      efforts.controllerEffort + attitudeMix (efforts.levelEfforts 0) (efforts.levelEfforts 1) i :=
    funext hmix.vertical_eq
  rw [hvertical, rollDifferential_add, pitchDifferential_add, collective_add]
  refine ⟨?_, rfl, rfl, rfl, fun i => rfl⟩
  rw [houtput, StationNode.commandLimit, hlimit]
  rfl

/-- Not every sign other than zero is accepted, and of the sign two only the direction counts. -/
theorem not_attitudePriority_tinySign :
    ((1 / 10 ^ 13 : ℚ) ≠ 0 ∧
      ¬ ∃ commands, altitudeLevelPwmCommands (1 / 10 : ℚ) 0 0 (4 / 10) (1 / 10 ^ 13) =
      .ok commands) ∧
    ¬ ∃ commands, altitudeLevelPwmCommands (1 / 10 : ℚ) 0 0 (4 / 10) 2 = .ok commands ∧
      AttitudePriority (1 / 10) 0 0 (4 / 10) 2 commands.vertical := by
  refine ⟨⟨by norm_num, ?_⟩, ?_⟩
  · rintro ⟨commands, h⟩
    have herror : altitudeLevelPwmCommands (1 / 10 : ℚ) 0 0 (4 / 10) (1 / 10 ^ 13) = .error _ :=
      if_pos (by decide +kernel)
    cases herror.symm.trans h
  · rintro ⟨commands, h, hpriority⟩
    obtain ⟨commands', h', hcommands⟩ := mixer_attitudePriority (1 / 10 : ℚ) 0 0 (4 / 10)
      (by decide +kernel : tolerance < |(2 : ℚ)|)
    obtain rfl := Except.ok.inj (h.symm.trans h')
    have heq := hpriority.collective_eq.symm.trans hcommands.collective_eq
    rw [hcommands.roll_eq, hcommands.pitch_eq] at heq
    revert heq
    decide +kernel

/-- A sample of the mixer, and a run with two ticks of the fast station mode. -/
theorem attitude_priority_of_run_fastEvents :
    (∃ commands, altitudeLevelPwmCommands (2 / 5 : ℚ) (2 / 25) (1 / 25) (2 / 5) (-1) =
      .ok commands ∧
      AttitudePriority (2 / 5) (2 / 25) (1 / 25) (2 / 5) (copysignOne (-1)) commands.vertical) ∧
    ∃ x tr s, (stationMachine tangentMath poolConfig).Run (x :: tr) s ∧ scaledDown x = true ∧
      ∀ ready dt input, x.input = .tick ready dt input → input.controlMode = .stationHoldFast →
        ∀ p efforts, x.output = some p → p.efforts = some efforts →
          collective efforts.commands.vertical =
            poolConfig.altitudePwmCommandSign * efforts.controllerEffort := by
  obtain ⟨hmixer, hruns⟩ := attitude_priority_of_run tangentMath poolConfig
  obtain ⟨x, tr, s, hrun, hcheck⟩ := run_of_execCheck (stationMachine tangentMath poolConfig)
    fastEvents (fun x _ => scaledDown x) (by decide +kernel)
  refine ⟨hmixer _ _ _ _ _ (by decide +kernel), x, tr, s, hrun, hcheck,
    fun ready dt input hinput hmode p efforts hp hefforts => ?_⟩
  exact ((hruns _ s hrun x List.mem_cons_self ready dt input hinput hmode).2 p efforts hp
    hefforts).2.2.2.1

end RobotCore.Exact
