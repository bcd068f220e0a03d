import KartStack.BridgeLink

/-! # Driving by hand

`joy_to_cmd_vel` turns the state of a gamepad into a `Twist` whenever one arrives, and
the bridge publishes the efforts of the last of these `Twist`s a hundred times a
second.  The button that enables driving is a dead man's switch: unless the last state
has it pressed, the first publication after it takes all three targets to zero, however
the earlier ones were cut into reads (`dead_man_switch`).

With the button pressed the speed is at most 1 in size, and the bridge divides it by
`max_speed`, so the pedals get no more than the reciprocal of that.
-/
namespace KartStack
open KmComs Nanopb KbDashboard BinaryFloats

/-! ## The node -/

/-- `sensor_msgs/msg/Joy`, with finite axes. -/
structure Joy where
  axes : List ℚ
  buttons : List ℤ

/-- The parameters of `joy_to_cmd_vel`. -/
structure JoyParams where
  throttle : ℤ
  brake : ℤ
  steering : ℤ
  enableButton : ℤ
  deadZone : ℚ

/-- `operator[]` of a `std::vector`, which does not look at the size. -/
def vectorAt {α : Type} (xs : List α) (i : ℤ) : Option α := if i < 0 then none else xs[i.toNat]?

/-- A trigger from [1, -1] to [0, 1], in `double`s. -/
def triggerNorm (axis : ℚ) : ℚ := double.round (double.round (-axis + 1) / 2)

/-- `joy2cmd_callback`, as long as it reads inside the two vectors. -/
def joy2cmdCallback (params : JoyParams) (msg : Joy) : Option Twist := do
  let enable ← vectorAt msg.buttons params.enableButton
  if enable = 1 then
    let steering ← vectorAt msg.axes params.steering
    let throttle ← vectorAt msg.axes params.throttle
    let brake ← vectorAt msg.axes params.brake
    some
      { speed := double.round (triggerNorm throttle - triggerNorm brake)
        steer := if steering < params.deadZone ∧ steering > -params.deadZone then 0 else -steering }
  else
    some ⟨0, 0⟩

/-- The default parameters. -/
def defaultJoyParams : JoyParams := ⟨4, 3, 0, 5, 1 / 20⟩

/-- The button that enables driving is not pressed. -/
def Released (params : JoyParams) (msg : Joy) : Prop :=
  vectorAt msg.buttons params.enableButton ≠ some 1

/-- The axes are what a gamepad has. -/
def InRange (msg : Joy) : Prop := ∀ axis ∈ msg.axes, |axis| ≤ 1

/-! ## The speed -/

theorem vectorAt_mem {α : Type} {xs : List α} {i : ℤ} {x : α} (h : vectorAt xs i = some x) :
    x ∈ xs := by
  rw [vectorAt] at h
  split at h
  · cases h
  · exact List.mem_of_getElem? h

theorem double_round_mem_unit {x : ℚ} (h0 : 0 ≤ x) (h1 : x ≤ 1) :
    0 ≤ double.round x ∧ double.round x ≤ 1 := by
  have hlo := double.round_mono h0
  have hhi := double.round_mono h1
  rw [Format.round_zero] at hlo
  rw [Format.round_one (by decide)] at hhi
  exact ⟨hlo, hhi⟩

theorem triggerNorm_mem_unit {axis : ℚ} (h : |axis| ≤ 1) :
    0 ≤ triggerNorm axis ∧ triggerNorm axis ≤ 1 := by
  rw [abs_le] at h
  have htwo : double.round 2 = 2 := by
    have hmem := double.mem_two_zpow (e := 1) (by decide)
    rw [zpow_one] at hmem
    exact Format.round_of_mem hmem
  have hlo := double.round_mono (by linarith : 0 ≤ -axis + 1)
  have hhi := double.round_mono (by linarith : -axis + 1 ≤ 2)
  rw [Format.round_zero] at hlo
  rw [htwo] at hhi
  exact double_round_mem_unit (by linarith) (by linarith)

/-- Without the button there is no motion. -/
theorem joy2cmdCallback_released {params : JoyParams} {msg : Joy} {twist : Twist}
    (hrel : Released params msg) (h : joy2cmdCallback params msg = some twist) :
    twist = ⟨0, 0⟩ := by
  rw [joy2cmdCallback] at h
  obtain ⟨enable, henable, h⟩ := Option.bind_eq_some_iff.mp h
  have hne : enable ≠ 1 := by
    rintro rfl
    exact hrel henable
  rw [if_neg hne] at h
  exact (Option.some.inj h).symm

/-- The speed is at most 1. -/
theorem joy2cmdCallback_speed_le {params : JoyParams} {msg : Joy} {twist : Twist}
    (hrange : InRange msg) (h : joy2cmdCallback params msg = some twist) : |twist.speed| ≤ 1 := by
  rw [joy2cmdCallback] at h
  obtain ⟨enable, -, h⟩ := Option.bind_eq_some_iff.mp h
  split at h
  · obtain ⟨steering, -, h⟩ := Option.bind_eq_some_iff.mp h
    obtain ⟨throttle, hthrottle, h⟩ := Option.bind_eq_some_iff.mp h
    obtain ⟨brake, hbrake, h⟩ := Option.bind_eq_some_iff.mp h
    cases h
    obtain ⟨ht0, ht1⟩ := triggerNorm_mem_unit (hrange _ (vectorAt_mem hthrottle))
    obtain ⟨hb0, hb1⟩ := triggerNorm_mem_unit (hrange _ (vectorAt_mem hbrake))
    have hlo := double.round_mono (by linarith : -1 ≤ triggerNorm throttle - triggerNorm brake)
    have hhi := double.round_mono (by linarith : triggerNorm throttle - triggerNorm brake ≤ 1)
    rw [Format.round_neg, Format.round_one (by decide)] at hlo
    rw [Format.round_one (by decide)] at hhi
    exact abs_le.mpr ⟨hlo, hhi⟩
  · cases h
    norm_num

/-- What the bridge makes of a speed. -/
theorem Bridge.inForce_le (params : BridgeParams) {twist : Twist} (h : |twist.speed| ≤ 1) :
    (inForce params (some twist)).throttleEffort ≤ 1 / params.maxSpeed ∧
      (inForce params (some twist)).brakeEffort ≤ 1 / params.maxSpeed := by
  have hpos := params.maxSpeed_pos
  have hnonneg : 0 ≤ 1 / params.maxSpeed := (one_div_pos.mpr hpos).le
  rw [abs_le] at h
  unfold inForce onCmd
  dsimp only
  split
  · exact ⟨(min_le_right _ _).trans (div_le_div_of_nonneg_right h.2 hpos.le), hnonneg⟩
  · exact ⟨hnonneg, (min_le_right _ _).trans (div_le_div_of_nonneg_right (by linarith) hpos.le)⟩

/-! ## A run -/

/-- The state of the gamepad arrives, and its `Twist` at the bridge; or the bridge
publishes. -/
inductive TeleopAct where
  | joy (msg : Joy)
  | send

/-- What the bridge sees. -/
def TeleopAct.event (params : JoyParams) : TeleopAct → Option BridgeEvent
  | .joy msg => (joy2cmdCallback params msg).map .cmd
  | .send => some .send

/-- The states of the gamepad in force at the publications. -/
def publishedJoy : Option Joy → List TeleopAct → List (Option Joy)
  | _, [] => []
  | _, .joy msg :: acts => publishedJoy (some msg) acts
  | joy, .send :: acts => joy :: publishedJoy joy acts

/-- The command a state of the gamepad gives. -/
def joyCommand (params : JoyParams) (joy : Option Joy) : Option Twist :=
  joy.bind (joy2cmdCallback params)

theorem published_teleop {params : JoyParams} {acts : List TeleopAct} {events : List BridgeEvent}
    (h : acts.mapM (TeleopAct.event params) = some events) (joy : Option Joy) :
    published (joyCommand params joy) events =
      (publishedJoy joy acts).map (joyCommand params) := by
  induction acts generalizing events joy with
  | nil =>
    cases h
    rfl
  | cons act acts ih =>
    rw [List.mapM_cons] at h
    obtain ⟨event, hevent, h⟩ := Option.bind_eq_some_iff.mp h
    obtain ⟨events', hevents, h⟩ := Option.bind_eq_some_iff.mp h
    cases h
    cases act with
    | joy msg =>
      obtain ⟨twist, htwist, rfl⟩ := Option.map_eq_some_iff.mp hevent
      have hcommand : joyCommand params (some msg) = some twist := htwist
      rw [published, publishedJoy, ← hcommand]
      exact ih hevents (some msg)
    | send =>
      cases hevent
      rw [published, publishedJoy, List.map_cons, ih hevents joy]

/-- Every state in force has been read inside its vectors. -/
theorem exists_twist {params : JoyParams} {acts : List TeleopAct} {events : List BridgeEvent}
    (h : acts.mapM (TeleopAct.event params) = some events) {msg : Joy}
    (hmsg : TeleopAct.joy msg ∈ acts) : ∃ twist, joy2cmdCallback params msg = some twist := by
  induction acts generalizing events with
  | nil => cases hmsg
  | cons act acts ih =>
    rw [List.mapM_cons] at h
    obtain ⟨event, hevent, h⟩ := Option.bind_eq_some_iff.mp h
    obtain ⟨events', hevents, -⟩ := Option.bind_eq_some_iff.mp h
    rcases List.mem_cons.mp hmsg with rfl | hmem
    · obtain ⟨twist, htwist, -⟩ := Option.map_eq_some_iff.mp hevent
      exact ⟨twist, htwist⟩
    · exact ih hevents hmem

/-- What is in force has arrived. -/
theorem joy_mem_of_published {acts : List TeleopAct} {joy : Option Joy} {msg : Joy}
    (h : some msg ∈ publishedJoy joy acts) : joy = some msg ∨ TeleopAct.joy msg ∈ acts := by
  induction acts generalizing joy with
  | nil => cases h
  | cons act acts ih =>
    cases act with
    | joy msg' =>
      rcases ih h with hjoy | hmem
      · cases hjoy
        exact Or.inr (List.mem_cons_self ..)
      · exact Or.inr (List.mem_cons_of_mem _ hmem)
    | send =>
      rcases List.mem_cons.mp h with hjoy | hmem
      · exact Or.inl hjoy.symm
      · exact (ih hmem).imp_right (List.mem_cons_of_mem _)

/-- The last publication takes the targets to what the state in force at it gives. -/
theorem run_teleop (w : EffortWriter) {params : JoyParams} {bridge : BridgeParams}
    (hsteer : |bridge.maxSteer| ≤ 2 ^ (127 : ℤ)) {acts : List TeleopAct} {events : List BridgeEvent}
    (hevents : acts.mapM (TeleopAct.event params) = some events) {last : Option Joy}
    (hlast : (publishedJoy none acts).getLast? = some last)
    (cut : Cut rxChunk (sentBytes (publications w bridge (published none events)))) {s : RxState}
    (hs : s.rxBufferLen = 0) (objects : Objects) :
    ∃ s' objects', Transitions.run (tableStep nanopbDecode) (s, objects) (commsTask cut.pieces) =
        some (s', objects') ∧
      (Bridge.inForce bridge (joyCommand params last)).Targets objects' := by
  have hpublished : published none events = (publishedJoy none acts).map (joyCommand params) :=
    published_teleop hevents none
  have hlast' : (published none events).getLast? = some (joyCommand params last) := by
    rw [hpublished, List.getLast?_map, hlast]
    rfl
  obtain ⟨s', hrun⟩ := run_publications w bridge (published none events) cut hs objects
  exact ⟨s', _, hrun, targets_publishedCommands hsteer hlast' objects⟩

/-- A number that arrived, up to a bound. -/
def AtMost (v : CFloat) (bound : ℚ) : Prop := ∃ x, v = .fin x ∧ 0 ≤ x ∧ x ≤ bound

/-- **The dead man's switch.**  After any number of states of the gamepad and
publications, and wherever their stream is cut: if at the last publication the button
was not pressed, all three targets are zero, and if it was, the pedals are not above
what `1 / max_speed` arrives as. -/
theorem dead_man_switch (w : EffortWriter) {params : JoyParams} {bridge : BridgeParams}
    (hsteer : 0 ≤ bridge.maxSteer ∧ bridge.maxSteer ≤ 2 ^ (127 : ℤ)) {acts : List TeleopAct}
    {events : List BridgeEvent} (hevents : acts.mapM (TeleopAct.event params) = some events)
    {last : Option Joy} (hlast : (publishedJoy none acts).getLast? = some last)
    (cut : Cut rxChunk (sentBytes (publications w bridge (published none events)))) {s : RxState}
    (hs : s.rxBufferLen = 0) (objects : Objects) :
    ∃ s' objects', Transitions.run (tableStep nanopbDecode) (s, objects) (commsTask cut.pieces) =
        some (s', objects') ∧
      ((∀ msg ∈ last, Released params msg) →
        ∀ object ∈ [Object.targetThrottle, .targetBraking, .targetSteering],
          objects'.getObjectValue object = 0) ∧
      ((∀ msg ∈ last, InRange msg) → ∀ object ∈ [Object.targetThrottle, .targetBraking],
        AtMost (objects'.getObjectValue object) (arrivedRound (1 / bridge.maxSpeed))) := by
  have habs : |bridge.maxSteer| ≤ 2 ^ (127 : ℤ) := by
    rw [abs_of_nonneg hsteer.1]
    exact hsteer.2
  obtain ⟨s', objects', hrun, htargets⟩ := run_teleop w habs hevents hlast cut hs objects
  have hlastMem := List.mem_of_getLast? hlast
  refine ⟨s', objects', hrun, fun hrel => ?_, fun hrange => ?_⟩
  · -- all efforts in force are zero
    have hzero : Bridge.inForce bridge (joyCommand params last) = .init := by
      cases last with
      | none => rfl
      | some msg =>
        rcases joy_mem_of_published hlastMem with hnone | hmem
        · cases hnone
        · obtain ⟨twist, htwist⟩ := exists_twist hevents hmem
          have hcommand : joyCommand params (some msg) = some twist := htwist
          rw [hcommand, joy2cmdCallback_released (hrel msg rfl) htwist]
          simp [Bridge.inForce, Bridge.onCmd, Bridge.init, hsteer.1]
    rw [hzero] at htargets
    have hround : CFloat.fin (arrivedRound 0) = 0 := congrArg CFloat.fin arrivedRound_zero
    intro object hobject
    simp only [List.mem_cons, List.not_mem_nil, or_false] at hobject
    rcases hobject with rfl | rfl | rfl
    · exact htargets.throttle.trans hround
    · exact htargets.braking.trans hround
    · exact htargets.steering.trans hround
  · have hexclusive := Bridge.inForce_exclusive bridge (joyCommand params last)
    have hle : (Bridge.inForce bridge (joyCommand params last)).throttleEffort ≤
        1 / bridge.maxSpeed ∧
        (Bridge.inForce bridge (joyCommand params last)).brakeEffort ≤ 1 / bridge.maxSpeed := by
      have hnonneg : 0 ≤ 1 / bridge.maxSpeed := (one_div_pos.mpr bridge.maxSpeed_pos).le
      cases hcommand : joyCommand params last with
      | none => exact ⟨hnonneg, hnonneg⟩
      | some twist =>
        obtain ⟨msg, hmsg, htwist⟩ := Option.bind_eq_some_iff.mp hcommand
        exact Bridge.inForce_le bridge (joy2cmdCallback_speed_le (hrange msg hmsg) htwist)
    intro object hobject
    simp only [List.mem_cons, List.not_mem_nil, or_false] at hobject
    rcases hobject with rfl | rfl
    · exact ⟨_, htargets.throttle, arrivedRound_nonneg hexclusive.throttle_nonneg,
        arrivedRound_mono hle.1⟩
    · exact ⟨_, htargets.braking, arrivedRound_nonneg hexclusive.brake_nonneg,
        arrivedRound_mono hle.2⟩

/-- Full throttle, and the button. -/
def fullThrottleJoy : Joy := ⟨[0, 0, 0, 1, -1], [0, 0, 0, 0, 0, 1]⟩

/-- The same without the button. -/
def releasedJoy : Joy := ⟨[0, 0, 0, 1, -1], [0, 0, 0, 0, 0, 0]⟩

/-- The driver lets go between two publications. -/
theorem dead_man_switch_release :
    ∃ s' objects', Transitions.run (tableStep nanopbDecode) (RxState.init, Objects.init)
        (commsTask (Cut.greedy rxChunk (by decide) (sentBytes (publications nanopbWriter
          defaultParams (published none [.cmd ⟨double.round (triggerNorm (-1) - triggerNorm 1), 0⟩,
            .send, .cmd ⟨0, 0⟩, .send])))).pieces) = some (s', objects') ∧
      ((∀ msg ∈ some releasedJoy, Released defaultJoyParams msg) →
        ∀ object ∈ [Object.targetThrottle, .targetBraking, .targetSteering],
          objects'.getObjectValue object = 0) ∧
      ((∀ msg ∈ some releasedJoy, InRange msg) →
        ∀ object ∈ [Object.targetThrottle, .targetBraking],
          AtMost (objects'.getObjectValue object) (arrivedRound (1 / defaultParams.maxSpeed))) := by
  have hpressed : joy2cmdCallback defaultJoyParams fullThrottleJoy =
      some ⟨double.round (triggerNorm (-1) - triggerNorm 1), 0⟩ := by
    simp [joy2cmdCallback, vectorAt, defaultJoyParams, fullThrottleJoy]
  have hreleased : joy2cmdCallback defaultJoyParams releasedJoy = some ⟨0, 0⟩ := by
    simp [joy2cmdCallback, vectorAt, defaultJoyParams, releasedJoy]
  have hevents : [TeleopAct.joy fullThrottleJoy, .send, .joy releasedJoy, .send].mapM
      (TeleopAct.event defaultJoyParams) =
        some [.cmd ⟨double.round (triggerNorm (-1) - triggerNorm 1), 0⟩, .send, .cmd ⟨0, 0⟩,
          .send] := by
    simp [TeleopAct.event, hpressed, hreleased]
  exact dead_man_switch nanopbWriter (by norm_num [defaultParams]) hevents rfl _ rfl _

end KartStack
