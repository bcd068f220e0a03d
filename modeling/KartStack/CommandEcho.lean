import KartStack.BridgeLink
import KartStack.TelemetryLink
import Mathlib.Data.List.ReduceOption

/-! # One command, two readers

The frames of the bridge go out on three topics.  `kb_coms_micro` reads these and sends
every frame over the serial line, with heartbeats of its own in between; the dashboard
reads them too and shows what is commanded.  Each of the two gets a topic's frames in
order and may miss some, but not the last one, and neither knows what the other got.

Once everything has arrived they agree: what the dashboard shows as commanded is what
the object table of the ESP32 has as its targets (`dashboard_echoes_commands`).
-/
namespace KartStack
open KmComs Nanopb KbDashboard TopicOrder Transitions BinaryFloats

/-! ## The topics -/

/-- What the bridge publishes on a topic of its own. -/
inductive Target where
  | throttle
  | brake
  | steering
  deriving DecidableEq, Repr

namespace Target

/-- The frame on the topic. -/
def message (w : EffortWriter) (bits : UInt32) : Target → Message
  | .throttle =>
    ⟨⟨orinTargThrottle, w.throttle bits⟩, (w.throttle_short _).trans (by decide)⟩
  | .brake => ⟨⟨orinTargBraking, w.braking bits⟩, (w.braking_short _).trans (by decide)⟩
  | .steering =>
    ⟨⟨orinTargSteering, w.steering bits⟩, (w.steering_short _).trans (by decide)⟩

/-- The command in it. -/
def command (bits : UInt32) : Target → Command
  | .throttle => .throttle bits
  | .brake => .braking bits
  | .steering => .steering bits

/-- The object it sets. -/
def object : Target → Object
  | .throttle => .targetThrottle
  | .brake => .targetBraking
  | .steering => .targetSteering

/-- The key it is shown under. -/
def key : Target → String
  | .throttle => "orin_cmd_throttle"
  | .brake => "orin_cmd_brake"
  | .steering => "orin_cmd_steering_rad"

/-- What a bridge holds for it. -/
def value (b : Bridge) : Target → ℚ
  | .throttle => b.throttleEffort
  | .brake => b.brakeEffort
  | .steering => b.steerRad

/-- The bits of that. -/
def bits (b : Bridge) (t : Target) : UInt32 := toBits (double.round (t.value b))

end Target

/-- The frames of a sequence of publications. -/
def publishedTargets (params : BridgeParams) (cmds : List (Option Twist)) :
    List (Target × UInt32) :=
  cmds.flatMap fun cmd =>
    [.throttle, .brake, .steering].map fun t => (t, t.bits (Bridge.inForce params cmd))

/-! ## The two readers -/

/-- What `kb_coms_micro` sends: a frame it got (`kb_coms_TXcallback`), or a heartbeat
(`kb_coms_OrinHeartbeat`). -/
def microMessage (w : EffortWriter) : Option (Target × UInt32) → Message
  | none => heartbeat
  | some f => f.1.message w f.2

/-- The command in it. -/
def microCommand : Option (Target × UInt32) → Command
  | none => .heartbeat
  | some f => f.1.command f.2

/-- `decode_steering`. -/
def decodeSteering (pb : Protobuf) (payload : List UInt8) : Option CFloat :=
  (pb.actSteering.parse payload).map fun msg => ofBits msg.angleRad

/-- The callback of the dashboard for a topic: `_on_orin_throttle`, `_on_orin_brake`,
which decodes as for the throttle, or `_on_orin_steering`. -/
def onOrin (pb : Protobuf) (payload : List UInt8) (node : DashboardNode) :
    Target → Option DashboardNode
  | .throttle =>
    (decodeThrottle pb payload).map fun effort => node.update "orin_cmd_throttle" (.float effort)
  | .brake =>
    (decodeThrottle pb payload).map fun effort => node.update "orin_cmd_brake" (.float effort)
  | .steering =>
    (decodeSteering pb payload).map fun angle => node.update "orin_cmd_steering_rad" (.float angle)

/-- The runtime of the Orin on both sides.  The dashboard reads a `TargBraking` as a
`TargThrottle` and a `TargSteering` as an `ActSteering`: the first fields are the same. -/
structure TargetRuntime extends EffortWriter where
  pb : Protobuf
  throttle_read : ∀ bits, pb.targThrottle.parse (throttle bits) = some ⟨bits⟩
  braking_read : ∀ bits, pb.targThrottle.parse (braking bits) = some ⟨bits⟩
  steering_read : ∀ bits, pb.actSteering.parse (steering bits) = some ⟨bits, 0⟩

/-- nanopb does. -/
theorem floatBytes_read (bits : UInt32) :
    nanopbRuntime.targThrottle.parse (floatBytes bits) = some ⟨bits⟩ :=
  targThrottleLayout.codec.parse_serialize ⟨bits⟩

theorem floatBytes_read_steering (bits : UInt32) :
    nanopbRuntime.actSteering.parse (floatBytes bits) = some ⟨bits, 0⟩ := by
  have hbytes : floatBytes bits = actSteeringLayout.codec.serialize ⟨bits, 0⟩ := rfl
  rw [hbytes]
  exact actSteeringLayout.codec.parse_serialize ⟨bits, 0⟩

/-- nanopb as that runtime. -/
def nanopbTargets : TargetRuntime where
  toEffortWriter := nanopbWriter
  pb := nanopbRuntime
  throttle_read := floatBytes_read
  braking_read := floatBytes_read
  steering_read := floatBytes_read_steering

/-! ## What each of them ends up with -/

/-- A frame reaches the dashboard. -/
def showStep (rt : TargetRuntime) (node : DashboardNode) (f : Target × UInt32) :
    Option DashboardNode :=
  onOrin rt.pb (f.1.message rt.toEffortWriter f.2).payload node f.1

theorem showStep_eq (rt : TargetRuntime) (node : DashboardNode) (f : Target × UInt32) :
    showStep rt node f = some (node.update f.1.key (.float (ofBits f.2))) := by
  obtain ⟨t, bits⟩ := f
  cases t with
  | throttle =>
    simp [showStep, onOrin, decodeThrottle, Target.message, rt.throttle_read, Target.key]
  | brake => simp [showStep, onOrin, decodeThrottle, Target.message, rt.braking_read, Target.key]
  | steering =>
    simp [showStep, onOrin, decodeSteering, Target.message, rt.steering_read, Target.key]

theorem Target.key_injective {t t' : Target} (h : t'.key = t.key) : t' = t := by
  cases t <;> cases t' <;> first | rfl | exact absurd h (by decide)

theorem Target.object_injective {t t' : Target} (h : t'.object = t.object) : t' = t := by
  cases t <;> cases t' <;> first | rfl | cases h

/-- The dashboard shows the last frame of each topic, and leaves the other keys alone. -/
theorem run_showStep (rt : TargetRuntime) (node : DashboardNode) (shown : List (Target × UInt32)) :
    ∃ node', run (showStep rt) node shown = some node' ∧
      (∀ f, lastOn Prod.fst f.1 shown = some f →
        node'.state.data f.1.key = some (.float (ofBits f.2))) ∧
      ∀ key, (∀ t : Target, key ≠ t.key) → node'.state.data key = node.state.data key := by
  have htotal : ∀ (shown : List (Target × UInt32)) (node : DashboardNode),
      ∃ node', run (showStep rt) node shown = some node' ∧
        ∀ key, (∀ t : Target, key ≠ t.key) → node'.state.data key = node.state.data key := by
    intro shown
    induction shown with
    | nil => exact fun node => ⟨node, rfl, fun _ _ => rfl⟩
    | cons f shown ih =>
      intro node
      obtain ⟨node', hrun, hother⟩ := ih (node.update f.1.key (.float (ofBits f.2)))
      refine ⟨node', (run_cons _ (showStep_eq rt node f) shown).trans hrun, fun key hkey => ?_⟩
      rw [hother key hkey]
      exact DashboardState.data_update_of_ne (hkey f.1) ..
  obtain ⟨node', hrun, hother⟩ := htotal shown node
  refine ⟨node', hrun, fun f hlast => ?_, hother⟩
  refine @holds_of_last Target (Target × UInt32) _ Prod.fst DashboardNode (showStep rt)
    (fun f node => node.state.data f.1.key = some (.float (ofBits f.2))) node node' shown
    ?_ ?_ hrun f hlast
  · intro node f node' hstep
    rw [showStep_eq] at hstep
    obtain rfl := Option.some.inj hstep
    exact DashboardState.data_update_self ..
  · intro node f node' f' _ hne hbefore hstep
    rw [showStep_eq] at hstep
    obtain rfl := Option.some.inj hstep
    rw [← hbefore]
    exact DashboardState.data_update_of_ne (fun h => hne (Target.key_injective h.symm)) ..

/-- The commands of `kb_coms_micro`, without the heartbeats. -/
theorem foldl_microCommand (micro : List (Option (Target × UInt32))) (objects : Objects) :
    (micro.map microCommand).foldl Command.apply objects =
      micro.reduceOption.foldl (fun objects f => (f.1.command f.2).apply objects) objects := by
  induction micro generalizing objects with
  | nil => rfl
  | cons f micro ih =>
    cases f with
    | none => exact ih objects
    | some f => exact ih _

theorem apply_command (f : Target × UInt32) (objects : Objects) :
    (f.1.command f.2).apply objects = objects.setObjectValue f.1.object (ofBits f.2) := by
  obtain ⟨t, bits⟩ := f
  cases t <;> rfl

theorem run_eq_foldl (fs : List (Target × UInt32)) (objects : Objects) :
    run (fun objects f => some ((f.1.command f.2).apply objects)) objects fs =
      some (fs.foldl (fun objects f => (f.1.command f.2).apply objects) objects) := by
  induction fs generalizing objects with
  | nil => rfl
  | cons f fs ih => exact (run_cons _ rfl fs).trans (ih _)

/-- The table has the last frame of each topic. -/
theorem getObjectValue_last {fs : List (Target × UInt32)} {f : Target × UInt32}
    (hlast : lastOn Prod.fst f.1 fs = some f) (objects : Objects) :
    (fs.foldl (fun objects f => (f.1.command f.2).apply objects) objects).getObjectValue
      f.1.object = ofBits f.2 := by
  refine @holds_of_last Target (Target × UInt32) _ Prod.fst Objects
    (fun objects f => some ((f.1.command f.2).apply objects))
    (fun f objects => objects.getObjectValue f.1.object = ofBits f.2) objects _ fs
    ?_ ?_ (run_eq_foldl fs objects) f hlast
  · intro objects f objects' hstep
    obtain rfl := Option.some.inj hstep
    rw [apply_command]
    exact Objects.get_set_self ..
  · intro objects f objects' f' _ hne hbefore hstep
    obtain rfl := Option.some.inj hstep
    rw [apply_command, Objects.get_set_of_ne _ fun h => hne (Target.object_injective h.symm)]
    exact hbefore

/-- The last frame on a topic is of the last publication. -/
theorem lastOn_publishedTargets {params : BridgeParams} {cmds : List (Option Twist)}
    {last : Option Twist} (hlast : cmds.getLast? = some last) (t : Target) :
    lastOn Prod.fst t (publishedTargets params cmds) =
      some (t, t.bits (Bridge.inForce params last)) := by
  obtain ⟨earlier, rfl⟩ := List.getLast?_eq_some_iff.mp hlast
  have hsplit : publishedTargets params (earlier ++ [last]) =
      publishedTargets params earlier ++
        [Target.throttle, .brake, .steering].map
          fun t => (t, t.bits (Bridge.inForce params last)) := by
    rw [publishedTargets, List.flatMap_append, List.flatMap_singleton]
    rfl
  rw [hsplit, lastOn, onTopic, List.filter_append, List.getLast?_append]
  cases t <;> rfl

theorem carriedBy_micro (w : EffortWriter) (micro : List (Option (Target × UInt32))) :
    List.Forall₂ Command.CarriedBy (micro.map microCommand) (micro.map (microMessage w)) := by
  rw [List.forall₂_map_left_iff, List.forall₂_map_right_iff]
  refine List.forall₂_same.mpr fun f _ => ?_
  cases f with
  | none => exact ⟨rfl, trivial⟩
  | some f =>
    obtain ⟨t, bits⟩ := f
    cases t with
    | throttle => exact ⟨rfl, w.throttle_says bits⟩
    | brake => exact ⟨rfl, w.braking_says bits⟩
    | steering => exact ⟨rfl, w.steering_says bits⟩

theorem microMessage_short (w : EffortWriter) (f : Option (Target × UInt32)) :
    (microMessage w f).payload.length ≤ 188 := by
  cases f with
  | none => exact Nat.zero_le _
  | some f =>
    obtain ⟨t, bits⟩ := f
    cases t with
    | throttle => exact w.throttle_short bits
    | brake => exact w.braking_short bits
    | steering => exact w.steering_short bits

theorem Target.ofBits_bits {params : BridgeParams} (hsteer : |params.maxSteer| ≤ 2 ^ (127 : ℤ))
    (cmd : Option Twist) (t : Target) :
    ofBits (t.bits (Bridge.inForce params cmd)) =
      .fin (arrivedRound (t.value (Bridge.inForce params cmd))) := by
  have hb := Bridge.inForce_exclusive params cmd
  cases t with
  | throttle => exact ofBits_effort hb.throttle_nonneg hb.throttle_le
  | brake => exact ofBits_effort hb.brake_nonneg hb.brake_le
  | steering => exact ofBits_arrived ((Bridge.abs_steerRad_le params cmd).trans hsteer)

/-- **The readers agree.**  After any commands and publications, whatever of them
`kb_coms_micro` and the dashboard got in whatever interleaving, as long as each has the
last frame of each topic; with any heartbeats in between, and wherever the serial stream
is cut: the targets in the ESP32's table are those of the last publication, and the
dashboard shows the same three numbers. -/
theorem dashboard_echoes_commands (rt : TargetRuntime) {params : BridgeParams}
    (hsteer : |params.maxSteer| ≤ 2 ^ (127 : ℤ)) {events : List BridgeEvent}
    {last : Option Twist} (hlast : (published none events).getLast? = some last)
    {micro : List (Option (Target × UInt32))} {shown : List (Target × UInt32)}
    (hmicro : Delivered Prod.fst (publishedTargets params (published none events))
      micro.reduceOption)
    (hshown : Delivered Prod.fst (publishedTargets params (published none events)) shown)
    (cut : Cut rxChunk (sentBytes (micro.map (microMessage rt.toEffortWriter)))) {s : RxState}
    (hs : s.rxBufferLen = 0) (objects : Objects) (node : DashboardNode) :
    ∃ s' objects' node',
      run (tableStep nanopbDecode) (s, objects) (commsTask cut.pieces) = some (s', objects') ∧
      run (showStep rt) node shown = some node' ∧
      (∀ t : Target,
        objects'.getObjectValue t.object =
          .fin (arrivedRound (t.value (Bridge.inForce params last))) ∧
        node'.state.data t.key = some (.float (objects'.getObjectValue t.object))) ∧
      ∀ key, (∀ t : Target, key ≠ t.key) → node'.state.data key = node.state.data key := by
  have hshort : ∀ m ∈ micro.map (microMessage rt.toEffortWriter), m.payload.length ≤ 188 := by
    intro m hm
    obtain ⟨f, -, rfl⟩ := List.mem_map.mp hm
    exact microMessage_short _ f
  obtain ⟨s', hrun⟩ := run_commsTask hshort cut hs objects
  rw [foldl_update (carriedBy_micro rt.toEffortWriter micro), foldl_microCommand] at hrun
  obtain ⟨node', hrun', hdata, hother⟩ := run_showStep rt node shown
  refine ⟨s', _, node', hrun, hrun', fun t => ?_, hother⟩
  have hpublished := @lastOn_publishedTargets params _ _ hlast t
  let f : Target × UInt32 := (t, t.bits (Bridge.inForce params last))
  have htable := getObjectValue_last (f := f) (((hmicro t).2).trans hpublished) objects
  have hdashboard := hdata f (((hshown t).2).trans hpublished)
  refine ⟨htable.trans (Target.ofBits_bits hsteer last t), ?_⟩
  rw [htable]
  exact hdashboard

/-- Of two frames on every topic the second may come alone. -/
theorem delivered_last {sent : List (Target × UInt32)} {before frame : Target → Target × UInt32}
    (hsent : ∀ t, onTopic Prod.fst t sent = [before t, frame t])
    (received : List (Target × UInt32))
    (hreceived : ∀ t, onTopic Prod.fst t received = [frame t] ∨
      onTopic Prod.fst t received = [before t, frame t]) : Delivered Prod.fst sent received := by
  intro t
  rw [lastOn, lastOn, hsent]
  rcases hreceived t with h | h <;> rw [h]
  · exact ⟨.cons _ (.refl _), rfl⟩
  · exact ⟨.refl _, rfl⟩

/-- The dashboard gets the steering before the pedals, `kb_coms_micro` the last
publication only, around a heartbeat. -/
theorem dashboard_echoes_commands_once :
    let last := Bridge.inForce defaultParams (some ⟨3, 1⟩)
    let frame := fun t : Target => (t, t.bits last)
    let before := fun t : Target => (t, t.bits Bridge.init)
    ∃ s' objects' node',
      run (tableStep nanopbDecode) (RxState.init, Objects.init)
        (commsTask (Cut.greedy rxChunk (by decide) (sentBytes
          ([some (frame .throttle), some (frame .brake), none, some (frame .steering)].map
            (microMessage nanopbWriter)))).pieces) = some (s', objects') ∧
      run (showStep nanopbTargets) .init
        [before .steering, frame .steering, frame .throttle, frame .brake] = some node' ∧
      (∀ t : Target,
        objects'.getObjectValue t.object = .fin (arrivedRound (t.value last)) ∧
        node'.state.data t.key = some (.float (objects'.getObjectValue t.object))) ∧
      ∀ key, (∀ t : Target, key ≠ t.key) →
        node'.state.data key = DashboardNode.init.state.data key := by
  intro last frame before
  have hpublished : ∀ t, onTopic Prod.fst t
      (publishedTargets defaultParams (published none [.send, .cmd ⟨3, 1⟩, .send])) =
        [before t, frame t] := by
    intro t
    cases t <;> rfl
  have hmicro := delivered_last hpublished
    [frame .throttle, frame .brake, frame .steering] fun t => by
      cases t <;> exact Or.inl rfl
  have hshown := delivered_last hpublished
    [before .steering, frame .steering, frame .throttle, frame .brake] fun t => by
      cases t with
      | steering => exact Or.inr rfl
      | _ => exact Or.inl rfl
  have hsteer : |defaultParams.maxSteer| ≤ 2 ^ (127 : ℤ) := by norm_num [defaultParams, abs_of_pos]
  exact dashboard_echoes_commands nanopbTargets hsteer rfl hmicro hshown _ rfl _ _

end KartStack
