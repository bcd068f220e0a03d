import KartStack.ObjectTable
import Mathlib.Algebra.Order.Field.Rat
import Mathlib.Data.List.Chain
import Mathlib.Tactic.Linarith

/-! # Throttle and brake end to end

`CmdVelBridgeNode` turns a commanded speed into a throttle effort or a brake
effort, never both (`throttle_or_brake`), and publishes the efforts as separate
frames, throttle first.  The ESP32 processes the frames one by one, and the
control task reads both targets whenever it runs — also between the throttle
frame and the brake frame of one publication.

There it sees the new throttle together with the old brake.  So the pedals are
never applied together if and only if the commands in force at two successive
publications never brake first and drive then (`pedals_interlocked_iff`); the
other order is safe because the throttle frame comes first.
-/
namespace KartStack
open KmComs

/-! ## The bridge -/

/-- The fields of a `Twist` the bridge reads: `linear.x` and `angular.z`, finite. -/
structure Twist where
  speed : ℚ
  steer : ℚ
  deriving DecidableEq

/-- The parameters of `CmdVelBridgeNode`. -/
structure BridgeParams where
  maxSpeed : ℚ
  maxSteer : ℚ
  maxSpeed_pos : 0 < maxSpeed

/-- The efforts a `CmdVelBridgeNode` holds. -/
structure Bridge where
  throttleEffort : ℚ
  brakeEffort : ℚ
  steerRad : ℚ
  deriving DecidableEq

namespace Bridge

/-- The efforts before the first command. -/
def init : Bridge := ⟨0, 0, 0⟩

/-- `_on_cmd`. -/
def onCmd (params : BridgeParams) (msg : Twist) : Bridge :=
  let steerRad := max (-params.maxSteer) (min params.maxSteer msg.steer)
  if msg.speed ≥ 0 then ⟨min 1 (msg.speed / params.maxSpeed), 0, steerRad⟩
  else ⟨0, min 1 (-msg.speed / params.maxSpeed), steerRad⟩

/-- The efforts in force: those of the last command. -/
def inForce (params : BridgeParams) : Option Twist → Bridge
  | none => init
  | some msg => onCmd params msg

end Bridge

/-- The protobuf encoders of the bridge and the decoders of the ESP32. -/
structure EffortCodec where
  encodeThrottle : ℚ → List UInt8
  encodeBraking : ℚ → List UInt8
  encodeSteering : ℚ → List UInt8
  pb : PbDecode
  /-- The effort the ESP32 decodes when the exact quotient is given: the roundings
  of the division and of the conversion to a 32-bit float. -/
  round : ℚ → ℚ

/-- What is known of the codec: efforts fit a frame and arrive, rounded, and no
effort arrives as none. -/
structure EffortCodec.Faithful (codec : EffortCodec) : Prop where
  throttle_short : ∀ x, 0 ≤ x → x ≤ 1 → (codec.encodeThrottle x).length ≤ 251
  braking_short : ∀ x, 0 ≤ x → x ≤ 1 → (codec.encodeBraking x).length ≤ 251
  throttle : ∀ x, 0 ≤ x → x ≤ 1 →
    codec.pb.targThrottle (codec.encodeThrottle x) = some (.fin (codec.round x))
  braking : ∀ x, 0 ≤ x → x ≤ 1 →
    codec.pb.targBraking (codec.encodeBraking x) = some (.fin (codec.round x))
  round_zero : codec.round 0 = 0

/-- `_send_frames`: the frames in the order they are published. -/
def Bridge.sendFrames (codec : EffortCodec) (b : Bridge) : List (Frame UInt8) :=
  [⟨orinTargThrottle, codec.encodeThrottle b.throttleEffort⟩,
    ⟨orinTargBraking, codec.encodeBraking b.brakeEffort⟩,
    ⟨orinTargSteering, codec.encodeSteering b.steerRad⟩]

/-- Efforts as `_on_cmd` computes them: within bounds, and one of them is zero. -/
structure Bridge.Exclusive (b : Bridge) : Prop where
  throttle_nonneg : 0 ≤ b.throttleEffort
  throttle_le : b.throttleEffort ≤ 1
  brake_nonneg : 0 ≤ b.brakeEffort
  brake_le : b.brakeEffort ≤ 1
  throttle_or_brake : b.throttleEffort = 0 ∨ b.brakeEffort = 0

/-- **Inside the bridge the pedals exclude each other.** -/
theorem Bridge.inForce_exclusive (params : BridgeParams) (cmd : Option Twist) :
    (inForce params cmd).Exclusive := by
  have hpos := params.maxSpeed_pos
  cases cmd with
  | none => exact ⟨le_refl _, zero_le_one, le_refl _, zero_le_one, Or.inl rfl⟩
  | some msg =>
    unfold inForce onCmd
    dsimp only
    split
    · rename_i h
      exact ⟨le_min zero_le_one (div_nonneg h hpos.le), min_le_left _ _, le_refl _, zero_le_one,
        Or.inr rfl⟩
    · rename_i h
      exact ⟨le_refl _, zero_le_one, le_min zero_le_one (div_nonneg (by linarith) hpos.le),
        min_le_left _ _, Or.inl rfl⟩

/-! ## The link and the control task -/

/-- What the bridge does, as its node sees it. -/
inductive BridgeEvent where
  | cmd (msg : Twist)
  | send

/-- What happens anywhere on the way to the pedals. -/
inductive PedalAct where
  /-- `_on_cmd` or `_send_frames` runs. -/
  | bridge (event : BridgeEvent)
  /-- The ESP32 hands the next frame, if any, to `KM_COMS_ProccessPayload`. -/
  | process
  /-- `control_task` runs. -/
  | tick

/-- The bridge, the frames on the way in the order published, and the object
table. -/
structure Pedals where
  bridge : Bridge
  frames : List (Frame UInt8)
  objects : Objects

/-- Nothing commanded, nothing sent. -/
def Pedals.init : Pedals := ⟨.init, [], .init⟩

/-- The values `control_task` hands to `KM_ACT_SetOutput` for the throttle and for
the brake. -/
def pedalOutputs (objects : Objects) : CFloat × CFloat :=
  (objects.getObjectValue .targetThrottle, objects.getObjectValue .targetBraking)

section Run
variable (params : BridgeParams) (codec : EffortCodec)

/-- One act, and the outputs of the control task if it ran. -/
def pedalStep (s : Pedals) : PedalAct → Pedals × List (CFloat × CFloat)
  | .bridge (.cmd msg) => ({ s with bridge := .onCmd params msg }, [])
  | .bridge .send => ({ s with frames := s.frames ++ s.bridge.sendFrames codec }, [])
  | .process =>
    match s.frames with
    | [] => (s, [])
    | f :: rest =>
      ({ s with frames := rest, objects := proccessPayload codec.pb s.objects (.ofFrame f) }, [])
  | .tick => (s, [pedalOutputs s.objects])

/-- The outputs of the control task during a run. -/
def pedalRun : Pedals → List PedalAct → List (CFloat × CFloat)
  | _, [] => []
  | s, act :: acts => (pedalStep params codec s act).2 ++ pedalRun (pedalStep params codec s act).1 acts

end Run

/-- The bridge's part of a run. -/
def PedalAct.event? : PedalAct → Option BridgeEvent
  | .bridge event => some event
  | _ => none

/-- Both pedals are applied. -/
def BothApplied (outputs : CFloat × CFloat) : Prop := 0 < outputs.1 ∧ 0 < outputs.2

/-- However the frames are processed and whenever the control task runs, it never
applies both pedals. -/
def PedalsExclude (params : BridgeParams) (codec : EffortCodec) (events : List BridgeEvent) : Prop :=
  ∀ acts : List PedalAct, acts.filterMap PedalAct.event? = events →
    ∀ outputs ∈ pedalRun params codec .init acts, ¬ BothApplied outputs

/-! ## When the pedals exclude each other -/

/-- The commands in force at the publications. -/
def published : Option Twist → List BridgeEvent → List (Option Twist)
  | _, [] => []
  | _, .cmd msg :: events => published (some msg) events
  | cmd, .send :: events => cmd :: published cmd events

/-- The command brakes, and enough of it arrives. -/
def Brakes (params : BridgeParams) (codec : EffortCodec) (cmd : Option Twist) : Prop :=
  ∃ msg ∈ cmd, msg.speed < 0 ∧ 0 < codec.round (min 1 (-msg.speed / params.maxSpeed))

/-- The command drives, and enough of it arrives. -/
def Drives (params : BridgeParams) (codec : EffortCodec) (cmd : Option Twist) : Prop :=
  ∃ msg ∈ cmd, 0 ≤ msg.speed ∧ 0 < codec.round (min 1 (msg.speed / params.maxSpeed))

/-- No publication of a braking command is followed by one of a driving command. -/
def NeverBrakeThenDrive (params : BridgeParams) (codec : EffortCodec)
    (events : List BridgeEvent) : Prop :=
  (published none events).IsChain fun cmd cmd' => ¬ (Brakes params codec cmd ∧ Drives params codec cmd')

section Iff
variable {params : BridgeParams} {codec : EffortCodec} (hc : codec.Faithful)
include hc

theorem brakes_iff (cmd : Option Twist) :
    Brakes params codec cmd ↔ 0 < codec.round (Bridge.inForce params cmd).brakeEffort := by
  cases cmd with
  | none => simp [Brakes, Bridge.inForce, Bridge.init, hc.round_zero]
  | some msg =>
    by_cases h : msg.speed ≥ 0
    · simp [Brakes, Bridge.inForce, Bridge.onCmd, h, not_lt.mpr h, hc.round_zero]
    · simp [Brakes, Bridge.inForce, Bridge.onCmd, h, not_le.mp h]

theorem drives_iff (cmd : Option Twist) :
    Drives params codec cmd ↔ 0 < codec.round (Bridge.inForce params cmd).throttleEffort := by
  cases cmd with
  | none => simp [Drives, Bridge.inForce, Bridge.init, hc.round_zero]
  | some msg =>
    by_cases h : msg.speed ≥ 0
    · simp [Drives, Bridge.inForce, Bridge.onCmd, h]
    · simp [Drives, Bridge.inForce, Bridge.onCmd, h, hc.round_zero]

omit hc in
/-- The effort as it arrives. -/
def EffortCodec.arrived (codec : EffortCodec) (x : ℚ) : CFloat := .fin (codec.round x)

theorem process_throttle {b : Bridge} (hb : b.Exclusive) (objects : Objects) :
    pedalOutputs (proccessPayload codec.pb objects
        (.ofFrame ⟨orinTargThrottle, codec.encodeThrottle b.throttleEffort⟩)) =
      (codec.arrived b.throttleEffort, objects.getObjectValue .targetBraking) := by
  rw [proccessPayload_throttle _ _ rfl,
    Msg.ofFrame_stream (hc.throttle_short _ hb.throttle_nonneg hb.throttle_le),
    hc.throttle _ hb.throttle_nonneg hb.throttle_le]
  simp [pedalOutputs, setDecoded, EffortCodec.arrived]

theorem process_brake {b : Bridge} (hb : b.Exclusive) (objects : Objects) :
    pedalOutputs (proccessPayload codec.pb objects
        (.ofFrame ⟨orinTargBraking, codec.encodeBraking b.brakeEffort⟩)) =
      (objects.getObjectValue .targetThrottle, codec.arrived b.brakeEffort) := by
  rw [proccessPayload_braking _ _ rfl,
    Msg.ofFrame_stream (hc.braking_short _ hb.brake_nonneg hb.brake_le),
    hc.braking _ hb.brake_nonneg hb.brake_le]
  simp [pedalOutputs, setDecoded, EffortCodec.arrived]

omit hc in
theorem process_steering (x : ℚ) (objects : Objects) :
    pedalOutputs (proccessPayload codec.pb objects
        (.ofFrame ⟨orinTargSteering, codec.encodeSteering x⟩)) = pedalOutputs objects := by
  rw [proccessPayload_steering _ _ rfl]
  unfold setDecoded
  split
  · simp [pedalOutputs]
  · rfl

/-- A whole publication sets both pedals. -/
theorem process_publication {b : Bridge} (hb : b.Exclusive) (objects : Objects) :
    pedalOutputs ((b.sendFrames codec).foldl (fun o f => proccessPayload codec.pb o (.ofFrame f))
      objects) = (codec.arrived b.throttleEffort, codec.arrived b.brakeEffort) := by
  simp only [Bridge.sendFrames, List.foldl_cons, List.foldl_nil]
  rw [process_steering, process_brake hc hb]
  exact Prod.ext (congrArg Prod.fst (process_throttle hc hb objects) :) rfl

/-- The publication of `prev` is the last one to have set both pedals, and those of
`todo` are still on the way, the first perhaps in part. -/
inductive Tracks (params : BridgeParams) (codec : EffortCodec) (objects : Objects) :
    List (Frame UInt8) → Option Twist → List (Option Twist) → Prop
  | between (prev : Option Twist) (todo : List (Option Twist)) :
      pedalOutputs objects = (codec.arrived (Bridge.inForce params prev).throttleEffort,
        codec.arrived (Bridge.inForce params prev).brakeEffort) →
      Tracks params codec objects
        (todo.flatMap fun c => (Bridge.inForce params c).sendFrames codec) prev todo
  | throttleSet (prev cmd : Option Twist) (todo : List (Option Twist)) :
      pedalOutputs objects = (codec.arrived (Bridge.inForce params cmd).throttleEffort,
        codec.arrived (Bridge.inForce params prev).brakeEffort) →
      Tracks params codec objects
        (((Bridge.inForce params cmd).sendFrames codec).drop 1 ++
          todo.flatMap fun c => (Bridge.inForce params c).sendFrames codec) prev (cmd :: todo)
  | brakeSet (prev cmd : Option Twist) (todo : List (Option Twist)) :
      pedalOutputs objects = (codec.arrived (Bridge.inForce params cmd).throttleEffort,
        codec.arrived (Bridge.inForce params cmd).brakeEffort) →
      Tracks params codec objects
        (((Bridge.inForce params cmd).sendFrames codec).drop 2 ++
          todo.flatMap fun c => (Bridge.inForce params c).sendFrames codec) prev (cmd :: todo)

omit hc in
/-- Another publication goes behind the ones on the way. -/
theorem Tracks.send {objects : Objects} {frames : List (Frame UInt8)} {prev : Option Twist}
    {todo : List (Option Twist)} (h : Tracks params codec objects frames prev todo)
    (cmd : Option Twist) :
    Tracks params codec objects (frames ++ (Bridge.inForce params cmd).sendFrames codec) prev
      (todo ++ [cmd]) := by
  cases h with
  | between _ _ hout =>
    have := Tracks.between prev (todo ++ [cmd]) hout
    simpa using this
  | throttleSet _ next todo hout =>
    have := Tracks.throttleSet prev next (todo ++ [cmd]) hout
    simpa using this
  | brakeSet _ next todo hout =>
    have := Tracks.brakeSet prev next (todo ++ [cmd]) hout
    simpa using this

/-- Processing a frame gets one step further. -/
theorem Tracks.process {objects : Objects} {f : Frame UInt8} {frames : List (Frame UInt8)}
    {prev : Option Twist} {todo : List (Option Twist)}
    (h : Tracks params codec objects (f :: frames) prev todo) :
    Tracks params codec (proccessPayload codec.pb objects (.ofFrame f)) frames prev todo ∨
      ∃ cmd rest, todo = cmd :: rest ∧
        Tracks params codec (proccessPayload codec.pb objects (.ofFrame f)) frames cmd rest := by
  generalize hframes : f :: frames = all at h
  cases h with
  | between _ _ hout =>
    cases todo with
    | nil => cases hframes
    | cons cmd rest =>
      obtain ⟨rfl, rfl⟩ := List.cons.inj hframes
      left
      refine .throttleSet prev cmd rest ?_
      have hbrake := congrArg Prod.snd hout
      rw [process_throttle hc (Bridge.inForce_exclusive params cmd)]
      exact Prod.ext rfl hbrake
  | throttleSet _ cmd todo hout =>
    obtain ⟨rfl, rfl⟩ := List.cons.inj hframes
    left
    refine .brakeSet prev cmd todo ?_
    have hthrottle := congrArg Prod.fst hout
    rw [process_brake hc (Bridge.inForce_exclusive params cmd)]
    exact Prod.ext hthrottle rfl
  | brakeSet _ cmd todo hout =>
    obtain ⟨rfl, rfl⟩ := List.cons.inj hframes
    right
    refine ⟨cmd, todo, rfl, .between cmd todo ?_⟩
    rw [process_steering]
    exact hout

/-- The pedals in force exclude each other. -/
theorem not_both_inForce (cmd : Option Twist) :
    ¬ BothApplied (codec.arrived (Bridge.inForce params cmd).throttleEffort,
      codec.arrived (Bridge.inForce params cmd).brakeEffort) := by
  rintro ⟨h₁, h₂⟩
  have h0 : codec.arrived 0 = 0 := congrArg CFloat.fin hc.round_zero
  rcases (Bridge.inForce_exclusive params cmd).throttle_or_brake with h | h
  · rw [h, h0] at h₁
    exact CFloat.not_zero_lt_zero h₁
  · rw [h, h0] at h₂
    exact CFloat.not_zero_lt_zero h₂

/-- A new throttle meets an old brake exactly when one drives after the other
brakes. -/
theorem both_applied_iff (prev cmd : Option Twist) :
    BothApplied (codec.arrived (Bridge.inForce params cmd).throttleEffort,
      codec.arrived (Bridge.inForce params prev).brakeEffort) ↔
      Brakes params codec prev ∧ Drives params codec cmd := by
  rw [brakes_iff hc, drives_iff hc, BothApplied, and_comm]
  exact and_congr CFloat.zero_lt_fin CFloat.zero_lt_fin

/-- The control task sees the pedals of one publication, or a new throttle with
the brake before it. -/
theorem Tracks.not_both {objects : Objects} {frames : List (Frame UInt8)} {prev : Option Twist}
    {todo later : List (Option Twist)} (h : Tracks params codec objects frames prev todo)
    (hsafe : (prev :: (todo ++ later)).IsChain
      fun c c' => ¬ (Brakes params codec c ∧ Drives params codec c')) :
    ¬ BothApplied (pedalOutputs objects) := by
  cases h with
  | between _ _ hout =>
    rw [hout]
    exact not_both_inForce hc prev
  | throttleSet _ cmd todo hout =>
    rw [hout, both_applied_iff hc]
    exact (List.isChain_cons_cons.mp hsafe).1
  | brakeSet _ cmd todo hout =>
    rw [hout]
    exact not_both_inForce hc cmd

/-- The pedals exclude each other during any run of a safe sequence. -/
theorem pedalRun_not_both {acts : List PedalAct} {s : Pedals} {cmd prev : Option Twist}
    {todo : List (Option Twist)} (hb : s.bridge = Bridge.inForce params cmd)
    (htrack : Tracks params codec s.objects s.frames prev todo)
    (hsafe : (prev :: (todo ++ published cmd (acts.filterMap PedalAct.event?))).IsChain
      fun c c' => ¬ (Brakes params codec c ∧ Drives params codec c')) :
    ∀ outputs ∈ pedalRun params codec s acts, ¬ BothApplied outputs := by
  induction acts generalizing s cmd prev todo with
  | nil => exact List.forall_mem_nil _
  | cons act acts ih =>
    intro outputs hout
    rw [pedalRun] at hout
    cases act with
    | bridge event =>
      cases event with
      | cmd msg =>
        have hb' : Bridge.onCmd params msg = Bridge.inForce params (some msg) := rfl
        exact ih (s := { s with bridge := .onCmd params msg }) hb' htrack hsafe outputs hout
      | send =>
        have htrack' := htrack.send cmd
        rw [← hb] at htrack'
        have hsafe' : (prev :: (todo ++ cmd :: published cmd
            (acts.filterMap PedalAct.event?))).IsChain _ := hsafe
        rw [List.append_cons] at hsafe'
        exact ih (s := { s with frames := s.frames ++ s.bridge.sendFrames codec }) hb htrack' hsafe'
          outputs hout
    | process =>
      obtain ⟨bridge, frames, objects⟩ := s
      cases frames with
      | nil => exact ih hb htrack hsafe outputs hout
      | cons f frames =>
        rcases htrack.process hc with h | ⟨next, rest, rfl, h⟩
        · exact ih (s := ⟨bridge, frames, _⟩) hb h hsafe outputs hout
        · exact ih (s := ⟨bridge, frames, _⟩) hb h hsafe.tail outputs hout
    | tick =>
      rcases List.mem_append.mp hout with h | h
      · rw [List.mem_singleton.mp h]
        exact htrack.not_both hc hsafe
      · exact ih hb htrack hsafe outputs h

/-- A publication whose throttle frame is processed when the control task runs. -/
theorem pedalRun_after_throttle {s : Pedals} {cmd prev : Option Twist}
    (hb : s.bridge = Bridge.inForce params cmd)
    (htrack : Tracks params codec s.objects s.frames prev []) (acts : List PedalAct) :
    (codec.arrived (Bridge.inForce params cmd).throttleEffort,
        codec.arrived (Bridge.inForce params prev).brakeEffort) ∈
      pedalRun params codec s (.bridge .send :: .process :: .tick :: acts) := by
  obtain ⟨bridge, frames, objects⟩ := s
  obtain rfl : bridge = _ := hb
  cases htrack with
  | between _ _ hout =>
    have hbrake := congrArg Prod.snd hout
    have hout' := process_throttle hc (Bridge.inForce_exclusive params cmd) objects
    rw [show objects.getObjectValue .targetBraking = _ from hbrake] at hout'
    rw [← hout']
    exact List.mem_cons_self ..

/-- A publication processed as a whole. -/
theorem pedalRun_after_publication {s : Pedals} {cmd prev : Option Twist}
    (hb : s.bridge = Bridge.inForce params cmd)
    (htrack : Tracks params codec s.objects s.frames prev []) :
    ∃ s', s'.bridge = Bridge.inForce params cmd ∧ Tracks params codec s'.objects s'.frames cmd [] ∧
      ∀ acts, pedalRun params codec s
        (.bridge .send :: .process :: .process :: .process :: acts) =
          pedalRun params codec s' acts := by
  obtain ⟨bridge, frames, objects⟩ := s
  obtain rfl : bridge = _ := hb
  cases htrack with
  | between _ _ hout =>
    exact ⟨⟨_, [], _⟩, rfl,
      .between cmd [] (process_publication hc (Bridge.inForce_exclusive params cmd) objects),
      fun acts => rfl⟩

omit hc in
theorem filterMap_bridge (events : List BridgeEvent) :
    (events.map PedalAct.bridge).filterMap PedalAct.event? = events := by
  induction events with
  | nil => rfl
  | cons event events ih => simp [PedalAct.event?, ih]

/-- A sequence during which the pedals exclude each other is safe. -/
theorem isChain_of_pedalRun {events : List BridgeEvent} {s : Pedals} {cmd prev : Option Twist}
    (hb : s.bridge = Bridge.inForce params cmd)
    (htrack : Tracks params codec s.objects s.frames prev [])
    (h : ∀ acts : List PedalAct, acts.filterMap PedalAct.event? = events →
      ∀ outputs ∈ pedalRun params codec s acts, ¬ BothApplied outputs) :
    (prev :: published cmd events).IsChain
      fun c c' => ¬ (Brakes params codec c ∧ Drives params codec c') := by
  induction events generalizing s cmd prev with
  | nil => exact .singleton prev
  | cons event events ih =>
    cases event with
    | cmd msg =>
      have hb' : Bridge.onCmd params msg = Bridge.inForce params (some msg) := rfl
      apply ih (s := { s with bridge := .onCmd params msg }) hb' htrack
      intro acts hacts outputs hout
      exact h (.bridge (.cmd msg) :: acts) (by rw [← hacts]; rfl) outputs hout
    | send =>
      refine List.isChain_cons_cons.mpr ⟨?_, ?_⟩
      · rw [← both_applied_iff hc]
        refine h (.bridge .send :: .process :: .tick :: events.map .bridge) ?_ _
          (pedalRun_after_throttle hc hb htrack _)
        exact congrArg (BridgeEvent.send :: ·) (filterMap_bridge events)
      · obtain ⟨s', hb', htrack', hrun⟩ := pedalRun_after_publication hc hb htrack
        apply ih hb' htrack'
        intro acts hacts outputs hout
        rw [← hrun] at hout
        exact h (.bridge .send :: .process :: .process :: .process :: acts)
          (congrArg (BridgeEvent.send :: ·) hacts) outputs hout

/-- **The pedals exclude each other end to end** if and only if the bridge never
publishes a driving command right after a braking one. -/
theorem pedals_interlocked_iff (events : List BridgeEvent) :
    PedalsExclude params codec events ↔ NeverBrakeThenDrive params codec events := by
  have hb : Bridge.init = Bridge.inForce params none := rfl
  have hinit : Tracks params codec Objects.init [] none [] := by
    refine .between none [] ?_
    have h0 : codec.arrived 0 = 0 := congrArg CFloat.fin hc.round_zero
    show (0, 0) = (codec.arrived 0, codec.arrived 0)
    rw [h0]
  constructor
  · intro h
    exact (isChain_of_pedalRun hc (s := .init) hb hinit h).tail
  · intro h acts hacts
    apply pedalRun_not_both hc (s := .init) hb hinit
    rw [hacts, List.nil_append]
    cases hp : published none events with
    | nil => exact .singleton none
    | cons cmd rest =>
      rw [NeverBrakeThenDrive, hp] at h
      refine List.isChain_cons_cons.mpr ⟨?_, h⟩
      rintro ⟨⟨_, hnone, -⟩, -⟩
      cases hnone

end Iff

/-! ## Full throttle and full brake -/

/-- Efforts that are sent as the protobuf message with the float 1, or, like zero,
as the empty message. -/
def fullEffort : EffortCodec where
  encodeThrottle x := if x = 1 then [0x0D, 0x00, 0x00, 0x80, 0x3F] else []
  encodeBraking x := if x = 1 then [0x0D, 0x00, 0x00, 0x80, 0x3F] else []
  encodeSteering _ := []
  pb :=
    { targThrottle := fun bytes => some (if bytes = [] then 0 else 1)
      targBraking := fun bytes => some (if bytes = [] then 0 else 1)
      targSteering := fun _ => some 0
      orinComplete := fun _ => none }
  round x := if x = 1 then 1 else 0

theorem fullEffort_faithful : fullEffort.Faithful := by
  have hshort : ∀ x : ℚ,
      (if x = 1 then [0x0D, 0x00, 0x00, 0x80, 0x3F] else [] : List UInt8).length ≤ 251 := by
    intro x
    split <;> decide
  have hdecode : ∀ x : ℚ,
      some (if (if x = 1 then [0x0D, 0x00, 0x00, 0x80, 0x3F] else [] : List UInt8) = [] then
        (0 : CFloat) else 1) = some (.fin (if x = 1 then 1 else 0)) := by
    intro x
    split <;> rfl
  refine ⟨fun x _ _ => hshort x, fun x _ _ => hshort x, fun x _ _ => hdecode x,
    fun x _ _ => hdecode x, ?_⟩
  show (if (0 : ℚ) = 1 then (1 : ℚ) else 0) = 0
  norm_num

/-- The default parameters of the node. -/
def defaultParams : BridgeParams := ⟨5, 1 / 2, by norm_num⟩

/-- From full throttle to full brake the pedals exclude each other. -/
theorem drive_then_brake :
    PedalsExclude defaultParams fullEffort [.cmd ⟨5, 0⟩, .send, .cmd ⟨-5, 0⟩, .send] := by
  apply (pedals_interlocked_iff fullEffort_faithful _).mpr
  refine List.isChain_cons_cons.mpr ⟨?_, .singleton _⟩
  rintro ⟨⟨msg, hmsg, hneg, -⟩, -⟩
  obtain rfl := Option.some.inj hmsg
  exact absurd hneg (by norm_num)

/-- From full brake to full throttle they do not: the control task may run when
only the new throttle has been processed. -/
theorem brake_then_drive :
    ¬ ∀ (params : BridgeParams) (codec : EffortCodec), codec.Faithful →
      ∀ events, PedalsExclude params codec events := by
  intro h
  let acts : List PedalAct := [.bridge (.cmd ⟨-5, 0⟩), .bridge .send, .process, .process, .process,
    .bridge (.cmd ⟨5, 0⟩), .bridge .send, .process, .tick]
  have hrun : pedalRun defaultParams fullEffort .init acts = [(1, 1)] := by
    decide +kernel
  refine h defaultParams fullEffort fullEffort_faithful _ acts rfl (1, 1) ?_ ⟨by decide, by decide⟩
  rw [hrun]
  exact List.mem_cons_self ..

end KartStack
