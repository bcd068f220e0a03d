import KartStack.CommandLink
import KartStack.FloatBits
import KartStack.PedalInterlock

/-! # From a `Twist` to the object table

The bridge turns a `Twist` into efforts, the protobuf runtime of the Orin writes them as
`float`s, and the ESP32 reads these with nanopb.  Of the runtime only that its bytes
say the value is used (`EffortWriter`).

So what was assumed of the codec where the pedals were shown to exclude each other
holds (`nanopb_faithful`).  An effort arrives as nothing exactly up to `leastEffort`,
and whatever was published before, after a publication the object table has the
efforts in force, to within 2⁻²⁴ (`bridge_reaches_table`).
-/
namespace KartStack
open KmComs Nanopb KbDashboard BinaryFloats

/-! ## The runtime -/

/-- `encode_throttle`, `encode_braking` and `encode_steering` of `protocol.py`, on the 32
bits of the value. -/
structure EffortWriter where
  throttle : UInt32 → List UInt8
  braking : UInt32 → List UInt8
  steering : UInt32 → List UInt8
  throttle_says : ∀ bits, Command.Says kartTargThrottle throttleEffort bits (throttle bits)
  braking_says : ∀ bits, Command.Says kartTargBraking brakingEffort bits (braking bits)
  steering_says : ∀ bits, Command.Says kartTargSteering steeringAngleRad bits (steering bits)
  throttle_short : ∀ bits, (throttle bits).length ≤ 188
  braking_short : ∀ bits, (braking bits).length ≤ 188
  steering_short : ∀ bits, (steering bits).length ≤ 188

/-- What nanopb writes; the three descriptors are the same. -/
def floatBytes (bits : UInt32) : List UInt8 := (targThrottleLayout.memory ⟨bits⟩).bytes

theorem floatBytes_says (bits : UInt32) :
    Command.Says kartTargThrottle throttleEffort bits (floatBytes bits) :=
  ⟨_, payload_bytes _, by rw [merge_zero_records]; rfl⟩

theorem floatBytes_short (bits : UInt32) : (floatBytes bits).length ≤ 188 := by
  have hmem : (kartTargThrottle, 5) ∈ kartMessages := by simp [kartMessages]
  have hle := length_bytes_le (targThrottleLayout.memory ⟨bits⟩)
  rw [totalSize_kartMessages hmem] at hle
  exact hle.trans (by decide)

/-- nanopb as the runtime. -/
def nanopbWriter : EffortWriter where
  throttle := floatBytes
  braking := floatBytes
  steering := floatBytes
  throttle_says := floatBytes_says
  braking_says := floatBytes_says
  steering_says := floatBytes_says
  throttle_short := floatBytes_short
  braking_short := floatBytes_short
  steering_short := floatBytes_short

/-! ## The codec -/

/-- A `double` as it is read on the ESP32. -/
def arrivedRound (x : ℚ) : ℚ := single.round (double.round x)

variable (w : EffortWriter)

/-- The runtime of the Orin and nanopb.  A quotient is rounded to a `double`, and as a
`float` once more. -/
def EffortWriter.codec : EffortCodec where
  encodeThrottle x := w.throttle (toBits (double.round x))
  encodeBraking x := w.braking (toBits (double.round x))
  encodeSteering x := w.steering (toBits (double.round x))
  pb := nanopbDecode
  round := arrivedRound

theorem arrivedRound_zero : arrivedRound 0 = 0 := by
  rw [arrivedRound, Format.round_zero, Format.round_zero]

theorem arrivedRound_mono {x x' : ℚ} (h : x ≤ x') : arrivedRound x ≤ arrivedRound x' :=
  Format.round_mono (Format.round_mono h)

/-- An effort stays one. -/
theorem arrivedRound_nonneg {x : ℚ} (h : 0 ≤ x) : 0 ≤ arrivedRound x := by
  have hmono := arrivedRound_mono h
  rwa [arrivedRound_zero] at hmono

/-- It arrives nearly as it was. -/
theorem abs_sub_arrivedRound_le {x : ℚ} (h : |x| ≤ 1) :
    |x - arrivedRound x| ≤ 2 ^ (-24 : ℤ) + 2 ^ (-53 : ℤ) := by
  have hdouble : |x - double.round x| ≤ 2 ^ (-53 : ℤ) := by
    have hle := double.abs_sub_round_le_of_abs_le h (by decide)
    norm_num [double] at hle ⊢
    exact hle
  have habs : |double.round x| ≤ 1 := by
    rw [abs_le] at h ⊢
    have hlo := double.round_mono h.1
    have hhi := double.round_mono h.2
    rw [double.round_one (by decide)] at hhi
    rw [double.round_neg, double.round_one (by decide)] at hlo
    exact ⟨hlo, hhi⟩
  have hsingle : |double.round x - arrivedRound x| ≤ 2 ^ (-24 : ℤ) := by
    have hle := single.abs_sub_round_le_of_abs_le habs (by decide)
    norm_num [single, arrivedRound] at hle ⊢
    exact hle
  have htriangle := abs_sub_le x (double.round x) (arrivedRound x)
  linarith

theorem arrivedRound_neg (x : ℚ) : arrivedRound (-x) = -arrivedRound x := by
  rw [arrivedRound, Format.round_neg, Format.round_neg, arrivedRound]

theorem ofBits_arrived {x : ℚ} (h : |x| ≤ 2 ^ (127 : ℤ)) :
    ofBits (toBits (double.round x)) = .fin (arrivedRound x) := by
  refine ofBits_toBits ?_
  change |arrivedRound x| < 2 ^ 128
  have hlargest : arrivedRound (2 ^ (127 : ℤ)) = 2 ^ (127 : ℤ) := by
    rw [arrivedRound, Format.round_of_mem (Format.mem_two_zpow (by decide)),
      Format.round_of_mem (Format.mem_two_zpow (by decide))]
  rw [abs_le] at h
  have hlo := arrivedRound_mono h.1
  have hhi := arrivedRound_mono h.2
  rw [arrivedRound_neg, hlargest] at hlo
  rw [hlargest] at hhi
  exact (abs_le.mpr ⟨hlo, hhi⟩).trans_lt (by norm_num)

theorem ofBits_effort {x : ℚ} (h0 : 0 ≤ x) (h1 : x ≤ 1) :
    ofBits (toBits (double.round x)) = .fin (arrivedRound x) := by
  refine ofBits_arrived ?_
  rw [abs_of_nonneg h0]
  exact h1.trans (by norm_num)

/-- **What was assumed of the codec holds.** -/
theorem nanopb_faithful : w.codec.Faithful where
  throttle_short x _ _ := (w.throttle_short _).trans (by decide)
  braking_short x _ _ := (w.braking_short _).trans (by decide)
  throttle x h0 h1 := by
    have hdecode := decodeFloat_of_says (w.throttle_says (toBits (double.round x)))
    rw [ofBits_effort h0 h1] at hdecode
    exact hdecode
  braking x h0 h1 := by
    have hdecode := decodeFloat_of_says (w.braking_says (toBits (double.round x)))
    rw [ofBits_effort h0 h1] at hdecode
    exact hdecode
  round_zero := arrivedRound_zero

/-! ## The pedals -/

/-- The largest effort that arrives as nothing: half of the least `float`, and half of
the last bit a `double` of that size has. -/
def leastEffort : ℚ := 2 ^ (-150 : ℤ) + 2 ^ (-203 : ℤ)

theorem double_lt_round_iff (x : ℚ) : 2 ^ (-150 : ℤ) < double.round x ↔ leastEffort < x := by
  -- the next `double` above 2⁻¹⁵⁰, and the tie below it
  have hnext : double.Mem (2 ^ (-150 : ℤ) + 2 ^ (-202 : ℤ)) :=
    ⟨2 ^ 52 + 1, -202, by decide, by decide, by norm_num⟩
  have hmid : ((2 : ℚ) ^ (-150 : ℤ) + (2 ^ (-150 : ℤ) + 2 ^ (-202 : ℤ))) / 2 = leastEffort := by
    norm_num [leastEffort]
  have hexp : double.exponent leastEffort = -202 :=
    Format.exponent_of_pow_le (l := -150) (by norm_num [leastEffort]) (by norm_num [leastEffort])
  have htie : double.round leastEffort = 2 ^ (-150 : ℤ) := by
    rw [Format.round_tie (k := 2 ^ 51) (by rw [hexp]; norm_num [leastEffort]), hexp]
    norm_num
  have hlt : (2 : ℚ) ^ (-150 : ℤ) < 2 ^ (-150 : ℤ) + 2 ^ (-202 : ℤ) := by norm_num
  have hiff := Format.lt_round_iff (x := x) hnext hlt (by rw [hmid, htie])
  rwa [hmid] at hiff

theorem single_pos_iff (x : ℚ) : 0 < single.round x ↔ 2 ^ (-150 : ℤ) < x := by
  have hnext : single.Mem (2 ^ (-149 : ℤ)) := Format.mem_two_zpow (le_refl _)
  have hmid : ((0 : ℚ) + 2 ^ (-149 : ℤ)) / 2 = 2 ^ (-150 : ℤ) := by norm_num
  have hexp : single.exponent (2 ^ (-150 : ℤ)) = -149 :=
    Format.exponent_of_pow_le (l := -150) (le_refl _) (by norm_num)
  have htie : single.round (2 ^ (-150 : ℤ)) = 0 := by
    rw [Format.round_tie (k := 0) (by rw [hexp]; norm_num)]
    norm_num
  have hlt : (0 : ℚ) < 2 ^ (-149 : ℤ) := Format.two_zpow_pos _
  have hiff := Format.lt_round_iff (x := x) hnext hlt (by rw [hmid, htie])
  rwa [hmid] at hiff

theorem arrivedRound_pos_iff (x : ℚ) : 0 < arrivedRound x ↔ leastEffort < x :=
  (single_pos_iff _).trans (double_lt_round_iff x)

/-- The command brakes with more than `leastEffort`. -/
def BrakesEnough (params : BridgeParams) (cmd : Option Twist) : Prop :=
  ∃ msg ∈ cmd, msg.speed < 0 ∧ leastEffort < min 1 (-msg.speed / params.maxSpeed)

/-- It drives with more than that. -/
def DrivesEnough (params : BridgeParams) (cmd : Option Twist) : Prop :=
  ∃ msg ∈ cmd, 0 ≤ msg.speed ∧ leastEffort < min 1 (msg.speed / params.maxSpeed)

theorem brakes_codec_iff (params : BridgeParams) (cmd : Option Twist) :
    Brakes params w.codec cmd ↔ BrakesEnough params cmd := by
  refine exists_congr fun msg => and_congr_right fun _ => and_congr_right fun _ => ?_
  exact arrivedRound_pos_iff _

theorem drives_codec_iff (params : BridgeParams) (cmd : Option Twist) :
    Drives params w.codec cmd ↔ DrivesEnough params cmd := by
  refine exists_congr fun msg => and_congr_right fun _ => and_congr_right fun _ => ?_
  exact arrivedRound_pos_iff _

/-- **When the pedals exclude each other**, with nothing assumed of the codec: the bridge
never publishes a command that drives with more than `leastEffort` right after one that
brakes with more than that. -/
theorem pedals_exclude_iff (params : BridgeParams) (events : List BridgeEvent) :
    PedalsExclude params w.codec events ↔ (published none events).IsChain
      fun cmd cmd' => ¬ (BrakesEnough params cmd ∧ DrivesEnough params cmd') := by
  have hc := nanopb_faithful w
  have hb : Bridge.init = Bridge.inForce params none := rfl
  have hstart : Tracks params w.codec Objects.init [] none [] := by
    refine .between none [] (Prod.ext ?_ ?_) <;> exact congrArg CFloat.fin hc.round_zero.symm
  simp only [← brakes_codec_iff w, ← drives_codec_iff w]
  constructor
  · intro h
    exact (isChain_of_pedalRun hc (s := .init) hb hstart h).tail
  · intro h acts hacts
    refine pedalRun_not_both hc (s := .init) hb hstart ?_
    rw [hacts, List.nil_append, List.isChain_cons]
    refine ⟨fun cmd _ hboth => ?_, h⟩
    obtain ⟨_, hnone, _⟩ := hboth.1
    cases hnone

/-! ## The object table -/

/-- What a publication sends. -/
def Bridge.messages (b : Bridge) : List Message :=
  [⟨⟨orinTargThrottle, w.codec.encodeThrottle b.throttleEffort⟩,
      (w.throttle_short _).trans (by decide)⟩,
    ⟨⟨orinTargBraking, w.codec.encodeBraking b.brakeEffort⟩,
      (w.braking_short _).trans (by decide)⟩,
    ⟨⟨orinTargSteering, w.codec.encodeSteering b.steerRad⟩,
      (w.steering_short _).trans (by decide)⟩]

/-- The commands in it. -/
def Bridge.commands (b : Bridge) : List Command :=
  [.throttle (toBits (double.round b.throttleEffort)),
    .braking (toBits (double.round b.brakeEffort)),
    .steering (toBits (double.round b.steerRad))]

theorem carriedBy_messages (b : Bridge) :
    List.Forall₂ Command.CarriedBy b.commands (b.messages w) :=
  .cons ⟨rfl, w.throttle_says _⟩ (.cons ⟨rfl, w.braking_says _⟩
    (.cons ⟨rfl, w.steering_says _⟩ .nil))

theorem messages_short {b : Bridge} {m : Message} (hm : m ∈ b.messages w) :
    m.payload.length ≤ 188 := by
  simp only [Bridge.messages, List.mem_cons, List.not_mem_nil, or_false] at hm
  rcases hm with rfl | rfl | rfl
  · exact w.throttle_short _
  · exact w.braking_short _
  · exact w.steering_short _

/-- The targets in the table are those of a bridge. -/
structure Bridge.Targets (b : Bridge) (objects : Objects) : Prop where
  throttle : objects.getObjectValue .targetThrottle = .fin (arrivedRound b.throttleEffort)
  braking : objects.getObjectValue .targetBraking = .fin (arrivedRound b.brakeEffort)
  steering : objects.getObjectValue .targetSteering = .fin (arrivedRound b.steerRad)

/-- The steering angle is within the parameter. -/
theorem Bridge.abs_steerRad_le (params : BridgeParams) (cmd : Option Twist) :
    |(inForce params cmd).steerRad| ≤ |params.maxSteer| := by
  cases cmd with
  | none => exact abs_zero.trans_le (abs_nonneg _)
  | some msg =>
    have hsteer : (inForce params (some msg)).steerRad =
        max (-params.maxSteer) (min params.maxSteer msg.steer) := by
      unfold inForce onCmd
      dsimp only
      split <;> rfl
    have hneg := neg_le_abs params.maxSteer
    have hpos := le_abs_self params.maxSteer
    rw [hsteer, abs_le]
    constructor
    · exact (neg_le_neg hpos).trans (le_max_left _ _)
    · exact max_le hneg ((min_le_left _ _).trans hpos)

/-- A publication sets the three targets, whatever they were. -/
theorem targets_commands {b : Bridge} (hb : b.Exclusive) (hsteer : |b.steerRad| ≤ 2 ^ (127 : ℤ))
    (objects : Objects) : b.Targets (b.commands.foldl Command.apply objects) := by
  have hthrottle := ofBits_effort hb.throttle_nonneg hb.throttle_le
  have hbraking := ofBits_effort hb.brake_nonneg hb.brake_le
  have hsteering := ofBits_arrived hsteer
  constructor <;> simp [Bridge.commands, Command.apply, Command.sets, *]

/-- Nothing else. -/
theorem getObjectValue_commands {b : Bridge} {object : Object}
    (h : object ∉ [.targetThrottle, .targetBraking, .targetSteering]) (objects : Objects) :
    (b.commands.foldl Command.apply objects).getObjectValue object =
      objects.getObjectValue object := by
  simp only [List.mem_cons, List.not_mem_nil, or_false, not_or] at h
  simp [Bridge.commands, Command.apply, Command.sets, h]

/-- What the bridge publishes. -/
def publications (params : BridgeParams) (cmds : List (Option Twist)) : List Message :=
  cmds.flatMap fun cmd => (Bridge.inForce params cmd).messages w

/-- The commands in it. -/
def publishedCommands (params : BridgeParams) (cmds : List (Option Twist)) : List Command :=
  cmds.flatMap fun cmd => (Bridge.inForce params cmd).commands

/-- What the bridge publishes reaches the table. -/
theorem run_publications (params : BridgeParams) (cmds : List (Option Twist))
    (cut : Cut rxChunk (sentBytes (publications w params cmds))) {s : RxState}
    (hs : s.rxBufferLen = 0) (objects : Objects) :
    ∃ s', Transitions.run (tableStep nanopbDecode) (s, objects) (commsTask cut.pieces) =
      some (s', (publishedCommands params cmds).foldl Command.apply objects) := by
  have hcarried : List.Forall₂ Command.CarriedBy (publishedCommands params cmds)
      (publications w params cmds) := by
    clear cut
    induction cmds with
    | nil => exact .nil
    | cons cmd cmds ih => exact List.rel_append (carriedBy_messages w _) ih
  have hshort : ∀ m ∈ publications w params cmds, m.payload.length ≤ 188 := by
    intro m hm
    obtain ⟨cmd, -, hm⟩ := List.mem_flatMap.mp hm
    exact messages_short w hm
  obtain ⟨s', hrun⟩ := run_commsTask hshort cut hs objects
  rw [foldl_update hcarried] at hrun
  exact ⟨s', hrun⟩

/-- The last publication decides the targets. -/
theorem targets_publishedCommands {params : BridgeParams}
    (hsteer : |params.maxSteer| ≤ 2 ^ (127 : ℤ)) {cmds : List (Option Twist)} {last : Option Twist}
    (hlast : cmds.getLast? = some last) (objects : Objects) :
    (Bridge.inForce params last).Targets
      ((publishedCommands params cmds).foldl Command.apply objects) := by
  obtain ⟨earlier, rfl⟩ := List.getLast?_eq_some_iff.mp hlast
  rw [publishedCommands, List.flatMap_append, List.foldl_append, List.flatMap_singleton]
  exact targets_commands (Bridge.inForce_exclusive params last)
    ((Bridge.abs_steerRad_le params last).trans hsteer) _

theorem getObjectValue_publishedCommands {object : Object}
    (h : object ∉ [.targetThrottle, .targetBraking, .targetSteering]) (params : BridgeParams)
    (cmds : List (Option Twist)) (objects : Objects) :
    ((publishedCommands params cmds).foldl Command.apply objects).getObjectValue object =
      objects.getObjectValue object := by
  induction cmds generalizing objects with
  | nil => rfl
  | cons cmd cmds ih =>
    rw [publishedCommands, List.flatMap_cons, List.foldl_append]
    exact (ih _).trans (getObjectValue_commands h objects)

/-- **The efforts in force reach the table.**  After any number of publications, and
wherever their stream is cut, the targets in the object table are the efforts of the
command in force at the last one, the pedals to within 2⁻²⁴ and the last half bit of a
`double`; the other objects are as before. -/
theorem bridge_reaches_table {params : BridgeParams} (hsteer : |params.maxSteer| ≤ 2 ^ (127 : ℤ))
    {events : List BridgeEvent} {last : Option Twist}
    (hlast : (published none events).getLast? = some last)
    (cut : Cut rxChunk (sentBytes (publications w params (published none events)))) {s : RxState}
    (hs : s.rxBufferLen = 0) (objects : Objects) :
    ∃ s' objects', Transitions.run (tableStep nanopbDecode) (s, objects) (commsTask cut.pieces) =
        some (s', objects') ∧
      (Bridge.inForce params last).Targets objects' ∧
      (∀ effort ∈ [(Bridge.inForce params last).throttleEffort,
        (Bridge.inForce params last).brakeEffort],
        |effort - arrivedRound effort| ≤ 2 ^ (-24 : ℤ) + 2 ^ (-53 : ℤ)) ∧
      ∀ object ∉ [Object.targetThrottle, .targetBraking, .targetSteering],
        objects'.getObjectValue object = objects.getObjectValue object := by
  obtain ⟨s', hrun⟩ := run_publications w params (published none events) cut hs objects
  have hb := Bridge.inForce_exclusive params last
  refine ⟨s', _, hrun, targets_publishedCommands hsteer hlast objects, ?_, ?_⟩
  · intro effort heffort
    simp only [List.mem_cons, List.not_mem_nil, or_false] at heffort
    apply abs_sub_arrivedRound_le
    rcases heffort with rfl | rfl
    · rw [abs_of_nonneg hb.throttle_nonneg]
      exact hb.throttle_le
    · rw [abs_of_nonneg hb.brake_nonneg]
      exact hb.brake_le
  · intro object hobject
    exact getObjectValue_publishedCommands hobject params _ objects

/-- A command behind the sending of none. -/
theorem bridge_reaches_table_default :
    ∃ s' objects', Transitions.run (tableStep nanopbDecode) (RxState.init, Objects.init)
        (commsTask (Cut.greedy rxChunk (by decide) (sentBytes (publications nanopbWriter
          defaultParams (published none [.send, .cmd ⟨3, 1⟩, .send])))).pieces) =
        some (s', objects') ∧
      (Bridge.inForce defaultParams (some ⟨3, 1⟩)).Targets objects' ∧
      (∀ effort ∈ [(Bridge.inForce defaultParams (some ⟨3, 1⟩)).throttleEffort,
        (Bridge.inForce defaultParams (some ⟨3, 1⟩)).brakeEffort],
        |effort - arrivedRound effort| ≤ 2 ^ (-24 : ℤ) + 2 ^ (-53 : ℤ)) ∧
      ∀ object ∉ [Object.targetThrottle, .targetBraking, .targetSteering],
        objects'.getObjectValue object = Objects.init.getObjectValue object :=
  bridge_reaches_table nanopbWriter (by norm_num [defaultParams, abs_of_pos]) rfl _ rfl _

end KartStack
