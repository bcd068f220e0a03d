import KartStack.Transitions
import KartStack.WebSocketServer

/-! # Telemetry on the dashboard

The dashboard subscribes to the frames of the ESP32.  Their payloads are protobuf
messages; the protobuf runtime is a parameter (`Protobuf`), of which only what the
proto3 format promises is used: parsing restores what was serialised, and a message
is serialised to nothing exactly if all its fields are zero.

What the dashboard should show is, for each field, the value in the latest frame
that carries it.  Three callbacks take zero for absent: speed and acceleration
ignore an empty payload, and the raw encoder value is stored unless it is zero.  So
the dashboard shows the latest values exactly in the sequences of frames in which
none of these goes back to zero (`latest_iff`).
-/
namespace KartStack.KbDashboard
open Transitions

/-! ## Messages

A `float` field is given by its 32 bits. -/

/-- The value of a protobuf `float`, given by its 32 bits. -/
def ofBits (bits : UInt32) : CFloat :=
  let negative := decide (bits &&& 0x80000000 ≠ 0)
  let exponent : Nat := bits.toNat / 2 ^ 23 % 2 ^ 8
  let fraction : Nat := bits.toNat % 2 ^ 23
  if exponent = 255 then (if fraction = 0 then .inf negative else .nan)
  else
    let magnitude : ℚ :=
      if exponent = 0 then fraction / 2 ^ 149 else (2 ^ 23 + fraction) * 2 ^ exponent / 2 ^ 150
    .fin (if negative then -magnitude else magnitude)

@[simp] theorem ofBits_zero : ofBits 0 = .fin 0 := by
  simp [ofBits]

structure ActSteering where
  angleRad : UInt32
  rawEncoder : UInt32
  deriving DecidableEq

structure ActSpeed where
  speedMps : UInt32
  deriving DecidableEq

structure ActAcceleration where
  lateralMps2 : UInt32
  longitudinalMps2 : UInt32
  deriving DecidableEq

structure ActBraking where
  effort : UInt32
  deriving DecidableEq

structure TargThrottle where
  effort : UInt32
  deriving DecidableEq

structure HealthStatus where
  magnetOk : Bool
  i2cOk : Bool
  heapOk : Bool
  agc : UInt32
  heapKb : UInt32
  i2cErrors : UInt32
  stackComms : UInt32
  stackControl : UInt32
  stackHeartbeat : UInt32
  stackHealth : UInt32
  deriving DecidableEq

/-- `SerializeToString` and `ParseFromString` of a message type; the second raises
where it gives nothing. -/
structure Codec (M : Type) (zero : M) where
  serialize : M → List UInt8
  parse : List UInt8 → Option M
  parse_serialize : ∀ m, parse (serialize m) = some m
  serialize_eq_nil : ∀ m, serialize m = [] ↔ m = zero

/-- The message types of `kart_msgs.proto` the telemetry uses. -/
structure Protobuf where
  actSteering : Codec ActSteering ⟨0, 0⟩
  actSpeed : Codec ActSpeed ⟨0⟩
  actAcceleration : Codec ActAcceleration ⟨0, 0⟩
  actBraking : Codec ActBraking ⟨0⟩
  targThrottle : Codec TargThrottle ⟨0⟩
  healthStatus : Codec HealthStatus ⟨false, false, false, 0, 0, 0, 0, 0, 0, 0⟩

section Protocol
variable (pb : Protobuf)

/-- `encode_act_steering`. -/
def encodeActSteering (angleRad rawEncoder : UInt32) : List UInt8 :=
  pb.actSteering.serialize ⟨angleRad, rawEncoder⟩

/-- `encode_act_speed`. -/
def encodeActSpeed (speedMps : UInt32) : List UInt8 := pb.actSpeed.serialize ⟨speedMps⟩

/-- `encode_act_accel`. -/
def encodeActAccel (lateral longitudinal : UInt32) : List UInt8 :=
  pb.actAcceleration.serialize ⟨lateral, longitudinal⟩

/-- `encode_act_braking`. -/
def encodeActBraking (effort : UInt32) : List UInt8 := pb.actBraking.serialize ⟨effort⟩

/-- `encode_act_throttle`. -/
def encodeActThrottle (effort : UInt32) : List UInt8 := pb.targThrottle.serialize ⟨effort⟩

/-- `encode_health`. -/
def encodeHealth (magnetOk i2cOk heapOk : Bool) (agc heapKb i2cErrors : UInt32) : List UInt8 :=
  pb.healthStatus.serialize ⟨magnetOk, i2cOk, heapOk, agc, heapKb, i2cErrors, 0, 0, 0, 0⟩

/-- `decode_steering_raw`. -/
def decodeSteeringRaw (payload : List UInt8) : Option (CFloat × Int) :=
  (pb.actSteering.parse payload).map fun msg => (ofBits msg.angleRad, msg.rawEncoder.toNat)

/-- `decode_speed`. -/
def decodeSpeed (payload : List UInt8) : Option CFloat :=
  (pb.actSpeed.parse payload).map fun msg => ofBits msg.speedMps

/-- `decode_accel`. -/
def decodeAccel (payload : List UInt8) : Option (CFloat × CFloat) :=
  (pb.actAcceleration.parse payload).map fun msg =>
    (ofBits msg.lateralMps2, ofBits msg.longitudinalMps2)

/-- `decode_braking`. -/
def decodeBraking (payload : List UInt8) : Option CFloat :=
  (pb.actBraking.parse payload).map fun msg => ofBits msg.effort

/-- `decode_throttle`. -/
def decodeThrottle (payload : List UInt8) : Option CFloat :=
  (pb.targThrottle.parse payload).map fun msg => ofBits msg.effort

/-- The dict `decode_health` makes of a message. -/
def healthFields (msg : HealthStatus) : List (String × PyValue) :=
  [("health_magnet_ok", .bool msg.magnetOk), ("health_i2c_ok", .bool msg.i2cOk),
    ("health_heap_ok", .bool msg.heapOk), ("health_agc", .int msg.agc.toNat),
    ("health_heap_kb", .int msg.heapKb.toNat), ("health_i2c_errors", .int msg.i2cErrors.toNat),
    ("stack_comms", .int msg.stackComms.toNat), ("stack_control", .int msg.stackControl.toNat),
    ("stack_heartbeat", .int msg.stackHeartbeat.toNat),
    ("stack_health", .int msg.stackHealth.toNat)]

/-- `decode_health`. -/
def decodeHealth (payload : List UInt8) : Option (List (String × PyValue)) :=
  (pb.healthStatus.parse payload).map healthFields

end Protocol

/-! ## The callbacks -/

/-- `DashboardNode`, as far as the telemetry goes. -/
structure DashboardNode where
  state : DashboardState
  /-- `_last_steer_log`, if it is set. -/
  lastSteerLog : Option Int
  /-- The angles and encoder values logged. -/
  warnings : List (CFloat × Int)

namespace DashboardNode

/-- `DashboardNode()`. -/
def init : DashboardNode := ⟨.init, none, []⟩

/-- `self.state.update(key, value)`. -/
def update (node : DashboardNode) (key : String) (value : PyValue) : DashboardNode :=
  { node with state := node.state.update key value }

/-- `self.state.update(k, v)` for all `k, v` of a dict. -/
def updateAll (node : DashboardNode) (fields : List (String × PyValue)) : DashboardNode :=
  fields.foldl (fun node field => node.update field.1 field.2) node

end DashboardNode

section Callbacks
variable (pb : Protobuf)

/-- `_on_esp_steering`, the clock being at `now` nanoseconds. -/
def onEspSteering (now : Int) (payload : List UInt8) (node : DashboardNode) :
    Option DashboardNode :=
  (decodeSteeringRaw pb payload).map fun (angleRad, rawEncoder) =>
    let node := node.update "esp32_steering_rad" (.float angleRad)
    if rawEncoder ≠ 0 then
      let node := node.update "esp32_steering_raw" (.int rawEncoder)
      if node.lastSteerLog.all fun last => now - last > 500000000 then
        { node with
          lastSteerLog := some now
          warnings := node.warnings ++ [(angleRad, rawEncoder)] }
      else node
    else node

/-- `_on_esp_speed`. -/
def onEspSpeed (payload : List UInt8) (node : DashboardNode) : Option DashboardNode :=
  if payload ≠ [] then
    (decodeSpeed pb payload).map fun speed => node.update "esp32_speed" (.float speed)
  else some node

/-- `_on_esp_accel`. -/
def onEspAccel (payload : List UInt8) (node : DashboardNode) : Option DashboardNode :=
  if payload ≠ [] then
    (decodeAccel pb payload).map fun (lat, lon) =>
      (node.update "esp32_accel_lat" (.float lat)).update "esp32_accel_lon" (.float lon)
  else some node

/-- `_on_esp_throttle`. -/
def onEspThrottle (payload : List UInt8) (node : DashboardNode) : Option DashboardNode :=
  (decodeThrottle pb payload).map fun effort => node.update "esp32_throttle" (.float effort)

/-- `_on_esp_braking`. -/
def onEspBraking (payload : List UInt8) (node : DashboardNode) : Option DashboardNode :=
  (decodeBraking pb payload).map fun effort => node.update "esp32_braking" (.float effort)

/-- `_on_esp_health`. -/
def onEspHealth (payload : List UInt8) (node : DashboardNode) : Option DashboardNode :=
  (decodeHealth pb payload).map node.updateAll

end Callbacks

/-! ## Frames -/

/-- A frame on one of the topics, by the arguments of its encoder. -/
inductive Telemetry where
  | steering (angleRad rawEncoder : UInt32)
  | speed (speedMps : UInt32)
  | acceleration (lateral longitudinal : UInt32)
  | throttle (effort : UInt32)
  | braking (effort : UInt32)
  | health (magnetOk i2cOk heapOk : Bool) (agc heapKb i2cErrors : UInt32)
  deriving DecidableEq, Repr

/-- The callback of its topic on the payload of a frame. -/
def receive (pb : Protobuf) (now : Int) (node : DashboardNode) :
    Telemetry → Option DashboardNode
  | .steering angleRad rawEncoder =>
    onEspSteering pb now (encodeActSteering pb angleRad rawEncoder) node
  | .speed speedMps => onEspSpeed pb (encodeActSpeed pb speedMps) node
  | .acceleration lateral longitudinal =>
    onEspAccel pb (encodeActAccel pb lateral longitudinal) node
  | .throttle effort => onEspThrottle pb (encodeActThrottle pb effort) node
  | .braking effort => onEspBraking pb (encodeActBraking pb effort) node
  | .health magnetOk i2cOk heapOk agc heapKb i2cErrors =>
    onEspHealth pb (encodeHealth pb magnetOk i2cOk heapOk agc heapKb i2cErrors) node

/-- The fields a frame carries, under the keys they are shown. -/
def Telemetry.fields : Telemetry → List (String × PyValue)
  | .steering angleRad rawEncoder =>
    [("esp32_steering_rad", .float (ofBits angleRad)),
      ("esp32_steering_raw", .int rawEncoder.toNat)]
  | .speed speedMps => [("esp32_speed", .float (ofBits speedMps))]
  | .acceleration lateral longitudinal =>
    [("esp32_accel_lat", .float (ofBits lateral)),
      ("esp32_accel_lon", .float (ofBits longitudinal))]
  | .throttle effort => [("esp32_throttle", .float (ofBits effort))]
  | .braking effort => [("esp32_braking", .float (ofBits effort))]
  | .health magnetOk i2cOk heapOk agc heapKb i2cErrors =>
    healthFields ⟨magnetOk, i2cOk, heapOk, agc, heapKb, i2cErrors, 0, 0, 0, 0⟩

/-- The value of a key in the latest frame that carries it, the latest frame first. -/
def latest : List Telemetry → String → Option PyValue
  | [], _ => none
  | f :: frames, key => (f.fields.lookup key).or (latest frames key)

/-- The node, and the frames it has received, the latest first. -/
structure Shown where
  node : DashboardNode
  frames : List Telemetry

/-- No frame yet. -/
def Shown.init : Shown := ⟨.init, []⟩

/-- The next frame comes, at a time. -/
def shownStep (pb : Protobuf) (s : Shown) (a : Int × Telemetry) : Option Shown :=
  (receive pb a.1 s.node a.2).map fun node => ⟨node, a.2 :: s.frames⟩

/-- A snapshot at any time has the latest values. -/
def Shown.Latest (s : Shown) : Prop :=
  ∀ key value, latest s.frames key = some value →
    ∀ now, s.node.state.snapshot now key = some value

/-- After the frame the latest values are shown. -/
def ShowsLatest (pb : Protobuf) (s : Shown) (a : Int × Telemetry) : Prop :=
  ∀ s' ∈ shownStep pb s a, s'.Latest

/-- The value of a key in the latest frame that carries it, or the value it starts with. -/
def current (frames : List Telemetry) (key : String) : Option PyValue :=
  (latest frames key).or (initialData.lookup key)

/-- The frame does not take speed, acceleration or the encoder value back to zero. -/
def NoReturn (s : Shown) (a : Int × Telemetry) : Prop :=
  match a.2 with
  | .speed speedMps => speedMps = 0 → current s.frames "esp32_speed" = some (.float (.fin 0))
  | .acceleration lateral longitudinal => lateral = 0 ∧ longitudinal = 0 →
    current s.frames "esp32_accel_lat" = some (.float (.fin 0)) ∧
      current s.frames "esp32_accel_lon" = some (.float (.fin 0))
  | .steering _ rawEncoder => rawEncoder = 0 →
    current s.frames "esp32_steering_raw" = some (.int 0)
  | .throttle _ | .braking _ | .health _ _ _ _ _ _ => True

/-! ## What a callback stores -/

theorem lookup_singleton (k key : String) (v : PyValue) :
    [(k, v)].lookup key = if key = k then some v else none := by
  by_cases h : key = k
  · rw [if_pos h, h, List.lookup_cons, beq_self_eq_true]
  · rw [if_neg h, List.lookup_cons, beq_eq_false_iff_ne.mpr h]
    rfl

/-- What holds of the only field. -/
theorem forall_lookup_singleton {k : String} {v : PyValue} {P : String → PyValue → Prop} :
    (∀ key value, [(k, v)].lookup key = some value → P key value) ↔ P k v := by
  constructor
  · intro h
    exact h k v (by rw [lookup_singleton, if_pos rfl])
  · intro h key value hvalue
    rw [lookup_singleton] at hvalue
    by_cases hkey : key = k
    · rw [if_pos hkey] at hvalue
      obtain rfl := Option.some.inj hvalue
      exact hkey ▸ h
    · rw [if_neg hkey] at hvalue
      cases hvalue

/-- What holds of both fields. -/
theorem forall_lookup_pair {k k' : String} (hne : k' ≠ k) {v v' : PyValue}
    {P : String → PyValue → Prop} :
    (∀ key value, [(k, v), (k', v')].lookup key = some value → P key value) ↔
      P k v ∧ P k' v' := by
  have hfirst : [(k, v), (k', v')].lookup k = some v := by
    rw [List.lookup_cons, beq_self_eq_true]
  have hrest : ∀ key, key ≠ k → [(k, v), (k', v')].lookup key = [(k', v')].lookup key := by
    intro key hkey
    rw [List.lookup_cons, beq_eq_false_iff_ne.mpr hkey]
  constructor
  · intro h
    refine ⟨h k v hfirst, h k' v' ?_⟩
    rw [hrest k' hne, lookup_singleton, if_pos rfl]
  · rintro ⟨h, h'⟩ key value hvalue
    by_cases hkey : key = k
    · rw [hkey, hfirst] at hvalue
      obtain rfl := Option.some.inj hvalue
      exact hkey ▸ h
    · rw [hrest key hkey] at hvalue
      exact forall_lookup_singleton.mpr h' key value hvalue

theorem updateAll_data {fields : List (String × PyValue)} (hnodup : (fields.map Prod.fst).Nodup)
    (node : DashboardNode) (key : String) :
    (node.updateAll fields).state.data key =
      (fields.lookup key).or (node.state.data key) := by
  induction fields generalizing node with
  | nil => rfl
  | cons field fields ih =>
    obtain ⟨k, v⟩ := field
    obtain ⟨hk, hnodup⟩ := List.nodup_cons.mp hnodup
    show ((node.update k v).updateAll fields).state.data key = _
    rw [ih hnodup, List.lookup_cons]
    by_cases hkey : key = k
    · -- the key does not come again
      subst hkey
      have hlookup : fields.lookup key = none := by
        rw [List.lookup_eq_none_iff]
        intro field hmem
        have hne : key ≠ field.1 := by
          rintro rfl
          exact hk (List.mem_map.mpr ⟨field, hmem, rfl⟩)
        simpa using hne
      rw [hlookup, beq_self_eq_true]
      exact DashboardState.data_update_self ..
    · rw [beq_eq_false_iff_ne.mpr hkey]
      exact congrArg _ (DashboardState.data_update_of_ne hkey ..)

/-- The fields of a frame that are stored. -/
def Telemetry.stored : Telemetry → List (String × PyValue)
  | .steering angleRad rawEncoder =>
    if rawEncoder = 0 then [("esp32_steering_rad", .float (ofBits angleRad))]
    else (Telemetry.steering angleRad rawEncoder).fields
  | .speed speedMps => if speedMps = 0 then [] else (Telemetry.speed speedMps).fields
  | .acceleration lateral longitudinal =>
    if lateral = 0 ∧ longitudinal = 0 then []
    else (Telemetry.acceleration lateral longitudinal).fields
  | f => f.fields

theorem fields_nodup (f : Telemetry) : (f.fields.map Prod.fst).Nodup := by
  rcases f with _ | _ | _ | _ | _ | _ <;> simp [Telemetry.fields, healthFields]

theorem stored_nodup (f : Telemetry) : (f.stored.map Prod.fst).Nodup := by
  rcases f with ⟨_, rawEncoder⟩ | speedMps | ⟨lateral, longitudinal⟩ | _ | _ | _
  case steering => by_cases h : rawEncoder = 0 <;> simp [Telemetry.stored, Telemetry.fields, h]
  case speed => by_cases h : speedMps = 0 <;> simp [Telemetry.stored, Telemetry.fields, h]
  case acceleration =>
    by_cases h : lateral = 0 ∧ longitudinal = 0 <;> simp [Telemetry.stored, Telemetry.fields, h]
  case throttle effort => exact fields_nodup (.throttle effort)
  case braking effort => exact fields_nodup (.braking effort)
  case health a b c d e f => exact fields_nodup (.health a b c d e f)

/-- **What a callback stores.** -/
theorem receive_eq (pb : Protobuf) (now : Int) (node : DashboardNode) (f : Telemetry) :
    ∃ node', receive pb now node f = some node' ∧
      node'.state = (node.updateAll f.stored).state := by
  rcases f with ⟨angleRad, rawEncoder⟩ | speedMps | ⟨lateral, longitudinal⟩ | effort | effort | _
  case steering =>
    have hraw : ((rawEncoder.toNat : Nat) : Int) ≠ 0 ↔ rawEncoder ≠ 0 := by
      rw [Ne, Int.natCast_eq_zero, ← UInt32.toNat_zero, UInt32.toNat_inj]
    simp only [receive, onEspSteering, encodeActSteering, decodeSteeringRaw,
      Codec.parse_serialize, Option.map_some]
    refine ⟨_, rfl, ?_⟩
    by_cases h : rawEncoder = 0
    · rw [if_neg (mt hraw.mp (not_not.mpr h)), Telemetry.stored, if_pos h]
      rfl
    · rw [if_pos (hraw.mpr h), Telemetry.stored, if_neg h]
      split <;> rfl
  case speed =>
    simp only [receive, onEspSpeed, encodeActSpeed, ne_eq, Codec.serialize_eq_nil, decodeSpeed,
      Codec.parse_serialize, Option.map_some, Telemetry.stored]
    by_cases h : speedMps = 0
    · rw [if_pos h, if_neg (by simp [h])]
      exact ⟨node, rfl, rfl⟩
    · rw [if_neg h, if_pos (by simpa using h)]
      exact ⟨_, rfl, rfl⟩
  case acceleration =>
    simp only [receive, onEspAccel, encodeActAccel, ne_eq, Codec.serialize_eq_nil, decodeAccel,
      Codec.parse_serialize, Option.map_some, Telemetry.stored]
    by_cases h : lateral = 0 ∧ longitudinal = 0
    · rw [if_pos h, if_neg (by simp [h])]
      exact ⟨node, rfl, rfl⟩
    · rw [if_neg h, if_pos (by simpa using h)]
      exact ⟨_, rfl, rfl⟩
  case throttle =>
    simp only [receive, onEspThrottle, encodeActThrottle, decodeThrottle, Codec.parse_serialize,
      Option.map_some]
    exact ⟨_, rfl, rfl⟩
  case braking =>
    simp only [receive, onEspBraking, encodeActBraking, decodeBraking, Codec.parse_serialize,
      Option.map_some]
    exact ⟨_, rfl, rfl⟩
  case health =>
    simp only [receive, onEspHealth, encodeHealth, decodeHealth, Codec.parse_serialize,
      Option.map_some]
    exact ⟨_, rfl, rfl⟩

theorem shownStep_eq (pb : Protobuf) (s : Shown) (a : Int × Telemetry) :
    ∃ s', shownStep pb s a = some s' ∧ s'.frames = a.2 :: s.frames ∧
      ∀ key, s'.node.state.data key = (a.2.stored.lookup key).or (s.node.state.data key) := by
  obtain ⟨node', hreceive, hstate⟩ := receive_eq pb a.1 s.node a.2
  refine ⟨⟨node', a.2 :: s.frames⟩, by rw [shownStep, hreceive]; rfl, rfl, fun key => ?_⟩
  show node'.state.data key = _
  rw [hstate, updateAll_data (stored_nodup a.2)]

/-- Nothing is stored under a key the frame does not carry. -/
theorem stored_lookup_eq_none {f : Telemetry} {key : String} (h : f.fields.lookup key = none) :
    f.stored.lookup key = none := by
  rcases f with ⟨angleRad, rawEncoder⟩ | speedMps | ⟨lateral, longitudinal⟩ | _ | _ | _
  case steering =>
    by_cases hraw : rawEncoder = 0
    · rw [Telemetry.stored, if_pos hraw]
      rw [List.lookup_eq_none_iff] at h ⊢
      intro field hmem
      exact h field (List.mem_cons.mpr (.inl (List.mem_singleton.mp hmem)))
    · rwa [Telemetry.stored, if_neg hraw]
  case speed =>
    by_cases hspeed : speedMps = 0
    · rw [Telemetry.stored, if_pos hspeed]
      rfl
    · rwa [Telemetry.stored, if_neg hspeed]
  case acceleration =>
    by_cases hzero : lateral = 0 ∧ longitudinal = 0
    · rw [Telemetry.stored, if_pos hzero]
      rfl
    · rwa [Telemetry.stored, if_neg hzero]
  all_goals exact h

/-! ## What is shown -/

theorem current_cons (f : Telemetry) (frames : List Telemetry) (key : String) :
    current (f :: frames) key = (f.fields.lookup key).or (current frames key) :=
  Option.or_assoc

/-- The dashboard has the current values. -/
def Shown.Current (s : Shown) : Prop := ∀ key, s.node.state.data key = current s.frames key

theorem fields_ne_heartbeat {f : Telemetry} {key : String} {value : PyValue}
    (h : f.fields.lookup key = some value) :
    key ≠ "esp32_heartbeat" ∧ key ≠ "esp32_heartbeat_age" := by
  constructor <;> rintro rfl <;>
    rcases f with _ | _ | _ | _ | _ | _ <;>
    simp [Telemetry.fields, healthFields, List.lookup_cons] at h

/-- The heartbeat is not among the telemetry. -/
theorem latest_ne_heartbeat {frames : List Telemetry} {key : String} {value : PyValue}
    (h : latest frames key = some value) :
    key ≠ "esp32_heartbeat" ∧ key ≠ "esp32_heartbeat_age" := by
  induction frames with
  | nil => cases h
  | cons f frames ih =>
    rcases Option.or_eq_some_iff.mp h with h | ⟨-, h⟩
    · exact fields_ne_heartbeat h
    · exact ih h

/-- Current values are the latest. -/
theorem Shown.Current.latest {s : Shown} (hs : s.Current) : s.Latest := by
  intro key value h now
  obtain ⟨hbeat, hage⟩ := latest_ne_heartbeat h
  rw [DashboardState.snapshot_eq_data hbeat hage, hs, current, h]
  rfl

/-- The frame's values are stored or shown already. -/
def Settled (frames : List Telemetry) (f : Telemetry) : Prop :=
  ∀ key value, f.fields.lookup key = some value →
    (f.stored.lookup key).or (current frames key) = some value

/-- A frame that is stored as a whole is settled. -/
theorem settled_of_stored {frames : List Telemetry} {f : Telemetry} (h : f.stored = f.fields) :
    Settled frames f := by
  intro key value hvalue
  rw [h, hvalue]
  rfl

theorem settled_speed_zero (frames : List Telemetry) :
    Settled frames (.speed 0) ↔ current frames "esp32_speed" = some (.float (.fin 0)) := by
  rw [← ofBits_zero]
  exact forall_lookup_singleton

theorem settled_acceleration_zero (frames : List Telemetry) :
    Settled frames (.acceleration 0 0) ↔
      current frames "esp32_accel_lat" = some (.float (.fin 0)) ∧
        current frames "esp32_accel_lon" = some (.float (.fin 0)) := by
  rw [← ofBits_zero]
  exact forall_lookup_pair (by decide)

theorem settled_raw_zero (frames : List Telemetry) (angleRad : UInt32) :
    Settled frames (.steering angleRad 0) ↔
      current frames "esp32_steering_raw" = some (.int 0) := by
  have hstored : (Telemetry.steering angleRad 0).stored =
      [("esp32_steering_rad", .float (ofBits angleRad))] := by rw [Telemetry.stored, if_pos rfl]
  refine (forall_lookup_pair (by decide)).trans ?_
  rw [hstored, lookup_singleton, lookup_singleton, if_pos rfl, if_neg (by decide)]
  -- the angle is stored
  exact and_iff_right rfl

/-- **The frames that are settled** are those that take nothing back to zero. -/
theorem settled_iff (s : Shown) (a : Int × Telemetry) : Settled s.frames a.2 ↔ NoReturn s a := by
  obtain ⟨now, f⟩ := a
  rcases f with ⟨angleRad, rawEncoder⟩ | speedMps | ⟨lateral, longitudinal⟩ | effort | effort | _
  case steering =>
    by_cases h : rawEncoder = 0
    · subst h
      exact (settled_raw_zero s.frames angleRad).trans ⟨fun h _ => h, fun h => h rfl⟩
    · exact iff_of_true (settled_of_stored (if_neg h)) fun hzero => absurd hzero h
  case speed =>
    by_cases h : speedMps = 0
    · subst h
      exact (settled_speed_zero s.frames).trans ⟨fun h _ => h, fun h => h rfl⟩
    · exact iff_of_true (settled_of_stored (if_neg h)) fun hzero => absurd hzero h
  case acceleration =>
    by_cases h : lateral = 0 ∧ longitudinal = 0
    · obtain ⟨rfl, rfl⟩ := h
      exact (settled_acceleration_zero s.frames).trans ⟨fun h _ => h, fun h => h ⟨rfl, rfl⟩⟩
    · exact iff_of_true (settled_of_stored (if_neg h)) fun hzero => absurd hzero h
  all_goals exact iff_of_true (settled_of_stored rfl) trivial

/-- A frame that is settled keeps the dashboard current. -/
theorem current_step {pb : Protobuf} {s s' : Shown} {a : Int × Telemetry} (hs : s.Current)
    (ha : Settled s.frames a.2) (h : shownStep pb s a = some s') : s'.Current := by
  obtain ⟨s₁, hs₁, hframes, hdata⟩ := shownStep_eq pb s a
  obtain rfl := Option.some.inj (hs₁.symm.trans h)
  intro key
  rw [hframes, current_cons, hdata, hs]
  cases hfields : a.2.fields.lookup key with
  | none => rw [stored_lookup_eq_none hfields]
  | some value => rw [ha key value hfields]; rfl

/-- **One frame.** -/
theorem showsLatest_iff {pb : Protobuf} {s : Shown} (hs : s.Current) (a : Int × Telemetry) :
    ShowsLatest pb s a ↔ NoReturn s a := by
  rw [← settled_iff]
  constructor
  · intro hshows key value hvalue
    obtain ⟨s', hs', hframes, hdata⟩ := shownStep_eq pb s a
    have hlatest : latest s'.frames key = some value := by
      rw [hframes, latest, hvalue]
      rfl
    have hsnapshot := hshows s' hs' key value hlatest (.fin 0)
    obtain ⟨hbeat, hage⟩ := fields_ne_heartbeat hvalue
    rwa [DashboardState.snapshot_eq_data hbeat hage, hdata, hs] at hsnapshot
  · intro ha s' hs'
    exact (current_step hs ha hs').latest

theorem current_init : Shown.init.Current := fun _ => rfl

/-- **The dashboard shows the latest telemetry** after every frame of a sequence
exactly if no frame of it takes the speed, both accelerations or the encoder value
back to zero. -/
theorem latest_iff (pb : Protobuf) (frames : List (Int × Telemetry)) :
    Along (shownStep pb) (ShowsLatest pb) .init frames ↔
      Along (shownStep pb) NoReturn .init frames := by
  have hiff : ∀ (s : Shown) (a : Int × Telemetry), s.Current →
      (ShowsLatest pb s a ↔ NoReturn s a) := fun s a hs => showsLatest_iff hs a
  have hstep : ∀ (s : Shown) (a : Int × Telemetry) (s' : Shown), s.Current → NoReturn s a →
      shownStep pb s a = some s' → s'.Current :=
    fun s a s' hs ha h => current_step hs ((settled_iff s a).mpr ha) h
  exact along_iff_of_inv hiff hstep current_init frames

/-! ## A kart that stops -/

/-- Values as fixed 32-bit fields, the low byte first. -/
def fieldBytes (values : List UInt32) : List UInt8 :=
  values.flatMap fun v => (toBytes 4 v.toNat).reverse

/-- The first `n` such fields. -/
def readFields : Nat → List UInt8 → List UInt32
  | 0, _ => []
  | n + 1, bytes => UInt32.ofNat (fromBytes (bytes.take 4).reverse) :: readFields n (bytes.drop 4)

theorem readFields_fieldBytes (values : List UInt32) :
    readFields values.length (fieldBytes values) = values := by
  induction values with
  | nil => rfl
  | cons v values ih =>
    have hlen : (toBytes 4 v.toNat).reverse.length = 4 := by
      rw [List.length_reverse, length_toBytes]
    have hbytes : fieldBytes (v :: values) = (toBytes 4 v.toNat).reverse ++ fieldBytes values := rfl
    rw [hbytes, List.length_cons, readFields, List.take_left' hlen, List.drop_left' hlen,
      List.reverse_reverse, fromBytes_toBytes (UInt32.toNat_lt v), UInt32.ofNat_toNat, ih]

/-- A codec of fixed fields behind the tag of the first: the protobuf format of a
message with one `float`. -/
def fixedCodec {M : Type} (zero : M) (fields : M → List UInt32) (make : List UInt32 → M)
    (hmake : ∀ m, make (fields m) = m) (n : Nat) (hn : ∀ m, (fields m).length = n) :
    Codec M zero where
  serialize m := if fields m = fields zero then [] else 0x0D :: fieldBytes (fields m)
  parse bytes := if bytes = [] then some zero else some (make (readFields n bytes.tail))
  parse_serialize m := by
    by_cases h : fields m = fields zero
    · rw [if_pos h, if_pos rfl, ← hmake m, h, hmake]
    · rw [if_neg h, if_neg (List.cons_ne_nil _ _), List.tail_cons, ← hn m, readFields_fieldBytes,
        hmake]
  serialize_eq_nil m := by
    by_cases h : fields m = fields zero
    · rw [if_pos h]
      exact iff_of_true rfl (by rw [← hmake m, h, hmake])
    · rw [if_neg h]
      exact iff_of_false (List.cons_ne_nil _ _) fun hm => h (congrArg fields hm)

/-- A protobuf runtime for frames with one value. -/
def fixedProtobuf : Protobuf where
  actSteering := fixedCodec _ (fun m => [m.angleRad, m.rawEncoder])
    (fun l => ⟨l.getD 0 0, l.getD 1 0⟩) (fun _ => rfl) 2 fun _ => rfl
  actSpeed := fixedCodec _ (fun m => [m.speedMps]) (fun l => ⟨l.getD 0 0⟩) (fun _ => rfl) 1
    fun _ => rfl
  actAcceleration := fixedCodec _ (fun m => [m.lateralMps2, m.longitudinalMps2])
    (fun l => ⟨l.getD 0 0, l.getD 1 0⟩) (fun _ => rfl) 2 fun _ => rfl
  actBraking := fixedCodec _ (fun m => [m.effort]) (fun l => ⟨l.getD 0 0⟩) (fun _ => rfl) 1
    fun _ => rfl
  targThrottle := fixedCodec _ (fun m => [m.effort]) (fun l => ⟨l.getD 0 0⟩) (fun _ => rfl) 1
    fun _ => rfl
  healthStatus := fixedCodec _
    (fun m => [m.magnetOk.toUInt32, m.i2cOk.toUInt32, m.heapOk.toUInt32, m.agc, m.heapKb,
      m.i2cErrors, m.stackComms, m.stackControl, m.stackHeartbeat, m.stackHealth])
    (fun l => ⟨l.getD 0 0 = 1, l.getD 1 0 = 1, l.getD 2 0 = 1, l.getD 3 0, l.getD 4 0, l.getD 5 0,
      l.getD 6 0, l.getD 7 0, l.getD 8 0, l.getD 9 0⟩)
    (by
      rintro ⟨_ | _, _ | _, _ | _, _, _, _, _, _, _, _⟩ <;> rfl)
    10 fun _ => rfl

/-- Five metres a second, and then none. -/
def stopping : List (Int × Telemetry) := [(0, .speed 0x40A00000), (1, .speed 0)]

/-- The kart stands, and the dashboard shows five metres a second. -/
theorem stopping_not_latest : ¬ ∀ (pb : Protobuf) (frames : List (Int × Telemetry)),
    Along (shownStep pb) (ShowsLatest pb) .init frames := by
  intro hall
  obtain ⟨s, hs, hframes, -⟩ := shownStep_eq fixedProtobuf .init (0, .speed 0x40A00000)
  obtain ⟨-, hrest⟩ := hall fixedProtobuf stopping
  have hmoving : Settled Shown.init.frames (.speed 0x40A00000) := settled_of_stored rfl
  have hcurrent : s.Current := current_step current_init hmoving hs
  have hzero := (showsLatest_iff hcurrent (1, .speed 0)).mp (hrest s hs).1 rfl
  rw [hframes, current_cons, Telemetry.fields, lookup_singleton, if_pos rfl] at hzero
  have hfive : ofBits 0x40A00000 = .fin 5 := by decide +kernel
  rw [hfive] at hzero
  simp at hzero

end KartStack.KbDashboard
