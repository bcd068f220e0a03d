import KartStack.DashboardTelemetry
import KartStack.NanopbEncode
import KartStack.ObjectTable

/-! # The messages of the kart

The descriptors of `kart_msgs.pb.c`, and the sizes of `kart_msgs.pb.h`.  No message
is longer than the size given for its type, and some message is as long
(`kart_sizes`).

nanopb with these descriptors is the decoder of the ESP32 (`nanopbDecode`), and it
keeps what the telemetry asks of a protobuf runtime (`nanopbRuntime`).
-/
namespace KartStack.Nanopb

/-! ## Descriptors -/

/-- `kart_ActSpeed_msg`. -/
def kartActSpeed : MsgDesc where
  fields := [⟨1, .fixed32⟩]

/-- `kart_ActAcceleration_msg`. -/
def kartActAcceleration : MsgDesc where
  fields := [⟨1, .fixed32⟩, ⟨2, .fixed32⟩]

/-- `kart_ActBraking_msg`. -/
def kartActBraking : MsgDesc where
  fields := [⟨1, .fixed32⟩]

/-- `kart_ActSteering_msg`. -/
def kartActSteering : MsgDesc where
  fields := [⟨1, .fixed32⟩, ⟨2, .uvarint⟩]

/-- `kart_Heartbeat_msg`. -/
def kartHeartbeat : MsgDesc where
  fields := [⟨1, .uvarint⟩]

/-- `kart_HealthStatus_msg`. -/
def kartHealthStatus : MsgDesc where
  fields := [⟨1, .bool⟩, ⟨2, .bool⟩, ⟨3, .bool⟩, ⟨4, .uvarint⟩, ⟨5, .uvarint⟩, ⟨6, .uvarint⟩,
    ⟨7, .uvarint⟩, ⟨8, .uvarint⟩, ⟨9, .uvarint⟩, ⟨10, .uvarint⟩]

/-- `kart_TargThrottle_msg`. -/
def kartTargThrottle : MsgDesc where
  fields := [⟨1, .fixed32⟩]

/-- `kart_TargBraking_msg`. -/
def kartTargBraking : MsgDesc where
  fields := [⟨1, .fixed32⟩]

/-- `kart_TargSteering_msg`. -/
def kartTargSteering : MsgDesc where
  fields := [⟨1, .fixed32⟩]

/-- `kart_OrinComplete_msg`. -/
def kartOrinComplete : MsgDesc where
  fields := [⟨1, .fixed32⟩, ⟨2, .fixed32⟩, ⟨3, .fixed32⟩, ⟨4, .uvarint⟩, ⟨5, .uvarint⟩, ⟨6, .bool⟩]

/-- The messages and their sizes. -/
def kartMessages : List (MsgDesc × Nat) :=
  [(kartActAcceleration, 10), (kartActBraking, 5), (kartActSpeed, 5), (kartActSteering, 11),
    (kartHealthStatus, 48), (kartHeartbeat, 6), (kartOrinComplete, 29), (kartTargBraking, 5),
    (kartTargSteering, 5), (kartTargThrottle, 5)]

theorem totalSize_kartMessages {p : MsgDesc × Nat} (h : p ∈ kartMessages) :
    totalSize p.1.fields = p.2 := by
  have hsmall : ∀ {tag : Nat} {ltype : LType}, tag < 16 →
      (FieldInfo.mk tag ltype).maxSize = 1 + ltype.maxSize := by
    intro tag ltype htag
    have hwt := wireType_lt ltype
    rw [FieldInfo.maxSize, FieldInfo.head, Base128.encode_of_lt (by dsimp only; omega)]
    rfl
  simp only [kartMessages, List.mem_cons, List.not_mem_nil, or_false] at h
  rcases h with rfl | rfl | rfl | rfl | rfl | rfl | rfl | rfl | rfl | rfl <;>
    simp (disch := decide) only [kartActAcceleration, kartActBraking, kartActSpeed, kartActSteering,
      kartHealthStatus, kartHeartbeat, kartOrinComplete, kartTargBraking, kartTargSteering,
      kartTargThrottle, totalSize, hsmall, LType.maxSize]

/-- **The sizes are exact.** -/
theorem kart_sizes : ∀ p ∈ kartMessages,
    (∀ m : Struct p.1, m.bytes.length ≤ p.2) ∧ ∃ m : Struct p.1, m.bytes.length = p.2 := by
  intro p hp
  rw [← totalSize_kartMessages hp]
  exact ⟨length_bytes_le, exists_length_eq p.1⟩

theorem kart_sizes_healthStatus :
    (∀ m : Struct kartHealthStatus, m.bytes.length ≤ 48) ∧
      ∃ m : Struct kartHealthStatus, m.bytes.length = 48 :=
  kart_sizes (kartHealthStatus, 48) (by simp [kartMessages])

/-! ## The runtime of the telemetry -/

open KmComs KbDashboard

/-- How a message type lies in the memory of a descriptor's message. -/
structure Layout (d : MsgDesc) (M : Type) (zero : M) where
  memory : M → Struct d
  load : Struct d → M
  load_memory : ∀ m, load (memory m) = m
  memory_zero : ∀ i, memory zero i = LType.zero _

/-- nanopb as the runtime of a message type. -/
def Layout.codec {d : MsgDesc} {M : Type} {zero : M} (l : Layout d M zero) : Codec M zero where
  serialize m := (l.memory m).bytes
  parse payload := (decode d payload).toOption.map l.load
  parse_serialize m := by
    rw [decode_bytes]
    exact congrArg some (l.load_memory m)
  serialize_eq_nil m := by
    have hzero : l.memory zero = Struct.zero := funext l.memory_zero
    rw [bytes_eq_nil_iff, ← hzero]
    constructor
    · intro h
      rw [← l.load_memory m, h, l.load_memory]
    · exact congrArg l.memory

/-- `kart_ActSteering`. -/
def actSteeringLayout : Layout kartActSteering ActSteering ⟨0, 0⟩ where
  memory
    | m, ⟨0, _⟩ => m.angleRad
    | m, ⟨1, _⟩ => m.rawEncoder
  load m := ⟨m ⟨0, by decide⟩, m ⟨1, by decide⟩⟩
  load_memory _ := rfl
  memory_zero := by decide

/-- `kart_ActSpeed`. -/
def actSpeedLayout : Layout kartActSpeed ActSpeed ⟨0⟩ where
  memory
    | m, ⟨0, _⟩ => m.speedMps
  load m := ⟨m ⟨0, by decide⟩⟩
  load_memory _ := rfl
  memory_zero := by decide

/-- `kart_ActAcceleration`. -/
def actAccelerationLayout : Layout kartActAcceleration ActAcceleration ⟨0, 0⟩ where
  memory
    | m, ⟨0, _⟩ => m.lateralMps2
    | m, ⟨1, _⟩ => m.longitudinalMps2
  load m := ⟨m ⟨0, by decide⟩, m ⟨1, by decide⟩⟩
  load_memory _ := rfl
  memory_zero := by decide

/-- `kart_ActBraking`. -/
def actBrakingLayout : Layout kartActBraking ActBraking ⟨0⟩ where
  memory
    | m, ⟨0, _⟩ => m.effort
  load m := ⟨m ⟨0, by decide⟩⟩
  load_memory _ := rfl
  memory_zero := by decide

/-- `kart_TargThrottle`. -/
def targThrottleLayout : Layout kartTargThrottle TargThrottle ⟨0⟩ where
  memory
    | m, ⟨0, _⟩ => m.effort
  load m := ⟨m ⟨0, by decide⟩⟩
  load_memory _ := rfl
  memory_zero := by decide

/-- `kart_HealthStatus`. -/
def healthStatusLayout :
    Layout kartHealthStatus HealthStatus ⟨false, false, false, 0, 0, 0, 0, 0, 0, 0⟩ where
  memory
    | m, ⟨0, _⟩ => m.magnetOk
    | m, ⟨1, _⟩ => m.i2cOk
    | m, ⟨2, _⟩ => m.heapOk
    | m, ⟨3, _⟩ => m.agc
    | m, ⟨4, _⟩ => m.heapKb
    | m, ⟨5, _⟩ => m.i2cErrors
    | m, ⟨6, _⟩ => m.stackComms
    | m, ⟨7, _⟩ => m.stackControl
    | m, ⟨8, _⟩ => m.stackHeartbeat
    | m, ⟨9, _⟩ => m.stackHealth
  load m := ⟨m ⟨0, by decide⟩, m ⟨1, by decide⟩, m ⟨2, by decide⟩, m ⟨3, by decide⟩,
    m ⟨4, by decide⟩, m ⟨5, by decide⟩, m ⟨6, by decide⟩, m ⟨7, by decide⟩, m ⟨8, by decide⟩,
    m ⟨9, by decide⟩⟩
  load_memory _ := rfl
  memory_zero := by decide

/-- nanopb with the descriptors of the kart keeps what the telemetry asks of a
protobuf runtime. -/
def nanopbRuntime : Protobuf where
  actSteering := actSteeringLayout.codec
  actSpeed := actSpeedLayout.codec
  actAcceleration := actAccelerationLayout.codec
  actBraking := actBrakingLayout.codec
  targThrottle := targThrottleLayout.codec
  healthStatus := healthStatusLayout.codec

/-! ## The ESP32's decoder -/

/-- `pb_decode` of a message whose only field is a `float`. -/
def decodeFloat (d : MsgDesc) (value : Struct d → UInt32) (payload : List UInt8) : Option CFloat :=
  (decode d payload).toOption.map fun m => ofBits (value m)

/-- `effort` of a `kart_TargThrottle`. -/
def throttleEffort (m : Struct kartTargThrottle) : UInt32 := m ⟨0, by decide⟩

/-- `effort` of a `kart_TargBraking`. -/
def brakingEffort (m : Struct kartTargBraking) : UInt32 := m ⟨0, by decide⟩

/-- `angle_rad` of a `kart_TargSteering`. -/
def steeringAngleRad (m : Struct kartTargSteering) : UInt32 := m ⟨0, by decide⟩

/-- The fields of a `kart_OrinComplete`, in order. -/
def orinCompleteFields (m : Struct kartOrinComplete) :
    UInt32 × UInt32 × UInt32 × UInt32 × UInt32 × Bool :=
  (m ⟨0, by decide⟩, m ⟨1, by decide⟩, m ⟨2, by decide⟩, m ⟨3, by decide⟩, m ⟨4, by decide⟩,
    m ⟨5, by decide⟩)

/-- A `kart_OrinComplete`. -/
def loadOrinComplete (m : Struct kartOrinComplete) : OrinComplete :=
  let (throttle, braking, steeringRad, mission, machineState, shutdown) := orinCompleteFields m
  ⟨ofBits throttle, ofBits braking, ofBits steeringRad, mission, machineState, shutdown⟩

/-- The decoders `KM_COMS_ProccessPayload` calls. -/
def nanopbDecode : PbDecode where
  targThrottle := decodeFloat kartTargThrottle throttleEffort
  targBraking := decodeFloat kartTargBraking brakingEffort
  targSteering := decodeFloat kartTargSteering steeringAngleRad
  orinComplete payload := (decode kartOrinComplete payload).toOption.map loadOrinComplete

end KartStack.Nanopb
