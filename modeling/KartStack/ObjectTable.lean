import KartStack.BinaryFloats
import KartStack.MicroReceive
import Mathlib.Data.Rat.Defs
import Mathlib.Algebra.Order.Ring.Rat
import Mathlib.Logic.Function.Basic

/-! # The ESP32's object table

Commands from the Orin end up in a table of floats, one per object, which the
control task reads.  `KM_COMS_ProccessPayload` decodes a message and sets the
objects it is about.

A `float` is an exact rational, an infinity or NaN, compared as IEEE 754 says:
every comparison with NaN is false.  The generated nanopb decoders are a
parameter (`PbDecode`): given the payload bytes, a decoder returns the decoded
message or fails.
-/
namespace KartStack

/-- A `float`. -/
inductive CFloat where
  | fin (q : ℚ)
  | inf (negative : Bool)
  | nan
  deriving DecidableEq

namespace CFloat

/-- `a < b` on floats. -/
def lt : CFloat → CFloat → Bool
  | .fin a, .fin b => a < b
  | .fin _, .inf negative => !negative
  | .inf negative, .fin _ => negative
  | .inf negative, .inf negative' => negative && !negative'
  | _, _ => false

instance : LT CFloat := ⟨fun a b => lt a b = true⟩

instance (a b : CFloat) : Decidable (a < b) := inferInstanceAs (Decidable (_ = true))

instance : Zero CFloat := ⟨.fin 0⟩

instance : One CFloat := ⟨.fin 1⟩

/-- An unsigned number converted to `float`: the nearest one, and the even one of two. -/
instance : NatCast CFloat := ⟨fun n => .fin (BinaryFloats.single.round n)⟩

theorem zero_lt_fin {q : ℚ} : (0 : CFloat) < .fin q ↔ 0 < q := by
  show lt (.fin 0) (.fin q) = true ↔ _
  simp [lt]

theorem not_zero_lt_zero : ¬ (0 : CFloat) < 0 := fun h => lt_irrefl (0 : ℚ) (zero_lt_fin.mp h)

end CFloat

/-- `km_objects_t`, without the end mark `KM_OBJ_LAST`. -/
inductive Object where
  | targetThrottle
  | targetBraking
  | targetSteering
  | misionOrin
  | machineStateOrin
  | shutdownOrin
  | actualSpeed
  | actualAccerelation
  | actualBraking
  | actualSteering
  | misionEsp
  | machineStateEsp
  | actualShutdown
  deriving DecidableEq, Repr

/-- `km_objects_values`. -/
def Objects : Type := Object → CFloat

namespace Objects

/-- Static storage before the first call. -/
def init : Objects := fun _ => 0

/-- `KM_OBJ_SetObjectValue`; no `Object` is out of range. -/
def setObjectValue (objects : Objects) (object : Object) (value : CFloat) : Objects :=
  Function.update objects object value

/-- `KM_OBJ_GetObjectValue`. -/
def getObjectValue (objects : Objects) (object : Object) : CFloat := objects object

@[simp] theorem get_set_self (objects : Objects) (object : Object) (value : CFloat) :
    (objects.setObjectValue object value).getObjectValue object = value :=
  Function.update_self ..

@[simp] theorem get_set_of_ne (objects : Objects) {object object' : Object} (h : object' ≠ object)
    (value : CFloat) :
    (objects.setObjectValue object value).getObjectValue object' = objects.getObjectValue object' :=
  Function.update_of_ne h ..

end Objects

namespace KmComs

/-- `ORIN_TARG_THROTTLE`. -/
def orinTargThrottle : UInt8 := 0x20
/-- `ORIN_TARG_BRAKING`. -/
def orinTargBraking : UInt8 := 0x21
/-- `ORIN_TARG_STEERING`. -/
def orinTargSteering : UInt8 := 0x22
/-- `ORIN_MISION`. -/
def orinMision : UInt8 := 0x23
/-- `ORIN_MACHINE_STATE`. -/
def orinMachineState : UInt8 := 0x24
/-- `ORIN_HEARTBEAT`. -/
def orinHeartbeat : UInt8 := 0x25
/-- `ORIN_SHUTDOWN`. -/
def orinShutdown : UInt8 := 0x26
/-- `ORIN_COMPLETE`. -/
def orinComplete : UInt8 := 0x27

/-- `kart_OrinComplete`. -/
structure OrinComplete where
  throttle : CFloat
  braking : CFloat
  steeringRad : CFloat
  mission : UInt32
  machineState : UInt32
  shutdown : Bool

/-- `pb_decode` for each message the Orin sends. -/
structure PbDecode where
  targThrottle : List UInt8 → Option CFloat
  targBraking : List UInt8 → Option CFloat
  targSteering : List UInt8 → Option CFloat
  orinComplete : List UInt8 → Option OrinComplete

/-- A decoded target sets its object; a payload that does not decode sets nothing. -/
def setDecoded (objects : Objects) (object : Object) : Option CFloat → Objects
  | some value => objects.setObjectValue object value
  | none => objects

/-- The first payload byte sets its object; an empty payload sets nothing. -/
def setByte (objects : Objects) (object : Object) (msg : Msg) (value : UInt8 → CFloat) : Objects :=
  if msg.len ≥ 1 then objects.setObjectValue object (value (msg.payload.headD 0)) else objects

/-- `KM_COMS_ProccessPayload`. -/
def proccessPayload (pb : PbDecode) (objects : Objects) (msg : Msg) : Objects :=
  let stream := msg.payload.take msg.len.toNat
  if msg.type = orinTargThrottle then
    setDecoded objects .targetThrottle (pb.targThrottle stream)
  else if msg.type = orinTargBraking then
    setDecoded objects .targetBraking (pb.targBraking stream)
  else if msg.type = orinTargSteering then
    setDecoded objects .targetSteering (pb.targSteering stream)
  else if msg.type = orinMision then
    setByte objects .misionOrin msg fun b => (b.toNat : CFloat)
  else if msg.type = orinMachineState then
    setByte objects .machineStateOrin msg fun b => (b.toNat : CFloat)
  else if msg.type = orinHeartbeat then objects
  else if msg.type = orinShutdown then
    setByte objects .shutdownOrin msg fun b => if b ≠ 0 then 1 else 0
  else if msg.type = orinComplete then
    match pb.orinComplete stream with
    | some m =>
      ((((((objects.setObjectValue .targetThrottle m.throttle).setObjectValue
        .targetBraking m.braking).setObjectValue
        .targetSteering m.steeringRad).setObjectValue
        .misionOrin (m.mission.toNat : CFloat)).setObjectValue
        .machineStateOrin (m.machineState.toNat : CFloat)).setObjectValue
        .shutdownOrin (if m.shutdown then 1 else 0))
    | none => objects
  else objects

section Payload
variable (pb : PbDecode) (objects : Objects) {msg : Msg}

theorem proccessPayload_throttle (h : msg.type = orinTargThrottle) :
    proccessPayload pb objects msg =
      setDecoded objects .targetThrottle (pb.targThrottle (msg.payload.take msg.len.toNat)) := by
  simp only [proccessPayload]
  rw [if_pos h]

theorem proccessPayload_braking (h : msg.type = orinTargBraking) :
    proccessPayload pb objects msg =
      setDecoded objects .targetBraking (pb.targBraking (msg.payload.take msg.len.toNat)) := by
  simp only [proccessPayload]
  rw [if_neg (by rw [h]; decide), if_pos h]

theorem proccessPayload_steering (h : msg.type = orinTargSteering) :
    proccessPayload pb objects msg =
      setDecoded objects .targetSteering (pb.targSteering (msg.payload.take msg.len.toNat)) := by
  simp only [proccessPayload]
  rw [if_neg (by rw [h]; decide), if_neg (by rw [h]; decide), if_pos h]

end Payload

/-- The message a received frame is handed on as. -/
def Msg.ofFrame (f : Frame UInt8) : Msg where
  len := UInt8.ofNat f.payload.length
  type := f.type
  payload := f.payload
  crc := crc8 (UInt8.ofNat f.payload.length) f.type f.payload

theorem Msg.ofFrame_stream {f : Frame UInt8} (hf : f.payload.length ≤ 251) :
    (Msg.ofFrame f).payload.take (Msg.ofFrame f).len.toNat = f.payload := by
  have hlen : (UInt8.ofNat f.payload.length).toNat = f.payload.length := by
    rw [UInt8.toNat_ofNat']
    omega
  rw [Msg.ofFrame, hlen, List.take_length]

end KmComs
end KartStack
