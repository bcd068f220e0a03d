import KartStack.FrameScan

/-! # The serial wire format

Both ends of the serial link frame their messages as

    | SOF | LEN | TYPE | PAYLOAD | CRC |

with `SOF = 0xAA` and an 8-bit CRC of polynomial 0x07 over LEN, TYPE and PAYLOAD.
Each end has its own CRC routine: `KmComs.crc8` on the ESP32, `SerialDriver.crc8`
on the Orin.  They compute the same function, so there is one `wire` format.
-/
namespace KartStack

/-- One round of the CRC shift register. -/
def crcShift (crc : UInt8) : UInt8 :=
  if crc &&& 0x80 ≠ 0 then (crc <<< 1) ^^^ 0x07 else crc <<< 1

/-- The bit loop `for (j = 0; j < rounds; j++)`. -/
def crcRounds : Nat → UInt8 → UInt8
  | 0, crc => crc
  | rounds + 1, crc => crcRounds rounds (crcShift crc)

/-- `KM_COMS_crc8`: the length, the type, then `len` bytes of `data`. -/
def KmComs.crc8 (len type : UInt8) (data : List UInt8) : UInt8 :=
  let crc : UInt8 := 0x00
  let crc := crcRounds 8 (crc ^^^ len)
  let crc := crcRounds 8 (crc ^^^ type)
  (data.take len.toNat).foldl (fun crc b => crcRounds 8 (crc ^^^ b)) crc

namespace SerialDriver

/-- The lambda `update` of `SerialDriver::crc8`. -/
def update (crc b : UInt8) : UInt8 := crcRounds 8 (crc ^^^ b)

/-- `SerialDriver::crc8`, which takes the payload size as an argument. -/
def crc8 (len type : UInt8) (data : List UInt8) (size : UInt8) : UInt8 :=
  (data.take size.toNat).foldl update (update (update 0 len) type)

end SerialDriver

/-- **The two CRC routines agree** on a payload of the announced length. -/
theorem crc8_agree (len type : UInt8) (data : List UInt8) :
    KmComs.crc8 len type data = SerialDriver.crc8 len type data len := rfl

/-- Start of frame: `KM_COMS_SOM` on the ESP32, `SOF` on the Orin. -/
def sof : UInt8 := 0xAA

/-- The format both ends speak. -/
def wire : FrameFormat UInt8 where
  sof := sof
  len := UInt8.toNat
  lenSymbol := UInt8.ofNat
  check := fun len type payload => SerialDriver.crc8 len type payload len

theorem wire_len_le (l : UInt8) : wire.len l ≤ 255 :=
  Nat.le_of_lt_succ (UInt8.toNat_lt l)

/-- The length byte is determined by the length it announces. -/
theorem wire_lenSymbol_len (l : UInt8) : wire.lenSymbol (wire.len l) = l :=
  UInt8.ofNat_toNat

/-- A length byte can announce up to 255 payload bytes. -/
theorem wire_fits {f : Frame UInt8} (hf : f.payload.length ≤ 255) : wire.Fits f := by
  show (UInt8.ofNat f.payload.length).toNat = f.payload.length
  rw [UInt8.toNat_ofNat']
  omega

/-- What an application may send: `SerialDriver::send` and `km_coms_msg` allow 251
payload bytes. -/
structure Message extends Frame UInt8 where
  short : payload.length ≤ 251
  deriving DecidableEq

namespace Message

/-- The decoded frames the messages should arrive as. -/
def frames (ms : List Message) : List (Frame UInt8) := ms.map Message.toFrame

theorem fits (ms : List Message) : ∀ f ∈ frames ms, wire.Fits f := by
  intro f hf
  obtain ⟨m, -, rfl⟩ := List.mem_map.mp hf
  exact wire_fits (Nat.le_trans m.short (by decide))

end Message
end KartStack
