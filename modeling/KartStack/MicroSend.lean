import KartStack.WireFormat
import Mathlib.Data.List.GetD

/-! # The ESP32's sender

`KM_COMS_SendMsg` builds the frame and offers it to `uart_write_bytes` until all
of it is taken or five attempts found the UART full.  On the ESP32 `size_t` and
`int` are 32 bits wide, and comparing an `int` with a `size_t` compares unsigned
values; `u32` is that conversion.
-/
namespace KartStack.KmComs

/-- An integer as a 32-bit `size_t`. -/
def u32 (x : Int) : Nat := (x % 4294967296).toNat

/-- The local variables of the send loop, and the bytes the UART has accepted. -/
structure SendState where
  totalSent : Nat
  attempts : Nat
  written : List UInt8
  deriving DecidableEq, Repr

/-- The condition of the send loop. -/
def sending (len : UInt8) (st : SendState) : Bool :=
  st.totalSent < len.toNat + 4 && st.attempts < 5

/-- The bytes the send loop offers next. -/
def requested (len : UInt8) (st : SendState) : Nat := u32 (len.toNat + 4 - st.totalSent)

/-- One iteration of the send loop, `uart_write_bytes` having returned `sent`: -1,
or the number of offered bytes it took. -/
def sendStep (frame : List UInt8) (len : UInt8) (st : SendState) (sent : Int) : SendState :=
  let totalSent := u32 (st.totalSent + sent)
  { totalSent := totalSent
    attempts := if u32 sent < u32 (len.toNat - totalSent) then st.attempts + 1 else st.attempts
    written := st.written ++ (frame.drop st.totalSent).take sent.toNat }

/-- The send loop.  `uart k n` is the result of the `k`-th call of
`uart_write_bytes`, which is offered `n` bytes; `none` when `fuel` iterations do
not end it. -/
def sendLoop (uart : Nat → Nat → Int) (frame : List UInt8) (len : UInt8) :
    Nat → Nat → SendState → Option SendState
  | 0, _, _ => none
  | fuel + 1, k, st =>
    if sending len st then
      sendLoop uart frame len fuel (k + 1) (sendStep frame len st (uart k (requested len st)))
    else some st

/-- How a call of `KM_COMS_SendMsg` goes. -/
inductive SendResult where
  /-- A copy runs past the end of a buffer: undefined behaviour. -/
  | fault
  /-- Still in the send loop. -/
  | running
  /-- The returned code, and the bytes the UART accepted. -/
  | returned (code : Int) (written : List UInt8)
  deriving DecidableEq, Repr

/-- The frame `KM_COMS_SendMsg` builds. -/
def sendFrame (type : UInt8) (payload : List UInt8) (len : UInt8) : List UInt8 :=
  [sof, len, type] ++ payload.take len.toNat ++ [crc8 len type (payload.take len.toNat)]

/-- `KM_COMS_SendMsg`: the guard compares `len` with 256, `msg.payload` holds 251
bytes, and the result is decided by the attempts and by `total_sent`. -/
def sendMsg (uart : Nat → Nat → Int) (fuel : Nat) (type : UInt8) (payload : List UInt8)
    (len : UInt8) : SendResult :=
  if len.toNat > 256 then .returned (-1) []
  else if len.toNat > 251 then .fault
  else
    match sendLoop uart (sendFrame type payload len) len fuel 0 ⟨0, 0, []⟩ with
    | none => .running
    | some st =>
      if st.attempts ≥ 5 ∨ st.totalSent < 4 + len.toNat then .returned 0 st.written
      else .returned 1 st.written

/-- A UART that takes every byte it is offered. -/
def AcceptsAll (uart : Nat → Nat → Int) : Prop := ∀ k n, uart k n = n

/-- Messages sent one after the other, each call returning 1: the bytes on the
wire. -/
def sendAll (uart : Nat → Nat → Int) (fuel : Nat) : List Message → Option (List UInt8)
  | [] => some []
  | m :: ms =>
    match sendMsg uart fuel m.type m.payload (UInt8.ofNat m.payload.length) with
    | .returned 1 written => (sendAll uart fuel ms).map (written ++ ·)
    | _ => none

theorem Message.len_toNat (m : Message) :
    (UInt8.ofNat m.payload.length).toNat = m.payload.length := by
  have := m.short
  rw [UInt8.toNat_ofNat']
  omega

theorem sendFrame_eq_encode (m : Message) :
    sendFrame m.type m.payload (UInt8.ofNat m.payload.length) = wire.encode m.toFrame := by
  have := Message.len_toNat m
  simp [sendFrame, FrameFormat.encode, wire, this, crc8_agree]

/-- One accepted write sends the whole frame, although it counts as an attempt. -/
theorem sendMsg_acceptsAll {uart : Nat → Nat → Int} (h : AcceptsAll uart) (fuel : Nat)
    (m : Message) :
    sendMsg uart (fuel + 2) m.type m.payload (UInt8.ofNat m.payload.length) =
      .returned 1 (wire.encode m.toFrame) := by
  have hlen := Message.len_toNat m
  have hshort := m.short
  have hreq : requested (UInt8.ofNat m.payload.length) ⟨0, 0, []⟩ = m.payload.length + 4 := by
    simp only [requested, hlen, u32]
    omega
  have hsent : u32 ((0 : Nat) + ((m.payload.length + 4 : Nat) : Int)) = m.payload.length + 4 := by
    rw [u32]
    omega
  have htake : (wire.encode m.toFrame).take (m.payload.length + 4) = wire.encode m.toFrame := by
    rw [← wire.encode_length, List.take_length]
  have hloop : ∃ attempts, attempts ≤ 1 ∧
      sendLoop uart (wire.encode m.toFrame) (UInt8.ofNat m.payload.length) (fuel + 2) 0 ⟨0, 0, []⟩ =
        some ⟨m.payload.length + 4, attempts, wire.encode m.toFrame⟩ := by
    rw [sendLoop, if_pos (by simp [sending, hlen]), h, hreq, sendLoop, sendStep]
    simp only [hsent, List.drop_zero, List.nil_append, Int.toNat_natCast, htake]
    rw [if_neg (by simp [sending, hlen])]
    refine ⟨_, ?_, rfl⟩
    split <;> omega
  obtain ⟨attempts, hatt, hloop⟩ := hloop
  rw [sendMsg]
  rw [hlen, if_neg (by omega), if_neg (by omega), sendFrame_eq_encode, hloop]
  dsimp only
  rw [if_neg (by omega)]

/-- **On a UART that takes everything, the frames go out back to back.** -/
theorem sendAll_acceptsAll {uart : Nat → Nat → Int} (h : AcceptsAll uart) (fuel : Nat)
    (ms : List Message) :
    sendAll uart (fuel + 2) ms = some (wire.encodeAll (Message.frames ms)) := by
  induction ms with
  | nil => rfl
  | cons m ms ih =>
    rw [sendAll, sendMsg_acceptsAll h, ih]
    rfl

end KartStack.KmComs
