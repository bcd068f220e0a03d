import KartStack.WireFormat
import Mathlib.Data.List.GetD

/-! # The ESP32's receiver

`km_coms_ReceiveMsg` appends what the UART holds to the static `rx_buffer`, and
`KM_COMS_ProccessMsgs` walks that buffer by index, hands every message with the
right CRC to `KM_COMS_ProccessPayload`, and moves the bytes it could not use yet
to the front.

Only the first `rx_buffer_len` bytes matter (`RxState.content`).  On them,
receiving is `store` — append, or start over when the buffer would overflow — and
processing is the scanner of `FrameScan` that looks at four bytes at least
(`proccessMsgs_content`, `proccessMsgs_app`).
-/
namespace KartStack.KmComs

/-- `KM_COMS_MSG_MAX_LEN`. -/
def msgMaxLen : Nat := 256

/-- `KM_COMS_RX_CHUNK`. -/
def rxChunk : Nat := 64

/-- `sizeof(rx_buffer)`. -/
def rxCapacity : Nat := msgMaxLen - 1

/-- `km_coms_msg`. -/
structure Msg where
  len : UInt8
  type : UInt8
  payload : List UInt8
  crc : UInt8
  deriving DecidableEq, Repr

/-- The static variables `rx_buffer` and `rx_buffer_len`. -/
structure RxState where
  rxBuffer : List UInt8
  rxBufferLen : Nat
  size_eq : rxBuffer.length = rxCapacity
  len_le : rxBufferLen ≤ rxCapacity

/-- Static storage before the first call. -/
def RxState.init : RxState where
  rxBuffer := List.replicate rxCapacity 0
  rxBufferLen := 0
  size_eq := List.length_replicate
  len_le := Nat.zero_le _

/-- The bytes in use. -/
def RxState.content (s : RxState) : List UInt8 := s.rxBuffer.take s.rxBufferLen

@[simp] theorem RxState.content_length (s : RxState) : s.content.length = s.rxBufferLen := by
  rw [content, List.length_take, s.size_eq]
  exact Nat.min_eq_left s.len_le

/-- `memcpy(dst + off, src, n)`, and `memmove` within a buffer. -/
def memcpy (dst : List UInt8) (off : Nat) (src : List UInt8) : List UInt8 :=
  dst.take off ++ src ++ dst.drop (off + src.length)

theorem memcpy_length {dst : List UInt8} {off : Nat} {src : List UInt8}
    (h : off + src.length ≤ dst.length) : (memcpy dst off src).length = dst.length := by
  simp only [memcpy, List.length_append, List.length_take, List.length_drop]
  omega

theorem memcpy_take {dst : List UInt8} {off : Nat} {src : List UInt8} (h : off ≤ dst.length) :
    (memcpy dst off src).take (off + src.length) = dst.take off ++ src := by
  rw [memcpy]
  apply List.take_left'
  rw [List.length_append, List.length_take, Nat.min_eq_left h]

/-- What the UART answers during one `km_coms_ReceiveMsg`: the count of
`uart_get_buffered_data_len`, and the result of `uart_read_bytes` for a requested
count, `none` being -1. -/
structure UartRx where
  buffered : Nat
  read : Nat → Option (List UInt8)
  read_le : ∀ n bs, read n = some bs → bs.length ≤ n

/-- `bytes2read`. -/
def UartRx.bytes2read (uart : UartRx) : Nat :=
  if uart.buffered > rxChunk then rxChunk else uart.buffered

theorem UartRx.bytes2read_le (uart : UartRx) : uart.bytes2read ≤ rxChunk := by
  rw [bytes2read]
  split <;> omega

/-- The UART holds exactly `piece`. -/
def UartRx.holding (piece : List UInt8) : UartRx where
  buffered := piece.length
  read n := some (piece.take n)
  read_le n bs h := by
    obtain rfl := Option.some.inj h
    rw [List.length_take]
    exact Nat.min_le_left ..

/-- Copying a chunk to the internal buffer, which is reset when it would
overflow. -/
def RxState.append (s : RxState) (chunk : List UInt8) (h : chunk.length ≤ rxChunk) : RxState :=
  let len := if s.rxBufferLen + chunk.length > rxCapacity then 0 else s.rxBufferLen
  have hfit : len + chunk.length ≤ rxCapacity := by
    have h64 : rxChunk ≤ rxCapacity := by decide
    show (if _ then _ else _) + _ ≤ _
    split <;> omega
  { rxBuffer := memcpy s.rxBuffer len chunk
    rxBufferLen := len + chunk.length
    size_eq := by rw [memcpy_length (by rw [s.size_eq]; exact hfit), s.size_eq]
    len_le := hfit }

/-- `km_coms_ReceiveMsg`; `mutex` tells whether the semaphore is obtained.  A
result of -1 becomes a huge `size_t`, and copying that many bytes is undefined:
`none`. -/
def receiveMsg (mutex : Bool) (uart : UartRx) (s : RxState) : Option RxState :=
  if uart.buffered = 0 then some s
  else
    match h : uart.read uart.bytes2read with
    | none => if mutex then none else some s
    | some chunk =>
      if chunk.length = 0 then some s
      else if mutex then
        some (s.append chunk (Nat.le_trans (uart.read_le _ _ h) uart.bytes2read_le))
      else some s

section Proccess
variable {σ : Type} (proccessPayload : σ → Msg → σ)

/-- The loop of `KM_COMS_ProccessMsgs`, `fuel` bounding its iterations: the final
value of `processed`, and the application state after the calls of
`KM_COMS_ProccessPayload`. -/
def proccessLoop (rxBuffer : List UInt8) (rxBufferLen : Nat) : Nat → Nat → σ → Nat × σ
  | 0, processed, app => (processed, app)
  | fuel + 1, processed, app =>
    if rxBufferLen - processed ≥ 4 then
      if rxBuffer.getD processed 0 ≠ sof then
        proccessLoop rxBuffer rxBufferLen fuel (processed + 1) app
      else
        let payloadLen := rxBuffer.getD (processed + 1) 0
        let totalLen := 4 + payloadLen.toNat
        if rxBufferLen - processed < totalLen then (processed, app)
        else
          let msg : Msg :=
            { len := payloadLen
              type := rxBuffer.getD (processed + 2) 0
              payload := (rxBuffer.drop (processed + 3)).take payloadLen.toNat
              crc := rxBuffer.getD (processed + 3 + payloadLen.toNat) 0 }
          let crcCalc := crc8 msg.len msg.type msg.payload
          proccessLoop rxBuffer rxBufferLen fuel (processed + totalLen)
            (if crcCalc = msg.crc then proccessPayload app msg else app)
    else (processed, app)

/-- The compaction at the end of `KM_COMS_ProccessMsgs`. -/
def RxState.compact (s : RxState) (processed : Nat) : RxState :=
  if h : processed > 0 ∧ processed < s.rxBufferLen then
    { rxBuffer := memcpy s.rxBuffer 0 (s.content.drop processed)
      rxBufferLen := s.rxBufferLen - processed
      size_eq := by
        have := s.len_le
        rw [memcpy_length, s.size_eq]
        rw [List.length_drop, s.content_length, s.size_eq]
        omega
      len_le := Nat.le_trans (Nat.sub_le ..) s.len_le }
  else if processed ≥ s.rxBufferLen then
    { s with rxBufferLen := 0, len_le := Nat.zero_le _ }
  else s

/-- `KM_COMS_ProccessMsgs`.  Every iteration but the last moves `processed`, so
`rx_buffer_len` iterations are enough. -/
def proccessMsgs (mutex : Bool) (s : RxState) (app : σ) : RxState × σ :=
  if mutex then
    let r := proccessLoop proccessPayload s.rxBuffer s.rxBufferLen s.rxBufferLen 0 app
    (s.compact r.1, r.2)
  else (s, app)

end Proccess

/-! ## The buffer walk is a scanner -/

/-- The message built from a packet, if its CRC is right. -/
def msg? : Segment UInt8 → Option Msg
  | .packet l t p c => if crc8 l t p = c then some ⟨l, t, p, c⟩ else none
  | _ => none

/-- The messages handed on by a list of segments. -/
def msgs (segs : List (Segment UInt8)) : List Msg := segs.filterMap msg?

theorem msgs_cons (s : Segment UInt8) (segs : List (Segment UInt8)) :
    msgs (s :: segs) = (msg? s).toList ++ msgs segs := by
  unfold msgs
  cases h : msg? s <;> simp [h]

/-- A message as its receiver names it: type and payload. -/
def Msg.frame (m : Msg) : Frame UInt8 := ⟨m.type, m.payload⟩

theorem msgs_frames (segs : List (Segment UInt8)) :
    (msgs segs).map Msg.frame = wire.frames segs := by
  induction segs with
  | nil => rfl
  | cons s segs ih =>
    rw [msgs_cons, wire.frames_cons, List.map_append, ih]
    congr 1
    cases s with
    | packet l t p c =>
      by_cases hc : SerialDriver.crc8 l t p l = c
      · simp [msg?, FrameFormat.frame?, wire, crc8_agree, hc, Msg.frame]
      · simp [msg?, FrameFormat.frame?, wire, crc8_agree, hc]
    | junk b => rfl
    | lost bs => rfl

section Scan
variable {σ : Type} (proccessPayload : σ → Msg → σ)

/-- The loop stops where the scanner has to wait. -/
theorem proccessLoop_wait {pre xs post : List UInt8} {fuel : Nat} {app : σ}
    (hn : wire.next 4 xs = none) :
    proccessLoop proccessPayload (pre ++ (xs ++ post)) (pre.length + xs.length) fuel pre.length app =
      (pre.length, app) := by
  cases fuel with
  | zero => rfl
  | succ fuel =>
    rw [proccessLoop]
    rw [Nat.add_sub_cancel_left]
    by_cases h4 : xs.length ≥ 4
    · rw [if_pos h4]
      rcases wire.next_eq_none hn with hlt | rfl | rfl | ⟨l, rest, rfl, hrest⟩
      · omega
      · simp at h4
      · simp at h4
      · have hsof : (pre ++ (wire.sof :: l :: rest ++ post)).getD pre.length 0 = sof := by
          simp [wire]
        have hl : (pre ++ (wire.sof :: l :: rest ++ post)).getD (pre.length + 1) 0 = l := by
          simp
        rw [if_neg (not_not_intro hsof)]
        simp only [hl]
        have hrest' : rest.length < l.toNat + 2 := hrest
        rw [if_pos (by simp only [List.length_cons]; omega)]
    · rw [if_neg h4]

omit σ in
/-- The fields the loop reads, when a packet begins at `processed`. -/
theorem read_packet (pre tail : List UInt8) {p : List UInt8} {l : UInt8} (t c : UInt8)
    (hp : p.length = l.toNat) :
    let buf := pre ++ (sof :: l :: t :: (p ++ c :: tail))
    buf.getD pre.length 0 = sof ∧ buf.getD (pre.length + 1) 0 = l ∧
      buf.getD (pre.length + 2) 0 = t ∧ (buf.drop (pre.length + 3)).take l.toNat = p ∧
      buf.getD (pre.length + 3 + l.toNat) 0 = c := by
  intro buf
  refine ⟨by simp [buf], by simp [buf], by simp [buf], ?_, ?_⟩
  · have h3 : buf.drop (pre.length + 3) = p ++ c :: tail := by
      simp [buf, List.drop_append]
    rw [h3, ← hp, List.take_left]
  · have : buf = (pre ++ [sof, l, t] ++ p) ++ c :: tail := by simp [buf]
    have hidx : pre.length + 3 + l.toNat = (pre ++ [sof, l, t] ++ p).length := by
      simp only [List.length_append, List.length_cons, List.length_nil, hp]
    rw [this, hidx, List.getD_append_right _ _ _ _ (Nat.le_refl _), Nat.sub_self]
    rfl

/-- **The index loop of `KM_COMS_ProccessMsgs` is a scan** of the bytes from
`processed` on, whatever lies before and behind them in the buffer. -/
theorem proccessLoop_scan (post : List UInt8) (xs : List UInt8) :
    ∀ (pre : List UInt8) (fuel : Nat) (app : σ), xs.length ≤ fuel →
      proccessLoop proccessPayload (pre ++ (xs ++ post)) (pre.length + xs.length) fuel pre.length app =
        (pre.length + (xs.length - (wire.scan 4 xs).2.length),
          (msgs (wire.scan 4 xs).1).foldl proccessPayload app) := by
  induction xs using wire.scan_induction (m := 4) with
  | wait xs hn =>
    intro pre fuel app _
    rw [proccessLoop_wait proccessPayload hn, wire.scan_none hn, Nat.sub_self]
    rfl
  | take xs s r hn ih =>
    intro pre fuel app hfuel
    obtain ⟨h4, hs, rfl⟩ := wire.next_eq_some.mp hn
    have hres : (wire.scan 4 r).2.length ≤ r.length := by
      have := congrArg List.length (wire.scan_bytes 4 r)
      rw [List.length_append] at this
      omega
    obtain ⟨fuel, rfl⟩ : ∃ n, fuel = n + 1 := ⟨fuel - 1, by omega⟩
    have hpos := wire.bytes_length_pos hs
    -- the rest of the walk starts behind the segment
    have hrest := fun app' => ih (pre ++ wire.bytes s) fuel app' (by
      rw [List.length_append] at hfuel
      omega)
    simp only [List.append_assoc, List.length_append] at hrest
    rw [wire.scan_some hn, msgs_cons, List.foldl_append, List.append_assoc]
    rw [proccessLoop]
    rw [Nat.add_sub_cancel_left, if_pos h4]
    cases s with
    | junk b =>
      have hb : b ≠ sof := hs
      have hget : (pre ++ (wire.bytes (.junk b) ++ (r ++ post))).getD pre.length 0 = b := by
        simp [FrameFormat.bytes]
      rw [if_pos (by rw [hget]; exact hb)]
      have := hrest app
      simp only [FrameFormat.bytes, List.length_cons, List.length_nil, List.length_append,
        msg?] at this ⊢
      rw [show pre.length + (1 + r.length) = pre.length + 1 + r.length by omega] at *
      rw [this]
      simp only [Option.toList_none, List.foldl_nil, Prod.mk.injEq, and_true]
      omega
    | packet l t p c =>
      have hp : p.length = l.toNat := hs
      obtain ⟨h0, h1, h2, h3, h5⟩ := read_packet pre (r ++ post) t c hp
      have hbuf : pre ++ (wire.bytes (.packet l t p c) ++ (r ++ post)) =
          pre ++ (sof :: l :: t :: (p ++ c :: (r ++ post))) := by
        simp [FrameFormat.bytes, wire]
      have htot : (wire.bytes (.packet l t p c) ++ r).length = 4 + l.toNat + r.length := by
        simp only [FrameFormat.bytes, List.length_append, List.length_cons, List.length_nil, hp]
        omega
      have hlen : (wire.bytes (.packet l t p c)).length = 4 + l.toNat := by
        simp only [FrameFormat.bytes, List.length_append, List.length_cons, List.length_nil, hp]
        omega
      rw [hbuf] at hrest ⊢
      rw [htot]
      rw [if_neg (not_not_intro h0)]
      simp only [h1, h2, h3, h5]
      rw [if_neg (by omega)]
      have hgo := hrest (if crc8 l t p = c then proccessPayload app ⟨l, t, p, c⟩ else app)
      rw [hlen] at hgo
      rw [← Nat.add_assoc, hgo]
      apply Prod.ext (by dsimp only; omega)
      by_cases hc : crc8 l t p = c
      · simp [msg?, hc]
      · simp [msg?, hc]
    | lost bs => exact hs.elim

/-- What processing leaves and does, in terms of the scan of the bytes in use. -/
theorem proccessLoop_content (s : RxState) (app : σ) :
    proccessLoop proccessPayload s.rxBuffer s.rxBufferLen s.rxBufferLen 0 app =
      (s.rxBufferLen - (wire.scan 4 s.content).2.length,
        (msgs (wire.scan 4 s.content).1).foldl proccessPayload app) := by
  have hsplit : s.rxBuffer = s.content ++ s.rxBuffer.drop s.rxBufferLen :=
    (List.take_append_drop ..).symm
  have h := proccessLoop_scan proccessPayload (s.rxBuffer.drop s.rxBufferLen) s.content []
    s.rxBufferLen app (Nat.le_of_eq s.content_length)
  rw [List.nil_append, ← hsplit, s.content_length] at h
  simpa using h

end Scan

/-- Compaction keeps exactly the unprocessed bytes. -/
theorem compact_content (s : RxState) (processed : Nat) :
    (s.compact processed).content = s.content.drop processed := by
  rw [RxState.compact]
  split
  · have hlen : (s.content.drop processed).length = s.rxBufferLen - processed := by
      rw [List.length_drop, s.content_length]
    have : (memcpy s.rxBuffer 0 (s.content.drop processed)).take
        (0 + (s.content.drop processed).length) = _ := memcpy_take (Nat.zero_le _)
    rw [hlen, Nat.zero_add] at this
    simpa [RxState.content] using this
  · rename_i h₁
    split
    · rename_i h₂
      have : s.content.drop processed = [] := by
        rw [List.drop_eq_nil_iff, s.content_length]
        exact h₂
      rw [this]
      simp [RxState.content]
    · have : processed = 0 := by omega
      rw [this, List.drop_zero]

section Spec
variable {σ : Type} (proccessPayload : σ → Msg → σ) (s : RxState) (app : σ)

theorem proccessMsgs_app :
    (proccessMsgs proccessPayload true s app).2 =
      (msgs (wire.scan 4 s.content).1).foldl proccessPayload app := by
  simp [proccessMsgs, proccessLoop_content]

theorem proccessMsgs_content :
    (proccessMsgs proccessPayload true s app).1.content = (wire.scan 4 s.content).2 := by
  have hb := wire.scan_bytes 4 s.content
  have hlen := s.content_length
  simp only [proccessMsgs, proccessLoop_content, if_true]
  rw [compact_content]
  generalize wire.scan 4 s.content = r at hb ⊢
  rw [hb, List.length_append] at hlen
  rw [hb, show s.rxBufferLen - r.2.length = (r.1.flatMap wire.bytes).length by omega, List.drop_left]

end Spec

/-! ## Receiving, on the bytes in use -/

/-- Appending a chunk to the bytes in use, or starting over with it. -/
def store (content chunk : List UInt8) : List UInt8 :=
  if content.length + chunk.length > rxCapacity then chunk else content ++ chunk

theorem append_content (s : RxState) (chunk : List UInt8) (h : chunk.length ≤ rxChunk) :
    (s.append chunk h).content = store s.content chunk := by
  have hle := s.len_le
  have hsize := s.size_eq
  rw [store]
  rw [s.content_length]
  simp only [RxState.append, RxState.content]
  rw [memcpy_take (by split <;> omega)]
  split
  · simp
  · rfl

/-- The bytes `km_coms_ReceiveMsg` takes from the UART, if it gets a count. -/
def UartRx.chunk (uart : UartRx) : Option (List UInt8) :=
  if uart.buffered = 0 then some [] else uart.read uart.bytes2read

theorem UartRx.chunk_holding {piece : List UInt8} (h : piece.length ≤ rxChunk) :
    (UartRx.holding piece).chunk = some piece := by
  rw [chunk]
  by_cases h0 : piece.length = 0
  · simp [holding, List.length_eq_zero_iff.mp h0]
  · simp [holding, bytes2read, Nat.not_lt.mpr h, h0]

/-- **Receiving** a non-negative count appends the chunk, or starts over with it
when the buffer would overflow. -/
theorem receiveMsg_content {uart : UartRx} {chunk : List UInt8} (h : uart.chunk = some chunk)
    (s : RxState) : ∃ s', receiveMsg true uart s = some s' ∧ s'.content = store s.content chunk := by
  have hnil : store s.content [] = s.content := by
    have := s.len_le
    rw [store, if_neg (by simp; omega), List.append_nil]
  rw [UartRx.chunk] at h
  rw [receiveMsg]
  split at h
  · rename_i h0
    obtain rfl := Option.some.inj h
    exact ⟨s, by rw [if_pos h0], hnil.symm⟩
  · rename_i h0
    rw [if_neg h0]
    split
    · rename_i hr
      rw [hr] at h
      cases h
    · rename_i chunk' hr
      rw [hr] at h
      obtain rfl := Option.some.inj h
      by_cases hz : chunk'.length = 0
      · obtain rfl := List.length_eq_zero_iff.mp hz
        exact ⟨s, by simp, hnil.symm⟩
      · exact ⟨_, by rw [if_neg hz, if_pos rfl], append_content s chunk' _⟩

end KartStack.KmComs
