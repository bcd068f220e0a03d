import KartStack.MicroReceive
import KartStack.MicroSend
import KartStack.Transitions

/-! # Memory bounds of the ESP32's communication library

Each call of `km_coms.c` is followed with the places it touches in its four
arrays, and with the widths of its counters: `size_t` has 32 bits, so a result of
-1 is a huge count and sums wrap.  A touch outside an array is undefined, and a run
goes no further than the first one.

Two things are not checked by the code: a length of 252 and more passes a guard
that compares a `uint8_t` with 256, and a result of -1 of `uart_read_bytes` passes
as a count.  Without these every touch is inside (`touches_inside_iff`).  The copy
out of the wire's length byte, up to 255, is inside because a message is complete
in 255 bytes only if its payload has 251 at most.
-/
namespace KartStack.KmComs

/-- The arrays of `km_coms.c`. -/
inductive Region where
  | rxBuffer
  | uartChunk
  | msgPayload
  | frame
  deriving DecidableEq, Repr

/-- Their sizes. -/
def Region.size : Region → Nat
  | .rxBuffer => msgMaxLen - 1
  | .uartChunk => rxChunk
  | .msgPayload => msgMaxLen - 5
  | .frame => msgMaxLen - 1

/-- `count` bytes from `offset` on are read or written. -/
structure Access where
  region : Region
  offset : Nat
  count : Nat
  deriving DecidableEq, Repr

/-- The bytes are in the array. -/
def Access.Inside (a : Access) : Prop := a.offset + a.count ≤ a.region.size

instance (a : Access) : Decidable a.Inside := inferInstanceAs (Decidable (_ ≤ _))

/-- `rx_buffer` and `rx_buffer_len`, whatever they hold. -/
structure RxMemory where
  rxBuffer : List UInt8
  rxBufferLen : Nat
  deriving DecidableEq, Repr

/-- The static variables of a receiver whose bounds are known. -/
def RxState.memory (s : RxState) : RxMemory := ⟨s.rxBuffer, s.rxBufferLen⟩

/-! ## `KM_COMS_SendMsg` -/

/-- The results of `uart_write_bytes`: for the `k`-th call and `n` bytes offered, -1
or a count up to `n`. -/
structure UartTx where
  write : Nat → Nat → Int
  ge : ∀ k n, -1 ≤ write k n
  le : ∀ k n, write k n ≤ n

/-- What the first `fuel` iterations of the send loop offer. -/
def sendReads (uart : UartTx) (frame : List UInt8) (len : UInt8) :
    Nat → Nat → SendState → List Access
  | 0, _, _ => []
  | fuel + 1, k, st =>
    if sending len st then
      ⟨.frame, st.totalSent, requested len st⟩ ::
        sendReads uart frame len fuel (k + 1)
          (sendStep frame len st (uart.write k (requested len st)))
    else []

/-- What `KM_COMS_SendMsg` touches up to iteration `fuel` of its loop. -/
def sendTouches (uart : UartTx) (fuel : Nat) (type : UInt8) (payload : List UInt8)
    (len : UInt8) : List Access :=
  if len.toNat > msgMaxLen then []
  else
    -- the copy, the CRC, the header, the second copy, and the CRC's place
    [⟨.msgPayload, 0, len.toNat⟩, ⟨.msgPayload, 0, len.toNat⟩, ⟨.frame, 0, 3⟩,
      ⟨.msgPayload, 0, len.toNat⟩, ⟨.frame, 3, len.toNat⟩, ⟨.frame, 3 + len.toNat, 1⟩] ++
      sendReads uart (sendFrame type payload len) len fuel 0 ⟨0, 0, []⟩

/-! ## `km_coms_ReceiveMsg` -/

/-- `len_read`, the result of `uart_read_bytes` as a `size_t`. -/
def UartRx.lenRead (uart : UartRx) : Nat :=
  match uart.read uart.bytes2read with
  | none => u32 (-1)
  | some chunk => chunk.length

/-- Where the chunk goes: to the end, or to the start when the sum, taken in 32
bits, is above the capacity. -/
def RxMemory.base (s : RxMemory) (lenRead : Nat) : Nat :=
  if u32 (s.rxBufferLen + lenRead) > rxCapacity then 0 else s.rxBufferLen

/-- What `km_coms_ReceiveMsg` touches. -/
def receiveTouches (mutex : Bool) (uart : UartRx) (s : RxMemory) : List Access :=
  if uart.buffered = 0 then []
  else
    ⟨.uartChunk, 0, uart.bytes2read⟩ ::
      if uart.lenRead = 0 ∨ mutex = false then []
      else [⟨.uartChunk, 0, uart.lenRead⟩, ⟨.rxBuffer, s.base uart.lenRead, uart.lenRead⟩]

/-- The static variables after `km_coms_ReceiveMsg`. -/
def receiveNext (mutex : Bool) (uart : UartRx) (s : RxMemory) : RxMemory :=
  if uart.buffered = 0 then s
  else if uart.lenRead = 0 ∨ mutex = false then s
  else
    match uart.read uart.bytes2read with
    | none => s
    | some chunk =>
      { rxBuffer := memcpy s.rxBuffer (s.base uart.lenRead) chunk
        rxBufferLen := u32 (s.base uart.lenRead + uart.lenRead) }

/-! ## `KM_COMS_ProccessMsgs` -/

/-- The loop of `KM_COMS_ProccessMsgs`: the final `processed`, and what is touched
on the way.  The CRC and `KM_COMS_ProccessPayload` read the copied payload. -/
def proccessWalk (rxBuffer : List UInt8) (rxBufferLen : Nat) : Nat → Nat → Nat × List Access
  | 0, processed => (processed, [])
  | fuel + 1, processed =>
    if u32 (rxBufferLen - processed) ≥ 4 then
      if rxBuffer.getD processed 0 ≠ sof then
        let r := proccessWalk rxBuffer rxBufferLen fuel (processed + 1)
        (r.1, ⟨.rxBuffer, processed, 1⟩ :: r.2)
      else
        let payloadLen := (rxBuffer.getD (processed + 1) 0).toNat
        let totalLen := 4 + payloadLen
        if u32 (rxBufferLen - processed) < totalLen then
          (processed, [⟨.rxBuffer, processed, 1⟩, ⟨.rxBuffer, processed + 1, 1⟩])
        else
          let r := proccessWalk rxBuffer rxBufferLen fuel (processed + totalLen)
          (r.1, [⟨.rxBuffer, processed, 1⟩, ⟨.rxBuffer, processed + 1, 1⟩,
            ⟨.rxBuffer, processed + 2, 1⟩, ⟨.rxBuffer, processed + 3, payloadLen⟩,
            ⟨.msgPayload, 0, payloadLen⟩, ⟨.rxBuffer, processed + 3 + payloadLen, 1⟩,
            ⟨.msgPayload, 0, payloadLen⟩] ++ r.2)
    else (processed, [])

/-- What `KM_COMS_ProccessMsgs` touches. -/
def proccessTouches (mutex : Bool) (s : RxMemory) : List Access :=
  if mutex then
    let r := proccessWalk s.rxBuffer s.rxBufferLen s.rxBufferLen 0
    r.2 ++
      if r.1 > 0 ∧ r.1 < s.rxBufferLen then
        [⟨.rxBuffer, r.1, s.rxBufferLen - r.1⟩, ⟨.rxBuffer, 0, s.rxBufferLen - r.1⟩]
      else []
  else []

/-- The static variables after `KM_COMS_ProccessMsgs`. -/
def proccessNext (mutex : Bool) (s : RxMemory) : RxMemory :=
  if mutex then
    let processed := (proccessWalk s.rxBuffer s.rxBufferLen s.rxBufferLen 0).1
    if processed > 0 ∧ processed < s.rxBufferLen then
      { rxBuffer := memcpy s.rxBuffer 0 ((s.rxBuffer.take s.rxBufferLen).drop processed)
        rxBufferLen := s.rxBufferLen - processed }
    else if processed ≥ s.rxBufferLen then { s with rxBufferLen := 0 }
    else s
  else s

/-! ## Runs -/

/-- A call of the library's interface, with what the UART and the semaphore answer;
`fuel` is the number of iterations a send loop has got to. -/
inductive MemoryCall where
  | send (uart : UartTx) (fuel : Nat) (type : UInt8) (payload : List UInt8) (len : UInt8)
  | receive (mutex : Bool) (uart : UartRx)
  | proccess (mutex : Bool)

/-- What a call touches. -/
def touches (s : RxMemory) : MemoryCall → List Access
  | .send uart fuel type payload len => sendTouches uart fuel type payload len
  | .receive mutex uart => receiveTouches mutex uart s
  | .proccess mutex => proccessTouches mutex s

/-- The static variables after a call. -/
def next (s : RxMemory) : MemoryCall → RxMemory
  | .send .. => s
  | .receive mutex uart => receiveNext mutex uart s
  | .proccess mutex => proccessNext mutex s

/-- One call; `none` where it touches something outside. -/
def memoryStep (s : RxMemory) (call : MemoryCall) : Option RxMemory :=
  if ∀ a ∈ touches s call, a.Inside then some (next s call) else none

/-- Everything the call touches is inside, and `rx_buffer_len` within the buffer. -/
def StaysInside (s : RxMemory) (call : MemoryCall) : Prop :=
  (∀ a ∈ touches s call, a.Inside) ∧ (next s call).rxBufferLen ≤ rxCapacity

/-- What the code does not check: a length up to 251, and a count for a result when
the semaphore is obtained. -/
def Unchecked (_ : RxMemory) : MemoryCall → Prop
  | .send _ _ _ _ len => len.toNat ≤ 251
  | .receive mutex uart => mutex = true → uart.chunk ≠ none
  | .proccess _ => True

/-- The buffer has its size, and `rx_buffer_len` is within it. -/
structure RxMemory.Sound (s : RxMemory) : Prop where
  size_eq : s.rxBuffer.length = rxCapacity
  len_le : s.rxBufferLen ≤ rxCapacity

/-! ## Sending -/

/-- `total_sent` is a count of the frame's bytes, or -1 as a `size_t`. -/
def SendState.Counts (len : UInt8) (st : SendState) : Prop :=
  st.totalSent ≤ len.toNat + 4 ∨ st.totalSent = 4294967295

theorem sendStep_counts (uart : UartTx) (frame : List UInt8) {len : UInt8} {st : SendState}
    (hst : sending len st = true) (k : Nat) :
    SendState.Counts len (sendStep frame len st (uart.write k (requested len st))) := by
  have hlen := len.toNat_lt
  have hlt : st.totalSent < len.toNat + 4 := by
    rw [sending, Bool.and_eq_true] at hst
    exact of_decide_eq_true hst.1
  have hge := uart.ge k (requested len st)
  have hle := uart.le k (requested len st)
  have hreq : requested len st = len.toNat + 4 - st.totalSent := by
    simp only [requested, u32]
    omega
  rw [hreq] at hge hle
  simp only [SendState.Counts, sendStep, u32, hreq]
  omega

/-- The loop offers bytes of the frame only. -/
theorem sendReads_inside (uart : UartTx) (frame : List UInt8) {len : UInt8}
    (hlen : len.toNat ≤ 251) (fuel k : Nat) {st : SendState} (hst : SendState.Counts len st) :
    ∀ a ∈ sendReads uart frame len fuel k st, a.Inside := by
  induction fuel generalizing k st with
  | zero => exact List.forall_mem_nil _
  | succ fuel ih =>
    rw [sendReads]
    split
    · rename_i hsending
      intro a ha
      rcases List.mem_cons.mp ha with rfl | ha
      · have hlt : st.totalSent < len.toNat + 4 := by
          rw [sending, Bool.and_eq_true] at hsending
          exact of_decide_eq_true hsending.1
        have hreq : requested len st = len.toNat + 4 - st.totalSent := by
          simp only [requested, u32]
          omega
        show st.totalSent + requested len st ≤ 255
        omega
      · exact ih (k + 1) (sendStep_counts uart frame hsending k) a ha
    · exact List.forall_mem_nil _

/-- **Sending stays inside exactly up to 251 bytes of payload.** -/
theorem sendTouches_inside_iff (uart : UartTx) (fuel : Nat) (type : UInt8) (payload : List UInt8)
    (len : UInt8) :
    (∀ a ∈ sendTouches uart fuel type payload len, a.Inside) ↔ len.toNat ≤ 251 := by
  have hlt := len.toNat_lt
  have hguard : ¬ len.toNat > msgMaxLen := by
    rw [msgMaxLen]
    omega
  rw [sendTouches, if_neg hguard]
  constructor
  · intro h
    have hcopy : 0 + len.toNat ≤ 251 := h ⟨.msgPayload, 0, len.toNat⟩ (by simp)
    omega
  · intro h a ha
    rcases List.mem_append.mp ha with ha | ha
    · have hall : ∀ a ∈ [(⟨.msgPayload, 0, len.toNat⟩ : Access), ⟨.msgPayload, 0, len.toNat⟩,
          ⟨.frame, 0, 3⟩, ⟨.msgPayload, 0, len.toNat⟩, ⟨.frame, 3, len.toNat⟩,
          ⟨.frame, 3 + len.toNat, 1⟩], a.Inside := by
        simp only [List.forall_mem_cons, Access.Inside, Region.size, msgMaxLen]
        refine ⟨?_, ?_, ?_, ?_, ?_, ?_, List.forall_mem_nil _⟩ <;> omega
      exact hall a ha
    · exact sendReads_inside uart _ h fuel 0 (Or.inl (Nat.zero_le _)) a ha

/-! ## Receiving -/

/-- A count is a chunk's length. -/
theorem UartRx.lenRead_of_read {uart : UartRx} {chunk : List UInt8}
    (h : uart.read uart.bytes2read = some chunk) :
    uart.lenRead = chunk.length ∧ chunk.length ≤ rxChunk := by
  refine ⟨?_, Nat.le_trans (uart.read_le _ _ h) uart.bytes2read_le⟩
  rw [lenRead, h]

/-- A chunk is copied to where it fits. -/
theorem RxMemory.Sound.base_add_le {s : RxMemory} (hs : s.Sound) {n : Nat} (hn : n ≤ rxChunk) :
    s.base n + n ≤ rxCapacity := by
  have hlen : s.rxBufferLen ≤ 255 := hs.len_le
  have hn' : n ≤ 64 := hn
  have hcap : rxCapacity = 255 := rfl
  rw [base, hcap, u32]
  split <;> omega

theorem receiveTouches_inside_iff {s : RxMemory} (hs : s.Sound) (mutex : Bool) (uart : UartRx) :
    (∀ a ∈ receiveTouches mutex uart s, a.Inside) ↔ (mutex = true → uart.chunk ≠ none) := by
  rw [receiveTouches, UartRx.chunk]
  by_cases h0 : uart.buffered = 0
  · rw [if_pos h0, if_pos h0]
    exact iff_of_true (List.forall_mem_nil _) (fun _ => Option.some_ne_none _)
  rw [if_neg h0, if_neg h0]
  have hfirst : (⟨.uartChunk, 0, uart.bytes2read⟩ : Access).Inside :=
    Nat.le_trans (Nat.le_of_eq (Nat.zero_add _)) uart.bytes2read_le
  rw [List.forall_mem_cons, and_iff_right hfirst]
  cases hread : uart.read uart.bytes2read with
  | none =>
    have hlen : uart.lenRead = 4294967295 := by
      rw [UartRx.lenRead, hread]
      rfl
    cases mutex with
    | false => simp
    | true =>
      refine iff_of_false ?_ (fun h => h rfl rfl)
      intro h
      rw [hlen, if_neg (by simp)] at h
      have hchunk : 0 + 4294967295 ≤ rxChunk := h _ (List.mem_cons_self ..)
      exact absurd hchunk (by decide)
  | some chunk =>
    obtain ⟨hlen, hle⟩ := UartRx.lenRead_of_read hread
    refine iff_of_true ?_ (fun _ => Option.some_ne_none _)
    rw [hlen]
    split
    · exact List.forall_mem_nil _
    · simp only [List.forall_mem_cons]
      refine ⟨Nat.le_trans (Nat.le_of_eq (Nat.zero_add _)) hle, hs.base_add_le hle, ?_⟩
      exact List.forall_mem_nil _

theorem receiveNext_sound {s : RxMemory} (hs : s.Sound) (mutex : Bool) (uart : UartRx) :
    (receiveNext mutex uart s).Sound := by
  rw [receiveNext]
  split
  · exact hs
  split
  · exact hs
  split
  · exact hs
  · rename_i chunk hread
    obtain ⟨hlen, hle⟩ := UartRx.lenRead_of_read hread
    have hfit := hs.base_add_le hle
    rw [hlen]
    refine ⟨?_, ?_⟩
    · rw [memcpy_length (by rw [hs.size_eq]; exact hfit), hs.size_eq]
    · have hcap : rxCapacity = 255 := rfl
      show u32 (s.base chunk.length + chunk.length) ≤ rxCapacity
      rw [u32]
      omega

/-! ## Processing -/

/-- **The walk stays inside**: what it reads lies before `rx_buffer_len`, so the
payloads it copies have 251 bytes at most. -/
theorem proccessWalk_inside (rxBuffer : List UInt8) {rxBufferLen : Nat}
    (hlen : rxBufferLen ≤ rxCapacity) (fuel : Nat) {processed : Nat}
    (hp : processed ≤ rxBufferLen) :
    (proccessWalk rxBuffer rxBufferLen fuel processed).1 ≤ rxBufferLen ∧
      ∀ a ∈ (proccessWalk rxBuffer rxBufferLen fuel processed).2, a.Inside := by
  have hcap : rxBufferLen ≤ 255 := hlen
  induction fuel generalizing processed with
  | zero => exact ⟨hp, List.forall_mem_nil _⟩
  | succ fuel ih =>
    have hleft : u32 (rxBufferLen - processed) = rxBufferLen - processed := by
      rw [u32]
      omega
    rw [proccessWalk, hleft]
    split
    · rename_i h4
      split
      · have hrest := ih (show processed + 1 ≤ rxBufferLen by omega)
        refine ⟨hrest.1, ?_⟩
        rw [List.forall_mem_cons]
        refine ⟨?_, hrest.2⟩
        show processed + 1 ≤ 255
        omega
      · dsimp only
        generalize (rxBuffer.getD (processed + 1) 0).toNat = payloadLen
        split
        · refine ⟨hp, ?_⟩
          simp only [List.forall_mem_cons, Access.Inside, Region.size, msgMaxLen]
          refine ⟨by omega, by omega, List.forall_mem_nil _⟩
        · have hrest := ih (show processed + (4 + payloadLen) ≤ rxBufferLen by omega)
          refine ⟨hrest.1, ?_⟩
          rw [List.forall_mem_append]
          refine ⟨?_, hrest.2⟩
          simp only [List.forall_mem_cons, Access.Inside, Region.size, msgMaxLen]
          refine ⟨?_, ?_, ?_, ?_, ?_, ?_, ?_, List.forall_mem_nil _⟩ <;> omega
    · exact ⟨hp, List.forall_mem_nil _⟩

theorem proccessTouches_inside {s : RxMemory} (hs : s.Sound) (mutex : Bool) :
    ∀ a ∈ proccessTouches mutex s, a.Inside := by
  rw [proccessTouches]
  split
  · obtain ⟨hle, hin⟩ :=
      proccessWalk_inside s.rxBuffer hs.len_le s.rxBufferLen (Nat.zero_le s.rxBufferLen)
    have hcap : s.rxBufferLen ≤ 255 := hs.len_le
    dsimp only
    rw [List.forall_mem_append]
    refine ⟨hin, ?_⟩
    split
    · simp only [List.forall_mem_cons, Access.Inside, Region.size, msgMaxLen]
      refine ⟨by omega, by omega, List.forall_mem_nil _⟩
    · exact List.forall_mem_nil _
  · exact List.forall_mem_nil _

theorem proccessNext_sound {s : RxMemory} (hs : s.Sound) (mutex : Bool) :
    (proccessNext mutex s).Sound := by
  have hcap : s.rxBufferLen ≤ 255 := hs.len_le
  have hsize : s.rxBuffer.length = 255 := hs.size_eq
  rw [proccessNext]
  split
  · dsimp only
    split
    · refine ⟨?_, Nat.le_trans (Nat.sub_le ..) hs.len_le⟩
      rw [memcpy_length, hs.size_eq]
      rw [List.length_drop, List.length_take, hsize]
      omega
    · split
      · exact ⟨hs.size_eq, Nat.zero_le _⟩
      · exact hs
  · exact hs

/-! ## The same receiver -/

/-- As far as `km_coms_ReceiveMsg` is defined, it is the receiver whose bounds are
known. -/
theorem receiveNext_memory {mutex : Bool} {uart : UartRx} {s s' : RxState}
    (h : receiveMsg mutex uart s = some s') :
    receiveNext mutex uart s.memory = s'.memory := by
  have hs : s.memory.Sound := ⟨s.size_eq, s.len_le⟩
  rw [receiveMsg] at h
  rw [receiveNext]
  split at h
  · rename_i h0
    obtain rfl := Option.some.inj h
    rw [if_pos h0]
  rename_i h0
  rw [if_neg h0]
  split at h
  · rename_i hread
    cases mutex with
    | false =>
      obtain rfl := Option.some.inj h
      rw [if_pos (Or.inr rfl)]
    | true => cases h
  · rename_i chunk hread
    obtain ⟨hlen, hle⟩ := UartRx.lenRead_of_read hread
    rw [hlen]
    split at h
    · rename_i hz
      obtain rfl := Option.some.inj h
      rw [if_pos (Or.inl hz)]
    · rename_i hz
      cases mutex with
      | false =>
        obtain rfl := Option.some.inj h
        rw [if_pos (Or.inr rfl)]
      | true =>
        obtain rfl := Option.some.inj h
        have hfit := hs.base_add_le hle
        have hbase : s.memory.base chunk.length =
            if s.rxBufferLen + chunk.length > rxCapacity then 0 else s.rxBufferLen := by
          have hcap : s.rxBufferLen ≤ 255 := s.len_le
          have hchunk : chunk.length ≤ 64 := hle
          have hsum : u32 (s.rxBufferLen + chunk.length) = s.rxBufferLen + chunk.length := by
            rw [u32]
            omega
          rw [RxMemory.base]
          simp only [RxState.memory, hsum]
        have hend : u32 (s.memory.base chunk.length + chunk.length) =
            s.memory.base chunk.length + chunk.length := by
          have hcap : rxCapacity = 255 := rfl
          rw [u32]
          omega
        rw [if_neg (by simp [hz])]
        simp only [hread, hend]
        simp only [hbase]
        rfl

/-- The walk ends where the loop of the receiver does. -/
theorem proccessWalk_fst {σ : Type} (f : σ → Msg → σ) (rxBuffer : List UInt8) {rxBufferLen : Nat}
    (hlen : rxBufferLen ≤ rxCapacity) (fuel : Nat) {processed : Nat}
    (hp : processed ≤ rxBufferLen) (app : σ) :
    (proccessWalk rxBuffer rxBufferLen fuel processed).1 =
      (proccessLoop f rxBuffer rxBufferLen fuel processed app).1 := by
  have hcap : rxBufferLen ≤ 255 := hlen
  induction fuel generalizing processed app with
  | zero => rfl
  | succ fuel ih =>
    have hleft : u32 (rxBufferLen - processed) = rxBufferLen - processed := by
      rw [u32]
      omega
    rw [proccessWalk, proccessLoop, hleft]
    by_cases h4 : rxBufferLen - processed ≥ 4
    · rw [if_pos h4, if_pos h4]
      by_cases hsof : rxBuffer.getD processed 0 ≠ sof
      · rw [if_pos hsof, if_pos hsof]
        exact ih (by omega) app
      · rw [if_neg hsof, if_neg hsof]
        dsimp only
        by_cases hshort : rxBufferLen - processed < 4 + (rxBuffer.getD (processed + 1) 0).toNat
        · rw [if_pos hshort, if_pos hshort]
        · rw [if_neg hshort, if_neg hshort]
          exact ih (by omega) _
    · rw [if_neg h4, if_neg h4]

theorem proccessNext_memory {σ : Type} (f : σ → Msg → σ) (mutex : Bool) (s : RxState) (app : σ) :
    proccessNext mutex s.memory = (proccessMsgs f mutex s app).1.memory := by
  cases mutex with
  | false => rfl
  | true =>
    have hfst := proccessWalk_fst f s.rxBuffer s.len_le s.rxBufferLen (Nat.zero_le _) app
    rw [proccessNext, proccessMsgs, if_pos rfl, if_pos rfl]
    simp only [RxState.memory, hfst]
    rw [RxState.compact]
    split
    · rfl
    · split <;> rfl

/-! ## Runs stay inside -/

/-- Whatever is called, the variables are sound afterwards. -/
theorem next_sound {s : RxMemory} (hs : s.Sound) (call : MemoryCall) : (next s call).Sound := by
  cases call with
  | send uart fuel type payload len => exact hs
  | receive mutex uart => exact receiveNext_sound hs mutex uart
  | proccess mutex => exact proccessNext_sound hs mutex

/-- **One call stays inside exactly if what is not checked holds.** -/
theorem staysInside_iff {s : RxMemory} (hs : s.Sound) (call : MemoryCall) :
    StaysInside s call ↔ Unchecked s call := by
  rw [StaysInside, and_iff_left (next_sound hs call).len_le]
  cases call with
  | send uart fuel type payload len => exact sendTouches_inside_iff uart fuel type payload len
  | receive mutex uart => exact receiveTouches_inside_iff hs mutex uart
  | proccess mutex => exact iff_of_true (proccessTouches_inside hs mutex) trivial

/-- **A run stays inside exactly if every call meets what the code does not
check**, whatever is in the buffer when it begins. -/
theorem touches_inside_iff (s : RxState) (calls : List MemoryCall) :
    Transitions.Along memoryStep StaysInside s.memory calls ↔
      Transitions.Along memoryStep Unchecked s.memory calls := by
  have hiff : ∀ s call, RxMemory.Sound s → (StaysInside s call ↔ Unchecked s call) :=
    fun _ call hs => staysInside_iff hs call
  have hstep : ∀ s call s', RxMemory.Sound s → Unchecked s call →
      memoryStep s call = some s' → RxMemory.Sound s' := by
    intro s call s' hs _ hstep
    rw [memoryStep] at hstep
    split at hstep
    · obtain rfl := Option.some.inj hstep
      exact next_sound hs call
    · cases hstep
  exact Transitions.along_iff_of_inv hiff hstep ⟨s.size_eq, s.len_le⟩ calls

/-- A UART that takes what it is offered. -/
def UartTx.idle : UartTx where
  write _ n := n
  ge _ _ := by omega
  le _ _ := Int.le_refl _

/-- A UART that announces a byte and then fails to read it. -/
def UartRx.failing : UartRx where
  buffered := 1
  read _ := none
  read_le _ _ h := by cases h

/-- **A payload of 252 bytes, which the guard admits, is copied past the end of
`msg.payload`; and a failed read past the end of both receive arrays.** -/
theorem memory_overrun :
    ¬ Transitions.Along memoryStep StaysInside RxState.init.memory
        [.send .idle 1 0x01 (List.replicate 252 0) 252] ∧
      ¬ Transitions.Along memoryStep StaysInside RxState.init.memory [.receive true .failing] := by
  have hs : RxState.init.memory.Sound := ⟨RxState.init.size_eq, RxState.init.len_le⟩
  constructor
  · rintro ⟨h, -⟩
    have hlen : (252 : UInt8).toNat ≤ 251 := (staysInside_iff hs _).mp h
    exact absurd hlen (by decide)
  · rintro ⟨h, -⟩
    have hread : true = true → UartRx.failing.chunk ≠ none := (staysInside_iff hs _).mp h
    exact hread rfl rfl

end KartStack.KmComs
