import KartStack.WireFormat

/-! # The Orin's receiver

`SerialDriver::process_byte` is a byte-driven state machine; `rx_loop` feeds it
whatever `read()` returns.  The state machine is the scanner of `FrameScan` with
its residue spread over the fields `state_`, `len_`, `type_` and `payload_`
(`Holds`), so feeding it any bytes delivers exactly the frames of the scan
(`feed_scan`).
-/
namespace KartStack.SerialDriver

/-- `SerialDriver::MAX_PAYLOAD`, a `size_t`. -/
def maxPayload : Nat := 255

/-- `SerialDriver::State`. -/
inductive State where
  | waitSof
  | len
  | type
  | payload
  | crc
  deriving DecidableEq, Repr

/-- The parser variables and counters of a `SerialDriver`. -/
structure Parser where
  state : State := .waitSof
  len : UInt8 := 0
  type : UInt8 := 0
  index : UInt8 := 0
  payload : List UInt8 := []
  /-- `frame_start_`, a steady-clock reading. -/
  frameStart : Nat := 0
  rxOk : UInt64 := 0
  rxCrcError : UInt64 := 0
  rxTimeout : UInt64 := 0
  deriving DecidableEq, Repr

/-- A received byte, with the steady-clock reading `process_byte` takes for it. -/
structure RxByte where
  byte : UInt8
  now : Nat
  deriving DecidableEq, Repr

/-- `process_byte`: the parser afterwards, and the frame handed to the callback,
if any. -/
def processByte (p : Parser) (now : Nat) (byte : UInt8) : Parser × Option (Frame UInt8) :=
  match p.state with
  | .waitSof =>
    if byte = sof then
      ({ p with frameStart := now, state := .len, payload := [], len := 0, index := 0 }, none)
    else (p, none)
  | .len =>
    let p := { p with len := byte }
    if p.len.toNat > maxPayload then ({ p with state := .waitSof }, none)
    else ({ p with state := .type }, none)
  | .type =>
    ({ p with type := byte, index := 0, payload := [],
              state := if p.len = 0 then .crc else .payload }, none)
  | .payload =>
    let p := { p with payload := p.payload ++ [byte] }
    (if p.payload.length = p.len.toNat then { p with state := .crc } else p, none)
  | .crc =>
    let crc := crc8 p.len p.type p.payload p.len
    if crc = byte then
      ({ p with rxOk := p.rxOk + 1, state := .waitSof },
        some ⟨p.type, p.payload.take p.len.toNat⟩)
    else ({ p with rxCrcError := p.rxCrcError + 1, state := .waitSof }, none)

/-- `process_byte` over a buffer: the parser and the frames handed to the callback. -/
def feed : Parser → List RxByte → Parser × List (Frame UInt8)
  | p, [] => (p, [])
  | p, b :: bs =>
    let r := processByte p b.now b.byte
    let q := feed r.1 bs
    (q.1, r.2.toList ++ q.2)

/-- `rx_loop` on entry: the parser state of a previous connection is dropped. -/
def resetParser (p : Parser) : Parser :=
  { p with state := .waitSof, len := 0, type := 0, index := 0, payload := [] }

/-- The body of `rx_loop` once `read()` has put `data` behind the `buffered` bytes:
the parser, the frames delivered, and the bytes moved to the start of the buffer. -/
def rxIteration (p : Parser) (buffered data : List RxByte) :
    Parser × List (Frame UInt8) × List RxByte :=
  let buffer := buffered ++ data
  let r := feed p buffer
  let processed := buffer.length
  (r.1, r.2, if processed < buffer.length then buffer.drop processed else [])

/-- The iterations of `rx_loop` over successive results of `read()`, an empty
result being the error that ends the loop. -/
def rxIterations : Parser → List RxByte → List (List RxByte) → Parser × List (Frame UInt8)
  | p, _, [] => (p, [])
  | p, buffered, data :: reads =>
    if data = [] then (p, [])
    else
      let r := rxIteration p buffered data
      let q := rxIterations r.1 r.2.2 reads
      (q.1, r.2.1 ++ q.2)

/-- `rx_loop` over successive results of `read()`. -/
def rxLoop (p : Parser) (reads : List (List RxByte)) : Parser × List (Frame UInt8) :=
  rxIterations (resetParser p) [] reads

/-- `build_frame`. -/
def buildFrame (type : UInt8) (payload : List UInt8) : List UInt8 :=
  let len : UInt8 := UInt8.ofNat payload.length
  [sof, len, type] ++ payload ++ [crc8 len type payload len]

/-- What `send` does to `tx_queue_`. -/
def enqueue (txQueue : List (List UInt8)) (type : UInt8) (payload : List UInt8) :
    List (List UInt8) :=
  if payload.length > 251 then txQueue else txQueue ++ [buildFrame type payload]

theorem buildFrame_eq_encode (type : UInt8) (payload : List UInt8) :
    buildFrame type payload = wire.encode ⟨type, payload⟩ := by
  simp [buildFrame, FrameFormat.encode, wire]

/-- The queue after sending messages in turn. -/
theorem foldl_enqueue (ms : List Message) (q : List (List UInt8)) :
    ms.foldl (fun q m => enqueue q m.type m.payload) q =
      q ++ (Message.frames ms).map wire.encode := by
  induction ms generalizing q with
  | nil => simp [Message.frames]
  | cons m ms ih =>
    have h : ¬ m.payload.length > 251 := Nat.not_lt.mpr m.short
    rw [List.foldl_cons, ih, enqueue, if_neg h, buildFrame_eq_encode]
    simp [Message.frames]

/-! ## The state machine is a scanner -/

/-- The parser holds exactly the residue `r` of the stream it has been fed. -/
def Holds (p : Parser) (r : List UInt8) : Prop :=
  match p.state with
  | .waitSof => r = []
  | .len => r = [sof]
  | .type => r = [sof, p.len]
  | .payload => r = sof :: p.len :: p.type :: p.payload ∧ p.payload.length < p.len.toNat
  | .crc => r = sof :: p.len :: p.type :: p.payload ∧ p.payload.length = p.len.toNat

/-- What one step of the parser must agree with: the residue, the frames and the
counters of the scan of the same bytes. -/
structure Agrees (p : Parser) (scanned : List (Segment UInt8) × List UInt8) (p' : Parser)
    (delivered : List (Frame UInt8)) : Prop where
  holds : Holds p' scanned.2
  delivered_eq : delivered = wire.frames scanned.1
  rxOk_eq : p'.rxOk = p.rxOk + UInt64.ofNat delivered.length
  rxCrcError_eq : p'.rxCrcError = p.rxCrcError + UInt64.ofNat (wire.rejects scanned.1)

/-- A byte that completes nothing is kept. -/
theorem Agrees.wait {p p' : Parser} {xs : List UInt8} (hn : wire.next 0 xs = none)
    (hh : Holds p' xs) (ho : p'.rxOk = p.rxOk) (hc : p'.rxCrcError = p.rxCrcError) :
    Agrees p (wire.scan 0 xs) p' [] := by
  rw [wire.scan_none hn]
  exact ⟨hh, rfl, by simpa using ho, by simpa using hc⟩

/-- A byte that completes a segment leaves nothing. -/
theorem Agrees.take {p p' : Parser} {xs : List UInt8} {s : Segment UInt8}
    (out : Option (Frame UInt8)) (hn : wire.next 0 xs = some (s, [])) (hh : Holds p' [])
    (hout : out = wire.frame? s) (ho : p'.rxOk = p.rxOk + UInt64.ofNat out.toList.length)
    (hc : p'.rxCrcError = p.rxCrcError + UInt64.ofNat (wire.rejects [s])) :
    Agrees p (wire.scan 0 xs) p' out.toList := by
  have hnil : wire.next 0 [] = none := by simp [FrameFormat.next]
  rw [wire.scan_some hn, wire.scan_none hnil]
  exact ⟨hh, by rw [wire.frames_cons, hout, wire.frames_nil, List.append_nil], ho, hc⟩

section
variable {p : Parser} (now : Nat) (byte : UInt8)

/-- Waiting for a start byte. -/
theorem agrees_waitSof (hst : p.state = .waitSof) :
    Agrees p (wire.scan 0 ([] ++ [byte])) (processByte p now byte).1
      (processByte p now byte).2.toList := by
  simp only [processByte, hst]
  by_cases hb : byte = sof
  · subst hb
    rw [if_pos rfl]
    exact Agrees.wait (wire.next_sof 0) rfl rfl rfl
  · rw [if_neg hb]
    refine Agrees.take (s := .junk byte) none ?_ ?_ rfl ?_ ?_
    · exact wire.next_eq_some.mpr ⟨Nat.zero_le _, hb, rfl⟩
    · simp [Holds, hst]
    · simp
    · simp [FrameFormat.rejects]

/-- The length byte; no length exceeds `maxPayload`. -/
theorem agrees_len (hst : p.state = .len) :
    Agrees p (wire.scan 0 ([sof] ++ [byte])) (processByte p now byte).1
      (processByte p now byte).2.toList := by
  simp only [processByte, hst]
  have hb : ¬ byte.toNat > maxPayload := by
    have := UInt8.toNat_lt byte
    rw [maxPayload]
    omega
  rw [if_neg hb]
  refine Agrees.wait (wire.next_incomplete 0 ?_) ?_ rfl rfl
  · simp
  · simp [Holds]

/-- The type byte. -/
theorem agrees_type (hst : p.state = .type) :
    Agrees p (wire.scan 0 ([sof, p.len] ++ [byte])) (processByte p now byte).1
      (processByte p now byte).2.toList := by
  simp only [processByte, hst]
  refine Agrees.wait (wire.next_incomplete 0 ?_) ?_ rfl rfl
  · simp
  · by_cases hl : p.len = 0
    · simp [Holds, hl]
    · have hpos : p.len.toNat ≠ 0 := fun h => hl (UInt8.toNat_inj.mp h)
      simp only [Holds, hl, if_false]
      exact ⟨rfl, Nat.pos_of_ne_zero hpos⟩

/-- A payload byte. -/
theorem agrees_payload (hst : p.state = .payload) (hlt : p.payload.length < p.len.toNat) :
    Agrees p (wire.scan 0 (sof :: p.len :: p.type :: p.payload ++ [byte]))
      (processByte p now byte).1 (processByte p now byte).2.toList := by
  simp only [processByte, hst]
  refine Agrees.wait (wire.next_incomplete 0 ?_) ?_ ?_ ?_
  · show (p.type :: (p.payload ++ [byte])).length < p.len.toNat + 2
    simp only [List.length_cons, List.length_append, List.length_nil]
    omega
  · by_cases hfull : (p.payload ++ [byte]).length = p.len.toNat
    · rw [if_pos hfull]
      exact ⟨rfl, hfull⟩
    · rw [if_neg hfull]
      simp only [Holds]
      refine ⟨rfl, ?_⟩
      simp only [List.length_append, List.length_cons, List.length_nil] at hfull ⊢
      omega
  · split <;> rfl
  · split <;> rfl

/-- The check byte. -/
theorem agrees_crc (hst : p.state = .crc) (hlen : p.payload.length = p.len.toNat) :
    Agrees p (wire.scan 0 (sof :: p.len :: p.type :: p.payload ++ [byte]))
      (processByte p now byte).1 (processByte p now byte).2.toList := by
  simp only [processByte, hst]
  have hn : wire.next 0 (sof :: p.len :: p.type :: p.payload ++ [byte]) =
      some (.packet p.len p.type p.payload byte, []) :=
    wire.next_eq_some.mpr ⟨Nat.zero_le _, hlen, by simp [FrameFormat.bytes, wire]⟩
  by_cases hc : crc8 p.len p.type p.payload p.len = byte
  · rw [if_pos hc]
    refine Agrees.take _ hn rfl ?_ ?_ ?_
    · rw [← hlen, List.take_length]
      simp [FrameFormat.frame?, wire, hc]
    · simp
    · simp [FrameFormat.rejects, wire, hc]
  · rw [if_neg hc]
    refine Agrees.take none hn rfl ?_ ?_ ?_
    · simp [FrameFormat.frame?, wire, hc]
    · simp
    · simp [FrameFormat.rejects, wire, hc]

end

theorem processByte_agrees {p : Parser} {r : List UInt8} (h : Holds p r) (now : Nat)
    (byte : UInt8) :
    Agrees p (wire.scan 0 (r ++ [byte])) (processByte p now byte).1
      (processByte p now byte).2.toList := by
  rw [Holds] at h
  cases hst : p.state with
  | waitSof =>
    obtain rfl : r = [] := by simpa only [hst] using h
    exact agrees_waitSof now byte hst
  | len =>
    obtain rfl : r = [sof] := by simpa only [hst] using h
    exact agrees_len now byte hst
  | type =>
    obtain rfl : r = [sof, p.len] := by simpa only [hst] using h
    exact agrees_type now byte hst
  | payload =>
    simp only [hst] at h
    obtain ⟨rfl, hlt⟩ := h
    exact agrees_payload now byte hst hlt
  | crc =>
    simp only [hst] at h
    obtain ⟨rfl, hlen⟩ := h
    exact agrees_crc now byte hst hlen

/-- What the parser holds is not a complete segment yet. -/
theorem Holds.next_eq_none {p : Parser} {r : List UInt8} (h : Holds p r) :
    wire.next 0 r = none := by
  rw [Holds] at h
  split at h
  · subst h
    simp [FrameFormat.next]
  · subst h
    exact wire.next_sof 0
  · subst h
    exact wire.next_incomplete 0 (by simp)
  · obtain ⟨rfl, hlt⟩ := h
    apply wire.next_incomplete 0
    show p.payload.length + 1 < p.len.toNat + 2
    omega
  · obtain ⟨rfl, hlen⟩ := h
    apply wire.next_incomplete 0
    show p.payload.length + 1 < p.len.toNat + 2
    omega

/-- A parser that holds nothing waits for a start byte. -/
theorem Holds.state_of_nil {p : Parser} (h : Holds p []) : p.state = .waitSof := by
  rw [Holds] at h
  split at h
  · assumption
  · cases h
  · cases h
  · cases h.1
  · cases h.1

/-- **Feeding the parser is scanning**: the frames delivered, the counters and
what the parser still holds are those of the scan of all the bytes. -/
theorem feed_scan {p : Parser} {r : List UInt8} (h : Holds p r) (bs : List RxByte) :
    Agrees p (wire.scan 0 (r ++ bs.map RxByte.byte)) (feed p bs).1 (feed p bs).2 := by
  induction bs generalizing p r with
  | nil =>
    rw [List.map_nil, List.append_nil]
    exact Agrees.wait h.next_eq_none h rfl rfl
  | cons b bs ih =>
    have hb := processByte_agrees h b.now b.byte
    have hbs := ih hb.holds
    have hsplit : r ++ (b :: bs).map RxByte.byte = r ++ [b.byte] ++ bs.map RxByte.byte := by simp
    rw [hsplit, wire.scan_append]
    refine ⟨hbs.holds, ?_, ?_, ?_⟩
    · rw [wire.frames_append, ← hb.delivered_eq, ← hbs.delivered_eq]
      rfl
    · show (feed (processByte p b.now b.byte).1 bs).1.rxOk = _
      rw [hbs.rxOk_eq, hb.rxOk_eq, UInt64.add_assoc, ← UInt64.ofNat_add, ← List.length_append]
      rfl
    · show (feed (processByte p b.now b.byte).1 bs).1.rxCrcError = _
      rw [hbs.rxCrcError_eq, hb.rxCrcError_eq, UInt64.add_assoc, ← UInt64.ofNat_add,
        wire.rejects_append]

/-! ## `rx_loop` feeds every byte once -/

theorem feed_append (p : Parser) (bs cs : List RxByte) :
    feed p (bs ++ cs) = ((feed (feed p bs).1 cs).1, (feed p bs).2 ++ (feed (feed p bs).1 cs).2) := by
  induction bs generalizing p with
  | nil => rfl
  | cons b bs ih => simp [feed, ih]

/-- An iteration leaves no byte in the buffer. -/
theorem rxIteration_eq (p : Parser) (data : List RxByte) :
    rxIteration p [] data = ((feed p data).1, (feed p data).2, []) := by
  simp [rxIteration]

/-- However `read()` splits the bytes, `rx_loop` feeds them to `process_byte` in
order, each once. -/
theorem rxIterations_eq_feed (p : Parser) {reads : List (List RxByte)}
    (h : ∀ data ∈ reads, data ≠ []) : rxIterations p [] reads = feed p reads.flatten := by
  induction reads generalizing p with
  | nil => rfl
  | cons data reads ih =>
    have hd : data ≠ [] := h data (List.mem_cons_self ..)
    rw [rxIterations, if_neg hd, rxIteration_eq]
    dsimp only
    rw [ih _ (fun d hd => h d (List.mem_cons_of_mem _ hd)), List.flatten_cons, feed_append]

end KartStack.SerialDriver
