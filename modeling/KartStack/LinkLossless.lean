import KartStack.SerialParser
import KartStack.MicroRuns
import KartStack.MicroSend

/-! # Does every message arrive?

From the ESP32 to the Orin it does, however `read()` splits the bytes
(`esp_to_orin_lossless`).

From the Orin to the ESP32 it depends on the cuts.  `rx_buffer` has room for one
frame of the longest kind and nothing more, so an unfinished long frame and the
piece that follows it may not fit together; then `km_coms_ReceiveMsg` starts over
and the frame is gone.  `orin_to_esp_lossless_iff` says exactly when that does not
happen: at every cut the unfinished frame and the next piece fit (`Roomy`).
Frames of at most 188 payload bytes always do (`roomy_of_short`).
-/
namespace KartStack
open KmComs SerialDriver

/-! ## Orin to ESP32 -/

/-- The bytes `tx_queue_` holds after sending the messages in turn. -/
def sentBytes (ms : List Message) : List UInt8 :=
  (ms.foldl (fun q m => enqueue q m.type m.payload) []).flatten

theorem sentBytes_eq (ms : List Message) : sentBytes ms = wire.encodeAll (Message.frames ms) := by
  rw [sentBytes, foldl_enqueue]
  rfl

/-- The bytes of an unfinished frame among the first `n` bytes of the frames `fs`
sent back to back. -/
def held : List (Frame UInt8) → Nat → Nat
  | [], _ => 0
  | f :: fs, n =>
    if n < f.payload.length + 4 then n else held fs (n - (f.payload.length + 4))

/-- Behind the first `n` bytes of the frames `fs`, the bytes held of an unfinished
frame always leave room for the next piece. -/
def Roomy (fs : List (Frame UInt8)) : Nat → List (List UInt8) → Prop
  | _, [] => True
  | n, piece :: pieces =>
    held fs n + piece.length ≤ rxCapacity ∧ Roomy fs (n + piece.length) pieces

instance decRoomy (fs : List (Frame UInt8)) :
    ∀ (n : Nat) (pieces : List (List UInt8)), Decidable (Roomy fs n pieces)
  | _, [] => isTrue trivial
  | n, piece :: pieces =>
    have := decRoomy fs (n + piece.length) pieces
    inferInstanceAs (Decidable (_ ∧ _))

theorem Roomy.at_cut {fs : List (Frame UInt8)} {n : Nat} {pieces : List (List UInt8)}
    (h : Roomy fs n pieces) {before after : List (List UInt8)} {piece : List UInt8}
    (hp : pieces = before ++ piece :: after) :
    held fs (n + before.flatten.length) + piece.length ≤ rxCapacity := by
  subst hp
  induction before generalizing n with
  | nil => exact h.1
  | cons b before ih =>
    have := ih h.2
    rwa [List.flatten_cons, List.length_append, ← Nat.add_assoc]

/-- An unfinished frame is shorter than the longest frame. -/
theorem held_lt {fs : List (Frame UInt8)} {k : Nat} (hk : ∀ f ∈ fs, f.payload.length ≤ k)
    (n : Nat) : held fs n < k + 4 := by
  induction fs generalizing n with
  | nil =>
    show 0 < k + 4
    omega
  | cons f fs ih =>
    rw [held]
    split
    · have := hk f (List.mem_cons_self ..)
      omega
    · exact ih (fun g hg => hk g (List.mem_cons_of_mem _ hg)) _

/-- Frames of at most 188 payload bytes leave room for any piece. -/
theorem roomy_of_short {fs : List (Frame UInt8)} (hfs : ∀ f ∈ fs, f.payload.length ≤ 188)
    {pieces : List (List UInt8)} (hle : ∀ piece ∈ pieces, piece.length ≤ rxChunk) (n : Nat) :
    Roomy fs n pieces := by
  induction pieces generalizing n with
  | nil => trivial
  | cons piece pieces ih =>
    have h₁ := held_lt hfs n
    have h₂ := hle piece (List.mem_cons_self ..)
    refine ⟨?_, ih (fun p hp => hle p (List.mem_cons_of_mem _ hp)) _⟩
    simp only [rxChunk, rxCapacity, msgMaxLen] at h₂ ⊢
    omega

/-- What the scanner keeps of a cut-off run of frames is the unfinished frame. -/
theorem scan_take_length {fs : List (Frame UInt8)} (hfs : ∀ f ∈ fs, wire.Fits f) {n : Nat}
    (hn : n ≤ (wire.encodeAll fs).length) :
    (wire.scan 4 ((wire.encodeAll fs).take n)).2.length = held fs n := by
  induction fs generalizing n with
  | nil =>
    have : wire.next 4 [] = none := by simp [FrameFormat.next]
    simp [held, wire.scan_none this]
  | cons f fs ih =>
    have hf := hfs f (List.mem_cons_self ..)
    rw [wire.encodeAll_cons] at hn ⊢
    rw [held]
    by_cases hlt : n < f.payload.length + 4
    · have hle : n ≤ (wire.encode f).length := by rw [wire.encode_length]; omega
      rw [if_pos hlt, List.take_append_of_le_length hle]
      have hne : (wire.encode f).drop n ≠ [] := by
        rw [Ne, List.drop_eq_nil_iff, wire.encode_length]
        omega
      rw [wire.scan_none (wire.next_of_partial (Nat.le_refl 4) hf (List.take_append_drop n _) hne)]
      exact List.length_take_of_le hle
    · have hsplit : n = (wire.encode f).length + (n - (f.payload.length + 4)) := by
        rw [wire.encode_length]
        omega
      rw [if_neg hlt, hsplit, List.take_length_add_append, wire.scan_some
        (wire.next_encode (Nat.le_refl 4) hf _), wire.encode_length, Nat.add_sub_cancel_left]
      apply ih (fun g hg => hfs g (List.mem_cons_of_mem _ hg))
      rw [List.length_append, wire.encode_length] at hn
      omega

/-- With room at every cut, all the frames are handed on. -/
theorem pump_of_roomy {fs : List (Frame UInt8)} (hfs : ∀ f ∈ fs, wire.Fits f)
    {pieces : List (List UInt8)} (hcut : pieces.flatten = wire.encodeAll fs)
    (h : Roomy fs 0 pieces) : (pump [] pieces).1 = fs := by
  have hnil : wire.next 4 [] = none := by simp [FrameFormat.next]
  rw [pump_eq_scan hnil]
  · have hscan := wire.scan_encodeAll (Nat.le_refl 4) hfs []
    rw [List.append_nil] at hscan
    rw [List.nil_append, hcut, hscan, wire.scan_none hnil]
    simp
  · intro before piece after hp
    have hat := h.at_cut hp
    have hpre : before.flatten = (wire.encodeAll fs).take before.flatten.length := by
      rw [← hcut, hp, List.flatten_append, List.take_left]
    have hle : before.flatten.length ≤ (wire.encodeAll fs).length := by
      rw [← hcut, hp, List.flatten_append, List.length_append]
      omega
    rw [List.nil_append, hpre, scan_take_length hfs hle]
    rwa [Nat.zero_add] at hat

/-- A scan hands on no more bytes than it consumes. -/
theorem scan_frames_length_le (xs : List UInt8) :
    (wire.encodeAll (wire.frames (wire.scan 4 xs).1)).length + (wire.scan 4 xs).2.length ≤
      xs.length := by
  have h₁ := wire.encodeAll_frames_length_le (wire.scan 4 xs).1
  have h₂ := congrArg List.length (wire.scan_bytes 4 xs)
  rw [List.length_append] at h₂
  omega

/-- Pumping hands on no more bytes than it is given. -/
theorem pump_length_le (content : List UInt8) (pieces : List (List UInt8)) :
    (wire.encodeAll (pump content pieces).1).length ≤ content.length + pieces.flatten.length := by
  induction pieces generalizing content with
  | nil => simp [pump]
  | cons piece pieces ih =>
    have h₁ := ih (wire.scan 4 (store content piece)).2
    have h₂ := scan_frames_length_le (store content piece)
    have h₃ : (store content piece).length ≤ content.length + piece.length := by
      rw [store]
      split <;> simp
    rw [pump, List.flatten_cons]
    dsimp only
    rw [wire.encodeAll_append, List.length_append, List.length_append]
    omega

/-- Without room at some cut, fewer bytes are handed on than were sent. -/
theorem pump_length_lt {fs : List (Frame UInt8)} (hfs : ∀ f ∈ fs, wire.Fits f)
    {pieces : List (List UInt8)} (hle : ∀ piece ∈ pieces, piece.length ≤ rxChunk) {n : Nat}
    (hcut : (wire.encodeAll fs).drop n = pieces.flatten) (hn : n ≤ (wire.encodeAll fs).length)
    (h : ¬ Roomy fs n pieces) {content : List UInt8}
    (hc : content = (wire.scan 4 ((wire.encodeAll fs).take n)).2) :
    (wire.encodeAll (pump content pieces).1).length < content.length + pieces.flatten.length := by
  induction pieces generalizing n content with
  | nil => exact absurd trivial h
  | cons piece pieces ih =>
    have hheld : content.length = held fs n := by rw [hc, scan_take_length hfs hn]
    have hpiece := hle piece (List.mem_cons_self ..)
    rw [pump, List.flatten_cons]
    dsimp only
    rw [wire.encodeAll_append, List.length_append, List.length_append]
    by_cases hroom : held fs n + piece.length ≤ rxCapacity
    · -- this piece fits: the loss comes later
      have hstore : store content piece = content ++ piece := by
        rw [store, if_neg (by omega)]
      have htake : (wire.encodeAll fs).take (n + piece.length) =
          (wire.encodeAll fs).take n ++ piece := by
        rw [List.take_add, hcut, List.flatten_cons, List.take_left]
      have hlen := congrArg List.length hcut
      rw [List.length_drop, List.flatten_cons, List.length_append] at hlen
      have hscan := scan_frames_length_le (content ++ piece)
      have hcontent : (wire.scan 4 (content ++ piece)).2 =
          (wire.scan 4 ((wire.encodeAll fs).take (n + piece.length))).2 := by
        rw [htake, wire.scan_append 4 ((wire.encodeAll fs).take n), ← hc]
      have hrest := ih (fun p hp => hle p (List.mem_cons_of_mem _ hp))
        (by rw [← List.drop_drop, hcut, List.flatten_cons, List.drop_left])
        (by omega) (fun hr => h ⟨hroom, hr⟩) hcontent
      rw [hstore]
      rw [List.length_append] at hscan
      omega
    · -- the unfinished frame is thrown away
      have hstore : store content piece = piece := by
        rw [store, if_pos (by omega)]
      have hscan := scan_frames_length_le piece
      have hrest := pump_length_le (wire.scan 4 piece).2 pieces
      rw [hstore]
      simp only [rxChunk, rxCapacity, msgMaxLen] at hroom hpiece
      omega

/-- The messages handed on are the messages sent, if there is room at every cut
and only then. -/
theorem pump_eq_iff (ms : List Message) (cut : Cut rxChunk (sentBytes ms)) :
    (pump [] cut.pieces).1 = Message.frames ms ↔ Roomy (Message.frames ms) 0 cut.pieces := by
  have hflat : cut.pieces.flatten = wire.encodeAll (Message.frames ms) := by
    rw [cut.flatten_eq, sentBytes_eq]
  constructor
  · intro heq
    by_contra hroom
    have hstart : [] = (wire.scan 4 ((wire.encodeAll (Message.frames ms)).take 0)).2 := by
      have : wire.next 4 [] = none := by simp [FrameFormat.next]
      rw [List.take_zero, wire.scan_none this]
    have hlt := pump_length_lt (Message.fits ms) cut.le (by simpa using hflat.symm)
      (Nat.zero_le _) hroom hstart
    rw [heq, hflat] at hlt
    simp at hlt
  · exact pump_of_roomy (Message.fits ms) hflat

/-- **Orin to ESP32.**  The ESP32 hands on exactly the messages sent — same
messages, same order, each once — if and only if at every cut the unfinished
frame and the next piece fit into `rx_buffer`. -/
theorem orin_to_esp_lossless_iff (ms : List Message) (cut : Cut rxChunk (sentBytes ms))
    (s : RxState) (hs : s.rxBufferLen = 0) :
    (∃ s', run (s, []) (deliver cut.pieces) = some (s', Message.frames ms)) ↔
      Roomy (Message.frames ms) 0 cut.pieces :=
  (run_deliver_iff cut hs _).trans (pump_eq_iff ms cut)

/-- A message without payload. -/
def heartbeat : Message := ⟨⟨0x25, []⟩, by decide⟩

/-- A message of the longest kind `send` accepts. -/
def longest : Message := ⟨⟨0x20, List.replicate 251 0⟩, Nat.le_of_eq List.length_replicate⟩

/-- A heartbeat arrives. -/
theorem orin_to_esp_heartbeat :
    ∃ s', run (RxState.init, [])
        (deliver (Cut.greedy rxChunk (by decide) (sentBytes [heartbeat])).pieces) =
      some (s', Message.frames [heartbeat]) :=
  (orin_to_esp_lossless_iff _ _ RxState.init rfl).mpr
    (roomy_of_short (by decide) (Cut.le _) 0)

/-- A message of 251 payload bytes and anything behind it overflow the buffer when
the UART is fetched in full pieces: 192 bytes are held when the fourth arrives. -/
theorem not_roomy_greedy {m : Message} (hm : m.payload.length = 251) {ms : List Message}
    (hms : ms ≠ []) :
    ¬ Roomy (Message.frames (m :: ms)) 0
      (Cut.greedy rxChunk (by decide) (sentBytes (m :: ms))).pieces := by
  intro h
  have hlen : 256 ≤ (sentBytes (m :: ms)).length := by
    have hrest := wire.four_mul_length_le (Message.frames ms)
    have hpos := List.length_pos_iff.mpr hms
    rw [Message.frames, List.length_map] at hrest
    rw [sentBytes_eq, Message.frames, List.map_cons, wire.encodeAll_cons, List.length_append,
      wire.encode_length, hm]
    omega
  obtain ⟨before, piece, after, hp, hbefore, hpiece⟩ :=
    greedyPieces_at rxChunk (by decide) 3 (Nat.le_refl (sentBytes (m :: ms)).length)
      (by rw [rxChunk]; omega)
  have hat := h.at_cut hp
  rw [rxChunk] at hbefore hpiece
  rw [hbefore, hpiece, Message.frames, List.map_cons, held, if_pos (by rw [hm]; decide),
    rxCapacity, msgMaxLen] at hat
  omega

/-- So they do not arrive. -/
theorem lost_greedy {m : Message} (hm : m.payload.length = 251) {ms : List Message}
    (hms : ms ≠ []) {s : RxState} (hs : s.rxBufferLen = 0) :
    ¬ ∃ s', run (s, []) (deliver
        (Cut.greedy rxChunk (by decide) (sentBytes (m :: ms))).pieces) =
      some (s', Message.frames (m :: ms)) := by
  intro h
  exact not_roomy_greedy hm hms ((pump_eq_iff _ _).mp ((run_deliver_iff _ hs _).mp h))

/-- The longest message, and a heartbeat behind it: the ESP32 does not hand both
on. -/
theorem orin_to_esp_overflow :
    ¬ ∀ (ms : List Message) (cut : Cut rxChunk (sentBytes ms)) (s : RxState), s.rxBufferLen = 0 →
      ∃ s', run (s, []) (deliver cut.pieces) = some (s', Message.frames ms) := by
  intro h
  have hlen : longest.payload.length = 251 := List.length_replicate
  exact lost_greedy hlen (List.cons_ne_nil heartbeat []) (s := RxState.init) rfl
    (h [longest, heartbeat] (Cut.greedy rxChunk (by decide) _) RxState.init rfl)

/-! ## ESP32 to Orin -/

/-- **ESP32 to Orin.**  On a UART that takes everything, the Orin's callback sees
exactly the messages sent, however `read()` splits the bytes; every frame is
counted, no CRC error is, and the parser is waiting for the next start byte. -/
theorem esp_to_orin_lossless {uart : Nat → Nat → Int} (h : AcceptsAll uart) (fuel : Nat)
    (ms : List Message) :
    ∃ bytes, sendAll uart (fuel + 2) ms = some bytes ∧
      ∀ reads : List (List RxByte), reads.flatten.map RxByte.byte = bytes →
        (∀ data ∈ reads, data ≠ [] ∧ data.length ≤ 256) → ∀ p : Parser,
          (rxLoop p reads).2 = Message.frames ms ∧
            (rxLoop p reads).1.rxOk = p.rxOk + UInt64.ofNat ms.length ∧
            (rxLoop p reads).1.rxCrcError = p.rxCrcError ∧
            (rxLoop p reads).1.state = .waitSof := by
  refine ⟨_, sendAll_acceptsAll h fuel ms, ?_⟩
  intro reads hbytes hreads p
  have hnil : wire.next 0 [] = none := by simp [FrameFormat.next]
  have hscan : wire.scan 0 (wire.encodeAll (Message.frames ms)) =
      ((Message.frames ms).map wire.packetOf, []) := by
    have := wire.scan_encodeAll (Nat.zero_le 4) (Message.fits ms) []
    rwa [List.append_nil, wire.scan_none hnil, List.append_nil] at this
  have hreset : Holds (resetParser p) [] := rfl
  have hfeed := feed_scan hreset reads.flatten
  rw [List.nil_append, hbytes, hscan,
    ← rxIterations_eq_feed (resetParser p) (fun data hd => (hreads data hd).1)] at hfeed
  have hdelivered : (rxLoop p reads).2 = Message.frames ms := by
    rw [rxLoop, hfeed.delivered_eq, wire.frames_map_packetOf]
  refine ⟨hdelivered, ?_, ?_, ?_⟩
  · have := hfeed.rxOk_eq
    rw [hfeed.delivered_eq, wire.frames_map_packetOf] at this
    rw [rxLoop, this, Message.frames, List.length_map]
    rfl
  · have := hfeed.rxCrcError_eq
    rw [wire.rejects_map_packetOf] at this
    rw [rxLoop, this]
    exact UInt64.add_zero _
  · exact hfeed.holds.state_of_nil

/-- A heartbeat that `read()` returns in two halves. -/
theorem esp_to_orin_heartbeat :
    let reads : List (List RxByte) := [[⟨0xAA, 0⟩, ⟨0, 0⟩], [⟨0x25, 1⟩, ⟨0xFB, 1⟩]]
    (rxLoop {} reads).2 = Message.frames [heartbeat] ∧ (rxLoop {} reads).1.rxOk = 1 := by
  intro reads
  have haccepts : AcceptsAll fun _ n => n := fun _ _ => rfl
  obtain ⟨bytes, hsend, hall⟩ := esp_to_orin_lossless haccepts 0 [heartbeat]
  have hbytes : bytes = [0xAA, 0, 0x25, 0xFB] := by
    rw [sendAll_acceptsAll haccepts] at hsend
    rw [← Option.some.inj hsend]
    decide +kernel
  have h := hall reads (by rw [hbytes]; decide) (by decide) {}
  exact ⟨h.1, h.2.1⟩

end KartStack
