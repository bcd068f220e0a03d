import KartStack.SerialParser
import KartStack.MicroRuns

/-! # The two receivers

Neither receiver invents, repeats or reorders a frame: whatever the bytes, and
whatever the calls, each frame delivered lies in the stream, and the frames lie
there one behind the other (`delivered_found`).

The receivers are the same parser as long as `rx_buffer` never has to be reset.
That is the case when no length byte announces more than 188 payload bytes: what
`km_coms_ReceiveMsg` finds in the buffer is then at most 191 bytes long
(`residue_length_le`), and 64 more fit (`receivers_agree`).
-/
namespace KartStack
open KmComs SerialDriver

/-! ## The length bytes of a stream -/

/-- The bytes `process_byte` takes for length bytes. -/
def lengthBytes : Parser → List RxByte → List UInt8
  | _, [] => []
  | p, b :: bs =>
    (if p.state = .len then [b.byte] else []) ++ lengthBytes (processByte p b.now b.byte).1 bs

theorem lengthBytes_append (p : Parser) (bs cs : List RxByte) :
    lengthBytes p (bs ++ cs) = lengthBytes p bs ++ lengthBytes (feed p bs).1 cs := by
  induction bs generalizing p with
  | nil => rfl
  | cons b bs ih => simp [lengthBytes, feed, ih]

/-- Behind a length byte, the parser has seen it. -/
def LenSeen (seen : List UInt8) (p : Parser) : Prop :=
  p.state = .waitSof ∨ p.state = .len ∨ p.len ∈ seen

theorem processByte_lenSeen {seen : List UInt8} {p : Parser} (h : LenSeen seen p) (now : Nat)
    (byte : UInt8) :
    LenSeen (seen ++ if p.state = .len then [byte] else []) (processByte p now byte).1 := by
  have hkeep : p.state ≠ .waitSof → p.state ≠ .len → p.len ∈ seen := by
    intro h₁ h₂
    exact (h.resolve_left h₁).resolve_left h₂
  rw [processByte]
  cases hst : p.state with
  | waitSof =>
    simp only [reduceCtorEq, if_false, List.append_nil]
    split
    · exact Or.inr (Or.inl rfl)
    · exact Or.inl hst
  | len =>
    simp only [if_true]
    split
    · exact Or.inl rfl
    · exact Or.inr (Or.inr (by simp))
  | type =>
    simp only [reduceCtorEq, if_false, List.append_nil]
    exact Or.inr (Or.inr (hkeep (by simp [hst]) (by simp [hst])))
  | payload =>
    simp only [reduceCtorEq, if_false, List.append_nil]
    have := hkeep (by simp [hst]) (by simp [hst])
    split
    · exact Or.inr (Or.inr this)
    · exact Or.inr (Or.inr this)
  | crc =>
    simp only [reduceCtorEq, if_false, List.append_nil]
    split
    · exact Or.inl rfl
    · exact Or.inl rfl

theorem feed_lenSeen {seen : List UInt8} {p : Parser} (h : LenSeen seen p) (bs : List RxByte) :
    LenSeen (seen ++ lengthBytes p bs) (feed p bs).1 := by
  induction bs generalizing seen p with
  | nil => rwa [lengthBytes, List.append_nil]
  | cons b bs ih =>
    have := ih (processByte_lenSeen h b.now b.byte)
    rwa [List.append_assoc] at this

/-- The length byte of a packet the parser is in the middle of. -/
theorem len_mem_of_holds {p : Parser} {l t : UInt8} {rest seen : List UInt8}
    (h : Holds p (sof :: l :: t :: rest)) (hs : LenSeen seen p) : l ∈ seen := by
  rw [Holds] at h
  rw [LenSeen] at hs
  split at h
  · cases h
  · cases h
  · cases h
  · rename_i hst
    simp only [hst, reduceCtorEq, false_or] at hs
    rw [(List.cons.inj (List.cons.inj h.1).2).1]
    exact hs
  · rename_i hst
    simp only [hst, reduceCtorEq, false_or] at hs
    rw [(List.cons.inj (List.cons.inj h.1).2).1]
    exact hs

/-! ## The same parser -/

section Agree
variable {p : Parser} (hp : p.state = .waitSof)
include hp

theorem holds_nil : Holds p [] := by
  simp [Holds, hp]

/-- What the ESP32 keeps of a stream whose length bytes announce at most `n`
payload bytes. -/
theorem residue_length_le {bs : List RxByte} {n : Nat}
    (hlen : ∀ l ∈ lengthBytes p bs, l.toNat ≤ n) :
    (wire.scan 4 (bs.map RxByte.byte)).2.length ≤ n + 3 := by
  by_contra hlong
  have hres := wire.next_residue 4 (bs.map RxByte.byte)
  have hwait : wire.next 0 (wire.scan 4 (bs.map RxByte.byte)).2 = none :=
    wire.next_none_of_le hres (by omega)
  have hscan := wire.scan_lookahead hwait
  have hfeed := (feed_scan (holds_nil hp) bs).holds
  rw [List.nil_append, hscan] at hfeed
  rcases wire.next_eq_none hres with hlt | hnil | hsof | ⟨l, rest, hxs, hrest⟩
  · omega
  · simp [hnil] at hlong
  · simp [hsof] at hlong
  · cases rest with
    | nil => simp [hxs] at hlong
    | cons t rest =>
      rw [hxs] at hfeed
      have hmem := len_mem_of_holds hfeed (feed_lenSeen (show LenSeen [] p from Or.inl hp) bs)
      have hl := hlen l hmem
      have hrest' : (t :: rest).length < l.toNat + 2 := hrest
      rw [hxs, List.length_cons, List.length_cons] at hlong
      omega

/-- Pumping such a stream delivers what `process_byte` delivers. -/
theorem pump_eq_feed {bs : List RxByte} (hlen : ∀ l ∈ lengthBytes p bs, l.toNat ≤ 188)
    (cut : Cut rxChunk (bs.map RxByte.byte)) : (pump [] cut.pieces).1 = (feed p bs).2 := by
  have hnil : wire.next 4 [] = none := by simp [FrameFormat.next]
  rw [pump_eq_scan hnil]
  · rw [List.nil_append, cut.flatten_eq, wire.frames_scan_lookahead (Nat.le_refl 4),
      (feed_scan (holds_nil hp) bs).delivered_eq, List.nil_append]
  · intro before piece after hpieces
    have hpre : before.flatten = (bs.take before.flatten.length).map RxByte.byte := by
      rw [List.map_take, ← cut.flatten_eq, hpieces, List.flatten_append, List.take_left]
    have hlen' : ∀ l ∈ lengthBytes p (bs.take before.flatten.length), l.toNat ≤ 188 := by
      intro l hl
      apply hlen l
      rw [← List.take_append_drop before.flatten.length bs, lengthBytes_append]
      exact List.mem_append_left _ hl
    have hres := residue_length_le hp hlen'
    have hle := cut.le piece (by rw [hpieces]; simp)
    rw [List.nil_append, hpre]
    simp only [rxChunk, rxCapacity, msgMaxLen] at hle ⊢
    omega

/-- **The two receivers are the same parser**: on a stream whose length bytes
announce at most 188 payload bytes, garbage and corrupted frames included, the
ESP32 hands on, for every cut, what `process_byte` hands on byte by byte. -/
theorem receivers_agree {bs : List RxByte} (hlen : ∀ l ∈ lengthBytes p bs, l.toNat ≤ 188)
    (cut : Cut rxChunk (bs.map RxByte.byte)) {s : RxState} (hs : s.rxBufferLen = 0) :
    ∃ s', run (s, []) (deliver cut.pieces) = some (s', (feed p bs).2) :=
  (run_deliver_iff cut hs _).mpr (pump_eq_feed hp hlen cut)

end Agree

/-- A stray byte and a heartbeat, as `process_byte` sees them. -/
def strayHeartbeat : List RxByte := [⟨0x00, 0⟩, ⟨0xAA, 1⟩, ⟨0, 2⟩, ⟨0x25, 3⟩, ⟨0xFB, 4⟩]

/-- Both receivers skip the stray byte. -/
theorem receivers_agree_stray :
    (∃ s', run (RxState.init, [])
        (deliver (Cut.greedy rxChunk (by decide) (strayHeartbeat.map RxByte.byte)).pieces) =
      some (s', (feed {} strayHeartbeat).2)) ∧
    (feed {} strayHeartbeat).2 = [⟨0x25, []⟩] := by
  have hlen : lengthBytes {} strayHeartbeat = [0x00] := by decide +kernel
  refine ⟨receivers_agree rfl ?_ _ rfl, by decide +kernel⟩
  intro l hl
  rw [hlen, List.mem_singleton] at hl
  subst hl
  decide

/-! ## Nothing is invented -/

/-- **No receiver invents, duplicates or reorders a frame.**  Whatever the ESP32
receives and in whatever order it is called, and whatever bytes `process_byte` is
fed, the frames delivered are found in the stream. -/
theorem delivered_found :
    (∀ calls : List Call, (∀ call ∈ calls, call.Counts) →
      ∃ s' delivered, run (RxState.init, []) calls = some (s', delivered) ∧
        wire.Found (calls.flatMap Call.received) delivered) ∧
    ∀ (p : Parser) (bs : List RxByte), p.state = .waitSof →
      wire.Found (bs.map RxByte.byte) (feed p bs).2 := by
  constructor
  · intro calls hc
    have hinit : Covers [] (RxState.init, []) :=
      ⟨[], by simp [RxState.content, RxState.init], rfl, fun _ _ _ _ h => by cases h⟩
    obtain ⟨⟨s', delivered⟩, hrun, segs, hst, rfl, hlen⟩ := run_covers hinit hc
    refine ⟨s', _, hrun, ?_⟩
    rw [List.nil_append] at hst
    rw [hst]
    exact wire.found_frames wire_lenSymbol_len hlen _
  · intro p bs hp
    have hfeed := feed_scan (holds_nil hp) bs
    rw [List.nil_append] at hfeed
    have hfound := wire.found_frames wire_lenSymbol_len
      (fun l t p c h => wire.scan_scanned 0 (bs.map RxByte.byte) _ h)
      (wire.scan 0 (bs.map RxByte.byte)).2
    rwa [← wire.scan_bytes, ← hfeed.delivered_eq] at hfound

/-- A heartbeat received in two halves, and a stray byte before one. -/
theorem delivered_found_heartbeat :
    let calls : List Call := [.receive (UartRx.holding [0xAA, 0]),
      .receive (UartRx.holding [0x25, 0xFB]), .proccess]
    (∃ s' delivered, run (RxState.init, []) calls = some (s', delivered) ∧
      wire.Found (calls.flatMap Call.received) delivered) ∧
    wire.Found (strayHeartbeat.map RxByte.byte) (feed {} strayHeartbeat).2 :=
  ⟨delivered_found.1 _ (by simp [Call.Counts, UartRx.chunk, UartRx.holding]),
    delivered_found.2 {} strayHeartbeat rfl⟩

end KartStack
