import KartStack.FrameResync
import KartStack.SerialParser
import KartStack.MicroRuns

/-! # Getting back in step after garbage

A receiver that takes a byte of the garbage, or of a payload, for a start byte
swallows what the next byte announces and throws it away together with whatever
frames begin inside; it never looks at those bytes again.  So there is no bound
on the loss that holds for all frames: a start byte in the garbage followed by
frames that carry 0xAA in the right place is never recovered from
(`receivers_never_resync`).

What does hold is a bound by the frames themselves: 65 frames for the garbage,
and 66 more for each frame with a start byte behind its first one — for the
ESP32, also for each frame long enough to be thrown away half received
(`receivers_resync`).
-/
namespace KartStack
open KmComs SerialDriver

/-- The frame has a start byte behind its first one. -/
def sofInside (f : Frame UInt8) : Bool := sof ∈ (wire.encode f).tail

/-- The frame has a start byte inside, or `km_coms_ReceiveMsg` may throw it away
half received. -/
def fragile (f : Frame UInt8) : Bool := sofInside f || 188 < f.payload.length

/-- Behind any garbage, `process_byte` delivers all of the frames but `bound` of
them. -/
def ParserResyncs (bound : List (Frame UInt8) → Nat) : Prop :=
  ∀ (garbage : List UInt8) (fs : List (Frame UInt8)), (∀ f ∈ fs, wire.Fits f) →
    ∀ (p : Parser) (bs : List RxByte), p.state = .waitSof →
      bs.map RxByte.byte = garbage ++ wire.encodeAll fs → AllBut (bound fs) fs (feed p bs).2

/-- Behind any garbage and for any cut, the ESP32 hands on all of the frames but
`bound` of them. -/
def MicroResyncs (bound : List (Frame UInt8) → Nat) : Prop :=
  ∀ (garbage : List UInt8) (fs : List (Frame UInt8)), (∀ f ∈ fs, wire.Fits f) →
    ∀ (cut : Cut rxChunk (garbage ++ wire.encodeAll fs)) (s : RxState), s.rxBufferLen = 0 →
      ∃ s' delivered, run (s, []) (deliver cut.pieces) = some (s', delivered) ∧
        AllBut (bound fs) fs delivered

/-! ## The bound by the frames -/

theorem lossBound_le (haz : Frame UInt8 → Bool) (garbage : List UInt8) (fs : List (Frame UInt8)) :
    wire.lossBound 255 haz garbage fs ≤ 65 + 66 * fs.countP haz := by
  show (if _ then 65 else 0) + 66 * fs.countP haz ≤ _
  split <;> omega

theorem parser_resyncs : ParserResyncs fun fs => 65 + 66 * fs.countP sofInside := by
  intro garbage fs hfit p bs hp hbs
  have hfeed := feed_scan (p := p) (r := []) (by simp [Holds, hp]) bs
  rw [List.nil_append, hbs] at hfeed
  rw [hfeed.delivered_eq]
  have hread : wire.Reading sofInside (wire.scan 0 (garbage ++ wire.encodeAll fs)).1 :=
    fun s hs => Or.inl (wire.scan_scanned 0 _ s hs)
  refine (FrameFormat.exists_kept wire_len_le (fun f hf => of_decide_eq_false hf) (Nat.zero_le 4)
    (wire.next_residue 0 _) _ hread garbage fs hfit (wire.scan_bytes 0 _)).mono
    (lossBound_le sofInside garbage fs) (List.Sublist.refl _)

/-- A buffer that has to be started over holds the beginning of a long packet. -/
theorem stall_of_overflow {content piece : List UInt8} (hn : wire.next 4 content = none)
    (hle : piece.length ≤ rxChunk) (hover : content.length + piece.length > rxCapacity) :
    wire.Stall fragile content := by
  have hlong : 192 ≤ content.length := by
    simp only [rxChunk, rxCapacity, msgMaxLen] at hle hover
    omega
  rcases wire.next_eq_none hn with hlt | rfl | rfl | ⟨l, rest, rfl, hrest⟩
  · omega
  · simp at hlong
  · simp at hlong
  · refine ⟨l, rest, rfl, hrest, ?_⟩
    rintro f hf rfl
    rw [hf] at hrest
    rw [List.length_cons, List.length_cons] at hlong
    simp only [fragile, Bool.or_eq_true, decide_eq_true_eq]
    omega

/-- **Pumping reads the stream** as packets, junk, and long packets thrown away
half received. -/
theorem pump_reading {content : List UInt8} (hn : wire.next 4 content = none)
    {pieces : List (List UInt8)} (hle : ∀ piece ∈ pieces, piece.length ≤ rxChunk) :
    ∃ segs, content ++ pieces.flatten = segs.flatMap wire.bytes ++ (pump content pieces).2 ∧
      (pump content pieces).1 = wire.frames segs ∧ wire.Reading fragile segs ∧
      wire.next 4 (pump content pieces).2 = none := by
  induction pieces generalizing content with
  | nil => exact ⟨[], by simp [pump], rfl, List.forall_mem_nil _, hn⟩
  | cons piece pieces ih =>
    obtain ⟨segs, hst, hframes, hread, hres⟩ := ih (wire.next_residue 4 (store content piece))
      (fun p hp => hle p (List.mem_cons_of_mem _ hp))
    -- the segments of this scan, behind the buffer thrown away, if any
    obtain ⟨pre, hpre, hnone, hstall⟩ : ∃ pre, content ++ piece =
        pre.flatMap wire.bytes ++ store content piece ∧ wire.frames pre = [] ∧
        wire.Reading fragile pre := by
      by_cases hover : content.length + piece.length > rxCapacity
      · refine ⟨[.lost content], by simp [store, hover, FrameFormat.bytes], rfl, ?_⟩
        intro s hs
        obtain rfl := List.mem_singleton.mp hs
        exact Or.inr ⟨content, rfl,
          stall_of_overflow hn (hle piece (List.mem_cons_self ..)) hover⟩
      · exact ⟨[], by simp [store, hover], rfl, List.forall_mem_nil _⟩
    refine ⟨pre ++ ((wire.scan 4 (store content piece)).1 ++ segs), ?_, ?_, ?_, hres⟩
    · rw [List.flatten_cons, ← List.append_assoc, hpre, List.flatMap_append, List.flatMap_append,
        pump, List.append_assoc, List.append_assoc, List.append_assoc]
      dsimp only
      rw [← hst, ← List.append_assoc ((wire.scan 4 (store content piece)).1.flatMap wire.bytes),
        ← wire.scan_bytes]
    · rw [wire.frames_append, wire.frames_append, hnone, ← hframes]
      rfl
    · intro s hs
      rcases List.mem_append.mp hs with hs | hs
      · exact hstall s hs
      · rcases List.mem_append.mp hs with hs | hs
        · exact Or.inl (wire.scan_scanned 4 _ s hs)
        · exact hread s hs

theorem micro_resyncs : MicroResyncs fun fs => 65 + 66 * fs.countP fragile := by
  intro garbage fs hfit cut s hs
  have hnil : wire.next 4 [] = none := by simp [FrameFormat.next]
  obtain ⟨segs, hst, hframes, hread, hres⟩ := pump_reading hnil cut.le
  obtain ⟨s', hrun⟩ := (run_deliver_iff cut hs (pump [] cut.pieces).1).mpr rfl
  refine ⟨s', _, hrun, ?_⟩
  rw [List.nil_append, cut.flatten_eq] at hst
  rw [hframes]
  have hhaz : ∀ f, fragile f = false → wire.sof ∉ (wire.encode f).tail := by
    intro f hf
    exact of_decide_eq_false (Bool.or_eq_false_iff.mp hf).1
  exact (FrameFormat.exists_kept wire_len_le hhaz (Nat.le_refl 4) hres segs hread garbage fs hfit
    hst).mono (lossBound_le fragile garbage fs) (List.Sublist.refl _)

/-- **Both receivers get back in step**, at the price of 65 frames for the garbage
and 66 for each frame that can mislead them. -/
theorem receivers_resync :
    ParserResyncs (fun fs => 65 + 66 * fs.countP sofInside) ∧
      MicroResyncs (fun fs => 65 + 66 * fs.countP fragile) :=
  ⟨parser_resyncs, micro_resyncs⟩

/-- A stray byte before a heartbeat, which misleads nobody. -/
theorem receivers_resync_heartbeat :
    let fs : List (Frame UInt8) := [⟨0x25, []⟩]
    fs.countP fragile = 0 ∧
      AllBut (65 + 66 * fs.countP sofInside) fs
        (feed {} [⟨0x00, 0⟩, ⟨0xAA, 1⟩, ⟨0, 2⟩, ⟨0x25, 3⟩, ⟨0xFB, 4⟩]).2 ∧
      ∃ s' delivered, run (RxState.init, []) (deliver (Cut.greedy rxChunk (by decide)
        ([0x00] ++ wire.encodeAll fs)).pieces) = some (s', delivered) ∧
        AllBut (65 + 66 * fs.countP fragile) fs delivered := by
  intro fs
  have hfit : ∀ f ∈ fs, wire.Fits f := fun f hf => List.mem_singleton.mp hf ▸ rfl
  exact ⟨by decide +kernel,
    receivers_resync.1 [0x00] fs hfit {} _ rfl (by decide +kernel),
    receivers_resync.2 [0x00] fs hfit _ _ rfl⟩

/-! ## No bound for all frames -/

/-- A throttle frame whose payload looks like the start of one. -/
def misleading : Frame UInt8 := ⟨0x20, [0xAA, 0x02]⟩

theorem encode_misleading : wire.encode misleading = [0xAA, 0x02, 0x20, 0xAA, 0x02, 0xFB] := by
  decide +kernel

/-- A receiver in step with the payload instead of the frames stays so. -/
theorem next_misled {m : Nat} (hm : m ≤ 4) (rest : List UInt8) :
    wire.next m ([0xAA, 0x02, 0xFB] ++ (wire.encode misleading ++ rest)) =
      some (.packet 0x02 0xFB [0xAA, 0x02] 0x20, [0xAA, 0x02, 0xFB] ++ rest) := by
  rw [encode_misleading]
  refine wire.next_eq_some.mpr ⟨?_, rfl, rfl⟩
  simp only [List.length_append, List.length_cons, List.length_nil]
  omega

theorem frame?_misled : wire.frame? (.packet 0x02 0xFB [0xAA, 0x02] 0x20) = none := by
  decide +kernel

theorem next_misled_nil (m : Nat) : wire.next m [0xAA, 0x02, 0xFB] = none :=
  wire.next_incomplete m (by decide)

/-- The garbage `AA 01` puts it there. -/
theorem next_garbage {m : Nat} (hm : m ≤ 4) (rest : List UInt8) :
    wire.next m ([0xAA, 0x01] ++ (wire.encode misleading ++ rest)) =
      some (.packet 0x01 0xAA [0x02] 0x20, [0xAA, 0x02, 0xFB] ++ rest) := by
  rw [encode_misleading]
  refine wire.next_eq_some.mpr ⟨?_, rfl, rfl⟩
  simp only [List.length_append, List.length_cons, List.length_nil]
  omega

theorem frame?_garbage : wire.frame? (.packet 0x01 0xAA [0x02] 0x20) = none := by
  decide +kernel

theorem encodeAll_replicate_succ (n : Nat) :
    wire.encodeAll (List.replicate (n + 1) misleading) =
      wire.encode misleading ++ wire.encodeAll (List.replicate n misleading) := rfl

/-- So `process_byte` never delivers any of them. -/
theorem scan_misled (n : Nat) :
    wire.frames (wire.scan 0 ([0xAA, 0x02, 0xFB] ++
      wire.encodeAll (List.replicate n misleading))).1 = [] := by
  induction n with
  | zero =>
    rw [List.replicate_zero, wire.encodeAll_nil, List.append_nil, wire.scan_none (next_misled_nil 0)]
    rfl
  | succ n ih =>
    rw [encodeAll_replicate_succ, wire.scan_some (next_misled (Nat.zero_le 4) _),
      wire.frames_cons, frame?_misled]
    exact ih

/-- Nor does the ESP32, when it gets them one by one. -/
theorem pump_misled (n : Nat) :
    (pump [0xAA, 0x02, 0xFB] (List.replicate n (wire.encode misleading))).1 = [] := by
  induction n with
  | zero => rfl
  | succ n ih =>
    have h := next_misled (Nat.le_refl 4) []
    rw [List.append_nil, List.append_nil] at h
    have hstore : store [0xAA, 0x02, 0xFB] (wire.encode misleading) =
        [0xAA, 0x02, 0xFB] ++ wire.encode misleading := by
      rw [encode_misleading]
      rfl
    rw [List.replicate_succ, pump, hstore, wire.scan_some h, wire.scan_none (next_misled_nil 4)]
    dsimp only
    rw [ih, wire.frames_cons, frame?_misled]
    rfl

theorem pump_garbage (n : Nat) :
    (pump [] ([0xAA, 0x01] :: List.replicate (n + 1) (wire.encode misleading))).1 = [] := by
  have hwait : wire.next 4 [0xAA, 0x01] = none := by decide
  have h := next_garbage (Nat.le_refl 4) []
  rw [List.append_nil, List.append_nil] at h
  have hstore₁ : store [] [0xAA, 0x01] = [0xAA, 0x01] := rfl
  have hstore₂ : store [0xAA, 0x01] (wire.encode misleading) =
      [0xAA, 0x01] ++ wire.encode misleading := by
    rw [encode_misleading]
    rfl
  rw [List.replicate_succ, pump, hstore₁, wire.scan_none hwait, pump, hstore₂, wire.scan_some h,
    wire.scan_none (next_misled_nil 4)]
  dsimp only
  rw [pump_misled, wire.frames_cons, frame?_garbage]
  rfl

/-- The garbage and the frames, in a piece each. -/
def misleadingCut (n : Nat) :
    Cut rxChunk ([0xAA, 0x01] ++ wire.encodeAll (List.replicate n misleading)) where
  pieces := [0xAA, 0x01] :: List.replicate n (wire.encode misleading)
  flatten_eq := by
    rw [List.flatten_cons, FrameFormat.encodeAll, List.flatMap_replicate]
  nonempty piece h := by
    rcases List.mem_cons.mp h with rfl | h
    · decide
    · rw [List.eq_of_mem_replicate h]
      exact List.cons_ne_nil _ _
  le piece h := by
    rcases List.mem_cons.mp h with rfl | h
    · decide
    · rw [List.eq_of_mem_replicate h, encode_misleading]
      decide

theorem fits_misleading {n : Nat} : ∀ f ∈ List.replicate n misleading, wire.Fits f := by
  intro f hf
  rw [List.eq_of_mem_replicate hf]
  rfl

/-- Losing all of `B + 1` frames is losing more than `B`. -/
theorem not_allBut_nil {β : Type} (B : Nat) (b : β) : ¬ AllBut B (List.replicate (B + 1) b) [] := by
  rintro ⟨kept, -, hkept, hlen⟩
  obtain rfl := List.sublist_nil.mp hkept
  rw [List.length_replicate, List.length_nil] at hlen
  omega

/-- Bytes that all arrive at the same time. -/
def atOnce (stream : List UInt8) : List RxByte := stream.map fun b => ⟨b, 0⟩

theorem atOnce_bytes (stream : List UInt8) : (atOnce stream).map RxByte.byte = stream := by
  simp [atOnce, Function.comp_def]

/-- **No bound holds for all frames**, for neither receiver. -/
theorem receivers_never_resync :
    (¬ ∃ B, ParserResyncs fun _ => B) ∧ ¬ ∃ B, MicroResyncs fun _ => B := by
  constructor
  · rintro ⟨B, h⟩
    have hkept := h [0xAA, 0x01] (List.replicate (B + 1) misleading) fits_misleading {} _ rfl
      (atOnce_bytes _)
    rw [(feed_scan (p := {}) (r := []) rfl _).delivered_eq, List.nil_append, atOnce_bytes,
      encodeAll_replicate_succ, wire.scan_some (next_garbage (Nat.zero_le 4) _), wire.frames_cons,
      frame?_garbage, scan_misled] at hkept
    exact not_allBut_nil B misleading hkept
  · rintro ⟨B, h⟩
    obtain ⟨s', delivered, hrun, hkept⟩ := h [0xAA, 0x01] (List.replicate (B + 1) misleading)
      fits_misleading (misleadingCut (B + 1)) RxState.init rfl
    have hpump := (run_deliver_iff _ rfl _).mp ⟨s', hrun⟩
    rw [misleadingCut, pump_garbage] at hpump
    subst hpump
    exact not_allBut_nil B misleading hkept

end KartStack
