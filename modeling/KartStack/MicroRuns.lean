import KartStack.MicroReceive

/-! # Runs of the ESP32's receiver

A run is any sequence of `km_coms_ReceiveMsg` and `KM_COMS_ProccessMsgs` calls; it
records what is handed to `KM_COMS_ProccessPayload`.  `comms_task` alternates the
two (`deliver`), and then a run is `pump`: scan what is left together with the
next piece, unless the buffer would overflow.

Whatever the calls, the stream is covered by what was processed, what the
overflow reset threw away and what is still in the buffer (`run_covers`); with
alternating calls, a run without resets is one scan (`pump_eq_scan`).
-/
namespace KartStack.KmComs

/-- `KM_COMS_ProccessPayload` as an observer sees it: what it is handed. -/
def hand (log : List (Frame UInt8)) (m : Msg) : List (Frame UInt8) := log ++ [m.frame]

theorem foldl_hand (ms : List Msg) (log : List (Frame UInt8)) :
    ms.foldl hand log = log ++ ms.map Msg.frame := by
  induction ms generalizing log with
  | nil => simp
  | cons m ms ih => simp [hand, ih]

/-- A call of the receiver's interface. -/
inductive Call where
  | receive (uart : UartRx)
  | proccess

/-- One call, with the semaphore obtained. -/
def step (st : RxState × List (Frame UInt8)) : Call → Option (RxState × List (Frame UInt8))
  | .receive uart => (receiveMsg true uart st.1).map fun s => (s, st.2)
  | .proccess => some (proccessMsgs hand true st.1 st.2)

/-- A sequence of calls: the final buffer and everything handed on. -/
def run (st : RxState × List (Frame UInt8)) (calls : List Call) :
    Option (RxState × List (Frame UInt8)) :=
  calls.foldlM step st

/-- The bytes a call takes from the UART. -/
def Call.received : Call → List UInt8
  | .receive uart => uart.chunk.getD []
  | .proccess => []

/-- `uart_read_bytes` returns a count. -/
def Call.Counts : Call → Prop
  | .receive uart => uart.chunk.isSome
  | .proccess => True

/-- One piece, given to one `km_coms_ReceiveMsg` followed by one
`KM_COMS_ProccessMsgs`, as in `comms_task`. -/
def deliver (pieces : List (List UInt8)) : List Call :=
  pieces.flatMap fun piece => [.receive (UartRx.holding piece), .proccess]

/-- A way of cutting a stream into non-empty pieces of at most `cap` bytes. -/
structure Cut (cap : Nat) (stream : List UInt8) where
  pieces : List (List UInt8)
  flatten_eq : pieces.flatten = stream
  nonempty : ∀ piece ∈ pieces, piece ≠ []
  le : ∀ piece ∈ pieces, piece.length ≤ cap

/-- The pieces when every read takes as much as it may. -/
def greedyPieces (cap : Nat) : Nat → List UInt8 → List (List UInt8)
  | 0, _ => []
  | fuel + 1, stream =>
    if stream = [] then [] else stream.take cap :: greedyPieces cap fuel (stream.drop cap)

theorem greedyPieces_flatten {cap : Nat} (hcap : 0 < cap) {fuel : Nat} {stream : List UInt8}
    (h : stream.length ≤ fuel) : (greedyPieces cap fuel stream).flatten = stream := by
  induction fuel generalizing stream with
  | zero => exact (List.length_eq_zero_iff.mp (Nat.le_zero.mp h)).symm
  | succ fuel ih =>
    rw [greedyPieces]
    split
    · rename_i hnil
      exact hnil.symm
    · rw [List.flatten_cons, ih (by rw [List.length_drop]; omega), List.take_append_drop]

theorem mem_greedyPieces {cap : Nat} (hcap : 0 < cap) {fuel : Nat} {stream piece : List UInt8}
    (h : piece ∈ greedyPieces cap fuel stream) : piece ≠ [] ∧ piece.length ≤ cap := by
  induction fuel generalizing stream with
  | zero => cases h
  | succ fuel ih =>
    rw [greedyPieces] at h
    split at h
    · cases h
    · rename_i hne
      rcases List.mem_cons.mp h with rfl | h
      · refine ⟨?_, List.length_take_le ..⟩
        rw [Ne, List.take_eq_nil_iff, not_or]
        exact ⟨Nat.ne_of_gt hcap, hne⟩
      · exact ih h

/-- The piece behind `k` full ones. -/
theorem greedyPieces_at (cap : Nat) (hcap : 0 < cap) (k : Nat) {fuel : Nat} {stream : List UInt8}
    (hfuel : stream.length ≤ fuel) (hk : k * cap < stream.length) :
    ∃ before piece after, greedyPieces cap fuel stream = before ++ piece :: after ∧
      before.flatten.length = k * cap ∧ piece.length = min cap (stream.length - k * cap) := by
  induction k generalizing fuel stream with
  | zero =>
    obtain ⟨fuel, rfl⟩ : ∃ n, fuel = n + 1 := ⟨fuel - 1, by omega⟩
    have hne : stream ≠ [] := List.length_pos_iff.mp (by omega)
    rw [greedyPieces, if_neg hne]
    exact ⟨[], _, _, rfl, by simp, by simp⟩
  | succ k ih =>
    rw [Nat.succ_mul] at hk ⊢
    obtain ⟨fuel, rfl⟩ : ∃ n, fuel = n + 1 := ⟨fuel - 1, by omega⟩
    have hne : stream ≠ [] := List.length_pos_iff.mp (by omega)
    have hfuel' : (stream.drop cap).length ≤ fuel := by
      rw [List.length_drop]
      omega
    have hk' : k * cap < (stream.drop cap).length := by
      rw [List.length_drop]
      omega
    obtain ⟨before, piece, after, hp, hbefore, hpiece⟩ := ih hfuel' hk'
    rw [greedyPieces, if_neg hne, hp]
    refine ⟨stream.take cap :: before, piece, after, rfl, ?_, ?_⟩
    · rw [List.flatten_cons, List.length_append, List.length_take, hbefore]
      omega
    · rw [hpiece, List.length_drop]
      omega

/-- The cut a UART makes whose bytes wait until they are fetched. -/
def Cut.greedy (cap : Nat) (hcap : 0 < cap) (stream : List UInt8) : Cut cap stream where
  pieces := greedyPieces cap stream.length stream
  flatten_eq := greedyPieces_flatten hcap (Nat.le_refl _)
  nonempty _ h := (mem_greedyPieces hcap h).1
  le _ h := (mem_greedyPieces hcap h).2

/-! ## Single calls -/

theorem step_receive {uart : UartRx} {chunk : List UInt8} (h : uart.chunk = some chunk)
    (s : RxState) (log : List (Frame UInt8)) :
    ∃ s', step (s, log) (.receive uart) = some (s', log) ∧ s'.content = store s.content chunk := by
  obtain ⟨s', hs', hc⟩ := receiveMsg_content h s
  exact ⟨s', by simp [step, hs'], hc⟩

theorem step_proccess (s : RxState) (log : List (Frame UInt8)) :
    ∃ s', step (s, log) .proccess =
        some (s', log ++ wire.frames (wire.scan 4 s.content).1) ∧
      s'.content = (wire.scan 4 s.content).2 := by
  refine ⟨(proccessMsgs hand true s log).1, ?_, proccessMsgs_content hand s log⟩
  have happ := proccessMsgs_app hand s log
  rw [foldl_hand, msgs_frames] at happ
  simp [step, ← happ]

/-! ## Any calls -/

/-- The stream so far is covered by the segments read off it, the buffers thrown
away, and the bytes in use; what was handed on are the frames of the segments. -/
def Covers (stream : List UInt8) (st : RxState × List (Frame UInt8)) : Prop :=
  ∃ segs, stream = segs.flatMap wire.bytes ++ st.1.content ∧ st.2 = wire.frames segs ∧
    ∀ l t p c, Segment.packet l t p c ∈ segs → p.length = wire.len l

theorem step_covers {stream : List UInt8} {st : RxState × List (Frame UInt8)}
    (h : Covers stream st) {call : Call} (hc : call.Counts) :
    ∃ st', step st call = some st' ∧ Covers (stream ++ call.received) st' := by
  obtain ⟨segs, hst, hlog, hlen⟩ := h
  obtain ⟨s, log⟩ := st
  subst hlog
  cases call with
  | receive uart =>
    obtain ⟨chunk, hchunk⟩ := Option.isSome_iff_exists.mp hc
    obtain ⟨s', hs', hcont⟩ := step_receive hchunk s (wire.frames segs)
    have hrec : (Call.receive uart).received = chunk := by simp [Call.received, hchunk]
    refine ⟨_, hs', ?_⟩
    rw [hrec, hst]
    by_cases hover : s.content.length + chunk.length > rxCapacity
    · refine ⟨segs ++ [.lost s.content], ?_, by simp [FrameFormat.frames, FrameFormat.frame?], ?_⟩
      · rw [hcont, store, if_pos hover]
        simp [FrameFormat.bytes]
      · intro l t p c hm
        rcases List.mem_append.mp hm with hm | hm
        · exact hlen l t p c hm
        · simp at hm
    · refine ⟨segs, ?_, rfl, hlen⟩
      rw [hcont, store, if_neg hover, List.append_assoc]
  | proccess =>
    obtain ⟨s', hs', hcont⟩ := step_proccess s (wire.frames segs)
    refine ⟨_, hs', segs ++ (wire.scan 4 s.content).1, ?_, by simp, ?_⟩
    · have hb := wire.scan_bytes 4 s.content
      rw [hcont, List.flatMap_append, List.append_assoc, ← hb]
      simpa [Call.received] using hst
    · intro l t p c hm
      rcases List.mem_append.mp hm with hm | hm
      · exact hlen l t p c hm
      · exact wire.scan_scanned 4 s.content _ hm

/-- **Every run covers its stream.** -/
theorem run_covers {stream : List UInt8} {st : RxState × List (Frame UInt8)}
    (h : Covers stream st) {calls : List Call} (hc : ∀ call ∈ calls, call.Counts) :
    ∃ st', run st calls = some st' ∧ Covers (stream ++ calls.flatMap Call.received) st' := by
  induction calls generalizing stream st with
  | nil => exact ⟨st, rfl, by simpa using h⟩
  | cons call calls ih =>
    obtain ⟨st₁, hst₁, h₁⟩ := step_covers h (hc call (List.mem_cons_self ..))
    obtain ⟨st₂, hst₂, h₂⟩ := ih h₁ (fun c hm => hc c (List.mem_cons_of_mem _ hm))
    refine ⟨st₂, ?_, by simpa using h₂⟩
    rw [run, List.foldlM_cons, hst₁]
    exact hst₂

/-! ## Alternating calls -/

/-- Alternating calls, on the bytes in use: the frames handed on and the bytes
left. -/
def pump : List UInt8 → List (List UInt8) → List (Frame UInt8) × List UInt8
  | content, [] => ([], content)
  | content, piece :: pieces =>
    let r := wire.scan 4 (store content piece)
    let q := pump r.2 pieces
    (wire.frames r.1 ++ q.1, q.2)

/-- **Alternating calls pump the pieces through the scanner.** -/
theorem run_deliver {pieces : List (List UInt8)} (hle : ∀ piece ∈ pieces, piece.length ≤ rxChunk)
    (s : RxState) (log : List (Frame UInt8)) :
    ∃ s', run (s, log) (deliver pieces) = some (s', log ++ (pump s.content pieces).1) ∧
      s'.content = (pump s.content pieces).2 := by
  induction pieces generalizing s log with
  | nil => exact ⟨s, by simp [run, deliver, pump], rfl⟩
  | cons piece pieces ih =>
    have hchunk := UartRx.chunk_holding (hle piece (List.mem_cons_self ..))
    obtain ⟨s₁, hs₁, hc₁⟩ := step_receive hchunk s log
    obtain ⟨s₂, hs₂, hc₂⟩ := step_proccess s₁ log
    obtain ⟨s₃, hs₃, hc₃⟩ := ih (fun p hp => hle p (List.mem_cons_of_mem _ hp)) s₂
      (log ++ wire.frames (wire.scan 4 s₁.content).1)
    refine ⟨s₃, ?_, ?_⟩
    · have hcons : run (s, log) (deliver (piece :: pieces)) =
          run (s₂, log ++ wire.frames (wire.scan 4 s₁.content).1) (deliver pieces) := by
        simp [run, deliver, List.foldlM_cons, hs₁, hs₂]
      rw [hcons, hs₃, hc₂, hc₁, List.append_assoc]
      rfl
    · rw [hc₃, hc₂, hc₁]
      rfl

theorem content_eq_nil {s : RxState} (hs : s.rxBufferLen = 0) : s.content = [] := by
  rw [RxState.content, hs, List.take_zero]

/-- What a run from an empty buffer hands on is what the pieces pump out. -/
theorem run_deliver_iff {stream : List UInt8} (cut : Cut rxChunk stream) {s : RxState}
    (hs : s.rxBufferLen = 0) (fs : List (Frame UInt8)) :
    (∃ s', run (s, []) (deliver cut.pieces) = some (s', fs)) ↔ (pump [] cut.pieces).1 = fs := by
  obtain ⟨s₁, hrun, -⟩ := run_deliver cut.le s []
  rw [content_eq_nil hs, List.nil_append] at hrun
  rw [hrun]
  constructor
  · rintro ⟨s', h⟩
    exact congrArg Prod.snd (Option.some.inj h)
  · intro h
    exact ⟨s₁, by rw [h]⟩

/-- Without a reset, pumping is one scan of everything. -/
theorem pump_eq_scan {content : List UInt8} {pieces : List (List UInt8)}
    (hn : wire.next 4 content = none)
    (hroom : ∀ before piece after, pieces = before ++ piece :: after →
      (wire.scan 4 (content ++ before.flatten)).2.length + piece.length ≤ rxCapacity) :
    (pump content pieces).1 = wire.frames (wire.scan 4 (content ++ pieces.flatten)).1 := by
  induction pieces generalizing content with
  | nil => simp [pump, wire.scan_none hn]
  | cons piece pieces ih =>
    have hstore : store content piece = content ++ piece := by
      have h := hroom [] piece pieces rfl
      rw [List.flatten_nil, List.append_nil, wire.scan_none hn] at h
      dsimp only at h
      rw [store, if_neg (by omega)]
    have hrest := ih (wire.next_residue 4 (content ++ piece)) (by
      intro before p after hp
      have h := hroom (piece :: before) p after (by rw [hp]; rfl)
      rwa [List.flatten_cons, ← List.append_assoc, wire.scan_append] at h)
    rw [pump, hstore]
    dsimp only
    rw [hrest, List.flatten_cons, ← List.append_assoc, wire.scan_append 4 (content ++ piece),
      wire.frames_append]

end KartStack.KmComs
