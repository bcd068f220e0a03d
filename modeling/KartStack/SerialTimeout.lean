import KartStack.SerialParser
import Mathlib.Data.List.Induction

/-! # Frame timeout of the Orin's receiver

The driver's header announces a `FRAME_TIMEOUT` between a frame's start byte and
its check byte, and a counter `rx_timeout()`.  What this asks of a receiver is a matter
of the bytes and their times alone: a byte that comes too late drops the frame begun
before it and is read as the first of what follows (`unfinished`), so that a frame
times out once, and the next one is read from its own start byte.

A receiver that looks at the clock does so on every stream
(`processByteTimed_honours`).  `process_byte` takes a clock reading for every byte and
stores the reading of each start byte, but never compares the two.  So a stream gets
what is announced exactly when no byte of it comes too late (`honoursTimeout_iff`).
-/
namespace KartStack.SerialDriver

/-- `SerialDriver::FRAME_TIMEOUT`, 100 ms in the nanoseconds of the steady clock. -/
def frameTimeout : Nat := 100 * 1000000

/-! ## What is announced -/

/-- `b` comes too late for the frame that `held` begins. -/
def Late : List RxByte → RxByte → Prop
  | [], _ => False
  | s :: _, b => s.now + frameTimeout < b.now

instance : ∀ (held : List RxByte) (b : RxByte), Decidable (Late held b)
  | [], _ => isFalse id
  | s :: _, b => inferInstanceAs (Decidable (s.now + frameTimeout < b.now))

/-- What is left of an unfinished frame when `b` arrives. -/
def kept (held : List RxByte) (b : RxByte) : List RxByte := if Late held b then [] else held

/-- The bytes of the frame that is unfinished after `b`.  There are none if `b` completes
it, or begins none. -/
def heldAfter (held : List RxByte) (b : RxByte) : List RxByte :=
  if (wire.next 0 ((kept held b ++ [b]).map RxByte.byte)).isSome then [] else kept held b ++ [b]

/-- The bytes of the frame that is unfinished after `bs`. -/
def unfinished (bs : List RxByte) : List RxByte := bs.foldl heldAfter []

/-- What is announced for a byte `b` that reaches the receiver `q` while the frame `held`
is unfinished; `q'` is the receiver afterwards, and `out` what it delivers. -/
structure TimesOut (held : List RxByte) (b : RxByte) (q q' : Parser)
    (out : Option (Frame UInt8)) : Prop where
  /-- A frame is delivered in time only: it is what was held, with `b` for its check byte. -/
  inTime : ∀ f ∈ out, held ≠ [] ∧ ¬ Late held b ∧
    (held ++ [b]).map RxByte.byte = wire.encode f
  /-- A late byte counts once, and no other does. -/
  counted : q'.rxTimeout = if Late held b then q.rxTimeout + 1 else q.rxTimeout
  /-- A late start byte begins a frame of its own. -/
  restarted : Late held b → b.byte = sof → q'.state = .len ∧ q'.frameStart = b.now
  discarded : Late held b → b.byte ≠ sof → q'.state = .waitSof

section
variable (step : Parser → Nat → UInt8 → Parser × Option (Frame UInt8))

/-- A receiver after some bytes. -/
def receiver (p : Parser) (bs : List RxByte) : Parser :=
  bs.foldl (fun q b => (step q b.now b.byte).1) p

/-- Every byte of `bs` is treated as announced. -/
def HonoursTimeout (p : Parser) (bs : List RxByte) : Prop :=
  ∀ before b after, bs = before ++ b :: after →
    TimesOut (unfinished before) b (receiver step p before)
      (step (receiver step p before) b.now b.byte).1
      (step (receiver step p before) b.now b.byte).2

end

/-- No byte arrives more than `FRAME_TIMEOUT` after the start byte of a frame that
is unfinished then. -/
def Prompt (bs : List RxByte) : Prop :=
  ∀ before b after, bs = before ++ b :: after → ¬ Late (unfinished before) b

theorem unfinished_concat (bs : List RxByte) (b : RxByte) :
    unfinished (bs ++ [b]) = heldAfter (unfinished bs) b := List.foldl_concat ..

theorem receiver_concat (step : Parser → Nat → UInt8 → Parser × Option (Frame UInt8))
    (p : Parser) (bs : List RxByte) (b : RxByte) :
    receiver step p (bs ++ [b]) = (step (receiver step p bs) b.now b.byte).1 :=
  List.foldl_concat ..

/-- A late byte is read as the first one. -/
theorem heldAfter_of_late {held : List RxByte} {b : RxByte} (h : Late held b) :
    heldAfter held b = heldAfter [] b := by
  simp only [heldAfter, kept, if_pos h, if_neg (id : ¬ Late [] b)]

/-! ## A byte in time -/

/-- The receiver holds the unfinished frame, and when it began. -/
structure Tracks (q : Parser) (held : List RxByte) : Prop where
  holds : Holds q (held.map RxByte.byte)
  start : ∀ s ∈ held.head?, q.frameStart = s.now

theorem tracks_nil {q : Parser} (h : q.state = .waitSof) : Tracks q [] :=
  ⟨by rw [Holds, h]; rfl, fun _ hs => by cases hs⟩

/-- Only a start byte that is waited for sets the clock. -/
theorem processByte_frameStart (q : Parser) (now : Nat) (byte : UInt8) :
    (processByte q now byte).1.frameStart =
      if q.state = .waitSof ∧ byte = sof then now else q.frameStart := by
  rw [processByte]
  cases hst : q.state with
  | waitSof => by_cases hb : byte = sof <;> simp [hb]
  | len => dsimp only; split <;> simp
  | type => simp
  | payload => dsimp only; split <;> simp
  | crc => dsimp only; split <;> simp

/-- Reading on from an incomplete packet, a symbol completes it or is kept. -/
theorem scan_concat {xs : List UInt8} (h : wire.next 0 xs = none) (byte : UInt8) :
    (wire.next 0 (xs ++ [byte]) = none ∧ wire.scan 0 (xs ++ [byte]) = ([], xs ++ [byte])) ∨
      ∃ s, wire.next 0 (xs ++ [byte]) = some (s, []) ∧ wire.scan 0 (xs ++ [byte]) = ([s], []) := by
  cases hn : wire.next 0 (xs ++ [byte]) with
  | none => exact Or.inl ⟨rfl, wire.scan_none hn⟩
  | some r =>
    obtain ⟨s, rest⟩ := r
    obtain ⟨-, hs, heq⟩ := wire.next_eq_some.mp hn
    have hnil : rest = [] := by
      -- otherwise the packet was complete before
      by_contra hne
      rw [← List.dropLast_concat_getLast hne, ← List.append_assoc] at heq
      have hbefore := (List.append_inj' heq rfl).1
      rw [wire.next_eq_some.mpr ⟨Nat.zero_le _, hs, hbefore⟩] at h
      cases h
    subst hnil
    refine Or.inr ⟨s, rfl, ?_⟩
    rw [wire.scan_some hn, wire.scan_none (by simp [FrameFormat.next])]

/-- **A byte in time**: the receiver goes on holding the unfinished frame, and what it
delivers is that frame. -/
theorem Tracks.next {q : Parser} {held : List RxByte} {b : RxByte} (h : Tracks q held)
    (hlate : ¬ Late held b) :
    Tracks (processByte q b.now b.byte).1 (heldAfter held b) ∧
      ∀ f ∈ (processByte q b.now b.byte).2, held ≠ [] ∧
        (held ++ [b]).map RxByte.byte = wire.encode f := by
  have hkept : kept held b = held := if_neg hlate
  have hmap : (held ++ [b]).map RxByte.byte = held.map RxByte.byte ++ [b.byte] := List.map_append
  have hstep := processByte_agrees h.holds b.now b.byte
  rw [heldAfter, hkept, hmap]
  rcases scan_concat h.holds.next_eq_none b.byte with ⟨hn, hscan⟩ | ⟨s, hn, hscan⟩
  · rw [hscan] at hstep
    have hnone : (processByte q b.now b.byte).2 = none :=
      Option.toList_eq_nil_iff.mp hstep.delivered_eq
    rw [hn, Option.isSome_none, if_neg Bool.false_ne_true, hnone]
    refine ⟨⟨hmap ▸ hstep.holds, fun s hs => ?_⟩, fun f hf => by cases hf⟩
    rw [processByte_frameStart]
    cases held with
    | nil =>
      obtain rfl := Option.some.inj hs
      have hsof : b.byte = sof := by
        by_contra hb
        have hjunk : wire.next 0 [b.byte] = some (.junk b.byte, []) :=
          wire.next_eq_some.mpr ⟨Nat.zero_le _, hb, rfl⟩
        cases hjunk.symm.trans hn
      exact if_pos ⟨h.holds.state_of_nil, hsof⟩
    | cons s' rest =>
      obtain rfl := Option.some.inj hs
      have hstate : q.state ≠ .waitSof := fun hst => by
        have hnil := h.holds
        rw [Holds, hst] at hnil
        cases hnil
      rw [if_neg fun hboth => hstate hboth.1]
      exact h.start s' rfl
  · rw [hscan] at hstep
    obtain ⟨-, hs, heq⟩ := wire.next_eq_some.mp hn
    rw [List.append_nil] at heq
    rw [hn, Option.isSome_some, if_pos rfl]
    refine ⟨tracks_nil hstep.holds.state_of_nil, fun f hf => ?_⟩
    have hframe : wire.frame? s = some f := by
      have hmem : f ∈ wire.frames [s] := hstep.delivered_eq ▸ Option.mem_toList.mpr hf
      rw [wire.frames_cons, wire.frames_nil, List.append_nil] at hmem
      exact Option.mem_toList.mp hmem
    have hencode : wire.encode f = wire.bytes s :=
      wire.encode_of_frame? wire_lenSymbol_len hframe fun l t p c hp => by
        subst hp
        exact hs
    refine ⟨?_, heq.trans hencode.symm⟩
    rintro rfl
    have hlength := congrArg List.length (heq.trans hencode.symm)
    simp at hlength

/-! ## The code never times out -/

theorem processByte_rxTimeout (p : Parser) (now : Nat) (byte : UInt8) :
    (processByte p now byte).1.rxTimeout = p.rxTimeout := by
  rw [processByte]
  split
  · split <;> rfl
  · dsimp only
    split <;> rfl
  · rfl
  · dsimp only
    split <;> rfl
  · dsimp only
    split <;> rfl

/-- The counter stays where it was over any stream. -/
theorem receiver_rxTimeout (p : Parser) (bs : List RxByte) :
    (receiver processByte p bs).rxTimeout = p.rxTimeout := by
  induction bs generalizing p with
  | nil => rfl
  | cons b bs ih => exact (ih _).trans (processByte_rxTimeout p b.now b.byte)

/-- The receiver that is fed some bytes. -/
theorem receiver_eq_feed (p : Parser) (bs : List RxByte) :
    receiver processByte p bs = (feed p bs).1 := by
  induction bs generalizing p with
  | nil => rfl
  | cons b bs ih => exact ih _

/-- A late byte is not treated as announced. -/
theorem not_timesOut_of_late {held : List RxByte} {q : Parser} {b : RxByte} (h : Late held b) :
    ¬ TimesOut held b q (processByte q b.now b.byte).1 (processByte q b.now b.byte).2 := by
  intro ht
  have hcount := ht.counted
  rw [processByte_rxTimeout, if_pos h] at hcount
  have hone : q.rxTimeout + 0 = q.rxTimeout + 1 := by rw [UInt64.add_zero]; exact hcount
  exact absurd (UInt64.add_right_inj q.rxTimeout |>.mp hone) (by decide)

/-- A byte in time is. -/
theorem Tracks.timesOut {q : Parser} {held : List RxByte} {b : RxByte} (h : Tracks q held)
    (hlate : ¬ Late held b) :
    TimesOut held b q (processByte q b.now b.byte).1 (processByte q b.now b.byte).2 where
  inTime f hf := by
    obtain ⟨hheld, hencode⟩ := (h.next hlate).2 f hf
    exact ⟨hheld, hlate, hencode⟩
  counted := by rw [processByte_rxTimeout, if_neg hlate]
  restarted hl := absurd hl hlate
  discarded hl := absurd hl hlate

/-- Up to the first late byte the receiver holds the unfinished frame. -/
theorem tracks_of_prompt (p : Parser) {bs : List RxByte} (h : Prompt bs) :
    Tracks (receiver processByte (resetParser p) bs) (unfinished bs) := by
  induction bs using List.reverseRecOn with
  | nil => exact tracks_nil rfl
  | append_singleton bs b ih =>
    have hbefore : Prompt bs := fun before c after hbs =>
      h before c (after ++ [b]) (by rw [hbs, List.append_assoc, List.cons_append])
    rw [receiver_concat, unfinished_concat]
    exact ((ih hbefore).next (h bs b [] rfl)).1

/-- **Exactly the prompt streams are treated as announced**, whatever the clock
readings are and whatever the counters start at. -/
theorem honoursTimeout_iff (p : Parser) (bs : List RxByte) :
    HonoursTimeout processByte (resetParser p) bs ↔ Prompt bs := by
  constructor
  · intro h before b after hbs hlate
    exact not_timesOut_of_late hlate (h before b after hbs)
  · intro h before b after hbs
    have hbefore : Prompt before := fun before' c after' hbs' =>
      h before' c (after' ++ b :: after) (by rw [hbs, hbs', List.append_assoc, List.cons_append])
    exact (tracks_of_prompt p hbefore).timesOut (h before b after hbs)

/-- A heartbeat frame whose check byte comes a nanosecond too late. -/
def stalled : List RxByte :=
  [⟨0xAA, 0⟩, ⟨0x00, 0⟩, ⟨0x08, 0⟩, ⟨0x38, frameTimeout + 1⟩]

/-- **The late frame is delivered**, and no timeout is counted. -/
theorem stalled_not_honoured :
    stalled.Pairwise (fun b c => b.now ≤ c.now) ∧ ¬ HonoursTimeout processByte {} stalled ∧
      (feed {} stalled).2 = [⟨0x08, []⟩] ∧ (feed {} stalled).1.rxTimeout = 0 := by
  refine ⟨by simp [stalled], fun h => ?_, by decide +kernel,
    receiver_eq_feed {} stalled ▸ receiver_rxTimeout {} stalled⟩
  have hlate : Late (unfinished [⟨0xAA, 0⟩, ⟨0x00, 0⟩, ⟨0x08, 0⟩]) ⟨0x38, frameTimeout + 1⟩ := by
    decide +kernel
  exact not_timesOut_of_late hlate (h [⟨0xAA, 0⟩, ⟨0x00, 0⟩, ⟨0x08, 0⟩] _ [] rfl)

/-! ## A receiver that does -/

/-- What is announced of `process_byte`: it looks at the clock inside a frame. -/
def processByteTimed (p : Parser) (now : Nat) (byte : UInt8) : Parser × Option (Frame UInt8) :=
  if p.state ≠ .waitSof ∧ p.frameStart + frameTimeout < now then
    processByte { p with state := .waitSof, rxTimeout := p.rxTimeout + 1 } now byte
  else processByte p now byte

/-- It looks at the clock exactly where a byte is late. -/
theorem Tracks.late_iff {q : Parser} {held : List RxByte} (h : Tracks q held) (b : RxByte) :
    Late held b ↔ q.state ≠ .waitSof ∧ q.frameStart + frameTimeout < b.now := by
  cases held with
  | nil => exact iff_of_false id fun hboth => hboth.1 h.holds.state_of_nil
  | cons s rest =>
    have hstate : q.state ≠ .waitSof := fun hst => by
      have hnil := h.holds
      rw [Holds, hst] at hnil
      cases hnil
    rw [h.start s rfl]
    exact (and_iff_right hstate).symm

/-- **One byte**, in time or not. -/
theorem Tracks.timed {q : Parser} {held : List RxByte} (h : Tracks q held) (b : RxByte) :
    Tracks (processByteTimed q b.now b.byte).1 (heldAfter held b) ∧
      TimesOut held b q (processByteTimed q b.now b.byte).1
        (processByteTimed q b.now b.byte).2 := by
  by_cases hlate : Late held b
  · have hdrop : Tracks { q with state := .waitSof, rxTimeout := q.rxTimeout + 1 } [] :=
      tracks_nil rfl
    obtain ⟨hnext, hout⟩ := hdrop.next (b := b) id
    rw [processByteTimed, if_pos ((h.late_iff b).mp hlate), heldAfter_of_late hlate]
    refine ⟨hnext, fun f hf => absurd rfl (hout f hf).1, ?_, fun _ hsof => ?_, fun _ hsof => ?_⟩
    · rw [processByte_rxTimeout, if_pos hlate]
    · rw [processByte, if_pos hsof]
      exact ⟨rfl, rfl⟩
    · rw [processByte, if_neg hsof]
  · rw [processByteTimed, if_neg (mt (h.late_iff b).mpr hlate)]
    exact ⟨(h.next hlate).1, h.timesOut hlate⟩

/-- **Such a receiver treats every stream as announced.** -/
theorem processByteTimed_honours (p : Parser) (bs : List RxByte) :
    HonoursTimeout processByteTimed (resetParser p) bs := by
  have htracks : ∀ bs, Tracks (receiver processByteTimed (resetParser p) bs) (unfinished bs) := by
    intro bs
    induction bs using List.reverseRecOn with
    | nil => exact tracks_nil rfl
    | append_singleton bs b ih =>
      rw [receiver_concat, unfinished_concat]
      exact (ih.timed b).1
  exact fun before b _ _ => ((htracks before).timed b).2

end KartStack.SerialDriver
