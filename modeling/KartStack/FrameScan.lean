import Mathlib.Data.List.Basic
import Mathlib.Tactic.Common

/-! # Scanning a symbol stream for delimited frames

A framing format fixes a start symbol, how many payload symbols a length symbol
announces, and a check symbol computed from length, type and payload.  A frame
travels as

    sof, length, type, payload …, check

This module reads a stream from the left: a symbol that is not the start symbol
is *junk*, a start symbol swallows the whole packet it announces — whatever its
check symbol says — and a packet that is not complete yet stays in the residue
(`next`, `scan`).  `m` is the least number of symbols a reader looks at; a reader
that inspects every symbol as it arrives has `m = 0`.

The two facts everything rests on are `next_eq_some` (what one reading step does,
in both directions) and `scan_append` (how the stream is cut into reads does not
matter).  `frames` are the packets whose check symbol is right, and
`found_frames` finds them in the stream: contiguous, disjoint, in order.
-/
namespace KartStack

/-- A framing format over the alphabet `α`. -/
structure FrameFormat (α : Type) where
  /-- The start-of-frame symbol. -/
  sof : α
  /-- The payload length a length symbol announces. -/
  len : α → Nat
  /-- The length symbol sent for a payload of the given length. -/
  lenSymbol : Nat → α
  /-- The check symbol of a length symbol, a type and a payload. -/
  check : α → α → List α → α

/-- A decoded frame. -/
structure Frame (α : Type) where
  type : α
  payload : List α
  deriving DecidableEq, Repr

/-- What a reader makes of a piece of the stream. -/
inductive Segment (α : Type) where
  /-- A symbol skipped while waiting for a start symbol. -/
  | junk (b : α)
  /-- A start symbol and everything its length symbol announces. -/
  | packet (len type : α) (payload : List α) (check : α)
  /-- Symbols thrown away unread. -/
  | lost (bs : List α)
  deriving DecidableEq, Repr

namespace FrameFormat
variable {α : Type} (F : FrameFormat α)

/-- The symbols a frame is sent as. -/
def encode (f : Frame α) : List α :=
  F.sof :: F.lenSymbol f.payload.length :: f.type ::
    (f.payload ++ [F.check (F.lenSymbol f.payload.length) f.type f.payload])

/-- The format can announce the length of `f`'s payload. -/
def Fits (f : Frame α) : Prop := F.len (F.lenSymbol f.payload.length) = f.payload.length

@[simp] theorem encode_length (f : Frame α) : (F.encode f).length = f.payload.length + 4 := by
  simp [encode]

/-- The symbols of a segment. -/
def bytes : Segment α → List α
  | .junk b => [b]
  | .packet l t p c => F.sof :: l :: t :: (p ++ [c])
  | .lost bs => bs

/-- The segment is what a reading step can take off the stream. -/
def Scanned : Segment α → Prop
  | .junk b => b ≠ F.sof
  | .packet l _ p _ => p.length = F.len l
  | .lost _ => False

theorem bytes_length_pos {s : Segment α} (hs : F.Scanned s) : 0 < (F.bytes s).length := by
  cases s with
  | junk b => simp [bytes]
  | packet l t p c => simp [bytes]
  | lost bs => exact hs.elim

variable [DecidableEq α]

/-- One reading step: the first segment of the stream and what is left, or
`none` while the reader has to wait for more symbols. -/
def next (m : Nat) (xs : List α) : Option (Segment α × List α) :=
  if xs.length < m then none
  else
    match xs with
    | [] => none
    | b :: ys =>
      if b = F.sof then
        match ys with
        | l :: t :: zs =>
          match zs.drop (F.len l) with
          | c :: rest => some (.packet l t (zs.take (F.len l)) c, rest)
          | [] => none
        | _ => none
      else some (.junk b, ys)

/-- **What a reading step does**, in both directions. -/
theorem next_eq_some {m : Nat} {xs r : List α} {s : Segment α} :
    F.next m xs = some (s, r) ↔ m ≤ xs.length ∧ F.Scanned s ∧ xs = F.bytes s ++ r := by
  constructor
  · intro h
    unfold next at h
    split at h
    · cases h
    rename_i hm
    refine ⟨by omega, ?_⟩
    split at h
    · cases h
    rename_i b ys
    split at h
    · rename_i hb
      split at h
      · rename_i l t zs
        split at h
        · rename_i c rest hd
          obtain ⟨rfl, rfl⟩ := Prod.mk.inj (Option.some.inj h)
          have hlen : F.len l < zs.length := by
            have := congrArg List.length hd
            simp only [List.length_drop, List.length_cons] at this
            omega
          refine ⟨by simp only [Scanned, List.length_take]; omega, ?_⟩
          have hz : zs = zs.take (F.len l) ++ c :: rest := by rw [← hd, List.take_append_drop]
          rw [hb]
          simp only [bytes, List.cons_append, List.append_assoc, List.nil_append]
          rw [← hz]
        · cases h
      · cases h
    · rename_i hb
      obtain ⟨rfl, rfl⟩ := Prod.mk.inj (Option.some.inj h)
      exact ⟨hb, rfl⟩
  · rintro ⟨hm, hs, rfl⟩
    unfold next
    rw [if_neg (by omega)]
    cases s with
    | junk b =>
      have hb : b ≠ F.sof := hs
      simp [bytes, hb]
    | packet l t p c =>
      have hp : p.length = F.len l := hs
      simp [bytes, ← hp]
    | lost bs => exact hs.elim

theorem next_length {m : Nat} {xs r : List α} {s : Segment α} (h : F.next m xs = some (s, r)) :
    r.length < xs.length := by
  obtain ⟨-, hs, rfl⟩ := F.next_eq_some.mp h
  have := F.bytes_length_pos hs
  rw [List.length_append]
  omega

/-- More symbols behind a segment do not change how it is read. -/
theorem next_append {m : Nat} {xs r : List α} {s : Segment α} (h : F.next m xs = some (s, r))
    (ys : List α) : F.next m (xs ++ ys) = some (s, r ++ ys) := by
  obtain ⟨hm, hs, rfl⟩ := F.next_eq_some.mp h
  refine F.next_eq_some.mpr ⟨?_, hs, List.append_assoc ..⟩
  rw [List.length_append]
  omega

/-- Why a reader waits: too few symbols to look at, none at all, or a start
symbol whose packet is not complete. -/
theorem next_eq_none {m : Nat} {xs : List α} (h : F.next m xs = none) :
    xs.length < m ∨ xs = [] ∨ xs = [F.sof] ∨
      ∃ l rest, xs = F.sof :: l :: rest ∧ rest.length < F.len l + 2 := by
  unfold next at h
  split at h
  · exact Or.inl ‹_›
  rename_i hm
  right
  split at h
  · exact Or.inl rfl
  rename_i b ys
  right
  split at h
  · rename_i hb
    subst hb
    split at h
    · rename_i l t zs
      split at h
      · cases h
      · rename_i hd
        refine Or.inr ⟨l, t :: zs, rfl, ?_⟩
        have := List.drop_eq_nil_iff.mp hd
        simp only [List.length_cons]
        omega
    · rename_i hno
      rcases ys with _ | ⟨l, _ | ⟨t, zs⟩⟩
      · exact Or.inl rfl
      · exact Or.inr ⟨l, [], rfl, by simp⟩
      · exact absurd rfl (hno l t zs)
  · cases h

theorem next_sof (m : Nat) : F.next m [F.sof] = none := by
  simp [next]

/-- A packet is not read before its last symbol is there. -/
theorem next_incomplete (m : Nat) {l : α} {rest : List α} (h : rest.length < F.len l + 2) :
    F.next m (F.sof :: l :: rest) = none := by
  unfold next
  split
  · rfl
  cases rest with
  | nil => simp
  | cons t zs =>
    have hd : zs.drop (F.len l) = [] := by
      rw [List.drop_eq_nil_iff]
      simp only [List.length_cons] at h
      omega
    simp [hd]

/-- Reads as many segments as the stream holds; what is left is the residue. -/
def scan (m : Nat) (xs : List α) : List (Segment α) × List α :=
  match _h : F.next m xs with
  | none => ([], xs)
  | some (s, r) => (s :: (scan m r).1, (scan m r).2)
termination_by xs.length
decreasing_by all_goals exact F.next_length _h

theorem scan_none {m : Nat} {xs : List α} (h : F.next m xs = none) : F.scan m xs = ([], xs) := by
  rw [scan]
  split
  · rfl
  · rename_i heq
    rw [h] at heq
    cases heq

theorem scan_some {m : Nat} {xs r : List α} {s : Segment α} (h : F.next m xs = some (s, r)) :
    F.scan m xs = (s :: (F.scan m r).1, (F.scan m r).2) := by
  rw [scan]
  split
  · rename_i heq
    rw [h] at heq
    cases heq
  · rename_i s' r' heq
    rw [h] at heq
    obtain ⟨rfl, rfl⟩ := Prod.mk.inj (Option.some.inj heq)
    rfl

/-- Induction along a scan: the residue, and one segment off the front. -/
theorem scan_induction {m : Nat} {P : List α → Prop}
    (wait : ∀ xs, F.next m xs = none → P xs)
    (take : ∀ xs s r, F.next m xs = some (s, r) → P r → P xs) (xs : List α) : P xs := by
  induction h : xs.length using Nat.strongRecOn generalizing xs with
  | _ n ih =>
    cases hs : F.next m xs with
    | none => exact wait xs hs
    | some p => exact take xs p.1 p.2 hs (ih _ (h ▸ F.next_length hs) p.2 rfl)

/-- **How the stream is cut into reads does not matter**: reading `xs ++ ys` is
reading `xs`, then reading what was left of it followed by `ys`. -/
theorem scan_append (m : Nat) (xs ys : List α) :
    F.scan m (xs ++ ys) =
      ((F.scan m xs).1 ++ (F.scan m ((F.scan m xs).2 ++ ys)).1,
        (F.scan m ((F.scan m xs).2 ++ ys)).2) := by
  induction xs using F.scan_induction (m := m) with
  | wait xs h => simp [F.scan_none h]
  | take xs s r h ih =>
    rw [F.scan_some h, F.scan_some (F.next_append h ys), ih]
    simp

/-- A scan loses no symbol. -/
theorem scan_bytes (m : Nat) (xs : List α) :
    xs = (F.scan m xs).1.flatMap F.bytes ++ (F.scan m xs).2 := by
  induction xs using F.scan_induction (m := m) with
  | wait xs h => simp [F.scan_none h]
  | take xs s r h ih =>
    obtain ⟨-, -, rfl⟩ := F.next_eq_some.mp h
    rw [F.scan_some h, List.flatMap_cons, List.append_assoc, ← ih]

theorem scan_scanned (m : Nat) (xs : List α) : ∀ s ∈ (F.scan m xs).1, F.Scanned s := by
  induction xs using F.scan_induction (m := m) with
  | wait xs h => simp [F.scan_none h]
  | take xs s r h ih =>
    rw [F.scan_some h]
    intro u hu
    rcases List.mem_cons.mp hu with rfl | hu
    · exact (F.next_eq_some.mp h).2.1
    · exact ih u hu

/-- A scan stops only where the reader has to wait. -/
theorem next_residue (m : Nat) (xs : List α) : F.next m (F.scan m xs).2 = none := by
  induction xs using F.scan_induction (m := m) with
  | wait xs h => rw [F.scan_none h]; exact h
  | take xs s r h ih => rw [F.scan_some h]; exact ih

/-! ## The frames a scan delivers -/

/-- The frame of a packet whose check symbol is right. -/
def frame? : Segment α → Option (Frame α)
  | .packet l t p c => if F.check l t p = c then some ⟨t, p⟩ else none
  | _ => none

/-- The frames delivered by a list of segments, in stream order. -/
def frames (segs : List (Segment α)) : List (Frame α) := segs.filterMap F.frame?

@[simp] theorem frames_nil : F.frames [] = [] := rfl

theorem frames_cons (s : Segment α) (segs : List (Segment α)) :
    F.frames (s :: segs) = (F.frame? s).toList ++ F.frames segs := by
  unfold frames
  cases h : F.frame? s <;> simp [h]

@[simp] theorem frames_append (segs segs' : List (Segment α)) :
    F.frames (segs ++ segs') = F.frames segs ++ F.frames segs' :=
  List.filterMap_append

/-- The packets whose check symbol is wrong. -/
def rejects (segs : List (Segment α)) : Nat :=
  segs.countP fun s =>
    match s with
    | .packet l t p c => F.check l t p ≠ c
    | _ => false

@[simp] theorem rejects_nil : F.rejects [] = 0 := rfl

@[simp] theorem rejects_append (segs segs' : List (Segment α)) :
    F.rejects (segs ++ segs') = F.rejects segs + F.rejects segs' :=
  List.countP_append

omit [DecidableEq α] in
/-- Frames sent back to back. -/
def encodeAll (fs : List (Frame α)) : List α := fs.flatMap F.encode

omit [DecidableEq α] in
@[simp] theorem encodeAll_nil : F.encodeAll [] = [] := rfl

omit [DecidableEq α] in
@[simp] theorem encodeAll_cons (f : Frame α) (fs : List (Frame α)) :
    F.encodeAll (f :: fs) = F.encode f ++ F.encodeAll fs := rfl

omit [DecidableEq α] in
@[simp] theorem encodeAll_append (fs gs : List (Frame α)) :
    F.encodeAll (fs ++ gs) = F.encodeAll fs ++ F.encodeAll gs :=
  List.flatMap_append

omit [DecidableEq α] in
theorem four_mul_length_le (fs : List (Frame α)) : 4 * fs.length ≤ (F.encodeAll fs).length := by
  induction fs with
  | nil => simp
  | cons f fs ih =>
    rw [encodeAll_cons, List.length_append, encode_length, List.length_cons]
    omega

/-- Delivered frames are paid for by symbols of the stream. -/
theorem encodeAll_frames_length_le (segs : List (Segment α)) :
    (F.encodeAll (F.frames segs)).length ≤ (segs.flatMap F.bytes).length := by
  induction segs with
  | nil => simp
  | cons s segs ih =>
    rw [frames_cons, encodeAll_append, List.flatMap_cons, List.length_append, List.length_append]
    refine Nat.add_le_add ?_ ih
    cases s with
    | packet l t p c =>
      by_cases hc : F.check l t p = c
      · simp [frame?, hc, bytes]
      · simp [frame?, hc]
    | junk b => simp [frame?]
    | lost bs => simp [frame?]

/-- A stream too short for a frame delivers none. -/
theorem frames_eq_nil_of_length_lt {segs : List (Segment α)}
    (h : (segs.flatMap F.bytes).length < 4) : F.frames segs = [] := by
  have h₁ := F.encodeAll_frames_length_le segs
  have h₂ := F.four_mul_length_le (F.frames segs)
  exact List.length_eq_zero_iff.mp (by omega)

/-! ## Reading what was encoded -/

omit [DecidableEq α] in
/-- The packet `f` is sent as. -/
def packetOf (f : Frame α) : Segment α :=
  .packet (F.lenSymbol f.payload.length) f.type f.payload
    (F.check (F.lenSymbol f.payload.length) f.type f.payload)

omit [DecidableEq α] in
theorem scanned_packetOf {f : Frame α} (hf : F.Fits f) : F.Scanned (F.packetOf f) := hf.symm

@[simp] theorem frame?_packetOf (f : Frame α) : F.frame? (F.packetOf f) = some f := by
  simp [frame?, packetOf]

theorem next_encode {m : Nat} (hm : m ≤ 4) {f : Frame α} (hf : F.Fits f) (ys : List α) :
    F.next m (F.encode f ++ ys) = some (F.packetOf f, ys) := by
  refine F.next_eq_some.mpr ⟨?_, F.scanned_packetOf hf, rfl⟩
  rw [List.length_append, encode_length]
  omega

/-- Frames sent back to back are read one by one, whatever follows. -/
theorem scan_encodeAll {m : Nat} (hm : m ≤ 4) {fs : List (Frame α)} (hfs : ∀ f ∈ fs, F.Fits f)
    (ys : List α) :
    F.scan m (F.encodeAll fs ++ ys) =
      (fs.map F.packetOf ++ (F.scan m ys).1, (F.scan m ys).2) := by
  induction fs with
  | nil => simp
  | cons f fs ih =>
    have hf : F.Fits f := hfs f (List.mem_cons_self ..)
    rw [encodeAll_cons, List.append_assoc, F.scan_some (F.next_encode hm hf _),
      ih (fun g hg => hfs g (List.mem_cons_of_mem _ hg))]
    simp

@[simp] theorem frames_map_packetOf (fs : List (Frame α)) : F.frames (fs.map F.packetOf) = fs := by
  induction fs with
  | nil => rfl
  | cons f fs ih => simp [frames_cons, ih]

@[simp] theorem rejects_map_packetOf (fs : List (Frame α)) :
    F.rejects (fs.map F.packetOf) = 0 := by
  simp [rejects, packetOf, List.countP_eq_zero]

/-- A reader waits as long as a frame is incomplete. -/
theorem next_of_partial {m : Nat} (hm : m ≤ 4) {f : Frame α} (hf : F.Fits f) {xs ys : List α}
    (hxs : xs ++ ys = F.encode f) (hys : ys ≠ []) : F.next m xs = none := by
  cases h : F.next m xs with
  | none => rfl
  | some p =>
    have h₁ := F.next_append (s := p.1) (r := p.2) h ys
    have h₂ := F.next_encode hm hf []
    rw [List.append_nil, ← hxs, h₁] at h₂
    have h₃ := congrArg Prod.snd (Option.some.inj h₂)
    exact absurd (List.append_eq_nil_iff.mp h₃).2 hys

/-- A reader that waits although it has symbols enough waits at every look-ahead. -/
theorem next_none_of_le {m m' : Nat} {xs : List α} (h : F.next m xs = none) (hm : m ≤ xs.length) :
    F.next m' xs = none := by
  cases h' : F.next m' xs with
  | none => rfl
  | some p =>
    obtain ⟨-, hs, hx⟩ := F.next_eq_some.mp (show F.next m' xs = some (p.1, p.2) from h')
    rw [F.next_eq_some.mpr ⟨hm, hs, hx⟩] at h
    cases h

/-- The look-ahead does not matter where both readers wait. -/
theorem scan_lookahead {m : Nat} {xs : List α} (h : F.next 0 (F.scan m xs).2 = none) :
    F.scan 0 xs = F.scan m xs := by
  induction xs using F.scan_induction (m := m) with
  | wait xs hn =>
    rw [F.scan_none hn] at h ⊢
    exact F.scan_none h
  | take xs s r hn ih =>
    obtain ⟨-, hs, hx⟩ := F.next_eq_some.mp hn
    rw [F.scan_some hn] at h ⊢
    rw [F.scan_some (F.next_eq_some.mpr ⟨Nat.zero_le _, hs, hx⟩), ih h]

/-- **Looking at a few symbols only does not change what is delivered**, because
no frame is that short. -/
theorem frames_scan_lookahead {m : Nat} (hm : m ≤ 4) (xs : List α) :
    F.frames (F.scan m xs).1 = F.frames (F.scan 0 xs).1 := by
  induction xs using F.scan_induction (m := m) with
  | wait xs h =>
    rw [F.scan_none h]
    by_cases hlt : xs.length < m
    · refine (F.frames_eq_nil_of_length_lt ?_).symm
      have hb := congrArg List.length (F.scan_bytes 0 xs)
      rw [List.length_append] at hb
      omega
    · rw [F.scan_none (F.next_none_of_le h (by omega))]
  | take xs s r h ih =>
    obtain ⟨-, hs, hx⟩ := F.next_eq_some.mp h
    rw [F.scan_some h, F.scan_some (F.next_eq_some.mpr ⟨Nat.zero_le _, hs, hx⟩), frames_cons,
      frames_cons, ih]

/-! ## Where the delivered frames lie in the stream -/

omit [DecidableEq α] in
/-- Frames with their offsets in a stream: each one is there in full, each ends
before the next begins. -/
def Located (stream : List α) (placed : List (Nat × Frame α)) : Prop :=
  (∀ q ∈ placed, F.encode q.2 <+: stream.drop q.1) ∧
    placed.Pairwise (fun q r => q.1 + (F.encode q.2).length ≤ r.1)

/-- The delivered frames with their offsets, the first segment being at `off`. -/
def place : Nat → List (Segment α) → List (Nat × Frame α)
  | _, [] => []
  | off, s :: segs =>
    (F.frame? s).toList.map (fun f => (off, f)) ++ place (off + (F.bytes s).length) segs

theorem place_frames (off : Nat) (segs : List (Segment α)) :
    (F.place off segs).map Prod.snd = F.frames segs := by
  induction segs generalizing off with
  | nil => rfl
  | cons s segs ih =>
    rw [place, List.map_append, ih, frames_cons]
    cases F.frame? s <;> rfl

theorem le_of_mem_place {off : Nat} {segs : List (Segment α)} {q : Nat × Frame α}
    (hq : q ∈ F.place off segs) : off ≤ q.1 := by
  induction segs generalizing off with
  | nil => cases hq
  | cons s segs ih =>
    rcases List.mem_append.mp hq with hq | hq
    · obtain ⟨f, -, rfl⟩ := List.mem_map.mp hq
      exact Nat.le_refl _
    · exact Nat.le_trans (Nat.le_add_right ..) (ih hq)

/-- A packet is delivered if its check symbol is right. -/
theorem frame?_packet_eq_some {l t c : α} {p : List α} {f : Frame α}
    (hf : F.frame? (.packet l t p c) = some f) : F.check l t p = c ∧ f = ⟨t, p⟩ := by
  rw [frame?] at hf
  split at hf
  · exact ⟨‹_›, (Option.some.inj hf).symm⟩
  · cases hf

/-- A delivered frame is the encoding of its segment, when a length symbol is
determined by the length it announces. -/
theorem encode_of_frame? (hsym : ∀ l, F.lenSymbol (F.len l) = l) {s : Segment α} {f : Frame α}
    (hf : F.frame? s = some f) (hlen : ∀ l t p c, s = .packet l t p c → p.length = F.len l) :
    F.encode f = F.bytes s := by
  cases s with
  | packet l t p c =>
    obtain ⟨hc, rfl⟩ := F.frame?_packet_eq_some hf
    have hl : F.lenSymbol p.length = l := by rw [hlen l t p c rfl, hsym]
    simp [encode, bytes, hl, hc]
  | junk b => cases hf
  | lost bs => cases hf

/-- **Every delivered frame is a contiguous piece of the stream, and the pieces
are disjoint and in order**, whatever was skipped or lost in between. -/
theorem located_place (hsym : ∀ l, F.lenSymbol (F.len l) = l) {segs : List (Segment α)}
    (hlen : ∀ l t p c, .packet l t p c ∈ segs → p.length = F.len l) (pre tail : List α) :
    F.Located (pre ++ (segs.flatMap F.bytes ++ tail)) (F.place pre.length segs) := by
  induction segs generalizing pre with
  | nil => exact ⟨List.forall_mem_nil _, List.Pairwise.nil⟩
  | cons s segs ih =>
    have hlen' : ∀ l t p c, s = .packet l t p c → p.length = F.len l := by
      rintro l t p c rfl
      exact hlen l t p c (List.mem_cons_self ..)
    obtain ⟨hin, hord⟩ := ih (fun l t p c h => hlen l t p c (List.mem_cons_of_mem _ h))
      (pre ++ F.bytes s)
    simp only [List.length_append, List.append_assoc] at hin hord
    simp only [List.flatMap_cons, List.append_assoc]
    constructor
    · intro q hq
      rcases List.mem_append.mp hq with hq | hq
      · obtain ⟨f, hf, rfl⟩ := List.mem_map.mp hq
        rw [List.drop_left, F.encode_of_frame? hsym (Option.mem_toList.mp hf) hlen']
        exact List.prefix_append ..
      · exact hin q hq
    · refine List.pairwise_append.mpr ⟨?_, hord, ?_⟩
      · cases F.frame? s <;> simp
      · intro q hq r hr
        obtain ⟨f, hf, rfl⟩ := List.mem_map.mp hq
        rw [F.encode_of_frame? hsym (Option.mem_toList.mp hf) hlen']
        exact F.le_of_mem_place hr

omit [DecidableEq α] in
/-- The frames are all in the stream, one behind the other. -/
def Found (stream : List α) (delivered : List (Frame α)) : Prop :=
  (∀ f ∈ delivered, F.Fits f) ∧
    ∃ placed, placed.map Prod.snd = delivered ∧ F.Located stream placed

/-- Frames read off a stream are found there. -/
theorem found_frames (hsym : ∀ l, F.lenSymbol (F.len l) = l) {segs : List (Segment α)}
    (hlen : ∀ l t p c, .packet l t p c ∈ segs → p.length = F.len l) (tail : List α) :
    F.Found (segs.flatMap F.bytes ++ tail) (F.frames segs) := by
  refine ⟨?_, F.place 0 segs, F.place_frames 0 segs, F.located_place hsym hlen [] tail⟩
  intro f hf
  obtain ⟨s, hs, hf⟩ := List.mem_filterMap.mp hf
  cases s with
  | packet l t p c =>
    obtain ⟨-, rfl⟩ := F.frame?_packet_eq_some hf
    have hp := hlen l t p c hs
    rw [Fits, hp, hsym]
  | junk b => cases hf
  | lost bs => cases hf

end FrameFormat
end KartStack
