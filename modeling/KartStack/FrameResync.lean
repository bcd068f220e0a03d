import KartStack.FrameScan

/-! # How many frames a reader loses before it is in step again

A reader that meets a start symbol inside garbage, or inside the body of a frame,
swallows whatever the next symbol announces, and with it the beginnings of good
frames.  This module bounds the loss for any reading of `garbage ++ frames` into
segments — packets with the wrong check symbol and discarded buffers included.

Call a frame *hazardous* if the reader can start inside it or give it up half
way: it has a start symbol behind its first one, or it announces a length at
which the reader discards an incomplete packet.  A single false start costs at
most `reach` frames, and only garbage and hazardous frames can begin one
(`exists_kept`).
-/
namespace KartStack

/-- All but at most `n` of what was sent is delivered, in order; other things may
be delivered in between. -/
def AllBut {β : Type} (n : Nat) (sent delivered : List β) : Prop :=
  ∃ kept : List β, kept.Sublist sent ∧ kept.Sublist delivered ∧ sent.length ≤ kept.length + n

theorem AllBut.mono {β : Type} {n n' : Nat} {sent delivered delivered' : List β}
    (h : AllBut n sent delivered) (hn : n ≤ n') (hd : delivered.Sublist delivered') :
    AllBut n' sent delivered' := by
  obtain ⟨kept, h₁, h₂, hle⟩ := h
  exact ⟨kept, h₁, h₂.trans hd, by omega⟩

namespace FrameFormat
variable {α : Type} [DecidableEq α] (F : FrameFormat α)

/-- The frames a packet can touch when it does not begin with one, if no length
symbol announces more than `c` symbols. -/
def reach (c : Nat) : Nat := (c + 6) / 4

/-- A discarded buffer: a packet still incomplete, announcing a length that only
hazardous frames have. -/
def Stall (haz : Frame α → Bool) (bs : List α) : Prop :=
  ∃ l rest, bs = F.sof :: l :: rest ∧ rest.length < F.len l + 2 ∧
    ∀ f, F.Fits f → F.lenSymbol f.payload.length = l → haz f = true

/-- A reading of the stream: packets, junk, and stalled packets thrown away. -/
def Reading (haz : Frame α → Bool) (segs : List (Segment α)) : Prop :=
  ∀ s ∈ segs, F.Scanned s ∨ ∃ bs, s = .lost bs ∧ F.Stall haz bs

/-- The frames that can be lost when the reader stands before `t` and then the
frames `fs`. -/
def lossBound (c : Nat) (haz : Frame α → Bool) (t : List α) (fs : List (Frame α)) : Nat :=
  (if F.sof ∈ t then reach c else 0) + (reach c + 1) * fs.countP haz

variable {F} {c : Nat} {haz : Frame α → Bool}

theorem lossBound_mono {t t' : List α} (fs : List (Frame α)) (h : F.sof ∈ t' → F.sof ∈ t) :
    F.lossBound c haz t' fs ≤ F.lossBound c haz t fs := by
  unfold lossBound
  by_cases ht' : F.sof ∈ t'
  · simp [ht', h ht']
  · simp [ht']

omit [DecidableEq α] in
/-- Cutting a run of frames anywhere leaves the rest of one frame and whole
frames behind it. -/
theorem exists_cut (haz : Frame α → Bool)
    (hhaz : ∀ f, haz f = false → F.sof ∉ (F.encode f).tail) :
    ∀ (fs : List (Frame α)) (ov rest : List α), F.encodeAll fs = ov ++ rest →
      ∃ k t, k ≤ fs.length ∧ rest = t ++ F.encodeAll (fs.drop k) ∧ 4 * k ≤ ov.length + 3 ∧
        (F.sof ∈ t → (fs.drop k).countP haz + 1 ≤ fs.countP haz)
  | [], ov, rest, h => by
    obtain ⟨rfl, rfl⟩ := List.append_eq_nil_iff.mp h.symm
    exact ⟨0, [], Nat.le_refl _, rfl, by simp, by simp⟩
  | f :: fs, ov, rest, h => by
    rw [encodeAll_cons] at h
    by_cases hnil : ov = []
    · subst hnil
      exact ⟨0, [], Nat.zero_le _, by simpa using h.symm, by simp, by simp⟩
    rcases List.append_eq_append_iff.mp h with ⟨ov', rfl, h'⟩ | ⟨t, hf, rfl⟩
    · obtain ⟨k, t, hk, rfl, h4, hcount⟩ := exists_cut haz hhaz fs ov' rest h'
      refine ⟨k + 1, t, by simpa using hk, rfl, ?_, fun ht => ?_⟩
      · rw [List.length_append, encode_length]
        omega
      · have := hcount ht
        rw [List.drop_succ_cons, List.countP_cons]
        omega
    · refine ⟨1, t, by simp, rfl, ?_, fun ht => ?_⟩
      · have := List.length_pos_iff.mpr hnil
        omega
      · have hmem : F.sof ∈ (F.encode f).tail := by
          obtain ⟨b, ov, rfl⟩ := List.exists_cons_of_ne_nil hnil
          rw [hf]
          exact List.mem_append_right _ ht
        have hh : haz f = true := by
          by_contra hn
          exact hhaz f (by simpa using hn) hmem
        simp [hh]

omit [DecidableEq α] in
/-- The symbols of a segment that is not junk: a start symbol, and at most what
its length symbol announces. -/
theorem bytes_of_start (hc : ∀ l, F.len l ≤ c) {s : Segment α}
    (hs : (∃ l t p ch, s = .packet l t p ch ∧ p.length = F.len l) ∨
      ∃ bs, s = .lost bs ∧ F.Stall haz bs) :
    ∃ w, F.bytes s = F.sof :: w ∧ w.length ≤ c + 3 := by
  rcases hs with ⟨l, t, p, ch, rfl, hp⟩ | ⟨bs, rfl, l, rest, rfl, hrest, -⟩
  · refine ⟨_, rfl, ?_⟩
    have := hc l
    simp only [List.length_cons, List.length_append, List.length_nil]
    omega
  · refine ⟨_, rfl, ?_⟩
    have := hc l
    simp only [List.length_cons]
    omega

/-- A false start swallows at most `reach` frames; when it ends inside another
frame, that frame is hazardous and pays for the next false start. -/
theorem loss_of_cut {t : List α} {fs : List (Frame α)} {k n : Nat} (hk : 4 * k ≤ c + 6)
    (hcount : F.sof ∈ t → (fs.drop k).countP haz + 1 ≤ fs.countP haz)
    (hle : (fs.drop k).length ≤ n + F.lossBound c haz t (fs.drop k)) :
    fs.length ≤ n + (reach c + (reach c + 1) * fs.countP haz) := by
  have hk' : k ≤ reach c := by unfold reach; omega
  rw [List.length_drop] at hle
  rw [lossBound] at hle
  by_cases ht : F.sof ∈ t
  · have hmul := Nat.mul_le_mul_left (reach c + 1) (hcount ht)
    rw [Nat.mul_succ] at hmul
    rw [if_pos ht] at hle
    omega
  · have hdrop : (fs.drop k).countP haz ≤ fs.countP haz := (List.drop_sublist k fs).countP_le
    have hmul := Nat.mul_le_mul_left (reach c + 1) hdrop
    rw [if_neg ht] at hle
    omega

/-- Frames still in the residue: none, unless a false start is holding them. -/
theorem loss_of_residue (hc : ∀ l, F.len l ≤ c) {m : Nat} (hm : m ≤ 4) {t : List α}
    {fs : List (Frame α)} (hfit : ∀ f ∈ fs, F.Fits f)
    (hres : F.next m (t ++ F.encodeAll fs) = none) : fs.length ≤ F.lossBound c haz t fs := by
  have h4 := F.four_mul_length_le fs
  have hshort : (t ++ F.encodeAll fs).length < 4 → fs.length ≤ F.lossBound c haz t fs := by
    intro hlt
    rw [List.length_append] at hlt
    omega
  cases t with
  | nil =>
    cases fs with
    | nil => exact Nat.zero_le _
    | cons f fs =>
      rw [List.nil_append, encodeAll_cons,
        F.next_encode hm (hfit f (List.mem_cons_self ..))] at hres
      cases hres
  | cons b t =>
    rcases F.next_eq_none hres with hlt | hnil | hsof | ⟨l, rest, hxs, hrest⟩
    · exact hshort (by omega)
    · cases hnil
    · exact hshort (by rw [hsof]; simp)
    · have hb : b = F.sof := (List.cons.inj hxs).1
      have hlen := congrArg List.length hxs
      have := hc l
      simp only [List.cons_append, List.length_cons, List.length_append] at hlen
      unfold lossBound reach
      rw [if_pos (by simp [hb])]
      omega

/-- A false start is bounded, wherever the stream stands. -/
theorem kept_of_false_start (hhaz : ∀ f, haz f = false → F.sof ∉ (F.encode f).tail)
    {w t rest : List α} {fs : List (Frame α)} {segs : List (Segment α)} (hw : w.length ≤ c + 3)
    (hst : F.sof :: t ++ F.encodeAll fs = F.sof :: w ++ rest)
    (ih : ∀ t' fs', fs' <:+ fs → t' ++ F.encodeAll fs' = rest →
      AllBut (F.lossBound c haz t' fs') fs' (F.frames segs)) :
    AllBut (F.lossBound c haz (F.sof :: t) fs) fs (F.frames segs) := by
  rw [List.cons_append, List.cons_append] at hst
  have hst' := (List.cons.inj hst).2
  rcases List.append_eq_append_iff.mp hst' with ⟨ov, hov, hcut⟩ | ⟨t', rfl, hrest⟩
  · obtain ⟨k, t', -, hrest, h4, hcount⟩ := exists_cut haz hhaz fs ov rest hcut
    obtain ⟨kept, hk₁, hk₂, hle⟩ := ih t' (fs.drop k) (List.drop_suffix k fs) hrest.symm
    refine ⟨kept, hk₁.trans (List.drop_sublist k fs), hk₂, ?_⟩
    have hovlen : ov.length ≤ c + 3 := by
      rw [hov, List.length_append] at hw
      omega
    rw [lossBound]
    rw [if_pos (List.mem_cons_self ..)]
    exact loss_of_cut (by omega) hcount hle
  · obtain ⟨kept, hk₁, hk₂, hle⟩ := ih t' fs (List.suffix_refl fs) hrest.symm
    exact ⟨kept, hk₁, hk₂, Nat.le_trans hle
      (Nat.add_le_add_left (lossBound_mono fs (fun _ => List.mem_cons_self ..)) _)⟩

/-- A reader in step takes the next frame off whole, or stalls in a hazardous
one. -/
theorem kept_of_aligned {s : Segment α} {segs : List (Segment α)} {f : Frame α}
    {fs : List (Frame α)} {rest : List α}
    (hf : F.Fits f) (hs : F.Scanned s ∨ ∃ bs, s = .lost bs ∧ F.Stall haz bs)
    (hst : F.encode f ++ F.encodeAll fs = F.bytes s ++ rest)
    (ih : ∀ t', t' ++ F.encodeAll fs = rest →
      AllBut (F.lossBound c haz t' fs) fs (F.frames segs)) :
    AllBut (F.lossBound c haz [] (f :: fs)) (f :: fs) (F.frames (s :: segs)) := by
  rcases hs with hs | ⟨bs, rfl, l, r, rfl, hr, hstall⟩
  · have h₁ := F.next_encode (Nat.zero_le 4) hf (F.encodeAll fs)
    rw [hst, F.next_eq_some.mpr ⟨Nat.zero_le _, hs, rfl⟩] at h₁
    obtain ⟨rfl, hrest⟩ := Prod.mk.inj (Option.some.inj h₁)
    obtain ⟨kept, hk₁, hk₂, hle⟩ := ih [] hrest.symm
    refine ⟨f :: kept, hk₁.cons_cons f, ?_, ?_⟩
    · rw [frames_cons, frame?_packetOf]
      exact hk₂.cons_cons f
    · have hcount : fs.countP haz ≤ (f :: fs).countP haz := (List.sublist_cons_self f fs).countP_le
      have hmul := Nat.mul_le_mul_left (reach c + 1) hcount
      rw [lossBound] at hle ⊢
      simp only [List.not_mem_nil, if_false, List.length_cons] at hle ⊢
      omega
  · -- the stalled packet began with `f`, so `f` is hazardous and only its own
    -- rest and the following frames are left
    have hl : F.lenSymbol f.payload.length = l :=
      (List.cons.inj (List.cons.inj hst).2).1
    have hh : haz f = true := hstall f hf hl
    have hlen : (F.bytes (.lost (F.sof :: l :: r))).length ≤ (F.encode f).length := by
      rw [encode_length, ← hf, hl]
      simp only [bytes, List.length_cons]
      omega
    obtain ⟨t', -, hrest⟩ : ∃ t', F.encode f = F.bytes (.lost (F.sof :: l :: r)) ++ t' ∧
        rest = t' ++ F.encodeAll fs := by
      rcases List.append_eq_append_iff.mp hst with ⟨a, ha, hb⟩ | h
      · have ha' : a = [] := by
          rw [ha, List.length_append] at hlen
          exact List.length_eq_zero_iff.mp (by omega)
        subst ha'
        exact ⟨[], by simpa using ha.symm, by simpa using hb.symm⟩
      · exact h
    obtain ⟨kept, hk₁, hk₂, hle⟩ := ih t' hrest.symm
    refine ⟨kept, hk₁.cons f, by simpa [frames_cons, frame?] using hk₂, ?_⟩
    have hbound : F.lossBound c haz t' fs + 1 ≤ F.lossBound c haz [] (f :: fs) := by
      unfold lossBound
      rw [List.countP_cons, if_pos hh, Nat.mul_succ]
      by_cases ht : F.sof ∈ t'
      · simp only [if_pos ht, List.not_mem_nil, if_false]
        omega
      · simp only [if_neg ht, List.not_mem_nil, if_false]
        omega
    rw [List.length_cons]
    omega

/-- **The loss bound.**  However `t ++ frames` was read — as packets, junk and
stalled packets, with a residue the reader is still waiting on — all the frames
but `lossBound` of them are delivered, in order. -/
theorem exists_kept (hc : ∀ l, F.len l ≤ c)
    (hhaz : ∀ f, haz f = false → F.sof ∉ (F.encode f).tail) {m : Nat} (hm : m ≤ 4)
    {residue : List α} (hres : F.next m residue = none) :
    ∀ (segs : List (Segment α)), F.Reading haz segs → ∀ (t : List α) (fs : List (Frame α)),
      (∀ f ∈ fs, F.Fits f) → t ++ F.encodeAll fs = segs.flatMap F.bytes ++ residue →
      AllBut (F.lossBound c haz t fs) fs (F.frames segs)
  | [], _, t, fs, hfit, hst => by
    refine ⟨[], List.nil_sublist _, List.nil_sublist _, ?_⟩
    rw [List.length_nil, Nat.zero_add]
    apply loss_of_residue hc hm hfit
    rw [hst]
    exact hres
  | s :: segs, hread, t, fs, hfit, hst => by
    have hread' : F.Reading haz segs := fun u hu => hread u (List.mem_cons_of_mem _ hu)
    have ih := exists_kept hc hhaz hm hres segs hread'
    have hs := hread s (List.mem_cons_self ..)
    rw [List.flatMap_cons, List.append_assoc] at hst
    have hmono : (F.frames segs).Sublist (F.frames (s :: segs)) := by
      rw [frames_cons]
      exact List.sublist_append_right ..
    cases t with
    | nil =>
      cases fs with
      | nil => exact ⟨[], List.Sublist.refl _, List.nil_sublist _, Nat.zero_le _⟩
      | cons f fs =>
        exact kept_of_aligned (hfit f (List.mem_cons_self ..)) hs hst
          (fun t' h => ih t' fs (fun g hg => hfit g (List.mem_cons_of_mem _ hg)) h)
    | cons b t =>
      by_cases hstart : (∃ l ty p ch, s = .packet l ty p ch ∧ p.length = F.len l) ∨
          ∃ bs, s = .lost bs ∧ F.Stall haz bs
      · obtain ⟨w, hw, hwlen⟩ := bytes_of_start hc hstart
        rw [hw] at hst
        obtain rfl : b = F.sof := (List.cons.inj hst).1
        exact (kept_of_false_start hhaz hwlen hst
          (fun t' fs' hsuf h => ih t' fs' (fun g hg => hfit g (hsuf.subset hg)) h)).mono
          (Nat.le_refl _) hmono
      · obtain ⟨d, rfl⟩ : ∃ d, s = .junk d := by
          cases s with
          | junk d => exact ⟨d, rfl⟩
          | packet l ty p ch =>
            rcases hs with hs | ⟨bs, h, -⟩
            · exact absurd (Or.inl ⟨l, ty, p, ch, rfl, hs⟩) hstart
            · cases h
          | lost bs =>
            rcases hs with hs | h
            · exact hs.elim
            · exact absurd (Or.inr h) hstart
        have hst' : t ++ F.encodeAll fs = segs.flatMap F.bytes ++ residue := (List.cons.inj hst).2
        exact (ih t fs hfit hst').mono
          (lossBound_mono fs (fun h => List.mem_cons_of_mem _ h)) hmono

end FrameFormat
end KartStack
