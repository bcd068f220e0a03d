import KartStack.WebSocketSync

/-! # What the dashboard sends, read back

`ws_send` writes unmasked frames.  Read with the decoding of `handle_ws`, each of
them gives its opcode and its data and leaves the reader at the next header
(`passes_wsSend`), so a sequence of frames is read back as it was written, and
nothing is left over.  A close frame would end the loop, and a ping is not read to
its end.
-/
namespace KartStack.KbDashboard

/-- Where the loop of `handle_ws` is when the stream is used up: the wait it is in and the
bytes that are not enough for it; `none` if it was left before. -/
def ending (w : Wait) (stream : List UInt8) : Option (Wait × List UInt8) :=
  if _hsize : w.size ≤ stream.length then
    match _hr : resume w (stream.take w.size) with
    | (none, _) => none
    | (some w', _) => ending w' (stream.drop w.size)
  else some (w, stream)
termination_by (stream.length, w.rank)
decreasing_by exact Wait.resume_lt _hsize _hr

theorem ending_more {w w' : Wait} {bytes : List UInt8} (hsize : bytes.length = w.size)
    {e : Option Event} (h : resume w bytes = (some w', e)) (rest : List UInt8) :
    ending w (bytes ++ rest) = ending w' rest := by
  rw [ending, dif_pos (by rw [List.length_append]; omega), ← hsize, List.take_left, List.drop_left]
  split <;> rename_i heq <;> rw [h] at heq <;> cases heq
  rfl

theorem ending_stuck {w : Wait} {stream : List UInt8} (h : stream.length < w.size) :
    ending w stream = some (w, stream) := by
  rw [ending, dif_neg (by omega)]

/-! ## Bytes that are read to their end -/

/-- From `w`, exactly these bytes are read, with these events, and then the loop waits
in `w'`, whatever follows. -/
def Passes (w : Wait) (bytes : List UInt8) (events : List Event) (w' : Wait) : Prop :=
  ∀ rest, loop w (bytes ++ rest) = events ++ loop w' rest ∧
    ending w (bytes ++ rest) = ending w' rest

theorem Passes.refl (w : Wait) : Passes w [] [] w := fun _ => ⟨rfl, rfl⟩

theorem Passes.trans {w w₁ w₂ : Wait} {bytes bytes' : List UInt8} {events events' : List Event}
    (h : Passes w bytes events w₁) (h' : Passes w₁ bytes' events' w₂) :
    Passes w (bytes ++ bytes') (events ++ events') w₂ := by
  intro rest
  obtain ⟨hloop, hend⟩ := h (bytes' ++ rest)
  obtain ⟨hloop', hend'⟩ := h' rest
  rw [List.append_assoc, hloop, hend, hloop', hend', List.append_assoc]
  exact ⟨rfl, rfl⟩

/-- One `readexactly`. -/
theorem passes_of_resume {w w' : Wait} {bytes : List UInt8} {e : Option Event}
    (hsize : bytes.length = w.size) (h : resume w bytes = (some w', e)) :
    Passes w bytes e.toList w' :=
  fun rest => ⟨loop_more hsize h rest, ending_more hsize h rest⟩

/-- A sequence of frames. -/
theorem passes_flatMap {α : Type} {bytes : α → List UInt8} {event : α → Event} {xs : List α}
    (h : ∀ x ∈ xs, Passes .header (bytes x) [event x] .header) :
    Passes .header (xs.flatMap bytes) (xs.map event) .header := by
  induction xs with
  | nil => exact Passes.refl _
  | cons x xs ih =>
    obtain ⟨hx, hxs⟩ := List.forall_mem_cons.mp h
    rw [List.flatMap_cons, List.map_cons]
    exact hx.trans (ih hxs)

/-! ## One frame -/

/-- A frame of the server with its length in a given form. -/
def serverFrame (form : LengthForm) (data : List UInt8) (opcode : UInt8) : List UInt8 :=
  [0x80 ||| opcode, UInt8.ofNat (form.field data.length)] ++ form.extension data.length ++ data

/-- The form `ws_send` chooses. -/
def LengthForm.shortest (n : Nat) : LengthForm :=
  if n < 126 then .short else if n < 65536 then .medium else .long

theorem wsSend_eq (data : List UInt8) (opcode : UInt8) :
    wsSend data opcode = serverFrame (.shortest data.length) data opcode := by
  unfold wsSend serverFrame LengthForm.shortest
  by_cases hshort : data.length < 126
  · simp [hshort, LengthForm.field, LengthForm.extension]
  · by_cases hmedium : data.length < 65536 <;>
      simp [hshort, hmedium, LengthForm.field, LengthForm.extension]

theorem LengthForm.lt_bound_shortest {n : Nat} (h : n < 2 ^ 63) : n < (shortest n).bound := by
  unfold shortest
  split
  · assumption
  · split
    · assumption
    · exact h

/-- No other form in which the length fits is as short. -/
theorem LengthForm.shortest_lt {form : LengthForm} {n : Nat} (hfits : n < form.bound)
    (hne : form ≠ .shortest n) :
    ((shortest n).extension n).length < (form.extension n).length := by
  unfold shortest at hne ⊢
  rcases form with _ | _ | _
  · have : n < 126 := hfits
    simp [this] at hne
  · have : n < 65536 := hfits
    by_cases hshort : n < 126
    · simp [hshort, extension]
    · simp [hshort, this] at hne
  · by_cases hshort : n < 126
    · simp [hshort, extension]
    · by_cases hmedium : n < 65536
      · simp [hshort, hmedium, extension]
      · simp [hshort, hmedium] at hne

theorem opcode_and_low : ∀ opcode : Fin 16,
    (0x80 ||| UInt8.ofNat opcode) &&& 0x0F = UInt8.ofNat opcode := by
  decide

/-- Without the mask bit the second byte is the length. -/
theorem field_and_low : ∀ n : Fin 128, UInt8.ofNat n &&& 0x80 = 0 ∧
    (UInt8.ofNat n &&& 0x7F).toNat = n := by
  decide +kernel

/-- What `handle_ws` reads after a header without the mask bit. -/
def LengthForm.afterUnmasked (opcode : UInt8) : LengthForm → Nat → Wait
  | .short, n => .data opcode n
  | .medium, _ => .length16 opcode false
  | .long, _ => .length64 opcode false

/-- The header. -/
theorem resume_serverHeader {form : LengthForm} {n : Nat} (hfits : n < form.bound) {opcode : UInt8}
    (hop : opcode.toNat < 16) (hclose : opcode ≠ 0x8) (hping : opcode ≠ 0x9) :
    resume .header [0x80 ||| opcode, UInt8.ofNat (form.field n)] =
      (some (form.afterUnmasked opcode n), none) := by
  have hand : (0x80 ||| opcode) &&& 0x0F = opcode := by
    have := opcode_and_low ⟨opcode.toNat, hop⟩
    rwa [UInt8.ofNat_toNat] at this
  have hfield := field_and_low ⟨_, LengthForm.field_lt hfits⟩
  simp only [resume, List.getD_cons_zero, List.getD_cons_succ, hand, if_neg hclose, if_neg hping,
    hfield.1, hfield.2, Wait.payload, ne_eq, not_true_eq_false, decide_false,
    Bool.false_eq_true, if_false]
  rcases form with _ | _ | _
  · have hlt : n < 126 := hfits
    have h126 : LengthForm.short.field n ≠ 126 := Nat.ne_of_lt hlt
    have h127 : LengthForm.short.field n ≠ 127 := Nat.ne_of_lt (Nat.lt_succ_of_lt hlt)
    rw [if_neg h126, if_neg h127]
    rfl
  · rfl
  · rfl

/-- The extended length, where there is one. -/
theorem passes_extension {form : LengthForm} {n : Nat} (hfits : n < form.bound) (opcode : UInt8) :
    Passes (form.afterUnmasked opcode n) (form.extension n) [] (.data opcode n) := by
  rcases form with _ | _ | _
  · exact Passes.refl _
  · have hread : resume (.length16 opcode false) (toBytes 2 n) = (some (.data opcode n), none) := by
      rw [resume, fromBytes_toBytes (Nat.lt_of_lt_of_le hfits (by decide))]
      rfl
    exact passes_of_resume (w := .length16 opcode false) (length_toBytes 2 n) hread
  · have hread : resume (.length64 opcode false) (toBytes 8 n) = (some (.data opcode n), none) := by
      rw [resume, fromBytes_toBytes (Nat.lt_of_lt_of_le hfits (by decide))]
      rfl
    exact passes_of_resume (w := .length64 opcode false) (length_toBytes 8 n) hread

/-- **A frame is read back**: its opcode, its data, and then the next header is awaited. -/
theorem passes_serverFrame {form : LengthForm} {data : List UInt8}
    (hfits : data.length < form.bound) {opcode : UInt8} (hop : opcode.toNat < 16)
    (hclose : opcode ≠ 0x8) (hping : opcode ≠ 0x9) :
    Passes .header (serverFrame form data opcode) [.frame opcode data] .header := by
  have hheader := passes_of_resume rfl (resume_serverHeader hfits hop hclose hping)
  have hdata : Passes (.data opcode data.length) data [.frame opcode data] .header :=
    passes_of_resume (e := some (.frame opcode data)) rfl rfl
  exact (hheader.trans (passes_extension hfits opcode)).trans hdata

/-- **What is sent is read back**, frame by frame and to the last byte, and every frame
has the shortest form of its length. -/
theorem wsSend_roundTrip (sent : List (UInt8 × List UInt8))
    (h : ∀ frame ∈ sent, frame.1.toNat < 16 ∧ frame.1 ≠ 0x8 ∧ frame.1 ≠ 0x9 ∧
      frame.2.length < 2 ^ 63) :
    loop .header (sent.flatMap fun frame => wsSend frame.2 frame.1) =
        sent.map (fun frame => .frame frame.1 frame.2) ∧
      ending .header (sent.flatMap fun frame => wsSend frame.2 frame.1) = some (.header, []) ∧
      ∀ frame ∈ sent, ∃ form : LengthForm, frame.2.length < form.bound ∧
        wsSend frame.2 frame.1 = serverFrame form frame.2 frame.1 ∧
        ∀ other : LengthForm, frame.2.length < other.bound → other ≠ form →
          (serverFrame form frame.2 frame.1).length <
            (serverFrame other frame.2 frame.1).length := by
  have hpasses : Passes .header (sent.flatMap fun frame => wsSend frame.2 frame.1)
      (sent.map fun frame => .frame frame.1 frame.2) .header := by
    refine passes_flatMap fun frame hframe => ?_
    obtain ⟨hop, hclose, hping, hlen⟩ := h frame hframe
    rw [wsSend_eq]
    exact passes_serverFrame (LengthForm.lt_bound_shortest hlen) hop hclose hping
  obtain ⟨hloop, hend⟩ := hpasses []
  have hempty : ([] : List UInt8).length < Wait.header.size := Nat.zero_lt_two
  rw [List.append_nil, loop_stuck hempty, List.append_nil] at hloop
  rw [List.append_nil, ending_stuck hempty] at hend
  refine ⟨hloop, hend, fun frame hframe => ?_⟩
  obtain ⟨-, -, -, hlen⟩ := h frame hframe
  refine ⟨.shortest frame.2.length, LengthForm.lt_bound_shortest hlen, wsSend_eq .., ?_⟩
  intro other hfits hne
  have := LengthForm.shortest_lt hfits hne
  simp only [serverFrame, List.length_append, List.length_cons, List.length_nil]
  omega

/-- A text frame and a pong. -/
theorem wsSend_roundTrip_two :
    loop .header (wsSend [0x7B, 0x7D] 0x1 ++ wsSend [] 0xA) =
      [.frame 0x1 [0x7B, 0x7D], .frame 0xA []] :=
  (wsSend_roundTrip [(0x1, [0x7B, 0x7D]), (0xA, [])] (by decide)).1

end KartStack.KbDashboard
