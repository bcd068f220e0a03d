import KartStack.MicroSend
import Mathlib.Algebra.BigOperators.Group.List.Basic
import Mathlib.Algebra.Order.Ring.Int

/-! # What the sender's result says

`uart_write_bytes` takes any part of what it is offered, or answers -1 and takes
nothing.  `KM_COMS_SendMsg` adds that answer to its unsigned total, so -1 steps
back over a byte that was sent: the byte goes out again, and at the start of the
frame the total wraps and the loop ends with nothing sent and the result 1.  And
it compares what was taken with `len - total_sent`, four bytes less than what is
left and unsigned: a write that gets past `len` counts as an attempt, so the one
that completes the frame can be the fifth and the result 0.

The bytes accepted in a call are identified by their places in the frame
(`acceptedPlaces`).
-/
namespace KartStack.KmComs

/-- The places in the frame of the bytes accepted from `total` on, when the writes
answer `rs`. -/
def acceptedPlaces : Nat → List Int → List Nat
  | _, [] => []
  | total, r :: rs => List.range' total r.toNat ++ acceptedPlaces (total + r).toNat rs

/-- A write after which more than `len` bytes are sent, or that took less than the
rest up to `len`. -/
def CountsAsFull (len total : Nat) (r : Int) : Prop :=
  0 ≤ r ∧ (len < total + r ∨ r < len - (total + r))

instance (len total : Nat) (r : Int) : Decidable (CountsAsFull len total r) :=
  inferInstanceAs (Decidable (_ ∧ (_ ∨ _)))

/-- How many of the writes count as attempts. -/
def fullWrites (len : Nat) : Nat → List Int → Nat
  | _, [] => 0
  | total, r :: rs =>
    (if CountsAsFull len total r then 1 else 0) + fullWrites len (total + r).toNat rs

/-- The answers of all writes of a call, from a state of the loop on. -/
def Answers (frame : List UInt8) (len : UInt8) : SendState → List Int → Prop
  | st, [] => sending len st = false
  | st, r :: rs =>
    sending len st = true ∧ -1 ≤ r ∧ r ≤ requested len st ∧
      Answers frame len (sendStep frame len st r) rs

instance decAnswers (frame : List UInt8) (len : UInt8) :
    ∀ (st : SendState) (rs : List Int), Decidable (Answers frame len st rs)
  | st, [] => inferInstanceAs (Decidable (sending len st = false))
  | st, r :: rs =>
    have := decAnswers frame len (sendStep frame len st r) rs
    inferInstanceAs (Decidable (_ ∧ _ ∧ _ ∧ _))

/-! ## The loop -/

/-- The loop takes the answers one by one. -/
theorem sendLoop_answers (uart : Nat → Nat → Int) {frame : List UInt8} {len : UInt8}
    {rs : List Int} {st : SendState} (hrs : Answers frame len st rs) (k : Nat)
    (hk : ∀ i n, uart (k + i) n = rs.getD i 0) :
    sendLoop uart frame len (rs.length + 1) k st = some (rs.foldl (sendStep frame len) st) := by
  induction rs generalizing st k with
  | nil =>
    rw [List.length_nil, sendLoop, if_neg (by simpa [Answers] using hrs), List.foldl_nil]
  | cons r rs ih =>
    obtain ⟨hsend, -, -, hrest⟩ := hrs
    have hr : uart k (requested len st) = r := hk 0 _
    rw [List.length_cons, sendLoop, if_pos hsend, hr, List.foldl_cons]
    refine ih hrest (k + 1) fun i n => ?_
    rw [Nat.add_right_comm, Nat.add_assoc, hk, List.getD_cons_succ]

/-- The loop runs between the ends of the frame. -/
theorem sending_iff {len : UInt8} {st : SendState} :
    sending len st = true ↔ st.totalSent < len.toNat + 4 ∧ st.attempts < 5 := by
  simp [sending]

theorem requested_eq {len : UInt8} {st : SendState} (h : st.totalSent < len.toNat + 4) :
    requested len st = len.toNat + 4 - st.totalSent := by
  have := len.toNat_lt
  rw [requested, u32]
  omega

/-- A stretch of a frame, by places. -/
theorem drop_take_eq_map (frame : List UInt8) {total n : Nat} (h : total + n ≤ frame.length) :
    (List.range' total n).map (frame.getD · 0) = (frame.drop total).take n := by
  refine List.ext_getElem (by simp; omega) fun i hi hi' => ?_
  have hin : total + i < frame.length := by
    simp only [List.length_map, List.length_range'] at hi
    omega
  simp [List.getD_eq_getElem?_getD, hin]

/-- **One write.**  The total is the integer sum unless that is -1, the only answer
below zero is not counted, and the bytes are those of the next places. -/
theorem sendStep_eq {frame : List UInt8} {len : UInt8} {st : SendState} {r : Int}
    (hframe : frame.length = len.toNat + 4) (hsend : sending len st = true) (hlo : -1 ≤ r)
    (hhi : r ≤ requested len st) :
    sendStep frame len st r =
      { totalSent := u32 (st.totalSent + r)
        attempts := st.attempts + if CountsAsFull len.toNat st.totalSent r then 1 else 0
        written := st.written ++ (List.range' st.totalSent r.toNat).map (frame.getD · 0) } := by
  obtain ⟨htotal, -⟩ := sending_iff.mp hsend
  rw [requested_eq htotal] at hhi
  have hlen := len.toNat_lt
  have hcount : u32 r < u32 (len.toNat - u32 (st.totalSent + r)) ↔
      CountsAsFull len.toNat st.totalSent r := by
    unfold CountsAsFull u32
    omega
  have hfits : st.totalSent + r.toNat ≤ frame.length := by omega
  have hbytes := drop_take_eq_map frame hfits
  unfold sendStep
  simp only [hcount, hbytes]
  congr 1
  split <;> rfl

/-- A call that goes on after a write has an integer total. -/
theorem total_of_answers {frame : List UInt8} {len : UInt8} {st : SendState} {r : Int}
    {rs : List Int} (hframe : frame.length = len.toNat + 4)
    (hrs : Answers frame len st (r :: rs)) (hne : rs ≠ []) :
    (sendStep frame len st r).totalSent = (st.totalSent + r).toNat ∧ 0 ≤ st.totalSent + r := by
  obtain ⟨hsend, hlo, hhi, hrest⟩ := hrs
  obtain ⟨r', rs, rfl⟩ := List.exists_cons_of_ne_nil hne
  have hnext := (sending_iff.mp hrest.1).1
  have htotal := (sending_iff.mp hsend).1
  have hlen := len.toNat_lt
  rw [requested_eq htotal] at hhi
  rw [sendStep_eq hframe hsend hlo (by rwa [requested_eq htotal])] at hnext ⊢
  simp only [u32] at hnext ⊢
  omega

/-- **The whole loop**: the total, the attempts and the bytes after it. -/
theorem foldl_sendStep {frame : List UInt8} {len : UInt8} {rs : List Int} {st : SendState}
    (hframe : frame.length = len.toNat + 4) (hst : st.totalSent ≤ len.toNat + 4)
    (hrs : Answers frame len st rs) :
    rs.foldl (sendStep frame len) st =
      { totalSent := u32 (st.totalSent + rs.sum)
        attempts := st.attempts + fullWrites len.toNat st.totalSent rs
        written := st.written ++ (acceptedPlaces st.totalSent rs).map (frame.getD · 0) } := by
  induction rs generalizing st with
  | nil =>
    have hlen := len.toNat_lt
    have htotal : u32 st.totalSent = st.totalSent := by rw [u32]; omega
    simp [acceptedPlaces, fullWrites, htotal]
  | cons r rs ih =>
    obtain ⟨hsend, hlo, hhi, hrest⟩ := id hrs
    have hstep := sendStep_eq hframe hsend hlo hhi
    cases hcase : rs with
    | nil =>
      rw [List.foldl_cons, List.foldl_nil, hstep]
      simp [acceptedPlaces, fullWrites]
    | cons r' rs' =>
      rw [← hcase]
      obtain ⟨htotal, hnonneg⟩ := total_of_answers hframe hrs (by simp [hcase])
      have hnext : (sendStep frame len st r).totalSent ≤ len.toNat + 4 := by
        have := (sending_iff.mp hsend).1
        rw [requested_eq this] at hhi
        omega
      rw [List.foldl_cons, ih hnext hrest, htotal, hstep]
      have hsum : ((st.totalSent + r).toNat : Int) + rs.sum = st.totalSent + (r :: rs).sum := by
        rw [List.sum_cons]
        omega
      rw [hsum]
      simp [acceptedPlaces, fullWrites, Nat.add_assoc]

/-- No more than the frame is taken. -/
theorem Answers.sum_le {frame : List UInt8} {len : UInt8} {rs : List Int} {st : SendState}
    (hframe : frame.length = len.toNat + 4) (hst : st.totalSent ≤ len.toNat + 4)
    (hrs : Answers frame len st rs) : st.totalSent + rs.sum ≤ len.toNat + 4 := by
  induction rs generalizing st with
  | nil =>
    rw [List.sum_nil]
    omega
  | cons r rs ih =>
    obtain ⟨hsend, hlo, hhi, hrest⟩ := id hrs
    rw [requested_eq (sending_iff.mp hsend).1] at hhi
    by_cases hne : rs = []
    · rw [hne, List.sum_cons, List.sum_nil]
      omega
    · obtain ⟨htotal, hnonneg⟩ := total_of_answers hframe hrs hne
      have hsum := ih (by omega) hrest
      rw [List.sum_cons]
      omega

/-! ## The bytes accepted -/

/-- Every answer is -1 or a number of bytes. -/
theorem Answers.lower {frame : List UInt8} {len : UInt8} {rs : List Int} {st : SendState}
    (hrs : Answers frame len st rs) : ∀ r ∈ rs, -1 ≤ r := by
  induction rs generalizing st with
  | nil => exact List.forall_mem_nil _
  | cons r rs ih =>
    obtain ⟨-, hlo, -, hrest⟩ := hrs
    exact List.forall_mem_cons.mpr ⟨hlo, ih hrest⟩

/-- Without -1, all are numbers of bytes. -/
theorem Answers.nonneg {frame : List UInt8} {len : UInt8} {rs : List Int} {st : SendState}
    (hrs : Answers frame len st rs) (hback : -1 ∉ rs) : ∀ r ∈ rs, 0 ≤ r := by
  intro r hr
  have hlo := hrs.lower r hr
  have hne : r ≠ -1 := fun h => hback (h ▸ hr)
  omega

/-- Every -1 makes up for one byte accepted. -/
theorem acceptedPlaces_length {rs : List Int} (hlo : ∀ r ∈ rs, -1 ≤ r) (total : Nat) :
    ((acceptedPlaces total rs).length : Int) = rs.sum + rs.count (-1) := by
  induction rs generalizing total with
  | nil => rfl
  | cons r rs ih =>
    obtain ⟨hr, hlo⟩ := List.forall_mem_cons.mp hlo
    rw [acceptedPlaces, List.length_append, List.length_range', Int.natCast_add, ih hlo,
      List.sum_cons, List.count_cons]
    by_cases h1 : r = -1
    · subst h1
      simp
      omega
    · simp [h1]
      omega

/-- Without -1 the bytes go out one after the other. -/
theorem acceptedPlaces_eq_range {rs : List Int} (hlo : ∀ r ∈ rs, 0 ≤ r) (total : Nat) :
    acceptedPlaces total rs = List.range' total rs.sum.toNat ∧ 0 ≤ rs.sum := by
  induction rs generalizing total with
  | nil => exact ⟨rfl, Int.le_refl _⟩
  | cons r rs ih =>
    obtain ⟨hr, hlo⟩ := List.forall_mem_cons.mp hlo
    obtain ⟨heq, hsum⟩ := ih hlo (total + r).toNat
    have hnext : (total + r).toNat = total + r.toNat := by omega
    have htoNat : (r + rs.sum).toNat = r.toNat + rs.sum.toNat := by omega
    refine ⟨?_, by rw [List.sum_cons]; omega⟩
    rw [acceptedPlaces, heq, List.sum_cons, htoNat, hnext, List.range'_append_1]

/-- So many bytes are accepted in order exactly if that is their number. -/
theorem acceptedPlaces_eq_whole {rs : List Int} (hlo : ∀ r ∈ rs, 0 ≤ r) (n : Nat) :
    acceptedPlaces 0 rs = List.range n ↔ rs.sum = n := by
  obtain ⟨haccepted, hsum⟩ := acceptedPlaces_eq_range hlo 0
  rw [haccepted, List.range_eq_range']
  constructor
  · intro heq
    have hl := congrArg List.length heq
    simp only [List.length_range'] at hl
    omega
  · intro heq
    congr 1
    omega

/-- The write that sends the last byte of the frame is the last one. -/
theorem sum_of_last_mem {frame : List UInt8} {len : UInt8} {rs : List Int} {st : SendState}
    (hframe : frame.length = len.toNat + 4) (hrs : Answers frame len st rs)
    (hmem : len.toNat + 3 ∈ acceptedPlaces st.totalSent rs) :
    st.totalSent + rs.sum = len.toNat + 4 := by
  induction rs generalizing st with
  | nil => simp [acceptedPlaces] at hmem
  | cons r rs ih =>
    obtain ⟨hsend, hlo, hhi, hrest⟩ := id hrs
    have htotal := (sending_iff.mp hsend).1
    rw [requested_eq htotal] at hhi
    rcases List.mem_append.mp hmem with hhere | hlater
    · rw [List.mem_range'_1] at hhere
      rcases rs.eq_nil_or_concat with rfl | ⟨_, _, hcat⟩
      · rw [List.sum_cons, List.sum_nil]
        omega
      · -- the frame is complete, so the loop is over
        obtain ⟨hnext, -⟩ := total_of_answers hframe hrs (by simp [hcat])
        obtain ⟨r', rs', rfl⟩ := List.exists_cons_of_ne_nil (l := rs) (by simp [hcat])
        have := (sending_iff.mp hrest.1).1
        omega
    · have hne : rs ≠ [] := by
        rintro rfl
        simp [acceptedPlaces] at hlater
      obtain ⟨hnext, hnonneg⟩ := total_of_answers hframe hrs hne
      rw [← hnext] at hlater
      have hsum := ih hrest hlater
      rw [hnext] at hsum
      rw [List.sum_cons]
      omega

/-- **A byte stepped back over is sent twice**, or the frame is not completed. -/
theorem acceptedPlaces_ne_range {frame : List UInt8} {len : UInt8} {rs : List Int} {st : SendState}
    (hframe : frame.length = len.toNat + 4) (hst : st.totalSent = 0)
    (hrs : Answers frame len st rs) (hback : -1 ∈ rs) :
    acceptedPlaces 0 rs ≠ List.range (len.toNat + 4) := by
  intro heq
  have hmem : len.toNat + 3 ∈ acceptedPlaces st.totalSent rs := by
    rw [hst, heq, List.mem_range]
    omega
  have hsum := sum_of_last_mem hframe hrs hmem
  have hlength := acceptedPlaces_length hrs.lower 0
  rw [heq, List.length_range] at hlength
  have hcount := List.count_pos_iff.mpr hback
  omega

/-! ## The result -/

/-- The state in which the send loop starts. -/
def SendState.start : SendState := ⟨0, 0, []⟩

/-- The code a call should return. -/
def truth (len : UInt8) (rs : List Int) : Int :=
  if acceptedPlaces 0 rs = List.range (len.toNat + 4) then 1 else 0

/-- No write answers -1 and none completes the frame as the fifth attempt; or one
answers -1, and the attempts run out. -/
def ResultIsTrue (len : UInt8) (rs : List Int) : Prop :=
  (-1 ∉ rs ∧ ¬ (rs.sum = len.toNat + 4 ∧ 5 ≤ fullWrites len.toNat 0 rs)) ∨
    (-1 ∈ rs ∧ 5 ≤ fullWrites len.toNat 0 rs)

instance (len : UInt8) (rs : List Int) : Decidable (ResultIsTrue len rs) :=
  inferInstanceAs (Decidable ((_ ∧ ¬ (_ ∧ _)) ∨ (_ ∧ _)))

theorem sendFrame_length (m : Message) :
    (sendFrame m.type m.payload (UInt8.ofNat m.payload.length)).length =
      (UInt8.ofNat m.payload.length).toNat + 4 := by
  simp [sendFrame, Message.len_toNat m]

/-- A call that gets the answers `rs` returns, with the bytes accepted. -/
theorem sendMsg_answers (m : Message) {rs : List Int}
    (hrs : Answers (sendFrame m.type m.payload (UInt8.ofNat m.payload.length))
      (UInt8.ofNat m.payload.length) .start rs) :
    sendMsg (fun k _ => rs.getD k 0) (rs.length + 1) m.type m.payload
        (UInt8.ofNat m.payload.length) =
      .returned
        (if fullWrites m.payload.length 0 rs ≥ 5 ∨ u32 rs.sum < 4 + m.payload.length then 0 else 1)
        ((acceptedPlaces 0 rs).map
          ((sendFrame m.type m.payload (UInt8.ofNat m.payload.length)).getD · 0)) := by
  have hshort := m.short
  have hlen := Message.len_toNat m
  have hloop := sendLoop_answers (fun k _ => rs.getD k 0) hrs 0 fun i _ => by rw [Nat.zero_add]
  rw [foldl_sendStep (sendFrame_length m) (Nat.zero_le _) hrs] at hloop
  simp only [SendState.start, hlen, Nat.zero_add, List.nil_append, Int.natCast_zero,
    Int.zero_add] at hloop
  unfold sendMsg
  simp only [hlen]
  rw [if_neg (by omega), if_neg (by omega), hloop]
  dsimp only
  split <;> rfl

/-- How the loop was left. -/
theorem answers_end {frame : List UInt8} {len : UInt8} {rs : List Int} {st : SendState}
    (hrs : Answers frame len st rs) :
    sending len (rs.foldl (sendStep frame len) st) = false := by
  induction rs generalizing st with
  | nil => exact hrs
  | cons r rs ih => exact ih hrs.2.2.2

/-- The five attempts are used up, or the total is past the frame. -/
theorem fullWrites_end {frame : List UInt8} {len : UInt8} {rs : List Int}
    (hframe : frame.length = len.toNat + 4) (hrs : Answers frame len .start rs) :
    5 ≤ fullWrites len.toNat 0 rs ∨ len.toNat + 4 ≤ u32 rs.sum := by
  have hend := answers_end hrs
  rw [foldl_sendStep hframe (Nat.zero_le _) hrs, ← Bool.not_eq_true, sending_iff] at hend
  simp only [SendState.start, Nat.zero_add, Int.natCast_zero, Int.zero_add] at hend
  omega

/-- **The result is true** exactly if no write answered -1 and the frame was not
completed by a fifth attempt, or if one did and the attempts ran out. -/
theorem sendMsg_truth_iff (m : Message) (rs : List Int)
    (hrs : Answers (sendFrame m.type m.payload (UInt8.ofNat m.payload.length))
      (UInt8.ofNat m.payload.length) .start rs) :
    ∃ code, sendMsg (fun k _ => rs.getD k 0) (rs.length + 1) m.type m.payload
        (UInt8.ofNat m.payload.length) =
      .returned code ((acceptedPlaces 0 rs).map
        ((sendFrame m.type m.payload (UInt8.ofNat m.payload.length)).getD · 0)) ∧
      (code = truth (UInt8.ofNat m.payload.length) rs ↔
        ResultIsTrue (UInt8.ofNat m.payload.length) rs) := by
  refine ⟨_, sendMsg_answers m hrs, ?_⟩
  have hframe := sendFrame_length m
  have hlen := Message.len_toNat m
  have hend := fullWrites_end hframe hrs
  have hcode : (if fullWrites m.payload.length 0 rs ≥ 5 ∨ u32 rs.sum < 4 + m.payload.length
      then (0 : Int) else 1) = if 5 ≤ fullWrites m.payload.length 0 rs then 0 else 1 := by
    rw [hlen] at hend
    refine if_congr ⟨fun h => ?_, Or.inl⟩ rfl rfl
    omega
  rw [hcode, truth, ResultIsTrue, hlen]
  by_cases hback : -1 ∈ rs
  · -- a byte is sent twice or the frame is not completed: the result has to be 0
    have hne := acceptedPlaces_ne_range hframe rfl hrs hback
    rw [hlen] at hne
    rw [if_neg hne]
    by_cases hfull : 5 ≤ fullWrites m.payload.length 0 rs <;> simp [hback, hfull]
  · have hle := hrs.sum_le hframe (Nat.zero_le _)
    rw [hlen] at hle hend
    simp only [SendState.start] at hle
    have hwhole : acceptedPlaces 0 rs = List.range (m.payload.length + 4) ↔
        rs.sum = m.payload.length + 4 := acceptedPlaces_eq_whole (hrs.nonneg hback) _
    by_cases hfull : 5 ≤ fullWrites m.payload.length 0 rs
    · by_cases hdone : rs.sum = m.payload.length + 4 <;> simp [hback, hwhole, hfull, hdone]
    · have hdone : rs.sum = m.payload.length + 4 := by
        have hsum := (acceptedPlaces_eq_range (hrs.nonneg hback) 0).2
        have hshort := m.short
        unfold u32 at hend
        omega
      simp [hback, hwhole, hfull, hdone]

/-- Three bytes are taken, then the rest. -/
theorem sendMsg_truth_twoWrites :
    Answers (sendFrame 1 [7] 1) 1 .start [3, 2] ∧
      ∃ code, sendMsg (fun k _ => [3, 2].getD k 0) 3 1 [7] 1 =
        .returned code ((acceptedPlaces 0 [3, 2]).map ((sendFrame 1 [7] 1).getD · 0)) ∧
        (code = truth 1 [3, 2] ↔ ResultIsTrue 1 [3, 2]) :=
  ⟨by decide +kernel, sendMsg_truth_iff ⟨⟨1, [7]⟩, by decide⟩ [3, 2] (by decide +kernel)⟩

/-- The first write answers -1: nothing is sent, and the result is 1. -/
theorem sendMsg_failed_write : ¬ ∀ (m : Message) (rs : List Int),
    Answers (sendFrame m.type m.payload (UInt8.ofNat m.payload.length))
      (UInt8.ofNat m.payload.length) .start rs →
    ∃ written, sendMsg (fun k _ => rs.getD k 0) (rs.length + 1) m.type m.payload
      (UInt8.ofNat m.payload.length) =
        .returned (truth (UInt8.ofNat m.payload.length) rs) written := by
  intro hall
  obtain ⟨written, hcall⟩ := hall ⟨⟨1, [7]⟩, by decide⟩ [-1] (by decide +kernel)
  have hlie : sendMsg (fun k _ => [-1].getD k 0) 2 1 [7] 1 = .returned 1 [] := by decide +kernel
  rw [List.length_singleton] at hcall
  have hcode := hlie.symm.trans hcall
  simp only [SendResult.returned.injEq] at hcode
  exact absurd hcode.1 (by decide +kernel)

end KartStack.KmComs
