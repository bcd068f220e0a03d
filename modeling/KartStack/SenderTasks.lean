import KartStack.MicroSend
import KartStack.Transitions
import Mathlib.Algebra.BigOperators.Group.Finset.Basic
import Mathlib.Algebra.Order.Group.Multiset
import Mathlib.Data.Fintype.Pi

/-! # Frames of several tasks

`control_task`, `heartbeat_task` and `health_task` all call `KM_COMS_SendMsg`, whose
send loop writes what is left of the frame and sleeps when the UART takes only a
part.  Nothing keeps another task from writing in between.

So frames stay whole in the runs in which nobody writes while another task's frame
is on the wire in part (`frames_whole_of_alone`), and in no others in general
(`torn_not_whole`).
-/
namespace KartStack.KmComs
open scoped BigOperators

/-- The tasks that send. -/
inductive Sender where
  | control
  | heartbeat
  | health
  deriving DecidableEq, Repr

instance : Fintype Sender where
  elems := {.control, .heartbeat, .health}
  complete who := by cases who <;> decide

/-- A call of `KM_COMS_SendMsg` under way. -/
structure Sending where
  msg : Message
  st : SendState

namespace Sending

/-- Its `len`. -/
def len (c : Sending) : UInt8 := UInt8.ofNat c.msg.payload.length

/-- Its `frame`. -/
def frame (c : Sending) : List UInt8 := sendFrame c.msg.type c.msg.payload c.len

/-- All of the frame was accepted. -/
def Complete (c : Sending) : Prop := c.frame.length ≤ c.st.totalSent

instance (c : Sending) : Decidable c.Complete := inferInstanceAs (Decidable (_ ≤ _))

/-- What is returned when the loop is left. -/
def code (c : Sending) : Int :=
  if c.st.attempts ≥ 5 ∨ c.st.totalSent < 4 + c.len.toNat then 0 else 1

end Sending

/-- The wire, the calls under way, and the calls that have returned: the frame and
the result. -/
structure Line where
  wire : List UInt8
  calls : Sender → Option Sending
  returned : List (List UInt8 × Int)

/-- Nothing sent. -/
def Line.init : Line := ⟨[], fun _ => none, []⟩

/-- What a task does next. -/
inductive SenderAct where
  /-- It calls `KM_COMS_SendMsg`. -/
  | call (who : Sender) (msg : Message)
  /-- It calls `uart_write_bytes`, which takes `n` bytes. -/
  | write (who : Sender) (n : Nat)
  /-- It leaves the loop and returns. -/
  | finish (who : Sender)

/-- One act. -/
def senderStep (s : Line) : SenderAct → Option Line
  | .call who msg =>
    match s.calls who with
    | none => some { s with calls := Function.update s.calls who (some ⟨msg, ⟨0, 0, []⟩⟩) }
    | some _ => none
  | .write who n =>
    match s.calls who with
    | none => none
    | some c =>
      if sending c.len c.st ∧ n ≤ requested c.len c.st then
        some { s with
          wire := s.wire ++ (c.frame.drop c.st.totalSent).take n
          calls := Function.update s.calls who
            (some { c with st := sendStep c.frame c.len c.st n }) }
      else none
  | .finish who =>
    match s.calls who with
    | none => none
    | some c =>
      if sending c.len c.st then none
      else some { s with
        calls := Function.update s.calls who none
        returned := s.returned ++ [(c.frame, c.code)] }

/-- Once all calls have returned 1, the wire holds their frames, each in one piece. -/
def Whole (s : Line) : Prop :=
  (∀ who, s.calls who = none) → (∀ r ∈ s.returned, r.2 = 1) →
    ∃ order : List (List UInt8), order.Perm (s.returned.map Prod.fst) ∧ s.wire = order.flatten

/-- The part of its frame that a task's unfinished call has put on the wire. -/
def Line.part (s : Line) (who : Sender) : List UInt8 :=
  match s.calls who with
  | none => []
  | some c => if c.Complete then [] else c.frame.take c.st.totalSent

/-- Nobody writes while another task's frame is on the wire in part. -/
def Alone (s : Line) : SenderAct → Prop
  | .write who n => n = 0 ∨ ∀ other, other ≠ who → s.part other = []
  | _ => True

instance decAlone (s : Line) : ∀ a, Decidable (Alone s a)
  | .call _ _ => isTrue trivial
  | .write _ _ => inferInstanceAs (Decidable (_ ∨ _))
  | .finish _ => isTrue trivial

/-! ## One call -/

namespace Sending
variable (c : Sending)

theorem len_toNat : c.len.toNat = c.msg.payload.length := Message.len_toNat c.msg

theorem frame_length : c.frame.length = c.len.toNat + 4 := by
  have hshort := c.msg.short
  have hlen := c.len_toNat
  rw [frame, sendFrame]
  simp only [List.length_append, List.length_cons, List.length_nil, List.length_take]
  omega

/-- The call after `uart_write_bytes` took `n` bytes. -/
def took (n : Nat) : Sending := { c with st := sendStep c.frame c.len c.st n }

/-- A call counts the bytes it was told were taken. -/
theorem took_totalSent {c : Sending} {n : Nat} (hs : sending c.len c.st = true)
    (hn : n ≤ requested c.len c.st) :
    (c.took n).st.totalSent = c.st.totalSent + n ∧
      c.st.totalSent + n ≤ c.frame.length := by
  have hlt : c.st.totalSent < c.len.toNat + 4 := by
    rw [sending, Bool.and_eq_true] at hs
    exact of_decide_eq_true hs.1
  have hbyte := c.len.toNat_lt
  have hreq : requested c.len c.st = c.len.toNat + 4 - c.st.totalSent := by
    simp only [requested, u32]
    omega
  rw [hreq] at hn
  rw [c.frame_length]
  refine ⟨?_, by omega⟩
  simp only [took, sendStep, u32]
  omega

/-- The loop is left with the frame complete if the result is 1. -/
theorem complete_of_code {c : Sending} (h : c.code = 1) : c.Complete := by
  rw [code] at h
  split at h
  · cases h
  · rename_i hno
    rw [Complete, c.frame_length]
    omega

end Sending

/-! ## The wire in terms of the calls -/

/-- The frame of a task's call that is on the wire as a whole. -/
def Line.done (s : Line) (who : Sender) : Multiset (List UInt8) :=
  match s.calls who with
  | none => 0
  | some c => if c.Complete then {c.frame} else 0

/-- The wire holds the frames of the calls that are complete, in some order, and
behind them the part that one task has sent of its frame; no other has sent a part. -/
def Tidy (s : Line) : Prop :=
  ∃ (order : List (List UInt8)) (owner : Sender),
    (order : Multiset (List UInt8)) = ↑(s.returned.map Prod.fst) + ∑ who, s.done who ∧
      s.wire = order.flatten ++ s.part owner ∧ ∀ other, other ≠ owner → s.part other = []

/-- A sum changes by what one of its terms changes by. -/
theorem sum_change {M : Type} [AddCommMonoid M] {f g : Sender → M} {who : Sender} {d : M}
    (hwho : g who = f who + d) (hother : ∀ other, other ≠ who → g other = f other) :
    ∑ i, g i = ∑ i, f i + d := by
  rw [← Finset.add_sum_erase _ g (Finset.mem_univ who),
    ← Finset.add_sum_erase _ f (Finset.mem_univ who), hwho,
    Finset.sum_congr rfl fun i hi => hother i (Finset.ne_of_mem_erase hi), add_right_comm]

section Calls
variable {s s' : Line} {who : Sender}

theorem part_none (h : s.calls who = none) : s.part who = [] := by
  rw [Line.part, h]

theorem done_none (h : s.calls who = none) : s.done who = 0 := by
  rw [Line.done, h]

theorem part_some {c : Sending} (h : s.calls who = some c) :
    s.part who = if c.Complete then [] else c.frame.take c.st.totalSent := by
  rw [Line.part, h]

theorem done_some {c : Sending} (h : s.calls who = some c) :
    s.done who = if c.Complete then {c.frame} else 0 := by
  rw [Line.done, h]

/-- What a task has on the wire depends on its own call only. -/
theorem part_congr (h : s'.calls who = s.calls who) : s'.part who = s.part who := by
  rw [Line.part, Line.part, h]

theorem done_congr (h : s'.calls who = s.calls who) : s'.done who = s.done who := by
  rw [Line.done, Line.done, h]

end Calls

/-- The part a task has sent and the bytes it sends now. -/
theorem take_add_drop (frame : List UInt8) (sent n : Nat) :
    frame.take (sent + n) = frame.take sent ++ (frame.drop sent).take n :=
  List.take_add

/-- A task whose part and whose complete frame stay as they are leaves the wire
tidy. -/
theorem Tidy.of_same {s s' : Line} (h : Tidy s) {who : Sender} (hwire : s'.wire = s.wire)
    (hreturned : s'.returned = s.returned) (hcalls : ∀ i, i ≠ who → s'.calls i = s.calls i)
    (hpart : s'.part who = s.part who) (hdone : s'.done who = s.done who) : Tidy s' := by
  obtain ⟨order, owner, horder, hw, hother⟩ := h
  have hparts : ∀ i, s'.part i = s.part i := by
    intro i
    by_cases hi : i = who
    · rw [hi, hpart]
    · exact part_congr (hcalls i hi)
  have hdones : ∀ i, s'.done i = s.done i := by
    intro i
    by_cases hi : i = who
    · rw [hi, hdone]
    · exact done_congr (hcalls i hi)
  refine ⟨order, owner, ?_, ?_, ?_⟩
  · rw [horder, hreturned, Finset.sum_congr rfl fun i _ => hdones i]
  · rw [hwire, hparts, hw]
  · intro other hne
    rw [hparts, hother other hne]

/-- A new call has nothing on the wire, as its task had before. -/
theorem call_tidy {s : Line} {who : Sender} (h : Tidy s) (hfree : s.calls who = none)
    (msg : Message) :
    Tidy { s with calls := Function.update s.calls who (some ⟨msg, ⟨0, 0, []⟩⟩) } := by
  have hstart : ¬ (⟨msg, ⟨0, 0, []⟩⟩ : Sending).Complete := by
    rw [Sending.Complete, Sending.frame_length]
    show ¬ _ ≤ 0
    omega
  refine h.of_same rfl rfl (fun i (hi : i ≠ who) => Function.update_of_ne hi ..) ?_ ?_
  · rw [part_some (Function.update_self ..), if_neg hstart, part_none hfree]
    rfl
  · rw [done_some (Function.update_self ..), if_neg hstart, done_none hfree]

/-- **A write that finds no other frame in part keeps the wire tidy.** -/
theorem write_tidy {s : Line} {who : Sender} {c : Sending} {n : Nat} (h : Tidy s)
    (hc : s.calls who = some c) (hs : sending c.len c.st = true)
    (hn : n ≤ requested c.len c.st) (halone : Alone s (.write who n)) :
    Tidy { s with
      wire := s.wire ++ (c.frame.drop c.st.totalSent).take n
      calls := Function.update s.calls who (some (c.took n)) } := by
  set s' : Line := { s with
    wire := s.wire ++ (c.frame.drop c.st.totalSent).take n
    calls := Function.update s.calls who (some (c.took n)) }
  have hself : s'.calls who = some (c.took n) := Function.update_self ..
  have hcalls : ∀ i, i ≠ who → s'.calls i = s.calls i := fun i hi => Function.update_of_ne hi ..
  obtain ⟨htotal, hle⟩ := Sending.took_totalSent hs hn
  have hbefore : ¬ c.Complete := by
    rw [sending, Bool.and_eq_true] at hs
    have hlt := of_decide_eq_true hs.1
    rw [Sending.Complete, c.frame_length]
    omega
  have hpart : s.part who = c.frame.take c.st.totalSent := by
    rw [part_some hc, if_neg hbefore]
  have hdone : s.done who = 0 := by
    rw [done_some hc, if_neg hbefore]
  rcases halone with rfl | halone
  · -- nothing is taken
    have hafter : ¬ (c.took 0).Complete := by
      rw [Sending.Complete, htotal]
      exact hbefore
    refine h.of_same ?_ rfl hcalls ?_ ?_
    · show s.wire ++ (c.frame.drop c.st.totalSent).take 0 = s.wire
      rw [List.take_zero, List.append_nil]
    · rw [part_some hself, if_neg hafter, htotal, hpart]
      rfl
    · rw [done_some hself, if_neg hafter, hdone]
  · -- the part on the wire is the writer's own
    obtain ⟨order, owner, horder, hwire, hother⟩ := h
    have hown : s.part owner = s.part who := by
      by_cases ho : who = owner
      · rw [ho]
      · rw [hother who ho, halone owner (Ne.symm ho)]
    have hwire' : s'.wire = order.flatten ++ c.frame.take (c.st.totalSent + n) := by
      show s.wire ++ (c.frame.drop c.st.totalSent).take n = _
      rw [hwire, hown, hpart, take_add_drop, List.append_assoc]
    have hothers : ∀ other, other ≠ who → s'.part other = [] := by
      intro other hne
      rw [part_congr (hcalls other hne), halone other hne]
    have hdones : ∀ other, other ≠ who → s'.done other = s.done other :=
      fun other hne => done_congr (hcalls other hne)
    by_cases hafter : (c.took n).Complete
    · have hfull : c.frame.take (c.st.totalSent + n) = c.frame := by
        rw [Sending.Complete, htotal] at hafter
        exact List.take_of_length_le hafter
      have hself' : s'.done who = s.done who + {c.frame} := by
        rw [done_some hself, if_pos hafter, hdone, zero_add]
        rfl
      refine ⟨order ++ [c.frame], who, ?_, ?_, hothers⟩
      · rw [sum_change hself' hdones, ← add_assoc, ← Multiset.coe_add, horder]
        rfl
      · rw [hwire', hfull, part_some hself, if_pos hafter]
        simp
    · have hself' : s'.done who = s.done who + 0 := by
        rw [done_some hself, if_neg hafter, hdone, add_zero]
      refine ⟨order, who, ?_, ?_, hothers⟩
      · rw [sum_change hself' hdones, horder, add_zero]
      · rw [hwire', part_some hself, if_neg hafter, htotal]
        rfl

/-- A call that returns 1 hands its frame over to those returned. -/
theorem finish_tidy {s : Line} {who : Sender} {c : Sending} (h : Tidy s)
    (hc : s.calls who = some c) (hcode : c.code = 1) :
    Tidy { s with
      calls := Function.update s.calls who none
      returned := s.returned ++ [(c.frame, c.code)] } := by
  set s' : Line := { s with
    calls := Function.update s.calls who none
    returned := s.returned ++ [(c.frame, c.code)] }
  have hself : s'.calls who = none := Function.update_self ..
  have hcalls : ∀ i, i ≠ who → s'.calls i = s.calls i := fun i hi => Function.update_of_ne hi ..
  have hcomplete := Sending.complete_of_code hcode
  have hparts : ∀ i, s'.part i = s.part i := by
    intro i
    by_cases hi : i = who
    · rw [hi, part_none hself, part_some hc, if_pos hcomplete]
    · exact part_congr (hcalls i hi)
  have hdone : s.done who = s'.done who + {c.frame} := by
    rw [done_some hc, if_pos hcomplete, done_none hself, zero_add]
  obtain ⟨order, owner, horder, hwire, hother⟩ := h
  refine ⟨order, owner, ?_, ?_, ?_⟩
  · rw [horder, sum_change hdone fun i hi => (done_congr (hcalls i hi)).symm]
    have hreturned : s'.returned.map Prod.fst = s.returned.map Prod.fst ++ [c.frame] :=
      List.map_append
    rw [hreturned, ← Multiset.coe_add, add_comm (∑ i, s'.done i), add_assoc]
    rfl
  · rw [hparts]
    exact hwire
  · intro other hne
    rw [hparts, hother other hne]

/-! ## Runs -/

/-- Tidy, unless a call has failed. -/
def TidyUnlessFailed (s : Line) : Prop := (∃ r ∈ s.returned, r.2 ≠ 1) ∨ Tidy s

theorem init_tidy : Tidy .init := ⟨[], .control, by simp [Line.init, Line.done], rfl, fun _ _ => rfl⟩

theorem step_tidy {s s' : Line} {act : SenderAct} (h : TidyUnlessFailed s) (halone : Alone s act)
    (hstep : senderStep s act = some s') : TidyUnlessFailed s' := by
  cases act with
  | call who msg =>
    rw [senderStep] at hstep
    split at hstep
    · rename_i hfree
      obtain rfl := Option.some.inj hstep
      exact h.imp_right fun ht => call_tidy ht hfree msg
    · cases hstep
  | write who n =>
    rw [senderStep] at hstep
    split at hstep
    · cases hstep
    · rename_i c hc
      split at hstep
      · rename_i hok
        obtain rfl := Option.some.inj hstep
        exact h.imp_right fun ht => write_tidy ht hc hok.1 hok.2 halone
      · cases hstep
  | finish who =>
    rw [senderStep] at hstep
    split at hstep
    · cases hstep
    · rename_i c hc
      split at hstep
      · cases hstep
      · obtain rfl := Option.some.inj hstep
        rcases h with ⟨r, hr, hne⟩ | ht
        · exact Or.inl ⟨r, List.mem_append_left _ hr, hne⟩
        · by_cases hcode : c.code = 1
          · exact Or.inr (finish_tidy ht hc hcode)
          · refine Or.inl ⟨(c.frame, c.code), ?_, hcode⟩
            exact List.mem_append_right _ (List.mem_singleton.mpr rfl)

/-- A tidy wire with no call under way holds whole frames. -/
theorem whole_of_tidy {s : Line} (h : TidyUnlessFailed s) : Whole s := by
  intro hidle hones
  rcases h with ⟨r, hr, hne⟩ | ⟨order, owner, horder, hwire, -⟩
  · exact absurd (hones r hr) hne
  · refine ⟨order, ?_, ?_⟩
    · rw [Finset.sum_eq_zero fun i _ => done_none (hidle i), add_zero] at horder
      exact Multiset.coe_eq_coe.mp horder
    · rw [hwire, part_none (hidle owner), List.append_nil]

/-- **Frames stay whole** in every state of a run in which nobody writes while
another task's frame is on the wire in part. -/
theorem frames_whole_of_alone {acts : List SenderAct} {s : Line}
    (halone : Transitions.Along senderStep Alone .init acts)
    (hrun : Transitions.run senderStep .init acts = some s) : Whole s := by
  have hstep : ∀ s a s', TidyUnlessFailed s → Alone s a → senderStep s a = some s' →
      TidyUnlessFailed s' := fun _ _ _ => step_tidy
  exact whole_of_tidy (Transitions.inv_of_along hstep (Or.inr init_tidy) halone hrun)

/-- `ESP_ACT_STEERING` with everything zero, which serialises to nothing. -/
def steeringZero : Message := ⟨⟨0x04, []⟩, by decide⟩

/-- `ESP_HEARTBEAT` right after boot. -/
def bootHeartbeat : Message := ⟨⟨0x08, []⟩, by decide⟩

/-- The steering frame goes out in two writes, then the heartbeat in one. -/
def inTurn : List SenderAct :=
  [.call .control steeringZero, .write .control 1, .call .heartbeat bootHeartbeat,
    .write .control 3, .finish .control, .write .heartbeat 4, .finish .heartbeat]

theorem inTurn_whole : ∃ s, Transitions.run senderStep .init inTurn = some s ∧ Whole s := by
  have halone : Transitions.Along senderStep Alone .init inTurn := by decide +kernel
  exact ⟨_, rfl, frames_whole_of_alone halone rfl⟩

/-- The heartbeat is written while one byte of the steering frame is on the wire. -/
def torn : List SenderAct :=
  [.call .control steeringZero, .write .control 1, .call .heartbeat bootHeartbeat,
    .write .heartbeat 4, .finish .heartbeat, .write .control 3, .finish .control]

/-- **Both calls return 1, and neither order of the frames is on the wire.** -/
theorem torn_not_whole : ∃ s, Transitions.run senderStep .init torn = some s ∧ ¬ Whole s := by
  refine ⟨_, rfl, ?_⟩
  intro h
  obtain ⟨order, hperm, hwire⟩ := h (by decide) (by decide)
  -- the second byte on the wire is a start byte, that of each frame its length 0
  have hzero : ∀ f ∈ order, f[1]? = some 0 := by
    intro f hf
    have hall : ∀ f ∈ [sendFrame 0x08 [] 0, sendFrame 0x04 [] 0], f[1]? = some 0 := by
      decide +kernel
    exact hall f (hperm.mem_iff.mp hf)
  cases order with
  | nil => exact absurd hperm.length_eq (by decide)
  | cons f rest =>
    have hf := hzero f (List.mem_cons_self ..)
    obtain ⟨hlt, -⟩ := List.getElem?_eq_some_iff.mp hf
    have hsecond := congrArg (·[1]?) hwire
    simp only [List.flatten_cons] at hsecond
    rw [List.getElem?_append_left hlt, hf] at hsecond
    exact absurd hsecond (by decide +kernel)

end KartStack.KmComs
