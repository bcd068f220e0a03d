import KartStack.Transitions
import Mathlib.Data.List.Pairwise

/-! # The frame the detector takes

`YoloDetectorNode` runs its network in a thread of its own.  `_on_image` leaves the
newest frame in `_latest_frame` and sets an event; `_inference_loop` waits for the
event, clears it and takes the frame away.  Slot and event are written in separate
steps on both sides, and in opposite orders: the callback stores before it sets, the
thread clears before it takes.  So no frame waits without somebody on the way to it
(`Watched`), and a frame that is never inferred was replaced by a newer one (`Handed`).
-/
namespace KartStack.YoloDetector

/-- Where `_inference_loop` is: it carries the frame it is about to infer. -/
inductive Pc (F : Type) where
  /-- `while not self._shutdown`. -/
  | test
  /-- `self._frame_event.wait(timeout=1.0)`. -/
  | wait
  /-- `self._frame_event.clear()`. -/
  | clear
  /-- The block under `_frame_lock`. -/
  | take
  | infer (data : F)
  | ended
  deriving DecidableEq, Repr

/-- `YoloDetectorNode`, and how many of its callbacks are between storing and setting. -/
structure Detector (F : Type) where
  latestFrame : Option F
  frameEvent : Bool
  shutdown : Bool
  pc : Pc F
  storing : Nat
  deriving DecidableEq, Repr

/-- The atomic steps. -/
inductive Act (F : Type) where
  /-- `_on_image`: `self._latest_frame = (msg.header, frame_bgr)`. -/
  | store (frame : F)
  /-- `_on_image`: `self._frame_event.set()`. -/
  | set
  /-- `main`: `node._shutdown = True`. -/
  | shutDown
  /-- `main`: `node._frame_event.set()`. -/
  | unblock
  /-- The thread goes on; its `wait` is over because the event is set. -/
  | run
  /-- Its `wait` times out. -/
  | timeOut
  /-- What it is doing to a frame raises. -/
  | raise
  deriving DecidableEq, Repr

variable {F : Type}

/-- `YoloDetectorNode.__init__`. -/
def Detector.init : Detector F := ⟨none, false, false, .test, 0⟩

/-- `_inference_loop`, up to its next access to what is shared. -/
def Detector.run (d : Detector F) : Option (Detector F) :=
  match d.pc with
  | .test => some { d with pc := if d.shutdown then .ended else .wait }
  | .wait => if d.frameEvent then some { d with pc := .clear } else none
  | .clear => some { d with frameEvent := false, pc := .take }
  | .take =>
    some { d with latestFrame := none, pc := d.latestFrame.elim .test fun data => .infer data }
  | .infer _ => some { d with pc := .test }
  | .ended => none

/-- One step of the callbacks, of `main` or of the thread. -/
def Detector.step (d : Detector F) : Act F → Option (Detector F)
  | .store frame => some { d with latestFrame := some frame, storing := d.storing + 1 }
  | .set => if 0 < d.storing then
      some { d with frameEvent := true, storing := d.storing - 1 } else none
  | .shutDown => some { d with shutdown := true }
  | .unblock => if d.shutdown then some { d with frameEvent := true } else none
  | .run => d.run
  | .timeOut =>
    match d.pc with
    | .wait => some { d with pc := .test }
    | _ => none
  | .raise =>
    match d.pc with
    | .infer _ => some { d with pc := .ended }
    | _ => none

/-! ## What becomes of the frames -/

/-- The detector on frames numbered as they are stored, and what no step reads: how many
were stored, which were inferred, in order, and which was replaced by which. -/
structure Observed where
  detector : Detector Nat
  stored : Nat
  inferred : List Nat
  replaced : List (Nat × Nat)

/-- Before the first frame. -/
def Observed.init : Observed := ⟨.init, 0, [], []⟩

/-- The frame a thread at this point is about to infer. -/
def Pc.data : Pc F → Option F
  | .infer data => some data
  | _ => none

/-- A step with a number for the frame. -/
def Act.numbered (n : Nat) : Act Unit → Act Nat
  | .store _ => .store n
  | .set => .set
  | .shutDown => .shutDown
  | .unblock => .unblock
  | .run => .run
  | .timeOut => .timeOut
  | .raise => .raise

/-- A frame is stored. -/
def Observed.store (s : Observed) : Observed where
  detector := { s.detector with
    latestFrame := some s.stored, storing := s.detector.storing + 1 }
  stored := s.stored + 1
  inferred := s.inferred
  replaced := s.detector.latestFrame.toList.map (fun n => (n, s.stored)) ++ s.replaced

/-- One step. -/
def Observed.step (s : Observed) (a : Act Unit) : Option Observed :=
  (s.detector.step (a.numbered s.stored)).map fun d =>
    match a with
    | .store _ => s.store
    | .run | .raise => { s with
        detector := d
        inferred := s.inferred ++ s.detector.pc.data.toList }
    | _ => { s with detector := d }

/-! ## Nobody waits unnoticed -/

/-- A pending frame has somebody on the way to it: the event is set, a callback is about
to set it, or the thread is about to take the frame. -/
def Watched (d : Detector F) : Prop :=
  d.latestFrame ≠ none → d.frameEvent = true ∨ 0 < d.storing ∨ d.pc = .take

/-- The thread may go anywhere but away from where it takes the frame. -/
theorem Watched.goTo {d : Detector F} (h : Watched d) (hpc : d.pc ≠ .take) (pc : Pc F) :
    Watched { d with pc } :=
  fun hpending => (h hpending).imp_right (Or.imp_right fun htake => absurd htake hpc)

/-- A step of the thread: it clears the event only to take what is pending. -/
theorem run_watched {d d' : Detector F} (h : Watched d) (hrun : d.run = some d') : Watched d' := by
  unfold Detector.run at hrun
  cases hpc : d.pc with
  | test =>
    rw [hpc] at hrun
    obtain rfl := Option.some.inj hrun
    exact h.goTo (by simp [hpc]) _
  | wait =>
    simp only [hpc] at hrun
    split at hrun
    · obtain rfl := Option.some.inj hrun
      exact h.goTo (by simp [hpc]) _
    · cases hrun
  | clear =>
    rw [hpc] at hrun
    obtain rfl := Option.some.inj hrun
    exact fun _ => Or.inr (Or.inr rfl)
  | take =>
    rw [hpc] at hrun
    obtain rfl := Option.some.inj hrun
    exact fun hpending => absurd rfl hpending
  | infer data =>
    rw [hpc] at hrun
    obtain rfl := Option.some.inj hrun
    exact h.goTo (by simp [hpc]) _
  | ended =>
    rw [hpc] at hrun
    cases hrun

theorem step_watched {d d' : Detector F} (h : Watched d) {a : Act F} (hstep : d.step a = some d') :
    Watched d' := by
  cases a with
  | store frame =>
    obtain rfl := Option.some.inj hstep
    exact fun _ => Or.inr (Or.inl (Nat.succ_pos _))
  | set =>
    simp only [Detector.step] at hstep
    split at hstep
    · obtain rfl := Option.some.inj hstep
      exact fun _ => Or.inl rfl
    · cases hstep
  | shutDown =>
    obtain rfl := Option.some.inj hstep
    exact h
  | unblock =>
    simp only [Detector.step] at hstep
    split at hstep
    · obtain rfl := Option.some.inj hstep
      exact fun _ => Or.inl rfl
    · cases hstep
  | run => exact run_watched h hstep
  | timeOut =>
    simp only [Detector.step] at hstep
    split at hstep
    · rename_i hpc
      obtain rfl := Option.some.inj hstep
      exact h.goTo (by simp [hpc]) _
    · cases hstep
  | raise =>
    simp only [Detector.step] at hstep
    split at hstep
    · rename_i hpc
      obtain rfl := Option.some.inj hstep
      exact h.goTo (by simp [hpc]) _
    · cases hstep

theorem observed_watched {s s' : Observed} {a : Act Unit} (h : Watched s.detector)
    (hstep : s.step a = some s') : Watched s'.detector := by
  obtain ⟨d, hd, rfl⟩ := Option.map_eq_some_iff.mp hstep
  have hd' := step_watched h hd
  cases a with
  | store frame =>
    obtain rfl := Option.some.inj hd
    exact hd'
  | set | shutDown | unblock | run | timeOut | raise => exact hd'

/-! ## Frames one behind the other -/

/-- The frames that were not replaced: inferred, about to be inferred, pending. -/
def Observed.line (s : Observed) : List Nat :=
  s.inferred ++ (s.detector.pc.data.toList ++ s.detector.latestFrame.toList)

/-- The frames in line came one after the other, and every other one was replaced by
one that came later. -/
structure Handed (s : Observed) : Prop where
  line : s.line.Pairwise (· < ·)
  below : ∀ n ∈ s.line, n < s.stored
  later : ∀ p ∈ s.replaced, p.1 < p.2 ∧ p.2 < s.stored
  all : ∀ n < s.stored, n ∈ s.line ∨ ∃ k, (n, k) ∈ s.replaced

theorem init_handed : Handed .init where
  line := List.Pairwise.nil
  below _ hn := by cases hn
  later _ hp := by cases hp
  all _ hn := by cases hn

/-- The thread hands on what it took, and takes what is pending when it has nothing. -/
theorem run_line {d d' : Detector F} (hrun : d.run = some d') :
    d.pc.data.toList ++ (d'.pc.data.toList ++ d'.latestFrame.toList) =
      d.pc.data.toList ++ d.latestFrame.toList := by
  unfold Detector.run at hrun
  cases hpc : d.pc with
  | test =>
    rw [hpc] at hrun
    obtain rfl := Option.some.inj hrun
    cases d.shutdown <;> rfl
  | wait =>
    simp only [hpc] at hrun
    split at hrun
    · obtain rfl := Option.some.inj hrun
      rfl
    · cases hrun
  | clear | infer data =>
    rw [hpc] at hrun
    obtain rfl := Option.some.inj hrun
    rfl
  | take =>
    rw [hpc] at hrun
    obtain rfl := Option.some.inj hrun
    cases d.latestFrame <;> rfl
  | ended =>
    rw [hpc] at hrun
    cases hrun

/-- A frame that is stored goes to the end of the line, and the one it replaces leaves
it. -/
theorem Handed.store {s : Observed} (h : Handed s) : Handed s.store := by
  have hold : s.line = s.inferred ++ s.detector.pc.data.toList ++ s.detector.latestFrame.toList :=
    (List.append_assoc ..).symm
  have hnew : s.store.line = s.inferred ++ s.detector.pc.data.toList ++ [s.stored] :=
    (List.append_assoc ..).symm
  obtain ⟨hline, hbelow, hlater, hall⟩ := h
  rw [hold] at hline hbelow
  have hkept : ∀ n ∈ s.inferred ++ s.detector.pc.data.toList, n < s.stored := fun n hn =>
    hbelow n (List.mem_append_left _ hn)
  refine ⟨?_, fun n hn => ?_, fun p hp => ?_, fun n hn => ?_⟩
  · rw [hnew]
    refine List.pairwise_append.mpr ⟨(List.pairwise_append.mp hline).1, List.pairwise_singleton ..,
      fun n hn k hk => ?_⟩
    rw [List.mem_singleton.mp hk]
    exact hkept n hn
  · rw [hnew] at hn
    rcases List.mem_append.mp hn with hn | hn
    · exact Nat.lt_succ_of_lt (hkept n hn)
    · rw [List.mem_singleton.mp hn]
      exact Nat.lt_succ_self _
  · rcases List.mem_append.mp hp with hp | hp
    · obtain ⟨n, hn, rfl⟩ := List.mem_map.mp hp
      exact ⟨hbelow n (List.mem_append_right _ hn), Nat.lt_succ_self _⟩
    · exact ⟨(hlater p hp).1, Nat.lt_succ_of_lt (hlater p hp).2⟩
  · rw [hnew]
    rcases Nat.lt_succ_iff_lt_or_eq.mp hn with hn | rfl
    · rcases hall n hn with hn | ⟨k, hk⟩
      · rw [hold] at hn
        rcases List.mem_append.mp hn with hn | hn
        · exact Or.inl (List.mem_append_left _ hn)
        · exact Or.inr ⟨s.stored, List.mem_append_left _ (List.mem_map.mpr ⟨n, hn, rfl⟩)⟩
      · exact Or.inr ⟨k, List.mem_append_right _ hk⟩
    · exact Or.inl (List.mem_append_right _ (List.mem_singleton.mpr rfl))

/-- Nothing else changes the line. -/
theorem Handed.of_line {s s' : Observed} (h : Handed s) (hline : s'.line = s.line)
    (hstored : s'.stored = s.stored) (hreplaced : s'.replaced = s.replaced) : Handed s' where
  line := hline ▸ h.line
  below := hline ▸ hstored ▸ h.below
  later := hreplaced ▸ hstored ▸ h.later
  all := hline ▸ hstored ▸ hreplaced ▸ h.all

theorem step_handed {s s' : Observed} {a : Act Unit} (h : Handed s) (hstep : s.step a = some s') :
    Handed s' := by
  obtain ⟨d, hd, rfl⟩ := Option.map_eq_some_iff.mp hstep
  cases a with
  | store frame =>
    obtain rfl := Option.some.inj hd
    exact h.store
  | run =>
    refine h.of_line ?_ rfl rfl
    show s.inferred ++ s.detector.pc.data.toList ++ _ = _
    rw [List.append_assoc, run_line hd]
    rfl
  | raise =>
    simp only [Act.numbered, Detector.step] at hd
    split at hd
    · rename_i n hpc
      obtain rfl := Option.some.inj hd
      refine h.of_line ?_ rfl rfl
      simp [Observed.line, hpc, Pc.data]
    · cases hd
  | timeOut =>
    simp only [Act.numbered, Detector.step] at hd
    split at hd
    · rename_i hpc
      obtain rfl := Option.some.inj hd
      refine h.of_line ?_ rfl rfl
      simp [Observed.line, hpc, Pc.data]
    · cases hd
  | set | unblock =>
    simp only [Act.numbered, Detector.step] at hd
    split at hd
    · obtain rfl := Option.some.inj hd
      exact h.of_line rfl rfl rfl
    · cases hd
  | shutDown =>
    obtain rfl := Option.some.inj hd
    exact h.of_line rfl rfl rfl

/-- **The newest frame is never lost**: in every state reached, a pending frame has
somebody on the way to it; frames are inferred once each and in the order they came; and
a frame that is neither inferred nor on the way there was replaced by a later one. -/
theorem newestFrame_kept {acts : List (Act Unit)} {s : Observed}
    (hrun : Transitions.run Observed.step .init acts = some s) :
    Watched s.detector ∧ s.inferred.Pairwise (· < ·) ∧
    ∀ n < s.stored, n ∉ s.inferred →
      s.detector.latestFrame = some n ∨ s.detector.pc = .infer n ∨
        ∃ k, n < k ∧ k < s.stored ∧ (n, k) ∈ s.replaced := by
  have hreach : Transitions.Reachable Observed.step .init s := ⟨acts, hrun⟩
  have hwatched : Watched s.detector :=
    hreach.inv (fun hpending => absurd rfl hpending) fun _ _ _ => observed_watched
  obtain ⟨hline, -, hlater, hall⟩ := hreach.inv init_handed fun _ _ _ => step_handed
  refine ⟨hwatched, (List.pairwise_append.mp hline).1, fun n hn hnot => ?_⟩
  rcases hall n hn with hmem | ⟨k, hk⟩
  · rcases List.mem_append.mp hmem with hmem | hmem
    · exact absurd hmem hnot
    · rcases List.mem_append.mp hmem with hhand | hslot
      · refine Or.inr (Or.inl ?_)
        cases hpc : s.detector.pc with
        | infer m =>
          rw [hpc] at hhand
          rw [List.mem_singleton.mp hhand]
        | test | wait | clear | take | ended =>
          rw [hpc] at hhand
          cases hhand
      · exact Or.inl (Option.mem_toList.mp hslot)
  · exact Or.inr (Or.inr ⟨k, (hlater _ hk).1, (hlater _ hk).2, hk⟩)

/-- Two frames, and the thread takes the second: the first was replaced. -/
theorem newestFrame_kept_two :
    ∃ s, Transitions.run Observed.step .init
        [.run, .store (), .set, .run, .store (), .run, .run, .run] = some s ∧
      s.inferred = [1] ∧ s.replaced = [(0, 1)] ∧
      Watched s.detector ∧ s.inferred.Pairwise (· < ·) ∧
      ∀ n < s.stored, n ∉ s.inferred →
        s.detector.latestFrame = some n ∨ s.detector.pc = .infer n ∨
          ∃ k, n < k ∧ k < s.stored ∧ (n, k) ∈ s.replaced := by
  have hrun : Transitions.run Observed.step .init
      [.run, .store (), .set, .run, .store (), .run, .run, .run] = some _ := rfl
  exact ⟨_, hrun, rfl, rfl, newestFrame_kept hrun⟩

end KartStack.YoloDetector
