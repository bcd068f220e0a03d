import KartStack.RtosLaws

/-! # The active flag

`KM_RTOS_SuspendTask` clears the flag of an entry behind `vTaskSuspend`.  Where the
task suspends itself that is too late: while it is suspended its flag is still set,
so `KM_RTOS_ResumeTask` takes it for active and refuses, and no call brings it back
(`resumeTask_self_suspended`).

In runs in which no managed task does that, the flag of a managed task says whether
it is suspended, and a suspended one can be resumed (`flags_right`).
-/
namespace KartStack.KmRtos
open Transitions

/-- The flag of a managed task is 1 or 0 as it is not or is suspended, and it is not
inside `KM_RTOS_SuspendTask`; a task that is not managed does not get out of there. -/
def flagLaw : Law where
  entry _ := True
  pair task st := task.active = (if st.suspended then 0 else 1) ∧ st.pending = none
  other st := st.pending ≠ none → st.suspended = true

namespace Rtos

/-- The flags of the managed tasks are right. -/
def FlagsRight (s : Rtos) : Prop :=
  ∀ h st i, s.live h = some st → st.param = some i →
    ((s.tasks i).active = 1 ↔ st.suspended = false)

/-- `KM_RTOS_ResumeTask` resumes every managed task that is suspended. -/
def Resumable (s : Rtos) : Prop :=
  ∀ h st, s.live h = some st → st.param ≠ none → st.suspended = true →
    (s.resumeTask h).2 = .ok ∧
      ∃ st', (s.resumeTask h).1.live h = some st' ∧ st'.suspended = false

theorem Obeys.flagsRight {s : Rtos} (hs : s.Obeys flagLaw) : s.FlagsRight := by
  intro h st i hst hp
  obtain ⟨hactive, -⟩ := hs.pair i h st hst hp
  rw [hactive]
  cases st.suspended <;> decide

theorem Obeys.resumable {s : Rtos} (hs : s.Obeys flagLaw) : s.Resumable := by
  intro h st hst hp hsusp
  obtain ⟨i, hi⟩ := Option.ne_none_iff_exists'.mp hp
  have hfind := hs.findTask hst hi
  obtain ⟨hactive, -⟩ := hs.pair i h st hst hi
  rw [hsusp, if_pos rfl] at hactive
  rcases resumeTask_cases h s with ⟨hn, -⟩ | ⟨j, hj, hne, -⟩ | ⟨j, hj, -, heq⟩
  · rw [hfind] at hn
    cases hn
  · obtain rfl := Option.some.inj (hfind.symm.trans hj)
    exact absurd hactive hne
  · rw [heq]
    exact ⟨rfl, { st with suspended := false }, by simp [Rtos.setSlot, Rtos.modify, hst], rfl⟩

/-- **A managed task that suspends itself** cannot be resumed. -/
theorem resumeTask_self_suspended {s : Rtos} (hs : s.Obeys flagLaw) {h : Handle} {st : TaskState}
    {i : Slot} (hst : s.live h = some st) (hp : st.param = some i) (hrun : st.suspended = false) :
    (s.suspendTask h h).2 = none ∧ ¬ (s.suspendTask h h).1.FlagsRight ∧
      (s.suspendTask h h).1.resumeTask h = ((s.suspendTask h h).1, .fail) := by
  have hfind := hs.findTask hst hp
  obtain ⟨hactive, -⟩ := hs.pair i h st hst hp
  rw [hrun, if_neg Bool.false_ne_true] at hactive
  have h0 : h ≠ 0 := by
    rintro rfl
    cases hs.null.symm.trans hst
  rcases suspendTask_cases h h s with ⟨hin, -⟩ | ⟨j, hj, -, -, heq⟩ | ⟨j, -, -, ht, -⟩
  · have := hin i hfind
    rw [hactive] at this
    cases this
  · obtain rfl := Option.some.inj (hfind.symm.trans hj)
    rw [heq]
    refine ⟨rfl, fun hright => ?_, ?_⟩
    · have hset := (hright h { st with suspended := true, pending := some i } i
        (by simp [Rtos.modify, hst]) hp).mp hactive
      cases hset
    · obtain ⟨hn, -⟩ | ⟨-, -, -, hfail⟩ | ⟨j, hj', hz, -⟩ := resumeTask_cases h
        (s.modify h fun st => { st with suspended := true, pending := some i })
      · exact absurd (findTask_some hfind) (findTask_none.mp hn i)
      · exact hfail
      · obtain rfl := Option.some.inj (hfind.symm.trans hj')
        have hz : (s.tasks i).active = 0 := hz
        rw [hactive] at hz
        cases hz
  · exact absurd (if_neg h0) ht

end Rtos

/-! ## Runs -/

/-- No managed task suspends itself. -/
def Awake (s : Rtos) : Act → Prop
  | .call caller (.suspendTask h) => Rtos.target caller h = caller →
      ∀ i ∈ s.findTask h, (s.tasks i).active ≠ 0 → ¬ s.Managed caller
  | _ => True

instance decAwake (s : Rtos) : ∀ a, Decidable (Awake s a)
  | .call caller (.suspendTask h) => inferInstanceAs (Decidable (Rtos.target caller h = caller →
      ∀ i ∈ s.findTask h, (s.tasks i).active ≠ 0 → ¬ s.Managed caller))
  | .call _ (.addTask _ _) | .call _ (.deleteTask _) | .call _ (.resumeTask _)
  | .call _ (.restartTask _ _) | .call _ (.changePriority _ _) | .call _ .destroy | .start _
  | .leaveSuspend _ => isTrue trivial

theorem flagLaw_creates (task : RtosTask) : flagLaw.Creates task :=
  fun _ _ => ⟨trivial, rfl, rfl⟩

/-- `KM_RTOS_SuspendTask`, other than of a managed task by itself. -/
theorem flags_suspendTask {s : Rtos} (hs : s.Obeys flagLaw) {caller h : Handle}
    (ha : Awake s (.call caller (.suspendTask h))) :
    (s.suspendTask caller h).1.Obeys flagLaw := by
  obtain ⟨-, heq⟩ | ⟨i, hi, hactive, ht, heq⟩ | ⟨i, hi, -, -, heq⟩ :=
    Rtos.suspendTask_cases caller h s <;> rw [heq]
  · exact hs
  · -- the caller is not managed, so it is in no slot
    refine hs.modify (fun _ => rfl) (fun j st hst hj _ => ?_) fun _ _ _ _ => rfl
    have hp : st.param = some j := (hs.filed j caller st hst).mp hj
    exact absurd ⟨st, hst, by simp [hp]⟩ (ha ht i hi hactive)
  · exact hs.markInactive (Rtos.findTask_some hi) (fun _ => rfl) id
      fun st _ hp => ⟨rfl, hp.2⟩

/-- **One act.** -/
theorem flags_step {s s' : Rtos} {a : Act} (hs : s.Obeys flagLaw)
    (ha : Filing s a ∧ Awake s a) (h : step s a = some s') : s'.Obeys flagLaw := by
  obtain ⟨hfile, hawake⟩ := ha
  refine obeys_step hs hfile ?_ h
  cases a with
  | call caller op =>
    cases op with
    | addTask task answer => exact fun _ _ => flagLaw_creates task
    | deleteTask k => trivial
    | suspendTask k => exact flags_suspendTask hs hawake
    | resumeTask k =>
      show (s.resumeTask k).1.Obeys flagLaw
      rcases Rtos.resumeTask_cases k s with ⟨-, heq⟩ | ⟨i, -, -, heq⟩ | ⟨i, hi, -, heq⟩ <;> rw [heq]
      · exact hs
      · exact hs
      · exact hs.change (Rtos.findTask_some hi) (fun _ => rfl) (Rtos.findTask_some hi) rfl id
          fun st _ hp => ⟨rfl, hp.2⟩
    | restartTask k answer => exact fun _ _ i _ => flagLaw_creates (s.tasks i)
    | changePriority k newPriority =>
      show (s.changePriority caller k newPriority).1.Obeys flagLaw
      rcases Rtos.changePriority_cases caller k newPriority s with
        ⟨-, heq⟩ | ⟨i, -, heq⟩ <;> rw [heq]
      · exact hs
      · have hset := hs.modify (h := Rtos.target caller k)
          (f := fun st => { st with priority := newPriority.toUInt32 }) (fun _ => rfl)
          (fun _ _ _ _ => id) fun _ _ => id
        exact hset.setSlot rfl rfl id fun _ _ => id
    | destroy => trivial
  | start k => exact hs.modify (fun _ => rfl) (fun _ _ _ _ => id) fun _ _ => id
  | leaveSuspend k =>
    -- no task is inside `KM_RTOS_SuspendTask` and not suspended
    intro s' h
    simp only [step] at h
    split at h
    · rename_i p _ _ _ i hl
      cases p with
      | none =>
        have := hs.other k _ hl rfl (by simp)
        cases this
      | some j =>
        have := (hs.pair j k _ hl rfl).2
        cases this
    · cases h

/-- The tasks that there are when the table is initialised: none is inside
`KM_RTOS_SuspendTask`. -/
structure Startup extends Others where
  outside : ∀ h st, live h = some st → st.pending = none

/-- The handles passed are those of managed tasks. -/
def OfManaged (s : Rtos) : Act → Prop
  | .call _ (.deleteTask h) | .call _ (.suspendTask h) | .call _ (.resumeTask h)
  | .call _ (.restartTask h _) | .call _ (.changePriority h _) => s.Managed h
  | _ => True

instance decOfManaged (s : Rtos) : ∀ a, Decidable (OfManaged s a)
  | .call _ (.deleteTask h) | .call _ (.suspendTask h) | .call _ (.resumeTask h)
  | .call _ (.restartTask h _) | .call _ (.changePriority h _) =>
    inferInstanceAs (Decidable (s.Managed h))
  | .call _ (.addTask _ _) | .call _ .destroy | .start _ | .leaveSuspend _ => isTrue trivial

/-- **The flag is 1 exactly while the task is not suspended**, and a suspended task can
be resumed, in every run in which no managed task suspends itself, no handle kept by
a slot is given again and no task without a name is destroyed. -/
theorem flags_right (startup : Startup) (acts : List Act) (s : Rtos)
    (hrun : run step (init startup.toOthers) acts = some s)
    (hok : Along step (fun s a => Filing s a ∧ Awake s a) (init startup.toOthers) acts) :
    s.FlagsRight ∧ s.Resumable := by
  have hstep : ∀ s a s', Rtos.Obeys flagLaw s → Filing s a ∧ Awake s a → step s a = some s' →
      Rtos.Obeys flagLaw s' := fun s a s' hs ha h => flags_step hs ha h
  have hinit : (init startup.toOthers).Obeys flagLaw :=
    obeys_init startup.toOthers fun h st hst hne => absurd (startup.outside h st hst) hne
  have hs := inv_of_along hstep hinit hok hrun
  exact ⟨hs.flagsRight, hs.resumable⟩

/-- `app_main`, in its own code. -/
def mainStartup : Startup where
  toOthers := mainTask
  outside h st hst := by
    by_cases h1 : h = 1
    · obtain rfl : _ = st := Option.some.inj ((if_pos h1).symm.trans hst)
      rfl
    · cases (if_neg h1).symm.trans hst

/-- Two tasks are added and suspended, and the second one is resumed. -/
def halted : List Act :=
  [.call 1 (.addTask ⟨0, some "control", some 7, 0, 10, 0, 0, 0⟩ (some 2)), .start 2,
    .call 2 (.addTask ⟨0, some "heartbeat", some 8, 0, 10, 0, 0, 0⟩ (some 3)), .start 3,
    .call 3 (.suspendTask 2), .call 1 (.suspendTask 3), .call 1 (.resumeTask 3)]

/-- Both are managed then, and the first one is suspended. -/
theorem flags_right_halted :
    ∃ s, run step (init mainTask) halted = some s ∧
      (∃ st, s.live 2 = some st ∧ st.param ≠ none ∧ st.suspended = true) ∧
      (∃ st, s.live 3 = some st ∧ st.param ≠ none ∧ st.suspended = false) ∧
      s.FlagsRight ∧ s.Resumable := by
  obtain ⟨s, hs⟩ : ∃ s, run step (init mainTask) halted = some s :=
    Option.isSome_iff_exists.mp (by decide +kernel)
  have hlive : ∀ s ∈ run step (init mainTask) halted,
      (∃ st ∈ s.live 2, st.param ≠ none ∧ st.suspended = true) ∧
        ∃ st ∈ s.live 3, st.param ≠ none ∧ st.suspended = false := by
    decide +kernel
  exact ⟨s, hs, (hlive s hs).1, (hlive s hs).2,
    flags_right mainStartup halted s hs (by decide +kernel)⟩

/-- The slot the first task gets. -/
def firstSlot : Slot := ⟨0, by decide⟩

/-- A managed task starts and suspends itself. -/
def selfSuspended : List Act :=
  [.call 1 (.addTask ⟨0, some "control", some 7, 0, 10, 0, 0, 0⟩ (some 2)), .start 2,
    .call 2 (.suspendTask 2)]

/-- It is suspended, its flag is set and it is not resumed. -/
theorem selfSuspended_stays : ¬ ∀ (startup : Startup) (acts : List Act) (s : Rtos),
    run step (init startup.toOthers) acts = some s →
    Along step OfManaged (init startup.toOthers) acts → s.FlagsRight ∧ s.Resumable := by
  intro hall
  obtain ⟨s, hs⟩ : ∃ s, run step (init mainTask) selfSuspended = some s :=
    Option.isSome_iff_exists.mp (by decide +kernel)
  have hflag : ∀ s ∈ run step (init mainTask) selfSuspended,
      (s.tasks firstSlot).active = 1 ∧
        s.live 2 = some ⟨some firstSlot, 0, 0, true, true, some firstSlot⟩ := by
    decide +kernel
  obtain ⟨hset, hlive⟩ := hflag s hs
  obtain ⟨hright, -⟩ := hall mainStartup selfSuspended s hs (by decide +kernel)
  exact Bool.noConfusion ((hright 2 _ firstSlot hlive rfl).mp hset)

end KartStack.KmRtos
