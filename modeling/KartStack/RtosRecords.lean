import KartStack.RtosFlags

/-! # What is recorded and what runs

`KM_RTOS_AddTask` puts the defaults for a stack size or a priority of zero into its
entry, and passes the zeros on to `xTaskCreate`.  `KM_RTOS_RestartTask` creates a
task from its entry, where `KM_RTOS_ChangePriority` may have written the priority
zero.  And `KM_RTOS_ChangePriority` of `NULL` writes to the first free slot what
the scheduler does to the caller.

In runs without these, entry and scheduler have the same stack size and priority for
every live managed task (`records_match`).  Priorities are below the number the
scheduler is configured for.
-/
namespace KartStack.KmRtos
open Transitions

/-- An entry in use has a stack size; stack size and priority are those that the
scheduler has for its task. -/
def recordLaw : Law where
  entry task := task.stackSize ≠ 0
  pair task st := task.stackSize = st.stackSize ∧ task.priority = st.priority
  other _ := True

namespace Rtos

/-- The entries of the live managed tasks say what the scheduler runs. -/
def RecordsMatch (s : Rtos) : Prop :=
  ∀ h st i, s.live h = some st → st.param = some i →
    (s.tasks i).stackSize = st.stackSize ∧ (s.tasks i).priority = st.priority

end Rtos

/-- Tasks are created with a stack size and a priority, and a managed task changes its
own priority by its handle, or to what it is. -/
def Specified (s : Rtos) : Act → Prop
  | .call _ (.addTask task (some _)) =>
    s.freeSlot ≠ none → task.stackSize ≠ 0 ∧ task.priority ≠ 0
  | .call caller (.restartTask h (some _)) => Rtos.target caller h ≠ caller →
    ∀ i ∈ s.findTask h, (s.tasks i).priority ≠ 0
  | .call caller (.changePriority h newPriority) => h = 0 → s.freeSlot ≠ none →
    ∀ st ∈ s.live caller, st.param ≠ none → st.priority = newPriority.toUInt32
  | _ => True

instance decSpecified (s : Rtos) : ∀ a, Decidable (Specified s a)
  | .call _ (.addTask task (some _)) =>
    inferInstanceAs (Decidable (s.freeSlot ≠ none → task.stackSize ≠ 0 ∧ task.priority ≠ 0))
  | .call caller (.restartTask h (some _)) =>
    inferInstanceAs (Decidable (Rtos.target caller h ≠ caller →
      ∀ i ∈ s.findTask h, (s.tasks i).priority ≠ 0))
  | .call caller (.changePriority h newPriority) =>
    inferInstanceAs (Decidable (h = 0 → s.freeSlot ≠ none →
      ∀ st ∈ s.live caller, st.param ≠ none → st.priority = newPriority.toUInt32))
  | .call _ (.addTask _ none) | .call _ (.restartTask _ none) | .call _ (.deleteTask _)
  | .call _ (.suspendTask _) | .call _ (.resumeTask _) | .call _ .destroy | .start _
  | .leaveSuspend _ => isTrue trivial

/-- Where nothing is left to the defaults, entry and task are the same. -/
theorem recordLaw_creates {task : RtosTask} (hstack : task.stackSize ≠ 0)
    (hprio : task.priority ≠ 0) : recordLaw.Creates task := by
  intro i k
  refine ⟨?_, ?_, ?_⟩
  · simp [recordLaw, Rtos.stored, hstack]
  · simp [Rtos.stored, created, hstack]
  · simp [Rtos.stored, created, hprio]

/-- `KM_RTOS_ChangePriority`. -/
theorem records_changePriority {s : Rtos} (hs : s.Obeys recordLaw) {caller h : Handle}
    {newPriority : UInt8} (ha : Specified s (.call caller (.changePriority h newPriority))) :
    (s.changePriority caller h newPriority).1.Obeys recordLaw := by
  rcases Rtos.changePriority_cases caller h newPriority s with ⟨-, heq⟩ | ⟨i, hi, heq⟩ <;> rw [heq]
  · exact hs
  · have hih := Rtos.findTask_some hi
    by_cases h0 : h = 0
    · -- the slot is free, and the caller is meant
      subst h0
      have hfree : s.freeSlot ≠ none := by
        intro hn
        cases hn.symm.trans hi
      have hcaller := hs.modify (h := Rtos.target caller 0)
        (f := fun st => { st with priority := newPriority.toUInt32 }) (fun _ => rfl)
        (fun j st hst hj hp => ⟨hp.1, by
          have hparam : st.param = some j := (hs.filed j _ st hst).mp hj
          exact hp.2.trans (ha rfl hfree st hst (by simp [hparam]))⟩) fun _ _ => id
      refine hcaller.setSlot rfl rfl id fun st hst _ => ?_
      have hdead := hcaller.free_dead (i := i) hih
      cases hdead.symm.trans hst
    · have htarget : Rtos.target caller h = h := if_neg h0
      rw [htarget]
      exact hs.change hih (fun _ => rfl) hih rfl id fun st _ hp => ⟨hp.1, rfl⟩

/-- **One act.** -/
theorem records_step {s s' : Rtos} {a : Act} (hs : s.Obeys recordLaw)
    (ha : Filing s a ∧ Specified s a) (h : step s a = some s') : s'.Obeys recordLaw := by
  obtain ⟨hfile, hspec⟩ := ha
  refine obeys_step hs hfile ?_ h
  cases a with
  | call caller op =>
    cases op with
    | addTask task answer =>
      intro hne hfree
      obtain ⟨k, rfl⟩ := Option.ne_none_iff_exists'.mp hne
      obtain ⟨hstack, hprio⟩ := hspec hfree
      exact recordLaw_creates hstack hprio
    | deleteTask k => trivial
    | suspendTask k =>
      show (s.suspendTask caller k).1.Obeys recordLaw
      rcases Rtos.suspendTask_cases caller k s with
        ⟨-, heq⟩ | ⟨i, -, -, -, heq⟩ | ⟨i, hi, -, -, heq⟩ <;> rw [heq]
      · exact hs
      · exact hs.modify (fun _ => rfl) (fun _ _ _ _ => id) fun _ _ => id
      · exact hs.markInactive (Rtos.findTask_some hi) (fun _ => rfl) id fun _ _ => id
    | resumeTask k =>
      show (s.resumeTask k).1.Obeys recordLaw
      rcases Rtos.resumeTask_cases k s with ⟨-, heq⟩ | ⟨i, -, -, heq⟩ | ⟨i, hi, -, heq⟩ <;> rw [heq]
      · exact hs
      · exact hs
      · exact hs.change (Rtos.findTask_some hi) (fun _ => rfl) (Rtos.findTask_some hi) rfl id
          fun _ _ => id
    | restartTask k answer =>
      intro hne ht i hi
      obtain ⟨k', rfl⟩ := Option.ne_none_iff_exists'.mp hne
      have hused : (s.tasks i).handle ≠ 0 := by
        intro h0
        exact ht (if_pos ((Rtos.findTask_some hi).symm.trans h0))
      exact recordLaw_creates (hs.entry i hused) (hspec ht i hi)
    | changePriority k newPriority => exact records_changePriority hs hspec
    | destroy => trivial
  | start k => exact hs.modify (fun _ => rfl) (fun _ _ _ _ => id) fun _ _ => id
  | leaveSuspend k =>
    intro s' h
    simp only [step] at h
    split at h
    · obtain rfl := Option.some.inj h
      have hleft := hs.modify (h := k) (f := fun st => { st with pending := none })
        (fun _ => rfl) (fun _ _ _ _ => id) fun _ _ => id
      exact hleft.setSlot rfl rfl id fun _ _ => id
    · cases h

/-- **Entry and scheduler have the same stack size and priority** for every live
managed task, in every run in which tasks are created with both, no managed task
changes its priority as `NULL`, no handle kept by a slot is given again and no task
without a name is destroyed. -/
theorem records_match (others : Others) (acts : List Act) (s : Rtos)
    (hrun : run step (init others) acts = some s)
    (hok : Along step (fun s a => Filing s a ∧ Specified s a) (init others) acts) :
    s.RecordsMatch := by
  have hstep : ∀ s a s', Rtos.Obeys recordLaw s → Filing s a ∧ Specified s a →
      step s a = some s' → Rtos.Obeys recordLaw s' := fun s a s' hs ha h => records_step hs ha h
  have hinit : (init others).Obeys recordLaw := obeys_init others fun _ _ _ => trivial
  have hs := inv_of_along hstep hinit hok hrun
  exact fun h st i => hs.pair i h st

/-- A task is added with its stack size and priority, changed and restarted. -/
def specified : List Act :=
  [.call 1 (.addTask ⟨0, some "control", some 7, 0, 10, 4096, 5, 0⟩ (some 2)), .start 2,
    .call 1 (.changePriority 2 9), .call 1 (.restartTask 2 (some 3))]

theorem specified_matches :
    ∃ s, run step (init mainTask) specified = some s ∧ s.RecordsMatch := by
  obtain ⟨s, hs⟩ : ∃ s, run step (init mainTask) specified = some s :=
    Option.isSome_iff_exists.mp (by decide +kernel)
  exact ⟨s, hs, records_match mainTask specified s hs (by decide +kernel)⟩

/-- A task is added with the default stack size and priority: its entry has 1024 and
1, its stack and its priority are zero. -/
theorem defaults_not_passed : ¬ ∀ (others : Others) (acts : List Act) (s : Rtos),
    run step (init others) acts = some s → s.RecordsMatch := by
  intro hall
  obtain ⟨s, hs⟩ : ∃ s, run step (init mainTask) (orderly.take 1) = some s :=
    Option.isSome_iff_exists.mp (by decide +kernel)
  have hadded : ∀ s ∈ run step (init mainTask) (orderly.take 1),
      (s.tasks firstSlot).stackSize = 1024 ∧
        s.live 2 = some ⟨some firstSlot, 0, 0, false, false, none⟩ := by
    decide +kernel
  obtain ⟨hstack, hlive⟩ := hadded s hs
  have hmatch := hall mainTask (orderly.take 1) s hs
  obtain ⟨hsize, -⟩ := hmatch 2 _ firstSlot hlive rfl
  rw [hstack] at hsize
  cases hsize

end KartStack.KmRtos
