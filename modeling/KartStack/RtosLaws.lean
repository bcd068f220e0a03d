import KartStack.RtosAgrees

/-! # What holds between an entry and its task

A law says something of every entry in use, of every pair of a live managed task and
its entry, and of the live tasks that are not managed.  `Obeys` is that law together
with the part of `Sound` that also survives a managed task deleting itself: the
tasks alive are in the slots they were given, while a slot may keep the handle of a
task that is gone.

Whatever law it is, deleting tasks keeps it, and so does adding one, provided the
new entry and the new task obey it and `xTaskCreate` does not answer a handle that a
slot has kept (`Obeys.addTask`).  Only `KM_RTOS_Destroy` of a task without a name
parts a task from its entry (`Obeys.destroy`).
-/
namespace KartStack.KmRtos

/-- What should hold of entries and tasks. -/
structure Law where
  entry : RtosTask → Prop
  pair : RtosTask → TaskState → Prop
  other : TaskState → Prop

/-- The scheduler's state of a task that has just been created for a slot. -/
def created (task : RtosTask) (i : Slot) : TaskState :=
  ⟨some i, task.stackSize, task.priority, false, false, none⟩

/-- The law holds of an entry `KM_RTOS_AddTask` writes and of the task it creates. -/
def Law.Creates (law : Law) (task : RtosTask) : Prop :=
  ∀ i k, law.entry { Rtos.stored task with handle := k } ∧
    law.pair { Rtos.stored task with handle := k } (created task i)

namespace Rtos

/-- The live tasks are where they belong, and the law holds. -/
structure Obeys (law : Law) (s : Rtos) : Prop where
  null : s.live 0 = none
  filed : ∀ i h st, s.live h = some st → ((s.tasks i).handle = h ↔ st.param = some i)
  unnamed : ∀ i, (s.tasks i).handle = 0 → (s.tasks i).name = none
  entry : ∀ i, (s.tasks i).handle ≠ 0 → law.entry (s.tasks i)
  pair : ∀ i h st, s.live h = some st → st.param = some i → law.pair (s.tasks i) st
  other : ∀ h st, s.live h = some st → st.param = none → law.other st

section
variable {law : Law} {s s' : Rtos}

/-- A free slot is no live task's. -/
theorem Obeys.free_dead (hs : s.Obeys law) {i : Slot} (hi : (s.tasks i).handle = 0) :
    s.live (s.tasks i).handle = none := by
  rw [hi, hs.null]

/-- A live managed task is found in its slot. -/
theorem Obeys.findTask (hs : s.Obeys law) {h : Handle} {st : TaskState} {i : Slot}
    (hl : s.live h = some st) (hp : st.param = some i) : s.findTask h = some i := by
  have hi : (s.tasks i).handle = h := (hs.filed i h st hl).mpr hp
  cases hf : s.findTask h with
  | none => exact absurd hi (findTask_none.mp hf i)
  | some j =>
    have hj := (hs.filed j h st hl).mp (findTask_some hf)
    rw [hp] at hj
    exact hj.symm

/-- Tasks may go. -/
theorem Obeys.shrink (hs : s.Obeys law) (htasks : s'.tasks = s.tasks)
    (hlive : ∀ h st, s'.live h = some st → s.live h = some st) : s'.Obeys law where
  null := Option.eq_none_iff_forall_ne_some.mpr fun st hst => by
    have hnull := hlive 0 st hst
    rw [hs.null] at hnull
    cases hnull
  filed i h st hst := by rw [htasks]; exact hs.filed i h st (hlive h st hst)
  unnamed i hi := by rw [htasks] at hi ⊢; exact hs.unnamed i hi
  entry i hi := by rw [htasks] at hi ⊢; exact hs.entry i hi
  pair i h st hst hp := by rw [htasks]; exact hs.pair i h st (hlive h st hst) hp
  other h st hst := hs.other h st (hlive h st hst)

/-- Entries and tasks may change where they stand, as far as the law allows. -/
theorem Obeys.same (hs : s.Obeys law) (hsame : Same s s')
    (hentry : ∀ i, law.entry (s.tasks i) → law.entry (s'.tasks i))
    (hpair : ∀ i h st st', s.live h = some st → s'.live h = some st' →
      (s.tasks i).handle = h → law.pair (s.tasks i) st → law.pair (s'.tasks i) st')
    (hother : ∀ h st st', s.live h = some st → s'.live h = some st' → st.param = none →
      law.other st → law.other st') : s'.Obeys law := by
  -- a task alive now was alive before, with the same parameter
  have hbefore : ∀ h st', s'.live h = some st' →
      ∃ st, s.live h = some st ∧ st.param = st'.param := by
    intro h st' hst'
    have hp : s.params h = some st'.param := by
      rw [← hsame.params]
      exact params_eq_some.mpr ⟨st', hst', rfl⟩
    exact params_eq_some.mp hp
  refine ⟨?_, ?_, ?_, ?_, ?_, ?_⟩
  · refine Option.eq_none_iff_forall_ne_some.mpr fun st' hst' => ?_
    obtain ⟨st, hst, -⟩ := hbefore 0 st' hst'
    rw [hs.null] at hst
    cases hst
  · intro i h st' hst'
    obtain ⟨st, hst, hp⟩ := hbefore h st' hst'
    rw [hsame.handle, ← hp]
    exact hs.filed i h st hst
  · intro i hi
    rw [hsame.name]
    exact hs.unnamed i (by rwa [hsame.handle] at hi)
  · intro i hi
    rw [hsame.handle] at hi
    exact hentry i (hs.entry i hi)
  · intro i h st' hst' hp'
    obtain ⟨st, hst, hp⟩ := hbefore h st' hst'
    have hi : st.param = some i := hp.trans hp'
    exact hpair i h st st' hst hst' ((hs.filed i h st hst).mpr hi) (hs.pair i h st hst hi)
  · intro h st' hst' hp'
    obtain ⟨st, hst, hp⟩ := hbefore h st' hst'
    have hnone : st.param = none := hp.trans hp'
    exact hother h st st' hst hst' hnone (hs.other h st hst hnone)

/-! ## Deleting -/

theorem live_vTaskDelete {caller h k : Handle} {st : TaskState}
    (hl : (s.vTaskDelete caller h).1.live k = some st) : s.live k = some st := by
  by_cases hk : k = target caller h
  · subst hk
    simp [Rtos.vTaskDelete] at hl
  · simpa [Rtos.vTaskDelete, hk] using hl

theorem Obeys.vTaskDelete (hs : s.Obeys law) (caller h : Handle) :
    (s.vTaskDelete caller h).1.Obeys law :=
  hs.shrink rfl fun _ _ => live_vTaskDelete

/-- A slot whose task is gone can be cleared. -/
theorem Obeys.clear (hs : s.Obeys law) {i : Slot} (hdead : s.live (s.tasks i).handle = none) :
    (s.setSlot i .zero).Obeys law := by
  -- no live task is in the slot, before or after
  have hnot : ∀ h st, s.live h = some st → st.param ≠ some i := by
    intro h st hst hp
    have hi := (hs.filed i h st hst).mpr hp
    rw [hi, hst] at hdead
    cases hdead
  refine ⟨hs.null, ?_, ?_, ?_, ?_, hs.other⟩
  · intro j h st hst
    by_cases hj : j = i
    · subst hj
      rw [tasks_setSlot_self]
      refine iff_of_false (fun hz => ?_) (hnot h st hst)
      rw [← hz, RtosTask.zero] at hst
      cases hs.null.symm.trans hst
    · rw [tasks_setSlot_of_ne hj]
      exact hs.filed j h st hst
  · intro j hj
    by_cases hji : j = i
    · subst hji
      rw [tasks_setSlot_self]
      rfl
    · rw [tasks_setSlot_of_ne hji] at hj ⊢
      exact hs.unnamed j hj
  · intro j hj
    by_cases hji : j = i
    · subst hji
      rw [tasks_setSlot_self] at hj
      exact absurd rfl hj
    · rw [tasks_setSlot_of_ne hji] at hj ⊢
      exact hs.entry j hj
  · intro j h st hst hp
    have hji : j ≠ i := by
      rintro rfl
      exact hnot h st hst hp
    rw [tasks_setSlot_of_ne hji]
    exact hs.pair j h st hst hp

/-- **`KM_RTOS_DeleteTask`**, of any handle by any task. -/
theorem Obeys.deleteTask (hs : s.Obeys law) (caller h : Handle) :
    (s.deleteTask caller h).1.Obeys law := by
  rcases deleteTask_cases caller h s with ⟨-, heq⟩ | ⟨i, -, -, heq⟩ | ⟨i, hi, ht, heq⟩ <;> rw [heq]
  · exact hs
  · exact hs.vTaskDelete caller h
  · refine (hs.vTaskDelete caller h).clear ?_
    have htarget : target caller h = h := if_neg fun h0 => ht (if_pos h0)
    simp [Rtos.vTaskDelete, findTask_some hi, htarget]

theorem live_destroyLoop {caller : Handle} {is : List Slot} {s : Rtos} {k : Handle}
    {st : TaskState} (hl : (destroyLoop caller is s).1.live k = some st) :
    s.live k = some st := by
  induction is generalizing s with
  | nil => exact hl
  | cons i is ih =>
    rw [destroyLoop] at hl
    by_cases hn : (s.tasks i).name ≠ none
    · rw [if_pos hn] at hl
      by_cases hret : (s.vTaskDelete caller (s.tasks i).handle).2 = true
      · rw [if_pos hret] at hl
        exact live_vTaskDelete (ih hl)
      · rw [if_neg hret] at hl
        exact live_vTaskDelete hl
    · rw [if_neg hn] at hl
      exact ih hl

/-- The live tasks of the table have names. -/
def LiveNamed (s : Rtos) : Prop :=
  ∀ i, s.live (s.tasks i).handle ≠ none → (s.tasks i).name ≠ none

instance (s : Rtos) : Decidable s.LiveNamed := inferInstanceAs (Decidable (∀ _, _))

/-- **`KM_RTOS_Destroy`** of tasks that have names. -/
theorem Obeys.destroy (hs : s.Obeys law) (hnamed : s.LiveNamed) (caller : Handle) :
    (s.destroy caller).Obeys law := by
  have hloop : (destroyLoop caller (List.finRange maxTasks) s).1.Obeys law :=
    hs.shrink (destroyLoop_tasks caller _ s) fun _ _ => live_destroyLoop
  by_cases hleft : (destroyLoop caller (List.finRange maxTasks) s).2 = true
  · have hdestroy : s.destroy caller =
        { (destroyLoop caller (List.finRange maxTasks) s).1 with tasks := fun _ => .zero } := by
      simp [Rtos.destroy, hleft]
    -- the tasks left are in no slot
    have hnot : ∀ h st i, (s.destroy caller).live h = some st → st.param ≠ some i := by
      intro h st i hst hp
      rw [hdestroy] at hst
      have hi := (hs.filed i h st (live_destroyLoop hst)).mpr hp
      have hn : (s.tasks i).name ≠ none := by
        refine hnamed i ?_
        rw [hi, live_destroyLoop hst]
        exact Option.some_ne_none st
      have hgone := ((destroyLoop_params hleft h (some i)).mp
        (params_eq_some.mpr ⟨st, hst, hp⟩)).2 i (List.mem_finRange i) hn
      rw [hi, target] at hgone
      have h0 : h ≠ 0 := fun h0 => hn (hs.unnamed i (hi.trans h0))
      exact hgone (if_neg h0)
    have hnull : (s.destroy caller).live 0 = none := by
      rw [hdestroy]
      exact hloop.null
    refine ⟨hnull, ?_, ?_, ?_, ?_, ?_⟩
    · intro i h st hst
      refine iff_of_false (fun hz => ?_) (hnot h st i hst)
      rw [hdestroy] at hz
      rw [← hz] at hst
      cases hnull.symm.trans hst
    · intro i _
      rw [hdestroy]
      rfl
    · intro i hi
      rw [hdestroy] at hi
      exact absurd rfl hi
    · intro i h st hst hp
      exact absurd hp (hnot h st i hst)
    · intro h st hst hp
      rw [hdestroy] at hst
      exact hloop.other h st hst hp
  · have hdestroy : s.destroy caller = (destroyLoop caller (List.finRange maxTasks) s).1 := by
      simp [Rtos.destroy, hleft]
    rw [hdestroy]
    exact hloop

/-! ## Adding -/

/-- A free slot filled with a new task, whose handle no slot has kept. -/
theorem Obeys.fill (hs : s.Obeys law) {i : Slot} {k : Handle} {task : RtosTask} {st : TaskState}
    (hi : (s.tasks i).handle = 0) (hk : k ≠ 0) (hnew : ∀ j, (s.tasks j).handle ≠ k)
    (hh : task.handle = k) (hp : st.param = some i) (he : law.entry task)
    (hpair : law.pair task st) :
    Obeys law { s.setSlot i task with live := Function.update s.live k (some st) } := by
  -- the live tasks are the new one and those that were live
  have hlive : ∀ h st', Function.update s.live k (some st) h = some st' →
      (h = k ∧ st' = st) ∨ (h ≠ k ∧ s.live h = some st') := by
    intro h st' hst'
    by_cases hhk : h = k
    · subst hhk
      rw [Function.update_self] at hst'
      exact .inl ⟨rfl, (Option.some.inj hst').symm⟩
    · rw [Function.update_of_ne hhk] at hst'
      exact .inr ⟨hhk, hst'⟩
  -- a task that was live is not in the slot that was free
  have hfree : ∀ h st', s.live h = some st' → st'.param ≠ some i := by
    intro h st' hst' hp'
    have hih := (hs.filed i h st' hst').mpr hp'
    rw [← hih, hi, hs.null] at hst'
    cases hst'
  refine ⟨?_, ?_, ?_, ?_, ?_, ?_⟩
  · show Function.update s.live k (some st) 0 = none
    rw [Function.update_of_ne hk.symm, hs.null]
  · intro j h st' hst'
    show ((s.setSlot i task).tasks j).handle = h ↔ _
    rcases hlive h st' hst' with ⟨rfl, rfl⟩ | ⟨hhk, hold⟩
    · by_cases hj : j = i
      · subst hj
        rw [tasks_setSlot_self, hh, hp]
        exact iff_of_true rfl rfl
      · rw [tasks_setSlot_of_ne hj, hp]
        exact iff_of_false (hnew j) fun hij => hj (Option.some.inj hij).symm
    · by_cases hj : j = i
      · subst hj
        rw [tasks_setSlot_self, hh]
        exact iff_of_false (Ne.symm hhk) (hfree h st' hold)
      · rw [tasks_setSlot_of_ne hj]
        exact hs.filed j h st' hold
  · intro j hj
    have hj : ((s.setSlot i task).tasks j).handle = 0 := hj
    show ((s.setSlot i task).tasks j).name = none
    by_cases hji : j = i
    · subst hji
      rw [tasks_setSlot_self, hh] at hj
      exact absurd hj hk
    · rw [tasks_setSlot_of_ne hji] at hj ⊢
      exact hs.unnamed j hj
  · intro j hj
    have hj : ((s.setSlot i task).tasks j).handle ≠ 0 := hj
    show law.entry ((s.setSlot i task).tasks j)
    by_cases hji : j = i
    · subst hji
      rwa [tasks_setSlot_self]
    · rw [tasks_setSlot_of_ne hji] at hj ⊢
      exact hs.entry j hj
  · intro j h st' hst' hp'
    show law.pair ((s.setSlot i task).tasks j) st'
    rcases hlive h st' hst' with ⟨rfl, rfl⟩ | ⟨-, hold⟩
    · obtain rfl : i = j := Option.some.inj (hp.symm.trans hp')
      rwa [tasks_setSlot_self]
    · have hji : j ≠ i := by
        rintro rfl
        exact hfree h st' hold hp'
      rw [tasks_setSlot_of_ne hji]
      exact hs.pair j h st' hold hp'
  · intro h st' hst' hp'
    rcases hlive h st' hst' with ⟨rfl, rfl⟩ | ⟨-, hold⟩
    · rw [hp] at hp'
      cases hp'
    · exact hs.other h st' hold hp'

/-- What `KM_RTOS_AddTask` does. -/
theorem addTask_cases {task : RtosTask} {answer : Option Handle} {r : Rtos × EspErr}
    (hr : s.addTask task answer = some r) :
    (s.freeSlot = none ∧ r = (s, .fail)) ∨
    (∃ i, s.freeSlot = some i ∧ answer = none ∧ r = (s.setSlot i .zero, .fail)) ∨
    (∃ i k, s.freeSlot = some i ∧ answer = some k ∧ k ≠ 0 ∧ s.live k = none ∧
      r = ({ s.setSlot i { stored task with handle := k } with
        live := Function.update s.live k (some (created task i)) }, .ok)) := by
  unfold Rtos.addTask at hr
  cases hfree : s.freeSlot with
  | none =>
    rw [hfree] at hr
    exact .inl ⟨rfl, (Option.some.inj hr).symm⟩
  | some i =>
    rw [hfree] at hr
    cases answer with
    | none => exact .inr (.inl ⟨i, rfl, rfl, (Option.some.inj hr).symm⟩)
    | some k =>
      simp only at hr
      by_cases hk : k ≠ 0 ∧ s.live k = none
      · rw [if_pos hk] at hr
        exact .inr (.inr ⟨i, k, rfl, rfl, hk.1, hk.2, (Option.some.inj hr).symm⟩)
      · rw [if_neg hk] at hr
        cases hr

/-- **`KM_RTOS_AddTask`**, answered with a handle no slot has kept. -/
theorem Obeys.addTask (hs : s.Obeys law) {task : RtosTask} {answer : Option Handle}
    {r : Rtos × EspErr} (hr : s.addTask task answer = some r)
    (hnew : ∀ k, answer = some k → s.freeSlot ≠ none → ∀ j, (s.tasks j).handle ≠ k)
    (hlaw : answer ≠ none → s.freeSlot ≠ none → law.Creates task) : r.1.Obeys law := by
  rcases addTask_cases hr with ⟨-, rfl⟩ | ⟨i, hi, -, rfl⟩ | ⟨i, k, hi, rfl, hk, -, rfl⟩
  · exact hs
  · exact hs.clear (hs.free_dead (freeSlot_some hi))
  · have hfree : s.freeSlot ≠ none := by simp [hi]
    obtain ⟨he, hpair⟩ := hlaw (Option.some_ne_none k) hfree i k
    exact hs.fill (freeSlot_some hi) hk (hnew k rfl hfree) rfl rfl he hpair

/-- What `KM_RTOS_RestartTask` does: it fails at once, deletes its caller, or deletes
the task and adds the entry again. -/
theorem restartTask_cases {caller h : Handle} {answer : Option Handle}
    {r : Rtos × Option EspErr} (hr : s.restartTask caller h answer = some r) :
    (s.findTask h = none ∧ r = (s, some .fail)) ∨
    (∃ i, s.findTask h = some i ∧ target caller h = caller ∧
      r = ((s.vTaskDelete caller h).1, none)) ∨
    (∃ i r', s.findTask h = some i ∧ target caller h ≠ caller ∧
      ((s.vTaskDelete caller h).1.setSlot i .zero).addTask (s.tasks i) answer = some r' ∧
      r = (r'.1, some r'.2)) := by
  unfold Rtos.restartTask at hr
  rcases deleteTask_cases caller h s with ⟨hf, heq⟩ | ⟨i, hf, ht, heq⟩ | ⟨i, hf, ht, heq⟩
  · rw [hf] at hr
    exact .inl ⟨hf, (Option.some.inj hr).symm⟩
  · rw [hf, heq] at hr
    exact .inr (.inl ⟨i, hf, ht, (Option.some.inj hr).symm⟩)
  · rw [hf, heq] at hr
    obtain ⟨r', hadd, rfl⟩ := Option.map_eq_some_iff.mp hr
    exact .inr (.inr ⟨i, r', hf, ht, hadd, rfl⟩)

/-- **`KM_RTOS_RestartTask`**, answered with a handle no other slot has kept. -/
theorem Obeys.restartTask (hs : s.Obeys law) {caller h : Handle} {answer : Option Handle}
    {r : Rtos × Option EspErr} (hr : s.restartTask caller h answer = some r)
    (hnew : ∀ k, answer = some k → ∀ j, (s.tasks j).handle = k → s.findTask h = some j)
    (hlaw : answer ≠ none → target caller h ≠ caller → ∀ i, s.findTask h = some i →
      law.Creates (s.tasks i)) :
    r.1.Obeys law := by
  rcases restartTask_cases hr with ⟨-, rfl⟩ | ⟨i, -, -, rfl⟩ | ⟨i, r', hi, ht, hadd, rfl⟩
  · exact hs
  · exact hs.vTaskDelete caller h
  · have h0 : h ≠ 0 := fun h0 => ht (if_pos h0)
    have htarget : target caller h = h := if_neg h0
    have hcleared : ((s.vTaskDelete caller h).1.setSlot i .zero).Obeys law := by
      refine (hs.vTaskDelete caller h).clear ?_
      simp [Rtos.vTaskDelete, findTask_some hi, htarget]
    refine hcleared.addTask hadd (fun k hk hfree j hj => ?_) fun hne _ => hlaw hne ht i hi
    by_cases hji : j = i
    · -- the cleared slot holds no handle that can be answered
      subst hji
      have hk0 : k = 0 := by simpa [setSlot, RtosTask.zero] using hj.symm
      rcases addTask_cases hadd with ⟨hn, -⟩ | ⟨_, _, hn, -⟩ | ⟨_, k', _, hk', hne, -⟩
      · exact hfree hn
      · rw [hk] at hn
        cases hn
      · rw [hk] at hk'
        exact hne ((Option.some.inj hk').symm.trans hk0)
    · have hkept : (s.tasks j).handle = k := by simpa [setSlot, hji] using hj
      rw [hi] at hnew
      exact hji (Option.some.inj (hnew k hk j hkept)).symm

/-! ## Changing entries and tasks in place -/

/-- What `KM_RTOS_SuspendTask` does. -/
theorem suspendTask_cases (caller h : Handle) (s : Rtos) :
    ((∀ i, s.findTask h = some i → (s.tasks i).active = 0) ∧
      s.suspendTask caller h = (s, some .fail)) ∨
    (∃ i, s.findTask h = some i ∧ (s.tasks i).active ≠ 0 ∧ target caller h = caller ∧
      s.suspendTask caller h =
        (s.modify caller fun st => { st with suspended := true, pending := some i }, none)) ∨
    (∃ i, s.findTask h = some i ∧ (s.tasks i).active ≠ 0 ∧ target caller h ≠ caller ∧
      s.suspendTask caller h =
        ((s.modify h fun st => { st with suspended := true }).markInactive i, some .ok)) := by
  unfold suspendTask
  cases hf : s.findTask h with
  | none => exact .inl ⟨nofun, rfl⟩
  | some i =>
    simp only [findTask_some hf, true_and]
    by_cases ha : (s.tasks i).active = 0
    · refine .inl ⟨fun j hj => ?_, by simp [ha]⟩
      rwa [← Option.some.inj hj]
    · by_cases ht : target caller h = caller
      · exact .inr (.inl ⟨i, rfl, ha, ht, by simp [ha, ht]⟩)
      · exact .inr (.inr ⟨i, rfl, ha, ht, by simp [ha, ht]⟩)

/-- What `KM_RTOS_ResumeTask` does. -/
theorem resumeTask_cases (h : Handle) (s : Rtos) :
    (s.findTask h = none ∧ s.resumeTask h = (s, .ok)) ∨
    (∃ i, s.findTask h = some i ∧ (s.tasks i).active ≠ 0 ∧ s.resumeTask h = (s, .fail)) ∨
    (∃ i, s.findTask h = some i ∧ (s.tasks i).active = 0 ∧ s.resumeTask h =
      ((s.modify h fun st => { st with suspended := false }).setSlot i
        { s.tasks i with active := 1 }, .ok)) := by
  unfold resumeTask
  cases hf : s.findTask h with
  | none => exact .inl ⟨rfl, rfl⟩
  | some i =>
    by_cases ha : (s.tasks i).active = 0
    · refine .inr (.inr ⟨i, rfl, ha, ?_⟩)
      simp [findTask_some hf, ha, vTaskResume, Rtos.modify]
    · exact .inr (.inl ⟨i, rfl, ha, by simp [ha]⟩)

/-- What `KM_RTOS_ChangePriority` does. -/
theorem changePriority_cases (caller h : Handle) (newPriority : UInt8) (s : Rtos) :
    (s.findTask h = none ∧ s.changePriority caller h newPriority = (s, .fail)) ∨
    (∃ i, s.findTask h = some i ∧ s.changePriority caller h newPriority =
      ((s.modify (target caller h) fun st => { st with priority := newPriority.toUInt32 }).setSlot i
        { s.tasks i with priority := newPriority.toUInt32 }, .ok)) := by
  unfold changePriority
  cases hf : s.findTask h with
  | none => exact .inl ⟨rfl, rfl⟩
  | some i =>
    refine .inr ⟨i, rfl, ?_⟩
    simp [findTask_some hf, vTaskPrioritySet, Rtos.modify]

/-- A task and its entry change together. -/
theorem Obeys.change (hs : s.Obeys law) {h : Handle} {i : Slot} {f : TaskState → TaskState}
    {task : RtosTask} (hi : (s.tasks i).handle = h) (hf : ∀ st, (f st).param = st.param)
    (hh : task.handle = h) (hn : task.name = (s.tasks i).name)
    (hentry : law.entry (s.tasks i) → law.entry task)
    (hpair : ∀ st, s.live h = some st → law.pair (s.tasks i) st → law.pair task (f st)) :
    ((s.modify h f).setSlot i task).Obeys law := by
  have hslot : ∀ j, j ≠ i → ((s.modify h f).setSlot i task).tasks j = s.tasks j :=
    fun j hj => tasks_setSlot_of_ne hj
  have hlive : ((s.modify h f).setSlot i task).live = (s.modify h f).live := rfl
  refine hs.same ((Same.modify s h hf).trans (.setSlot _ i (hh.trans hi.symm) hn)) ?_ ?_ ?_
  · intro j he
    by_cases hj : j = i
    · subst hj
      rw [tasks_setSlot_self]
      exact hentry he
    · rwa [hslot j hj]
  · intro j k st st' hst hst' hjk hp
    rw [hlive] at hst'
    by_cases hk : k = h
    · subst hk
      -- a live task is in one slot only
      have hji : j = i := by
        have h₁ := (hs.filed j k st hst).mp hjk
        have h₂ := (hs.filed i k st hst).mp hi
        exact Option.some.inj (h₁.symm.trans h₂)
      subst hji
      obtain rfl : f st = st' := by simpa [modify, hst] using hst'
      rw [tasks_setSlot_self]
      exact hpair st hst hp
    · have hji : j ≠ i := by
        rintro rfl
        exact hk (hjk.symm.trans hi)
      obtain rfl : st = st' := by simpa [modify, hk, hst] using hst'
      rwa [hslot j hji]
  · intro k st st' hst hst' hp ho
    rw [hlive] at hst'
    by_cases hk : k = h
    · -- the task that changes is the slot's, so it is managed
      subst hk
      rw [(hs.filed i k st hst).mp hi] at hp
      cases hp
    · obtain rfl : st = st' := by simpa [modify, hk, hst] using hst'
      exact ho

/-- A task changes and its entry becomes inactive. -/
theorem Obeys.markInactive (hs : s.Obeys law) {h : Handle} {i : Slot}
    {f : TaskState → TaskState} (hi : (s.tasks i).handle = h) (hf : ∀ st, (f st).param = st.param)
    (hentry : law.entry (s.tasks i) → law.entry { s.tasks i with active := 0 })
    (hpair : ∀ st, s.live h = some st → law.pair (s.tasks i) st →
      law.pair { s.tasks i with active := 0 } (f st)) :
    ((s.modify h f).markInactive i).Obeys law :=
  hs.change hi hf hi rfl hentry hpair

/-- A task changes. -/
theorem Obeys.modify (hs : s.Obeys law) {h : Handle} {f : TaskState → TaskState}
    (hf : ∀ st, (f st).param = st.param)
    (hpair : ∀ i st, s.live h = some st → (s.tasks i).handle = h → law.pair (s.tasks i) st →
      law.pair (s.tasks i) (f st))
    (hother : ∀ st, s.live h = some st → law.other st → law.other (f st)) :
    (s.modify h f).Obeys law := by
  refine hs.same (.modify s h hf) (fun _ => id) ?_ ?_
  · intro i k st st' hst hst' hik hp
    by_cases hk : k = h
    · subst hk
      obtain rfl : f st = st' := by simpa [Rtos.modify, hst] using hst'
      exact hpair i st hst hik hp
    · obtain rfl : st = st' := by simpa [Rtos.modify, hk, hst] using hst'
      exact hp
  · intro k st st' hst hst' _ ho
    by_cases hk : k = h
    · subst hk
      obtain rfl : f st = st' := by simpa [Rtos.modify, hst] using hst'
      exact hother st hst ho
    · obtain rfl : st = st' := by simpa [Rtos.modify, hk, hst] using hst'
      exact ho

/-- An entry changes. -/
theorem Obeys.setSlot (hs : s.Obeys law) {i : Slot} {task : RtosTask}
    (hh : task.handle = (s.tasks i).handle) (hn : task.name = (s.tasks i).name)
    (hentry : law.entry (s.tasks i) → law.entry task)
    (hpair : ∀ st, s.live (s.tasks i).handle = some st → law.pair (s.tasks i) st →
      law.pair task st) : (s.setSlot i task).Obeys law := by
  refine hs.same (.setSlot s i hh hn) ?_ ?_ ?_
  · intro j he
    by_cases hj : j = i
    · subst hj
      rw [tasks_setSlot_self]
      exact hentry he
    · rwa [tasks_setSlot_of_ne hj]
  · intro j k st st' hst hst' hjk hp
    obtain rfl : st = st' := Option.some.inj (hst.symm.trans hst')
    by_cases hj : j = i
    · subst hj
      rw [tasks_setSlot_self]
      exact hpair st (hjk ▸ hst) hp
    · rwa [tasks_setSlot_of_ne hj]
  · intro k st st' hst hst' _ ho
    obtain rfl : st = st' := Option.some.inj (hst.symm.trans hst')
    exact ho

end

end Rtos

/-- The table is empty at first. -/
theorem obeys_init {law : Law} (others : Others)
    (hother : ∀ h st, others.live h = some st → law.other st) : (init others).Obeys law where
  null := others.null_dead
  filed i h st hst := by
    refine iff_of_false (fun hz => ?_) fun hp => ?_
    · rw [← hz] at hst
      cases others.null_dead.symm.trans hst
    · rw [others.unmanaged h st hst] at hp
      cases hp
  unnamed _ _ := rfl
  entry _ hi := absurd rfl hi
  pair i h st hst hp := by
    rw [others.unmanaged h st hst] at hp
    cases hp
  other h st hst _ := hother h st hst

/-! ## Acts -/

/-- `xTaskCreate` does not answer a handle that a slot has kept, and the tasks
destroyed have names. -/
def Filing (s : Rtos) : Act → Prop
  | .call _ (.addTask _ (some k)) => s.freeSlot ≠ none → ∀ j, (s.tasks j).handle ≠ k
  | .call _ (.restartTask h (some k)) => ∀ j, (s.tasks j).handle = k → s.findTask h = some j
  | .call _ .destroy => s.LiveNamed
  | _ => True

instance decFiling (s : Rtos) : ∀ a, Decidable (Filing s a)
  | .call _ (.addTask _ (some k)) =>
    inferInstanceAs (Decidable (s.freeSlot ≠ none → ∀ j, (s.tasks j).handle ≠ k))
  | .call _ (.restartTask h (some k)) =>
    inferInstanceAs (Decidable (∀ j, (s.tasks j).handle = k → s.findTask h = some j))
  | .call _ .destroy => inferInstanceAs (Decidable s.LiveNamed)
  | .call _ (.addTask _ none) | .call _ (.restartTask _ none) | .call _ (.deleteTask _)
  | .call _ (.suspendTask _) | .call _ (.resumeTask _) | .call _ (.changePriority _ _)
  | .start _ | .leaveSuspend _ => isTrue trivial

/-- What an act has to keep of a law, where it creates a task from an entry or changes
entries and tasks in place. -/
def Law.KeptBy (law : Law) (s : Rtos) : Act → Prop
  | .call _ (.addTask task answer) => answer ≠ none → s.freeSlot ≠ none → law.Creates task
  | .call caller (.restartTask h answer) => answer ≠ none → Rtos.target caller h ≠ caller →
    ∀ i, s.findTask h = some i → law.Creates (s.tasks i)
  | .call caller (.suspendTask h) => (s.suspendTask caller h).1.Obeys law
  | .call _ (.resumeTask h) => (s.resumeTask h).1.Obeys law
  | .call caller (.changePriority h newPriority) =>
    (s.changePriority caller h newPriority).1.Obeys law
  | .start h => (s.modify h fun st => { st with started := true }).Obeys law
  | .leaveSuspend h => ∀ s', step s (.leaveSuspend h) = some s' → s'.Obeys law
  | _ => True

/-- **One act** keeps a law that holds where it creates and changes. -/
theorem obeys_step {law : Law} {s s' : Rtos} {a : Act} (hs : s.Obeys law) (hfile : Filing s a)
    (hkept : law.KeptBy s a) (h : step s a = some s') : s'.Obeys law := by
  cases a with
  | call caller op =>
    have h := step_call h
    cases op with
    | addTask task answer =>
      obtain ⟨r, hr, rfl⟩ := Option.map_eq_some_iff.mp h
      refine hs.addTask hr ?_ hkept
      rintro k rfl
      exact hfile
    | deleteTask k =>
      obtain rfl := Option.some.inj h
      exact hs.deleteTask caller k
    | suspendTask k =>
      obtain rfl := Option.some.inj h
      exact hkept
    | resumeTask k =>
      obtain rfl := Option.some.inj h
      exact hkept
    | restartTask k answer =>
      obtain ⟨r, hr, rfl⟩ := Option.map_eq_some_iff.mp h
      refine hs.restartTask hr ?_ hkept
      rintro k' rfl
      exact hfile
    | changePriority k newPriority =>
      obtain rfl := Option.some.inj h
      exact hkept
    | destroy =>
      obtain rfl := Option.some.inj h
      exact hs.destroy hfile caller
  | start k =>
    simp only [step] at h
    split at h
    · split at h
      · obtain rfl := Option.some.inj h
        exact hs.vTaskDelete k 0
      · obtain rfl := Option.some.inj h
        exact hkept
    · cases h
  | leaveSuspend k => exact hkept s' h

end KartStack.KmRtos
