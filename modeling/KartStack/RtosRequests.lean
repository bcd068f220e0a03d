import KartStack.RtosRecords

/-! # What becomes of a request

The five operations on a handle should refuse a handle that is not a managed task's,
and change nothing then.  They look the handle up in the table: a free slot answers
to `NULL`, which for the scheduler is the caller, and a task that deleted itself
leaves its handle behind.  `KM_RTOS_ResumeTask` reports success for a handle it does
not find.  `rejects_iff` says for each operation when it refuses.

`KM_RTOS_RestartTask` should replace a task by an equal one or leave it alone.  It
deletes the task first, so where `xTaskCreate` fails the task is gone; and the new
one is active, with defaults where the entry had zeros
(`restartTask_allOrNothing_iff`).
-/
namespace KartStack.KmRtos
open Transitions

/-! ## Handles that are refused -/

/-- The operations on a handle. -/
inductive Request where
  | delete
  | suspend
  | resume
  | restart
  | changePriority (newPriority : UInt8)
  deriving DecidableEq, Repr

/-- The request is made: the state it leaves and what it returns, if it returns. -/
def Request.call (caller h : Handle) (answer : Option Handle) (s : Rtos) :
    Request → Option (Rtos × Option EspErr)
  | .delete => some (s.deleteTask caller h)
  | .suspend => some (s.suspendTask caller h)
  | .resume => some ((s.resumeTask h).1, some (s.resumeTask h).2)
  | .restart => s.restartTask caller h answer
  | .changePriority newPriority =>
    some ((s.changePriority caller h newPriority).1,
      some (s.changePriority caller h newPriority).2)

/-- Whatever `xTaskCreate` answers, the request returns `ESP_FAIL` and changes nothing. -/
def Rejects (s : Rtos) (caller h : Handle) (request : Request) : Prop :=
  ∀ answer r, request.call caller h answer s = some r → r = (s, some .fail)

/-- The lookup comes to an end at which the operation fails. -/
def Refuses (s : Rtos) (h : Handle) : Request → Prop
  | .suspend => ∀ i, s.findTask h = some i → (s.tasks i).active = 0
  | .resume => ∃ i, s.findTask h = some i ∧ (s.tasks i).active ≠ 0
  | .delete | .restart | .changePriority _ => s.findTask h = none

namespace Rtos

/-- `KM_RTOS_RestartTask` of a task that is found and is not the caller. -/
theorem restartTask_eq {s : Rtos} {caller h : Handle} {i : Slot} (hi : s.findTask h = some i)
    (ht : target caller h ≠ caller) (answer : Option Handle) :
    s.restartTask caller h answer =
      (((s.vTaskDelete caller h).1.setSlot i .zero).addTask (s.tasks i) answer).map
        fun r => (r.1, some r.2) := by
  rcases deleteTask_cases caller h s with ⟨hn, -⟩ | ⟨_, -, hc, -⟩ | ⟨j, hj, -, heq⟩
  · cases hn.symm.trans hi
  · exact absurd hc ht
  · obtain rfl := Option.some.inj (hi.symm.trans hj)
    simp only [restartTask, hi, heq]

/-- Where `xTaskCreate` fails no task is added, and a free slot stays free. -/
theorem addTask_none (s : Rtos) (task : RtosTask) :
    ∃ s', s.addTask task none = some (s', .fail) ∧ s'.live = s.live ∧
      ∀ i, (s.tasks i).handle = 0 → (s'.tasks i).handle = 0 := by
  cases hfree : s.freeSlot with
  | none => exact ⟨s, by simp [addTask, hfree], rfl, fun _ => id⟩
  | some j =>
    refine ⟨s.setSlot j .zero, by simp [addTask, hfree], rfl, fun i hi => ?_⟩
    by_cases hji : i = j
    · subst hji
      simp [setSlot, RtosTask.zero]
    · simpa [setSlot, hji] using hi

/-- A task restarted while `xTaskCreate` fails is gone. -/
theorem restartTask_lost {s : Rtos} {caller h : Handle} {i : Slot} (hi : s.findTask h = some i)
    (ht : target caller h ≠ caller) :
    ∃ s', s.restartTask caller h none = some (s', some .fail) ∧ s'.live h = none ∧
      (s'.tasks i).handle = 0 := by
  have htarget : target caller h = h := if_neg fun h0 => ht (if_pos h0)
  obtain ⟨s', hadd, hlive, hfree⟩ :=
    addTask_none ((s.vTaskDelete caller h).1.setSlot i .zero) (s.tasks i)
  refine ⟨s', by rw [restartTask_eq hi ht, hadd]; rfl, ?_, hfree i ?_⟩
  · rw [hlive]
    simp [setSlot, vTaskDelete, htarget]
  · simp [setSlot, RtosTask.zero]

end Rtos

theorem rejects_of_refuses {s : Rtos} {h : Handle} {request : Request}
    (href : Refuses s h request) (caller : Handle) : Rejects s caller h request := by
  intro answer r hr
  cases request with
  | delete =>
    obtain rfl := Option.some.inj hr
    rcases Rtos.deleteTask_cases caller h s with ⟨-, heq⟩ | ⟨i, hi, -, -⟩ | ⟨i, hi, -, -⟩
    · exact heq
    · cases href.symm.trans hi
    · cases href.symm.trans hi
  | suspend =>
    obtain rfl := Option.some.inj hr
    rcases Rtos.suspendTask_cases caller h s with ⟨-, heq⟩ | ⟨i, hi, ha, -, -⟩ | ⟨i, hi, ha, -, -⟩
    · exact heq
    · exact absurd (href i hi) ha
    · exact absurd (href i hi) ha
  | resume =>
    obtain rfl := Option.some.inj hr
    obtain ⟨i, hi, ha⟩ := href
    rcases Rtos.resumeTask_cases h s with ⟨hn, -⟩ | ⟨j, -, -, heq⟩ | ⟨j, hj, hz, -⟩
    · cases hn.symm.trans hi
    · rw [heq]
    · obtain rfl := Option.some.inj (hi.symm.trans hj)
      exact absurd hz ha
  | restart =>
    rcases Rtos.restartTask_cases hr with ⟨-, rfl⟩ | ⟨i, hi, -, -⟩ | ⟨i, _, hi, -, -, -⟩
    · rfl
    · cases href.symm.trans hi
    · cases href.symm.trans hi
  | changePriority newPriority =>
    obtain rfl := Option.some.inj hr
    rcases Rtos.changePriority_cases caller h newPriority s with ⟨-, heq⟩ | ⟨i, hi, -⟩
    · rw [heq]
    · cases href.symm.trans hi

theorem refuses_of_rejects {s : Rtos} {caller h : Handle} {request : Request}
    (hrej : Rejects s caller h request) : Refuses s h request := by
  cases request with
  | delete =>
    have hres := congrArg Prod.snd (hrej none _ rfl)
    rcases Rtos.deleteTask_cases caller h s with ⟨hn, -⟩ | ⟨i, -, -, heq⟩ | ⟨i, -, -, heq⟩
    · exact hn
    · rw [heq] at hres
      cases hres
    · rw [heq] at hres
      cases hres
  | suspend =>
    have hres := congrArg Prod.snd (hrej none _ rfl)
    rcases Rtos.suspendTask_cases caller h s with ⟨hin, -⟩ | ⟨i, -, -, -, heq⟩ | ⟨i, -, -, -, heq⟩
    · exact hin
    · rw [heq] at hres
      cases hres
    · rw [heq] at hres
      cases hres
  | resume =>
    have hres := congrArg Prod.snd (hrej none _ rfl)
    rcases Rtos.resumeTask_cases h s with ⟨-, heq⟩ | ⟨i, hi, ha, -⟩ | ⟨i, -, -, heq⟩
    · rw [heq] at hres
      cases hres
    · exact ⟨i, hi, ha⟩
    · rw [heq] at hres
      cases hres
  | restart =>
    by_contra hfound
    obtain ⟨i, hi⟩ := Option.ne_none_iff_exists'.mp hfound
    by_cases ht : Rtos.target caller h = caller
    · -- the deletion of the caller does not return
      rcases Rtos.deleteTask_cases caller h s with ⟨hn, -⟩ | ⟨_, -, -, heq⟩ | ⟨_, -, hne, -⟩
      · cases hn.symm.trans hi
      · have hres := hrej none ((s.vTaskDelete caller h).1, none) (by
          simp only [Request.call, Rtos.restartTask, hi, heq])
        cases congrArg Prod.snd hres
      · exact hne ht
    · obtain ⟨s', hs', -, hzero⟩ := Rtos.restartTask_lost hi ht
      obtain rfl : s' = s := congrArg Prod.fst (hrej none _ hs')
      rw [Rtos.findTask_some hi] at hzero
      exact ht (if_pos hzero)
  | changePriority newPriority =>
    have hres := congrArg Prod.snd (hrej none _ rfl)
    rcases Rtos.changePriority_cases caller h newPriority s with ⟨hn, -⟩ | ⟨i, -, heq⟩
    · exact hn
    · rw [heq] at hres
      cases hres

/-- **A handle is refused**, and nothing changes, exactly if it is in no slot; by
`KM_RTOS_SuspendTask` also if the first slot with it is inactive, and by
`KM_RTOS_ResumeTask` exactly if there is a first slot with it and it is active. -/
theorem rejects_iff (s : Rtos) (caller h : Handle) (request : Request) :
    Rejects s caller h request ↔ Refuses s h request :=
  ⟨refuses_of_rejects, fun href => rejects_of_refuses href caller⟩

/-- With the table empty, `KM_RTOS_DeleteTask` of `NULL` deletes the caller. -/
theorem null_not_rejected : ¬ ∀ (others : Others) (acts : List Act) (s : Rtos)
    (caller h : Handle) (request : Request), run step (init others) acts = some s →
    ¬ s.Managed h → Rejects s caller h request := by
  intro hall
  have hrej := hall mainTask [] (init mainTask) 1 0 .delete rfl (by decide) none _ rfl
  have hgone : ((init mainTask).deleteTask 1 0).2 = none := by decide +kernel
  rw [hrej] at hgone
  cases hgone

/-! ## Restarting -/

/-- The task `h` of slot `i` is replaced by the task `k` of slot `j`: the same entry
and the same scheduling, in a slot that was free or its own, and nothing else
changes. -/
structure ReplacedBy (s s' : Rtos) (h : Handle) (i : Slot) (st : TaskState) (k : Handle)
    (j : Slot) (st' : TaskState) : Prop where
  slot : j = i ∨ (s.tasks j).handle = 0
  fresh : k = h ∨ s.live k = none
  entry : s'.tasks j = { s.tasks i with handle := k }
  live : s'.live k = some st'
  param : st'.param = some j
  stackSize : st'.stackSize = st.stackSize
  priority : st'.priority = st.priority
  suspended : st'.suspended = st.suspended
  left : j ≠ i → (s'.tasks i).handle = 0
  gone : k ≠ h → s'.live h = none
  tasks : ∀ m, m ≠ i → m ≠ j → s'.tasks m = s.tasks m
  others : ∀ g, g ≠ h → g ≠ k → s'.live g = s.live g

/-- On `ESP_FAIL` the task is as it was, on `ESP_OK` it is replaced. -/
def AllOrNothing (s : Rtos) (h : Handle) (i : Slot) (st : TaskState)
    (r : Rtos × Option EspErr) : Prop :=
  (r.2 = some .fail → r.1.live h = some st ∧ r.1.tasks i = s.tasks i) ∧
    (r.2 = some .ok → ∃ k j st', ReplacedBy s r.1 h i st k j st')

/-- `xTaskCreate` succeeds, the entry is active and has no zeros, and the task is not
suspended and has the entry's stack size and priority. -/
def Restartable (task : RtosTask) (st : TaskState) (answer : Option Handle) : Prop :=
  answer ≠ none ∧
    (task.active = 1 ∧ task.priority ≠ 0 ∧ task.stackSize ≠ 0 ∧ task.periodMs ≠ 0) ∧
    st.suspended = false ∧ task.stackSize = st.stackSize ∧ task.priority = st.priority

instance (task : RtosTask) (st : TaskState) (answer : Option Handle) :
    Decidable (Restartable task st answer) := inferInstanceAs (Decidable (_ ∧ _))

namespace Rtos

/-- `KM_RTOS_AddTask` stores an entry as it is if it is active and has no zeros. -/
theorem stored_eq_iff (task : RtosTask) :
    stored task = task ↔
      task.active = 1 ∧ task.priority ≠ 0 ∧ task.stackSize ≠ 0 ∧ task.periodMs ≠ 0 := by
  have hprio : (if task.priority = 0 then defaultPriority else task.priority) = task.priority ↔
      task.priority ≠ 0 := by
    by_cases h0 : task.priority = 0 <;> simp [h0, defaultPriority]
  have hstack : (if task.stackSize = 0 then defaultStackSize else task.stackSize) =
      task.stackSize ↔ task.stackSize ≠ 0 := by
    by_cases h0 : task.stackSize = 0 <;> simp [h0, defaultStackSize]
  have hperiod : (if task.periodMs = 0 then defaultPeriodMs else task.periodMs) =
      task.periodMs ↔ task.periodMs ≠ 0 := by
    by_cases h0 : task.periodMs = 0 <;> simp [h0, defaultPeriodMs]
  rw [← hprio, ← hstack, ← hperiod]
  cases task
  simp only [stored, RtosTask.mk.injEq, true_and]
  constructor
  · rintro ⟨h₁, h₂, h₃, h₄⟩
    exact ⟨h₄.symm, h₃, h₂, h₁⟩
  · rintro ⟨h₁, h₂, h₃, h₄⟩
    exact ⟨h₄, h₃, h₂, h₁.symm⟩

/-- A restart that succeeds: the entry goes to the first free slot, and its task is
created from it. -/
theorem restartTask_created {s : Rtos} {caller h k : Handle} {i : Slot}
    {r : Rtos × Option EspErr} (hi : s.findTask h = some i) (h0 : h ≠ 0) (hne : h ≠ caller)
    (hr : s.restartTask caller h (some k) = some r) :
    ∃ j, (j = i ∨ (s.tasks j).handle = 0) ∧ (k = h ∨ s.live k = none) ∧ r.2 = some .ok ∧
      r.1.tasks j = { stored (s.tasks i) with handle := k } ∧
      r.1.live k = some (created (s.tasks i) j) ∧
      (j ≠ i → (r.1.tasks i).handle = 0) ∧
      (∀ m, m ≠ i → m ≠ j → r.1.tasks m = s.tasks m) ∧
      (k ≠ h → r.1.live h = none) ∧ (∀ g, g ≠ h → g ≠ k → r.1.live g = s.live g) := by
  have htarget : target caller h = h := if_neg h0
  have ht : target caller h ≠ caller := by rwa [htarget]
  rw [restartTask_eq hi ht] at hr
  obtain ⟨r', hadd, rfl⟩ := Option.map_eq_some_iff.mp hr
  have hself : ((s.vTaskDelete caller h).1.setSlot i .zero).tasks i = .zero :=
    tasks_setSlot_self ..
  have hslot : ∀ m, m ≠ i → ((s.vTaskDelete caller h).1.setSlot i .zero).tasks m = s.tasks m :=
    fun m hm => tasks_setSlot_of_ne hm
  have hgone : ((s.vTaskDelete caller h).1.setSlot i .zero).live h = none := by
    simp [setSlot, vTaskDelete, htarget]
  have hlive : ∀ g, g ≠ h → ((s.vTaskDelete caller h).1.setSlot i .zero).live g = s.live g := by
    intro g hg
    simp [setSlot, vTaskDelete, htarget, hg]
  rcases addTask_cases hadd with ⟨hn, -⟩ | ⟨_, -, hn, -⟩ | ⟨j, k', hfree, hk, -, hdead, rfl⟩
  · -- the slot of the deleted task is free
    exact absurd (congrArg RtosTask.handle hself) (findTask_none.mp hn i)
  · cases hn
  · obtain rfl := Option.some.inj hk
    have hj := freeSlot_some hfree
    refine ⟨j, ?_, ?_, rfl, ?_, ?_, ?_, ?_, ?_, ?_⟩
    · by_cases hji : j = i
      · exact .inl hji
      · rw [hslot j hji] at hj
        exact .inr hj
    · by_cases hkh : k = h
      · exact .inl hkh
      · rw [hlive k hkh] at hdead
        exact .inr hdead
    · simp [setSlot]
    · simp
    · intro hji
      have hkept := Function.update_of_ne (Ne.symm hji)
        { stored (s.tasks i) with handle := k } ((s.vTaskDelete caller h).1.setSlot i .zero).tasks
      exact congrArg RtosTask.handle (hkept.trans hself)
    · intro m hmi hmj
      exact (Function.update_of_ne hmj ..).trans (hslot m hmi)
    · intro hkh
      exact (Function.update_of_ne (Ne.symm hkh) ..).trans hgone
    · intro g hgh hgk
      exact (Function.update_of_ne hgk ..).trans (hlive g hgh)

end Rtos

/-- **A restart is all or nothing** exactly if it succeeds and the entry and its task
are as `KM_RTOS_AddTask` would make them. -/
theorem restartTask_allOrNothing_iff {s : Rtos} {caller h : Handle} {answer : Option Handle}
    {r : Rtos × Option EspErr} {i : Slot} {st : TaskState} (hi : s.findTask h = some i)
    (hl : s.live h = some st) (h0 : h ≠ 0) (hne : h ≠ caller)
    (hr : s.restartTask caller h answer = some r) :
    AllOrNothing s h i st r ↔ Restartable (s.tasks i) st answer := by
  have ht : Rtos.target caller h ≠ caller := by rwa [Rtos.target, if_neg h0]
  cases answer with
  | none =>
    -- the task is lost
    obtain ⟨s', hs', hlost, -⟩ := Rtos.restartTask_lost hi ht
    obtain rfl := Option.some.inj (hr.symm.trans hs')
    refine iff_of_false (fun hall => ?_) fun hc => hc.1 rfl
    cases hlost.symm.trans (hall.1 rfl).1
  | some k =>
    obtain ⟨j, hslot, hfresh, hok, hentry, hlive, hleft, htasks, hgone, hothers⟩ :=
      Rtos.restartTask_created hi h0 hne hr
    constructor
    · intro hall
      obtain ⟨k', j', st', hrep⟩ := hall.2 hok
      -- the new task is the only one there can be
      have hkk : k' = k := by
        by_contra hkk
        have hnone : r.1.live k' = none := by
          rcases hrep.fresh with rfl | hdead
          · exact hgone fun he => hkk he.symm
          · by_cases hkh : k' = h
            · exact absurd hdead (by rw [hkh, hl]; exact Option.some_ne_none st)
            · rw [hothers k' hkh hkk, hdead]
        cases hnone.symm.trans hrep.live
      subst hkk
      obtain rfl := Option.some.inj (hlive.symm.trans hrep.live)
      obtain rfl : j = j' := Option.some.inj hrep.param
      have hstored : Rtos.stored (s.tasks i) = s.tasks i := by
        have heq := hentry.symm.trans hrep.entry
        exact congrArg (fun task => { task with handle := (s.tasks i).handle }) heq
      exact ⟨Option.some_ne_none k', (Rtos.stored_eq_iff _).mp hstored, hrep.suspended.symm,
        hrep.stackSize, hrep.priority⟩
    · rintro ⟨-, hentries, hsusp, hstack, hprio⟩
      rw [(Rtos.stored_eq_iff _).mpr hentries] at hentry
      refine ⟨fun hfail => ?_, fun _ => ⟨k, j, created (s.tasks i) j, ?_⟩⟩
      · rw [hok] at hfail
        cases hfail
      · exact ⟨hslot, hfresh, hentry, hlive, rfl, hstack, hprio, hsusp.symm, hleft, hgone, htasks,
          hothers⟩

/-- A task with stack size, priority and period, running. -/
theorem specified_running : ∃ s, run step (init mainTask) (specified.take 2) = some s ∧
    s.findTask 2 = some firstSlot ∧
    s.live 2 = some ⟨some firstSlot, 4096, 5, true, false, none⟩ := by
  obtain ⟨s, hs⟩ : ∃ s, run step (init mainTask) (specified.take 2) = some s :=
    Option.isSome_iff_exists.mp (by decide +kernel)
  have hstate : ∀ s ∈ run step (init mainTask) (specified.take 2),
      s.findTask 2 = some firstSlot ∧
        s.live 2 = some ⟨some firstSlot, 4096, 5, true, false, none⟩ := by
    decide +kernel
  exact ⟨s, hs, hstate s hs⟩

/-- It is restarted, and gets the handle 3. -/
theorem specified_restarts : ∃ s r, run step (init mainTask) (specified.take 2) = some s ∧
    s.restartTask 1 2 (some 3) = some r ∧
    (AllOrNothing s 2 firstSlot ⟨some firstSlot, 4096, 5, true, false, none⟩ r ↔
      Restartable (s.tasks firstSlot) ⟨some firstSlot, 4096, 5, true, false, none⟩ (some 3)) := by
  obtain ⟨s, hs, hi, hl⟩ := specified_running
  have hposs : ∀ s ∈ run step (init mainTask) (specified.take 2),
      (s.restartTask 1 2 (some 3)).isSome := by
    decide +kernel
  obtain ⟨r, hr⟩ := Option.isSome_iff_exists.mp (hposs s hs)
  exact ⟨s, r, hs, hr, restartTask_allOrNothing_iff hi hl (by decide) (by decide) hr⟩

/-- It is restarted while `xTaskCreate` fails: the task is gone. -/
theorem restart_loses_task : ¬ ∀ (others : Others) (acts : List Act) (s : Rtos)
    (caller h : Handle) (answer : Option Handle) (r : Rtos × Option EspErr) (i : Slot)
    (st : TaskState), run step (init others) acts = some s → s.findTask h = some i →
    s.live h = some st → h ≠ caller → s.restartTask caller h answer = some r →
    AllOrNothing s h i st r := by
  intro hall
  obtain ⟨s, hs, hi, hl⟩ := specified_running
  have hother : Rtos.target 1 2 ≠ 1 := by decide
  obtain ⟨s', hr, hlost, -⟩ := Rtos.restartTask_lost hi hother
  have hkept := (hall mainTask _ s 1 2 none _ firstSlot _ hs hi hl (by decide) hr).1 rfl
  cases hlost.symm.trans hkept.1

end KartStack.KmRtos
