import KartStack.RtosTable

/-! # Table and scheduler

The table of `km_rtos.c` is right if its handles are those of the live tasks it
created and every such task is given its own slot (`Agrees`).  Seen from outside
that is a partial bijection: the slot a handle is recorded in is the slot the
scheduler gave the task as parameter (`Exact`).

Four things break it: a managed task that deletes or restarts itself, whose slot
is cleared by code that is never reached; `KM_RTOS_Destroy` called by a managed
task; `KM_RTOS_Destroy` of a task without a name, which is taken for a free slot;
and a task without a function, which deletes itself.  In a run without them the
table stays right, and each of them makes it wrong (`agrees_iff`).
-/
namespace KartStack.KmRtos
open Transitions

namespace Rtos

/-! ## What should hold -/

/-- A live task that `KM_RTOS_AddTask` created. -/
def Managed (s : Rtos) (h : Handle) : Prop := ∃ st, s.live h = some st ∧ st.param ≠ none

instance (s : Rtos) (h : Handle) : Decidable (s.Managed h) :=
  inferInstanceAs (Decidable (∃ st ∈ s.live h, st.param ≠ none))

/-- Table and scheduler agree. -/
structure Agrees (s : Rtos) : Prop where
  distinct : ∀ i j, (s.tasks i).handle ≠ 0 → (s.tasks i).handle = (s.tasks j).handle → i = j
  recorded : ∀ h, (h ≠ 0 ∧ ∃ i, (s.tasks i).handle = h) ↔ s.Managed h
  param : ∀ h st i, s.live h = some st → st.param = some i → (s.tasks i).handle = h

/-- A parameter of each live task. -/
def params (s : Rtos) (h : Handle) : Option (Option Slot) := (s.live h).map TaskState.param

/-- The slots recorded and the parameters given are each other's inverse. -/
def Exact (s : Rtos) : Prop :=
  ∀ i h, h ≠ 0 → ((s.tasks i).handle = h ↔ s.params h = some (some i))

theorem params_eq_some {s : Rtos} {h : Handle} {p : Option Slot} :
    s.params h = some p ↔ ∃ st, s.live h = some st ∧ st.param = p :=
  Option.map_eq_some_iff

theorem managed_iff {s : Rtos} {h : Handle} : s.Managed h ↔ ∃ i, s.params h = some (some i) := by
  constructor
  · rintro ⟨st, hst, hp⟩
    obtain ⟨i, hi⟩ := Option.ne_none_iff_exists'.mp hp
    exact ⟨i, params_eq_some.mpr ⟨st, hst, hi⟩⟩
  · rintro ⟨i, hi⟩
    obtain ⟨st, hst, hp⟩ := params_eq_some.mp hi
    exact ⟨st, hst, fun hn => by simp [hp] at hn⟩

/-- What the operations keep: `NULL` is no task, table and scheduler agree, and a
free slot has no name. -/
structure Sound (s : Rtos) : Prop where
  null : s.params 0 = none
  inverse : s.Exact
  unnamed : ∀ i, (s.tasks i).handle = 0 → (s.tasks i).name = none

theorem Sound.handle_ne {s : Rtos} (hs : s.Sound) {h : Handle} (hm : s.Managed h) : h ≠ 0 := by
  rintro rfl
  obtain ⟨i, hi⟩ := managed_iff.mp hm
  rw [hs.null] at hi
  cases hi

/-- A managed task has its slot. -/
theorem Sound.slot {s : Rtos} (hs : s.Sound) {h : Handle} (hm : s.Managed h) :
    ∃ i, (s.tasks i).handle = h := by
  obtain ⟨i, hi⟩ := managed_iff.mp hm
  exact ⟨i, (hs.inverse i h (hs.handle_ne hm)).mpr hi⟩

/-- A slot that is not free has its task. -/
theorem Sound.managed {s : Rtos} (hs : s.Sound) {i : Slot} (hi : (s.tasks i).handle ≠ 0) :
    s.Managed (s.tasks i).handle :=
  managed_iff.mpr ⟨i, (hs.inverse i _ hi).mp rfl⟩

/-- A handle other than `NULL` is in one slot. -/
theorem Sound.slot_unique {s : Rtos} (hs : s.Sound) {i j : Slot} (hi : (s.tasks i).handle ≠ 0)
    (hij : (s.tasks i).handle = (s.tasks j).handle) : i = j := by
  have h₁ := (hs.inverse i _ hi).mp rfl
  have h₂ := (hs.inverse j _ hi).mp hij.symm
  rw [h₁] at h₂
  simpa using h₂

/-- **The two views are one.** -/
theorem Sound.agrees {s : Rtos} (hs : s.Sound) : s.Agrees where
  distinct _ _ := hs.slot_unique
  recorded h := by
    constructor
    · rintro ⟨h0, i, rfl⟩
      exact hs.managed h0
    · exact fun hm => ⟨hs.handle_ne hm, hs.slot hm⟩
  param h st i hst hp := by
    have hi : s.params h = some (some i) := params_eq_some.mpr ⟨st, hst, hp⟩
    exact (hs.inverse i h (hs.handle_ne (managed_iff.mpr ⟨i, hi⟩))).mpr hi

/-! ## Changes that leave handles and parameters alone -/

/-- Handles, names and parameters are the same. -/
structure Same (s s' : Rtos) : Prop where
  handle : ∀ i, (s'.tasks i).handle = (s.tasks i).handle
  name : ∀ i, (s'.tasks i).name = (s.tasks i).name
  params : s'.params = s.params

namespace Same

theorem refl (s : Rtos) : Same s s := ⟨fun _ => rfl, fun _ => rfl, rfl⟩

theorem trans {s s' s'' : Rtos} (h : Same s s') (h' : Same s' s'') : Same s s'' :=
  ⟨fun i => (h'.handle i).trans (h.handle i), fun i => (h'.name i).trans (h.name i),
    h'.params.trans h.params⟩

theorem setSlot (s : Rtos) (i : Slot) {task : RtosTask} (hh : task.handle = (s.tasks i).handle)
    (hn : task.name = (s.tasks i).name) : Same s (s.setSlot i task) := by
  refine ⟨fun j => ?_, fun j => ?_, rfl⟩ <;> by_cases hj : j = i
  · subst hj; simpa [Rtos.setSlot] using hh
  · simp [Rtos.setSlot, hj]
  · subst hj; simpa [Rtos.setSlot] using hn
  · simp [Rtos.setSlot, hj]

theorem modify (s : Rtos) (h : Handle) {f : TaskState → TaskState}
    (hf : ∀ st, (f st).param = st.param) : Same s (s.modify h f) := by
  refine ⟨fun _ => rfl, fun _ => rfl, funext fun h' => ?_⟩
  by_cases hh : h' = h
  · subst hh
    simp only [Rtos.params, Rtos.modify, Function.update_self, Option.map_map]
    congr 1
    exact funext hf
  · simp [Rtos.params, Rtos.modify, hh]

theorem sound {s s' : Rtos} (h : Same s s') (hs : s.Sound) : s'.Sound where
  null := by rw [h.params]; exact hs.null
  inverse i k hk := by rw [h.params, h.handle]; exact hs.inverse i k hk
  unnamed i hi := by rw [h.name]; exact hs.unnamed i (h.handle i ▸ hi)

theorem markInactive (s : Rtos) (i : Slot) : Same s (s.markInactive i) := setSlot s i rfl rfl

end Same

theorem suspendTask_same (caller h : Handle) (s : Rtos) : Same s (s.suspendTask caller h).1 := by
  unfold suspendTask
  cases s.findTask h with
  | none => exact .refl s
  | some i =>
    simp only
    split
    · split
      · exact .modify s caller fun _ => rfl
      · refine Same.trans ?_ (.markInactive _ i)
        exact .modify s h fun _ => rfl
    · exact .refl s

theorem resumeTask_same (h : Handle) (s : Rtos) : Same s (s.resumeTask h).1 := by
  unfold resumeTask
  cases s.findTask h with
  | none => exact .refl s
  | some i =>
    simp only
    split
    · refine Same.trans ?_ (.setSlot _ i rfl rfl)
      exact .modify s h fun _ => rfl
    · exact .refl s

theorem changePriority_same (caller h : Handle) (newPriority : UInt8) (s : Rtos) :
    Same s (s.changePriority caller h newPriority).1 := by
  unfold changePriority
  cases s.findTask h with
  | none => exact .refl s
  | some i =>
    have hset : Same s (s.vTaskPrioritySet caller (s.tasks i).handle newPriority.toUInt32) :=
      .modify s _ fun _ => rfl
    exact hset.trans (.setSlot _ i rfl rfl)

/-! ## Deleting and adding -/

theorem findTask_some {s : Rtos} {h : Handle} {i : Slot} (hi : s.findTask h = some i) :
    (s.tasks i).handle = h := by
  simpa using List.find?_some hi

theorem findTask_none {s : Rtos} {h : Handle} :
    s.findTask h = none ↔ ∀ i, (s.tasks i).handle ≠ h := by
  simp [findTask]

theorem freeSlot_some {s : Rtos} {i : Slot} (hi : s.freeSlot = some i) : (s.tasks i).handle = 0 :=
  findTask_some (s := s) hi

@[simp] theorem params_vTaskDelete (s : Rtos) (caller h : Handle) :
    (s.vTaskDelete caller h).1.params = Function.update s.params (target caller h) none := by
  funext h'
  by_cases hh : h' = target caller h
  · subst hh; simp [params, vTaskDelete]
  · simp [params, vTaskDelete, hh]

@[simp] theorem tasks_vTaskDelete (s : Rtos) (caller h : Handle) :
    (s.vTaskDelete caller h).1.tasks = s.tasks := rfl

/-- A task that is not managed can go. -/
theorem Sound.vTaskDelete {s : Rtos} (hs : s.Sound) {caller h : Handle}
    (hm : ¬ s.Managed (target caller h)) : (s.vTaskDelete caller h).1.Sound := by
  refine ⟨?_, ?_, hs.unnamed⟩
  · rw [params_vTaskDelete]
    by_cases h0 : 0 = target caller h
    · rw [← h0, Function.update_self]
    · rw [Function.update_of_ne h0, hs.null]
  · intro i k hk
    rw [params_vTaskDelete, tasks_vTaskDelete, hs.inverse i k hk]
    by_cases hkt : k = target caller h
    · subst hkt
      have hnot : s.params (target caller h) ≠ some (some i) :=
        fun hi => hm (managed_iff.mpr ⟨i, hi⟩)
      simp [hnot]
    · rw [Function.update_of_ne hkt]

/-- A managed task that goes leaves its slot behind. -/
theorem Sound.not_agrees_vTaskDelete {s : Rtos} (hs : s.Sound) {caller h : Handle}
    (hm : s.Managed (target caller h)) : ¬ (s.vTaskDelete caller h).1.Agrees := by
  intro hagrees
  have hm' := (hagrees.recorded _).mp ⟨hs.handle_ne hm, hs.slot hm⟩
  obtain ⟨i, hi⟩ := managed_iff.mp hm'
  simp at hi

/-- Its slot cleared, a deleted task is gone from both sides. -/
theorem Sound.clear {s : Rtos} (hs : s.Sound) {caller : Handle} {i : Slot}
    (hi : (s.tasks i).handle ≠ 0) :
    ((s.vTaskDelete caller (s.tasks i).handle).1.setSlot i .zero).Sound := by
  have htarget : target caller (s.tasks i).handle = (s.tasks i).handle := if_neg hi
  have hparams : ((s.vTaskDelete caller (s.tasks i).handle).1.setSlot i .zero).params =
      Function.update s.params (s.tasks i).handle none := by
    rw [← htarget, ← params_vTaskDelete, htarget]
    rfl
  refine ⟨?_, ?_, ?_⟩
  · rw [hparams, Function.update_of_ne hi.symm, hs.null]
  · intro j k hk
    rw [hparams]
    by_cases hj : j = i
    · -- the slot is free now, and its task was in no other
      subst hj
      have hzero : ¬ (((s.vTaskDelete caller (s.tasks j).handle).1.setSlot j .zero).tasks j).handle
          = k := by
        simpa [setSlot, RtosTask.zero] using hk.symm
      refine iff_of_false hzero fun hjk => ?_
      by_cases hkh : k = (s.tasks j).handle
      · rw [hkh, Function.update_self] at hjk
        cases hjk
      · rw [Function.update_of_ne hkh] at hjk
        exact hkh ((hs.inverse j k hk).mpr hjk).symm
    · have htask : ((s.vTaskDelete caller (s.tasks i).handle).1.setSlot i .zero).tasks j =
          s.tasks j := tasks_setSlot_of_ne hj
      rw [htask, hs.inverse j k hk]
      by_cases hkh : k = (s.tasks i).handle
      · -- the deleted handle is in no slot but its own
        subst hkh
        have hi' := (hs.inverse i _ hi).mp rfl
        rw [hi', Function.update_self]
        simp [Ne.symm hj]
      · rw [Function.update_of_ne hkh]
  · intro j hj
    by_cases hji : j = i
    · subst hji; simp [setSlot, RtosTask.zero]
    · simp only [setSlot, tasks_vTaskDelete, Function.update_of_ne hji] at hj ⊢
      exact hs.unnamed j hj

/-- A free slot filled, a new task is on both sides. -/
theorem Sound.fill {s : Rtos} (hs : s.Sound) {i : Slot} {k : Handle}
    (hi : (s.tasks i).handle = 0) (hk : k ≠ 0) (hdead : s.live k = none) {task : RtosTask}
    (htask : task.handle = k) {st : TaskState} (hst : st.param = some i) :
    Sound { s.setSlot i task with live := Function.update s.live k (some st) } := by
  have hparams : params { s.setSlot i task with live := Function.update s.live k (some st) } =
      Function.update s.params k (some (some i)) := by
    funext h
    by_cases hh : h = k
    · subst hh; simp [params, hst]
    · simp [params, hh]
  refine ⟨?_, ?_, ?_⟩
  · rw [hparams, Function.update_of_ne hk.symm, hs.null]
  · intro j h hh
    rw [hparams]
    by_cases hj : j = i
    · subst hj
      have hslot : ((s.setSlot j task).tasks j).handle = k := by simpa [setSlot] using htask
      show ((s.setSlot j task).tasks j).handle = h ↔ _
      rw [hslot]
      by_cases hhk : h = k
      · subst hhk; simp
      · -- the slot was free, so it was no other task's
        have hnot : s.params h ≠ some (some j) := fun hp =>
          hh (((hs.inverse j h hh).mpr hp).symm.trans hi)
        rw [Function.update_of_ne hhk]
        exact iff_of_false (Ne.symm hhk) hnot
    · have hslot : (s.setSlot i task).tasks j = s.tasks j := tasks_setSlot_of_ne hj
      show ((s.setSlot i task).tasks j).handle = h ↔ _
      rw [hslot]
      by_cases hhk : h = k
      · -- a handle that was not in use is in no other slot
        subst hhk
        have hnot : (s.tasks j).handle ≠ h := fun hjh => by
          have hp := (hs.inverse j h hh).mp hjh
          simp [params, hdead] at hp
        rw [Function.update_self]
        exact iff_of_false hnot fun hij => hj (by simpa using hij.symm)
      · rw [Function.update_of_ne hhk]
        exact hs.inverse j h hh
  · intro j hj
    by_cases hji : j = i
    · subst hji
      have hzero : k = 0 := by simpa [setSlot, htask] using hj
      exact absurd hzero hk
    · simp only [setSlot, Function.update_of_ne hji] at hj ⊢
      exact hs.unnamed j hj

/-- **Adding a task** keeps both sides together. -/
theorem Sound.addTask {s s' : Rtos} {err : EspErr} (hs : s.Sound) {task : RtosTask}
    {answer : Option Handle} (h : s.addTask task answer = some (s', err)) : s'.Sound := by
  unfold Rtos.addTask at h
  cases hfree : s.freeSlot with
  | none =>
    rw [hfree] at h
    obtain ⟨rfl, -⟩ := Prod.mk.inj (Option.some.inj h)
    exact hs
  | some i =>
    have hi : (s.tasks i).handle = 0 := freeSlot_some hfree
    rw [hfree] at h
    cases answer with
    | none =>
      obtain ⟨rfl, -⟩ := Prod.mk.inj (Option.some.inj h)
      exact Same.sound (.setSlot s i hi.symm (hs.unnamed i hi).symm) hs
    | some k =>
      simp only at h
      by_cases hk : k ≠ 0 ∧ s.live k = none
      · rw [if_pos hk] at h
        obtain ⟨rfl, -⟩ := Prod.mk.inj (Option.some.inj h)
        exact hs.fill hi hk.1 hk.2 rfl rfl
      · rw [if_neg hk] at h
        cases h

/-! ## Calls that may not return -/

/-- The caller is no managed task, or it names another task. -/
def SparesCaller (s : Rtos) (caller h : Handle) : Prop :=
  ¬ s.Managed caller ∨ h ≠ caller ∧ (h = 0 → ∀ i, (s.tasks i).handle ≠ 0)

instance (s : Rtos) (caller h : Handle) : Decidable (s.SparesCaller caller h) :=
  inferInstanceAs (Decidable (_ ∨ _ ∧ (_ → _)))

theorem SparesCaller.target {s : Rtos} {caller h : Handle} {i : Slot}
    (hc : s.SparesCaller caller h) (hi : s.findTask h = some i) (ht : target caller h = caller) :
    ¬ s.Managed caller := by
  rcases hc with hc | ⟨hne, hfull⟩
  · exact hc
  · have hih := findTask_some hi
    by_cases h0 : h = 0
    · exact absurd (hih.trans h0) (hfull h0 i)
    · rw [Rtos.target, if_neg h0] at ht
      exact absurd ht hne

/-- Where the caller is not spared, it is found and it is the target. -/
theorem Sound.not_sparesCaller {s : Rtos} (hs : s.Sound) {caller h : Handle}
    (hc : ¬ s.SparesCaller caller h) :
    s.Managed caller ∧ (∃ i, s.findTask h = some i) ∧ target caller h = caller := by
  unfold SparesCaller at hc
  push Not at hc
  obtain ⟨hm, hrest⟩ := hc
  refine ⟨hm, ?_⟩
  by_cases hne : h = caller
  · subst hne
    refine ⟨?_, if_neg (hs.handle_ne hm)⟩
    obtain ⟨i, hi⟩ := hs.slot hm
    exact Option.ne_none_iff_exists'.mp fun hnone => findTask_none.mp hnone i hi
  · obtain ⟨rfl, i, hi⟩ := hrest hne
    refine ⟨?_, if_pos rfl⟩
    exact Option.ne_none_iff_exists'.mp fun hnone => findTask_none.mp hnone i hi

/-- What `KM_RTOS_DeleteTask` does. -/
theorem deleteTask_cases (caller h : Handle) (s : Rtos) :
    (s.findTask h = none ∧ s.deleteTask caller h = (s, some .fail)) ∨
    (∃ i, s.findTask h = some i ∧ target caller h = caller ∧
      s.deleteTask caller h = ((s.vTaskDelete caller h).1, none)) ∨
    (∃ i, s.findTask h = some i ∧ target caller h ≠ caller ∧
      s.deleteTask caller h = ((s.vTaskDelete caller h).1.setSlot i .zero, some .ok)) := by
  unfold deleteTask
  cases hf : s.findTask h with
  | none => exact .inl ⟨rfl, rfl⟩
  | some i =>
    simp only [findTask_some hf, if_true]
    by_cases ht : target caller h = caller
    · exact .inr (.inl ⟨i, rfl, ht, by simp [Rtos.vTaskDelete, ht]⟩)
    · exact .inr (.inr ⟨i, rfl, ht, by simp [Rtos.vTaskDelete, ht]⟩)

/-- `KM_RTOS_DeleteTask` of another task, or by a task that is not managed. -/
theorem Sound.deleteTask {s : Rtos} (hs : s.Sound) {caller h : Handle}
    (hc : s.SparesCaller caller h) : (s.deleteTask caller h).1.Sound := by
  rcases deleteTask_cases caller h s with
    ⟨-, heq⟩ | ⟨i, hi, ht, heq⟩ | ⟨i, hi, ht, heq⟩ <;> rw [heq]
  · exact hs
  · refine hs.vTaskDelete ?_
    rw [ht]
    exact hc.target hi ht
  · have hih := findTask_some hi
    have h0 : h ≠ 0 := fun h0 => ht (if_pos h0)
    subst hih
    exact hs.clear h0

/-- `KM_RTOS_DeleteTask` of a managed task by itself. -/
theorem Sound.deleteTask_self {s : Rtos} (hs : s.Sound) {caller h : Handle}
    (hc : ¬ s.SparesCaller caller h) :
    (s.deleteTask caller h).2 = none ∧ ¬ (s.deleteTask caller h).1.Agrees := by
  obtain ⟨hm, ⟨i, hi⟩, ht⟩ := hs.not_sparesCaller hc
  rcases deleteTask_cases caller h s with ⟨hn, -⟩ | ⟨j, -, -, heq⟩ | ⟨j, -, hne, -⟩
  · rw [hi] at hn
    cases hn
  · rw [heq]
    exact ⟨rfl, hs.not_agrees_vTaskDelete (by rwa [ht])⟩
  · exact absurd ht hne

/-- `KM_RTOS_RestartTask` of another task, or by a task that is not managed. -/
theorem Sound.restartTask {s : Rtos} (hs : s.Sound) {caller h : Handle} {answer : Option Handle}
    {r : Rtos × Option EspErr} (hc : s.SparesCaller caller h)
    (hr : s.restartTask caller h answer = some r) : r.1.Sound := by
  have hdel := hs.deleteTask hc
  unfold Rtos.restartTask at hr
  cases hf : s.findTask h with
  | none =>
    rw [hf] at hr
    obtain rfl := Option.some.inj hr
    exact hs
  | some i =>
    rw [hf] at hr
    simp only at hr
    cases hd : s.deleteTask caller h with
    | mk s₁ res =>
      rw [hd] at hr hdel
      cases res with
      | none =>
        obtain rfl := Option.some.inj hr
        exact hdel
      | some err =>
        cases err with
        | fail =>
          obtain rfl := Option.some.inj hr
          exact hdel
        | ok =>
          obtain ⟨⟨s₂, err⟩, hadd, rfl⟩ := Option.map_eq_some_iff.mp hr
          exact hdel.addTask hadd

/-- `KM_RTOS_RestartTask` of a managed task by itself: it does not come back from the
deletion. -/
theorem Sound.restartTask_self {s : Rtos} (hs : s.Sound) {caller h : Handle}
    (hc : ¬ s.SparesCaller caller h) (answer : Option Handle) :
    ∃ r, s.restartTask caller h answer = some r ∧ ¬ r.1.Agrees := by
  obtain ⟨-, ⟨i, hi⟩, -⟩ := hs.not_sparesCaller hc
  obtain ⟨hnone, hnot⟩ := hs.deleteTask_self hc
  refine ⟨s.deleteTask caller h, ?_, hnot⟩
  unfold Rtos.restartTask
  rw [hi]
  simp only
  cases hd : s.deleteTask caller h with
  | mk s₁ res =>
    rw [hd] at hnone
    obtain rfl : res = none := hnone
    rfl

/-! ## Destroying all tasks -/

/-- The loop gets through if it never deletes the caller. -/
theorem destroyLoop_left (caller : Handle) (is : List Slot) (s : Rtos) :
    (destroyLoop caller is s).2 = true ↔
      ∀ i ∈ is, (s.tasks i).name ≠ none → target caller (s.tasks i).handle ≠ caller := by
  induction is generalizing s with
  | nil => simp [destroyLoop]
  | cons i is ih =>
    rw [destroyLoop, List.forall_mem_cons]
    by_cases hn : (s.tasks i).name ≠ none
    · rw [if_pos hn]
      by_cases ht : target caller (s.tasks i).handle = caller
      · simp [Rtos.vTaskDelete, ht, hn]
      · simp only [Rtos.vTaskDelete, ne_eq, ht, not_false_eq_true, decide_true, if_true, ih,
          implies_true, true_and]
    · rw [if_neg hn, ih]
      simp [hn]

theorem destroyLoop_tasks (caller : Handle) (is : List Slot) (s : Rtos) :
    (destroyLoop caller is s).1.tasks = s.tasks := by
  induction is generalizing s with
  | nil => rfl
  | cons i is ih =>
    rw [destroyLoop]
    by_cases hn : (s.tasks i).name ≠ none
    · rw [if_pos hn]
      by_cases ht : target caller (s.tasks i).handle = caller
      · simp [Rtos.vTaskDelete, ht]
      · simp only [Rtos.vTaskDelete, ne_eq, ht, not_false_eq_true, decide_true, if_true, ih]
    · rw [if_neg hn, ih]

/-- A loop that gets through has deleted the tasks of the slots with a name. -/
theorem destroyLoop_params {caller : Handle} {is : List Slot} {s : Rtos}
    (hleft : (destroyLoop caller is s).2 = true) (h : Handle) (p : Option Slot) :
    (destroyLoop caller is s).1.params h = some p ↔ s.params h = some p ∧
      ∀ i ∈ is, (s.tasks i).name ≠ none → target caller (s.tasks i).handle ≠ h := by
  induction is generalizing s with
  | nil => simp [destroyLoop]
  | cons i is ih =>
    rw [destroyLoop] at hleft ⊢
    rw [List.forall_mem_cons]
    by_cases hn : (s.tasks i).name ≠ none
    · rw [if_pos hn] at hleft ⊢
      by_cases ht : target caller (s.tasks i).handle = caller
      · simp [Rtos.vTaskDelete, ht] at hleft
      · have hret : (s.vTaskDelete caller (s.tasks i).handle).2 = true := by
          simp [Rtos.vTaskDelete, ht]
        simp only [hret, if_true] at hleft ⊢
        rw [ih hleft, params_vTaskDelete, tasks_vTaskDelete]
        by_cases hh : h = target caller (s.tasks i).handle
        · subst hh
          simp [hn]
        · rw [Function.update_of_ne hh]
          simp [hn, Ne.symm hh]
    · rw [if_neg hn] at hleft ⊢
      rw [ih hleft]
      simp [hn]

/-- A loop that does not get through has deleted the caller. -/
theorem destroyLoop_stuck {caller : Handle} {is : List Slot} {s : Rtos}
    (hstuck : (destroyLoop caller is s).2 = false) :
    (destroyLoop caller is s).1.params caller = none := by
  induction is generalizing s with
  | nil => simp [destroyLoop] at hstuck
  | cons i is ih =>
    rw [destroyLoop] at hstuck ⊢
    by_cases hn : (s.tasks i).name ≠ none
    · rw [if_pos hn] at hstuck ⊢
      by_cases hret : (s.vTaskDelete caller (s.tasks i).handle).2 = true
      · rw [if_pos hret] at hstuck ⊢
        exact ih hstuck
      · rw [if_neg hret]
        have ht : target caller (s.tasks i).handle = caller := by
          simpa [Rtos.vTaskDelete] using hret
        rw [params_vTaskDelete, ht, Function.update_self]
    · rw [if_neg hn] at hstuck ⊢
      exact ih hstuck

/-- The loop gets through if the caller is in no slot with a name. -/
theorem Sound.destroyLoop_left {s : Rtos} (hs : s.Sound) (caller : Handle) :
    (destroyLoop caller (List.finRange maxTasks) s).2 = true ↔
      ∀ i, (s.tasks i).name ≠ none → (s.tasks i).handle ≠ caller := by
  rw [Rtos.destroyLoop_left]
  refine ⟨fun h i hn => ?_, fun h i _ hn => ?_⟩
  · have ht := h i (List.mem_finRange i) hn
    rwa [target, if_neg fun h0 => hn (hs.unnamed i h0)] at ht
  · rw [target, if_neg fun h0 => hn (hs.unnamed i h0)]
    exact h i hn

/-- `KM_RTOS_Destroy` that does not return leaves the table as it was, without the
caller among the live tasks. -/
theorem Sound.destroy_stuck {s : Rtos} (hs : s.Sound) {caller : Handle} {i : Slot}
    (hn : (s.tasks i).name ≠ none) (hi : (s.tasks i).handle = caller) :
    ¬ (s.destroy caller).Agrees := by
  have hstuck : (destroyLoop caller (List.finRange maxTasks) s).2 = false := by
    rw [← Bool.not_eq_true, hs.destroyLoop_left]
    exact fun h => h i hn hi
  have hdestroy : s.destroy caller = (destroyLoop caller (List.finRange maxTasks) s).1 := by
    simp [destroy, hstuck]
  intro hagrees
  have h0 : caller ≠ 0 := fun h0 => hn (hs.unnamed i (hi.trans h0))
  have hrec := (hagrees.recorded caller).mp ⟨h0, i, by rw [hdestroy, destroyLoop_tasks]; exact hi⟩
  obtain ⟨j, hj⟩ := managed_iff.mp hrec
  rw [hdestroy, destroyLoop_stuck hstuck] at hj
  cases hj

/-- `KM_RTOS_Destroy` that returns leaves an empty table and the tasks without a name. -/
theorem Sound.destroy_left {s : Rtos} (hs : s.Sound) {caller : Handle}
    (hleft : ∀ i, (s.tasks i).name ≠ none → (s.tasks i).handle ≠ caller) :
    (s.destroy caller).tasks = (fun _ => .zero) ∧
    ∀ h p, (s.destroy caller).params h = some p ↔
      s.params h = some p ∧ ∀ i, (s.tasks i).name ≠ none → (s.tasks i).handle ≠ h := by
  have hloop := (hs.destroyLoop_left caller).mpr hleft
  have hdestroy : s.destroy caller =
      { (destroyLoop caller (List.finRange maxTasks) s).1 with tasks := fun _ => .zero } := by
    simp [destroy, hloop]
  refine ⟨by rw [hdestroy], fun h p => ?_⟩
  have hlive : (s.destroy caller).params h =
      (destroyLoop caller (List.finRange maxTasks) s).1.params h := by rw [hdestroy]; rfl
  rw [hlive, destroyLoop_params hloop]
  refine and_congr_right fun _ => ⟨fun hno i hn => ?_, fun hno i _ hn => ?_⟩
  · have ht := hno i (List.mem_finRange i) hn
    rwa [target, if_neg fun h0 => hn (hs.unnamed i h0)] at ht
  · rw [target, if_neg fun h0 => hn (hs.unnamed i h0)]
    exact hno i hn

/-- The caller is no managed task, and every task has a name. -/
def AllNamed (s : Rtos) (caller : Handle) : Prop :=
  ¬ s.Managed caller ∧ ∀ i, (s.tasks i).handle ≠ 0 → (s.tasks i).name ≠ none

instance (s : Rtos) (caller : Handle) : Decidable (s.AllNamed caller) :=
  inferInstanceAs (Decidable (_ ∧ _))

/-- After `KM_RTOS_Destroy` by a task that is not managed, of tasks with names. -/
theorem Sound.destroy {s : Rtos} (hs : s.Sound) {caller : Handle} (hc : s.AllNamed caller) :
    (s.destroy caller).Sound ∧ ∀ h, ¬ (s.destroy caller).Managed h := by
  obtain ⟨hm, hnamed⟩ := hc
  have hleft : ∀ i, (s.tasks i).name ≠ none → (s.tasks i).handle ≠ caller := by
    rintro i hn rfl
    exact hm (hs.managed fun h0 => hn (hs.unnamed i h0))
  obtain ⟨htasks, hparams⟩ := hs.destroy_left hleft
  have hnone : ∀ h i, (s.destroy caller).params h ≠ some (some i) := by
    intro h i hi
    obtain ⟨hp, hno⟩ := (hparams h _).mp hi
    have h0 : h ≠ 0 := hs.handle_ne (managed_iff.mpr ⟨i, hp⟩)
    have hih := (hs.inverse i h h0).mpr hp
    exact hno i (hnamed i (hih ▸ h0)) hih
  refine ⟨⟨?_, ?_, ?_⟩, ?_⟩
  · refine Option.eq_none_iff_forall_ne_some.mpr fun p hp => ?_
    have hnull := ((hparams 0 p).mp hp).1
    rw [hs.null] at hnull
    cases hnull
  · intro i h h0
    rw [htasks]
    exact iff_of_false (fun hz => h0 hz.symm) (hnone h i)
  · intro i _
    rw [htasks]
    rfl
  · intro h hm
    obtain ⟨i, hi⟩ := managed_iff.mp hm
    exact hnone h i hi

/-- **`KM_RTOS_Destroy` deletes all tasks** exactly if they have names and the caller
is none of them. -/
theorem Sound.destroy_iff {s : Rtos} (hs : s.Sound) (caller : Handle) :
    ((s.destroy caller).Agrees ∧ ∀ h, ¬ (s.destroy caller).Managed h) ↔ s.AllNamed caller := by
  refine ⟨fun ⟨hagrees, hnone⟩ => ?_, fun hc => ⟨(hs.destroy hc).1.agrees, (hs.destroy hc).2⟩⟩
  have hleft : ∀ i, (s.tasks i).name ≠ none → (s.tasks i).handle ≠ caller :=
    fun i hn hi => hs.destroy_stuck hn hi hagrees
  have hdead : ∀ i, (s.tasks i).handle ≠ 0 → (s.tasks i).name ≠ none := by
    -- a task without a name is not deleted
    intro i h0 hn
    refine hnone (s.tasks i).handle (managed_iff.mpr ⟨i, ?_⟩)
    refine ((hs.destroy_left hleft).2 _ _).mpr ⟨(hs.inverse i _ h0).mp rfl, fun j hj hji => hj ?_⟩
    obtain rfl := hs.slot_unique h0 hji.symm
    exact hn
  refine ⟨fun hm => ?_, hdead⟩
  obtain ⟨i, hi⟩ := hs.slot hm
  have h0 : (s.tasks i).handle ≠ 0 := hi ▸ hs.handle_ne hm
  exact hleft i (hdead i h0) hi

end Rtos

/-! ## Runs -/

/-- What is wanted of an act: table and scheduler agree afterwards, and
`KM_RTOS_Destroy` leaves no task. -/
def Keeps (s : Rtos) (a : Act) : Prop :=
  ∀ s' ∈ step s a, s'.Agrees ∧ ∀ caller, a = .call caller .destroy → ∀ h, ¬ s'.Managed h

/-- The acts that do it. -/
def Safe (s : Rtos) : Act → Prop
  | .call caller (.deleteTask h) => s.SparesCaller caller h
  | .call caller (.restartTask h _) => s.SparesCaller caller h
  | .call caller .destroy => s.AllNamed caller
  | .start h => ∀ i, (s.tasks i).handle = h → (s.tasks i).taskFn ≠ none
  | _ => True

instance decSafe (s : Rtos) : ∀ a, Decidable (Safe s a)
  | .call caller (.deleteTask h) => inferInstanceAs (Decidable (s.SparesCaller caller h))
  | .call caller (.restartTask h _) => inferInstanceAs (Decidable (s.SparesCaller caller h))
  | .call caller .destroy => inferInstanceAs (Decidable (s.AllNamed caller))
  | .start h =>
    inferInstanceAs (Decidable (∀ i, (s.tasks i).handle = h → (s.tasks i).taskFn ≠ none))
  | .call _ (.addTask _ _) | .call _ (.suspendTask _) | .call _ (.resumeTask _)
  | .call _ (.changePriority _ _) | .leaveSuspend _ => isTrue trivial

theorem step_call {s s' : Rtos} {caller : Handle} {op : Op}
    (h : step s (.call caller op) = some s') :
    op.apply caller s = some s' := by
  simp only [step] at h
  cases hl : s.live caller with
  | none =>
    rw [hl] at h
    cases h
  | some st =>
    rw [hl] at h
    simp only at h
    by_cases hst : st.Ready
    · rwa [if_pos hst] at h
    · rw [if_neg hst] at h
      cases h

/-- A task that starts is a managed one. -/
theorem step_start {s s' : Rtos} {h : Handle} (hstep : step s (.start h) = some s') :
    ∃ i, s.params h = some (some i) ∧
      (((s.tasks i).taskFn = none ∧ s' = (s.vTaskDelete h 0).1) ∨
        ((s.tasks i).taskFn ≠ none ∧ Rtos.Same s s')) := by
  simp only [step] at hstep
  split at hstep
  · rename_i i _ _ _ hl
    refine ⟨i, Rtos.params_eq_some.mpr ⟨_, hl, rfl⟩, ?_⟩
    by_cases hfn : (s.tasks i).taskFn = none
    · rw [if_pos hfn] at hstep
      exact .inl ⟨hfn, (Option.some.inj hstep).symm⟩
    · rw [if_neg hfn] at hstep
      obtain rfl := Option.some.inj hstep
      exact .inr ⟨hfn, .modify s h fun _ => rfl⟩
  · cases hstep

theorem step_leaveSuspend {s s' : Rtos} {h : Handle} (hstep : step s (.leaveSuspend h) = some s') :
    Rtos.Same s s' := by
  simp only [step] at hstep
  split at hstep
  · obtain rfl := Option.some.inj hstep
    refine Rtos.Same.trans ?_ (.markInactive _ _)
    exact .modify s h fun _ => rfl
  · cases hstep

/-- **One act.** -/
theorem sound_step {s s' : Rtos} {a : Act} (hs : s.Sound) (ha : Safe s a)
    (h : step s a = some s') : s'.Sound := by
  cases a with
  | call caller op =>
    have h := step_call h
    cases op with
    | addTask task answer =>
      obtain ⟨⟨s₁, err⟩, hadd, rfl⟩ := Option.map_eq_some_iff.mp h
      exact hs.addTask hadd
    | deleteTask k =>
      obtain rfl := Option.some.inj h
      exact hs.deleteTask ha
    | suspendTask k =>
      obtain rfl := Option.some.inj h
      exact (Rtos.suspendTask_same caller k s).sound hs
    | resumeTask k =>
      obtain rfl := Option.some.inj h
      exact (Rtos.resumeTask_same k s).sound hs
    | restartTask k answer =>
      obtain ⟨r, hr, rfl⟩ := Option.map_eq_some_iff.mp h
      exact hs.restartTask ha hr
    | changePriority k newPriority =>
      obtain rfl := Option.some.inj h
      exact (Rtos.changePriority_same caller k newPriority s).sound hs
    | destroy =>
      obtain rfl := Option.some.inj h
      exact (hs.destroy ha).1
  | start k =>
    rcases step_start h with ⟨i, hi, ⟨hfn, -⟩ | ⟨-, hsame⟩⟩
    · have h0 : k ≠ 0 := hs.handle_ne (Rtos.managed_iff.mpr ⟨i, hi⟩)
      exact absurd hfn (ha i ((hs.inverse i k h0).mpr hi))
    · exact hsame.sound hs
  | leaveSuspend k => exact (step_leaveSuspend h).sound hs

/-- Where a possible act is not of these, table and scheduler come apart. -/
theorem not_keeps {s s' : Rtos} {a : Act} (hs : s.Sound) (h : step s a = some s')
    (ha : ¬ Safe s a) : ¬ Keeps s a := by
  intro hkeeps
  have hkeeps := hkeeps s' h
  cases a with
  | call caller op =>
    have h := step_call h
    cases op with
    | deleteTask k =>
      obtain rfl := Option.some.inj h
      exact (hs.deleteTask_self ha).2 hkeeps.1
    | restartTask k answer =>
      obtain ⟨r, hr, hnot⟩ := hs.restartTask_self ha answer
      obtain ⟨r', hr', rfl⟩ := Option.map_eq_some_iff.mp h
      obtain rfl := Option.some.inj (hr.symm.trans hr')
      exact hnot hkeeps.1
    | destroy =>
      obtain rfl := Option.some.inj h
      exact ha ((hs.destroy_iff caller).mp ⟨hkeeps.1, hkeeps.2 caller rfl⟩)
    | addTask _ _ | suspendTask _ | resumeTask _ | changePriority _ _ => exact ha trivial
  | start k =>
    rcases step_start h with ⟨i, hi, ⟨-, rfl⟩ | ⟨hfn, -⟩⟩
    · have hm : s.Managed (Rtos.target k 0) := Rtos.managed_iff.mpr ⟨i, hi⟩
      exact hs.not_agrees_vTaskDelete hm hkeeps.1
    · refine ha fun j hj => ?_
      have h0 : k ≠ 0 := hs.handle_ne (Rtos.managed_iff.mpr ⟨i, hi⟩)
      have hij := hs.slot_unique (hj ▸ h0) (hj.trans ((hs.inverse i k h0).mpr hi).symm)
      rwa [hij]
  | leaveSuspend k => exact ha trivial

theorem sound_init (others : Others) : (init others).Sound where
  null := by simp [Rtos.params, init, others.null_dead]
  inverse i h h0 := by
    refine iff_of_false (fun hz => h0 hz.symm) fun hp => ?_
    obtain ⟨st, hst, hi⟩ := Rtos.params_eq_some.mp hp
    rw [others.unmanaged h st hst] at hi
    cases hi
  unnamed _ _ := rfl

/-- **Table and scheduler agree** along the runs in which no managed task deletes or
restarts itself or destroys all tasks, no task without a name is destroyed, and no
task without a function starts. -/
theorem agrees_iff (others : Others) (acts : List Act) (s : Rtos)
    (hrun : run step (init others) acts = some s) :
    Along step Keeps (init others) acts ↔ Along step Safe (init others) acts := by
  have hiff : ∀ s a, Rtos.Sound s → (∃ s₁, step s a = some s₁) → (Keeps s a ↔ Safe s a) := by
    rintro s a hs ⟨s₁, hs₁⟩
    constructor
    · intro hkeeps
      by_contra ha
      exact not_keeps hs hs₁ ha hkeeps
    · intro ha s' hs'
      refine ⟨(sound_step hs ha hs').agrees, ?_⟩
      rintro caller rfl
      obtain rfl := Option.some.inj (step_call hs')
      exact (hs.destroy ha).2
  have hstep : ∀ s a s', Rtos.Sound s → (∃ s₁, step s a = some s₁) → Safe s a →
      step s a = some s' → Rtos.Sound s' := fun s a s' hs _ ha => sound_step hs ha
  exact along_iff hiff hstep (sound_init others) (along_of_run hrun)

/-- `app_main`, the one task at the start. -/
def mainTask : Others where
  live h := if h = 1 then some ⟨none, 4096, 1, true, false, none⟩ else none
  null_dead := rfl
  unmanaged h st hst := by
    by_cases h1 : h = 1
    · rw [if_pos h1] at hst
      obtain rfl := Option.some.inj hst
      rfl
    · rw [if_neg h1] at hst
      cases hst

/-- A task that is added, started, suspended, resumed and destroyed. -/
def orderly : List Act :=
  [.call 1 (.addTask ⟨0, some "control", some 7, 0, 10, 0, 0, 0⟩ (some 2)), .start 2,
    .call 1 (.suspendTask 2), .call 1 (.resumeTask 2), .call 1 .destroy]

theorem orderly_keeps : Along step Keeps (init mainTask) orderly := by
  obtain ⟨s, hs⟩ : ∃ s, run step (init mainTask) orderly = some s :=
    Option.isSome_iff_exists.mp (by decide +kernel)
  exact (agrees_iff mainTask orderly s hs).mpr (by decide +kernel)

/-- A task without a name is added, and all tasks are destroyed. -/
def nameless : List Act :=
  [.call 1 (.addTask ⟨0, none, some 7, 0, 10, 0, 0, 0⟩ (some 2)), .call 1 .destroy]

/-- The task without a name is still there. -/
theorem nameless_survives : ¬ ∀ (others : Others) (acts : List Act) (s : Rtos),
    run step (init others) acts = some s → Along step Keeps (init others) acts := by
  intro hall
  obtain ⟨s, hs⟩ : ∃ s, run step (init mainTask) nameless = some s :=
    Option.isSome_iff_exists.mp (by decide +kernel)
  obtain ⟨-, hrest⟩ := hall mainTask nameless s hs
  obtain ⟨s₁, hs₁, hrun⟩ := run_cons_eq_some step hs
  obtain ⟨s₂, hs₂, hnil⟩ := run_cons_eq_some step hrun
  have hgone : ¬ s₂.Managed 2 := ((hrest s₁ hs₁).1 s₂ hs₂).2 1 rfl 2
  have hstill : ∀ s ∈ run step (init mainTask) nameless, s.Managed 2 := by decide +kernel
  obtain rfl := Option.some.inj hnil
  exact hgone (hstill s₂ hs)

end KartStack.KmRtos
