import KartStack.Transitions
import Mathlib.Data.List.FinRange
import Mathlib.Logic.Function.Basic

/-! # The task table of the ESP32

`km_rtos.c` keeps a table of ten `RTOS_Task` entries beside what the FreeRTOS
scheduler knows.  A slot is free when its handle is `NULL`; a task created through
`KM_RTOS_AddTask` gets a pointer to its slot as parameter.

The scheduler is a map from handles to live tasks.  `xTaskCreate` answers with a
handle that is not in use, or fails.  `vTaskDelete` and `vTaskSuspend` of the
calling task do not return — the first never, the second once the task is resumed
— so a call has a result only if it gets to its `return`.
-/
namespace KartStack.KmRtos

/-- `RTOS_MAX_TASKS`. -/
def maxTasks : Nat := 10

/-- An index into `tasks`. -/
abbrev Slot := Fin maxTasks

/-- A `TaskHandle_t`; 0 is `NULL`. -/
abbrev Handle := Nat

/-- `RTOS_Task`; the name and the function may be `NULL`. -/
structure RtosTask where
  handle : Handle
  name : Option String
  /-- Which function the pointer is of. -/
  taskFn : Option Nat
  context : Nat
  periodMs : UInt32
  stackSize : UInt16
  priority : UInt32
  active : UInt8
  deriving DecidableEq, Repr

/-- An entry set to zero by `memset`. -/
def RtosTask.zero : RtosTask := ⟨0, none, none, 0, 0, 0, 0, 0⟩

/-- `esp_err_t`, as far as it is used. -/
inductive EspErr where
  | ok
  | fail
  deriving DecidableEq, Repr

/-- What the scheduler knows of a live task. -/
structure TaskState where
  /-- The slot its parameter points to, for a task created by `KM_RTOS_AddTask`. -/
  param : Option Slot
  stackSize : UInt16
  priority : UInt32
  /-- It has run. -/
  started : Bool
  suspended : Bool
  /-- It is in `KM_RTOS_SuspendTask`, behind `vTaskSuspend`, for this slot. -/
  pending : Option Slot
  deriving DecidableEq, Repr

/-- The table, and the live tasks by handle. -/
structure Rtos where
  tasks : Slot → RtosTask
  live : Handle → Option TaskState

namespace Rtos

/-- An entry is written. -/
def setSlot (s : Rtos) (i : Slot) (task : RtosTask) : Rtos :=
  { s with tasks := Function.update s.tasks i task }

@[simp] theorem tasks_setSlot_self (s : Rtos) (i : Slot) (task : RtosTask) :
    (s.setSlot i task).tasks i = task := Function.update_self ..

theorem tasks_setSlot_of_ne {s : Rtos} {i j : Slot} {task : RtosTask} (h : j ≠ i) :
    (s.setSlot i task).tasks j = s.tasks j := Function.update_of_ne h ..

/-- What the scheduler knows of a live task changes. -/
def modify (s : Rtos) (h : Handle) (f : TaskState → TaskState) : Rtos :=
  { s with live := Function.update s.live h ((s.live h).map f) }

/-! ## The scheduler -/

/-- The task a handle means when `caller` passes it. -/
def target (caller h : Handle) : Handle := if h = 0 then caller else h

/-- `vTaskDelete`, and whether it returns. -/
def vTaskDelete (caller h : Handle) (s : Rtos) : Rtos × Bool :=
  ({ s with live := Function.update s.live (target caller h) none },
    decide (target caller h ≠ caller))

/-- `vTaskResume`; a `NULL` handle resumes nothing. -/
def vTaskResume (h : Handle) (s : Rtos) : Rtos :=
  s.modify h fun st => { st with suspended := false }

/-- `vTaskPrioritySet`. -/
def vTaskPrioritySet (caller h : Handle) (priority : UInt32) (s : Rtos) : Rtos :=
  s.modify (target caller h) fun st => { st with priority := priority }

/-! ## The library -/

/-- `KM_RTOS_FindTask`. -/
def findTask (s : Rtos) (h : Handle) : Option Slot :=
  (List.finRange maxTasks).find? fun i => (s.tasks i).handle = h

/-- The slot at which the loop of `KM_RTOS_AddTask` stops. -/
def freeSlot (s : Rtos) : Option Slot :=
  (List.finRange maxTasks).find? fun i => (s.tasks i).handle = 0

/-- `RTOS_DEFAULT_PRIORITY`. -/
def defaultPriority : UInt32 := 1
/-- `RTOS_DEFAULT_STACK_SIZE`. -/
def defaultStackSize : UInt16 := 1024
/-- `RTOS_DEFAULT_PERIOD_MS`. -/
def defaultPeriodMs : UInt32 := 50

/-- The entry `KM_RTOS_AddTask` stores for a task. -/
def stored (task : RtosTask) : RtosTask :=
  { task with
    active := 1
    priority := if task.priority = 0 then defaultPriority else task.priority
    stackSize := if task.stackSize = 0 then defaultStackSize else task.stackSize
    periodMs := if task.periodMs = 0 then defaultPeriodMs else task.periodMs }

/-- `KM_RTOS_AddTask`, given what `xTaskCreate` answers: the handle of the task it
creates, or `none` where it fails.  A handle in use is no possible answer. -/
def addTask (task : RtosTask) (answer : Option Handle) (s : Rtos) : Option (Rtos × EspErr) :=
  match s.freeSlot with
  | none => some (s, .fail)
  | some i =>
    match answer with
    | none => some (s.setSlot i .zero, .fail)
    | some h =>
      if h ≠ 0 ∧ s.live h = none then
        some ({ s.setSlot i { stored task with handle := h } with
          live := Function.update s.live h
            (some ⟨some i, task.stackSize, task.priority, false, false, none⟩) }, .ok)
      else none

/-- `KM_RTOS_DeleteTask`; no result where it does not return. -/
def deleteTask (caller h : Handle) (s : Rtos) : Rtos × Option EspErr :=
  match s.findTask h with
  | none => (s, some .fail)
  | some i =>
    if (s.tasks i).handle = h then
      let r := s.vTaskDelete caller h
      if r.2 then (r.1.setSlot i .zero, some .ok) else (r.1, none)
    else (s, some .fail)

/-- The rest of `KM_RTOS_SuspendTask` behind `vTaskSuspend`. -/
def markInactive (s : Rtos) (i : Slot) : Rtos := s.setSlot i { s.tasks i with active := 0 }

/-- `KM_RTOS_SuspendTask`; no result yet where the caller suspends itself. -/
def suspendTask (caller h : Handle) (s : Rtos) : Rtos × Option EspErr :=
  match s.findTask h with
  | none => (s, some .fail)
  | some i =>
    if (s.tasks i).handle = h ∧ (s.tasks i).active ≠ 0 then
      if target caller h = caller then
        (s.modify caller fun st => { st with suspended := true, pending := some i }, none)
      else ((s.modify h fun st => { st with suspended := true }).markInactive i, some .ok)
    else (s, some .fail)

/-- `KM_RTOS_ResumeTask`, which returns 0 for a handle it does not find. -/
def resumeTask (h : Handle) (s : Rtos) : Rtos × EspErr :=
  match s.findTask h with
  | none => (s, .ok)
  | some i =>
    if (s.tasks i).handle = h ∧ (s.tasks i).active = 0 then
      let s := s.vTaskResume h
      (s.setSlot i { s.tasks i with active := 1 }, .ok)
    else (s, .fail)

/-- `KM_RTOS_RestartTask`. -/
def restartTask (caller h : Handle) (answer : Option Handle) (s : Rtos) :
    Option (Rtos × Option EspErr) :=
  match s.findTask h with
  | none => some (s, some .fail)
  | some i =>
    let copy := s.tasks i
    match s.deleteTask caller h with
    | (s, none) => some (s, none)
    | (s, some .fail) => some (s, some .fail)
    | (s, some .ok) => (s.addTask copy answer).map fun r => (r.1, some r.2)

/-- `KM_RTOS_ChangePriority`. -/
def changePriority (caller h : Handle) (newPriority : UInt8) (s : Rtos) : Rtos × EspErr :=
  match s.findTask h with
  | none => (s, .fail)
  | some i =>
    let s := s.vTaskPrioritySet caller (s.tasks i).handle newPriority.toUInt32
    (s.setSlot i { s.tasks i with priority := newPriority.toUInt32 }, .ok)

/-- The loop of `KM_RTOS_Destroy` over the slots, and whether it is left. -/
def destroyLoop (caller : Handle) : List Slot → Rtos → Rtos × Bool
  | [], s => (s, true)
  | i :: is, s =>
    if (s.tasks i).name ≠ none then
      let r := s.vTaskDelete caller (s.tasks i).handle
      if r.2 then destroyLoop caller is r.1 else r
    else destroyLoop caller is s

/-- `KM_RTOS_Destroy`. -/
def destroy (caller : Handle) (s : Rtos) : Rtos :=
  let r := destroyLoop caller (List.finRange maxTasks) s
  if r.2 then { r.1 with tasks := fun _ => .zero } else r.1

end Rtos

/-! ## Runs -/

/-- A call of the interface. -/
inductive Op where
  | addTask (task : RtosTask) (answer : Option Handle)
  | deleteTask (h : Handle)
  | suspendTask (h : Handle)
  | resumeTask (h : Handle)
  | restartTask (h : Handle) (answer : Option Handle)
  | changePriority (h : Handle) (newPriority : UInt8)
  | destroy
  deriving Repr

/-- What happens next. -/
inductive Act where
  /-- A task makes a call. -/
  | call (caller : Handle) (op : Op)
  /-- A task created by `KM_RTOS_AddTask` runs for the first time. -/
  | start (h : Handle)
  /-- A task that suspended itself and was resumed gets out of `KM_RTOS_SuspendTask`. -/
  | leaveSuspend (h : Handle)
  deriving Repr

/-- The effect of a call. -/
def Op.apply (caller : Handle) (s : Rtos) : Op → Option Rtos
  | .addTask task answer => (s.addTask task answer).map Prod.fst
  | .deleteTask h => some (s.deleteTask caller h).1
  | .suspendTask h => some (s.suspendTask caller h).1
  | .resumeTask h => some (s.resumeTask h).1
  | .restartTask h answer => (s.restartTask caller h answer).map Prod.fst
  | .changePriority h newPriority => some (s.changePriority caller h newPriority).1
  | .destroy => some (s.destroy caller)

/-- The task is able to make a call: it runs its own code. -/
def TaskState.Ready (st : TaskState) : Prop :=
  st.suspended = false ∧ st.pending = none ∧ (st.param = none ∨ st.started = true)

instance (st : TaskState) : Decidable st.Ready := inferInstanceAs (Decidable (_ ∧ _ ∧ _))

/-- One act; `none` where it is not possible. -/
def step (s : Rtos) : Act → Option Rtos
  | .call caller op =>
    match s.live caller with
    | some st => if st.Ready then op.apply caller s else none
    | none => none
  | .start h =>
    match s.live h with
    | some ⟨some i, _, _, false, false, _⟩ =>
      -- `KM_RTOS_TaskWrapper` deletes itself if there is no function to run
      if (s.tasks i).taskFn = none then some (s.vTaskDelete h 0).1
      else some (s.modify h fun st => { st with started := true })
    | _ => none
  | .leaveSuspend h =>
    match s.live h with
    | some ⟨_, _, _, _, false, some i⟩ =>
      some ((s.modify h fun st => { st with pending := none }).markInactive i)
    | _ => none

/-- The tasks of the system that `KM_RTOS_AddTask` did not create. -/
structure Others where
  live : Handle → Option TaskState
  null_dead : live 0 = none
  unmanaged : ∀ h st, live h = some st → st.param = none

/-- `KM_RTOS_Init`. -/
def init (others : Others) : Rtos := ⟨fun _ => .zero, others.live⟩

end KartStack.KmRtos
