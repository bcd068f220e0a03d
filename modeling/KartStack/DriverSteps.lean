import KartStack.DriverMachine

/-! # What the driver's steps do and what they leave alone

What an action of the owner or of the environment does is said once (`step_start`,
`step_send`, …).  A step of one thread touches little (`RxFrame`, `TxFrame`), and the
threads come and go in one way only: the supervisor creates `rx_loop` and `tx_loop`,
and only `stop` joins them (`Life`).
-/
namespace KartStack.SerialDriver.Driver

/-! ## The owner and the environment -/

/-- The driver once `stop` has cleared `running_`. -/
def stopped (s : Driver) : Driver := { s with running := false, stop := .notify }

section
variable {s s' : Driver}

theorem step_start (h : s.step .start = some s') :
    s.sup = .notStarted ∧ s.stop.Quiet ∧
      s' = { s with running := true, sup := .testRun, supJoinable := true } := by
  rw [step] at h
  split at h
  · rename_i hc
    exact ⟨hc.1, hc.2, (Option.some.inj h).symm⟩
  · cases h

theorem step_stopCall_iff : s.step .stopCall = some s' ↔ s.stop.Quiet ∧ s' = s.stopped := by
  rw [step, stopped]
  by_cases hq : s.stop.Quiet
  · rw [if_pos hq, Option.some.injEq, eq_comm]
    exact (and_iff_right hq).symm
  · rw [if_neg hq]
    exact ⟨fun h => (by cases h), fun h => absurd h.1 hq⟩

/-- `send` drops what is too long for a frame; else it queues a frame and notifies. -/
theorem step_send {type : UInt8} {payload : List UInt8}
    (h : s.step (.send type payload) = some s') :
    s.tx.locked = false ∧ (s' = s ∨ payload.length ≤ 251 ∧
      s' = { s with
        txQueue := enqueue s.txQueue type payload
        queued := enqueue s.queued type payload
        tx := s.tx.notified }) := by
  rw [step] at h
  split at h
  · cases h
  · rename_i hunlocked
    refine ⟨eq_false_of_ne_true hunlocked, ?_⟩
    split at h
    · exact Or.inl (Option.some.inj h).symm
    · rename_i hlen
      exact Or.inr ⟨Nat.not_lt.mp hlen, (Option.some.inj h).symm⟩

theorem step_arrive {bytes : List RxByte} (h : s.step (.arrive bytes) = some s') :
    s' = { s with pending := s.pending ++ bytes } :=
  (Option.some.inj h).symm

theorem step_readFail (h : s.step .readFail = some s') :
    s.rx = .inRead ∧ s' = { s with rx := .closing } := by
  rw [step] at h
  split at h
  · exact ⟨‹_›, (Option.some.inj h).symm⟩
  · cases h

theorem step_spurious (h : s.step .spurious = some s') :
    s.tx = .waiting ∧ s' = { s with tx := .woken } := by
  rw [step] at h
  split at h
  · exact ⟨‹_›, (Option.some.inj h).symm⟩
  · cases h

end

/-! ## Frames -/

@[simp] theorem closePort_fd_neg (s : Driver) : s.closePort.fd < 0 := by
  rw [closePort]
  split
  · exact Int.negSucc_lt_zero 0
  · rename_i h
    exact Int.not_le.mp h

theorem closePort_of_neg {s : Driver} (h : s.fd < 0) : s.closePort = s := by
  rw [closePort, if_neg (Int.not_le.mpr h)]

/-- Closing the port touches the descriptor and what the port holds. -/
theorem closePort_eq (s : Driver) :
    s.closePort = { s with fd := s.closePort.fd, pending := s.closePort.pending } := by
  rw [closePort]
  split <;> rfl

/-- What a step of `rx_loop` leaves alone. -/
structure RxFrame (s s' : Driver) : Prop where
  active : ¬ s.rx.Idle
  started : s'.rx ≠ .notStarted
  running : s'.running = s.running
  txQueue : s'.txQueue = s.txQueue
  tx : s'.tx = s.tx
  sup : s'.sup = s.sup
  stop : s'.stop = s.stop
  rxJoinable : s'.rxJoinable = s.rxJoinable
  txJoinable : s'.txJoinable = s.txJoinable
  supJoinable : s'.supJoinable = s.supJoinable
  queued : s'.queued = s.queued
  written : s'.written = s.written
  openCalls : s'.openCalls = s.openCalls
  iterations : s'.iterations = s.iterations
  fd : s.rx ≠ .closing → s'.fd = s.fd
  closed : s.fd < 0 → s'.fd < 0

/-- What a step of `tx_loop` leaves alone. -/
structure TxFrame (s s' : Driver) : Prop where
  active : ¬ s.tx.Idle
  started : s'.tx ≠ .notStarted
  running : s'.running = s.running
  rx : s'.rx = s.rx
  sup : s'.sup = s.sup
  stop : s'.stop = s.stop
  rxJoinable : s'.rxJoinable = s.rxJoinable
  txJoinable : s'.txJoinable = s.txJoinable
  supJoinable : s'.supJoinable = s.supJoinable
  queued : s'.queued = s.queued
  openCalls : s'.openCalls = s.openCalls
  iterations : s'.iterations = s.iterations
  fd : s.tx ≠ .closing → s'.fd = s.fd
  closed : s.fd < 0 → s'.fd < 0
  pending : s.tx ≠ .closing → s'.pending = s.pending

/-- The supervisor has found `rx_thread_` not joinable. -/
def SupPc.pastRx : SupPc → Bool
  | .guardTx | .openPort | .spawnRx => true
  | _ => false

/-- The supervisor has found `tx_thread_` not joinable. -/
def SupPc.pastTx : SupPc → Bool
  | .openPort | .spawnRx | .spawnTx => true
  | _ => false

/-- What a step of the supervisor leaves alone, and which steps touch the rest. -/
structure SupFrame (s s' : Driver) : Prop where
  active : ¬ (s.sup = .notStarted ∨ s.sup = .returned)
  started : s'.sup ≠ .notStarted
  stopped : s'.sup = .returned → s.running = false
  running : s'.running = s.running
  txQueue : s'.txQueue = s.txQueue
  stop : s'.stop = s.stop
  supJoinable : s'.supJoinable = s.supJoinable
  queued : s'.queued = s.queued
  written : s'.written = s.written
  rx : s'.rx = s.rx ∨ s.sup = .spawnRx
  tx : s'.tx = s.tx ∨ s.sup = .spawnTx ∧ s'.tx = .testRun
  rxJoinable : s.sup ≠ .spawnRx → s'.rxJoinable = s.rxJoinable
  txJoinable : s.sup ≠ .spawnTx → s'.txJoinable = s.txJoinable
  fd : s.sup ≠ .openPort → s'.fd = s.fd
  pending : s.sup ≠ .openPort → s'.pending = s.pending
  openCalls : s.sup ≠ .openPort → s'.openCalls = s.openCalls
  spawnRx : s.sup = .spawnRx → s'.rx ≠ .notStarted ∧ s'.rxJoinable = true
  spawnTx : s.sup = .spawnTx → s'.tx ≠ .notStarted ∧ s'.txJoinable = true
  pastRx : SupPc.pastRx s'.sup →
    s.sup ≠ .spawnRx ∧ (SupPc.pastRx s.sup ∨ s.rxJoinable = false)
  pastTx : SupPc.pastTx s'.sup →
    s.sup ≠ .spawnTx ∧ (SupPc.pastTx s.sup ∨ s.txJoinable = false)

/-- What a step of `stop` leaves alone, and which steps touch the rest. -/
structure StopFrame (s s' : Driver) : Prop where
  underWay : ¬ s.stop.Quiet
  running : s'.running = s.running
  txQueue : s'.txQueue = s.txQueue
  rx : s'.rx = s.rx
  sup : s'.sup = s.sup
  queued : s'.queued = s.queued
  written : s'.written = s.written
  openCalls : s'.openCalls = s.openCalls
  tx : s'.tx = s.tx ∨ s'.tx = s.tx.notified
  rxJoinable : s'.rxJoinable = s.rxJoinable ∨ s'.rxJoinable = false ∧ s.rx = .returned
  txJoinable : s'.txJoinable = s.txJoinable ∨ s'.txJoinable = false ∧ s.tx = .returned
  supJoinable : s'.supJoinable = s.supJoinable ∨ s'.supJoinable = false ∧ s.sup = .returned
  fd : s.stop ≠ .closePort → s'.fd = s.fd
  closed : s.fd < 0 → s'.fd < 0
  pending : s.stop ≠ .closePort → s'.pending = s.pending

theorem rxStep_frame {s s' : Driver} {count : Nat} (h : s.rxStep count = some s') :
    RxFrame s s' := by
  rw [rxStep] at h
  cases hrx : s.rx with
  | notStarted | returned =>
    rw [hrx] at h
    cases h
  | entry | testRun | testFd | callRead =>
    rw [hrx] at h
    obtain rfl := Option.some.inj h
    constructor <;> simp [RxPc.Idle, hrx] <;> split <;> simp
  | inRead =>
    rw [hrx] at h
    dsimp only at h
    split at h
    · obtain rfl := Option.some.inj h
      constructor <;> simp [RxPc.Idle, hrx]
    · cases h
  | closing =>
    rw [hrx] at h
    obtain rfl := Option.some.inj h
    rw [closePort_eq]
    constructor <;> simp [RxPc.Idle, hrx]

/-- `tx_loop` takes a frame off its queue. -/
theorem txStep_pop {s s' : Driver} {result : Int} (htx : s.tx = .pop)
    (h : s.txStep result = some s') :
    (s.txQueue = [] ∧ s' = { s with tx := .undefined }) ∨
    ∃ frame txQueue, s.txQueue = frame :: txQueue ∧
      s' = { s with txQueue := txQueue, tx := .checkFd frame } := by
  rw [txStep, htx] at h
  dsimp only at h
  cases hq : s.txQueue with
  | nil =>
    rw [hq] at h
    exact .inl ⟨rfl, (Option.some.inj h).symm⟩
  | cons frame txQueue =>
    rw [hq] at h
    exact .inr ⟨frame, txQueue, rfl, (Option.some.inj h).symm⟩

/-- `tx_loop` writes a frame: an error makes it close the port. -/
theorem txStep_write {s s' : Driver} {result : Int} {frame : List UInt8}
    (htx : s.tx = .write frame) (h : s.txStep result = some s') :
    (result < 0 ∧ s' = { s with tx := .closing }) ∨
    (0 ≤ result ∧
      s' = { s with written := s.written ++ frame.take result.toNat, tx := .testRun }) := by
  rw [txStep, htx] at h
  dsimp only at h
  split at h
  · by_cases hneg : result < 0
    · rw [if_pos hneg] at h
      exact .inl ⟨hneg, (Option.some.inj h).symm⟩
    · rw [if_neg hneg] at h
      exact .inr ⟨Int.not_lt.mp hneg, (Option.some.inj h).symm⟩
  · cases h

theorem txStep_frame {s s' : Driver} {result : Int} (h : s.txStep result = some s') :
    TxFrame s s' := by
  cases htx : s.tx with
  | notStarted | waiting | returned | undefined =>
    rw [txStep, htx] at h
    cases h
  | testRun | lock | predQueue | predRun | predFd | enterWait | woken | checkRun | checkFd =>
    rw [txStep, htx] at h
    obtain rfl := Option.some.inj h
    constructor <;> simp [TxPc.Idle, htx] <;> split <;> simp
  | pop =>
    obtain ⟨-, rfl⟩ | ⟨frame, txQueue, -, rfl⟩ := txStep_pop htx h <;>
      constructor <;> simp [TxPc.Idle, htx]
  | write frame =>
    rcases txStep_write htx h with ⟨-, rfl⟩ | ⟨-, rfl⟩ <;> constructor <;> simp [TxPc.Idle, htx]
  | closing =>
    rw [txStep, htx] at h
    obtain rfl := Option.some.inj h
    rw [closePort_eq]
    constructor <;> simp [TxPc.Idle, htx]

theorem supStep_frame {s s' : Driver} {opened : Option Nat} (h : s.supStep opened = some s') :
    SupFrame s s' := by
  unfold supStep at h
  cases hsup : s.sup with
  | notStarted | returned =>
    rw [hsup] at h
    cases h
  | testRun =>
    rw [hsup] at h
    obtain rfl := Option.some.inj h
    cases hrun : s.running <;> constructor <;> simp [hsup, hrun, SupPc.pastRx, SupPc.pastTx]
  | guardFd =>
    rw [hsup] at h
    obtain rfl := Option.some.inj h
    by_cases hfd : s.fd < 0 <;> constructor <;> simp [hsup, hfd, SupPc.pastRx, SupPc.pastTx]
  | guardRx =>
    rw [hsup] at h
    obtain rfl := Option.some.inj h
    cases hj : s.rxJoinable <;> constructor <;> simp [hsup, hj, SupPc.pastRx, SupPc.pastTx]
  | guardTx =>
    rw [hsup] at h
    obtain rfl := Option.some.inj h
    cases hj : s.txJoinable <;> constructor <;> simp [hsup, hj, SupPc.pastRx, SupPc.pastTx]
  | openPort =>
    rw [hsup] at h
    cases opened <;> obtain rfl := Option.some.inj h <;> constructor <;>
      simp [hsup, SupPc.pastRx, SupPc.pastTx]
  | spawnRx | spawnTx =>
    rw [hsup] at h
    dsimp only at h
    split at h
    · cases h
    · obtain rfl := Option.some.inj h
      constructor <;> simp [hsup, SupPc.pastRx, SupPc.pastTx]
  | sleep =>
    rw [hsup] at h
    obtain rfl := Option.some.inj h
    constructor <;> simp [hsup, SupPc.pastRx, SupPc.pastTx]

theorem stopStep_frame {s s' : Driver} (h : s.stopStep = some s') : StopFrame s s' := by
  rw [stopStep] at h
  cases hstop : s.stop with
  | idle | returned =>
    rw [hstop] at h
    cases h
  | notify | testRx | testTx | testSup =>
    rw [hstop] at h
    obtain rfl := Option.some.inj h
    constructor <;> simp [StopPc.Quiet, hstop]
  | joinRx | joinTx | joinSup =>
    rw [hstop] at h
    dsimp only at h
    split at h
    · rename_i hret
      obtain rfl := Option.some.inj h
      constructor <;> simp [StopPc.Quiet, hstop, hret]
    · cases h
  | closePort =>
    rw [hstop] at h
    obtain rfl := Option.some.inj h
    rw [closePort_eq]
    constructor <;> simp [StopPc.Quiet, hstop]

/-! ## The life of the threads -/

/-- A `std::thread` handle and its thread: joinable from the creation of the thread
until it is joined, and only `stop` joins. -/
def Handled (joinable running : Bool) (fresh gone : Prop) : Prop :=
  if joinable then ¬ fresh else fresh ∨ (gone ∧ running = false)

/-- How the threads come and go. -/
structure Life (s : Driver) : Prop where
  rx : Handled s.rxJoinable s.running (s.rx = .notStarted) (s.rx = .returned)
  tx : Handled s.txJoinable s.running (s.tx = .notStarted) (s.tx = .returned)
  sup : Handled s.supJoinable s.running (s.sup = .notStarted) (s.sup = .returned)
  /-- Without a supervisor there are no other threads. -/
  fresh : s.sup = .notStarted → s.rx = .notStarted ∧ s.tx = .notStarted
  pastRx : SupPc.pastRx s.sup → s.rxJoinable = false
  pastTx : SupPc.pastTx s.sup → s.txJoinable = false
  stopping : ¬ s.stop.Quiet → s.running = false
  supReturned : s.sup = .returned → s.running = false

theorem life_init : Life init where
  rx := Or.inl rfl
  tx := Or.inl rfl
  sup := Or.inl rfl
  fresh _ := ⟨rfl, rfl⟩
  pastRx h := by cases h
  pastTx h := by cases h
  stopping h := absurd (Or.inl rfl) h
  supReturned h := by cases h

theorem Handled.stopped {joinable running : Bool} {fresh gone : Prop}
    (h : Handled joinable running fresh gone) : Handled joinable false fresh gone := by
  rw [Handled] at h ⊢
  split
  · rwa [if_pos ‹_›] at h
  · rw [if_neg ‹_›] at h
    exact h.imp_right fun h => ⟨h.1, rfl⟩

/-- An active thread is joinable. -/
theorem Handled.joinable_of_active {joinable running : Bool} {fresh gone : Prop}
    (h : Handled joinable running fresh gone) (hactive : ¬ (fresh ∨ gone)) : joinable = true := by
  rw [Handled] at h
  by_contra hj
  rw [if_neg hj] at h
  exact hactive (h.imp_right And.left)

/-- A thread once created is joinable while the driver is running. -/
theorem Handled.joinable_of_running {joinable running : Bool} {fresh gone : Prop}
    (h : Handled joinable running fresh gone) (hfresh : ¬ fresh) (hrun : running = true) :
    joinable = true := by
  rw [Handled] at h
  by_contra hj
  rw [if_neg hj, hrun] at h
  rcases h with h | ⟨-, hstopped⟩
  · exact hfresh h
  · cases hstopped

/-- A thread to be created has no handle yet. -/
theorem Handled.fresh_not_joinable {joinable running : Bool} {fresh gone : Prop}
    (h : Handled joinable running fresh gone) (hfresh : fresh) : joinable = false := by
  by_contra hj
  rw [Handled, if_pos (eq_true_of_ne_false hj)] at h
  exact h hfresh

/-- A thread that is not joinable is not running. -/
theorem Handled.idle {joinable running : Bool} {fresh gone : Prop}
    (h : Handled joinable running fresh gone) (hj : joinable = false) : fresh ∨ gone := by
  rw [Handled, hj] at h
  exact h.imp_right And.left

theorem Handled.of_joinable {joinable running : Bool} {fresh gone : Prop} (hj : joinable = true)
    (h : ¬ fresh) : Handled joinable running fresh gone := by
  rw [Handled, if_pos hj]
  exact h

theorem life_rx {s s' : Driver} (hl : Life s) {count : Nat} (h : s.rxStep count = some s') :
    Life s' := by
  have hf := rxStep_frame h
  have hj := hl.rx.joinable_of_active hf.active
  constructor
  · exact .of_joinable (hf.rxJoinable.trans hj) hf.started
  · rw [hf.txJoinable, hf.running, hf.tx]
    exact hl.tx
  · rw [hf.supJoinable, hf.running, hf.sup]
    exact hl.sup
  · intro hsup
    rw [hf.sup] at hsup
    exact absurd (Or.inl (hl.fresh hsup).1) hf.active
  · rw [hf.sup, hf.rxJoinable]
    exact hl.pastRx
  · rw [hf.sup, hf.txJoinable]
    exact hl.pastTx
  · rw [hf.stop, hf.running]
    exact hl.stopping
  · rw [hf.sup, hf.running]
    exact hl.supReturned

theorem life_tx {s s' : Driver} (hl : Life s) {result : Int} (h : s.txStep result = some s') :
    Life s' := by
  have hf := txStep_frame h
  have hj := hl.tx.joinable_of_active hf.active
  constructor
  · rw [hf.rxJoinable, hf.running, hf.rx]
    exact hl.rx
  · exact .of_joinable (hf.txJoinable.trans hj) hf.started
  · rw [hf.supJoinable, hf.running, hf.sup]
    exact hl.sup
  · intro hsup
    rw [hf.sup] at hsup
    exact absurd (Or.inl (hl.fresh hsup).2) hf.active
  · rw [hf.sup, hf.rxJoinable]
    exact hl.pastRx
  · rw [hf.sup, hf.txJoinable]
    exact hl.pastTx
  · rw [hf.stop, hf.running]
    exact hl.stopping
  · rw [hf.sup, hf.running]
    exact hl.supReturned

theorem life_sup {s s' : Driver} (hl : Life s) {opened : Option Nat}
    (h : s.supStep opened = some s') : Life s' := by
  have hf := supStep_frame h
  have hj := hl.sup.joinable_of_active hf.active
  constructor
  · by_cases hspawn : s.sup = .spawnRx
    · obtain ⟨hrx, hrxj⟩ := hf.spawnRx hspawn
      exact .of_joinable hrxj hrx
    · rw [hf.rxJoinable hspawn, hf.running, hf.rx.resolve_right hspawn]
      exact hl.rx
  · by_cases hspawn : s.sup = .spawnTx
    · obtain ⟨htx, htxj⟩ := hf.spawnTx hspawn
      exact .of_joinable htxj htx
    · rw [hf.txJoinable hspawn, hf.running, hf.tx.resolve_right fun hc => hspawn hc.1]
      exact hl.tx
  · exact .of_joinable (hf.supJoinable.trans hj) hf.started
  · intro hsup
    exact absurd hsup hf.started
  · intro hpast
    obtain ⟨hspawn, hfree⟩ := hf.pastRx hpast
    rw [hf.rxJoinable hspawn]
    exact hfree.elim hl.pastRx id
  · intro hpast
    obtain ⟨hspawn, hfree⟩ := hf.pastTx hpast
    rw [hf.txJoinable hspawn]
    exact hfree.elim hl.pastTx id
  · rw [hf.stop, hf.running]
    exact hl.stopping
  · intro hret
    exact hf.running.trans (hf.stopped hret)

@[simp] theorem notified_eq_notStarted {pc : TxPc} :
    pc.notified = .notStarted ↔ pc = .notStarted := by
  cases pc <;> simp [TxPc.notified]

@[simp] theorem notified_eq_returned {pc : TxPc} : pc.notified = .returned ↔ pc = .returned := by
  cases pc <;> simp [TxPc.notified]

theorem StopFrame.tx_iff {s s' : Driver} (h : StopFrame s s') :
    (s'.tx = .notStarted ↔ s.tx = .notStarted) ∧ (s'.tx = .returned ↔ s.tx = .returned) := by
  rcases h.tx with htx | htx
  · rw [htx]
    exact ⟨Iff.rfl, Iff.rfl⟩
  · rw [htx]
    exact ⟨notified_eq_notStarted, notified_eq_returned⟩

/-- A thread that has returned may be joined once the driver is stopped. -/
theorem Handled.joined {joinable joinable' : Bool} {fresh gone : Prop}
    (h : Handled joinable false fresh gone)
    (hj : joinable' = joinable ∨ joinable' = false ∧ gone) :
    Handled joinable' false fresh gone := by
  rcases hj with rfl | ⟨rfl, hgone⟩
  · exact h
  · exact Or.inr ⟨hgone, rfl⟩

theorem life_stop {s s' : Driver} (hl : Life s) (h : s.stopStep = some s') : Life s' := by
  have hf := stopStep_frame h
  have hrun := hl.stopping hf.underWay
  have hrun' := hf.running.trans hrun
  obtain ⟨hfreshTx, hgoneTx⟩ := hf.tx_iff
  constructor
  · rw [hrun', hf.rx]
    exact hl.rx.stopped.joined hf.rxJoinable
  · rw [hrun', hfreshTx, hgoneTx]
    exact hl.tx.stopped.joined hf.txJoinable
  · rw [hrun', hf.sup]
    exact hl.sup.stopped.joined hf.supJoinable
  · rw [hf.sup, hf.rx, hfreshTx]
    exact hl.fresh
  · intro hpast
    rw [hf.sup] at hpast
    exact hf.rxJoinable.elim (fun hsame => hsame.trans (hl.pastRx hpast)) And.left
  · intro hpast
    rw [hf.sup] at hpast
    exact hf.txJoinable.elim (fun hsame => hsame.trans (hl.pastTx hpast)) And.left
  · exact fun _ => hrun'
  · exact fun _ => hrun'

/-- **Every step keeps the life of the threads in order.** -/
theorem life_step {s s' : Driver} (hl : Life s) {a : Action} (h : s.step a = some s') :
    Life s' := by
  cases a with
  | start =>
    obtain ⟨hsup, hq, rfl⟩ := step_start h
    obtain ⟨hrx, htx⟩ := hl.fresh hsup
    have hrxj := hl.rx.fresh_not_joinable hrx
    have htxj := hl.tx.fresh_not_joinable htx
    refine ⟨?_, ?_, .of_joinable rfl (by simp), by simp, fun h => (by cases h),
      fun h => (by cases h), fun hstop => absurd hq hstop, by simp⟩
    · simp [Handled, hrx, hrxj]
    · simp [Handled, htx, htxj]
  | stopCall =>
    obtain ⟨-, rfl⟩ := step_stopCall_iff.mp h
    exact ⟨hl.rx.stopped, hl.tx.stopped, hl.sup.stopped, hl.fresh, hl.pastRx, hl.pastTx,
      fun _ => rfl, fun _ => rfl⟩
  | send type payload =>
    rcases step_send h with ⟨-, rfl | ⟨-, rfl⟩⟩
    · exact hl
    · exact ⟨hl.rx, by simpa using hl.tx, hl.sup, by simpa using hl.fresh, hl.pastRx, hl.pastTx,
        hl.stopping, hl.supReturned⟩
  | arrive bytes =>
    obtain rfl := step_arrive h
    exact ⟨hl.rx, hl.tx, hl.sup, hl.fresh, hl.pastRx, hl.pastTx, hl.stopping, hl.supReturned⟩
  | readFail =>
    obtain ⟨hread, rfl⟩ := step_readFail h
    have hj := hl.rx.joinable_of_active (by simp [hread])
    refine ⟨.of_joinable hj (by simp), hl.tx, hl.sup, ?_, hl.pastRx, hl.pastTx, hl.stopping,
      hl.supReturned⟩
    intro hsup
    have hfresh := (hl.fresh hsup).1
    rw [hread] at hfresh
    cases hfresh
  | spurious =>
    obtain ⟨hwait, rfl⟩ := step_spurious h
    have hj := hl.tx.joinable_of_active (by simp [hwait])
    refine ⟨hl.rx, .of_joinable hj (by simp), hl.sup, ?_, hl.pastRx, hl.pastTx, hl.stopping,
      hl.supReturned⟩
    intro hsup
    have hfresh := (hl.fresh hsup).2
    rw [hwait] at hfresh
    cases hfresh
  | rx count => exact life_rx hl h
  | tx result => exact life_tx hl h
  | sup opened => exact life_sup hl h
  | stop => exact life_stop hl h

/-- **In every state some interleaving leads to**, the life of the threads is in
order. -/
theorem Reachable.life {s : Driver} (h : Reachable s) : Life s :=
  Transitions.Reachable.inv h life_init fun _ _ _ hl h => life_step hl h

end KartStack.SerialDriver.Driver
