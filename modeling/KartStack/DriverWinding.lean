import KartStack.DriverSteps

/-! # How a stopped driver winds down

`stop` clears `running_` and notifies `tx_cv_` without taking `tx_mutex_`, then joins
the threads one after another.  A thread past its last test of `running_` is not
stopped by that: `rx_loop` may be on its way into a blocking `read`, `tx_loop` about
to wait for a notification that is past, and the supervisor about to open the port
and create the threads `stop` has already looked for.

Where no thread is at such a point (`RxSettles`, `TxSettles`, `SupSettles`), none gets
to one any more, whatever the interleaving (`winding_step`, `supSettles_step`).
-/
namespace KartStack.SerialDriver

/-- A call of `start` or `stop`. -/
def Action.Call : Action → Prop
  | .start | .stopCall => True
  | _ => False

/-- A step of the supervisor. -/
def Action.BySup : Action → Prop
  | .sup _ => True
  | _ => False

/-- `tx_loop` may close the port before it next tests `running_`. -/
def TxPc.mayClose : TxPc → Bool
  | .pop | .checkFd _ | .write _ | .closing => true
  | _ => false

/-- `rx_loop` may close the port before it next tests `running_`. -/
def RxPc.mayClose : RxPc → Bool
  | .testFd | .callRead | .inRead | .closing => true
  | _ => false

namespace Driver

/-- A `read` ahead of `rx_loop` finds bytes, and nobody takes them away. -/
def RxSettles (s : Driver) : Prop :=
  match s.rx with
  | .testFd | .callRead => s.fd < 0 ∨ s.pending ≠ [] ∧ s.tx.mayClose = false
  | .inRead => s.pending ≠ [] ∧ (s.fd < 0 ∨ s.tx.mayClose = false)
  | _ => True

/-- `tx_loop` is not about to wait, and the queue is not empty when it is popped. -/
def TxSettles (s : Driver) : Prop :=
  match s.tx with
  | .predFd => s.fd < 0
  | .pop => s.txQueue ≠ []
  | .enterWait | .undefined => False
  | _ => True

/-- The supervisor is not about to open the port, nor to find it closed. -/
def SupSettles (s : Driver) : Prop :=
  match s.sup with
  | .notStarted | .testRun | .sleep | .returned => True
  | .guardFd => 0 ≤ s.fd ∧ s.rx.mayClose = false ∧ s.tx.mayClose = false
  | .guardRx | .guardTx | .openPort | .spawnRx | .spawnTx => False

/-! ## Winding down -/

/-- How far `stop` has got with the three handles. -/
def Joins (s : Driver) : Prop :=
  match s.stop with
  | .idle => False
  | .notify | .testRx => True
  | .joinRx => s.rxJoinable = true
  | .testTx => s.rxJoinable = false
  | .joinTx => s.rxJoinable = false ∧ s.txJoinable = true
  | .testSup => s.rxJoinable = false ∧ s.txJoinable = false
  | .joinSup => s.rxJoinable = false ∧ s.txJoinable = false ∧ s.supJoinable = true
  | .closePort => s.rxJoinable = false ∧ s.txJoinable = false ∧ s.supJoinable = false
  | .returned =>
    s.rxJoinable = false ∧ s.txJoinable = false ∧ s.supJoinable = false ∧ s.fd < 0

/-- The driver has been stopped, and `rx_loop` and `tx_loop` are on their way out. -/
structure Winding (s : Driver) : Prop where
  life : Life s
  running : s.running = false
  rx : RxSettles s
  tx : TxSettles s
  joins : Joins s
  /-- The notification is still to come. -/
  waiting : s.tx = .waiting → s.stop = .notify

theorem Joins.of_eq {s s' : Driver} (h : Joins s) (hstop : s'.stop = s.stop)
    (hrx : s'.rxJoinable = s.rxJoinable) (htx : s'.txJoinable = s.txJoinable)
    (hsup : s'.supJoinable = s.supJoinable) (hfd : s.fd < 0 → s'.fd < 0) : Joins s' := by
  rw [Joins] at h ⊢
  rw [hstop, hrx, htx, hsup]
  cases hpc : s.stop with
  | returned =>
    rw [hpc] at h
    obtain ⟨h1, h2, h3, h4⟩ := h
    exact ⟨h1, h2, h3, hfd h4⟩
  | _ =>
    rw [hpc] at h
    exact h

/-- The other threads leave `rx_loop` its bytes, unless one of them closes the port
that it is to read from. -/
theorem RxSettles.of_eq {s s' : Driver} (h : RxSettles s) (hrx : s'.rx = s.rx)
    (hfd : s.fd < 0 → s'.fd < 0)
    (hpending : s.fd < 0 ∨ s.tx.mayClose = false → s.pending ≠ [] → s'.pending ≠ [])
    (hclose : s.tx.mayClose = false → s'.tx.mayClose = false) : RxSettles s' := by
  rw [RxSettles] at h ⊢
  rw [hrx]
  cases hpc : s.rx with
  | testFd | callRead =>
    rw [hpc] at h
    rcases h with h | ⟨hbytes, hopen⟩
    · exact Or.inl (hfd h)
    · exact Or.inr ⟨hpending (Or.inr hopen) hbytes, hclose hopen⟩
  | inRead =>
    rw [hpc] at h
    obtain ⟨hbytes, hport⟩ := h
    exact ⟨hpending hport hbytes, hport.imp hfd hclose⟩
  | _ => trivial

theorem TxSettles.of_eq {s s' : Driver} (h : TxSettles s) (htx : s'.tx = s.tx)
    (hfd : s.fd < 0 → s'.fd < 0) (hq : s'.txQueue = s.txQueue) : TxSettles s' := by
  rw [TxSettles] at h ⊢
  rw [htx, hq]
  cases hpc : s.tx with
  | predFd =>
    rw [hpc] at h
    exact hfd h
  | _ =>
    rw [hpc] at h
    exact h

/-- A notification does not get `tx_loop` into trouble. -/
theorem TxSettles.of_notified {s s' : Driver} (h : TxSettles s) (htx : s'.tx = s.tx.notified)
    (hfd : s.fd < 0 → s'.fd < 0) (hq : s.tx.locked = true → s'.txQueue = s.txQueue) :
    TxSettles s' := by
  rw [TxSettles] at h ⊢
  rw [htx]
  cases hpc : s.tx with
  | predFd =>
    rw [hpc] at h
    exact hfd h
  | pop =>
    rw [hpc] at h hq
    show s'.txQueue ≠ []
    rw [hq rfl]
    exact h
  | enterWait | undefined =>
    rw [hpc] at h
    exact h
  | _ => trivial

@[simp] theorem mayClose_notified (pc : TxPc) : pc.notified.mayClose = pc.mayClose := by
  cases pc <;> rfl

@[simp] theorem notified_ne_waiting (pc : TxPc) : pc.notified ≠ .waiting := by
  cases pc <;> exact TxPc.noConfusion

theorem closePort_pending_eq_nil {s : Driver} (h : s.pending = []) : s.closePort.pending = [] := by
  rw [closePort]
  split
  · rfl
  · exact h

/-! ### Steps of `rx_loop` -/

theorem rxSettles_rx {s s' : Driver} (h : Winding s) {count : Nat}
    (hs : s.rxStep count = some s') : RxSettles s' := by
  have hset := h.rx
  rw [rxStep] at hs
  rw [RxSettles] at hset
  cases hrx : s.rx with
  | notStarted | returned =>
    rw [hrx] at hs
    cases hs
  | entry =>
    rw [hrx] at hs
    obtain rfl := Option.some.inj hs
    trivial
  | testRun =>
    -- `rx_loop` finds that it has been stopped
    rw [hrx] at hs
    dsimp only at hs
    rw [h.running] at hs
    obtain rfl := Option.some.inj hs
    trivial
  | testFd =>
    rw [hrx] at hs hset
    obtain rfl := Option.some.inj hs
    rw [RxSettles]
    dsimp only
    by_cases hfd : s.fd ≥ 0
    · rw [if_pos hfd]
      exact hset
    · rw [if_neg hfd]
      trivial
  | callRead =>
    rw [hrx] at hs hset
    obtain rfl := Option.some.inj hs
    rw [RxSettles]
    dsimp only
    rcases hset with hfd | ⟨hbytes, hopen⟩
    · rw [if_pos hfd]
      trivial
    · split
      · rename_i hpc
        split at hpc <;> cases hpc
      · rename_i hpc
        split at hpc <;> cases hpc
      · exact ⟨hbytes, Or.inr hopen⟩
      · trivial
  | inRead =>
    rw [hrx] at hs
    dsimp only at hs
    split at hs
    · obtain rfl := Option.some.inj hs
      trivial
    · cases hs
  | closing =>
    rw [hrx] at hs
    obtain rfl := Option.some.inj hs
    trivial

theorem rxStep_mayClose {s s' : Driver} (hrun : s.running = false) {count : Nat}
    (hs : s.rxStep count = some s') (h : s.rx.mayClose = false) : s'.rx.mayClose = false := by
  rw [rxStep] at hs
  cases hrx : s.rx with
  | notStarted | returned =>
    rw [hrx] at hs
    cases hs
  | entry =>
    rw [hrx] at hs
    obtain rfl := Option.some.inj hs
    rfl
  | testRun =>
    rw [hrx] at hs
    dsimp only at hs
    rw [hrun] at hs
    obtain rfl := Option.some.inj hs
    rfl
  | testFd | callRead | inRead | closing =>
    rw [hrx] at h
    cases h

theorem winding_rx {s s' : Driver} (h : Winding s) {count : Nat}
    (hs : s.rxStep count = some s') : Winding s' := by
  have hf := rxStep_frame hs
  refine ⟨life_rx h.life hs, hf.running.trans h.running, rxSettles_rx h hs, ?_, ?_, ?_⟩
  · exact h.tx.of_eq hf.tx hf.closed hf.txQueue
  · exact h.joins.of_eq hf.stop hf.rxJoinable hf.txJoinable hf.supJoinable hf.closed
  · rw [hf.tx, hf.stop]
    exact h.waiting

/-! ### Steps of `tx_loop` -/

theorem txSettles_tx {s s' : Driver} (h : Winding s) {result : Int}
    (hs : s.txStep result = some s') : TxSettles s' ∧ s'.tx ≠ .waiting := by
  have hset := h.tx
  rw [TxSettles] at hset
  cases htx : s.tx with
  | notStarted | waiting | returned | undefined =>
    rw [txStep, htx] at hs
    cases hs
  | testRun | predRun | checkRun =>
    -- `tx_loop` finds that it has been stopped
    rw [txStep, htx] at hs
    dsimp only at hs
    rw [h.running] at hs
    obtain rfl := Option.some.inj hs
    exact ⟨trivial, TxPc.noConfusion⟩
  | lock | woken =>
    rw [txStep, htx] at hs
    obtain rfl := Option.some.inj hs
    exact ⟨trivial, TxPc.noConfusion⟩
  | predQueue =>
    rw [txStep, htx] at hs
    obtain rfl := Option.some.inj hs
    by_cases hq : s.txQueue = []
    · simp [TxSettles, hq]
    · simp [TxSettles, hq]
  | predFd =>
    rw [txStep, htx] at hs
    rw [htx] at hset
    obtain rfl := Option.some.inj hs
    simp [TxSettles, if_pos hset]
  | enterWait =>
    rw [htx] at hset
    exact hset.elim
  | pop =>
    rw [htx] at hset
    rcases txStep_pop htx hs with ⟨hq, -⟩ | ⟨frame, txQueue, -, rfl⟩
    · exact absurd hq hset
    · exact ⟨trivial, TxPc.noConfusion⟩
  | checkFd frame =>
    rw [txStep, htx] at hs
    obtain rfl := Option.some.inj hs
    by_cases hfd : s.fd ≥ 0
    · simp [TxSettles, hfd]
    · simp [TxSettles, hfd]
  | write frame =>
    rcases txStep_write htx hs with ⟨-, rfl⟩ | ⟨-, rfl⟩ <;> exact ⟨trivial, TxPc.noConfusion⟩
  | closing =>
    rw [txStep, htx] at hs
    obtain rfl := Option.some.inj hs
    exact ⟨trivial, TxPc.noConfusion⟩

theorem txStep_mayClose {s s' : Driver} (hrun : s.running = false) {result : Int}
    (hs : s.txStep result = some s') (h : s.tx.mayClose = false) : s'.tx.mayClose = false := by
  rw [txStep] at hs
  cases htx : s.tx with
  | notStarted | waiting | returned | undefined =>
    rw [htx] at hs
    cases hs
  | testRun | predRun | checkRun =>
    rw [htx] at hs
    dsimp only at hs
    rw [hrun] at hs
    obtain rfl := Option.some.inj hs
    rfl
  | lock | woken | enterWait =>
    rw [htx] at hs
    obtain rfl := Option.some.inj hs
    rfl
  | predQueue | predFd =>
    rw [htx] at hs
    obtain rfl := Option.some.inj hs
    dsimp only
    split <;> rfl
  | pop | checkFd | write | closing =>
    rw [htx] at h
    cases h

/-- `tx_loop` takes no bytes from a port it does not close. -/
theorem txStep_pending {s s' : Driver} {result : Int} (hs : s.txStep result = some s')
    (h : s.fd < 0 ∨ s.tx.mayClose = false) : s'.pending = s.pending := by
  have hf := txStep_frame hs
  by_cases htx : s.tx = .closing
  · rw [htx] at h
    rcases h with hfd | hopen
    · simp only [txStep, htx] at hs
      obtain rfl := Option.some.inj hs
      show s.closePort.pending = s.pending
      rw [closePort_of_neg hfd]
    · cases hopen
  · exact hf.pending htx

theorem winding_tx {s s' : Driver} (h : Winding s) {result : Int}
    (hs : s.txStep result = some s') : Winding s' := by
  have hf := txStep_frame hs
  obtain ⟨hset, hwait⟩ := txSettles_tx h hs
  refine ⟨life_tx h.life hs, hf.running.trans h.running, ?_, hset, ?_, fun hw => absurd hw hwait⟩
  · refine h.rx.of_eq hf.rx hf.closed ?_ (txStep_mayClose h.running hs)
    intro hport hbytes
    rw [txStep_pending hs hport]
    exact hbytes
  · exact h.joins.of_eq hf.stop hf.rxJoinable hf.txJoinable hf.supJoinable hf.closed

/-! ### Steps of the supervisor -/

/-- A supervisor that settles only looks on. -/
theorem SupSettles.looksOn {s : Driver} (h : SupSettles s) :
    s.sup ≠ .openPort ∧ s.sup ≠ .spawnRx ∧ s.sup ≠ .spawnTx := by
  rw [SupSettles] at h
  refine ⟨?_, ?_, ?_⟩ <;> intro hpc <;> rw [hpc] at h <;> exact h

theorem winding_sup {s s' : Driver} (h : Winding s) (hsup : SupSettles s) {opened : Option Nat}
    (hs : s.supStep opened = some s') : Winding s' := by
  have hf := supStep_frame hs
  obtain ⟨hopen, hspawnRx, hspawnTx⟩ := hsup.looksOn
  have hrx := hf.rx.resolve_right hspawnRx
  have htx := hf.tx.resolve_right fun hc => hspawnTx hc.1
  have hfd := hf.fd hopen
  refine ⟨life_sup h.life hs, hf.running.trans h.running, ?_, ?_, ?_, ?_⟩
  · refine h.rx.of_eq hrx (fun hneg => hfd ▸ hneg) ?_ fun hclose => htx ▸ hclose
    intro _ hbytes
    rw [hf.pending hopen]
    exact hbytes
  · exact h.tx.of_eq htx (fun hneg => hfd ▸ hneg) hf.txQueue
  · exact h.joins.of_eq hf.stop (hf.rxJoinable hspawnRx) (hf.txJoinable hspawnTx) hf.supJoinable
      fun hneg => hfd ▸ hneg
  · rw [htx, hf.stop]
    exact h.waiting

theorem supSettles_sup {s s' : Driver} (hrun : s.running = false) (h : SupSettles s)
    {opened : Option Nat} (hs : s.supStep opened = some s') : SupSettles s' := by
  unfold supStep at hs
  rw [SupSettles] at h
  cases hsup : s.sup with
  | notStarted | returned =>
    rw [hsup] at hs
    cases hs
  | testRun =>
    rw [hsup] at hs
    dsimp only at hs
    rw [hrun] at hs
    obtain rfl := Option.some.inj hs
    trivial
  | guardFd =>
    rw [hsup] at hs h
    dsimp only at hs
    rw [if_neg (Int.not_lt.mpr h.1)] at hs
    obtain rfl := Option.some.inj hs
    trivial
  | sleep =>
    rw [hsup] at hs
    obtain rfl := Option.some.inj hs
    trivial
  | guardRx | guardTx | openPort | spawnRx | spawnTx =>
    rw [hsup] at h
    exact h.elim

/-- The others leave the port open for a supervisor about to look. -/
theorem SupSettles.of_eq {s s' : Driver} (h : SupSettles s) (hsup : s'.sup = s.sup)
    (hport : s.sup = .guardFd → s.rx.mayClose = false → s.tx.mayClose = false →
      s'.fd = s.fd ∧ s'.rx.mayClose = false ∧ s'.tx.mayClose = false) : SupSettles s' := by
  rw [SupSettles] at h ⊢
  rw [hsup]
  cases hpc : s.sup with
  | guardFd =>
    rw [hpc] at h
    obtain ⟨hfd, hrx, htx⟩ := h
    obtain ⟨hfd', hrx', htx'⟩ := hport hpc hrx htx
    exact ⟨hfd' ▸ hfd, hrx', htx'⟩
  | _ =>
    rw [hpc] at h
    exact h

/-! ### Steps of `stop` -/

/-- Where `stop` has joined `rx_loop`, it is not running. -/
theorem rxSettles_of_joined {s : Driver} (hl : Life s) (hj : s.rxJoinable = false) :
    RxSettles s := by
  rcases hl.rx.idle hj with hrx | hrx
  · rw [RxSettles, hrx]
    trivial
  · rw [RxSettles, hrx]
    trivial

theorem winding_stop {s s' : Driver} (h : Winding s) (hs : s.stopStep = some s') : Winding s' := by
  have hl := life_stop h.life hs
  have hjoins := h.joins
  rw [stopStep] at hs
  rw [Joins] at hjoins
  -- `tx_loop` does not wait any more
  have hawake : s.stop ≠ .notify → s.tx ≠ .waiting := fun hne hw => hne (h.waiting hw)
  cases hpc : s.stop with
  | idle | returned =>
    rw [hpc] at hs
    cases hs
  | notify =>
    rw [hpc] at hs
    obtain rfl := Option.some.inj hs
    refine ⟨hl, h.running, ?_, h.tx.of_notified rfl id fun _ => rfl, trivial, ?_⟩
    · exact h.rx.of_eq rfl id (fun _ => id) fun hclose => (mayClose_notified s.tx).trans hclose
    · intro hw
      exact absurd hw (notified_ne_waiting s.tx)
  | testRx =>
    rw [hpc] at hs hawake
    obtain rfl := Option.some.inj hs
    refine ⟨hl, h.running, h.rx, h.tx, ?_, fun hw => absurd hw (hawake (by simp))⟩
    cases s.rxJoinable <;> simp [Joins]
  | joinRx =>
    rw [hpc] at hs hawake
    dsimp only at hs
    split at hs
    · obtain rfl := Option.some.inj hs
      exact ⟨hl, h.running, h.rx, h.tx, rfl, fun hw => absurd hw (hawake (by simp))⟩
    · cases hs
  | testTx =>
    rw [hpc] at hs hawake hjoins
    obtain rfl := Option.some.inj hs
    refine ⟨hl, h.running, h.rx, h.tx, ?_, fun hw => absurd hw (hawake (by simp))⟩
    dsimp only at hjoins
    cases s.txJoinable <;> simp [Joins, hjoins]
  | joinTx =>
    rw [hpc] at hs hawake hjoins
    dsimp only at hs
    split at hs
    · obtain rfl := Option.some.inj hs
      exact ⟨hl, h.running, h.rx, h.tx, ⟨hjoins.1, rfl⟩, fun hw => absurd hw (hawake (by simp))⟩
    · cases hs
  | testSup =>
    rw [hpc] at hs hawake hjoins
    obtain rfl := Option.some.inj hs
    refine ⟨hl, h.running, h.rx, h.tx, ?_, fun hw => absurd hw (hawake (by simp))⟩
    dsimp only at hjoins
    cases s.supJoinable <;> simp [Joins, hjoins]
  | joinSup =>
    rw [hpc] at hs hawake hjoins
    dsimp only at hs
    split at hs
    · obtain rfl := Option.some.inj hs
      exact ⟨hl, h.running, h.rx, h.tx, ⟨hjoins.1, hjoins.2.1, rfl⟩,
        fun hw => absurd hw (hawake (by simp))⟩
    · cases hs
  | closePort =>
    rw [hpc] at hs hawake hjoins
    obtain rfl := Option.some.inj hs
    obtain ⟨hrxj, htxj, hsupj⟩ := hjoins
    rw [closePort_eq] at hl ⊢
    refine ⟨hl, h.running, rxSettles_of_joined hl hrxj, ?_, ?_, ?_⟩
    · exact h.tx.of_eq rfl (fun _ => closePort_fd_neg s) rfl
    · exact ⟨hrxj, htxj, hsupj, closePort_fd_neg s⟩
    · exact fun hw => absurd hw (hawake (by simp))

/-! ### All steps -/

theorem winding_step {s s' : Driver} (h : Winding s) {a : Action} (ha : ¬ a.Call)
    (hsup : a.BySup → SupSettles s) (hs : s.step a = some s') : Winding s' := by
  have hl := life_step h.life hs
  cases a with
  | start | stopCall => exact absurd trivial ha
  | send type payload =>
    rcases step_send hs with ⟨hunlocked, rfl | ⟨-, rfl⟩⟩
    · exact h
    · refine ⟨hl, h.running, ?_, ?_, h.joins.of_eq rfl rfl rfl rfl id, ?_⟩
      · exact h.rx.of_eq rfl id (fun _ => id) fun hclose => (mayClose_notified s.tx).trans hclose
      · refine h.tx.of_notified rfl id fun hlocked => ?_
        rw [hunlocked] at hlocked
        cases hlocked
      · intro hw
        exact absurd hw (notified_ne_waiting s.tx)
  | arrive bytes =>
    obtain rfl := step_arrive hs
    refine ⟨hl, h.running, ?_, h.tx.of_eq rfl id rfl, h.joins.of_eq rfl rfl rfl rfl id, h.waiting⟩
    exact h.rx.of_eq rfl id (fun _ hbytes => List.append_ne_nil_of_left_ne_nil hbytes bytes) id
  | readFail =>
    obtain ⟨-, rfl⟩ := step_readFail hs
    exact ⟨hl, h.running, trivial, h.tx.of_eq rfl id rfl, h.joins.of_eq rfl rfl rfl rfl id,
      h.waiting⟩
  | spurious =>
    obtain ⟨-, rfl⟩ := step_spurious hs
    refine ⟨hl, h.running, ?_, trivial, h.joins.of_eq rfl rfl rfl rfl id, fun hw => by cases hw⟩
    exact h.rx.of_eq rfl id (fun _ => id) fun _ => rfl
  | rx count => exact winding_rx h hs
  | tx result => exact winding_tx h hs
  | sup opened => exact winding_sup h (hsup trivial) hs
  | stop => exact winding_stop h hs

theorem supSettles_step {s s' : Driver} (h : Winding s) (hsup : SupSettles s) {a : Action}
    (ha : ¬ a.Call) (hs : s.step a = some s') : SupSettles s' := by
  cases a with
  | start | stopCall => exact absurd trivial ha
  | send type payload =>
    rcases step_send hs with ⟨-, rfl | ⟨-, rfl⟩⟩
    · exact hsup
    · exact hsup.of_eq rfl fun _ hrx htx => ⟨rfl, hrx, (mayClose_notified s.tx).trans htx⟩
  | arrive bytes =>
    obtain rfl := step_arrive hs
    exact hsup.of_eq rfl fun _ hrx htx => ⟨rfl, hrx, htx⟩
  | readFail =>
    obtain ⟨hread, rfl⟩ := step_readFail hs
    refine hsup.of_eq rfl fun _ hrx _ => ?_
    rw [hread] at hrx
    cases hrx
  | spurious =>
    obtain ⟨-, rfl⟩ := step_spurious hs
    exact hsup.of_eq rfl fun _ hrx _ => ⟨rfl, hrx, rfl⟩
  | rx count =>
    have hf := rxStep_frame hs
    refine hsup.of_eq hf.sup fun _ hrx htx => ⟨hf.fd ?_, rxStep_mayClose h.running hs hrx, ?_⟩
    · intro hclosing
      rw [hclosing] at hrx
      cases hrx
    · rw [hf.tx]
      exact htx
  | tx result =>
    have hf := txStep_frame hs
    refine hsup.of_eq hf.sup fun _ hrx htx => ⟨hf.fd ?_, ?_, txStep_mayClose h.running hs htx⟩
    · intro hclosing
      rw [hclosing] at htx
      cases htx
    · rw [hf.rx]
      exact hrx
  | sup opened => exact supSettles_sup h.running hsup hs
  | stop =>
    have hf := stopStep_frame hs
    refine hsup.of_eq hf.sup fun hguard hrx htx => ⟨hf.fd ?_, ?_, ?_⟩
    · -- `stop` closes the port when it has joined the supervisor
      intro hclose
      have hjoins := h.joins
      rw [Joins, hclose] at hjoins
      rcases h.life.sup.idle hjoins.2.2 with hidle | hidle
      · rw [hguard] at hidle
        cases hidle
      · rw [hguard] at hidle
        cases hidle
    · rw [hf.rx]
      exact hrx
    · rcases hf.tx with hsame | hnotified
      · rw [hsame]
        exact htx
      · rw [hnotified]
        exact (mayClose_notified s.tx).trans htx

end Driver
end KartStack.SerialDriver
