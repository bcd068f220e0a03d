import KartStack.DriverSteps

/-! # What becomes of the frames sent

`tx_loop` takes a frame off the queue before it knows that it can be written.  The
frame is gone when the port has been closed in the meantime, and it is truncated or
gone when `write` accepts less than all of it; otherwise every frame is either
written as a whole or still there (`tx_lossless`).

The wait also ends when the port is closed, and nothing but `running_` is tested
before `front()`: then the queue is read although it is empty.  As long as no such
wait is followed by that, it is not (`pop_nonempty`).
-/
namespace KartStack.SerialDriver.Driver

/-! ## Whole frames, none lost -/

/-- The bytes accepted by `write` are whole frames in the order they were queued, and
the frames queued after them are still there: in the hands of `tx_loop` on their way
to `write`, or in the queue. -/
def TxLossless (s : Driver) : Prop :=
  ∃ done : List (List UInt8), s.written = done.flatten ∧
    s.queued = done ++ s.tx.inHand ++ s.txQueue

/-- The queue is not empty when it is popped, the port is open when a popped frame is
about to be written, and `write` accepts all of it. -/
def WholeWrites (s : Driver) : Action → Prop
  | .tx result =>
    match s.tx with
    | .pop => s.txQueue ≠ []
    | .checkFd _ => s.fd ≥ 0
    | .write frame => result = frame.length
    | _ => True
  | _ => True

instance (s : Driver) (a : Action) : Decidable (WholeWrites s a) := by
  unfold WholeWrites
  split
  · split <;> infer_instance
  · infer_instance

@[simp] theorem inHand_notified (pc : TxPc) : pc.notified.inHand = pc.inHand := by
  cases pc <;> rfl

theorem TxLossless.of_eq {s s' : Driver} (h : TxLossless s) (hw : s'.written = s.written)
    (hq : s'.queued = s.queued) (ht : s'.txQueue = s.txQueue) (hi : s'.tx.inHand = s.tx.inHand) :
    TxLossless s' := by
  obtain ⟨done, hwritten, hqueued⟩ := h
  exact ⟨done, hw.trans hwritten, by rw [hq, hi, ht, hqueued]⟩

theorem txLossless_tx {s s' : Driver} (h : TxLossless s) {result : Int}
    (hok : WholeWrites s (.tx result)) (hs : s.txStep result = some s') : TxLossless s' := by
  rw [WholeWrites] at hok
  cases htx : s.tx with
  | notStarted | waiting | returned | undefined =>
    rw [txStep, htx] at hs
    cases hs
  | testRun | predQueue | predRun | predFd | checkRun =>
    rw [txStep, htx] at hs
    obtain rfl := Option.some.inj hs
    refine h.of_eq rfl rfl rfl ?_
    rw [htx]
    dsimp only
    split <;> rfl
  | lock | enterWait | woken =>
    rw [txStep, htx] at hs
    obtain rfl := Option.some.inj hs
    exact h.of_eq rfl rfl rfl (by rw [htx]; rfl)
  | pop =>
    rw [htx] at hok
    rcases txStep_pop htx hs with ⟨hq, -⟩ | ⟨frame, txQueue, hq, rfl⟩
    · exact absurd hq hok
    · obtain ⟨done, hw, hqueued⟩ := h
      rw [htx, hq] at hqueued
      exact ⟨done, hw, by simpa [TxPc.inHand] using hqueued⟩
  | checkFd frame =>
    rw [txStep, htx] at hs
    rw [htx] at hok
    dsimp only at hok
    obtain rfl := Option.some.inj hs
    refine h.of_eq rfl rfl rfl ?_
    rw [htx]
    dsimp only
    rw [if_pos hok]
    rfl
  | write frame =>
    rw [htx] at hok
    dsimp only at hok
    subst hok
    rcases txStep_write htx hs with ⟨hneg, -⟩ | ⟨-, rfl⟩
    · exact absurd hneg (Int.not_lt.mpr (Int.natCast_nonneg _))
    · obtain ⟨done, hw, hqueued⟩ := h
      rw [htx] at hqueued
      refine ⟨done ++ [frame], ?_, ?_⟩
      · simp [hw]
      · simpa [TxPc.inHand] using hqueued
  | closing =>
    rw [txStep, htx] at hs
    obtain rfl := Option.some.inj hs
    rw [closePort_eq]
    exact h.of_eq rfl rfl rfl (by rw [htx]; rfl)

theorem txLossless_step {s s' : Driver} (hl : Life s) (h : TxLossless s) {a : Action}
    (hok : WholeWrites s a) (hs : s.step a = some s') : TxLossless s' := by
  cases a with
  | start =>
    obtain ⟨-, -, rfl⟩ := step_start hs
    exact h.of_eq rfl rfl rfl rfl
  | stopCall =>
    obtain ⟨-, rfl⟩ := step_stopCall_iff.mp hs
    exact h.of_eq rfl rfl rfl rfl
  | send type payload =>
    rcases step_send hs with ⟨-, rfl | ⟨hlen, rfl⟩⟩
    · exact h
    · obtain ⟨done, hw, hqueued⟩ := h
      refine ⟨done, hw, ?_⟩
      simp [enqueue, if_neg (Nat.not_lt.mpr hlen), hqueued]
  | arrive bytes =>
    obtain rfl := step_arrive hs
    exact h.of_eq rfl rfl rfl rfl
  | readFail =>
    obtain ⟨-, rfl⟩ := step_readFail hs
    exact h.of_eq rfl rfl rfl rfl
  | spurious =>
    obtain ⟨hwait, rfl⟩ := step_spurious hs
    exact h.of_eq rfl rfl rfl (by rw [hwait]; rfl)
  | rx count =>
    have hf := rxStep_frame hs
    exact h.of_eq hf.written hf.queued hf.txQueue (congrArg TxPc.inHand hf.tx)
  | tx result => exact txLossless_tx h hok hs
  | sup opened =>
    have hf := supStep_frame hs
    apply h.of_eq hf.written hf.queued hf.txQueue
    rcases hf.tx with htx | ⟨hsup, htx⟩
    · rw [htx]
    · -- a new `tx_loop` holds no frame, and neither does the one it replaces
      have hj := hl.pastTx (by rw [hsup]; rfl)
      rcases hl.tx.idle hj with h0 | h0
      · rw [htx, h0]
        rfl
      · rw [htx, h0]
        rfl
  | stop =>
    have hf := stopStep_frame hs
    apply h.of_eq hf.written hf.queued hf.txQueue
    rcases hf.tx with htx | htx
    · rw [htx]
    · rw [htx, inHand_notified]

/-- **Whole frames, none lost**: in every run in which the queue is not popped empty,
the port is open whenever a popped frame is about to be written, and `write` accepts
all of it, every state reached is lossless. -/
theorem tx_lossless {acts : List Action} {s : Driver}
    (hok : Transitions.Along step WholeWrites init acts)
    (hrun : Transitions.run step init acts = some s) : TxLossless s := by
  have hinv : ∀ (s : Driver) (a : Action) (s' : Driver), Life s ∧ TxLossless s →
      WholeWrites s a → s.step a = some s' → Life s' ∧ TxLossless s' :=
    fun s a s' h hok hs => ⟨life_step h.1 hs, txLossless_step h.1 h.2 hok hs⟩
  exact (Transitions.inv_of_along hinv ⟨life_init, [], rfl, rfl⟩ hok hrun).2

/-- Starting the driver and opening the port. -/
def connect : List Action :=
  [.start, .sup none, .sup none, .sup none, .sup none, .sup (some 3), .sup none, .sup none]

/-- `rx_loop` enters `read`, which fails, and closes the port. -/
def disconnect : List Action := [.rx 0, .rx 0, .rx 0, .rx 0, .readFail, .rx 0]

/-- A heartbeat is written as a whole. -/
def writeHeartbeat : List Action :=
  connect ++ [.send 0x25 [], .tx 0, .tx 0, .tx 0, .tx 0, .tx 0, .tx 0, .tx 4]

theorem tx_lossless_heartbeat :
    ∃ s, Transitions.run step init writeHeartbeat = some s ∧ TxLossless s := by
  have hok : Transitions.Along step WholeWrites init writeHeartbeat := by decide +kernel
  exact ⟨_, rfl, tx_lossless hok rfl⟩

/-- A heartbeat sent while the port is closed is taken off the queue and dropped. -/
theorem tx_drops_frame : ¬ ∀ s, Reachable s → TxLossless s := by
  intro h
  have hrun : ∃ s, Transitions.run step init (connect ++ disconnect ++
      [.send 0x25 [], .tx 0, .tx 0, .tx 0, .tx 0, .tx 0, .tx 0]) = some s ∧
      s.written = [] ∧ s.queued = [buildFrame 0x25 []] ∧ s.tx = .testRun ∧ s.txQueue = [] :=
    ⟨_, rfl, rfl, rfl, rfl, rfl⟩
  obtain ⟨s, hs, hw, hq, htx, hempty⟩ := hrun
  obtain ⟨done, hdone, hqueued⟩ := h s ⟨_, hs⟩
  -- the frame is nowhere but among those written, and nothing was written
  have hdone' : done = [buildFrame 0x25 []] := by
    rw [hq, htx, hempty] at hqueued
    simpa [TxPc.inHand] using hqueued.symm
  rw [hw, hdone'] at hdone
  simp [buildFrame] at hdone

/-! ## The queue is not read when it is empty -/

/-- The wait does not end by the port being closed while the driver is running. -/
def WaitsForFrames (s : Driver) : Action → Prop
  | .tx _ => s.tx = .checkRun .closed → s.running = false
  | _ => True

/-- Where `tx_loop` is past its wait, the queue is not empty, or the driver has been
stopped, or the port was closed. -/
def Fed (s : Driver) : Prop :=
  match s.tx with
  | .checkRun .queued | .pop => s.txQueue ≠ []
  | .checkRun .stopped => s.running = false
  | _ => True

theorem Fed.of_eq {s s' : Driver} (h : Fed s) (htx : s'.tx = s.tx) (hq : s'.txQueue = s.txQueue)
    (hrun : s.running = false → s'.running = false) : Fed s' := by
  rw [Fed] at h ⊢
  rw [htx, hq]
  split at h
  · exact h
  · exact h
  · exact hrun h
  · trivial

/-- A notification finds `tx_loop` waiting or does nothing. -/
theorem Fed.of_notified {s s' : Driver} (h : Fed s) (htx : s'.tx = s.tx.notified)
    (hq : s'.txQueue = s.txQueue) (hrun : s.running = false → s'.running = false) : Fed s' := by
  by_cases hw : s.tx = .waiting
  · rw [hw] at htx
    rw [Fed, htx]
    trivial
  · refine h.of_eq (htx.trans ?_) hq hrun
    cases hpc : s.tx <;> first | rfl | exact absurd hpc hw

@[simp] theorem locked_notified (pc : TxPc) : pc.notified.locked = pc.locked := by
  cases pc <;> rfl

/-- `tx_loop` outside its critical section is past no wait. -/
theorem Fed.of_unlocked {s : Driver} (h : s.tx.locked = false) : Fed s := by
  rw [Fed]
  split
  · rename_i hpc
    rw [hpc] at h
    cases h
  · rename_i hpc
    rw [hpc] at h
    cases h
  · rename_i hpc
    rw [hpc] at h
    cases h
  · trivial

theorem fed_tx {s s' : Driver} (h : Fed s) {result : Int} (hok : WaitsForFrames s (.tx result))
    (hs : s.txStep result = some s') : Fed s' := by
  cases htx : s.tx with
  | notStarted | waiting | returned | undefined =>
    rw [txStep, htx] at hs
    cases hs
  | testRun | checkFd =>
    rw [txStep, htx] at hs
    obtain rfl := Option.some.inj hs
    refine .of_unlocked ?_
    dsimp only
    split <;> rfl
  | lock | enterWait | woken =>
    rw [txStep, htx] at hs
    obtain rfl := Option.some.inj hs
    trivial
  | predQueue =>
    rw [txStep, htx] at hs
    obtain rfl := Option.some.inj hs
    rw [Fed]
    dsimp only
    by_cases hq : s.txQueue = []
    · rw [if_neg (not_not_intro hq)]
      trivial
    · rw [if_pos hq]
      exact hq
  | predRun =>
    rw [txStep, htx] at hs
    obtain rfl := Option.some.inj hs
    rw [Fed]
    dsimp only
    cases hrun : s.running with
    | true => trivial
    | false => rfl
  | predFd =>
    rw [txStep, htx] at hs
    obtain rfl := Option.some.inj hs
    rw [Fed]
    dsimp only
    by_cases hfd : s.fd < 0
    · rw [if_pos hfd]
      trivial
    · rw [if_neg hfd]
      trivial
  | checkRun why =>
    rw [txStep, htx] at hs
    obtain rfl := Option.some.inj hs
    rw [Fed] at h ⊢
    rw [htx] at h
    dsimp only
    cases hrun : s.running with
    | false => trivial
    | true =>
      -- still running: the wait has ended by a frame in the queue
      cases why with
      | queued => exact h
      | stopped =>
        have hstopped : s.running = false := h
        rw [hrun] at hstopped
        cases hstopped
      | closed =>
        have hstopped := hok htx
        rw [hrun] at hstopped
        cases hstopped
  | pop => obtain ⟨-, rfl⟩ | ⟨frame, txQueue, -, rfl⟩ := txStep_pop htx hs <;> trivial
  | write frame => obtain ⟨-, rfl⟩ | ⟨-, rfl⟩ := txStep_write htx hs <;> trivial
  | closing =>
    rw [txStep, htx] at hs
    obtain rfl := Option.some.inj hs
    trivial

theorem fed_step {s s' : Driver} (hl : Life s) (h : Fed s) {a : Action}
    (hok : WaitsForFrames s a) (hs : s.step a = some s') : Fed s' := by
  cases a with
  | start =>
    obtain ⟨hsup, -, rfl⟩ := step_start hs
    -- before the driver is started there is no `tx_loop`
    apply Fed.of_unlocked
    dsimp only
    rw [(hl.fresh hsup).2]
    rfl
  | stopCall =>
    obtain ⟨-, rfl⟩ := step_stopCall_iff.mp hs
    exact h.of_eq rfl rfl fun _ => rfl
  | send type payload =>
    rcases step_send hs with ⟨hunlocked, rfl | ⟨-, rfl⟩⟩
    · exact h
    · apply Fed.of_unlocked
      exact (locked_notified s.tx).trans hunlocked
  | arrive bytes =>
    obtain rfl := step_arrive hs
    exact h.of_eq rfl rfl id
  | readFail =>
    obtain ⟨-, rfl⟩ := step_readFail hs
    exact h.of_eq rfl rfl id
  | spurious =>
    obtain ⟨-, rfl⟩ := step_spurious hs
    trivial
  | rx count =>
    have hf := rxStep_frame hs
    exact h.of_eq hf.tx hf.txQueue fun hrun => hf.running.trans hrun
  | tx result => exact fed_tx h hok hs
  | sup opened =>
    have hf := supStep_frame hs
    rcases hf.tx with htx | ⟨-, htx⟩
    · exact h.of_eq htx hf.txQueue fun hrun => hf.running.trans hrun
    · exact .of_unlocked (by rw [htx]; rfl)
  | stop =>
    have hf := stopStep_frame hs
    rcases hf.tx with htx | htx
    · exact h.of_eq htx hf.txQueue fun hrun => hf.running.trans hrun
    · exact h.of_notified htx hf.txQueue fun hrun => hf.running.trans hrun

/-- **The queue is never popped when it is empty** in a run in which no wait that
ended by the port being closed is followed by a running driver. -/
theorem pop_nonempty {acts : List Action} {s : Driver}
    (hok : Transitions.Along step WaitsForFrames init acts)
    (hrun : Transitions.run step init acts = some s) (hpop : s.tx = .pop) : s.txQueue ≠ [] := by
  have hinv : ∀ (s : Driver) (a : Action) (s' : Driver), Life s ∧ Fed s →
      WaitsForFrames s a → s.step a = some s' → Life s' ∧ Fed s' :=
    fun s a s' h hok hs => ⟨life_step h.1 hs, fed_step h.1 h.2 hok hs⟩
  have hfed := (Transitions.inv_of_along hinv ⟨life_init, trivial⟩ hok hrun).2
  rw [Fed, hpop] at hfed
  exact hfed

instance (s : Driver) (a : Action) : Decidable (WaitsForFrames s a) :=
  match a with
  | .tx _ => inferInstanceAs (Decidable (s.tx = .checkRun .closed → s.running = false))
  | .start | .stopCall | .send .. | .arrive _ | .readFail | .spurious | .rx _ | .sup _ | .stop =>
    inferInstanceAs (Decidable True)

/-- A heartbeat is about to be popped. -/
def queueHeartbeat : List Action :=
  connect ++ [.send 0x25 [], .tx 0, .tx 0, .tx 0, .tx 0]

theorem pop_nonempty_heartbeat :
    ∃ s, Transitions.run step init queueHeartbeat = some s ∧ s.tx = .pop ∧ s.txQueue ≠ [] := by
  have hok : Transitions.Along step WaitsForFrames init queueHeartbeat := by decide +kernel
  exact ⟨_, rfl, rfl, pop_nonempty hok rfl rfl⟩

/-- When the port is closed while nothing is to be sent, the empty queue is read. -/
theorem pop_empty : ¬ ∀ s, Reachable s → s.tx = .pop → s.txQueue ≠ [] := by
  intro h
  have hrun : ∃ s, Transitions.run step init (connect ++ disconnect ++
      [.tx 0, .tx 0, .tx 0, .tx 0, .tx 0, .tx 0]) = some s ∧ s.tx = .pop ∧ s.txQueue = [] :=
    ⟨_, rfl, rfl, rfl⟩
  obtain ⟨s, hs, hpop, hempty⟩ := hrun
  exact h s ⟨_, hs⟩ hpop hempty

end KartStack.SerialDriver.Driver
