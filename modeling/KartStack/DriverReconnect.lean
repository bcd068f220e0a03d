import KartStack.DriverTransmit

/-! # The supervisor never reconnects

A `std::thread` whose function has returned stays joinable until somebody joins it,
and only `stop` does.  So from the first connection on, as long as the driver is
running, the supervisor finds `rx_thread_` joinable and opens no port (`Barred`).
It keeps polling, and when the connection is gone it polls in vain
(`never_reconnects`).
-/
namespace KartStack.SerialDriver.Driver

/-- The driver is running without a port, and both loops of its last connection have
returned. -/
def Disconnected (s : Driver) : Prop :=
  s.running = true ∧ s.fd < 0 ∧ s.rx = .returned ∧ s.tx = .returned

/-- Once the iteration under way and the next one are completed by a running driver,
the supervisor has called `open_port`. -/
def Reconnects (s : Driver) : Prop :=
  ∀ acts s', Transitions.run step s acts = some s' → s'.running = true →
    s.iterations + 2 ≤ s'.iterations → s.openCalls < s'.openCalls

/-! ## Opening no port -/

/-- The driver has been started and, while it is running, its `rx_thread_` is joinable
and `open_port` has been called `n` times. -/
structure Barred (n : Nat) (s : Driver) : Prop where
  life : Life s
  started : s.sup ≠ .notStarted
  barred : s.running = true → s.rxJoinable = true ∧ s.openCalls = n

theorem Barred.of_eq {n : Nat} {s s' : Driver} (h : Barred n s) (hl : Life s')
    (hsup : s'.sup ≠ .notStarted)
    (hkeep : s'.running = true →
      s.running = true ∧ s'.rxJoinable = s.rxJoinable ∧ s'.openCalls = s.openCalls) :
    Barred n s' := by
  refine ⟨hl, hsup, ?_⟩
  intro hrun
  obtain ⟨hrun, hjoin, hcalls⟩ := hkeep hrun
  rw [hjoin, hcalls]
  exact h.barred hrun

theorem barred_step {n : Nat} {s s' : Driver} (h : Barred n s) {a : Action}
    (hs : s.step a = some s') : Barred n s' := by
  have hl := life_step h.life hs
  cases a with
  | start =>
    obtain ⟨hsup, -, -⟩ := step_start hs
    exact absurd hsup h.started
  | stopCall =>
    obtain ⟨-, rfl⟩ := step_stopCall_iff.mp hs
    exact h.of_eq hl h.started fun hrun => by cases hrun
  | send type payload =>
    rcases step_send hs with ⟨-, rfl | ⟨-, rfl⟩⟩
    · exact h
    · exact h.of_eq hl h.started fun hrun => ⟨hrun, rfl, rfl⟩
  | arrive bytes =>
    obtain rfl := step_arrive hs
    exact h.of_eq hl h.started fun hrun => ⟨hrun, rfl, rfl⟩
  | readFail =>
    obtain ⟨-, rfl⟩ := step_readFail hs
    exact h.of_eq hl h.started fun hrun => ⟨hrun, rfl, rfl⟩
  | spurious =>
    obtain ⟨-, rfl⟩ := step_spurious hs
    exact h.of_eq hl h.started fun hrun => ⟨hrun, rfl, rfl⟩
  | rx count =>
    have hf := rxStep_frame hs
    refine h.of_eq hl ?_ fun hrun => ⟨hf.running ▸ hrun, hf.rxJoinable, hf.openCalls⟩
    rw [hf.sup]
    exact h.started
  | tx result =>
    have hf := txStep_frame hs
    refine h.of_eq hl ?_ fun hrun => ⟨hf.running ▸ hrun, hf.rxJoinable, hf.openCalls⟩
    rw [hf.sup]
    exact h.started
  | sup opened =>
    have hf := supStep_frame hs
    apply h.of_eq hl hf.started
    intro hrun
    rw [hf.running] at hrun
    -- a supervisor past the test of `rx_thread_` would have found it not joinable
    have hpast : SupPc.pastRx s.sup ≠ true := by
      intro hpast
      have hfree := h.life.pastRx hpast
      rw [(h.barred hrun).1] at hfree
      cases hfree
    have hopen : s.sup ≠ .openPort := fun hpc => hpast (by rw [hpc]; rfl)
    have hspawn : s.sup ≠ .spawnRx := fun hpc => hpast (by rw [hpc]; rfl)
    exact ⟨hrun, hf.rxJoinable hspawn, hf.openCalls hopen⟩
  | stop =>
    have hf := stopStep_frame hs
    apply h.of_eq hl (by rw [hf.sup]; exact h.started)
    intro hrun
    rw [hf.running, h.life.stopping hf.underWay] at hrun
    cases hrun

theorem Barred.of_disconnected {s : Driver} (hl : Life s) (hd : Disconnected s) :
    Barred s.openCalls s := by
  obtain ⟨hrun, -, hrx, -⟩ := hd
  have hstarted : s.sup ≠ .notStarted := by
    intro hsup
    have hfresh := (hl.fresh hsup).1
    rw [hrx] at hfresh
    cases hfresh
  -- the thread has been created, and nobody has joined it
  have hrxj := hl.rx.joinable_of_running (by simp [hrx]) hrun
  exact ⟨hl, hstarted, fun _ => ⟨hrxj, rfl⟩⟩

/-! ## Polling in vain -/

/-- The points of an iteration of the supervisor that opens no port. -/
def SupPc.Polls (pc : SupPc) : Prop :=
  pc = .testRun ∨ pc = .guardFd ∨ pc = .guardRx ∨ pc = .sleep

/-- A running supervisor in an iteration that opens no port. -/
structure Polling (s : Driver) : Prop where
  running : s.running = true
  rxJoinable : s.rxJoinable = true
  polls : SupPc.Polls s.sup

/-- The steps from here to the end of the iteration, at most. -/
def SupPc.stepsLeft : SupPc → Nat
  | .testRun => 4
  | .guardFd => 3
  | .guardRx => 2
  | _ => 1

theorem Polling.of_disconnected {s : Driver} (hl : Life s) (hd : Disconnected s) : Polling s := by
  have hb := Barred.of_disconnected hl hd
  obtain ⟨hrun, -, -, htx⟩ := hd
  obtain ⟨hrxj, -⟩ := hb.barred hrun
  refine ⟨hrun, hrxj, ?_⟩
  have htxj := hl.tx.joinable_of_running (by simp [htx]) hrun
  cases hpc : s.sup with
  | testRun => exact Or.inl rfl
  | guardFd => exact Or.inr (Or.inl rfl)
  | guardRx => exact Or.inr (Or.inr (Or.inl rfl))
  | sleep => exact Or.inr (Or.inr (Or.inr rfl))
  | notStarted => exact absurd hpc hb.started
  | returned =>
    have hstopped := hl.supReturned hpc
    rw [hrun] at hstopped
    cases hstopped
  | guardTx | openPort | spawnRx =>
    have hfree := hl.pastRx (by rw [hpc]; rfl)
    rw [hrxj] at hfree
    cases hfree
  | spawnTx =>
    have hfree := hl.pastTx (by rw [hpc]; rfl)
    rw [htxj] at hfree
    cases hfree

/-- A polling supervisor takes a step, towards the end of its iteration or past it. -/
theorem polling_step {s : Driver} (h : Polling s) :
    ∃ s', s.step (.sup none) = some s' ∧ Polling s' ∧
      (s'.iterations = s.iterations ∧ SupPc.stepsLeft s'.sup < SupPc.stepsLeft s.sup ∨
        s'.iterations = s.iterations + 1) := by
  rcases h with ⟨hrun, hrxj, hpc | hpc | hpc | hpc⟩
  · refine ⟨{ s with sup := .guardFd }, ?_, ⟨hrun, hrxj, Or.inr (Or.inl rfl)⟩, Or.inl ⟨rfl, ?_⟩⟩
    · simp [step, supStep, hpc, hrun]
    · simp [hpc, SupPc.stepsLeft]
  · by_cases hfd : s.fd < 0
    · refine ⟨{ s with sup := .guardRx }, ?_, ⟨hrun, hrxj, Or.inr (Or.inr (Or.inl rfl))⟩,
        Or.inl ⟨rfl, ?_⟩⟩
      · simp [step, supStep, hpc, hfd]
      · simp [hpc, SupPc.stepsLeft]
    · refine ⟨{ s with sup := .sleep }, ?_, ⟨hrun, hrxj, Or.inr (Or.inr (Or.inr rfl))⟩,
        Or.inl ⟨rfl, ?_⟩⟩
      · simp [step, supStep, hpc, hfd]
      · simp [hpc, SupPc.stepsLeft]
  · refine ⟨{ s with sup := .sleep }, ?_, ⟨hrun, hrxj, Or.inr (Or.inr (Or.inr rfl))⟩,
      Or.inl ⟨rfl, ?_⟩⟩
    · simp [step, supStep, hpc, hrxj]
    · simp [hpc, SupPc.stepsLeft]
  · refine ⟨{ s with sup := .testRun, iterations := s.iterations + 1 }, ?_,
      ⟨hrun, hrxj, Or.inl rfl⟩, Or.inr rfl⟩
    simp [step, supStep, hpc]

/-- A polling supervisor completes any number of iterations. -/
theorem exists_iterations {s : Driver} (h : Polling s) (k : Nat) :
    ∃ acts s', Transitions.run step s acts = some s' ∧ s'.running = true ∧ k ≤ s'.iterations := by
  -- five for an iteration still to be completed, less for the one under way
  have hstep : ∀ s : Driver, Polling s → ¬ (s.running = true ∧ k ≤ s.iterations) →
      ∃ a s', True ∧ s.step a = some s' ∧ Polling s' ∧
        5 * (k - s'.iterations) + SupPc.stepsLeft s'.sup <
          5 * (k - s.iterations) + SupPc.stepsLeft s.sup := by
    intro s h hgoal
    have hlt : s.iterations < k := Nat.lt_of_not_le fun hle => hgoal ⟨h.running, hle⟩
    rcases polling_step h with ⟨s', hs', h', ⟨hsame, hleft⟩ | hmore⟩
    · refine ⟨_, s', trivial, hs', h', ?_⟩
      rw [hsame]
      omega
    · refine ⟨_, s', trivial, hs', h', ?_⟩
      have hnext : SupPc.stepsLeft s'.sup ≤ 4 := by
        cases s'.sup <;> simp [SupPc.stepsLeft]
      have hleft : 1 ≤ SupPc.stepsLeft s.sup := by
        cases s.sup <;> simp [SupPc.stepsLeft]
      omega
  obtain ⟨acts, s', -, hrun, -, hgoal⟩ := Transitions.exists_run
    (fun s => 5 * (k - s.iterations) + SupPc.stepsLeft s.sup) hstep h
  exact ⟨acts, s', hrun, hgoal⟩

/-- **The supervisor never reconnects.**  After any disconnection it goes on polling,
and in no run does a running driver call `open_port` again. -/
theorem never_reconnects {s : Driver} (h : Reachable s) (hd : Disconnected s) :
    ¬ Reconnects s ∧ ∀ acts s', Transitions.run step s acts = some s' → s'.running = true →
      s'.openCalls = s.openCalls := by
  have hbarred := Barred.of_disconnected h.life hd
  have hcalls : ∀ acts s', Transitions.run step s acts = some s' → s'.running = true →
      s'.openCalls = s.openCalls := by
    intro acts s' hrun hrunning
    have hinv := Transitions.Reachable.inv ⟨acts, hrun⟩ hbarred
      fun _ _ _ hb hs => barred_step hb hs
    exact (hinv.barred hrunning).2
  refine ⟨?_, hcalls⟩
  intro hre
  obtain ⟨acts, s', hrun, hrunning, hmany⟩ :=
    exists_iterations (Polling.of_disconnected h.life hd) (s.iterations + 2)
  have hmore := hre acts s' hrun hrunning hmany
  rw [hcalls acts s' hrun hrunning] at hmore
  exact Nat.lt_irrefl _ hmore

/-- The port goes away: `write` fails, then the blocked `read` does. -/
def sever : List Action :=
  connect ++ [.rx 0, .rx 0, .rx 0, .rx 0, .send 0x25 [], .tx 0, .tx 0, .tx 0, .tx 0, .tx 0, .tx 0,
    .tx (-1), .tx 0, .readFail, .rx 0]

theorem never_reconnects_severed :
    ∃ s, Transitions.run step init sever = some s ∧ ¬ Reconnects s :=
  ⟨_, rfl, (never_reconnects ⟨sever, rfl⟩ ⟨rfl, by decide, rfl, rfl⟩).1⟩

/-- After the port has gone away the supervisor completes two iterations without
calling `open_port`. -/
theorem severed_not_reopened : ¬ ∀ s, Reachable s → Disconnected s → Reconnects s := by
  intro h
  have hrun : ∃ s s', Transitions.run step init sever = some s ∧ Disconnected s ∧
      Transitions.run step s [.sup none, .sup none, .sup none, .sup none, .sup none] = some s' ∧
      s'.running = true ∧ s.iterations + 2 ≤ s'.iterations ∧ s'.openCalls = s.openCalls :=
    ⟨_, _, rfl, ⟨rfl, by decide, rfl, rfl⟩, rfl, rfl, Nat.le_refl _, rfl⟩
  obtain ⟨s, s', hs, hd, hpoll, hrunning, hmany, hsame⟩ := hrun
  have hmore := h s ⟨sever, hs⟩ hd _ s' hpoll hrunning hmany
  rw [hsame] at hmore
  exact Nat.lt_irrefl _ hmore

end KartStack.SerialDriver.Driver
