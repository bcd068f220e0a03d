import KartStack.DriverTransmit
import KartStack.DriverWinding

/-! # When `stop` returns, and what it leaves behind

Where no thread is at a point that a call of `stop` comes too late for (`Calm`), all
goes well: as long as `stop` has not returned, something comes closer to its end
(`stop_progress`).

Where one is, some interleaving goes wrong.  `rx_loop` gets into a `read` that finds
nothing, or `tx_loop` waits for a notification that is past, and `stop` waits for it
(`RxStuck`, `TxStuck`); or the supervisor creates the threads that `stop` has already
looked for, and `stop` returns without joining them (`exists_left_behind`).  So the
condition is exact (`stops_cleanly_iff`).
-/
namespace KartStack.SerialDriver

/-- A step of `rx_loop`, `tx_loop` or `stop`. -/
def Action.ByLoops : Action → Prop
  | .rx _ | .tx _ | .stop => True
  | _ => False

theorem Action.ByLoops.own {a : Action} (h : a.ByLoops) : a.Own := by
  cases a <;> trivial

theorem Action.ByLoops.not_bySup {a : Action} (h : a.ByLoops) : ¬ a.BySup := by
  intro hsup
  cases a <;> first | exact hsup | exact h

theorem Action.Own.not_call {a : Action} (h : a.Own) : ¬ a.Call := by
  intro hcall
  cases a <;> first | exact hcall | exact h

/-- `stop` has not joined `rx_loop` yet. -/
def StopPc.joinsRx : StopPc → Bool
  | .notify | .testRx | .joinRx => true
  | _ => false

/-- `stop` has not joined both `rx_loop` and `tx_loop` yet. -/
def StopPc.joinsLoops : StopPc → Bool
  | .notify | .testRx | .joinRx | .testTx | .joinTx => true
  | _ => false

namespace Driver

/-- No thread is at a point where a call of `stop` comes too late for it. -/
structure Calm (s : Driver) : Prop where
  rx : RxSettles s
  tx : TxSettles s
  sup : SupSettles s

/-- Whatever happens after a call of `stop`, the driver's own threads and `stop` can
go on such that `stop` returns; and when it returns no thread is joinable and the port
is closed. -/
def StopsCleanly (s : Driver) : Prop :=
  ∀ s₀, s.step .stopCall = some s₀ →
    ∀ acts s₁, (∀ a ∈ acts, ¬ a.Call) → Transitions.run step s₀ acts = some s₁ →
      (∃ acts' s₂, (∀ a ∈ acts', a.Own) ∧ Transitions.run step s₁ acts' = some s₂ ∧
        s₂.stop = .returned) ∧
      (s₁.stop = .returned →
        s₁.rxJoinable = false ∧ s₁.txJoinable = false ∧ s₁.supJoinable = false ∧ s₁.fd < 0)

/-! ## Coming to rest -/

/-- The steps of `rx_loop` to its end, at most. -/
def rxLeft : RxPc → Nat
  | .notStarted | .returned => 0
  | .testRun | .closing => 1
  | .entry | .inRead => 2
  | .callRead => 3
  | .testFd => 4

/-- The steps of `tx_loop` to its end, at most. -/
def txLeft : TxPc → Nat
  | .notStarted | .returned | .undefined | .enterWait => 0
  | .testRun | .checkRun _ | .closing => 1
  | .predRun | .predFd | .write _ => 2
  | .predQueue | .checkFd _ => 3
  | .lock | .woken | .pop => 4
  | .waiting => 5

/-- The steps of the supervisor to its end, at most. -/
def supLeft : SupPc → Nat
  | .testRun => 1
  | .sleep => 2
  | .guardFd => 3
  | _ => 0

/-- The steps of `stop` to its end, at most. -/
def stopLeft : StopPc → Nat
  | .idle | .returned => 0
  | .closePort => 1
  | .joinSup => 2
  | .testSup => 3
  | .joinTx => 4
  | .testTx => 5
  | .joinRx => 6
  | .testRx => 7
  | .notify => 8

/-- The steps of a stopped driver to its end, at most. -/
def stepsLeft (s : Driver) : Nat :=
  rxLeft s.rx + txLeft s.tx + supLeft s.sup + stopLeft s.stop

theorem rx_progress {s : Driver} (h : Winding s) (hactive : ¬ s.rx.Idle) :
    ∃ s', s.step (.rx 1) = some s' ∧ rxLeft s'.rx < rxLeft s.rx := by
  have hset := h.rx
  rw [RxSettles] at hset
  cases hrx : s.rx with
  | notStarted => exact absurd (Or.inl hrx) hactive
  | returned => exact absurd (Or.inr hrx) hactive
  | entry =>
    refine ⟨_, by simp only [step, rxStep, hrx]; rfl, ?_⟩
    simp [rxLeft]
  | testRun =>
    refine ⟨_, by simp only [step, rxStep, hrx]; rfl, ?_⟩
    simp [rxLeft, h.running]
  | testFd =>
    refine ⟨_, by simp only [step, rxStep, hrx]; rfl, ?_⟩
    dsimp only
    split <;> simp [rxLeft]
  | callRead =>
    refine ⟨_, by simp only [step, rxStep, hrx]; rfl, ?_⟩
    dsimp only
    split <;> simp [rxLeft]
  | inRead =>
    rw [hrx] at hset
    have hbytes : 0 < 1 ∧ 1 ≤ s.pending.length ∧ 1 ≤ 256 :=
      ⟨Nat.one_pos, List.length_pos_iff.mpr hset.1, by decide⟩
    refine ⟨_, by simp only [step, rxStep, hrx]; exact if_pos hbytes, ?_⟩
    simp [rxLeft]
  | closing =>
    refine ⟨_, by simp only [step, rxStep, hrx]; rfl, ?_⟩
    simp [rxLeft]

/-- `write` may always fail. -/
theorem txStep_write_fails {s : Driver} {frame : List UInt8} (htx : s.tx = .write frame) :
    s.txStep (-1) = some { s with tx := .closing } := by
  have hfail : (-1 : Int) ≤ -1 ∧ (-1 : Int) ≤ frame.length ∧ (s.fd < 0 → (-1 : Int) = -1) :=
    ⟨Int.le_refl _, by omega, fun _ => rfl⟩
  rw [txStep, htx]
  exact (if_pos hfail).trans (if_pos (by decide))

theorem tx_progress {s : Driver} (h : Winding s) (hactive : ¬ s.tx.Idle)
    (hawake : s.tx ≠ .waiting) :
    ∃ s', s.step (.tx (-1)) = some s' ∧ txLeft s'.tx < txLeft s.tx := by
  have hset := h.tx
  rw [TxSettles] at hset
  cases htx : s.tx with
  | notStarted => exact absurd (Or.inl htx) hactive
  | returned => exact absurd (Or.inr htx) hactive
  | waiting => exact absurd htx hawake
  | enterWait | undefined =>
    rw [htx] at hset
    exact hset.elim
  | testRun | checkRun | predRun =>
    refine ⟨_, by simp only [step, txStep, htx]; rfl, ?_⟩
    simp [txLeft, h.running]
  | lock | woken =>
    refine ⟨_, by simp only [step, txStep, htx]; rfl, ?_⟩
    simp [txLeft]
  | predQueue | checkFd =>
    refine ⟨_, by simp only [step, txStep, htx]; rfl, ?_⟩
    dsimp only
    split <;> simp [txLeft]
  | predFd =>
    rw [htx] at hset
    refine ⟨_, by simp only [step, txStep, htx]; rfl, ?_⟩
    simp [txLeft, if_pos hset]
  | pop =>
    rw [htx] at hset
    obtain ⟨frame, txQueue, hq⟩ := List.exists_cons_of_ne_nil hset
    refine ⟨_, by simp only [step, txStep, htx, hq]; rfl, ?_⟩
    simp [txLeft]
  | write frame =>
    exact ⟨_, txStep_write_fails htx, by simp [txLeft]⟩
  | closing =>
    refine ⟨_, by simp only [step, txStep, htx]; rfl, ?_⟩
    simp [txLeft]

theorem sup_progress {s : Driver} (h : Winding s) (hsup : SupSettles s)
    (hactive : ¬ (s.sup = .notStarted ∨ s.sup = .returned)) :
    ∃ s', s.step (.sup none) = some s' ∧ supLeft s'.sup < supLeft s.sup := by
  rw [SupSettles] at hsup
  cases hpc : s.sup with
  | notStarted => exact absurd (Or.inl hpc) hactive
  | returned => exact absurd (Or.inr hpc) hactive
  | testRun =>
    refine ⟨_, by simp only [step, supStep, hpc]; rfl, ?_⟩
    simp [supLeft, h.running]
  | sleep =>
    refine ⟨_, by simp only [step, supStep, hpc]; rfl, ?_⟩
    simp [supLeft]
  | guardFd =>
    rw [hpc] at hsup
    refine ⟨_, by simp only [step, supStep, hpc]; rfl, ?_⟩
    simp [supLeft, if_neg (Int.not_lt.mpr hsup.1)]
  | guardRx | guardTx | openPort | spawnRx | spawnTx =>
    rw [hpc] at hsup
    exact hsup.elim

theorem txLeft_notified (pc : TxPc) : txLeft pc.notified ≤ txLeft pc := by
  cases pc <;> simp [TxPc.notified, txLeft]

/-- **While `stop` is busy with `rx_loop` and `tx_loop`**, one of the three comes
closer to its end. -/
theorem loops_progress {s : Driver} (h : Winding s) (hstop : s.stop.joinsLoops = true) :
    ∃ a s', a.ByLoops ∧ s.step a = some s' ∧ stepsLeft s' < stepsLeft s := by
  have hjoins := h.joins
  rw [Joins] at hjoins
  cases hpc : s.stop with
  | idle | testSup | joinSup | closePort | returned =>
    rw [hpc] at hstop
    cases hstop
  | notify =>
    have hle := txLeft_notified s.tx
    refine ⟨.stop, _, trivial, by simp only [step, stopStep, hpc]; rfl, ?_⟩
    simp only [stepsLeft, hpc, stopLeft]
    omega
  | testRx | testTx =>
    refine ⟨.stop, _, trivial, by simp only [step, stopStep, hpc]; rfl, ?_⟩
    simp only [stepsLeft, hpc]
    split <;> simp [stopLeft]
  | joinRx =>
    by_cases hret : s.rx = .returned
    · refine ⟨.stop, _, trivial, by simp only [step, stopStep, hpc, if_pos hret]; rfl, ?_⟩
      simp [stepsLeft, hpc, stopLeft]
    · rw [hpc] at hjoins
      have hrx := h.life.rx
      rw [Handled, if_pos hjoins] at hrx
      obtain ⟨s', hs, hlt⟩ := rx_progress h fun hidle => hidle.elim hrx hret
      have hf := rxStep_frame hs
      refine ⟨.rx 1, s', trivial, hs, ?_⟩
      rw [stepsLeft, stepsLeft, hf.tx, hf.sup, hf.stop]
      omega
  | joinTx =>
    by_cases hret : s.tx = .returned
    · refine ⟨.stop, _, trivial, by simp only [step, stopStep, hpc, if_pos hret]; rfl, ?_⟩
      simp [stepsLeft, hpc, stopLeft]
    · rw [hpc] at hjoins
      have htx := h.life.tx
      rw [Handled, if_pos hjoins.2] at htx
      -- the notification has been sent
      have hawake : s.tx ≠ .waiting := by
        intro hw
        have hnotify := h.waiting hw
        rw [hpc] at hnotify
        cases hnotify
      obtain ⟨s', hs, hlt⟩ := tx_progress h (fun hidle => hidle.elim htx hret) hawake
      have hf := txStep_frame hs
      refine ⟨.tx (-1), s', trivial, hs, ?_⟩
      rw [stepsLeft, stepsLeft, hf.rx, hf.sup, hf.stop]
      omega

/-- **As long as `stop` has not returned**, something comes closer to its end. -/
theorem stop_progress {s : Driver} (h : Winding s) (hsup : SupSettles s)
    (hret : s.stop ≠ .returned) :
    ∃ a s', a.Own ∧ s.step a = some s' ∧ stepsLeft s' < stepsLeft s := by
  by_cases hloops : s.stop.joinsLoops = true
  · obtain ⟨a, s', ha, hs, hlt⟩ := loops_progress h hloops
    exact ⟨a, s', ha.own, hs, hlt⟩
  · have hjoins := h.joins
    rw [Joins] at hjoins
    cases hpc : s.stop with
    | notify | testRx | joinRx | testTx | joinTx =>
      rw [hpc] at hloops
      exact absurd rfl hloops
    | idle =>
      rw [hpc] at hjoins
      exact hjoins.elim
    | returned => exact absurd hpc hret
    | testSup =>
      refine ⟨.stop, _, trivial, by simp only [step, stopStep, hpc]; rfl, ?_⟩
      simp only [stepsLeft, hpc]
      split <;> simp [stopLeft]
    | joinSup =>
      by_cases hsupRet : s.sup = .returned
      · refine ⟨.stop, _, trivial, by simp only [step, stopStep, hpc, if_pos hsupRet]; rfl, ?_⟩
        simp [stepsLeft, hpc, stopLeft]
      · rw [hpc] at hjoins
        have hlife := h.life.sup
        rw [Handled, if_pos hjoins.2.2] at hlife
        obtain ⟨s', hs, hlt⟩ := sup_progress h hsup fun hidle => hidle.elim hlife hsupRet
        have hstep : s.supStep none = some s' := hs
        have hf := supStep_frame hstep
        obtain ⟨-, hspawnRx, hspawnTx⟩ := hsup.looksOn
        refine ⟨.sup none, s', trivial, hs, ?_⟩
        rw [stepsLeft, stepsLeft, hf.rx.resolve_right hspawnRx,
          hf.tx.resolve_right fun hc => hspawnTx hc.1, hf.stop]
        omega
    | closePort =>
      refine ⟨.stop, _, trivial, by simp only [step, stopStep, hpc]; rfl, ?_⟩
      rw [closePort_eq]
      simp [stepsLeft, hpc, stopLeft]

/-- The call of `stop`. -/
theorem winding_stopCall {s s₀ : Driver} (hl : Life s) (hrx : RxSettles s) (htx : TxSettles s)
    (hs : s.step .stopCall = some s₀) : Winding s₀ := by
  have hl₀ := life_step hl hs
  obtain ⟨-, rfl⟩ := step_stopCall_iff.mp hs
  exact ⟨hl₀, rfl, hrx.of_eq rfl id (fun _ => id) id, htx.of_eq rfl id rfl, trivial, fun _ => rfl⟩

/-- A call of `stop` on a calm driver goes well. -/
theorem stopsCleanly_of_calm {s : Driver} (h : Reachable s) (hc : Calm s) : StopsCleanly s := by
  intro s₀ hs₀ acts s₁ hacts hrun
  have hwinding := winding_stopCall h.life hc.rx hc.tx hs₀
  have hsettles : SupSettles s₀ := by
    obtain ⟨-, rfl⟩ := step_stopCall_iff.mp hs₀
    exact hc.sup.of_eq rfl fun _ hrx htx => ⟨rfl, hrx, htx⟩
  have hinv : ∀ (s : Driver) (a : Action) (s' : Driver), Winding s ∧ SupSettles s → ¬ a.Call →
      s.step a = some s' → Winding s' ∧ SupSettles s' :=
    fun s a s' h ha hs => ⟨winding_step h.1 ha (fun _ => h.2) hs, supSettles_step h.1 h.2 ha hs⟩
  have h₁ := Transitions.inv_of_run hinv ⟨hwinding, hsettles⟩ hacts hrun
  refine ⟨?_, ?_⟩
  · have hstep : ∀ s : Driver, Winding s ∧ SupSettles s → ¬ s.stop = .returned →
        ∃ a s', a.Own ∧ s.step a = some s' ∧ (Winding s' ∧ SupSettles s') ∧
          stepsLeft s' < stepsLeft s := by
      intro s h hret
      obtain ⟨a, s', ha, hs, hlt⟩ := stop_progress h.1 h.2 hret
      exact ⟨a, s', ha, hs, hinv s a s' h ha.not_call hs, hlt⟩
    obtain ⟨acts', s₂, hacts', hrun', -, hret⟩ := Transitions.exists_run stepsLeft hstep h₁
    exact ⟨acts', s₂, hacts', hrun', hret⟩
  · intro hret
    have hjoins := h₁.1.joins
    rw [Joins, hret] at hjoins
    exact hjoins

/-! ## Getting stuck -/

/-- `rx_loop` is in a `read` that finds nothing. -/
structure RxStuck (s : Driver) : Prop where
  rx : s.rx = .inRead
  pending : s.pending = []
  stop : s.stop.joinsRx = true

/-- `tx_loop` waits for a notification that is past, or is nowhere. -/
structure TxStuck (s : Driver) : Prop where
  tx : s.tx = .waiting ∧ s.stop ≠ .notify ∨ s.tx = .undefined
  stop : s.stop.joinsLoops = true

theorem rxStuck_step {s s' : Driver} (hl : Life s) (h : RxStuck s) {a : Action} (ha : a.Own)
    (hs : s.step a = some s') : RxStuck s' := by
  obtain ⟨hrx, hpending, hstop⟩ := h
  have hj : s.rxJoinable = true := hl.rx.joinable_of_active (by simp [hrx])
  cases a with
  | start | stopCall | send | arrive | readFail | spurious => exact ha.elim
  | rx count =>
    simp only [step, rxStep, hrx, hpending, List.length_nil] at hs
    split at hs
    · omega
    · cases hs
  | tx result =>
    have hf := txStep_frame hs
    refine ⟨hf.rx.trans hrx, ?_, hf.stop ▸ hstop⟩
    by_cases htx : s.tx = .closing
    · simp only [step, txStep, htx] at hs
      obtain rfl := Option.some.inj hs
      exact closePort_pending_eq_nil hpending
    · exact (hf.pending htx).trans hpending
  | sup opened =>
    have hf := supStep_frame hs
    refine ⟨?_, ?_, hf.stop ▸ hstop⟩
    · rcases hf.rx with hsame | hspawn
      · exact hsame.trans hrx
      · -- `rx_loop` is there already
        have hfree := hl.pastRx (by rw [hspawn]; rfl)
        rw [hj] at hfree
        cases hfree
    · by_cases hopen : s.sup = .openPort
      · simp only [step, supStep, hopen] at hs
        cases opened with
        | none =>
          obtain rfl := Option.some.inj hs
          exact hpending
        | some fd =>
          obtain rfl := Option.some.inj hs
          rfl
      · exact (hf.pending hopen).trans hpending
  | stop =>
    simp only [step, stopStep] at hs
    cases hpc : s.stop with
    | notify =>
      rw [hpc] at hs
      obtain rfl := Option.some.inj hs
      exact ⟨hrx, hpending, rfl⟩
    | testRx =>
      rw [hpc] at hs
      dsimp only at hs
      rw [if_pos hj] at hs
      obtain rfl := Option.some.inj hs
      exact ⟨hrx, hpending, rfl⟩
    | joinRx =>
      rw [hpc] at hs
      dsimp only at hs
      rw [hrx] at hs
      cases hs
    | idle | testTx | joinTx | testSup | joinSup | closePort | returned =>
      rw [hpc] at hstop
      cases hstop

theorem txStuck_step {s s' : Driver} (hl : Life s) (h : TxStuck s) {a : Action} (ha : a.Own)
    (hs : s.step a = some s') : TxStuck s' := by
  obtain ⟨htx, hstop⟩ := h
  have hidle : ¬ (s.tx = .notStarted ∨ s.tx = .returned) := by
    rcases htx with ⟨htx, -⟩ | htx <;> simp [htx]
  have hj : s.txJoinable = true := hl.tx.joinable_of_active hidle
  cases a with
  | start | stopCall | send | arrive | readFail | spurious => exact ha.elim
  | rx count =>
    have hf := rxStep_frame hs
    refine ⟨?_, hf.stop ▸ hstop⟩
    rw [hf.tx, hf.stop]
    exact htx
  | tx result =>
    rcases htx with ⟨htx, -⟩ | htx <;> simp [step, txStep, htx] at hs
  | sup opened =>
    have hf := supStep_frame hs
    refine ⟨?_, hf.stop ▸ hstop⟩
    rcases hf.tx with hsame | ⟨hspawn, -⟩
    · rw [hsame, hf.stop]
      exact htx
    · -- `tx_loop` is there already
      have hfree := hl.pastTx (by rw [hspawn]; rfl)
      rw [hj] at hfree
      cases hfree
  | stop =>
    simp only [step, stopStep] at hs
    cases hpc : s.stop with
    | notify =>
      rw [hpc] at hs htx
      obtain rfl := Option.some.inj hs
      rcases htx with ⟨-, hne⟩ | hundefined
      · exact absurd rfl hne
      · refine ⟨Or.inr ?_, rfl⟩
        show s.tx.notified = .undefined
        rw [hundefined]
        rfl
    | testRx =>
      rw [hpc] at hs htx
      obtain rfl := Option.some.inj hs
      refine ⟨htx.imp_left fun h => ⟨h.1, ?_⟩, ?_⟩ <;> dsimp only <;> split <;>
        simp [StopPc.joinsLoops]
    | joinRx =>
      rw [hpc] at hs htx
      dsimp only at hs
      split at hs
      · obtain rfl := Option.some.inj hs
        exact ⟨htx.imp_left fun h => ⟨h.1, StopPc.noConfusion⟩, rfl⟩
      · cases hs
    | testTx =>
      rw [hpc] at hs htx
      dsimp only at hs
      rw [if_pos hj] at hs
      obtain rfl := Option.some.inj hs
      exact ⟨htx.imp_left fun h => ⟨h.1, StopPc.noConfusion⟩, rfl⟩
    | joinTx =>
      rw [hpc] at hs
      dsimp only at hs
      split at hs
      · exact absurd (Or.inr ‹_›) hidle
      · cases hs
    | idle | testSup | joinSup | closePort | returned =>
      rw [hpc] at hstop
      cases hstop

/-- **From where a thread is stuck** no steps of the driver's own let `stop` return. -/
theorem never_returns {s : Driver} (hl : Life s) (h : RxStuck s ∨ TxStuck s) {acts : List Action}
    {s' : Driver} (hacts : ∀ a ∈ acts, a.Own) (hrun : Transitions.run step s acts = some s') :
    s'.stop ≠ .returned := by
  have hinv : ∀ (s : Driver) (a : Action) (s' : Driver), Life s ∧ (RxStuck s ∨ TxStuck s) →
      a.Own → s.step a = some s' → Life s' ∧ (RxStuck s' ∨ TxStuck s') := by
    intro s a s' h ha hs
    refine ⟨life_step h.1 hs, ?_⟩
    rcases h.2 with hrx | htx
    · exact Or.inl (rxStuck_step h.1 hrx ha hs)
    · exact Or.inr (txStuck_step h.1 htx ha hs)
  have hend := (Transitions.inv_of_run hinv ⟨hl, h⟩ hacts hrun).2
  intro hret
  rcases hend with ⟨-, -, hstop⟩ | ⟨-, hstop⟩
  · rw [hret] at hstop
    cases hstop
  · rw [hret] at hstop
    cases hstop

/-! ## Getting there -/

theorem step_stopCall {s : Driver} (hq : s.stop.Quiet) : s.step .stopCall = some s.stopped :=
  step_stopCall_iff.mpr ⟨hq, rfl⟩

/-- `tx_loop` alone can close the port, and what the port holds is gone. -/
def Closes (s : Driver) : Prop :=
  ∃ acts s', (∀ a ∈ acts, a.ByLoops) ∧ Transitions.run step s acts = some s' ∧ s'.fd < 0 ∧
    s'.pending = [] ∧ s'.rx = s.rx ∧ s'.stop = s.stop ∧ s'.sup = s.sup

theorem Closes.of_tx {s s₁ : Driver} {result : Int} (hs : s.txStep result = some s₁)
    (h : Closes s₁) : Closes s := by
  have hf := txStep_frame hs
  have hstep : s.step (.tx result) = some s₁ := hs
  obtain ⟨acts, s', hacts, hrun, hfd, hpending, hrx, hstop, hsup⟩ := h
  refine ⟨.tx result :: acts, s', ?_, ?_, hfd, hpending, ?_, ?_, ?_⟩
  · exact List.forall_mem_cons.mpr ⟨trivial, hacts⟩
  · exact (Transitions.run_cons step hstep acts).trans hrun
  · exact hrx.trans hf.rx
  · exact hstop.trans hf.stop
  · exact hsup.trans hf.sup

theorem closes_closing {s : Driver} (hfd : s.fd ≥ 0) (htx : s.tx = .closing) : Closes s := by
  refine ⟨[.tx 0], { s with fd := -1, pending := [], tx := .returned }, ?_, ?_,
    Int.negSucc_lt_zero 0, rfl, rfl, rfl, rfl⟩
  · intro a ha
    obtain rfl := List.mem_singleton.mp ha
    trivial
  · simp [Transitions.run, step, txStep, htx, closePort, hfd]

theorem closes_write {s : Driver} (hfd : s.fd ≥ 0) {frame : List UInt8}
    (htx : s.tx = .write frame) : Closes s :=
  .of_tx (txStep_write_fails htx) (closes_closing hfd rfl)

theorem closes_checkFd {s : Driver} (hfd : s.fd ≥ 0) {frame : List UInt8}
    (htx : s.tx = .checkFd frame) : Closes s := by
  have hs : s.txStep 0 = some { s with tx := .write frame } := by
    simp [txStep, htx, hfd]
  exact .of_tx hs (closes_write hfd rfl)

theorem closes_of_mayClose {s : Driver} (hfd : s.fd ≥ 0) (hset : TxSettles s)
    (hclose : s.tx.mayClose = true) : Closes s := by
  cases htx : s.tx with
  | closing => exact closes_closing hfd htx
  | write frame => exact closes_write hfd htx
  | checkFd frame => exact closes_checkFd hfd htx
  | pop =>
    rw [TxSettles, htx] at hset
    obtain ⟨frame, txQueue, hq⟩ := List.exists_cons_of_ne_nil hset
    have hs : s.txStep 0 = some { s with txQueue := txQueue, tx := .checkFd frame } := by
      simp [txStep, htx, hq]
    exact .of_tx hs (closes_checkFd hfd rfl)
  | _ =>
    rw [htx] at hclose
    cases hclose

/-- The supervisor alone can create `tx_loop`. -/
def Spawns (s : Driver) : Prop :=
  ∃ acts s', (∀ a ∈ acts, a.Own) ∧ Transitions.run step s acts = some s' ∧ s'.sup = .sleep ∧
    s'.txJoinable = true ∧ s'.stop = s.stop ∧ s'.running = s.running ∧
    s'.supJoinable = s.supJoinable

theorem Spawns.of_sup {s s₁ : Driver} {opened : Option Nat} (hs : s.supStep opened = some s₁)
    (h : Spawns s₁) : Spawns s := by
  have hf := supStep_frame hs
  have hstep : s.step (.sup opened) = some s₁ := hs
  obtain ⟨acts, s', hacts, hrun, hsup, htxj, hstop, hrunning, hsupj⟩ := h
  refine ⟨.sup opened :: acts, s', ?_, ?_, hsup, htxj, ?_, ?_, ?_⟩
  · exact List.forall_mem_cons.mpr ⟨trivial, hacts⟩
  · exact (Transitions.run_cons step hstep acts).trans hrun
  · exact hstop.trans hf.stop
  · exact hrunning.trans hf.running
  · exact hsupj.trans hf.supJoinable

theorem spawns_spawnTx {s : Driver} (hpc : s.sup = .spawnTx) (htxj : s.txJoinable = false) :
    Spawns s := by
  refine ⟨[.sup none], { s with tx := .testRun, txJoinable := true, sup := .sleep }, ?_, ?_, rfl,
    rfl, rfl, rfl, rfl⟩
  · intro a ha
    obtain rfl := List.mem_singleton.mp ha
    trivial
  · simp [Transitions.run, step, supStep, hpc, htxj]

theorem spawns_spawnRx {s : Driver} (hpc : s.sup = .spawnRx) (hrxj : s.rxJoinable = false)
    (htxj : s.txJoinable = false) : Spawns s := by
  have hs : s.supStep none =
      some { s with rx := .entry, rxJoinable := true, sup := .spawnTx } := by
    simp [supStep, hpc, hrxj]
  exact .of_sup hs (spawns_spawnTx rfl htxj)

theorem spawns_openPort {s : Driver} (hpc : s.sup = .openPort) (hrxj : s.rxJoinable = false)
    (htxj : s.txJoinable = false) : Spawns s := by
  have hs : s.supStep (some 3) =
      some { s with fd := 3, pending := [], sup := .spawnRx, openCalls := s.openCalls + 1 } := by
    simp [supStep, hpc]
  exact .of_sup hs (spawns_spawnRx rfl hrxj htxj)

theorem spawns_guardTx {s : Driver} (hpc : s.sup = .guardTx) (hrxj : s.rxJoinable = false)
    (htxj : s.txJoinable = false) : Spawns s := by
  have hs : s.supStep none = some { s with sup := .openPort } := by
    simp [supStep, hpc, htxj]
  exact .of_sup hs (spawns_openPort rfl hrxj htxj)

theorem spawns_guardRx {s : Driver} (hpc : s.sup = .guardRx) (hrxj : s.rxJoinable = false)
    (htxj : s.txJoinable = false) : Spawns s := by
  have hs : s.supStep none = some { s with sup := .guardTx } := by
    simp [supStep, hpc, hrxj]
  exact .of_sup hs (spawns_guardTx rfl hrxj htxj)

/-- The supervisor is on its way to creating `tx_loop`, provided that the handles are
joined. -/
def SupOvertakes (s : Driver) : Prop :=
  match s.sup with
  | .guardFd => s.fd < 0
  | .guardRx | .guardTx | .openPort | .spawnRx | .spawnTx => True
  | .notStarted | .testRun | .sleep | .returned => False

theorem spawns_of_overtakes {s : Driver} (h : SupOvertakes s) (hrxj : s.rxJoinable = false)
    (htxj : s.txJoinable = false) : Spawns s := by
  rw [SupOvertakes] at h
  cases hpc : s.sup with
  | guardFd =>
    rw [hpc] at h
    have hs : s.supStep none = some { s with sup := .guardRx } := by
      simp [supStep, hpc, if_pos h]
    exact .of_sup hs (spawns_guardRx rfl hrxj htxj)
  | guardRx => exact spawns_guardRx hpc hrxj htxj
  | guardTx => exact spawns_guardTx hpc hrxj htxj
  | openPort => exact spawns_openPort hpc hrxj htxj
  | spawnRx => exact spawns_spawnRx hpc hrxj htxj
  | spawnTx => exact spawns_spawnTx hpc htxj
  | notStarted | testRun | sleep | returned =>
    rw [hpc] at h
    exact h.elim

theorem SupOvertakes.active {s : Driver} (h : SupOvertakes s) :
    ¬ (s.sup = .notStarted ∨ s.sup = .returned) := by
  rw [SupOvertakes] at h
  rintro (hpc | hpc) <;> rw [hpc] at h <;> exact h

theorem SupOvertakes.of_eq {s s' : Driver} (h : SupOvertakes s) (hsup : s'.sup = s.sup)
    (hfd : s.fd < 0 → s'.fd < 0) : SupOvertakes s' := by
  rw [SupOvertakes] at h ⊢
  rw [hsup]
  cases hpc : s.sup with
  | guardFd =>
    rw [hpc] at h
    exact hfd h
  | _ =>
    rw [hpc] at h
    exact h

/-- While `stop` joins the loops, the supervisor may stand still. -/
theorem byLoops_step {s s' : Driver} {a : Action} (ha : a.ByLoops) (hs : s.step a = some s')
    (hstop : s.stop.joinsLoops = true) :
    s'.sup = s.sup ∧ (s.fd < 0 → s'.fd < 0) ∧
      (s'.stop.joinsLoops = true ∨ s'.stop = .testSup) := by
  cases a with
  | start | stopCall | send | arrive | readFail | spurious | sup => exact ha.elim
  | rx count =>
    have hf := rxStep_frame hs
    exact ⟨hf.sup, hf.closed, Or.inl (hf.stop ▸ hstop)⟩
  | tx result =>
    have hf := txStep_frame hs
    exact ⟨hf.sup, hf.closed, Or.inl (hf.stop ▸ hstop)⟩
  | stop =>
    have hf := stopStep_frame hs
    refine ⟨hf.sup, hf.closed, ?_⟩
    simp only [step, stopStep] at hs
    cases hpc : s.stop with
    | idle | testSup | joinSup | closePort | returned =>
      rw [hpc] at hstop
      cases hstop
    | notify =>
      rw [hpc] at hs
      obtain rfl := Option.some.inj hs
      exact Or.inl rfl
    | testRx =>
      rw [hpc] at hs
      obtain rfl := Option.some.inj hs
      dsimp only
      split
      · exact Or.inl rfl
      · exact Or.inl rfl
    | testTx =>
      rw [hpc] at hs
      obtain rfl := Option.some.inj hs
      dsimp only
      split
      · exact Or.inl rfl
      · exact Or.inr rfl
    | joinRx =>
      rw [hpc] at hs
      dsimp only at hs
      split at hs
      · obtain rfl := Option.some.inj hs
        exact Or.inl rfl
      · cases hs
    | joinTx =>
      rw [hpc] at hs
      dsimp only at hs
      split at hs
      · obtain rfl := Option.some.inj hs
        exact Or.inr rfl
      · cases hs

/-- `stop` joins the supervisor, which is asleep, and returns. -/
theorem exists_return {s : Driver} (hstop : s.stop = .testSup) (hsup : s.sup = .sleep)
    (hrun : s.running = false) (hsupj : s.supJoinable = true) :
    ∃ acts s', (∀ a ∈ acts, a.Own) ∧ Transitions.run step s acts = some s' ∧
      s'.stop = .returned ∧ s'.txJoinable = s.txJoinable := by
  refine ⟨[.sup none, .sup none, .stop, .stop, .stop],
    { closePort { s with sup := .returned, supJoinable := false, stop := .closePort,
                         iterations := s.iterations + 1 } with stop := .returned }, ?_, ?_, rfl, ?_⟩
  · intro a ha
    simp only [List.mem_cons, List.not_mem_nil, or_false] at ha
    rcases ha with rfl | rfl | rfl | rfl | rfl <;> trivial
  · simp [Transitions.run, step, supStep, stopStep, hstop, hsup, hrun, hsupj]
  · rw [closePort_eq]

/-- **The supervisor may overtake `stop`**: it creates `tx_loop` when `stop` has already
looked for it, and `stop` returns without joining it. -/
theorem exists_left_behind {s : Driver} (h : Winding s) (hstop : s.stop.joinsLoops = true)
    (hover : SupOvertakes s) :
    ∃ acts s', (∀ a ∈ acts, a.Own) ∧ Transitions.run step s acts = some s' ∧
      s'.stop = .returned ∧ s'.txJoinable = true := by
  have hstep : ∀ s : Driver,
      Winding s ∧ (s.stop.joinsLoops = true ∨ s.stop = .testSup) ∧ SupOvertakes s →
      ¬ s.stop = .testSup → ∃ a s', a.Own ∧ s.step a = some s' ∧
        (Winding s' ∧ (s'.stop.joinsLoops = true ∨ s'.stop = .testSup) ∧ SupOvertakes s') ∧
        stepsLeft s' < stepsLeft s := by
    rintro s ⟨h, hpc, hover⟩ hne
    have hloops := hpc.resolve_right hne
    obtain ⟨a, s', ha, hs, hlt⟩ := loops_progress h hloops
    obtain ⟨hsup, hfd, hpc'⟩ := byLoops_step ha hs hloops
    have hwinding := winding_step h ha.own.not_call (fun hbySup => absurd hbySup ha.not_bySup) hs
    exact ⟨a, s', ha.own, hs, ⟨hwinding, hpc', hover.of_eq hsup hfd⟩, hlt⟩
  -- `stop` joins `rx_loop` and `tx_loop` while the supervisor stands still
  obtain ⟨acts₁, s₁, hacts₁, hrun₁, ⟨hwinding, -, hover₁⟩, hstop₁⟩ :=
    Transitions.exists_run stepsLeft hstep ⟨h, Or.inl hstop, hover⟩
  have hjoins := hwinding.joins
  rw [Joins, hstop₁] at hjoins
  -- then the supervisor goes on
  obtain ⟨acts₂, s₂, hacts₂, hrun₂, hsup₂, htxj₂, hstop₂, hrunning₂, hsupj₂⟩ :=
    spawns_of_overtakes hover₁ hjoins.1 hjoins.2
  have hsupj := hwinding.life.sup.joinable_of_active hover₁.active
  obtain ⟨acts₃, s₃, hacts₃, hrun₃, hret, htxj₃⟩ :=
    exists_return (hstop₂.trans hstop₁) hsup₂ (hrunning₂.trans hwinding.running)
      (hsupj₂.trans hsupj)
  refine ⟨acts₁ ++ (acts₂ ++ acts₃), s₃, ?_, ?_, hret, htxj₃.trans htxj₂⟩
  · exact List.forall_mem_append.mpr ⟨hacts₁, List.forall_mem_append.mpr ⟨hacts₂, hacts₃⟩⟩
  · rw [Transitions.run_append step hrun₁, Transitions.run_append step hrun₂, hrun₃]

/-! ## The condition is exact -/

theorem winding_run {s s' : Driver} (h : Winding s) {acts : List Action}
    (hacts : ∀ a ∈ acts, ¬ a.Call ∧ ¬ a.BySup) (hrun : Transitions.run step s acts = some s') :
    Winding s' :=
  Transitions.inv_of_run
    (fun _ _ _ h ha hs => winding_step h ha.1 (fun hsup => absurd hsup ha.2) hs) h hacts hrun

section
variable {s s₁ : Driver} {acts : List Action}

theorem StopsCleanly.not_stuck (h : StopsCleanly s) (hl : Life s) (hq : s.stop.Quiet)
    (hacts : ∀ a ∈ acts, ¬ a.Call) (hrun : Transitions.run step s.stopped acts = some s₁) :
    ¬ (RxStuck s₁ ∨ TxStuck s₁) := by
  intro hstuck
  obtain ⟨⟨acts', s₂, hacts', hrun', hret⟩, -⟩ :=
    h s.stopped (step_stopCall hq) acts s₁ hacts hrun
  have hl₁ : Life s₁ :=
    Transitions.Reachable.inv ⟨acts, hrun⟩ (life_step hl (step_stopCall hq))
      fun _ _ _ hl hs => life_step hl hs
  exact never_returns hl₁ hstuck hacts' hrun' hret

theorem StopsCleanly.not_overtakes (h : StopsCleanly s) (hq : s.stop.Quiet)
    (hacts : ∀ a ∈ acts, ¬ a.Call) (hrun : Transitions.run step s.stopped acts = some s₁)
    (hw : Winding s₁) (hstop : s₁.stop = .notify) : ¬ SupOvertakes s₁ := by
  intro hover
  obtain ⟨acts', s', hacts', hrun', hret, htxj⟩ :=
    exists_left_behind hw (by rw [hstop]; rfl) hover
  have hcalls : ∀ a ∈ acts ++ acts', ¬ a.Call :=
    List.forall_mem_append.mpr ⟨hacts, fun a ha => (hacts' a ha).not_call⟩
  obtain ⟨-, hclean⟩ := h s.stopped (step_stopCall hq) (acts ++ acts') s' hcalls
    ((Transitions.run_append step hrun acts').trans hrun')
  rw [(hclean hret).2.1] at htxj
  cases htxj

/-- **`tx_loop` gets stuck otherwise.** -/
theorem StopsCleanly.txSettles (h : StopsCleanly s) (hl : Life s) (hq : s.stop.Quiet) :
    TxSettles s := by
  rw [TxSettles]
  cases htx : s.tx with
  | predFd =>
    -- the notification comes before the wait
    by_contra hfd
    have hrun : Transitions.run step s.stopped [.stop, .tx 0, .tx 0] =
        some { s.stopped with stop := .testRx, tx := .waiting } := by
      simp [Transitions.run, step, stopStep, txStep, stopped, htx, TxPc.notified, hfd]
    exact h.not_stuck hl hq (by simp [Action.Call]) hrun
      (Or.inr ⟨Or.inl ⟨rfl, StopPc.noConfusion⟩, rfl⟩)
  | enterWait =>
    have hrun : Transitions.run step s.stopped [.stop, .tx 0] =
        some { s.stopped with stop := .testRx, tx := .waiting } := by
      simp [Transitions.run, step, stopStep, txStep, stopped, htx, TxPc.notified]
    exact h.not_stuck hl hq (by simp [Action.Call]) hrun
      (Or.inr ⟨Or.inl ⟨rfl, StopPc.noConfusion⟩, rfl⟩)
  | pop =>
    intro hempty
    have hrun : Transitions.run step s.stopped [.tx 0] =
        some { s.stopped with tx := .undefined } := by
      simp [Transitions.run, step, txStep, stopped, htx, hempty]
    exact h.not_stuck hl hq (by simp [Action.Call]) hrun (Or.inr ⟨Or.inr rfl, rfl⟩)
  | undefined =>
    exact h.not_stuck hl hq (by simp) (Transitions.run_nil step _) (Or.inr ⟨Or.inr htx, rfl⟩)
  | _ => trivial

/-- Where `rx_loop` gets into `read`, it finds bytes there. -/
theorem StopsCleanly.reads (h : StopsCleanly s) (hl : Life s) (hq : s.stop.Quiet)
    (htx : TxSettles s) (hacts : ∀ a ∈ acts, ¬ a.Call)
    (hrun : Transitions.run step s.stopped acts = some { s.stopped with rx := .inRead }) :
    s.pending ≠ [] ∧ (s.fd < 0 ∨ s.tx.mayClose = false) := by
  constructor
  · intro hpending
    exact h.not_stuck hl hq hacts hrun (Or.inl ⟨rfl, hpending, rfl⟩)
  · -- otherwise `tx_loop` may close the port under it
    by_contra hport
    obtain ⟨hfd, hclose⟩ := not_or.mp hport
    have hcloses : Closes { s.stopped with rx := .inRead } :=
      closes_of_mayClose (Int.not_lt.mp hfd) (htx.of_eq rfl id rfl)
        (eq_true_of_ne_false hclose)
    obtain ⟨acts', s', hacts', hrun', -, hpending, hrx, hstop, -⟩ := hcloses
    have hcalls : ∀ a ∈ acts ++ acts', ¬ a.Call :=
      List.forall_mem_append.mpr ⟨hacts, fun a ha => (hacts' a ha).own.not_call⟩
    refine h.not_stuck hl hq hcalls ((Transitions.run_append step hrun acts').trans hrun')
      (Or.inl ⟨hrx, hpending, ?_⟩)
    rw [hstop]
    rfl

/-- **`rx_loop` gets stuck otherwise.** -/
theorem StopsCleanly.rxSettles (h : StopsCleanly s) (hl : Life s) (hq : s.stop.Quiet)
    (htx : TxSettles s) : RxSettles s := by
  rw [RxSettles]
  cases hrx : s.rx with
  | testFd =>
    by_cases hfd : s.fd < 0
    · exact Or.inl hfd
    · have hrun : Transitions.run step s.stopped [.rx 0, .rx 0] =
          some { s.stopped with rx := .inRead } := by
        simp [Transitions.run, step, rxStep, stopped, hrx, hfd, Int.not_lt.mp hfd]
      obtain ⟨hbytes, hport⟩ := h.reads hl hq htx (by simp [Action.Call]) hrun
      exact Or.inr ⟨hbytes, hport.resolve_left hfd⟩
  | callRead =>
    by_cases hfd : s.fd < 0
    · exact Or.inl hfd
    · have hrun : Transitions.run step s.stopped [.rx 0] =
          some { s.stopped with rx := .inRead } := by
        simp [Transitions.run, step, rxStep, stopped, hrx, hfd]
      obtain ⟨hbytes, hport⟩ := h.reads hl hq htx (by simp [Action.Call]) hrun
      exact Or.inr ⟨hbytes, hport.resolve_left hfd⟩
  | inRead =>
    have hrun : Transitions.run step s.stopped [] = some { s.stopped with rx := .inRead } := by
      rw [← hrx]
      rfl
    exact h.reads hl hq htx (by simp) hrun
  | _ => trivial

/-- A `rx_loop` past its test of `running_` may find `read` failing and close the port. -/
theorem exists_rx_closes (hfd : s.fd ≥ 0) (hclose : s.rx.mayClose = true) :
    ∃ acts, (∀ a ∈ acts, ¬ a.Call ∧ ¬ a.BySup) ∧
      Transitions.run step s acts = some { s with fd := -1, pending := [], rx := .returned } := by
  have hneg : ¬ s.fd < 0 := Int.not_lt.mpr hfd
  cases hrx : s.rx with
  | closing =>
    refine ⟨[.rx 0], by simp [Action.Call, Action.BySup], ?_⟩
    simp [Transitions.run, step, rxStep, hrx, closePort, hfd]
  | inRead =>
    refine ⟨[.readFail, .rx 0], by simp [Action.Call, Action.BySup], ?_⟩
    simp [Transitions.run, step, rxStep, hrx, closePort, hfd]
  | callRead =>
    refine ⟨[.rx 0, .readFail, .rx 0], by simp [Action.Call, Action.BySup], ?_⟩
    simp [Transitions.run, step, rxStep, hrx, closePort, hfd, hneg]
  | testFd =>
    refine ⟨[.rx 0, .rx 0, .readFail, .rx 0], by simp [Action.Call, Action.BySup], ?_⟩
    simp [Transitions.run, step, rxStep, hrx, closePort, hfd, hneg]
  | _ =>
    rw [hrx] at hclose
    cases hclose

/-- **The supervisor overtakes `stop` otherwise.** -/
theorem StopsCleanly.supSettles (h : StopsCleanly s) (hq : s.stop.Quiet) (hw : Winding s.stopped) :
    SupSettles s := by
  have hnow : ¬ SupOvertakes s.stopped :=
    h.not_overtakes hq (by simp) (Transitions.run_nil step _) hw rfl
  rw [SupSettles]
  cases hsup : s.sup with
  | notStarted | testRun | sleep | returned => trivial
  | guardRx | guardTx | openPort | spawnRx | spawnTx =>
    apply hnow
    rw [SupOvertakes, stopped, hsup]
    trivial
  | guardFd =>
    have hfd : s.fd ≥ 0 := by
      by_contra hneg
      apply hnow
      rw [SupOvertakes, stopped, hsup]
      exact Int.not_le.mp hneg
    -- once `rx_loop` or `tx_loop` has closed the port, the supervisor finds it closed
    refine ⟨hfd, ?_, ?_⟩
    · by_contra hclose
      obtain ⟨acts, hacts, hrun⟩ :=
        exists_rx_closes (s := s.stopped) hfd (eq_true_of_ne_false hclose)
      apply h.not_overtakes hq (fun a ha => (hacts a ha).1) hrun (winding_run hw hacts hrun) rfl
      rw [SupOvertakes, stopped, hsup]
      exact Int.negSucc_lt_zero 0
    · by_contra hclose
      obtain ⟨acts, s', hacts, hrun, hneg, -, -, hstop, hsup'⟩ :=
        closes_of_mayClose (s := s.stopped) hfd hw.tx (eq_true_of_ne_false hclose)
      have hkind : ∀ a ∈ acts, ¬ a.Call ∧ ¬ a.BySup :=
        fun a ha => ⟨(hacts a ha).own.not_call, (hacts a ha).not_bySup⟩
      apply h.not_overtakes hq (fun a ha => (hkind a ha).1) hrun (winding_run hw hkind hrun) hstop
      rw [SupOvertakes, hsup', stopped, hsup]
      exact hneg

end

/-- **`stop` returns and leaves nothing running**, however its steps interleave with
those of the other threads, if and only if no thread is at a point that it comes too
late for. -/
theorem stops_cleanly_iff {s : Driver} (h : Reachable s) (hq : s.stop.Quiet) :
    StopsCleanly s ↔ Calm s := by
  constructor
  · intro hclean
    have htx := hclean.txSettles h.life hq
    have hrx := hclean.rxSettles h.life hq htx
    have hw := winding_stopCall h.life hrx htx (step_stopCall hq)
    exact ⟨hrx, htx, hclean.supSettles hq hw⟩
  · exact stopsCleanly_of_calm h

/-- `tx_loop` waits for a frame, and `rx_loop` is in `read` with a byte to come. -/
def settle : List Action :=
  connect ++ [.tx 0, .tx 0, .tx 0, .tx 0, .tx 0, .tx 0, .rx 0, .rx 0, .rx 0, .rx 0,
    .arrive [⟨0xAA, 0⟩]]

theorem stops_cleanly_settled :
    ∃ s, Transitions.run step init settle = some s ∧ StopsCleanly s :=
  ⟨_, rfl, (stops_cleanly_iff ⟨settle, rfl⟩ (Or.inl rfl)).mpr
    ⟨⟨List.cons_ne_nil _ _, Or.inr rfl⟩, trivial, trivial⟩⟩

/-- A call of `stop` on a connected driver to which nothing is sent: `stop` waits for
`rx_loop`, which waits in `read`. -/
theorem stop_blocked : ¬ ∀ s, Reachable s → StopsCleanly s := by
  intro h
  have hrun : ∃ s, Transitions.run step init
      (connect ++ [.rx 0, .rx 0, .rx 0, .rx 0]) = some s ∧ s.stop.Quiet ∧
      s.rx = .inRead ∧ s.pending = [] :=
    ⟨_, rfl, Or.inl rfl, rfl, rfl⟩
  obtain ⟨s, hs, hq, hrx, hpending⟩ := hrun
  have hreach : Reachable s := ⟨_, hs⟩
  exact (h s hreach).not_stuck hreach.life hq (by simp) (Transitions.run_nil step _)
    (Or.inl ⟨hrx, hpending, rfl⟩)

end Driver
end KartStack.SerialDriver
