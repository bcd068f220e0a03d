import KartStack.PidController

/-! # Whether the PID recovers

A setpoint or a measurement may be any float.  An infinite error drives the integral
to one of its limits, where the two comparisons of `KM_PID_Calculate` hold it, so it
is gone with the next call.  NaN passes the comparisons and stays in the integral
for ever: even a gain `ki` of 0 makes NaN of it.  And where `kd` is 0 the call after
an infinite error multiplies 0 by an infinity.  So the outputs recover exactly from
what leaves neither behind (`recovers_iff`).
-/
namespace KartStack.KmPid
open PidController

/-- `KM_PID_Init` and the limits, as `system_init` calls them. -/
def Tuning.configure (t : Tuning) (storage : PidController) (now : UInt64) : PidController :=
  ((storage.init (.fin t.kp) (.fin t.ki) (.fin t.kd) now).setOutputLimits
    (.fin t.outputMin) (.fin t.outputMax)).setIntegralLimits (.fin t.integralMin)
      (.fin t.integralMax)

/-- A call of `KM_PID_Calculate`. -/
structure Sample where
  setpoint : CFloat
  measurement : CFloat
  now : UInt64

/-- `error`. -/
def Sample.error (x : Sample) : CFloat := x.setpoint - x.measurement

/-- Setpoint and measurement are finite. -/
def Sample.finite (x : Sample) : Bool :=
  match x.setpoint, x.measurement with
  | .fin _, .fin _ => true
  | _, _ => false

/-- The controller, and what no function reads: whether an error was NaN, whether the
last call was finite, and whether two in a row were. -/
structure History where
  controller : PidController
  tainted : Bool
  lastFinite : Bool
  settled : Bool

/-- Before the first call. -/
def History.start (t : Tuning) (storage : PidController) (now : UInt64) : History :=
  ⟨t.configure storage now, false, false, false⟩

/-- One call. -/
def History.step (s : History) (x : Sample) : Option History :=
  some {
    controller := (s.controller.calculate x.setpoint x.measurement x.now).1
    tainted := s.tainted || decide (x.error = .nan)
    lastFinite := x.finite
    settled := s.settled || (s.lastFinite && x.finite) }

/-- A finite call that is the second in a row, or comes after two in a row. -/
def Due (s : History) (x : Sample) : Prop :=
  x.finite = true ∧ (s.settled = true ∨ s.lastFinite = true)

/-- Where it is due, the output is finite and within its limits. -/
def Recovers (t : Tuning) (s : History) (x : Sample) : Prop :=
  Due s x → ∃ out : ℚ, (s.controller.calculate x.setpoint x.measurement x.now).2 = .fin out ∧
    t.outputMin ≤ out ∧ out ≤ t.outputMax

/-- Where an output is due, no error before was NaN; and the last one was not infinite
if there is no derivative gain. -/
def Untainted (t : Tuning) (s : History) (x : Sample) : Prop :=
  Due s x → s.tainted = false ∧ (t.kd = 0 → ∀ negative, s.controller.lastError ≠ .inf negative)

/-! ## One call -/

/-- The controller is as it was set up; its integral is NaN if an error was, and otherwise a
number, as the last error is. -/
structure Tracks (t : Tuning) (s : History) : Prop where
  kp : s.controller.kp = .fin t.kp
  ki : s.controller.ki = .fin t.ki
  kd : s.controller.kd = .fin t.kd
  outputMin : s.controller.outputMin = .fin t.outputMin
  outputMax : s.controller.outputMax = .fin t.outputMax
  integralMin : s.controller.integralMin = .fin t.integralMin
  integralMax : s.controller.integralMax = .fin t.integralMax
  tainted : s.tainted = true → s.controller.integral = .nan
  untainted : s.tainted = false →
    (∃ i, s.controller.integral = .fin i) ∧ s.controller.lastError ≠ .nan

theorem start_tracks (t : Tuning) (storage : PidController) (now : UInt64) :
    Tracks t (.start t storage now) where
  kp := rfl
  ki := rfl
  kd := rfl
  outputMin := rfl
  outputMax := rfl
  integralMin := rfl
  integralMax := rfl
  tainted h := Bool.noConfusion h
  untainted _ := ⟨⟨0, rfl⟩, CFloat.noConfusion⟩

theorem Sample.error_of_finite {x : Sample} (h : x.finite = true) : ∃ e, x.error = .fin e := by
  unfold Sample.finite at h
  unfold Sample.error
  split at h
  case h_1 a b hset hmeas =>
    rw [hset, hmeas]
    exact ⟨a - b, CFloat.fin_sub a b⟩
  case h_2 => cases h

/-- Zero times an infinity. -/
theorem zero_mul_inf (negative : Bool) : CFloat.fin 0 * .inf negative = .nan := by
  show CFloat.infMul negative 0 = _
  rw [CFloat.infMul, if_pos rfl]

/-- A factor that is not zero leaves an infinity an infinity. -/
theorem exists_mul_inf {a : ℚ} (ha : a ≠ 0) (negative : Bool) :
    ∃ negative', CFloat.fin a * .inf negative = .inf negative' := by
  show ∃ _, CFloat.infMul negative a = _
  rw [CFloat.infMul, if_neg ha]
  exact ⟨_, rfl⟩

/-- **What a call does to the integral**: NaN stays, and a NaN error makes it NaN;
everything else is limited. -/
theorem step_tracks {t : Tuning} {s s' : History} {x : Sample} (h : Tracks t s)
    (hstep : s.step x = some s') : Tracks t s' := by
  obtain rfl := Option.some.inj hstep
  obtain ⟨d, hd, hpos⟩ := dt_pos s.controller x.now
  have hintegral : (s.controller.calculate x.setpoint x.measurement x.now).1.integral =
      CFloat.limit (s.controller.integral + x.error * .fin d) (.fin t.integralMin)
        (.fin t.integralMax) := by
    rw [← h.integralMin, ← h.integralMax, ← hd]
    rfl
  refine ⟨h.kp, h.ki, h.kd, h.outputMin, h.outputMax, h.integralMin, h.integralMax, ?_, ?_⟩
  · intro htainted
    simp only [Bool.or_eq_true, decide_eq_true_eq] at htainted
    rcases htainted with hbefore | hnow
    · show (s.controller.calculate _ _ _).1.integral = .nan
      rw [hintegral, h.tainted hbefore, CFloat.nan_add, CFloat.limit_nan]
    · exact calculate_integral_nan s.controller x.now hnow
  · intro hclean
    simp only [Bool.or_eq_false_iff, decide_eq_false_iff_not] at hclean
    obtain ⟨hbefore, hnow⟩ := hclean
    obtain ⟨⟨i, hi⟩, -⟩ := h.untainted hbefore
    rw [hi] at hintegral
    obtain ⟨j, hj, -⟩ := CFloat.limit_eq_fin (sum_ne_nan (i := i) hpos hnow) t.integral_le
    exact ⟨⟨j, hintegral.trans hj⟩, hnow⟩

/-- The output of a call with a finite error, by the integral after it. -/
theorem output_eq {t : Tuning} {s : History} {x : Sample} (h : Tracks t s) {e d : ℚ}
    (he : x.error = .fin e) (hd : s.controller.dt x.now = .fin d) :
    (s.controller.calculate x.setpoint x.measurement x.now).2 =
      CFloat.limit (.fin (t.kp * e) +
        .fin t.ki * (s.controller.calculate x.setpoint x.measurement x.now).1.integral +
          .fin t.kd * ((.fin e - s.controller.lastError) / .fin d))
        (.fin t.outputMin) (.fin t.outputMax) := by
  rw [← h.outputMin, ← h.outputMax, ← hd, ← he, ← h.kd, ← h.ki, ← CFloat.fin_mul, ← h.kp, ← he]
  rfl

/-- The three terms of a finite error, with a finite integral. -/
theorem terms_ne_nan {kd d : ℚ} (hd : 0 < d) (a e : ℚ) {lastError : CFloat}
    (hl : lastError ≠ .nan) :
    .fin a + .fin kd * ((.fin e - lastError) / .fin d) ≠ .nan ↔
      (kd = 0 → ∀ negative, lastError ≠ .inf negative) := by
  cases lastError with
  | nan => exact absurd rfl hl
  | fin l => simp [CFloat.fin_div hd]
  | inf n =>
    rw [CFloat.fin_sub_inf, CFloat.inf_div_fin hd]
    by_cases hkd : kd = 0
    · rw [hkd, zero_mul_inf, CFloat.add_nan]
      simp
    · obtain ⟨n', hn'⟩ := exists_mul_inf hkd (!n)
      rw [hn']
      simp [hkd]

/-- **A due output is finite exactly if nothing is left behind.** -/
theorem recovers_iff_untainted {t : Tuning} {s : History} (h : Tracks t s) (x : Sample) :
    Recovers t s x ↔ Untainted t s x := by
  refine forall_congr' fun hdue => ?_
  obtain ⟨e, he⟩ := Sample.error_of_finite hdue.1
  obtain ⟨d, hd, hpos⟩ := dt_pos s.controller x.now
  have hout := output_eq h he hd
  have hnext := step_tracks h (rfl : s.step x = some _)
  cases hs : s.tainted with
  | true =>
    have hnan := hnext.tainted (by simp [hs])
    dsimp only at hnan
    refine iff_of_false ?_ (fun hc => Bool.noConfusion hc.1)
    rintro ⟨out, heq, -⟩
    rw [hout, hnan, CFloat.mul_nan, CFloat.add_nan, CFloat.nan_add, CFloat.limit_nan] at heq
    cases heq
  | false =>
    obtain ⟨-, hl⟩ := h.untainted hs
    obtain ⟨⟨i, hi⟩, -⟩ := hnext.untainted (by simp [hs, he])
    dsimp only at hi
    rw [hi, CFloat.fin_mul, CFloat.fin_add] at hout
    rw [hout, ← terms_ne_nan hpos (t.kp * e + t.ki * i) e hl, and_iff_right rfl]
    constructor
    · rintro ⟨out, heq, -⟩ hnan
      rw [hnan, CFloat.limit_nan] at heq
      cases heq
    · exact fun hnum => CFloat.limit_eq_fin hnum t.output_le

/-- **The PID recovers in a history exactly if every output that is due finds no NaN
left behind**, and no infinity where `kd` is 0. -/
theorem recovers_iff (t : Tuning) (storage : PidController) (now : UInt64)
    (samples : List Sample) :
    Transitions.Along History.step (Recovers t) (.start t storage now) samples ↔
      Transitions.Along History.step (Untainted t) (.start t storage now) samples := by
  have hiff : ∀ s x, Tracks t s → (Recovers t s x ↔ Untainted t s x) :=
    fun _ x hs => recovers_iff_untainted hs x
  have hstep : ∀ s x s', Tracks t s → Untainted t s x → s.step x = some s' → Tracks t s' :=
    fun _ _ _ hs _ => step_tracks hs
  exact Transitions.along_iff_of_inv hiff hstep (start_tracks t storage now) samples

/-- A NaN setpoint once, then zeros. -/
def nanOnce : List Sample := [⟨.nan, 0, 50000⟩, ⟨0, 0, 100000⟩, ⟨0, 0, 150000⟩]

/-- **One NaN, and no output is a number again.** -/
theorem nanOnce_not_recovers : ¬ ∀ (t : Tuning) (storage : PidController) (now : UInt64)
    (samples : List Sample),
    Transitions.Along History.step (Recovers t) (.start t storage now) samples := by
  intro hall
  obtain ⟨-, h₁⟩ := hall shipped blank 0 nanOnce
  obtain ⟨-, h₂⟩ := h₁ _ rfl
  obtain ⟨hthird, -⟩ := h₂ _ rfl
  have htracks : ∀ s₁ ∈ (History.start shipped blank 0).step ⟨.nan, 0, 50000⟩,
      ∀ s₂ ∈ s₁.step ⟨0, 0, 100000⟩, Tracks shipped s₂ := fun _ h₁ _ h₂ =>
    step_tracks (step_tracks (start_tracks shipped blank 0) h₁) h₂
  have huntainted := (recovers_iff_untainted (htracks _ rfl _ rfl) _).mp hthird
  exact Bool.noConfusion (huntainted ⟨rfl, Or.inr rfl⟩).1

end KartStack.KmPid
