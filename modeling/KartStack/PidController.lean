import KartStack.FloatArithmetic
import KartStack.Transitions

/-! # The steering PID

`KM_PID_Calculate` weighs the error, its sum over time and its change over time.
The time step is the difference between the clock now and the clock at the last
call, and the two are kept in different widths: `lastTime` is a 64-bit field,
but `currentTime` is an `unsigned long`, 32 bits on the ESP32.  `KM_PID_Init` and
`KM_PID_Reset` store the whole clock, `KM_PID_Calculate` stores what is left of it.

So the time step is the time elapsed as long as the clock has not passed a
multiple of 2³² µs, and wrong whenever it has (`dt_elapsed_iff`).
-/
namespace KartStack.KmPid

/-- `PID_Controller`. -/
structure PidController where
  kp : CFloat
  ki : CFloat
  kd : CFloat
  integral : CFloat
  lastError : CFloat
  /-- A `uint64_t`. -/
  lastTime : UInt64
  outputMin : CFloat
  outputMax : CFloat
  integralMin : CFloat
  integralMax : CFloat
  deriving DecidableEq

namespace PidController

/-- `KM_PID_Init`; the limits keep whatever `storage` held. -/
def init (storage : PidController) (kp ki kd : CFloat) (now : UInt64) : PidController :=
  { storage with kp, ki, kd, integral := 0, lastError := 0, lastTime := now }

/-- `KM_PID_SetOutputLimits`. -/
def setOutputLimits (c : PidController) (min max : CFloat) : PidController :=
  { c with outputMin := min, outputMax := max }

/-- `KM_PID_SetIntegralLimits`. -/
def setIntegralLimits (c : PidController) (min max : CFloat) : PidController :=
  { c with integralMin := min, integralMax := max }

/-- `KM_PID_Reset`. -/
def reset (c : PidController) (now : UInt64) : PidController :=
  { c with integral := 0, lastError := 0, lastTime := now }

/-- `currentTime`, the clock as an `unsigned long`. -/
def currentTime (now : UInt64) : UInt32 := now.toUInt32

/-- The time step `dt` of `KM_PID_Calculate`, in seconds. -/
def dt (c : PidController) (now : UInt64) : CFloat :=
  let dt : CFloat := .fin (((currentTime now).toUInt64 - c.lastTime).toNat / 1000000)
  if dt ≤ .fin 0 then .fin (1 / 1000) else dt

/-- `KM_PID_Calculate`: the controller afterwards and the output. -/
def calculate (c : PidController) (setpoint measurement : CFloat) (now : UInt64) :
    PidController × CFloat :=
  let dt := c.dt now
  let error := setpoint - measurement
  let pTerm := c.kp * error
  let integral := CFloat.limit (c.integral + error * dt) c.integralMin c.integralMax
  let iTerm := c.ki * integral
  let derivative := (error - c.lastError) / dt
  let dTerm := c.kd * derivative
  let output := CFloat.limit (pTerm + iTerm + dTerm) c.outputMin c.outputMax
  ({ c with integral, lastError := error, lastTime := (currentTime now).toUInt64 }, output)

end PidController

/-! ## Runs of the controller -/

/-- What is called. -/
inductive Op where
  | init (storage : PidController) (kp ki kd : CFloat)
  | reset
  | calculate (setpoint measurement : CFloat)

/-- A call, with the time `esp_timer_get_time` returns in it. -/
structure Call where
  op : Op
  now : UInt64

/-- The controller, and the call that was made last. -/
structure Run where
  controller : PidController
  last : Call

/-- One call. -/
def Call.perform (c : PidController) (call : Call) : PidController :=
  match call.op with
  | .init storage kp ki kd => storage.init kp ki kd call.now
  | .reset => c.reset call.now
  | .calculate setpoint measurement => (c.calculate setpoint measurement call.now).1

/-- A call is made. -/
def step (s : Run) (call : Call) : Option Run := some ⟨call.perform s.controller, call⟩

/-- A run begins with `KM_PID_Init`. -/
def start (storage : PidController) (kp ki kd : CFloat) (now : UInt64) : Run where
  controller := storage.init kp ki kd now
  last := ⟨.init storage kp ki kd, now⟩

/-- The clock does not run backwards. -/
def InOrder (s : Run) (call : Call) : Prop := s.last.now ≤ call.now

/-- The time step that is due: the time since the last call, or a millisecond. -/
def elapsed (last now : UInt64) : CFloat :=
  if now = last then .fin (1 / 1000) else .fin ((now.toNat - last.toNat : ℚ) / 1000000)

/-- The time step used is the one that is due. -/
def DtElapsed (s : Run) (call : Call) : Prop :=
  match call.op with
  | .calculate _ _ => s.controller.dt call.now = elapsed s.last.now call.now
  | _ => True

/-- The clock is below 2³² µs if the whole of it was stored, and has not passed a
multiple of 2³² µs if the lower half of it was. -/
def ClockFits (s : Run) (call : Call) : Prop :=
  match call.op, s.last.op with
  | .calculate _ _, .calculate _ _ => s.last.now.toNat / 2 ^ 32 = call.now.toNat / 2 ^ 32
  | .calculate _ _, _ => call.now.toNat < 2 ^ 32
  | _, _ => True

/-- What is left of the clock in `lastTime` after a call. -/
def Call.stored (call : Call) : UInt64 :=
  match call.op with
  | .calculate _ _ => (PidController.currentTime call.now).toUInt64
  | _ => call.now

/-- `lastTime` is what the last call stored. -/
def Stored (s : Run) : Prop := s.controller.lastTime = s.last.stored

theorem step_stored {s s' : Run} {call : Call} (h : step s call = some s') : Stored s' := by
  obtain rfl := Option.some.inj h
  cases call with
  | mk op now => cases op <;> rfl

/-! ## The time step in microseconds -/

/-- `dt` in microseconds. -/
def ticks (lastTime now : UInt64) : Nat :=
  let d := ((PidController.currentTime now).toUInt64 - lastTime).toNat
  if d = 0 then 1000 else d

theorem dt_eq_ticks (c : PidController) (now : UInt64) :
    c.dt now = .fin (ticks c.lastTime now / 1000000) := by
  unfold PidController.dt ticks
  generalize ((PidController.currentTime now).toUInt64 - c.lastTime).toNat = d
  by_cases hd : d = 0
  · rw [hd]
    norm_num
  · have hpos : ¬ ((d : ℚ) / 1000000 ≤ 0) := by
      have : (0 : ℚ) < d := Nat.cast_pos.mpr (Nat.pos_of_ne_zero hd)
      exact not_le.mpr (by positivity)
    simp [hd, hpos]

theorem elapsed_eq_ticks {last now : UInt64} (h : last ≤ now) :
    elapsed last now =
      .fin (((if now = last then 1000 else now.toNat - last.toNat : ℕ) : ℚ) / 1000000) := by
  unfold elapsed
  by_cases hn : now = last
  · rw [if_pos hn, if_pos hn]
    norm_num
  · rw [if_neg hn, if_neg hn, Nat.cast_sub (UInt64.le_iff_toNat_le.mp h)]

theorem fin_div_million_inj {a b : Nat} :
    CFloat.fin ((a : ℚ) / 1000000) = .fin ((b : ℚ) / 1000000) ↔ a = b := by
  constructor
  · intro h
    have hq : (a : ℚ) / 1000000 = b / 1000000 := CFloat.fin.inj h
    have hab : (a : ℚ) = b := by linarith
    exact_mod_cast hab
  · rintro rfl
    rfl

/-- The difference the code takes, in natural numbers. -/
theorem toNat_currentTime_sub (lastTime now : UInt64) :
    ((PidController.currentTime now).toUInt64 - lastTime).toNat =
      (2 ^ 64 - lastTime.toNat + now.toNat % 2 ^ 32) % 2 ^ 64 := by
  rw [UInt64.toNat_sub, UInt32.toNat_toUInt64, PidController.currentTime, UInt64.toNat_toUInt32]

/-- After the whole clock was stored, the step is right below 2³² µs only. -/
theorem ticks_whole {last now : UInt64} (h : last ≤ now) :
    ticks last now = (if now = last then 1000 else now.toNat - last.toNat) ↔
      now.toNat < 2 ^ 32 := by
  have hle : last.toNat ≤ now.toNat := UInt64.le_iff_toNat_le.mp h
  have hlt := now.toNat_lt
  have heq : now = last ↔ now.toNat = last.toNat := UInt64.toNat_inj.symm
  unfold ticks
  dsimp only
  rw [toNat_currentTime_sub]
  simp only [heq]
  split <;> split <;> omega

/-- After its lower half was stored, the step is right if the upper half has not
changed. -/
theorem ticks_half {last now : UInt64} (h : last ≤ now) :
    ticks (PidController.currentTime last).toUInt64 now =
        (if now = last then 1000 else now.toNat - last.toNat) ↔
      last.toNat / 2 ^ 32 = now.toNat / 2 ^ 32 := by
  have hle : last.toNat ≤ now.toNat := UInt64.le_iff_toNat_le.mp h
  have hlt := now.toNat_lt
  have heq : now = last ↔ now.toNat = last.toNat := UInt64.toNat_inj.symm
  have hlow : (PidController.currentTime last).toUInt64.toNat = last.toNat % 2 ^ 32 := by
    rw [UInt32.toNat_toUInt64, PidController.currentTime, UInt64.toNat_toUInt32]
  unfold ticks
  dsimp only
  rw [toNat_currentTime_sub, hlow]
  simp only [heq]
  split <;> split <;> omega

/-- A `KM_PID_Calculate` uses the right step if the step in microseconds is right. -/
theorem dtElapsed_iff_ticks (c : PidController) {last : Call} {now : UInt64}
    (setpoint measurement : CFloat) (h : last.now ≤ now) :
    DtElapsed ⟨c, last⟩ ⟨.calculate setpoint measurement, now⟩ ↔
      ticks c.lastTime now = if now = last.now then 1000 else now.toNat - last.now.toNat := by
  show c.dt now = elapsed last.now now ↔ _
  rw [dt_eq_ticks, elapsed_eq_ticks h, fin_div_million_inj]

/-- Call by call, the time step is right if the clock fits. -/
theorem dtElapsed_iff_clockFits {s : Run} {call : Call} (hs : Stored s) (h : InOrder s call) :
    DtElapsed s call ↔ ClockFits s call := by
  obtain ⟨c, lastOp, last⟩ := s
  obtain ⟨op, now⟩ := call
  have hst : c.lastTime = (Call.mk lastOp last).stored := hs
  cases op with
  | init storage kp ki kd => simp only [DtElapsed, ClockFits]
  | reset => simp only [DtElapsed, ClockFits]
  | calculate setpoint measurement =>
    rw [dtElapsed_iff_ticks c setpoint measurement h, hst]
    cases lastOp with
    | init storage kp ki kd =>
      simp only [Call.stored, ClockFits]
      exact ticks_whole h
    | reset =>
      simp only [Call.stored, ClockFits]
      exact ticks_whole h
    | calculate setpoint' measurement' =>
      simp only [Call.stored, ClockFits]
      exact ticks_half h

/-- **The time step is the time elapsed exactly in the runs whose clock fits** at
every `KM_PID_Calculate`. -/
theorem dt_elapsed_iff (storage : PidController) (kp ki kd : CFloat) (now : UInt64)
    {calls : List Call} (h : Transitions.Along step InOrder (start storage kp ki kd now) calls) :
    Transitions.Along step DtElapsed (start storage kp ki kd now) calls ↔
      Transitions.Along step ClockFits (start storage kp ki kd now) calls := by
  have hiff : ∀ s call, Stored s → InOrder s call → (DtElapsed s call ↔ ClockFits s call) :=
    fun _ _ => dtElapsed_iff_clockFits
  have hstep : ∀ s call s', Stored s → InOrder s call → ClockFits s call →
      step s call = some s' → Stored s' := fun _ _ _ _ _ _ => step_stored
  have hstart : Stored (start storage kp ki kd now) := rfl
  exact Transitions.along_iff hiff hstep hstart h

/-- Storage before anything is written to it. -/
def blank : PidController := ⟨0, 0, 0, 0, 0, 0, 0, 0, 0, 0⟩

/-- Two control periods just after boot. -/
def atBoot : List Call := [⟨.calculate 0 0, 50000⟩, ⟨.calculate 0 0, 100000⟩]

theorem atBoot_elapsed : Transitions.Along step DtElapsed (start blank 1 0 0 0) atBoot := by
  have horder : Transitions.Along step InOrder (start blank 1 0 0 0) atBoot := by
    refine ⟨show (0 : UInt64) ≤ 50000 by decide, ?_⟩
    rintro s ⟨⟩
    exact ⟨show (50000 : UInt64) ≤ 100000 by decide, fun _ _ => trivial⟩
  have hfits : Transitions.Along step ClockFits (start blank 1 0 0 0) atBoot := by
    refine ⟨show (50000 : UInt64).toNat < 2 ^ 32 by decide, ?_⟩
    rintro s ⟨⟩
    exact ⟨show (50000 : UInt64).toNat / 2 ^ 32 = (100000 : UInt64).toNat / 2 ^ 32 by decide,
      fun _ _ => trivial⟩
  exact (dt_elapsed_iff blank 1 0 0 0 horder).mpr hfits

/-- Calls 50 ms apart between which the clock passes 2³² µs. -/
def wrapped : List Call := [⟨.calculate 0 0, 4294940000⟩, ⟨.calculate 0 0, 4294990000⟩]

/-- The clock runs forwards and less than 2³² µs pass between two calls. -/
def Spaced (s : Run) (call : Call) : Prop :=
  s.last.now ≤ call.now ∧ call.now.toNat - s.last.now.toNat < 2 ^ 32

/-- **The second time step is not the 50 ms elapsed.** -/
theorem wrapped_not_elapsed :
    Transitions.Along step Spaced (start blank 1 0 0 0) wrapped ∧
      ¬ Transitions.Along step DtElapsed (start blank 1 0 0 0) wrapped := by
  have horder : (4294940000 : UInt64) ≤ 4294990000 := by decide
  refine ⟨⟨?_, ?_⟩, ?_⟩
  · exact ⟨show (0 : UInt64) ≤ 4294940000 by decide,
      show (4294940000 : UInt64).toNat - 0 < 2 ^ 32 by decide⟩
  · rintro s ⟨⟩
    exact ⟨⟨horder,
      show (4294990000 : UInt64).toNat - (4294940000 : UInt64).toNat < 2 ^ 32 by decide⟩,
      fun _ _ => trivial⟩
  · intro h
    obtain ⟨hdt, -⟩ := h.2 _ rfl
    refine absurd ((dtElapsed_iff_clockFits ?_ ?_).mp hdt) ?_
    · rfl
    · exact horder
    · show ¬ (4294940000 : UInt64).toNat / 2 ^ 32 = (4294990000 : UInt64).toNat / 2 ^ 32
      decide

/-! ## Which outputs are numbers -/

/-- Finite gains and limits. -/
structure Tuning where
  kp : ℚ
  ki : ℚ
  kd : ℚ
  outputMin : ℚ
  outputMax : ℚ
  integralMin : ℚ
  integralMax : ℚ
  output_le : outputMin ≤ outputMax
  integral_le : integralMin ≤ integralMax

theorem shipped_output_le : (-1 : ℚ) ≤ 1 := by norm_num

theorem shipped_integral_le : (-10 : ℚ) ≤ 10 := by norm_num

/-- The tuning of `system_init`. -/
def shipped : Tuning where
  kp := 3 / 100
  ki := 0
  kd := 4 / 10000
  outputMin := -1
  outputMax := 1
  integralMin := -10
  integralMax := 10
  output_le := shipped_output_le
  integral_le := shipped_integral_le

/-- The gains of error and change are positive. -/
structure Config extends Tuning where
  kp_pos : 0 < kp
  kd_pos : 0 < kd

/-- The controller has the gains and limits of `cfg`, its integral is within its
limits, and its last error was a number. -/
structure Sound (cfg : Config) (c : PidController) : Prop where
  kp : c.kp = .fin cfg.kp
  ki : c.ki = .fin cfg.ki
  kd : c.kd = .fin cfg.kd
  outputMin : c.outputMin = .fin cfg.outputMin
  outputMax : c.outputMax = .fin cfg.outputMax
  integralMin : c.integralMin = .fin cfg.integralMin
  integralMax : c.integralMax = .fin cfg.integralMax
  integral : ∃ i, c.integral = .fin i ∧ cfg.integralMin ≤ i ∧ i ≤ cfg.integralMax
  lastError : c.lastError ≠ .nan

theorem ticks_pos (lastTime now : UInt64) : 0 < ticks lastTime now := by
  unfold ticks
  dsimp only
  split <;> omega

/-- The time step is positive. -/
theorem dt_pos (c : PidController) (now : UInt64) : ∃ d : ℚ, c.dt now = .fin d ∧ 0 < d := by
  have hpos : (0 : ℚ) < ticks c.lastTime now := Nat.cast_pos.mpr (ticks_pos _ _)
  exact ⟨_, dt_eq_ticks c now, by positivity⟩

/-- The integral before it is limited. -/
theorem sum_ne_nan {i d : ℚ} (hd : 0 < d) {error : CFloat} (herr : error ≠ .nan) :
    .fin i + error * .fin d ≠ .nan := by
  cases error with
  | fin e => simp
  | inf n => simp [CFloat.inf_mul_fin hd]
  | nan => exact absurd rfl herr

/-- The integral is a number within its limits as long as the error is a number. -/
theorem calculate_integral {cfg : Config} {c : PidController} (h : Sound cfg c)
    {setpoint measurement : CFloat} (now : UInt64) (herr : setpoint - measurement ≠ .nan) :
    ∃ i, (c.calculate setpoint measurement now).1.integral = .fin i ∧
      cfg.integralMin ≤ i ∧ i ≤ cfg.integralMax := by
  obtain ⟨d, hd, hpos⟩ := dt_pos c now
  obtain ⟨i, hi, -⟩ := h.integral
  have hsum : c.integral + (setpoint - measurement) * c.dt now ≠ .nan := by
    rw [hd, hi]
    exact sum_ne_nan hpos herr
  obtain ⟨j, hj⟩ := CFloat.limit_eq_fin hsum cfg.integral_le
  rw [← h.integralMin, ← h.integralMax] at hj
  exact ⟨j, hj⟩

/-- A NaN in the error stays in the integral. -/
theorem calculate_integral_nan (c : PidController) {setpoint measurement : CFloat} (now : UInt64)
    (herr : setpoint - measurement = .nan) :
    (c.calculate setpoint measurement now).1.integral = .nan := by
  show CFloat.limit (c.integral + (setpoint - measurement) * c.dt now) _ _ = _
  rw [herr, CFloat.nan_mul, CFloat.add_nan, CFloat.limit_nan]

/-- **A controller stays sound as long as its errors are numbers.** -/
theorem calculate_sound {cfg : Config} {c : PidController} (h : Sound cfg c)
    {setpoint measurement : CFloat} (now : UInt64) (herr : setpoint - measurement ≠ .nan) :
    Sound cfg (c.calculate setpoint measurement now).1 where
  kp := h.kp
  ki := h.ki
  kd := h.kd
  outputMin := h.outputMin
  outputMax := h.outputMax
  integralMin := h.integralMin
  integralMax := h.integralMax
  integral := calculate_integral h now herr
  lastError := herr

/-- The three terms add up to a number unless the error is the infinity it was. -/
theorem terms_ne_nan_iff {kp kd d : ℚ} (hkp : 0 < kp) (hkd : 0 < kd) (hd : 0 < d) (i : ℚ)
    {error lastError : CFloat} (he : error ≠ .nan) (hl : lastError ≠ .nan) :
    .fin kp * error + .fin i + .fin kd * ((error - lastError) / .fin d) ≠ .nan ↔
      ¬ ∃ negative, error = .inf negative ∧ lastError = .inf negative := by
  cases error with
  | nan => exact absurd rfl he
  | fin e =>
    cases lastError with
    | nan => exact absurd rfl hl
    | fin l => simp [CFloat.fin_div hd]
    | inf m => simp [CFloat.inf_div_fin hd, CFloat.fin_mul_inf hkd]
  | inf n =>
    cases lastError with
    | nan => exact absurd rfl hl
    | fin l =>
      simp [CFloat.inf_div_fin hd, CFloat.fin_mul_inf hkd, CFloat.fin_mul_inf hkp,
        CFloat.inf_add_self]
    | inf m =>
      by_cases hnm : n = m
      · subst hnm
        simp [CFloat.inf_sub_self]
      · rw [CFloat.inf_sub_of_ne hnm, CFloat.inf_div_fin hd, CFloat.fin_mul_inf hkd,
          CFloat.fin_mul_inf hkp, CFloat.inf_add_fin, CFloat.inf_add_self]
        have : ¬ m = n := fun h => hnm h.symm
        simp [this]

/-- **When the output is a number.** -/
theorem calculate_output_iff {cfg : Config} {c : PidController} (h : Sound cfg c)
    (setpoint measurement : CFloat) (now : UInt64) :
    (c.calculate setpoint measurement now).2 ≠ .nan ↔ setpoint - measurement ≠ .nan ∧
      ¬ ∃ negative, setpoint - measurement = .inf negative ∧ c.lastError = .inf negative := by
  by_cases herr : setpoint - measurement = .nan
  · refine iff_of_false ?_ (fun hn => hn.1 herr)
    intro hout
    apply hout
    show CFloat.limit (c.kp * (setpoint - measurement) + _ + _) _ _ = _
    rw [herr, CFloat.mul_nan, CFloat.nan_add, CFloat.nan_add, CFloat.limit_nan]
  · obtain ⟨d, hd, hpos⟩ := dt_pos c now
    obtain ⟨i, hi, -⟩ := calculate_integral h now herr
    have hterms := terms_ne_nan_iff cfg.kp_pos cfg.kd_pos hpos (cfg.ki * i) herr h.lastError
    rw [and_iff_right herr, ← hterms, ← h.kp, ← h.kd, ← hd, ← CFloat.fin_mul, ← h.ki, ← hi]
    have hout : (c.calculate setpoint measurement now).2 =
        CFloat.limit (c.kp * (setpoint - measurement) +
          c.ki * (c.calculate setpoint measurement now).1.integral +
            c.kd * ((setpoint - measurement - c.lastError) / c.dt now)) c.outputMin c.outputMax :=
      rfl
    rw [hout, h.outputMin, h.outputMax]
    constructor
    · intro hlim hnan
      exact hlim (by rw [hnan, CFloat.limit_nan])
    · intro hnum hlim
      obtain ⟨a, ha, -⟩ := CFloat.limit_eq_fin hnum cfg.output_le
      exact CFloat.noConfusion (ha.symm.trans hlim)

end KartStack.KmPid
