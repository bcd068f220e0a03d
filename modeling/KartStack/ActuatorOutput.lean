import KartStack.PidController

/-! # From targets to actuators

`control_task` reads the three targets from the object table, hands throttle and
brake straight to `KM_ACT_SetOutput` and passes the steering target through the
PID first.  `KM_ACT_SetOutput` clamps, stores the clamped value in `lastOutput`
and converts a multiple of it to a byte for the DAC or the PWM unit.

The object table may hold any float (`proccessPayload`).  The clamps let NaN
through, `lastOutput` is an unsigned field, and the PID makes a NaN of two equal
infinite targets in a row.  These are the only ways out of range
(`commands_inRange_iff`).
-/
namespace KartStack.KmAct
open KmComs KmPid

/-! ## The actuator library -/

/-- `ACT_Type`. -/
inductive ActType where
  | accel
  | brake
  | steer
  deriving DecidableEq, Repr

/-- `ACT_Controller`. -/
structure ActController where
  type : ActType
  pwmChannel : UInt8
  dirPin : UInt8
  dacChannel : UInt8
  outputLimit : CFloat
  /-- A `uint32_t`; `none` where C leaves the conversion of the float undefined. -/
  lastOutput : Option Nat

/-- `clamp`. -/
def clamp (v min max : CFloat) : CFloat :=
  if max < v then max else if v < min then min else v

/-- `PIN_STEER_PWM`. -/
def pinSteerPwm : UInt8 := 18

/-- `PIN_STEER_DIR`. -/
def pinSteerDir : UInt8 := 19

/-- A write to the hardware; a duty is the float that is converted to `uint8_t`. -/
inductive Write where
  | dac (channel : UInt8) (duty : CFloat)
  | digital (pin level : UInt8)
  | pwm (channel : UInt8) (duty : CFloat)

/-- The float a write converts. -/
def Write.duty? : Write → Option CFloat
  | .dac _ duty => some duty
  | .digital _ _ => none
  | .pwm _ duty => some duty

namespace ActController

/-- `KM_ACT_Init`; the channel -1 is stored in a `uint8_t`. -/
def init (type : ActType) (limit : CFloat) : ActController :=
  let outputLimit := clamp limit (.fin 0) (.fin 1)
  match type with
  | .accel => ⟨type, 0, 0, 0, outputLimit, some 0⟩
  | .brake => ⟨type, 0, 0, 1, outputLimit, some 0⟩
  | .steer => ⟨type, pinSteerPwm, pinSteerDir, 255, outputLimit, some 0⟩

/-- `KM_ACT_SetLimit`. -/
def setLimit (act : ActController) (limit : CFloat) : ActController :=
  { act with outputLimit := clamp limit (.fin 0) (.fin 1) }

/-- `KM_ACT_SetOutput`: the actuator afterwards, and what is written. -/
def setOutput (act : ActController) (value : CFloat) : ActController × List Write :=
  let value := clamp value (-act.outputLimit) act.outputLimit
  let act := { act with lastOutput := value.toUnsigned 32 }
  match act.type with
  | .accel | .brake =>
    let v := clamp value (.fin 0) act.outputLimit
    (act, [.dac act.dacChannel (v * .fin 255)])
  | .steer =>
    let mag := clamp (CFloat.fabsf value) (.fin 0) act.outputLimit
    let dir := if .fin 0 ≤ value then 1 else 0
    (act, [.digital act.dirPin dir, .pwm act.pwmChannel (mag * .fin 255)])

/-- Everything converted is a duty between nothing and the limit, and what is
stored is within the limit. -/
structure InRange (act : ActController) (writes : List Write) : Prop where
  converted : ∀ duty ∈ writes.filterMap Write.duty?, ∃ limit v : ℚ,
    act.outputLimit = .fin limit ∧ limit ≤ 1 ∧ duty = .fin (v * 255) ∧ 0 ≤ v ∧ v ≤ limit
  stored : ∃ limit : ℚ, act.outputLimit = .fin limit ∧
    ∃ n ∈ act.lastOutput, -limit ≤ (n : ℚ) ∧ (n : ℚ) ≤ limit

end ActController

/-! ## What a clamp lets through -/

/-- NaN passes a clamp. -/
@[simp] theorem clamp_nan (min max : CFloat) : clamp .nan min max = .nan := by
  simp [clamp]

theorem clamp_eq_limit (v : CFloat) {lo hi : ℚ} (h : lo ≤ hi) :
    clamp v (.fin lo) (.fin hi) = CFloat.limit v (.fin lo) (.fin hi) := by
  cases v with
  | fin a =>
    unfold clamp CFloat.limit
    by_cases hhi : hi < a
    · simp [hhi, not_lt.mpr (h.trans hhi.le)]
    · by_cases hlo : a < lo
      · simp [hhi, hlo, not_lt.mpr h]
      · simp [hhi, hlo]
  | inf n =>
    cases n with
    | false => simp [clamp, CFloat.limit]
    | true => simp [clamp, CFloat.limit, not_lt.mpr h]
  | nan => simp

/-- A number is clamped to a number within the bounds. -/
theorem clamp_eq_fin {v : CFloat} (hv : v ≠ .nan) {lo hi : ℚ} (h : lo ≤ hi) :
    ∃ a, clamp v (.fin lo) (.fin hi) = .fin a ∧ lo ≤ a ∧ a ≤ hi := by
  rw [clamp_eq_limit v h]
  exact CFloat.limit_eq_fin hv h

/-- A number within the bounds is left alone. -/
theorem clamp_of_mem {a lo hi : ℚ} (hlo : lo ≤ a) (hhi : a ≤ hi) :
    clamp (.fin a) (.fin lo) (.fin hi) = .fin a := by
  simp [clamp, not_lt.mpr hlo, not_lt.mpr hhi]

/-- The lower bound is reached by what is not above it. -/
theorem clamp_gt_iff {v : CFloat} (hv : v ≠ .nan) {lo hi a : ℚ} (h : lo < hi)
    (ha : clamp v (.fin lo) (.fin hi) = .fin a) : lo < a ↔ CFloat.fin lo < v := by
  rw [clamp_eq_limit v h.le] at ha
  cases v with
  | fin b =>
    rw [CFloat.limit_fin h.le] at ha
    obtain rfl := CFloat.fin.inj ha
    simp [h]
  | inf n =>
    rw [CFloat.limit_inf h.le] at ha
    obtain rfl := CFloat.fin.inj ha
    cases n with
    | false => simp [h]
    | true => simp
  | nan => exact absurd rfl hv

/-- A value is stored if it is above -1, and then in range. -/
theorem toUnsigned_inRange {limit a : ℚ} (h₁ : limit ≤ 1) (hlo : -limit ≤ a) (hhi : a ≤ limit) :
    (∃ n ∈ (CFloat.fin a).toUnsigned 32, -limit ≤ (n : ℚ) ∧ (n : ℚ) ≤ limit) ↔ -1 < a := by
  rw [CFloat.toUnsigned_fin]
  have hbig : a < 2 ^ 32 := lt_of_le_of_lt (hhi.trans h₁) (by norm_num)
  by_cases ha : -1 < a
  · rw [if_pos ⟨ha, hbig⟩]
    refine iff_of_true ⟨_, rfl, ?_⟩ ha
    have h₀ : 0 ≤ limit := by linarith
    by_cases hone : a = 1
    · subst hone
      rw [show ⌊(1 : ℚ)⌋.toNat = 1 by simp]
      norm_num
      exact ⟨by linarith, hhi⟩
    · have hlt : a < 1 := lt_of_le_of_ne (hhi.trans h₁) hone
      have hfloor : ⌊a⌋ < 1 := Int.floor_lt.mpr (by exact_mod_cast hlt)
      rw [show ⌊a⌋.toNat = 0 by omega]
      norm_num
      exact h₀
  · rw [if_neg fun h => ha h.1]
    refine iff_of_false ?_ ha
    rintro ⟨n, hn, -⟩
    cases hn

namespace ActController

/-- `KM_ACT_SetOutput` changes `lastOutput` only. -/
theorem setOutput_fst (act : ActController) (value : CFloat) :
    (act.setOutput value).1 =
      { act with lastOutput := (clamp value (-act.outputLimit) act.outputLimit).toUnsigned 32 } := by
  unfold setOutput
  dsimp only
  split <;> rfl

/-- The float that is converted for the DAC or the PWM unit. -/
theorem setOutput_duties (act : ActController) (value : CFloat) :
    (act.setOutput value).2.filterMap Write.duty? =
      [clamp (if act.type = .steer then
          CFloat.fabsf (clamp value (-act.outputLimit) act.outputLimit)
        else clamp value (-act.outputLimit) act.outputLimit) (.fin 0) act.outputLimit *
          .fin 255] := by
  unfold setOutput
  cases act.type with
  | accel => rfl
  | brake => rfl
  | steer => rfl

/-- **When a command is in range**: it is a number, and at full scale it is above
the negative end. -/
theorem setOutput_inRange_iff {act : ActController} {limit : ℚ}
    (hlimit : act.outputLimit = .fin limit) (h₀ : 0 ≤ limit) (h₁ : limit ≤ 1) (value : CFloat) :
    InRange (act.setOutput value).1 (act.setOutput value).2 ↔
      value ≠ .nan ∧ (limit = 1 → CFloat.fin (-1) < value) := by
  have hsym : -limit ≤ limit := by linarith
  have hout : (act.setOutput value).1.outputLimit = .fin limit := by
    rw [setOutput_fst, ← hlimit]
  have hstored : (act.setOutput value).1.lastOutput =
      (clamp value (.fin (-limit)) (.fin limit)).toUnsigned 32 := by
    rw [setOutput_fst, hlimit]
    rfl
  by_cases hv : value = .nan
  · refine iff_of_false ?_ (fun h => h.1 hv)
    rintro ⟨-, limit', -, n, hn, -⟩
    rw [hstored, hv, clamp_nan] at hn
    cases hn
  · obtain ⟨a, ha, hlo, hhi⟩ := clamp_eq_fin hv hsym
    have hduty : ∀ duty ∈ (act.setOutput value).2.filterMap Write.duty?, ∃ limit v : ℚ,
        (act.setOutput value).1.outputLimit = .fin limit ∧ limit ≤ 1 ∧ duty = .fin (v * 255) ∧
          0 ≤ v ∧ v ≤ limit := by
      intro duty hduty
      rw [setOutput_duties, hlimit, CFloat.neg_fin, ha, List.mem_singleton] at hduty
      have hne : (if act.type = .steer then CFloat.fabsf (.fin a) else .fin a) ≠ .nan := by
        split <;> simp
      obtain ⟨v, hv, hv₀, hv₁⟩ := clamp_eq_fin hne h₀
      exact ⟨limit, v, hout, h₁, by rw [hduty, hv, CFloat.fin_mul], hv₀, hv₁⟩
    rw [ha] at hstored
    have hgt : -1 < a ↔ (limit = 1 → CFloat.fin (-1) < value) := by
      by_cases hone : limit = 1
      · subst hone
        rw [clamp_gt_iff hv (by norm_num) ha]
        simp
      · have hlt : limit < 1 := lt_of_le_of_ne h₁ hone
        exact iff_of_true (by linarith) (fun h => absurd h hone)
    rw [← hgt, ← toUnsigned_inRange h₁ hlo hhi]
    constructor
    · rintro ⟨-, limit', hlimit', hn⟩
      obtain rfl := CFloat.fin.inj (hout.symm.trans hlimit')
      exact ⟨hv, hstored ▸ hn⟩
    · rintro ⟨-, hn⟩
      exact ⟨hduty, limit, hout, hstored ▸ hn⟩

end ActController

/-! ## The control task -/

/-- `sensor_struct`, the fields a reading depends on. -/
structure Sensor where
  errorCount : UInt8
  maxErrorCount : UInt8
  lastRawValue : UInt16

/-- `KM_SDIR_Init`. -/
def Sensor.init (maxErrorCount : UInt8) : Sensor := ⟨0, maxErrorCount, 0⟩

/-- `KM_SDIR_ReadRaw`, given what the two angle registers hold, or `none` where the
bus fails; the bus reset touches no field of `Sensor`. -/
def Sensor.readRaw (sensor : Sensor) (registers : Option UInt16) : Sensor × UInt16 :=
  match registers with
  | some raw => ({ sensor with lastRawValue := raw, errorCount := 0 }, raw)
  | none =>
    let errorCount := sensor.errorCount + 1
    if errorCount ≥ sensor.maxErrorCount then
      ({ sensor with errorCount := 0 }, sensor.lastRawValue)
    else ({ sensor with errorCount := errorCount }, sensor.lastRawValue)

/-- `PI`. -/
def pi : ℚ := 31415 / 10000

/-- `SENSOR_CENTER`. -/
def sensorCenter : Int16 := 2048

/-- `KM_SDIR_ReadAngle`, radians. -/
def Sensor.readAngle (sensor : Sensor) (registers : Option UInt16) : Sensor × ℚ :=
  let r := sensor.readRaw registers
  let centered : Int16 := r.2.toInt16 - sensorCenter
  (r.1, -(centered.toInt / 4096) * 2 * pi)

/-- `control_context_t` and the object table. -/
structure Control where
  objects : Objects
  sdir : Sensor
  dirAct : ActController
  throttleAct : ActController
  brakeAct : ActController
  dirPid : PidController

/-- What a run of `control_task` sends and writes. -/
structure Commands where
  /-- `kart_ActSteering`: the angle and the raw encoder value. -/
  feedback : CFloat × UInt16
  throttle : List Write
  brake : List Write
  steer : List Write

/-- `control_task`, run once. -/
def controlTask (c : Control) (registers : Option UInt16) (now : UInt64) : Control × Commands :=
  let feedback := (c.objects.getObjectValue .actualSteering, c.sdir.lastRawValue)
  let targetRad := c.objects.getObjectValue .targetSteering
  let thr := c.objects.getObjectValue .targetThrottle
  let brk := c.objects.getObjectValue .targetBraking
  let throttle := c.throttleAct.setOutput thr
  let brake := c.brakeAct.setOutput brk
  let newRad := c.sdir.readAngle registers
  let pidOut := c.dirPid.calculate targetRad (.fin newRad.2) now
  let dir := c.dirAct.setOutput pidOut.2
  ({ c with
      objects := c.objects.setObjectValue .actualSteering (.fin newRad.2)
      sdir := newRad.1
      throttleAct := throttle.1
      brakeAct := brake.1
      dirPid := pidOut.1
      dirAct := dir.1 }, ⟨feedback, throttle.2, brake.2, dir.2⟩)

/-- `system_init`, as far as `control_task` depends on it: `storage` is what the
controller's memory held, `registers` and `now` are read once. -/
def systemInit (storage : PidController) (registers : Option UInt16) (now : UInt64) : Control :=
  let sdir := (Sensor.init 10).readAngle registers
  { objects :=
      if sdir.1.errorCount = 0 then Objects.init.setObjectValue .actualSteering (.fin sdir.2)
      else .init
    sdir := sdir.1
    dirAct := (ActController.init .steer (.fin (2 / 5))).setLimit (.fin (2 / 5))
    throttleAct := (ActController.init .accel (.fin 1)).setLimit (.fin 1)
    brakeAct := (ActController.init .brake (.fin 1)).setLimit (.fin 1)
    dirPid := ((storage.init (.fin (3 / 100)) (.fin 0) (.fin (4 / 10000)) now).setOutputLimits
      (.fin (-1)) (.fin 1)).setIntegralLimits (.fin (-10)) (.fin 10) }

/-! ## Runs -/

/-- What reaches the control task. -/
inductive Event where
  /-- `KM_COMS_ProccessPayload` is called. -/
  | message (msg : Msg)
  /-- `control_task` runs. -/
  | tick (registers : Option UInt16) (now : UInt64)

/-- The control task's state; `steered` is the steering target it used last, which
no function reads. -/
structure Driving where
  control : Control
  steered : CFloat

/-- After `system_init`. -/
def Driving.start (storage : PidController) (registers : Option UInt16) (now : UInt64) : Driving :=
  ⟨systemInit storage registers now, 0⟩

/-- One event. -/
def step (pb : PbDecode) (s : Driving) : Event → Option Driving
  | .message msg =>
    some { s with control.objects := proccessPayload pb s.control.objects msg }
  | .tick registers now =>
    some ⟨(controlTask s.control registers now).1,
      s.control.objects.getObjectValue .targetSteering⟩

/-- All three actuators are commanded in range, and the integral of the PID is
within its limits. -/
structure TickInRange (c : Control) (commands : Commands) : Prop where
  throttle : c.throttleAct.InRange commands.throttle
  brake : c.brakeAct.InRange commands.brake
  steer : c.dirAct.InRange commands.steer
  integral : ∃ i lo hi : ℚ, c.dirPid.integral = .fin i ∧ c.dirPid.integralMin = .fin lo ∧
    c.dirPid.integralMax = .fin hi ∧ lo ≤ i ∧ i ≤ hi

/-- What an event leads to is in range. -/
def InRange (s : Driving) : Event → Prop
  | .message _ => True
  | .tick registers now =>
    TickInRange (controlTask s.control registers now).1 (controlTask s.control registers now).2

/-- The targets the control task is about to read: throttle and brake are above
-1, which NaN is not, and the steering target is a number and not the infinity it
was. -/
def TargetsTame (s : Driving) : Event → Prop
  | .message _ => True
  | .tick _ _ =>
    CFloat.fin (-1) < s.control.objects.getObjectValue .targetThrottle ∧
      CFloat.fin (-1) < s.control.objects.getObjectValue .targetBraking ∧
        s.control.objects.getObjectValue .targetSteering ≠ .nan ∧
          ¬ ∃ negative, s.control.objects.getObjectValue .targetSteering = .inf negative ∧
            s.steered = .inf negative

/-! ## When the commands are in range -/

/-- What `system_init` sets the PID to. -/
def tuned : Config where
  toTuning := shipped
  kp_pos := by norm_num [shipped]
  kd_pos := by norm_num [shipped]

/-- The limits and gains of `system_init` are in force, and the last error is an
infinity exactly if the last steering target was. -/
structure Steady (s : Driving) : Prop where
  throttleLimit : s.control.throttleAct.outputLimit = .fin 1
  brakeLimit : s.control.brakeAct.outputLimit = .fin 1
  dirLimit : s.control.dirAct.outputLimit = .fin (2 / 5)
  pid : Sound tuned s.control.dirPid
  steered : ∀ negative, s.control.dirPid.lastError = .inf negative ↔ s.steered = .inf negative

theorem start_steady (storage : PidController) (registers : Option UInt16) (now : UInt64) :
    Steady (.start storage registers now) where
  throttleLimit := clamp_of_mem zero_le_one (le_refl 1)
  brakeLimit := clamp_of_mem zero_le_one (le_refl 1)
  dirLimit := clamp_of_mem (by norm_num) (by norm_num)
  pid := {
    kp := rfl
    ki := rfl
    kd := rfl
    outputMin := rfl
    outputMax := rfl
    integralMin := rfl
    integralMax := rfl
    integral := ⟨0, rfl, by norm_num [tuned, shipped], by norm_num [tuned, shipped]⟩
    lastError := CFloat.noConfusion }
  steered negative := ⟨CFloat.noConfusion, CFloat.noConfusion⟩

/-- **One event is in range exactly if its targets are tame.** -/
theorem inRange_iff {s : Driving} (h : Steady s) (event : Event) :
    InRange s event ↔ TargetsTame s event := by
  cases event with
  | message msg => exact Iff.rfl
  | tick registers now =>
    have hthr := ActController.setOutput_inRange_iff h.throttleLimit zero_le_one (le_refl 1)
      (s.control.objects.getObjectValue .targetThrottle)
    have hbrk := ActController.setOutput_inRange_iff h.brakeLimit zero_le_one (le_refl 1)
      (s.control.objects.getObjectValue .targetBraking)
    have hdir := fun value => ActController.setOutput_inRange_iff h.dirLimit (by norm_num)
      (by norm_num) value
    have hpid := calculate_output_iff h.pid (s.control.objects.getObjectValue .targetSteering)
      (.fin (s.control.sdir.readAngle registers).2) now
    simp only [Ne, CFloat.sub_fin_eq_nan_iff, CFloat.sub_fin_eq_inf_iff, h.steered] at hpid
    constructor
    · intro hr
      have hout := ((hdir _).mp hr.steer).1
      exact ⟨(hthr.mp hr.throttle).2 rfl, (hbrk.mp hr.brake).2 rfl, hpid.mp hout⟩
    · rintro ⟨hthrottle, hbrake, hsteer⟩
      refine ⟨hthr.mpr ?_, hbrk.mpr ?_, (hdir _).mpr ?_, ?_⟩
      · exact ⟨CFloat.ne_nan_of_gt hthrottle, fun _ => hthrottle⟩
      · exact ⟨CFloat.ne_nan_of_gt hbrake, fun _ => hbrake⟩
      · exact ⟨hpid.mpr hsteer, fun hone => absurd hone (by norm_num)⟩
      · obtain ⟨i, hi, hlo, hhi⟩ :=
          calculate_integral h.pid now (mt CFloat.sub_fin_eq_nan_iff.mp hsteer.1)
        exact ⟨i, _, _, hi, h.pid.integralMin, h.pid.integralMax, hlo, hhi⟩

/-- Tame targets keep everything as it was set up. -/
theorem step_steady {pb : PbDecode} {s s' : Driving} {event : Event} (h : Steady s)
    (htame : TargetsTame s event) (hstep : step pb s event = some s') : Steady s' := by
  cases event with
  | message msg =>
    obtain rfl := Option.some.inj hstep
    exact ⟨h.throttleLimit, h.brakeLimit, h.dirLimit, h.pid, h.steered⟩
  | tick registers now =>
    obtain rfl := Option.some.inj hstep
    obtain ⟨-, -, hsteer, -⟩ := htame
    have hact : ∀ (act : ActController) (value : CFloat),
        (act.setOutput value).1.outputLimit = act.outputLimit := by
      intro act value
      rw [ActController.setOutput_fst]
    refine ⟨?_, ?_, ?_, ?_, ?_⟩
    · exact (hact _ _).trans h.throttleLimit
    · exact (hact _ _).trans h.brakeLimit
    · exact (hact _ _).trans h.dirLimit
    · exact calculate_sound h.pid now (mt CFloat.sub_fin_eq_nan_iff.mp hsteer)
    · exact fun _ => CFloat.sub_fin_eq_inf_iff

/-- **The commands of a run are in range exactly if its targets are tame**: at every
run of `control_task` throttle and brake are above -1, and the steering target is a
number and not the infinity it was the time before. -/
theorem commands_inRange_iff (pb : PbDecode) (storage : PidController)
    (registers : Option UInt16) (now : UInt64) (events : List Event) :
    Transitions.Along (step pb) InRange (.start storage registers now) events ↔
      Transitions.Along (step pb) TargetsTame (.start storage registers now) events := by
  have hiff : ∀ s event, Steady s → (InRange s event ↔ TargetsTame s event) :=
    fun _ event hs => inRange_iff hs event
  have hstep : ∀ s event s', Steady s → TargetsTame s event → step pb s event = some s' →
      Steady s' := fun _ _ _ hs => step_steady hs
  exact Transitions.along_iff_of_inv hiff hstep (start_steady storage registers now) events

/-- The decoder on a throttle target of field 1 with the bits of a NaN. -/
def nanThrottle : PbDecode where
  targThrottle bytes := if bytes = [0x0D, 0x00, 0x00, 0xC0, 0x7F] then some .nan else none
  targBraking _ := none
  targSteering _ := none
  orinComplete _ := none

/-- The frame that carries it, and one run of the control task. -/
def nanArrives : List Event :=
  [.message (.ofFrame ⟨orinTargThrottle, [0x0D, 0x00, 0x00, 0xC0, 0x7F]⟩),
    .tick (some 2048) 50000]

/-- **NaN reaches the DAC.** -/
theorem nanArrives_not_inRange :
    ¬ Transitions.Along (step nanThrottle) InRange (.start blank (some 2048) 0) nanArrives := by
  rintro ⟨-, h⟩
  have hsteady : ∀ s' ∈ step nanThrottle (.start blank (some 2048) 0)
      (.message (.ofFrame ⟨orinTargThrottle, [0x0D, 0x00, 0x00, 0xC0, 0x7F]⟩)), Steady s' :=
    fun _ => step_steady (start_steady blank (some 2048) 0) trivial
  obtain ⟨hin, -⟩ := h _ rfl
  obtain ⟨hthrottle, -⟩ := (inRange_iff (hsteady _ rfl) _).mp hin
  have hnan : CFloat.fin (-1) < .nan := hthrottle
  exact CFloat.not_lt_nan _ hnan

end KartStack.KmAct
