import KartStack.ActuatorOutput

/-! # From the pedals to the DAC

An actuator of a pedal hands its `dacChannel` to `KM_GPIO_WriteDAC`, which takes a
GPIO number: 25 for the accelerator, 26 for the brake.  `KM_ACT_Init` stores the
channel numbers 0 and 1 instead.  The value that is handed over is the right one
(`setOutput_voltage`), but `KM_GPIO_WriteDAC` turns the pin down, the error is
ignored, and the DAC is never written.
-/
namespace KartStack.KmGpio

/-- `dac_channel_t`. -/
inductive DacChannel where
  | chan0
  | chan1
  deriving DecidableEq, Repr

/-- `PIN_CMD_ACC`. -/
def pinCmdAcc : UInt8 := 25

/-- `PIN_CMD_BRAKE`. -/
def pinCmdBrake : UInt8 := 26

/-- `KM_GPIO_WriteDAC`: the call of `dac_output_voltage` it makes, or `none` where it
returns `ESP_ERR_INVALID_ARG`.  A `value` of `none` is one that C leaves undefined. -/
def writeDAC (pin : UInt8) (value : Option Nat) : Option (DacChannel × Option Nat) :=
  if pin = pinCmdAcc then some (.chan0, value)
  else if pin = pinCmdBrake then some (.chan1, value)
  else none

end KartStack.KmGpio

namespace KartStack.KmAct
open KmGpio

/-- `KM_ACT_Stop`. -/
def ActController.stop (act : ActController) : ActController × List Write :=
  let act := { act with lastOutput := some 0 }
  match act.type with
  | .accel | .brake => (act, [.dac act.dacChannel (.fin 0)])
  | .steer => (act, [.pwm act.pwmChannel (.fin 0)])

/-- What a write makes `dac_output_voltage` do: the duty is converted to `uint8_t`. -/
def Write.dacOutput? : Write → Option (DacChannel × Option Nat)
  | .dac channel duty => writeDAC channel (duty.toUnsigned 8)
  | .digital _ _ => none
  | .pwm _ _ => none

/-- A call on an actuator. -/
inductive Call where
  | setLimit (limit : CFloat)
  | setOutput (value : ℚ)
  | stop

/-- The actuator after a call, and what the call writes. -/
def Call.apply (act : ActController) : Call → ActController × List Write
  | .setLimit limit => (act.setLimit limit, [])
  | .setOutput value => act.setOutput (.fin value)
  | .stop => act.stop

/-- All calls of `dac_output_voltage` in a sequence of calls. -/
def dacOutputs : ActController → List Call → List (DacChannel × Option Nat)
  | _, [] => []
  | act, call :: calls =>
    (call.apply act).2.filterMap Write.dacOutput? ++ dacOutputs (call.apply act).1 calls

/-- The voltage last written to a channel. -/
def lastVoltage (channel : DacChannel) (outputs : List (DacChannel × Option Nat)) :
    Option (Option Nat) :=
  ((outputs.filter (·.1 = channel)).map Prod.snd).getLast?

/-! ## What the pedals are told -/

/-- The two pedals. -/
inductive Pedal where
  | accelerator
  | brake
  deriving DecidableEq, Repr

/-- The actuator type of a pedal. -/
def Pedal.type : Pedal → ActType
  | .accelerator => .accel
  | .brake => .brake

/-- The DAC channel a pedal is wired to. -/
def Pedal.channel : Pedal → DacChannel
  | .accelerator => .chan0
  | .brake => .chan1

/-- The last command of a sequence of calls. -/
inductive Command where
  | none
  /-- `KM_ACT_SetOutput`, under the limit that was in force. -/
  | output (limit : CFloat) (value : ℚ)
  | stopped

/-- The last command after a call. -/
def Command.next (act : ActController) (cmd : Command) : Call → Command
  | .setLimit _ => cmd
  | .setOutput value => .output act.outputLimit value
  | .stop => .stopped

/-- The last command, given the one before the calls. -/
def lastCommand : ActController → Command → List Call → Command
  | _, cmd, [] => cmd
  | act, cmd, call :: calls => lastCommand (call.apply act).1 (cmd.next act call) calls

/-- The voltage a command asks for. -/
def Command.Asks : Command → Option (Option Nat) → Prop
  | .none, _ => True
  | .output limit value, volts =>
    ∃ l : ℚ, limit = .fin l ∧ volts = some (some ⌊255 * min (max value 0) l⌋.toNat)
  | .stopped, volts => volts = some (some 0)

/-- The calls reach the DAC: the pedal's channel has the voltage last asked for, and
no other channel is written. -/
structure Reached (pedal : Pedal) (limit : CFloat) (calls : List Call) : Prop where
  asked : (lastCommand (.init pedal.type limit) .none calls).Asks
    (lastVoltage pedal.channel (dacOutputs (.init pedal.type limit) calls))
  alone : ∀ output ∈ dacOutputs (.init pedal.type limit) calls, output.1 = pedal.channel

/-! ## What reaches the DAC -/

/-- **The value handed to `KM_GPIO_WriteDAC` is right.** -/
theorem setOutput_voltage {act : ActController} {pedal : Pedal} (htype : act.type = pedal.type)
    {limit : ℚ} (hlimit : act.outputLimit = .fin limit) (h₀ : 0 ≤ limit) (h₁ : limit ≤ 1)
    (value : ℚ) :
    ∃ duty, (act.setOutput (.fin value)).2 = [.dac act.dacChannel duty] ∧
      duty.toUnsigned 8 = some ⌊255 * min (max value 0) limit⌋.toNat := by
  have hsym : -limit ≤ limit := by linarith
  have hclamp : clamp (clamp (.fin value) (.fin (-limit)) (.fin limit)) (.fin 0) (.fin limit) =
      .fin (min (max value 0) limit) := by
    rw [clamp_eq_limit _ hsym, CFloat.limit_fin hsym, clamp_eq_limit _ h₀, CFloat.limit_fin h₀]
    congr 1
    rcases le_total value 0 with h | h
    · have hv : max (-limit) (min limit value) ≤ 0 :=
        max_le (by linarith) ((min_le_right ..).trans h)
      rw [max_eq_right h, min_eq_left h₀, max_eq_left ((min_le_right ..).trans hv)]
    · have hv : 0 ≤ min limit value := le_min h₀ h
      rw [max_eq_left h, max_eq_right (a := -limit) (by linarith), min_eq_right (min_le_left ..),
        max_eq_right hv, min_comm]
  refine ⟨.fin (min (max value 0) limit * 255), ?_, ?_⟩
  · unfold ActController.setOutput
    dsimp only
    rw [htype, hlimit, CFloat.neg_fin]
    cases pedal <;> simp only [Pedal.type, hclamp, CFloat.fin_mul]
  · have hlo : 0 ≤ min (max value 0) limit := le_min (le_max_right ..) h₀
    have hhi : min (max value 0) limit ≤ 1 := (min_le_right ..).trans h₁
    rw [CFloat.toUnsigned_fin, if_pos ⟨by linarith, by linarith⟩, mul_comm]

/-- `KM_GPIO_WriteDAC` turns the channel numbers down. -/
theorem writeDAC_channel (pedal : Pedal) (limit : CFloat) (value : Option Nat) :
    writeDAC (ActController.init pedal.type limit).dacChannel value = none := by
  cases pedal <;> rfl

/-- No call changes the type or the channel. -/
theorem Call.apply_fields (act : ActController) (call : Call) :
    (call.apply act).1.type = act.type ∧ (call.apply act).1.dacChannel = act.dacChannel := by
  cases call with
  | setLimit limit => exact ⟨rfl, rfl⟩
  | setOutput value =>
    rw [Call.apply, ActController.setOutput_fst]
    exact ⟨rfl, rfl⟩
  | stop =>
    unfold Call.apply ActController.stop
    dsimp only
    split <;> exact ⟨rfl, rfl⟩

/-- Where the pin is turned down, a call of a pedal's actuator writes nothing. -/
theorem Call.apply_silent {act : ActController} {pedal : Pedal} (htype : act.type = pedal.type)
    (hpin : ∀ value, writeDAC act.dacChannel value = none) (call : Call) :
    (call.apply act).2.filterMap Write.dacOutput? = [] := by
  cases call with
  | setLimit limit => rfl
  | setOutput value =>
    unfold Call.apply ActController.setOutput
    rw [htype]
    cases pedal <;> simp [Pedal.type, Write.dacOutput?, hpin]
  | stop =>
    unfold Call.apply ActController.stop
    dsimp only
    rw [htype]
    cases pedal <;> simp [Pedal.type, Write.dacOutput?, hpin]

/-- And so does a sequence of calls. -/
theorem dacOutputs_silent {act : ActController} {pedal : Pedal} (htype : act.type = pedal.type)
    (hpin : ∀ value, writeDAC act.dacChannel value = none) (calls : List Call) :
    dacOutputs act calls = [] := by
  induction calls generalizing act with
  | nil => rfl
  | cons call calls ih =>
    obtain ⟨htype', hchannel⟩ := call.apply_fields act
    rw [dacOutputs, Call.apply_silent htype hpin, List.nil_append]
    exact ih (htype'.trans htype) (hchannel ▸ hpin)

/-- Without a voltage only no command is met. -/
theorem Command.asks_none_iff (cmd : Command) : cmd.Asks Option.none ↔ cmd = .none := by
  cases cmd with
  | none => exact iff_of_true trivial rfl
  | output limit value => simp [Command.Asks]
  | stopped => simp [Command.Asks]

/-- No command is given exactly if only limits are set. -/
theorem lastCommand_eq_none_iff (act : ActController) (cmd : Command) (calls : List Call) :
    lastCommand act cmd calls = .none ↔
      cmd = .none ∧ ∀ call ∈ calls, ∃ limit, call = .setLimit limit := by
  induction calls generalizing act cmd with
  | nil => simp [lastCommand]
  | cons call calls ih =>
    rw [lastCommand, ih]
    cases call with
    | setLimit limit => simp [Command.next]
    | setOutput value => simp [Command.next]
    | stop => simp [Command.next]

/-- **The pedals reach the DAC exactly if they are told nothing**: only limits are
set. -/
theorem reached_iff (pedal : Pedal) (limit : CFloat) (calls : List Call) :
    Reached pedal limit calls ↔ ∀ call ∈ calls, ∃ limit, call = .setLimit limit := by
  have htype : (ActController.init pedal.type limit).type = pedal.type := by
    cases pedal <;> rfl
  have hsilent : dacOutputs (.init pedal.type limit) calls = [] :=
    dacOutputs_silent htype (writeDAC_channel pedal limit) calls
  have hasks : (lastCommand (.init pedal.type limit) .none calls).Asks
      (lastVoltage pedal.channel (dacOutputs (.init pedal.type limit) calls)) ↔
      ∀ call ∈ calls, ∃ limit, call = .setLimit limit := by
    rw [hsilent]
    show (lastCommand _ _ _).Asks Option.none ↔ _
    rw [Command.asks_none_iff, lastCommand_eq_none_iff]
    exact ⟨fun h => h.2, fun h => ⟨rfl, h⟩⟩
  constructor
  · exact fun h => hasks.mp h.asked
  · intro h
    refine ⟨hasks.mpr h, ?_⟩
    rw [hsilent]
    exact List.forall_mem_nil _

/-- **Half throttle writes nothing.** -/
theorem halfThrottle_not_reached : ¬ ∀ (pedal : Pedal) (limit : CFloat) (calls : List Call),
    Reached pedal limit calls := by
  intro hall
  have hasked := (hall .accelerator (.fin 1) [.setOutput (1 / 2)]).asked
  rw [@dacOutputs_silent _ .accelerator rfl (writeDAC_channel .accelerator (.fin 1))]
    at hasked
  have hnone := (Command.asks_none_iff _).mp hasked
  cases hnone

end KartStack.KmAct
