import KartStack.ConeFollower
import KartStack.Transitions
import Mathlib.Analysis.SpecialFunctions.Trigonometric.Basic

/-! # From steer angles to yaw rates

`ackermann_to_vel.py` turns the commands of a follower, a speed and a steer angle,
into a speed and a yaw rate.  The speed is limited in how fast it changes.  The yaw
rate is not that of the speed it publishes but that of the speed it was told, so the
pair describes the turning radius of the steer angle only once the ramp is over
(`consistent_iff`): at the start of a turn the kart is told to turn at full speed
while it hardly moves.
-/
namespace KartStack.Ackermann
open KartStack.Python ConeFollower

variable {K : Type}

/-- `AckermannToVel`. -/
structure AckermannToVel (K : Type) where
  curLinear : K
  curAngular : K
  lastTime : K
  deriving DecidableEq, Repr

/-- `math.copysign`, where `y` is not a zero. -/
def copysign [LT K] [DecidableLT K] [OfScientific K] [Neg K] (x y : K) : K :=
  if y < 0.0 then -(Python.abs x) else Python.abs x

section
variable [OfScientific K]

/-- `WHEELBASE`. -/
def wheelbase : K := 1.05
/-- `MAX_LINEAR_ACCEL`. -/
def maxLinearAccel : K := 2.0
/-- `MAX_LINEAR_DECEL`. -/
def maxLinearDecel : K := 3.0

namespace AckermannToVel

/-- `AckermannToVel.__init__`, at the time `now`. -/
def init (now : K) : AckermannToVel K := ⟨0.0, 0.0, now⟩

variable [LT K] [DecidableLT K] [Sub K]

/-- `dt`, at the time `now`. -/
def dt (self : AckermannToVel K) (now : K) : K :=
  Python.max 0.001 (Python.min (now - self.lastTime) 0.5)

variable [Neg K] [Add K] [Mul K] [Div K]

/-- `max_lin_change`, for a target speed. -/
def maxLinChange (self : AckermannToVel K) (now targetLinear : K) : K :=
  (if 0.0 < targetLinear - self.curLinear then maxLinearAccel else maxLinearDecel) * self.dt now

/-- The speed on the ramp. -/
def ramped (self : AckermannToVel K) (now targetLinear : K) : K :=
  self.curLinear + copysign (self.maxLinChange now targetLinear) (targetLinear - self.curLinear)

/-- `_on_cmd`, at the time `now`; `tan` is `math.tan`. -/
def onCmd (tan : K → K) (self : AckermannToVel K) (now : K) (msg : Twist K) :
    Twist K × AckermannToVel K :=
  let targetAngular :=
    if 0.01 < Python.abs msg.linearX then msg.linearX * tan msg.angularZ / wheelbase else 0.0
  let curLinear :=
    if self.maxLinChange now msg.linearX < Python.abs (msg.linearX - self.curLinear) then
      self.ramped now msg.linearX
    else msg.linearX
  (⟨curLinear, targetAngular⟩, ⟨curLinear, targetAngular, now⟩)

end AckermannToVel
end

/-! ## Runs -/

/-- A command, and when it arrives. -/
structure Cmd (K : Type) where
  now : K
  msg : Twist K

variable [Field K] [LinearOrder K]

/-- One command. -/
def step (tan : K → K) (self : AckermannToVel K) (cmd : Cmd K) : Option (AckermannToVel K) :=
  some (self.onCmd tan cmd.now cmd.msg).2

/-- What is published has the yaw rate of its speed and the steer angle, and its speed
changes no faster than the limits allow. -/
structure Consistent (tan : K → K) (node : AckermannToVel K) (cmd : Cmd K) : Prop where
  yaw : 0.01 < |(node.onCmd tan cmd.now cmd.msg).1.linearX| →
    (node.onCmd tan cmd.now cmd.msg).1.angularZ =
      (node.onCmd tan cmd.now cmd.msg).1.linearX * tan cmd.msg.angularZ / wheelbase
  accel : (node.onCmd tan cmd.now cmd.msg).1.linearX - node.curLinear ≤
    maxLinearAccel * max 0.001 (min (cmd.now - node.lastTime) 0.5)
  decel : node.curLinear - (node.onCmd tan cmd.now cmd.msg).1.linearX ≤
    maxLinearDecel * max 0.001 (min (cmd.now - node.lastTime) 0.5)

/-- The speed asked for is within reach; or the wheels are straight; or the speed before
is a full change from standing still, in the direction it goes. -/
def Reaches (tan : K → K) (self : AckermannToVel K) (cmd : Cmd K) : Prop :=
  let limit := self.maxLinChange cmd.now cmd.msg.linearX
  |cmd.msg.linearX - self.curLinear| ≤ limit ∨ tan cmd.msg.angularZ = 0 ∨
    |if cmd.msg.linearX < self.curLinear then self.curLinear - limit
      else self.curLinear + limit| ≤ 0.01

/-! ## One command -/

variable [IsStrictOrderedRing K]

omit [IsStrictOrderedRing K] in
theorem dt_eq (self : AckermannToVel K) (now : K) :
    self.dt now = max 0.001 (min (now - self.lastTime) 0.5) := by
  rw [AckermannToVel.dt, python_max, python_min]

theorem dt_pos (self : AckermannToVel K) (now : K) : 0 < self.dt now := by
  rw [dt_eq]
  exact lt_max_of_lt_left (by norm_num)

/-- The change allowed is that of the direction the speed goes. -/
theorem maxLinChange_eq (self : AckermannToVel K) (now v : K) :
    self.maxLinChange now v =
      (if 0 < v - self.curLinear then maxLinearAccel else maxLinearDecel) * self.dt now := by
  have hzero : (0.0 : K) = 0 := by norm_num
  rw [AckermannToVel.maxLinChange, hzero]

theorem maxLinChange_pos (self : AckermannToVel K) (now v : K) : 0 < self.maxLinChange now v := by
  rw [maxLinChange_eq]
  refine mul_pos ?_ (dt_pos self now)
  split
  · norm_num [maxLinearAccel]
  · norm_num [maxLinearDecel]

/-- The speed on the ramp goes towards the target. -/
theorem ramped_eq (self : AckermannToVel K) (now v : K) :
    self.ramped now v = if v < self.curLinear then
      self.curLinear - self.maxLinChange now v else self.curLinear + self.maxLinChange now v := by
  have hzero : (0.0 : K) = 0 := by norm_num
  have hneg : v - self.curLinear < 0 ↔ v < self.curLinear := sub_neg
  rw [AckermannToVel.ramped, copysign, python_abs, abs_of_pos (maxLinChange_pos self now v), hzero]
  simp only [hneg]
  split
  · rw [sub_eq_add_neg]
  · rfl

/-- The published pair. -/
theorem onCmd_eq (tan : K → K) (self : AckermannToVel K) (now : K) (msg : Twist K) :
    (self.onCmd tan now msg).1 =
      ⟨if |msg.linearX - self.curLinear| ≤ self.maxLinChange now msg.linearX then msg.linearX
        else self.ramped now msg.linearX,
      if 0.01 < |msg.linearX| then msg.linearX * tan msg.angularZ / wheelbase else 0⟩ := by
  have hzero : (0.0 : K) = 0 := by norm_num
  unfold AckermannToVel.onCmd
  dsimp only
  rw [python_abs, python_abs, hzero]
  congr 1
  by_cases h : |msg.linearX - self.curLinear| ≤ self.maxLinChange now msg.linearX
  · rw [if_pos h, if_neg (not_lt.mpr h)]
  · rw [if_neg h, if_pos (not_le.mp h)]

/-- Out of reach the speed on the ramp is short of the target. -/
theorem ramped_ne (self : AckermannToVel K) {now v : K}
    (h : self.maxLinChange now v < |v - self.curLinear|) : self.ramped now v ≠ v := by
  rw [ramped_eq]
  intro heq
  split at heq <;> rename_i hneg
  · rw [abs_of_neg (sub_neg.mpr hneg)] at h
    linarith
  · rw [abs_of_nonneg (sub_nonneg.mpr (not_lt.mp hneg))] at h
    linarith

/-- **The speed keeps its limits.** -/
theorem linear_limited (tan : K → K) (self : AckermannToVel K) (now : K) (msg : Twist K) :
    (self.onCmd tan now msg).1.linearX - self.curLinear ≤ maxLinearAccel * self.dt now ∧
      self.curLinear - (self.onCmd tan now msg).1.linearX ≤ maxLinearDecel * self.dt now := by
  have hdt := dt_pos self now
  have haccel : 0 < maxLinearAccel * self.dt now := mul_pos (by norm_num [maxLinearAccel]) hdt
  have hdecel : 0 < maxLinearDecel * self.dt now := mul_pos (by norm_num [maxLinearDecel]) hdt
  rw [onCmd_eq]
  dsimp only
  by_cases hreach : |msg.linearX - self.curLinear| ≤ self.maxLinChange now msg.linearX
  · rw [if_pos hreach]
    rw [maxLinChange_eq] at hreach
    split at hreach <;> rename_i hpos
    · rw [abs_of_pos hpos] at hreach
      exact ⟨hreach, by linarith⟩
    · rw [abs_of_nonpos (not_lt.mp hpos)] at hreach
      exact ⟨by linarith, by linarith⟩
  · rw [if_neg hreach, ramped_eq, maxLinChange_eq]
    by_cases hneg : msg.linearX < self.curLinear
    · rw [if_pos hneg, if_neg (sub_neg.mpr hneg).le.not_gt]
      exact ⟨by linarith, by linarith⟩
    · rw [if_neg hneg]
      have hpos : 0 < msg.linearX - self.curLinear := by
        refine lt_of_le_of_ne (sub_nonneg.mpr (not_lt.mp hneg)) fun hzero => hreach ?_
        rw [← hzero, abs_zero]
        exact (maxLinChange_pos ..).le
      rw [if_pos hpos]
      exact ⟨by linarith, by linarith⟩

/-- **One command is consistent exactly if its speed is reached**, or it makes no
difference. -/
theorem consistent_iff_reaches (tan : K → K) (self : AckermannToVel K) (cmd : Cmd K) :
    Consistent tan self cmd ↔ Reaches tan self cmd := by
  obtain ⟨now, msg⟩ := cmd
  obtain ⟨haccel, hdecel⟩ := linear_limited tan self now msg
  rw [dt_eq] at haccel hdecel
  have hwheel : (wheelbase : K) ≠ 0 := by norm_num [wheelbase]
  unfold Reaches
  dsimp only
  rw [← ramped_eq]
  by_cases hreach : |msg.linearX - self.curLinear| ≤ self.maxLinChange now msg.linearX
  · refine iff_of_true ⟨?_, haccel, hdecel⟩ (Or.inl hreach)
    rw [onCmd_eq]
    dsimp only
    rw [if_pos hreach]
    exact fun hmoves => if_pos hmoves
  · have hne := ramped_ne self (not_le.mp hreach)
    rw [or_iff_right hreach]
    constructor
    · intro hc
      have hyaw := hc.yaw
      rw [onCmd_eq] at hyaw
      dsimp only at hyaw
      rw [if_neg hreach] at hyaw
      by_contra hboth
      obtain ⟨htan, hfast⟩ := not_or.mp hboth
      have heq := hyaw (not_le.mp hfast)
      split at heq
      · rw [div_left_inj' hwheel] at heq
        exact hne (mul_right_cancel₀ htan heq).symm
      · have hprod := (div_eq_zero_iff.mp heq.symm).resolve_right hwheel
        rw [(mul_eq_zero.mp hprod).resolve_right htan, abs_zero] at hfast
        exact hfast (by norm_num)
    · intro hor
      refine ⟨?_, haccel, hdecel⟩
      rw [onCmd_eq]
      dsimp only
      rw [if_neg hreach]
      intro hfast
      have htan : tan msg.angularZ = 0 := hor.resolve_right (not_le.mpr hfast)
      rw [htan, mul_zero, mul_zero, zero_div, ite_self]

/-- **What is published is consistent along a run exactly if every command is within
reach** of the speed before it, or straight, or still too slow to count. -/
theorem consistent_iff (tan : K → K) (now : K) (cmds : List (Cmd K)) :
    Transitions.Along (step tan) (Consistent tan) (.init now) cmds ↔
      Transitions.Along (step tan) (Reaches tan) (.init now) cmds := by
  have hiff : ∀ (self : AckermannToVel K) (cmd : Cmd K), True →
      (Consistent tan self cmd ↔ Reaches tan self cmd) := fun self cmd _ =>
    consistent_iff_reaches tan self cmd
  exact Transitions.along_iff_of_inv hiff (fun _ _ _ _ _ _ => trivial) trivial cmds

/-- A turn from standstill that starts slowly. -/
theorem consistent_iff_slowTurn :
    Transitions.Along (step Real.tan) (Consistent Real.tan) (.init 0)
      [⟨0.1, ⟨0.1, Real.pi / 4⟩⟩] := by
  rw [consistent_iff]
  refine ⟨Or.inl ?_, fun _ _ => trivial⟩
  norm_num [maxLinChange_eq, dt_eq, AckermannToVel.init, maxLinearAccel]

/-- **A turn from standstill** at two metres a second, a tenth of a second after the
start. -/
theorem standingTurn_not_consistent : ¬ ∀ (now : ℝ) (cmds : List (Cmd ℝ)),
    (∀ cmd ∈ cmds, |cmd.msg.angularZ| < Real.pi / 2) →
    (now :: cmds.map Cmd.now).IsChain (· ≤ ·) →
    Transitions.Along (step Real.tan) (Consistent Real.tan) (.init now) cmds := by
  intro hall
  have hpi := Real.pi_pos
  have hsteer : |Real.pi / 4| < Real.pi / 2 := by
    rw [abs_of_pos (by linarith)]
    linarith
  obtain ⟨hcons, -⟩ := hall 0 [⟨0.1, ⟨2, Real.pi / 4⟩⟩]
    (fun cmd hcmd => by rwa [List.mem_singleton.mp hcmd]) (by norm_num)
  have hreaches := (consistent_iff_reaches _ _ _).mp hcons
  norm_num [Reaches, maxLinChange_eq, dt_eq, AckermannToVel.init, maxLinearAccel]
    at hreaches

end KartStack.Ackermann
