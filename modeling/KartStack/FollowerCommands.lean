import KartStack.ConeFollower
import KartStack.Transitions
import Mathlib.Analysis.Complex.ExponentialBounds

/-! # What the cone follower publishes

The node publishes a command for every message with detections and, when none has
come for a while, at every tick of its safety timer.  A command for a message without
cones is to keep the last steer, and so is that of the timer: the field
`_last_steer`, which both controllers write.  The geometric controller leaves it
alone where it sees no cone, but a network computes a steer from an empty scene as
well, and writes it before the callback reads the field (`keepsSteer_iff`).

The speeds are within the node's parameters, and so is the steer of the geometric
controller.  The steer of a network is bounded by the constant it was trained with
(`commands_bounded`).
-/
namespace KartStack.ConeFollower
open KartStack.Python

/-- What reaches the node. -/
inductive Event (K : Type) where
  | detections (now : K) (detections : List (Detection K))
  | odom (vx vy : K)
  /-- The safety timer. -/
  | tick (now : K)

section
variable {K : Type} [LT K] [DecidableLT K] [DecidableEq K] [OfScientific K] [Neg K] [Add K] [Sub K]
  [Mul K] [Div K]
variable (m : MathLib K) (inf : K)

/-- An event: the command published, if any, and the node afterwards.  There is none after
a callback that raises, which ends the program. -/
def Node.handle (self : Node K) : Event K → Option (Option (Twist K) × Node K)
  | .detections now detections =>
    (self.onDetections m inf now detections).map fun r => (some r.1, r.2)
  | .odom vx vy => some (none, self.onOdom m vx vy)
  | .tick now => some (self.safetyCheck now, self)

/-- One event. -/
def step (self : Node K) (event : Event K) : Option (Node K) :=
  (self.handle m inf event).map Prod.snd

/-! ## The steer that is kept -/

/-- The node, and the steer it published last for a message with cones, which no
function reads. -/
structure Followed (K : Type) where
  node : Node K
  visibleSteer : K

/-- The steer published for a message with cones, or the one before. -/
def Followed.seenSteer (s : Followed K) : Event K → Option (Twist K) → K
  | .detections _ detections, some cmd =>
    if (detectedCones m detections).isEmpty then s.visibleSteer else cmd.angularZ
  | _, _ => s.visibleSteer

/-- One event. -/
def Followed.step (s : Followed K) (event : Event K) : Option (Followed K) :=
  (s.node.handle m inf event).map fun r => ⟨r.2, s.seenSteer m event r.1⟩

/-- A command for a message without cones, or by the timer, has the least speed and the
steer last published for a message with cones. -/
def KeepsSteer (s : Followed K) : Event K → Prop
  | .detections now detections => (detectedCones m detections).isEmpty = true →
    ∀ r ∈ s.node.onDetections m inf now detections,
      r.1 = ⟨s.node.params.minSpeed, s.visibleSteer⟩
  | .odom _ _ => True
  | .tick now => ∀ cmd ∈ s.node.safetyCheck now,
    cmd = ⟨s.node.params.minSpeed, s.visibleSteer⟩

/-- The input of a network that sees no cone. -/
def NeuralNet.blindInput (net : NeuralNet K) (actualSpeed : K) : List K :=
  let inp := List.replicate net.inputSize 0.0
  if net.usesSpeed then inp.set (net.inputSize - 1) (actualSpeed / nnMaxSpeed) else inp

/-- The steer the weights give for it. -/
def NeuralNet.blindSteer (net : NeuralNet K) (actualSpeed : K) : Option K := do
  let hidden := (← vecAdd (matmul (net.blindInput actualSpeed) net.W1) net.b1).map m.tanh
  let out ← vecAdd (matmul hidden net.W2) net.b2
  return m.tanh (out.getD 0 0.0) * nnMaxSteer

/-- A message without cones does not meet a network, or the weights happen to give the
steer to keep. -/
def BlindAgrees (s : Followed K) : Event K → Prop
  | .detections _ detections => (detectedCones m detections).isEmpty = true →
    ∀ net ∈ s.node.net, ∀ steer ∈ net.blindSteer m s.node.actualSpeed, steer = s.visibleSteer
  | .odom _ _ => True
  | .tick _ => True

variable {m inf}

/-! ## The controllers -/

variable (m inf) in
/-- The controller the node has. -/
def Node.control (self : Node K) (cones : List (Cone K)) : Option ((K × K) × Node K) :=
  match self.net with
  | some net => self.controlNeural m net cones
  | none => some (self.controlGeometric m inf cones)

theorem onDetections_eq (self : Node K) (now : K) (detections : List (Detection K)) :
    self.onDetections m inf now detections =
      (Node.control m inf { self with lastDetectionTime := now }
        (detectedCones m detections)).map fun r =>
          (if (detectedCones m detections).isEmpty then ⟨r.2.params.minSpeed, r.2.lastSteer⟩
            else ⟨r.1.2, r.1.1⟩, r.2) := by
  obtain ⟨params, net, actualSpeed, lastSteer, lastDetectionTime⟩ := self
  cases net with
  | some net => exact (Option.map_eq_bind ..).symm
  | none => rfl

omit [Sub K] in
/-- A network that is asked: what it answers, and what is kept of it. -/
theorem controlNeural_eq_some {self : Node K} {net : NeuralNet K} {cones : List (Cone K)}
    {r : (K × K) × Node K} (h : self.controlNeural m net cones = some r) :
    ∃ steer speed, r = ((m.tanh steer * nnMaxSteer,
      Python.max self.params.minSpeed (Python.min self.params.maxSpeed speed)),
        { self with lastSteer := m.tanh steer * nnMaxSteer }) := by
  simp only [Node.controlNeural, Option.bind_eq_bind, Option.bind_eq_some_iff] at h
  obtain ⟨hidden, -, out, -, hr⟩ := h
  exact ⟨_, _, (Option.some.inj hr).symm⟩

/-- A controller returns the steer it leaves behind, and changes nothing else. -/
theorem control_snd {self : Node K} {cones : List (Cone K)} {r : (K × K) × Node K}
    (h : self.control m inf cones = some r) : r.2 = { self with lastSteer := r.1.1 } := by
  obtain ⟨params, net, actualSpeed, lastSteer, lastDetectionTime⟩ := self
  cases net with
  | some net =>
    obtain ⟨steer, speed, rfl⟩ := controlNeural_eq_some h
    rfl
  | none =>
    obtain rfl := Option.some.inj h
    unfold Node.controlGeometric
    split <;> rfl

variable (m) in
/-- What the controller steers without cones: what the weights give, and the geometric
controller the last steer. -/
def Node.blindSteer (self : Node K) : Option K :=
  match self.net with
  | some net => net.blindSteer m self.actualSpeed
  | none => some self.lastSteer

theorem control_nil (self : Node K) :
    (self.control m inf []).map (·.1.1) = self.blindSteer m := by
  obtain ⟨params, net, actualSpeed, lastSteer, lastDetectionTime⟩ := self
  cases net with
  | some net =>
    have hinput : net.input m actualSpeed (Python.sort []) (Python.sort []) =
        net.blindInput actualSpeed := by
      simp [NeuralNet.input, NeuralNet.blindInput, Python.sort]
    simp only [Node.control, Node.controlNeural, Node.blindSteer, NeuralNet.blindSteer,
      List.foldl_nil, hinput, Option.bind_eq_bind, Option.map_bind, Function.comp_def,
      Option.pure_def, Option.map_some]
  | none => rfl

/-- The command for a message without cones. -/
theorem onDetections_blind (self : Node K) (now : K) {detections : List (Detection K)}
    (h : (detectedCones m detections).isEmpty = true) :
    self.onDetections m inf now detections = (self.blindSteer m).map fun steer =>
      (⟨self.params.minSpeed, steer⟩,
        { self with lastDetectionTime := now, lastSteer := steer }) := by
  have hnil : (Node.control m inf { self with lastDetectionTime := now } []).map (·.1.1) =
      self.blindSteer m := control_nil _
  rw [onDetections_eq, List.isEmpty_iff.mp h, ← hnil, Option.map_map]
  refine Option.map_congr fun r hr => ?_
  rw [control_snd hr]
  rfl

/-- After a message with cones the last steer is the one published. -/
theorem onDetections_seen {self : Node K} {now : K} {detections : List (Detection K)}
    (h : (detectedCones m detections).isEmpty = false) {r : Twist K × Node K}
    (hr : self.onDetections m inf now detections = some r) :
    r.2.lastSteer = r.1.angularZ := by
  rw [onDetections_eq, h] at hr
  obtain ⟨r, hcontrol, rfl⟩ := Option.map_eq_some_iff.mp hr
  exact congrArg Node.lastSteer (control_snd hcontrol)

/-! ## One event -/

/-- The field is the steer to keep. -/
def Carried (s : Followed K) : Prop := s.node.lastSteer = s.visibleSteer

/-- **An event keeps the steer exactly if a network agrees** where it sees nothing. -/
theorem keepsSteer_iff_blindAgrees {s : Followed K} (h : Carried s) (event : Event K) :
    KeepsSteer m inf s event ↔ BlindAgrees m s event := by
  cases event with
  | odom vx vy => exact Iff.rfl
  | tick now =>
    refine iff_of_true (fun cmd hcmd => ?_) trivial
    unfold Node.safetyCheck at hcmd
    split at hcmd
    · obtain rfl := Option.some.inj hcmd
      rw [show s.node.lastSteer = s.visibleSteer from h]
    · cases hcmd
  | detections now detections =>
    refine forall_congr' fun hblind => ?_
    rw [onDetections_blind s.node now hblind, Node.blindSteer]
    cases s.node.net with
    | none => simp [show s.node.lastSteer = s.visibleSteer from h]
    | some net => simp

/-- An event that keeps the steer keeps the field. -/
theorem step_carried {s s' : Followed K} {event : Event K} (h : Carried s)
    (hagrees : BlindAgrees m s event) (hstep : s.step m inf event = some s') : Carried s' := by
  obtain ⟨r, hr, rfl⟩ := Option.map_eq_some_iff.mp hstep
  cases event with
  | odom vx vy =>
    obtain rfl := Option.some.inj hr
    exact h
  | tick now =>
    obtain rfl := Option.some.inj hr
    unfold Followed.seenSteer
    exact h
  | detections now detections =>
    obtain ⟨r, hdetections, rfl⟩ := Option.map_eq_some_iff.mp hr
    show r.2.lastSteer =
      if (detectedCones m detections).isEmpty = true then s.visibleSteer else r.1.angularZ
    cases hempty : (detectedCones m detections).isEmpty with
    | false => exact onDetections_seen hempty hdetections
    | true =>
      have hnet := hagrees hempty
      rw [onDetections_blind s.node now hempty, Node.blindSteer] at hdetections
      obtain ⟨steer, hsteer, rfl⟩ := Option.map_eq_some_iff.mp hdetections
      rw [if_pos rfl]
      cases hcase : s.node.net with
      | none =>
        rw [hcase] at hsteer
        exact (Option.some.inj hsteer).symm.trans h
      | some net =>
        rw [hcase] at hsteer
        exact hnet net hcase steer hsteer

/-- **The last steer is kept along a run exactly if no network meets a message without
cones**, or one whose weights happen to give the steer to keep. -/
theorem keepsSteer_iff {params : Params K} {type : ControllerType} {genes : Option (List K)}
    {now : K} {self : Node K} (hinit : Node.init params type genes now = some self)
    (events : List (Event K)) :
    Transitions.Along (Followed.step m inf) (KeepsSteer m inf) ⟨self, 0.0⟩ events ↔
      Transitions.Along (Followed.step m inf) (BlindAgrees m) ⟨self, 0.0⟩ events := by
  have hstart : Carried ⟨self, 0.0⟩ := by
    unfold Node.init at hinit
    split at hinit
    · obtain rfl := Option.some.inj hinit
      rfl
    · obtain ⟨net, -, rfl⟩ := Option.map_eq_some_iff.mp hinit
      rfl
  have hiff : ∀ s event, Carried s → (KeepsSteer m inf s event ↔ BlindAgrees m s event) :=
    fun _ event hs => keepsSteer_iff_blindAgrees hs event
  have hstep : ∀ s event s', Carried s → BlindAgrees m s event →
      Followed.step m inf s event = some s' → Carried s' := fun _ _ _ hs => step_carried hs
  exact Transitions.along_iff_of_inv hiff hstep hstart events

end

/-- The geometric controller, and a message without cones. -/
theorem keepsSteer_geometric :
    Transitions.Along (Followed.step MathLib.real 1000) (KeepsSteer MathLib.real 1000)
        ⟨⟨Params.declared, none, 0.0, 0.0, 0⟩, 0.0⟩ [.detections 1 []] ↔
      Transitions.Along (Followed.step MathLib.real 1000) (BlindAgrees MathLib.real)
        ⟨⟨Params.declared, none, 0.0, 0.0, 0⟩, 0.0⟩ [.detections 1 []] := by
  have hinit : Node.init Params.declared .geometric none 0 =
      some ⟨(Params.declared : Params ℝ), none, 0.0, 0.0, 0⟩ := rfl
  exact keepsSteer_iff hinit _

/-- The weights of the smaller network that has a bias to the left and nothing else. -/
def biased : List ℝ := List.replicate 88 0 ++ [1, 0]

/-- The network of these weights. -/
def biasedNet : NeuralNet ℝ :=
  ⟨8, 2, 2, false, ⟨8, List.replicate 8 (List.replicate 8 0)⟩, List.replicate 8 0,
    ⟨2, List.replicate 8 [0, 0]⟩, [1, 0]⟩

/-- It steers to the left when it sees nothing. -/
theorem blindSteer_biased (actualSpeed : ℝ) :
    biasedNet.blindSteer MathLib.real actualSpeed = some (Real.tanh 1 * 0.5) := by
  have hzero : (0.0 : ℝ) = 0 := by norm_num
  simp [NeuralNet.blindSteer, NeuralNet.blindInput, biasedNet, matmul, vecAdd, MathLib.real,
    nnMaxSteer, List.range_succ, hzero]

theorem half_lt_tanh_one : 1 / 2 < Real.tanh 1 := by
  have hsinh : 1 ≤ Real.sinh 1 := Real.self_le_sinh_iff.mpr zero_le_one
  have hcosh : Real.cosh 1 < 2 := by
    have he := Real.exp_one_lt_three
    have hinv : Real.exp (-1) ≤ 1 := Real.exp_le_one_iff.mpr (by norm_num)
    rw [Real.cosh_eq]
    linarith
  rw [Real.tanh_eq_sinh_div_cosh, lt_div_iff₀ (Real.cosh_pos 1)]
  linarith

/-- **A network that has never seen a cone steers.** -/
theorem biased_not_keepsSteer : ¬ ∀ (params : Params ℝ) (type : ControllerType)
    (genes : Option (List ℝ)) (now : ℝ) (self : Node ℝ),
    Node.init params type genes now = some self → ∀ events : List (Event ℝ),
    Transitions.Along (Followed.step MathLib.real 1000) (KeepsSteer MathLib.real 1000)
      ⟨self, 0.0⟩ events := by
  intro hall
  have hinit : Node.init Params.declared .neural (some biased) 0 =
      some ⟨Params.declared, some biasedNet, 0.0, 0.0, 0⟩ := rfl
  obtain ⟨hkeeps, -⟩ := hall _ _ _ _ _ hinit [.detections 1 []]
  have hagrees := (keepsSteer_iff_blindAgrees (by rfl) _).mp hkeeps
  have hzero : Real.tanh 1 * 0.5 = 0.0 :=
    hagrees rfl biasedNet rfl _ (blindSteer_biased _)
  have := half_lt_tanh_one
  norm_num at hzero
  linarith

/-! ## The bounds of a command -/

section
variable {K : Type} [Field K] [LinearOrder K]

/-- The bound of the steer: the parameter, or the constant of the networks. -/
def steerLimit (params : Params K) (type : ControllerType) : K :=
  if type = .geometric then params.maxSteer else nnMaxSteer

/-- The steer is within a limit and the speed within the parameters. -/
structure Within (params : Params K) (limit : K) (cmd : Twist K) : Prop where
  steer : |cmd.angularZ| ≤ limit
  slow : params.minSpeed ≤ cmd.linearX
  fast : cmd.linearX ≤ params.maxSpeed

/-- All that is published for an event is within the bounds. -/
def Bounded (m : MathLib K) (inf : K) (params : Params K) (limit : K) (self : Node K)
    (event : Event K) : Prop :=
  ∀ r ∈ self.handle m inf event, ∀ cmd ∈ r.1, Within params limit cmd

/-- The node has its parameters and its controller, and the last steer is within the
limit. -/
structure Steady (params : Params K) (type : ControllerType) (node : Node K) : Prop where
  params_eq : node.params = params
  net : node.net = none ↔ type = .geometric
  lastSteer : |node.lastSteer| ≤ steerLimit params type

variable [IsStrictOrderedRing K] {m : MathLib K} {inf : K}

theorem abs_clamp_le {b : K} (hb : 0 ≤ b) (x : K) : |max (-b) (min b x)| ≤ b :=
  abs_le.mpr ⟨le_max_left .., max_le (by linarith) (min_le_left ..)⟩

/-- Whatever the controller, steer and speed are within their bounds. -/
theorem control_within (htanh : ∀ x, |m.tanh x| ≤ 1) {params : Params K} {type : ControllerType}
    (hsteer : 0 ≤ params.maxSteer) (hspeed : params.minSpeed ≤ params.maxSpeed) {self : Node K}
    (h : Steady params type self) {cones : List (Cone K)} {r : (K × K) × Node K}
    (hr : self.control m inf cones = some r) :
    Within params (steerLimit params type) ⟨r.1.2, r.1.1⟩ := by
  have hclamp : ∀ x, params.minSpeed ≤ max params.minSpeed (min params.maxSpeed x) ∧
      max params.minSpeed (min params.maxSpeed x) ≤ params.maxSpeed := fun x =>
    ⟨le_max_left .., max_le hspeed (min_le_left ..)⟩
  unfold Node.control at hr
  cases hnet : self.net with
  | some net =>
    have htype : type ≠ .geometric := fun ht => by
      rw [h.net.mpr ht] at hnet
      cases hnet
    rw [hnet] at hr
    obtain ⟨steer, speed, rfl⟩ := controlNeural_eq_some hr
    simp only [python_max, python_min, h.params_eq]
    refine ⟨?_, (hclamp _).1, (hclamp _).2⟩
    have hmax : (nnMaxSteer : K) = 1 / 2 := by norm_num [nnMaxSteer]
    rw [steerLimit, if_neg htype, hmax, abs_mul, abs_of_pos (by norm_num : (0 : K) < 1 / 2)]
    have := htanh steer
    linarith
  | none =>
    have htype : type = .geometric := h.net.mp hnet
    have hlast := h.lastSteer
    rw [hnet] at hr
    obtain rfl := Option.some.inj hr
    rw [steerLimit, if_pos htype] at hlast ⊢
    unfold Node.controlGeometric
    cases self.midpoint (cones.foldl (self.look m) ⟨none, none, inf, inf⟩) with
    | none =>
      dsimp only
      rw [h.params_eq]
      exact ⟨hlast, le_refl _, hspeed⟩
    | some mid =>
      simp only [python_max, python_min, h.params_eq]
      exact ⟨abs_clamp_le hsteer _, (hclamp _).1, (hclamp _).2⟩

/-- **What an event publishes is within the bounds**, and so is the steer it leaves. -/
theorem handle_within (htanh : ∀ x, |m.tanh x| ≤ 1) {params : Params K} {type : ControllerType}
    (hsteer : 0 ≤ params.maxSteer) (hspeed : params.minSpeed ≤ params.maxSpeed) {self : Node K}
    (h : Steady params type self) {event : Event K} {r : Option (Twist K) × Node K}
    (hr : self.handle m inf event = some r) :
    (∀ cmd ∈ r.1, Within params (steerLimit params type) cmd) ∧ Steady params type r.2 := by
  cases event with
  | odom vx vy =>
    obtain rfl := Option.some.inj hr
    exact ⟨fun cmd hcmd => (by cases hcmd), ⟨h.params_eq, h.net, h.lastSteer⟩⟩
  | tick now =>
    obtain rfl := Option.some.inj hr
    refine ⟨fun cmd hcmd => ?_, h⟩
    change cmd ∈ self.safetyCheck now at hcmd
    unfold Node.safetyCheck at hcmd
    split at hcmd
    · obtain rfl := Option.some.inj hcmd
      rw [h.params_eq]
      exact ⟨h.lastSteer, le_refl _, hspeed⟩
    · cases hcmd
  | detections now detections =>
    have hself : Steady params type { self with lastDetectionTime := now } :=
      ⟨h.params_eq, h.net, h.lastSteer⟩
    obtain ⟨r, hdetections, rfl⟩ := Option.map_eq_some_iff.mp hr
    rw [onDetections_eq] at hdetections
    obtain ⟨r, hcontrol, rfl⟩ := Option.map_eq_some_iff.mp hdetections
    have hwithin := control_within htanh hsteer hspeed hself hcontrol
    have hnext : Steady params type r.2 := by
      rw [control_snd hcontrol]
      exact ⟨h.params_eq, h.net, hwithin.steer⟩
    refine ⟨fun cmd hcmd => ?_, hnext⟩
    obtain rfl := Option.some.inj hcmd
    dsimp only
    split
    · rw [hnext.params_eq]
      exact ⟨hnext.lastSteer, le_refl _, hspeed⟩
    · exact hwithin

/-- The node is steady when it starts. -/
theorem init_steady {params : Params K} {type : ControllerType} (hsteer : 0 ≤ params.maxSteer)
    {genes : Option (List K)} {now : K} {self : Node K}
    (hinit : Node.init params type genes now = some self) : Steady params type self := by
  have hlimit : |(0.0 : K)| ≤ steerLimit params type := by
    have hzero : (0.0 : K) = 0 := by norm_num
    rw [hzero, abs_zero, steerLimit]
    split
    · exact hsteer
    · norm_num [nnMaxSteer]
  unfold Node.init at hinit
  split at hinit <;> rename_i htype
  · obtain rfl := Option.some.inj hinit
    exact ⟨rfl, iff_of_true rfl htype, hlimit⟩
  · obtain ⟨net, -, rfl⟩ := Option.map_eq_some_iff.mp hinit
    exact ⟨rfl, iff_of_false (by simp) htype, hlimit⟩

/-- **Everything the node publishes is within its bounds**: the speed within the
parameters, the steer within `max_steer` for the geometric controller and within the
constant of the networks for these. -/
theorem commands_bounded (htanh : ∀ x, |m.tanh x| ≤ 1) {params : Params K} {type : ControllerType}
    (hsteer : 0 ≤ params.maxSteer) (hspeed : params.minSpeed ≤ params.maxSpeed)
    {genes : Option (List K)} {now : K} {self : Node K}
    (hinit : Node.init params type genes now = some self) (events : List (Event K)) :
    Transitions.Along (step m inf) (Bounded m inf params (steerLimit params type)) self events := by
  have hok : ∀ s event, Steady params type s →
      Bounded m inf params (steerLimit params type) s event := fun _ _ hs _ hr =>
    (handle_within htanh hsteer hspeed hs hr).1
  have hstep : ∀ s event s', Steady params type s → step m inf s event = some s' →
      Steady params type s' := by
    rintro s event s' hs hs'
    obtain ⟨r, hr, rfl⟩ := Option.map_eq_some_iff.mp hs'
    exact (handle_within htanh hsteer hspeed hs hr).2
  exact Transitions.along_of_inv hok hstep (init_steady hsteer hinit) events

end

/-- The declared parameters, and the geometric controller. -/
theorem commands_bounded_declared :
    Transitions.Along (step MathLib.real 1000)
      (Bounded MathLib.real 1000 Params.declared (steerLimit Params.declared .geometric))
      ⟨Params.declared, none, 0.0, 0.0, 0⟩ [.detections 1 [], .tick 3] := by
  have hinit : Node.init Params.declared .geometric none 0 =
      some ⟨(Params.declared : Params ℝ), none, 0.0, 0.0, 0⟩ := rfl
  exact commands_bounded (fun x => (Real.abs_tanh_lt_one x).le) (by norm_num [Params.declared])
    (by norm_num [Params.declared]) hinit _

/-- **A network steers further than `max_steer`.** -/
theorem biased_not_bounded : ¬ ∀ (params : Params ℝ) (type : ControllerType)
    (genes : Option (List ℝ)) (now : ℝ) (self : Node ℝ), 0 ≤ params.maxSteer →
    0 ≤ params.minSpeed → params.minSpeed ≤ params.maxSpeed →
    Node.init params type genes now = some self → ∀ events : List (Event ℝ),
    Transitions.Along (step MathLib.real 1000)
      (Bounded MathLib.real 1000 params params.maxSteer) self events := by
  intro hall
  let params : Params ℝ := ⟨1, 1, 0.1, 2, 0.5, 15, 1.5, 1⟩
  have hinit : Node.init params .neural (some biased) 0 =
      some ⟨params, some biasedNet, 0.0, 0.0, 0⟩ := rfl
  obtain ⟨hbounded, -⟩ := hall params _ _ _ _ (by norm_num [params]) (by norm_num [params])
    (by norm_num [params]) hinit [.detections 1 []]
  have hpublished : (⟨params, some biasedNet, 0.0, 0.0, 0⟩ : Node ℝ).handle MathLib.real 1000
      (.detections 1 []) = some (some ⟨0.5, Real.tanh 1 * 0.5⟩,
        ⟨params, some biasedNet, 0.0, Real.tanh 1 * 0.5, 1⟩) := by
    rw [Node.handle, onDetections_blind _ _ rfl, Node.blindSteer]
    dsimp only
    rw [blindSteer_biased]
    rfl
  have hsteer : |Real.tanh 1 * 0.5| ≤ 0.1 := (hbounded _ hpublished _ rfl).steer
  have htanh := half_lt_tanh_one
  rw [abs_of_pos (by norm_num; linarith)] at hsteer
  norm_num at hsteer
  linarith

end KartStack.ConeFollower
