import KartStack.PythonNumbers

/-! # The cone follower

`cone_follower_node.py`, the controller on the kart.  It takes the detections of the
cones in the optical frame of the camera, keeps those ahead and in view, and
publishes a steer and a speed: from the geometric controller, or from a network
whose weights it loads.  While it sees no cone it goes at the least speed.
-/
namespace KartStack.ConeFollower
open KartStack.Python

/-! ## Messages -/

/-- A point. -/
structure Position (K : Type) where
  x : K
  y : K
  z : K
  deriving DecidableEq, Repr

/-- `ObjectHypothesisWithPose`. -/
structure Hypothesis (K : Type) where
  classId : String
  score : K
  position : Position K
  deriving DecidableEq, Repr

/-- `Detection3D`; the box has a centre and a size. -/
structure Detection (K : Type) where
  results : List (Hypothesis K)
  center : Position K
  size : Position K
  deriving DecidableEq, Repr

/-- `Twist`. -/
structure Twist (K : Type) where
  linearX : K
  angularZ : K
  deriving DecidableEq, Repr

/-- A cone in the frame of the camera. -/
structure Cone (K : Type) where
  classId : String
  fwd : K
  left : K
  deriving DecidableEq, Repr

/-! ## The node -/

/-- The parameters of the node. -/
structure Params (K : Type) where
  noConeTimeout : K
  steeringGain : K
  maxSteer : K
  maxSpeed : K
  minSpeed : K
  lookaheadMax : K
  halfTrackWidth : K
  speedCurveFactor : K
  deriving DecidableEq, Repr

/-- `controller_type`. -/
inductive ControllerType where
  | geometric
  | neural
  | neuralV2
  deriving DecidableEq, Repr

/-- The weights, and what the input consists of. -/
structure NeuralNet (K : Type) where
  inputSize : Nat
  nBlue : Nat
  nYellow : Nat
  usesSpeed : Bool
  W1 : Array2 K
  b1 : List K
  W2 : Array2 K
  b2 : List K
  deriving DecidableEq, Repr

/-- `ConeFollowerNode`; without a network it is the geometric controller. -/
structure Node (K : Type) where
  params : Params K
  net : Option (NeuralNet K)
  actualSpeed : K
  lastSteer : K
  lastDetectionTime : K
  deriving DecidableEq, Repr

section
variable {K : Type}

/-- The values the parameters are declared with. -/
def Params.declared [OfScientific K] : Params K := ⟨1.0, 1.0, 0.5, 2.0, 0.5, 15.0, 1.5, 1.0⟩

/-- `_load_neural_weights`, from the genes in the file. -/
def loadNeuralWeights (type : ControllerType) (genes : List K) : Option (NeuralNet K) :=
  if type = .neuralV2 then
    let hs := 16
    (reshape 17 hs (slice genes 0 (0 + 17 * hs))).bind fun W1 =>
      (reshape hs 2 (slice genes (17 * hs + hs) (17 * hs + hs + hs * 2))).map fun W2 =>
        ⟨17, 4, 4, true, W1, slice genes (17 * hs) (17 * hs + hs), W2,
          slice genes (17 * hs + hs + hs * 2) (17 * hs + hs + hs * 2 + 2)⟩
  else
    let hs := 8
    (reshape 8 hs (slice genes 0 (0 + 8 * hs))).bind fun W1 =>
      (reshape hs 2 (slice genes (8 * hs + hs) (8 * hs + hs + hs * 2))).map fun W2 =>
        ⟨8, 2, 2, false, W1, slice genes (8 * hs) (8 * hs + hs), W2,
          slice genes (8 * hs + hs + hs * 2) (8 * hs + hs + hs * 2 + 2)⟩

/-- `ConeFollowerNode.__init__`, at the time `now`; it ends the program where a network
has no weights or not enough for its arrays. -/
def Node.init [OfScientific K] (params : Params K) (type : ControllerType)
    (genes : Option (List K)) (now : K) : Option (Node K) :=
  if type = .geometric then some ⟨params, none, 0.0, 0.0, now⟩
  else (genes.bind (loadNeuralWeights type)).map fun net => ⟨params, some net, 0.0, 0.0, now⟩

/-- `_on_odom`. -/
def Node.onOdom [Add K] [Mul K] (m : MathLib K) (self : Node K) (vx vy : K) : Node K :=
  { self with actualSpeed := m.sqrt (vx * vx + vy * vy) }

variable [LT K] [DecidableLT K] [OfScientific K] [Neg K]

/-- The cone of a detection, unless it is behind, too far or out of view. -/
def detectedCone (m : MathLib K) (det : Detection K) : Option (Cone K) :=
  match det.results with
  | [] => none
  | result :: _ =>
    let fwd := result.position.z
    let left := -result.position.x
    if fwd < 0.5 then none
    else if 15.0 < m.hypot fwd left then none
    else if 0.6109 < Python.abs (m.atan2 left fwd) then none
    else some ⟨result.classId, fwd, left⟩

/-- The cones `_on_detections` passes to the controller. -/
def detectedCones (m : MathLib K) (detections : List (Detection K)) : List (Cone K) :=
  detections.filterMap (detectedCone m)

/-! ## The geometric controller -/

/-- The nearest cones so far, and their distances. -/
structure Nearest (K : Type) where
  nearestBlue : Option (K × K)
  nearestYellow : Option (K × K)
  minBd : K
  minYd : K
  deriving DecidableEq, Repr

/-- The loop of `_control_geometric`, for one cone. -/
def Node.look (m : MathLib K) (self : Node K) (n : Nearest K) (cone : Cone K) : Nearest K :=
  let dist := m.hypot cone.fwd cone.left
  if self.params.lookaheadMax < dist then n
  else if cone.classId = "blue_cone" ∧ dist < n.minBd then
    { n with minBd := dist, nearestBlue := some (cone.fwd, cone.left) }
  else if cone.classId = "yellow_cone" ∧ dist < n.minYd then
    { n with minYd := dist, nearestYellow := some (cone.fwd, cone.left) }
  else n

variable [Add K] [Sub K] [Mul K] [Div K]

/-- The point steered for. -/
def Node.midpoint (self : Node K) (n : Nearest K) : Option (K × K) :=
  match n.nearestBlue, n.nearestYellow with
  | some b, some y => some ((b.1 + y.1) / 2.0, (b.2 + y.2) / 2.0)
  | some b, none => some (b.1, b.2 - self.params.halfTrackWidth)
  | none, some y => some (y.1, y.2 + self.params.halfTrackWidth)
  | none, none => none

/-- `_control_geometric`; `inf` is `float("inf")`. -/
def Node.controlGeometric (m : MathLib K) (inf : K) (self : Node K) (cones : List (Cone K)) :
    (K × K) × Node K :=
  match self.midpoint (cones.foldl (self.look m) ⟨none, none, inf, inf⟩) with
  | none => ((self.lastSteer, self.params.minSpeed), self)
  | some (midF, midL) =>
    let angle := m.atan2 midL midF
    let steer := Python.max (-self.params.maxSteer)
      (Python.min self.params.maxSteer (self.params.steeringGain * angle))
    let speed := self.params.maxSpeed * (1.0 - self.params.speedCurveFactor * Python.abs steer)
    ((steer, Python.max self.params.minSpeed (Python.min self.params.maxSpeed speed)),
      { self with lastSteer := steer })

/-! ## The networks -/

/-- `_nn_max_steer`. -/
def nnMaxSteer : K := 0.5
/-- `_nn_max_speed`. -/
def nnMaxSpeed : K := 10.0

/-- The loop that sorts the cones by class. -/
def sideOf (m : MathLib K) (sides : List (K × K) × List (K × K)) (cone : Cone K) :
    List (K × K) × List (K × K) :=
  let dist := m.hypot cone.fwd cone.left
  let angle := m.atan2 cone.left cone.fwd
  if cone.classId = "blue_cone" then (sides.1 ++ [(dist, angle)], sides.2)
  else if cone.classId = "yellow_cone" then (sides.1, sides.2 ++ [(dist, angle)])
  else sides

/-- The input of the network: the nearest cones of both sides, and the speed. -/
def NeuralNet.input (m : MathLib K) (net : NeuralNet K) (actualSpeed : K)
    (blues yellows : List (K × K)) : List K :=
  let inp := List.replicate net.inputSize 0.0
  let inp := (blues.take net.nBlue).zipIdx.foldl
    (fun inp c => (inp.set (c.2 * 2) (c.1.1 / 15.0)).set (c.2 * 2 + 1) (c.1.2 / m.pi)) inp
  let inp := (yellows.take net.nYellow).zipIdx.foldl
    (fun inp c => (inp.set (net.nBlue * 2 + c.2 * 2) (c.1.1 / 15.0)).set
      (net.nBlue * 2 + c.2 * 2 + 1) (c.1.2 / m.pi)) inp
  if net.usesSpeed then inp.set (inp.length - 1) (actualSpeed / nnMaxSpeed) else inp

variable [DecidableEq K]

/-- `_control_neural`. -/
def Node.controlNeural (m : MathLib K) (self : Node K) (net : NeuralNet K)
    (cones : List (Cone K)) : Option ((K × K) × Node K) := do
  let sides := cones.foldl (sideOf m) ([], [])
  let inp := net.input m self.actualSpeed (Python.sort sides.1) (Python.sort sides.2)
  let hidden := (← vecAdd (matmul inp net.W1) net.b1).map m.tanh
  let out ← vecAdd (matmul hidden net.W2) net.b2
  let steer := m.tanh (out.getD 0 0.0) * nnMaxSteer
  let speed := 1.0 / (1.0 + m.exp (-(out.getD 1 0.0))) * nnMaxSpeed
  return ((steer, Python.max self.params.minSpeed (Python.min self.params.maxSpeed speed)),
    { self with lastSteer := steer })

/-! ## Callbacks -/

/-- `_on_detections`, at the time `now`: the command published.  It raises where the
biases of a network do not fit. -/
def Node.onDetections (m : MathLib K) (inf : K) (self : Node K) (now : K)
    (detections : List (Detection K)) : Option (Twist K × Node K) := do
  let self := { self with lastDetectionTime := now }
  let cones := detectedCones m detections
  let r ← match self.net with
    | some net => self.controlNeural m net cones
    | none => some (self.controlGeometric m inf cones)
  return (if cones.isEmpty then ⟨r.2.params.minSpeed, r.2.lastSteer⟩ else ⟨r.1.2, r.1.1⟩, r.2)

/-- `_safety_check`, at the time `now`: the command published, if any. -/
def Node.safetyCheck (self : Node K) (now : K) : Option (Twist K) :=
  if self.params.noConeTimeout < now - self.lastDetectionTime then
    some ⟨self.params.minSpeed, self.lastSteer⟩
  else none

end

end KartStack.ConeFollower
