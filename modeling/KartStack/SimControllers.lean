import KartStack.PythonNumbers

/-! # The simulator's controllers

`controllers.py` of `sim2d`: the geometric controller, which steers for the middle
between the nearest blue and the nearest yellow cone, and the two smaller neural
networks.  They are made from a vector of genes, which the training tunes.
-/
namespace KartStack.Sim2d
open KartStack.Python

/-- A cone as `perceive` returns it, in the kart's frame. -/
structure SeenCone (K : Type) where
  classId : String
  x : K
  y : K
  z : K
  deriving DecidableEq, Repr

/-- `HALF_TRACK_WIDTH`. -/
def halfTrackWidth {K : Type} [OfScientific K] : K := 1.5

/-! ## The geometric controller -/

/-- `GeometricController`. -/
structure GeometricController (K : Type) where
  steeringGain : K
  maxSteer : K
  maxSpeed : K
  minSpeed : K
  lookaheadMax : K
  speedCurveFactor : K
  lastSteer : K
  deriving DecidableEq, Repr

/-- The nearest cones so far, and their distances. -/
structure Nearest (K : Type) where
  nearestBlue : Option (K × K)
  nearestYellow : Option (K × K)
  minBd : K
  minYd : K
  deriving DecidableEq, Repr

namespace GeometricController
variable {K : Type}

/-- `GeometricController.__init__`. -/
def init [OfScientific K] : List K → Option (GeometricController K)
  | g₀ :: g₁ :: g₂ :: g₃ :: g₄ :: g₅ :: _ => some ⟨g₀, g₁, g₂, g₃, g₄, g₅, 0.0⟩
  | _ => none

variable [LT K] [DecidableLT K] [OfScientific K]

/-- The loop of `control`, for one cone. -/
def look (m : MathLib K) (self : GeometricController K) (n : Nearest K) (cone : SeenCone K) :
    Nearest K :=
  if cone.x < 0.5 then n
  else
    let dist := m.hypot cone.x cone.y
    if self.lookaheadMax < dist then n
    else if cone.classId = "blue_cone" ∧ dist < n.minBd then
      { n with minBd := dist, nearestBlue := some (cone.x, cone.y) }
    else if cone.classId = "yellow_cone" ∧ dist < n.minYd then
      { n with minYd := dist, nearestYellow := some (cone.x, cone.y) }
    else n

variable [Add K] [Sub K] [Mul K] [Div K] [Neg K]

/-- The point steered for. -/
def midpoint (n : Nearest K) : Option (K × K) :=
  match n.nearestBlue, n.nearestYellow with
  | some b, some y => some ((b.1 + y.1) / 2.0, (b.2 + y.2) / 2.0)
  | some b, none => some (b.1, b.2 - halfTrackWidth)
  | none, some y => some (y.1, y.2 + halfTrackWidth)
  | none, none => none

/-- `GeometricController.control`; `inf` is `float("inf")`. -/
def control (m : MathLib K) (inf : K) (self : GeometricController K)
    (visibleCones : List (SeenCone K)) : (K × K) × GeometricController K :=
  match midpoint (visibleCones.foldl (self.look m) ⟨none, none, inf, inf⟩) with
  | none => ((self.lastSteer, self.minSpeed), self)
  | some (midF, midL) =>
    let angle := m.atan2 midL midF
    let steer := Python.max (-self.maxSteer) (Python.min self.maxSteer (self.steeringGain * angle))
    let speed := self.maxSpeed * (1.0 - self.speedCurveFactor * Python.abs steer)
    ((steer, Python.max self.minSpeed (Python.min self.maxSpeed speed)),
      { self with lastSteer := steer })

end GeometricController

/-! ## The neural networks -/

section
variable {K : Type}

/-- The loop that sorts the cones by class. -/
def collect (m : MathLib K) (seen : List (K × K) × List (K × K)) (cone : SeenCone K) :
    List (K × K) × List (K × K) :=
  let dist := m.hypot cone.x cone.y
  let angle := m.atan2 cone.y cone.x
  if cone.classId = "blue_cone" then (seen.1 ++ [(dist, angle)], seen.2)
  else if cone.classId = "yellow_cone" then (seen.1, seen.2 ++ [(dist, angle)])
  else seen

/-- The loop that writes distances and angles to the inputs from `first` on. -/
def writeInputs [Div K] [OfScientific K] (m : MathLib K) (first : Nat) (cones : List (K × K))
    (inp : List K) : List K :=
  cones.zipIdx.foldl
    (fun inp c =>
      (inp.set (first + c.2 * 2) (c.1.1 / 15.0)).set (first + c.2 * 2 + 1) (c.1.2 / m.pi))
    inp

/-- Weights and biases of two layers. -/
structure Layers (K : Type) where
  w₁ : Array2 K
  b₁ : List K
  w₂ : Array2 K
  b₂ : List K
  deriving DecidableEq, Repr

/-- The constructors of the two networks, for the sizes of their layers. -/
def Layers.init (inputSize hiddenSize outputSize : Nat) (g : List K) : Option (Layers K) :=
  let n := inputSize * hiddenSize
  let i₁ := n
  let i₂ := i₁ + hiddenSize
  let n₂ := hiddenSize * outputSize
  let i₃ := i₂ + n₂
  (reshape inputSize hiddenSize (slice g 0 n)).bind fun w₁ =>
    (reshape hiddenSize outputSize (slice g i₂ (i₂ + n₂))).map fun w₂ =>
      ⟨w₁, slice g i₁ (i₁ + hiddenSize), w₂, slice g i₃ (i₃ + outputSize)⟩

/-- Steer and speed from the inputs. -/
def Layers.out [Add K] [Mul K] [Div K] [Neg K] [OfScientific K] (m : MathLib K) (net : Layers K)
    (maxSteer maxSpeed : K) (inp : List K) : Option (K × K) := do
  let hidden := (← vecAdd (matmul inp net.w₁) net.b₁).map m.tanh
  let out ← vecAdd (matmul hidden net.w₂) net.b₂
  return (m.tanh (out.getD 0 0.0) * maxSteer, 1.0 / (1.0 + m.exp (-(out.getD 1 0.0))) * maxSpeed)

/-- Layers with a bias for each column answer. -/
theorem exists_layersOut [Add K] [Mul K] [Div K] [Neg K] [OfScientific K] (m : MathLib K)
    {net : Layers K} (h₁ : net.w₁.cols = net.b₁.length) (h₂ : net.w₂.cols = net.b₂.length)
    (maxSteer maxSpeed : K) (inp : List K) :
    ∃ r, net.out m maxSteer maxSpeed inp = some r := by
  obtain ⟨hidden, hhidden⟩ := exists_vecAdd inp h₁
  obtain ⟨out, hout⟩ := exists_vecAdd (hidden.map m.tanh) h₂
  simp only [Layers.out, hhidden, hout, Option.bind_eq_bind, Option.bind_some]
  exact ⟨_, rfl⟩

end

/-- `NeuralNetController`. -/
structure NeuralNetController (K : Type) where
  layers : Layers K
  deriving DecidableEq, Repr

namespace NeuralNetController
variable {K : Type}

/-- `NeuralNetController.__init__`. -/
def init (genes : List K) : Option (NeuralNetController K) :=
  (Layers.init 8 8 2 genes).map fun layers => ⟨layers⟩

/-- `NeuralNetController.reset`. -/
def reset (self : NeuralNetController K) : NeuralNetController K := self

variable [LT K] [DecidableLT K] [DecidableEq K] [Add K] [Mul K] [Div K] [Neg K] [OfScientific K]

/-- `NeuralNetController.control`. -/
def control (m : MathLib K) (self : NeuralNetController K) (visibleCones : List (SeenCone K)) :
    Option (K × K) :=
  let seen := visibleCones.foldl (collect m) ([], [])
  let inp := writeInputs m 0 ((Python.sort seen.1).take 2) (List.replicate 8 0.0)
  let inp := writeInputs m 4 ((Python.sort seen.2).take 2) inp
  self.layers.out m 0.5 10.0 inp

end NeuralNetController

/-- `NeuralNetV2Controller`. -/
structure NeuralNetV2Controller (K : Type) where
  layers : Layers K
  lastSpeed : K
  deriving DecidableEq, Repr

namespace NeuralNetV2Controller
variable {K : Type} [OfScientific K]

/-- `NeuralNetV2Controller.__init__`. -/
def init (genes : List K) : Option (NeuralNetV2Controller K) :=
  (Layers.init 17 16 2 genes).map fun layers => ⟨layers, 0.0⟩

/-- `NeuralNetV2Controller.reset`. -/
def reset (self : NeuralNetV2Controller K) : NeuralNetV2Controller K :=
  { self with lastSpeed := 0.0 }

variable [LT K] [DecidableLT K] [DecidableEq K] [Add K] [Mul K] [Div K] [Neg K]

/-- `NeuralNetV2Controller.control`; a speed that is passed is kept. -/
def control (m : MathLib K) (self : NeuralNetV2Controller K) (visibleCones : List (SeenCone K))
    (currentSpeed : Option K) : Option ((K × K) × NeuralNetV2Controller K) :=
  let self := { self with lastSpeed := currentSpeed.getD self.lastSpeed }
  let seen := visibleCones.foldl (collect m) ([], [])
  let inp := writeInputs m 0 ((Python.sort seen.1).take 4) (List.replicate 17 0.0)
  let inp := writeInputs m 8 ((Python.sort seen.2).take 4) inp
  let inp := inp.set 16 (self.lastSpeed / 10.0)
  (self.layers.out m 0.5 10.0 inp).map fun r => (r, self)

end NeuralNetV2Controller

end KartStack.Sim2d
