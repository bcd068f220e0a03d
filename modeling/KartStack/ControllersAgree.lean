import KartStack.ConeFollower
import KartStack.SimControllers

/-! # The controllers that were trained and those that drive

The simulator and the node on the kart each have the geometric controller and the
two networks, written twice.  They compute the same: over any type of numbers, with
any functions of `math`, so no law of arithmetic is used.

The geometric controllers differ in one place: the simulator's passes over cones
less than half a metre ahead, which the node's callback has taken out before.
-/
namespace KartStack.ControllersAgree
open KartStack.Python Sim2d ConeFollower

section
variable {K : Type}

/-- What the node has of a cone the simulator sees. -/
def toCone (cone : SeenCone K) : Cone K := ⟨cone.classId, cone.x, cone.y⟩

/-! ## The geometric controllers -/

section
variable [LT K] [DecidableLT K] [OfScientific K]

/-- The same parameters, and the same last steer. -/
structure Tuned (sim : GeometricController K) (node : Node K) : Prop where
  steeringGain : sim.steeringGain = node.params.steeringGain
  maxSteer : sim.maxSteer = node.params.maxSteer
  maxSpeed : sim.maxSpeed = node.params.maxSpeed
  minSpeed : sim.minSpeed = node.params.minSpeed
  lookaheadMax : sim.lookaheadMax = node.params.lookaheadMax
  speedCurveFactor : sim.speedCurveFactor = node.params.speedCurveFactor
  halfTrackWidth : node.params.halfTrackWidth = 1.5
  lastSteer : sim.lastSteer = node.lastSteer

/-- The nearest cones, in the node's terms. -/
def toNearest (n : Sim2d.Nearest K) : ConeFollower.Nearest K :=
  ⟨n.nearestBlue, n.nearestYellow, n.minBd, n.minYd⟩

/-- One cone of the loop. -/
theorem look_agree (m : MathLib K) {sim : GeometricController K} {node : Node K}
    (ht : Tuned sim node) (n : Sim2d.Nearest K) {cone : SeenCone K} (hc : ¬ cone.x < 0.5) :
    node.look m (toNearest n) (toCone cone) = toNearest (sim.look m n cone) := by
  unfold Node.look GeometricController.look
  rw [if_neg hc, ht.lookaheadMax]
  by_cases hfar : node.params.lookaheadMax < m.hypot cone.x cone.y
  · simp only [toCone, hfar, if_true]
  · by_cases hblue : cone.classId = "blue_cone" ∧ m.hypot cone.x cone.y < n.minBd
    · simp [toCone, toNearest, hfar, hblue]
    · by_cases hyellow : cone.classId = "yellow_cone" ∧ m.hypot cone.x cone.y < n.minYd <;>
        simp [toCone, toNearest, hfar, hblue, hyellow]

/-- The loop. -/
theorem look_foldl_agree (m : MathLib K) {sim : GeometricController K} {node : Node K}
    (ht : Tuned sim node) {cones : List (SeenCone K)} (hc : ∀ cone ∈ cones, ¬ cone.x < 0.5)
    (n : Sim2d.Nearest K) :
    (cones.map toCone).foldl (node.look m) (toNearest n) =
      toNearest (cones.foldl (sim.look m) n) := by
  induction cones generalizing n with
  | nil => rfl
  | cons cone cones ih =>
    obtain ⟨hcone, hrest⟩ := List.forall_mem_cons.mp hc
    rw [List.map_cons, List.foldl_cons, look_agree m ht n hcone, ih hrest, List.foldl_cons]

variable [Add K] [Sub K] [Div K]

omit [LT K] [DecidableLT K] in
theorem midpoint_agree {sim : GeometricController K} {node : Node K} (ht : Tuned sim node)
    (n : Sim2d.Nearest K) : node.midpoint (toNearest n) = GeometricController.midpoint n := by
  rcases n with ⟨_ | blue, _ | yellow, minBd, minYd⟩
  · rfl
  · show some (yellow.1, yellow.2 + node.params.halfTrackWidth) = _
    rw [ht.halfTrackWidth]
    rfl
  · show some (blue.1, blue.2 - node.params.halfTrackWidth) = _
    rw [ht.halfTrackWidth]
    rfl
  · rfl

variable [Mul K] [Neg K]

/-- **One call.** -/
theorem control_agree (m : MathLib K) (inf : K) {sim : GeometricController K} {node : Node K}
    (ht : Tuned sim node) {cones : List (SeenCone K)} (hc : ∀ cone ∈ cones, ¬ cone.x < 0.5) :
    (node.controlGeometric m inf (cones.map toCone)).1 = (sim.control m inf cones).1 ∧
      Tuned (sim.control m inf cones).2 (node.controlGeometric m inf (cones.map toCone)).2 := by
  have hmid : node.midpoint ((cones.map toCone).foldl (node.look m) ⟨none, none, inf, inf⟩) =
      GeometricController.midpoint (cones.foldl (sim.look m) ⟨none, none, inf, inf⟩) := by
    rw [← midpoint_agree ht, ← look_foldl_agree m ht hc]
    rfl
  unfold Node.controlGeometric GeometricController.control
  rw [hmid]
  cases GeometricController.midpoint (cones.foldl (sim.look m) ⟨none, none, inf, inf⟩) with
  | none => exact ⟨by simp only [ht.lastSteer, ht.minSpeed], ht⟩
  | some mid =>
    -- the two expressions differ only in the names of the parameters
    refine ⟨?_, ht.steeringGain, ht.maxSteer, ht.maxSpeed, ht.minSpeed, ht.lookaheadMax,
      ht.speedCurveFactor, ht.halfTrackWidth, ?_⟩
    · simp only [ht.maxSteer, ht.steeringGain, ht.maxSpeed, ht.minSpeed, ht.speedCurveFactor]
    · simp only [ht.maxSteer, ht.steeringGain]

/-- Calls of `GeometricController.control`, one after the other: steer, speed and the
last steer after each. -/
def runSim (m : MathLib K) (inf : K) :
    GeometricController K → List (List (SeenCone K)) → List ((K × K) × K)
  | _, [] => []
  | sim, cones :: frames =>
    let r := sim.control m inf cones
    (r.1, r.2.lastSteer) :: runSim m inf r.2 frames

/-- Calls of `_control_geometric`, one after the other. -/
def runNode (m : MathLib K) (inf : K) : Node K → List (List (Cone K)) → List ((K × K) × K)
  | _, [] => []
  | node, cones :: frames =>
    let r := node.controlGeometric m inf cones
    (r.1, r.2.lastSteer) :: runNode m inf r.2 frames

/-- **The controller that drives is the one that was tuned**: steer, speed and last
steer are the same after every call. -/
theorem geometric_agree (m : MathLib K) (inf : K) {sim : GeometricController K} {node : Node K}
    (ht : Tuned sim node) (frames : List (List (SeenCone K)))
    (hc : ∀ cones ∈ frames, ∀ cone ∈ cones, ¬ cone.x < 0.5) :
    runNode m inf node (frames.map (List.map toCone)) = runSim m inf sim frames := by
  induction frames generalizing sim node with
  | nil => rfl
  | cons cones frames ih =>
    obtain ⟨hcones, hrest⟩ := List.forall_mem_cons.mp hc
    obtain ⟨hout, hnext⟩ := control_agree m inf ht hcones
    rw [List.map_cons, runNode, runSim, hout, hnext.lastSteer, ih hnext hrest]

/-- A cone on each side, then none, and then one: the steer is carried on. -/
theorem geometric_agree_ahead :
    runNode MathLib.real 1000 ⟨Params.declared, none, 0.0, 0.0, 0⟩
        [[⟨"blue_cone", 4, 3⟩, ⟨"yellow_cone", 5, -2⟩], [], [⟨"yellow_cone", 3, 0⟩]] =
      runSim MathLib.real 1000 ⟨1.0, 0.5, 2.0, 0.5, 15.0, 1.0, 0.0⟩
        [[⟨"blue_cone", 4, 3, 0⟩, ⟨"yellow_cone", 5, -2, 0⟩], [], [⟨"yellow_cone", 3, 0, 0⟩]] := by
  refine geometric_agree MathLib.real 1000 ⟨rfl, rfl, rfl, rfl, rfl, rfl, rfl, rfl⟩
    [[⟨"blue_cone", 4, 3, 0⟩, ⟨"yellow_cone", 5, -2, 0⟩], [], [⟨"yellow_cone", 3, 0, 0⟩]] ?_
  norm_num

end

/-! ## The networks -/

theorem collect_foldl_agree (m : MathLib K) (cones : List (SeenCone K))
    (seen : List (K × K) × List (K × K)) :
    (cones.map toCone).foldl (sideOf m) seen = cones.foldl (collect m) seen := by
  rw [List.foldl_map]
  rfl

section
variable [Div K] [OfScientific K]

theorem writeInputs_length (m : MathLib K) (first : Nat) (cones : List (K × K)) (inp : List K) :
    (writeInputs m first cones inp).length = inp.length := by
  unfold writeInputs
  generalize cones.zipIdx = indexed
  induction indexed generalizing inp with
  | nil => rfl
  | cons c indexed ih =>
    rw [List.foldl_cons, ih, List.length_set, List.length_set]

/-- The input of a node's network, by the simulator's loops. -/
theorem input_agree (m : MathLib K) (net : NeuralNet K) (actualSpeed : K)
    (blues yellows : List (K × K)) :
    net.input m actualSpeed blues yellows =
      let inp := writeInputs m (net.nBlue * 2) (yellows.take net.nYellow)
        (writeInputs m 0 (blues.take net.nBlue) (List.replicate net.inputSize 0.0))
      if net.usesSpeed then inp.set (net.inputSize - 1) (actualSpeed / 10.0) else inp := by
  have hlen : (writeInputs m (net.nBlue * 2) (yellows.take net.nYellow)
      (writeInputs m 0 (blues.take net.nBlue) (List.replicate net.inputSize 0.0))).length =
      net.inputSize := by
    rw [writeInputs_length, writeInputs_length, List.length_replicate]
  unfold NeuralNet.input
  simp only [writeInputs, Nat.zero_add] at hlen ⊢
  rw [hlen]
  rfl

variable [LT K] [DecidableLT K] [DecidableEq K] [Add K] [Mul K] [Neg K]

/-- The clamp the node applies to the speed of a network. -/
def clamped (params : Params K) (r : K × K) : K × K :=
  (r.1, Python.max params.minSpeed (Python.min params.maxSpeed r.2))

/-- What a node with a network does, if layers with the same weights answer `r`. -/
def answered (node : Node K) (r : K × K) : (K × K) × Node K :=
  (clamped node.params r, { node with lastSteer := r.1 })

/-- A network of the node against layers with the same weights. -/
theorem controlNeural_agree (m : MathLib K) (node : Node K) (net : NeuralNet K)
    (cones : List (SeenCone K)) :
    node.controlNeural m net (cones.map toCone) =
      let sides := cones.foldl (collect m) ([], [])
      (Layers.out m ⟨net.W1, net.b1, net.W2, net.b2⟩ 0.5 10.0
        (net.input m node.actualSpeed (Python.sort sides.1)
          (Python.sort sides.2))).map (answered node) := by
  unfold Node.controlNeural
  simp only [collect_foldl_agree, Layers.out, Option.bind_eq_bind, Option.map_bind,
    Function.comp_def, Option.pure_def, Option.map_some]
  rfl

/-- The smaller network. -/
theorem neural_agree (m : MathLib K) {genes : List K} (h : genes.length = 90) :
    ∃ sim net, NeuralNetController.init genes = some sim ∧
      loadNeuralWeights .neural genes = some net ∧
      ∀ (node : Node K) (cones : List (SeenCone K)), ∃ r,
        sim.control m cones = some r ∧
          node.controlNeural m net (cones.map toCone) = some (answered node r) := by
  obtain ⟨w₁, hw₁⟩ : ∃ a, reshape 8 8 (slice genes 0 64) = some a :=
    reshape_slice 0 64 (by omega) rfl
  obtain ⟨w₂, hw₂⟩ : ∃ a, reshape 8 2 (slice genes 72 88) = some a :=
    reshape_slice 72 88 (by omega) rfl
  have hfits₁ : w₁.cols = (slice genes 64 72).length := by
    rw [cols_of_reshape hw₁, slice_length (by omega)]
  have hfits₂ : w₂.cols = (slice genes 88 90).length := by
    rw [cols_of_reshape hw₂, slice_length (by omega)]
  refine ⟨⟨⟨w₁, slice genes 64 72, w₂, slice genes 88 90⟩⟩,
    ⟨8, 2, 2, false, w₁, slice genes 64 72, w₂, slice genes 88 90⟩, ?_, ?_, ?_⟩
  · simp [NeuralNetController.init, Layers.init, hw₁, hw₂]
  · simp [loadNeuralWeights, hw₁, hw₂]
  · intro node cones
    obtain ⟨r, hr⟩ : ∃ r, NeuralNetController.control m
        ⟨⟨w₁, slice genes 64 72, w₂, slice genes 88 90⟩⟩ cones = some r :=
      exists_layersOut m hfits₁ hfits₂ _ _ _
    refine ⟨r, hr, ?_⟩
    rw [controlNeural_agree]
    dsimp only
    rw [input_agree]
    exact congrArg (Option.map (answered node)) hr

/-- The larger network, which is given the speed. -/
theorem neuralV2_agree (m : MathLib K) {genes : List K} (h : genes.length = 322) :
    ∃ sim net, NeuralNetV2Controller.init genes = some sim ∧
      loadNeuralWeights .neuralV2 genes = some net ∧
      ∀ (node : Node K) (cones : List (SeenCone K)), ∃ r,
        sim.control m cones (some node.actualSpeed) = some r ∧
          node.controlNeural m net (cones.map toCone) = some (answered node r.1) := by
  obtain ⟨w₁, hw₁⟩ : ∃ a, reshape 17 16 (slice genes 0 272) = some a :=
    reshape_slice 0 272 (by omega) rfl
  obtain ⟨w₂, hw₂⟩ : ∃ a, reshape 16 2 (slice genes 288 320) = some a :=
    reshape_slice 288 320 (by omega) rfl
  have hfits₁ : w₁.cols = (slice genes 272 288).length := by
    rw [cols_of_reshape hw₁, slice_length (by omega)]
  have hfits₂ : w₂.cols = (slice genes 320 322).length := by
    rw [cols_of_reshape hw₂, slice_length (by omega)]
  refine ⟨⟨⟨w₁, slice genes 272 288, w₂, slice genes 320 322⟩, 0.0⟩,
    ⟨17, 4, 4, true, w₁, slice genes 272 288, w₂, slice genes 320 322⟩, ?_, ?_, ?_⟩
  · simp [NeuralNetV2Controller.init, Layers.init, hw₁, hw₂]
  · simp [loadNeuralWeights, hw₁, hw₂]
  · intro node cones
    obtain ⟨r, hr⟩ : ∃ r, NeuralNetV2Controller.control m
        ⟨⟨w₁, slice genes 272 288, w₂, slice genes 320 322⟩, 0.0⟩ cones
          (some node.actualSpeed) = some r := by
      rw [← Option.isSome_iff_exists, NeuralNetV2Controller.control, Option.isSome_map,
        Option.isSome_iff_exists]
      exact exists_layersOut m hfits₁ hfits₂ _ _ _
    refine ⟨r, hr, ?_⟩
    obtain ⟨out, hout, rfl⟩ := Option.map_eq_some_iff.mp hr
    rw [controlNeural_agree]
    dsimp only
    rw [input_agree]
    exact congrArg (Option.map (answered node)) hout

/-- **The networks that drive are those that were trained**: both answer, with the same
steer, and the same speed within the node's bounds, for any genes, cones and speed. -/
theorem networks_agree (m : MathLib K) (genes : List K) :
    (genes.length = 90 → ∃ sim net, NeuralNetController.init genes = some sim ∧
      loadNeuralWeights .neural genes = some net ∧
      ∀ (node : Node K) (cones : List (SeenCone K)), ∃ r,
        sim.control m cones = some r ∧
          node.controlNeural m net (cones.map toCone) = some (answered node r)) ∧
    (genes.length = 322 → ∃ sim net, NeuralNetV2Controller.init genes = some sim ∧
      loadNeuralWeights .neuralV2 genes = some net ∧
      ∀ (node : Node K) (cones : List (SeenCone K)), ∃ r,
        sim.control m cones (some node.actualSpeed) = some r ∧
          node.controlNeural m net (cones.map toCone) = some (answered node r.1)) :=
  ⟨neural_agree m, neuralV2_agree m⟩

end

/-- Genes that all differ. -/
noncomputable def counted (n : Nat) : List ℝ := (List.range n).map fun i => (i : ℝ) / 100

theorem counted_length (n : Nat) : (counted n).length = n := by simp [counted]

/-- Networks whose weights all differ. -/
theorem networks_agree_counted :
    (∃ sim net, NeuralNetController.init (counted 90) = some sim ∧
      loadNeuralWeights .neural (counted 90) = some net ∧
      ∀ (node : Node ℝ) (cones : List (SeenCone ℝ)), ∃ r,
        sim.control MathLib.real cones = some r ∧
          node.controlNeural MathLib.real net (cones.map toCone) = some (answered node r)) ∧
    (∃ sim net, NeuralNetV2Controller.init (counted 322) = some sim ∧
      loadNeuralWeights .neuralV2 (counted 322) = some net ∧
      ∀ (node : Node ℝ) (cones : List (SeenCone ℝ)), ∃ r,
        sim.control MathLib.real cones (some node.actualSpeed) = some r ∧
          node.controlNeural MathLib.real net (cones.map toCone) = some (answered node r.1)) :=
  ⟨(networks_agree MathLib.real (counted 90)).1 (counted_length 90),
    (networks_agree MathLib.real (counted 322)).2 (counted_length 322)⟩

end

end KartStack.ControllersAgree
