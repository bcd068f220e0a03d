import KartStack.ConePerception
import KartStack.ControllersAgree
import KartStack.SimEpisode

/-! # From the simulator to the kart

In the simulator a controller is handed what `perceive` returns.  On the other side the same
cones go through two nodes: `PerfectPerceptionNode` publishes what is in view, and
`ConeFollowerNode` takes the cones out of the message, and publishes a command.

The two hand on the same cones in different orders.  A network sorts its cones, and the
geometric controller looks for the nearest ones, so the order matters only where two cones of a
class are equally far away.  So along any line of states with no cone in the tip of the sector
the node publishes the commands of the simulator (`networks_published`), and where it is put in
the simulator's place the kart goes the way of the episode (`episode_retraced`).
-/
namespace KartStack.Python
variable {K : Type} [LinearOrder K]

theorem pairLt_iff (a b : K × K) : pairLt a b = true ↔ toLex a < toLex b := by
  rw [pairLt, Prod.Lex.toLex_lt_toLex]
  by_cases h : a.1 = b.1 <;> simp [h]

/-- **Sorting forgets the order.** -/
theorem sort_eq_of_perm {xs ys : List (K × K)} (h : xs.Perm ys) :
    Python.sort xs = Python.sort ys := by
  have hle : ∀ a b : K × K, (!pairLt b a) = true ↔ toLex a ≤ toLex b := by
    intro a b
    rw [Bool.not_eq_true', ← Bool.not_eq_true, pairLt_iff, not_lt]
  have hsorted : ∀ zs : List (K × K),
      (Python.sort zs).Pairwise fun a b => toLex a ≤ toLex b := by
    intro zs
    refine (List.pairwise_mergeSort (fun a b c => ?_) (fun a b => ?_) zs).imp
      fun {a b} hab => (hle a b).mp hab
    · rw [hle, hle, hle]
      exact le_trans
    · rw [Bool.or_eq_true, hle, hle]
      exact le_total _ _
  refine List.Perm.eq_of_pairwise (fun a b _ _ hab hba => toLex.injective (le_antisymm hab hba))
    (hsorted xs) (hsorted ys) ?_
  exact ((List.mergeSort_perm xs _).trans h).trans (List.mergeSort_perm ys _).symm

end KartStack.Python

namespace KartStack.PipelinesAgree
open KartStack.Python Sim2d ConeFollower ConePerception ControllersAgree

/-! ## Controllers of the simulator -/

section
variable {K : Type} [OfScientific K] [Add K] [Mul K] [Div K] [Neg K] [LT K] [DecidableLT K]
  [DecidableEq K]

/-- A `NeuralNetController`. -/
def neuralController (m : MathLib K) : Controller (NeuralNetController K) K where
  reset self := self.reset
  wantsSpeed := false
  control self visibleCones _ := (self.control m visibleCones).map fun r => (r, self)

/-- A `NeuralNetV2Controller`. -/
def neuralV2Controller (m : MathLib K) : Controller (NeuralNetV2Controller K) K where
  reset self := self.reset
  wantsSpeed := true
  control self visibleCones currentSpeed := self.control m visibleCones currentSpeed

end

/-! ## The order of the cones -/

section
variable {K : Type} [LinearOrder K]

/-- Distances and angles of one class. -/
def sideCones (m : MathLib K) (classId : String) (cones : List (SeenCone K)) : List (K × K) :=
  (cones.filter (·.classId = classId)).map fun cone =>
    (m.hypot cone.x cone.y, m.atan2 cone.y cone.x)

omit [LinearOrder K] in
theorem collect_foldl (m : MathLib K) (cones : List (SeenCone K))
    (seen : List (K × K) × List (K × K)) :
    cones.foldl (collect m) seen =
      (seen.1 ++ sideCones m "blue_cone" cones, seen.2 ++ sideCones m "yellow_cone" cones) := by
  induction cones generalizing seen with
  | nil => simp [sideCones]
  | cons cone cones ih =>
    rw [List.foldl_cons, ih]
    by_cases hblue : cone.classId = "blue_cone"
    · simp [collect, sideCones, hblue]
    · by_cases hyellow : cone.classId = "yellow_cone" <;>
        simp [collect, sideCones, hblue, hyellow]

/-- What a network gets of the cones does not depend on their order. -/
theorem collect_sorted (m : MathLib K) {cones cones' : List (SeenCone K)}
    (h : cones.Perm cones') :
    Python.sort (cones.foldl (collect m) ([], [])).1 =
        Python.sort (cones'.foldl (collect m) ([], [])).1 ∧
      Python.sort (cones.foldl (collect m) ([], [])).2 =
        Python.sort (cones'.foldl (collect m) ([], [])).2 := by
  have hside : ∀ classId, (sideCones m classId cones).Perm (sideCones m classId cones') :=
    fun classId => (h.filter _).map _
  simp only [collect_foldl, List.nil_append]
  exact ⟨sort_eq_of_perm (hside _), sort_eq_of_perm (hside _)⟩

variable [OfScientific K] [Add K] [Mul K] [Div K] [Neg K]

theorem neural_perm (m : MathLib K) (net : NeuralNetController K)
    {cones cones' : List (SeenCone K)} (h : cones.Perm cones') :
    net.control m cones = net.control m cones' := by
  obtain ⟨hblue, hyellow⟩ := collect_sorted m h
  simp only [NeuralNetController.control, hblue, hyellow]

theorem neuralV2_perm (m : MathLib K) (net : NeuralNetV2Controller K) (speed : Option K)
    {cones cones' : List (SeenCone K)} (h : cones.Perm cones') :
    net.control m cones speed = net.control m cones' speed := by
  obtain ⟨hblue, hyellow⟩ := collect_sorted m h
  simp only [NeuralNetV2Controller.control, hblue, hyellow]

/-! ## The nearest cones -/

omit [OfScientific K] [Add K] [Mul K] [Div K] [Neg K]

/-- The nearer one of a cone and the nearest so far. -/
def closer (dist : K) (p : K × K) (best : Option (K × K) × K) : Option (K × K) × K :=
  if dist < best.2 then (some p, dist) else best

theorem closer_comm {d d' : K} {p p' : K × K} (h : d = d' → p = p')
    (best : Option (K × K) × K) :
    closer d p (closer d' p' best) = closer d' p' (closer d p best) := by
  simp only [closer]
  rcases lt_trichotomy d d' with hlt | rfl | hlt
  · by_cases hbest : d' < best.2
    · simp [hbest, hlt, hlt.trans hbest, hlt.not_gt]
    · by_cases hd : d < best.2 <;> simp [hbest, hd, hlt.not_gt]
  · rw [h rfl]
  · by_cases hbest : d < best.2
    · simp [hbest, hlt, hlt.trans hbest, hlt.not_gt]
    · by_cases hd : d' < best.2 <;> simp [hbest, hd, hlt.not_gt]

/-- Cones of one class that are equally far away are in one place. -/
def NoTies (m : MathLib K) (cones : List (SeenCone K)) : Prop :=
  ∀ cone ∈ cones, ∀ cone' ∈ cones, cone.classId = cone'.classId →
    m.hypot cone.x cone.y = m.hypot cone'.x cone'.y → (cone.x, cone.y) = (cone'.x, cone'.y)

variable [OfScientific K]

/-- What the loop of the geometric controller does with a cone. -/
theorem look_cases (m : MathLib K) (sim : GeometricController K) (cone : SeenCone K) :
    (∀ n, sim.look m n cone = n) ∨
    (cone.classId = "blue_cone" ∧ ∀ n, sim.look m n cone =
      let b := closer (m.hypot cone.x cone.y) (cone.x, cone.y) (n.nearestBlue, n.minBd)
      ⟨b.1, n.nearestYellow, b.2, n.minYd⟩) ∨
    (cone.classId = "yellow_cone" ∧ ∀ n, sim.look m n cone =
      let y := closer (m.hypot cone.x cone.y) (cone.x, cone.y) (n.nearestYellow, n.minYd)
      ⟨n.nearestBlue, y.1, n.minBd, y.2⟩) := by
  unfold GeometricController.look
  by_cases hbehind : cone.x < 0.5
  · exact Or.inl fun n => by simp only [hbehind, if_true]
  by_cases hfar : sim.lookaheadMax < m.hypot cone.x cone.y
  · exact Or.inl fun n => by simp only [hbehind, hfar, if_true, if_false]
  by_cases hblue : cone.classId = "blue_cone"
  · refine Or.inr (Or.inl ⟨hblue, fun n => ?_⟩)
    by_cases hnear : m.hypot cone.x cone.y < n.minBd <;>
      simp [hbehind, hfar, hblue, hnear, closer]
  by_cases hyellow : cone.classId = "yellow_cone"
  · refine Or.inr (Or.inr ⟨hyellow, fun n => ?_⟩)
    by_cases hnear : m.hypot cone.x cone.y < n.minYd <;>
      simp [hbehind, hfar, hyellow, hnear, closer]
  · exact Or.inl fun n => by simp [hbehind, hfar, hblue, hyellow]

theorem look_comm (m : MathLib K) (sim : GeometricController K) {cone cone' : SeenCone K}
    (h : cone.classId = cone'.classId → m.hypot cone.x cone.y = m.hypot cone'.x cone'.y →
      (cone.x, cone.y) = (cone'.x, cone'.y)) (n : Sim2d.Nearest K) :
    sim.look m (sim.look m n cone) cone' = sim.look m (sim.look m n cone') cone := by
  rcases look_cases m sim cone with hc | ⟨hclass, hc⟩ | ⟨hclass, hc⟩ <;>
    rcases look_cases m sim cone' with hc' | ⟨hclass', hc'⟩ | ⟨hclass', hc'⟩ <;>
    simp only [hc, hc']
  · rw [closer_comm (h (hclass.trans hclass'.symm))]
  · rw [closer_comm (h (hclass.trans hclass'.symm))]

/-- **Without ties** the nearest cones do not depend on the order. -/
theorem look_foldl_perm (m : MathLib K) (sim : GeometricController K)
    {cones cones' : List (SeenCone K)} (h : cones.Perm cones') (hties : NoTies m cones)
    (n : Sim2d.Nearest K) : cones.foldl (sim.look m) n = cones'.foldl (sim.look m) n :=
  h.foldl_eq' (fun cone hcone cone' hcone' => look_comm m sim (hties cone hcone cone' hcone')) n

variable [Add K] [Sub K] [Mul K] [Div K] [Neg K]

theorem geometric_perm (m : MathLib K) (inf : K) (sim : GeometricController K)
    {cones cones' : List (SeenCone K)} (h : cones.Perm cones') (hties : NoTies m cones) :
    sim.control m inf cones = sim.control m inf cones' := by
  simp only [GeometricController.control, look_foldl_perm m sim h hties]

end

/-! ## The cones on both sides -/

/-- No cone is in the tip of the sector. -/
def NoTip (cones : List (WorldCone ℝ)) (state : KartState ℝ) : Prop :=
  ∀ cone ∈ cones, ¬ InTip (relative MathLib.real state (cone.x, cone.y))

/-- A cone of the node, as the simulator has it. -/
def ofCone (cone : Cone ℝ) : SeenCone ℝ := ⟨cone.classId, cone.fwd, cone.left, 0.0⟩

theorem perceive_z {m : MathLib ℝ} {state : KartState ℝ} {blue yellow orange : List (ℝ × ℝ)}
    {noiseStd dropout : ℝ} {draw : Nat → ℝ × ℝ × ℝ} :
    ∀ cone ∈ perceive m state blue yellow orange noiseStd dropout draw, cone.z = 0.0 := by
  intro cone hcone
  obtain ⟨c, -, hc⟩ := List.mem_filterMap.mp hcone
  split_ifs at hc <;> obtain rfl := Option.some.inj hc <;> rfl

theorem ahead_of_mem {m : MathLib ℝ} {detections : List (Detection ℝ)} {cone : Cone ℝ}
    (h : cone ∈ detectedCones m detections) : ¬ cone.fwd < 0.5 := by
  obtain ⟨det, -, hdet⟩ := List.mem_filterMap.mp h
  unfold detectedCone at hdet
  split at hdet
  · cases hdet
  · simp only at hdet
    split_ifs at hdet with hbehind
    obtain rfl := Option.some.inj hdet
    exact hbehind

section
variable {blue yellow orange : List (ℝ × ℝ)} {cones : List (WorldCone ℝ)}

/-- **The node's controller is handed the simulator's cones**, in another order. -/
theorem received_perm (hcones : (cones.map WorldCone.place).Perm (places blue yellow orange))
    {state : KartState ℝ} (htip : NoTip cones state) (draw : Nat → ℝ × ℝ × ℝ) :
    ∃ seen, (perceive MathLib.real state blue yellow orange 0.0 0.0 draw).Perm seen ∧
      detectedCones MathLib.real ((PerceptionNode.declared MathLib.real state
        cones).publish MathLib.real) = seen.map toCone ∧
      ∀ cone ∈ seen, ¬ cone.x < 0.5 := by
  refine ⟨(detectedCones MathLib.real ((PerceptionNode.declared MathLib.real state
    cones).publish MathLib.real)).map ofCone, ?_, ?_, ?_⟩
  · have htriples := (seen_perm_iff state hcones draw).mpr fun cone hcone hmask hbehind => by
      obtain ⟨hlo, hhi, hview⟩ := (mask_iff _).mp hmask
      exact htip cone hcone ⟨hlo, hhi, hview, hbehind⟩
    have hback := htriples.map fun t : String × ℝ × ℝ =>
      (⟨t.1, t.2.1, t.2.2, 0.0⟩ : SeenCone ℝ)
    rw [List.map_map, List.map_map] at hback
    refine (List.Perm.of_eq ?_).trans hback
    refine ((List.map_congr_left fun cone hcone => ?_).trans (List.map_id _)).symm
    have hz := perceive_z cone hcone
    cases cone
    subst hz
    rfl
  · rw [List.map_map]
    exact (List.map_id _).symm
  · intro cone hcone
    obtain ⟨cone, hmem, rfl⟩ := List.mem_map.mp hcone
    exact ahead_of_mem hmem

end

/-! ## The pipelines -/

/-- Where the kart is when a command is due, the odometry message, and the time. -/
structure Tick where
  state : KartState ℝ
  vx : ℝ
  vy : ℝ
  now : ℝ

/-- What the nodes make of it: `_on_odom`, `_publish` and `_on_detections`. -/
noncomputable def publishTick (inf : ℝ) (cones : List (WorldCone ℝ)) (node : Node ℝ)
    (tick : Tick) : Option (Twist ℝ × Node ℝ) :=
  (node.onOdom MathLib.real tick.vx tick.vy).onDetections MathLib.real inf tick.now
    ((PerceptionNode.declared MathLib.real tick.state cones).publish MathLib.real)

/-- The commands the node publishes, if no callback raises. -/
noncomputable def published (inf : ℝ) (cones : List (WorldCone ℝ)) :
    Node ℝ → List Tick → Option (List (Twist ℝ))
  | _, [] => some []
  | node, tick :: ticks => do
    let (cmd, node) ← publishTick inf cones node tick
    return cmd :: (← published inf cones node ticks)

section
variable {S : Type}

/-- A pass of `run_episode` as far as the command: what is seen, and steer and speed. -/
noncomputable def simulateTick (ctrl : Controller S ℝ) (blue yellow orange : List (ℝ × ℝ))
    (s : S) (state : KartState ℝ) : Option ((List (SeenCone ℝ) × ℝ × ℝ) × S) :=
  let visible := perceive MathLib.real state blue yellow orange 0.0 0.0 fun _ => 0
  (ctrl.control s visible (if ctrl.wantsSpeed then some state.speed else none)).map fun r =>
    ((visible, r.1), r.2)

/-- The commands of the simulator's controller, if no call raises. -/
noncomputable def simulated (ctrl : Controller S ℝ) (blue yellow orange : List (ℝ × ℝ)) :
    S → List (KartState ℝ) → Option (List (List (SeenCone ℝ) × ℝ × ℝ))
  | _, [] => some []
  | s, state :: states => do
    let (cmd, s) ← simulateTick ctrl blue yellow orange s state
    return cmd :: (← simulated ctrl blue yellow orange s states)

variable {ctrl : Controller S ℝ} {blue yellow orange : List (ℝ × ℝ)}
  {cones : List (WorldCone ℝ)} {inf : ℝ}

theorem simulateTick_eq_some {s : S} {state : KartState ℝ} {r : (ℝ × ℝ) × S}
    (h : ctrl.control s (perceive MathLib.real state blue yellow orange 0.0 0.0 fun _ => 0)
      (if ctrl.wantsSpeed then some state.speed else none) = some r) :
    simulateTick ctrl blue yellow orange s state =
      some ((perceive MathLib.real state blue yellow orange 0.0 0.0 fun _ => 0, r.1), r.2) := by
  rw [simulateTick]
  exact congrArg (Option.map _) h

/-- **From one tick to all.** -/
theorem published_of_step {R : S → Node ℝ → Prop} {G : Tick → Prop}
    {f : List (SeenCone ℝ) × ℝ × ℝ → Twist ℝ}
    (hstep : ∀ s node tick, R s node → G tick →
      ∃ cmd s' node', simulateTick ctrl blue yellow orange s tick.state = some (cmd, s') ∧
        publishTick inf cones node tick = some (f cmd, node') ∧ R s' node')
    {s : S} {node : Node ℝ} (h : R s node) {ticks : List Tick} (hgood : ∀ tick ∈ ticks, G tick) :
    ∃ cmds, simulated ctrl blue yellow orange s (ticks.map (·.state)) = some cmds ∧
      published inf cones node ticks = some (cmds.map f) := by
  induction ticks generalizing s node with
  | nil => exact ⟨[], rfl, rfl⟩
  | cons tick ticks ih =>
    obtain ⟨htick, hrest⟩ := List.forall_mem_cons.mp hgood
    obtain ⟨cmd, s', node', hsim, hpub, hnext⟩ := hstep s node tick h htick
    obtain ⟨cmds, hsims, hpubs⟩ := ih hnext hrest
    exact ⟨cmd :: cmds, by simp [simulated, hsim, hsims], by simp [published, hpub, hpubs]⟩

end

/-! ## The networks -/

/-- A node whose network answers, before a message that comes at the time `now`. -/
theorem onDetections_network {m : MathLib ℝ} {node : Node ℝ} {net : NeuralNet ℝ}
    (h : node.net = some net) (inf now : ℝ) {detections : List (Detection ℝ)} {r : ℝ × ℝ}
    (hr : ({ node with lastDetectionTime := now } : Node ℝ).controlNeural m net
      (detectedCones m detections) = some (answered { node with lastDetectionTime := now } r)) :
    node.onDetections m inf now detections =
      some (if (detectedCones m detections).isEmpty then ⟨node.params.minSpeed, r.1⟩
        else ⟨(clamped node.params r).2, r.1⟩,
        { node with lastDetectionTime := now, lastSteer := r.1 }) := by
  simp only [Node.onDetections, h] at hr ⊢
  rw [hr]
  rfl

/-- The command for steer and speed of a network: the speed within the bounds of the node, and
the least one while no cone is in view. -/
noncomputable def networkTwist (params : Params ℝ) (r : List (SeenCone ℝ) × ℝ × ℝ) : Twist ℝ :=
  ⟨if r.1.isEmpty then params.minSpeed else (clamped params r.2).2, r.2.1⟩

section
variable {blue yellow orange : List (ℝ × ℝ)} {cones : List (WorldCone ℝ)} {inf : ℝ}

/-- A node with a network publishes what the network says. -/
theorem publishTick_network (inf : ℝ) {node : Node ℝ} {net : NeuralNet ℝ}
    (hnet : node.net = some net)
    (hcones : (cones.map WorldCone.place).Perm (places blue yellow orange)) {tick : Tick}
    (htip : NoTip cones tick.state) {answer : List (SeenCone ℝ) → Option (ℝ × ℝ)}
    (hperm : ∀ cones cones', List.Perm cones cones' → answer cones = answer cones')
    (hout : ∀ (node' : Node ℝ) (cones : List (SeenCone ℝ)),
      node'.actualSpeed = √(tick.vx * tick.vx + tick.vy * tick.vy) → ∃ r, answer cones = some r ∧
        node'.controlNeural MathLib.real net (cones.map toCone) = some (answered node' r)) :
    let visible := perceive MathLib.real tick.state blue yellow orange 0.0 0.0 fun _ => 0
    ∃ r node', answer visible = some r ∧
      publishTick inf cones node tick = some (networkTwist node.params (visible, r), node') ∧
      node'.net = some net ∧ node'.params = node.params := by
  obtain ⟨seen, hseen, hdetected, -⟩ := received_perm hcones htip fun _ => 0
  have hempty := hseen.isEmpty_eq
  rw [← List.isEmpty_map (f := toCone) (l := seen)] at hempty
  let odom : Node ℝ := node.onOdom MathLib.real tick.vx tick.vy
  obtain ⟨r, hr, hcontrol⟩ := hout { odom with lastDetectionTime := tick.now } seen rfl
  refine ⟨r, { odom with lastDetectionTime := tick.now, lastSteer := r.1 },
    (hperm _ _ hseen).trans hr, ?_, hnet, rfl⟩
  rw [← hdetected] at hcontrol
  have hodom : odom.net = some net := hnet
  rw [publishTick, onDetections_network hodom inf tick.now hcontrol, hdetected, networkTwist,
    hempty]
  cases (seen.map toCone).isEmpty <;> rfl

theorem neural_published (hcones : (cones.map WorldCone.place).Perm (places blue yellow orange))
    (params : Params ℝ) (t₀ : ℝ) {genes : List ℝ} (hgenes : genes.length = 90) {ticks : List Tick}
    (htip : ∀ tick ∈ ticks, NoTip cones tick.state) :
    ∃ sim node cmds, NeuralNetController.init genes = some sim ∧
      Node.init params .neural (some genes) t₀ = some node ∧
      simulated (neuralController MathLib.real) blue yellow orange sim
        (ticks.map (·.state)) = some cmds ∧
      published inf cones node ticks = some (cmds.map (networkTwist params)) := by
  obtain ⟨sim, net, hsim, hnet, hagree⟩ := neural_agree MathLib.real hgenes
  have hstep : ∀ s node tick, (s = sim ∧ node.net = some net ∧ node.params = params) →
      NoTip cones tick.state → ∃ cmd s' node',
        simulateTick (neuralController MathLib.real) blue yellow orange s tick.state =
            some (cmd, s') ∧
          publishTick inf cones node tick = some (networkTwist params cmd, node') ∧
          s' = sim ∧ node'.net = some net ∧ node'.params = params := by
    rintro s node tick ⟨rfl, hnode, rfl⟩ hgood
    obtain ⟨r, node', hr, hpublish, hnext, hsame⟩ := publishTick_network inf hnode hcones hgood
      (fun _ _ hperm => neural_perm MathLib.real s hperm) fun node' cones _ => hagree node' cones
    have hcontrol := congrArg (Option.map fun r => (r, s)) hr
    exact ⟨_, s, node', simulateTick_eq_some (r := (r, s)) hcontrol, hpublish, rfl, hnext, hsame⟩
  have hstart : sim = sim ∧ (⟨params, some net, 0.0, 0.0, t₀⟩ : Node ℝ).net = some net ∧
      (⟨params, some net, 0.0, 0.0, t₀⟩ : Node ℝ).params = params := ⟨rfl, rfl, rfl⟩
  obtain ⟨cmds, hcmds, hpublished⟩ := published_of_step hstep hstart htip
  exact ⟨sim, ⟨params, some net, 0.0, 0.0, t₀⟩, cmds, hsim, by simp [Node.init, hnet], hcmds,
    hpublished⟩

/-- The speed of the last call is not read where one is passed. -/
theorem neuralV2_fst {m : MathLib ℝ} {s sim : NeuralNetV2Controller ℝ} (h : s.layers = sim.layers)
    (cones : List (SeenCone ℝ)) (speed : ℝ) :
    (s.control m cones (some speed)).map Prod.fst =
      (sim.control m cones (some speed)).map Prod.fst := by
  simp only [NeuralNetV2Controller.control, h, Option.getD_some, Option.map_map,
    Function.comp_def]

theorem neuralV2_layers {m : MathLib ℝ} {s : NeuralNetV2Controller ℝ} {cones : List (SeenCone ℝ)}
    {speed : Option ℝ} {r : (ℝ × ℝ) × NeuralNetV2Controller ℝ}
    (h : s.control m cones speed = some r) : r.2.layers = s.layers := by
  obtain ⟨out, -, rfl⟩ := Option.map_eq_some_iff.mp h
  rfl

theorem neuralV2_published (hcones : (cones.map WorldCone.place).Perm (places blue yellow orange))
    (params : Params ℝ) (t₀ : ℝ) {genes : List ℝ} (hgenes : genes.length = 322)
    {ticks : List Tick} (htip : ∀ tick ∈ ticks, NoTip cones tick.state)
    (hspeed : ∀ tick ∈ ticks, tick.state.speed = √(tick.vx * tick.vx + tick.vy * tick.vy)) :
    ∃ sim node cmds, NeuralNetV2Controller.init genes = some sim ∧
      Node.init params .neuralV2 (some genes) t₀ = some node ∧
      simulated (neuralV2Controller MathLib.real) blue yellow orange sim
        (ticks.map (·.state)) = some cmds ∧
      published inf cones node ticks = some (cmds.map (networkTwist params)) := by
  obtain ⟨sim, net, hsim, hnet, hagree⟩ := neuralV2_agree MathLib.real hgenes
  have hstep : ∀ s node tick,
      (s.layers = sim.layers ∧ node.net = some net ∧ node.params = params) →
      (NoTip cones tick.state ∧ tick.state.speed = √(tick.vx * tick.vx + tick.vy * tick.vy)) →
      ∃ cmd s' node',
        simulateTick (neuralV2Controller MathLib.real) blue yellow orange s tick.state =
            some (cmd, s') ∧
          publishTick inf cones node tick = some (networkTwist params cmd, node') ∧
          s'.layers = sim.layers ∧ node'.net = some net ∧ node'.params = params := by
    rintro s node tick ⟨hs, hnode, rfl⟩ ⟨hgood, hv⟩
    obtain ⟨r, node', hr, hpublish, hnext, hsame⟩ := publishTick_network inf hnode hcones hgood
      (fun cones cones' hperm => congrArg (Option.map Prod.fst)
        (neuralV2_perm MathLib.real s (some tick.state.speed) hperm))
      fun node' cones hspeed' => by
        obtain ⟨r, hr, hcontrol⟩ := hagree node' cones
        refine ⟨r.1, ?_, hcontrol⟩
        rw [hspeed', ← hv] at hr
        exact (neuralV2_fst hs cones tick.state.speed).trans (congrArg (Option.map Prod.fst) hr)
    obtain ⟨⟨r, s'⟩, hcontrol, rfl⟩ := Option.map_eq_some_iff.mp hr
    exact ⟨_, s', node', simulateTick_eq_some hcontrol, hpublish,
      (neuralV2_layers hcontrol).trans hs, hnext, hsame⟩
  have hstart : sim.layers = sim.layers ∧
      (⟨params, some net, 0.0, 0.0, t₀⟩ : Node ℝ).net = some net ∧
      (⟨params, some net, 0.0, 0.0, t₀⟩ : Node ℝ).params = params := ⟨rfl, rfl, rfl⟩
  obtain ⟨cmds, hcmds, hpublished⟩ := published_of_step hstep hstart
    fun tick htick => ⟨htip tick htick, hspeed tick htick⟩
  exact ⟨sim, ⟨params, some net, 0.0, 0.0, t₀⟩, cmds, hsim, by simp [Node.init, hnet], hcmds,
    hpublished⟩

/-- **The node publishes what the simulator's networks command**, along any line of states with
no cone in the tip of the sector. -/
theorem networks_published
    (hcones : (cones.map WorldCone.place).Perm (places blue yellow orange)) (params : Params ℝ)
    (t₀ : ℝ) (genes : List ℝ) {ticks : List Tick}
    (htip : ∀ tick ∈ ticks, NoTip cones tick.state)
    (hspeed : ∀ tick ∈ ticks, tick.state.speed = √(tick.vx * tick.vx + tick.vy * tick.vy)) :
    (genes.length = 90 → ∃ sim node cmds, NeuralNetController.init genes = some sim ∧
      Node.init params .neural (some genes) t₀ = some node ∧
      simulated (neuralController MathLib.real) blue yellow orange sim
        (ticks.map (·.state)) = some cmds ∧
      published inf cones node ticks = some (cmds.map (networkTwist params))) ∧
    (genes.length = 322 → ∃ sim node cmds, NeuralNetV2Controller.init genes = some sim ∧
      Node.init params .neuralV2 (some genes) t₀ = some node ∧
      simulated (neuralV2Controller MathLib.real) blue yellow orange sim
        (ticks.map (·.state)) = some cmds ∧
      published inf cones node ticks = some (cmds.map (networkTwist params))) :=
  ⟨fun hgenes => neural_published hcones params t₀ hgenes htip,
    fun hgenes => neuralV2_published hcones params t₀ hgenes htip hspeed⟩

/-! ## The geometric controller -/

/-- A node without a network, before a message that comes at the time `now`. -/
theorem onDetections_geometric {node : Node ℝ} (h : node.net = none) (m : MathLib ℝ)
    (inf now : ℝ) (detections : List (Detection ℝ)) :
    node.onDetections m inf now detections =
      let r := ({ node with lastDetectionTime := now } : Node ℝ).controlGeometric m inf
        (detectedCones m detections)
      some (if (detectedCones m detections).isEmpty then ⟨r.2.params.minSpeed, r.2.lastSteer⟩
        else ⟨r.1.2, r.1.1⟩, r.2) := by
  simp only [Node.onDetections, h]
  rfl

theorem controlGeometric_net {m : MathLib ℝ} {node : Node ℝ} (cones : List (Cone ℝ)) :
    (node.controlGeometric m inf cones).2.net = node.net := by
  unfold Node.controlGeometric
  split <;> rfl

/-- A tuned node without a network publishes what the geometric controller commands. -/
theorem publishTick_geometric (inf : ℝ) (tick : Tick) {sim : GeometricController ℝ}
    {node : Node ℝ} (ht : Tuned sim node) (hnet : node.net = none)
    (hcones : (cones.map WorldCone.place).Perm (places blue yellow orange))
    (htip : NoTip cones tick.state)
    (hties : NoTies MathLib.real
      (perceive MathLib.real tick.state blue yellow orange 0.0 0.0 fun _ => 0)) :
    let r := sim.control MathLib.real inf
      (perceive MathLib.real tick.state blue yellow orange 0.0 0.0 fun _ => 0)
    ∃ node', publishTick inf cones node tick = some (⟨r.1.2, r.1.1⟩, node') ∧
      Tuned r.2 node' ∧ node'.net = none := by
  obtain ⟨seen, hseen, hdetected, hahead⟩ := received_perm hcones htip fun _ => 0
  rw [geometric_perm MathLib.real inf sim hseen hties]
  let node' : Node ℝ :=
    { node.onOdom MathLib.real tick.vx tick.vy with lastDetectionTime := tick.now }
  have ht' : Tuned sim node' := ⟨ht.steeringGain, ht.maxSteer, ht.maxSpeed, ht.minSpeed,
    ht.lookaheadMax, ht.speedCurveFactor, ht.halfTrackWidth, ht.lastSteer⟩
  obtain ⟨hout, hnext⟩ := control_agree MathLib.real inf ht' hahead
  refine ⟨_, ?_, hnext, (controlGeometric_net _).trans hnet⟩
  have hodom : (node.onOdom MathLib.real tick.vx tick.vy).net = none := hnet
  rw [publishTick, onDetections_geometric hodom, hdetected]
  refine congrArg some (Prod.ext ?_ rfl)
  cases seen with
  | nil =>
    -- blind, both go on with the last steer at the least speed
    show (⟨node.params.minSpeed, node.lastSteer⟩ : Twist ℝ) = ⟨sim.minSpeed, sim.lastSteer⟩
    rw [ht.minSpeed, ht.lastSteer]
  | cons cone seen =>
    show (⟨_, _⟩ : Twist ℝ) = _
    rw [hout]

end

/-! ## The node in the simulator's place -/

/-- The states the kart comes to from a state, if the node's commands drive it at these times. -/
noncomputable def retraced (tan : ℝ → ℝ) (inf : ℝ) (cones : List (WorldCone ℝ)) :
    Node ℝ → KartState ℝ → List ℝ → Option (List (KartState ℝ))
  | _, _, [] => some []
  | node, state, now :: nows => do
    let (cmd, node) ← publishTick inf cones node ⟨state, state.speed, 0, now⟩
    let state := kartStep MathLib.real tan state cmd.angularZ cmd.linearX
    return state :: (← retraced tan inf cones node state nows)

/-- Without noise and dropout nothing drawn matters. -/
theorem perceive_quiet (state : KartState ℝ) (blue yellow orange : List (ℝ × ℝ))
    (draw draw' : Nat → ℝ × ℝ × ℝ) :
    perceive MathLib.real state blue yellow orange 0.0 0.0 draw =
      perceive MathLib.real state blue yellow orange 0.0 0.0 draw' := by
  unfold perceive
  simp only [lt_irrefl, false_and, if_false]

/-- What is asked of a state: no cone in the tip of the sector, and no ties. -/
def Clearcut (track : Track ℝ) (cones : List (WorldCone ℝ)) (state : KartState ℝ) : Prop :=
  NoTip cones state ∧ NoTies MathLib.real (perceive MathLib.real state track.blueCones
    track.yellowCones track.orangeCones 0.0 0.0 fun _ => 0)

section
variable {tan : ℝ → ℝ} {inf : ℝ} {track : Track ℝ} {cones : List (WorldCone ℝ)}

theorem retraced_of_loop (hcones : (cones.map WorldCone.place).Perm
      (places track.blueCones track.yellowCones track.orangeCones))
    {e : EpisodeState (GeometricController ℝ) ℝ} {draws : List (StepDraws ℝ)}
    {es : List (EpisodeState (GeometricController ℝ) ℝ)}
    (h : episodeLoop MathLib.real tan (geometricController MathLib.real inf) 0.0 0.0 track e
      draws = some es)
    {node : Node ℝ} (ht : Tuned e.controller node) (hnet : node.net = none)
    (hclear : ∀ e' ∈ (e :: es).dropLast, Clearcut track cones e'.state) {nows : List ℝ}
    (hnows : nows.length = es.length) :
    retraced tan inf cones node e.state nows = some (es.map (·.state)) := by
  induction draws generalizing e es node nows with
  | nil =>
    obtain rfl := Option.some.inj h
    obtain rfl := List.eq_nil_of_length_eq_zero hnows
    rfl
  | cons draw draws ih =>
    obtain ⟨e', outside, rest, hstep, rfl, hrest⟩ := episodeLoop_cons h
    obtain ⟨r, hr, hstate, hcontroller⟩ := driven_of_episodeStep hstep
    obtain rfl := Option.some.inj hr
    rw [perceive_quiet _ _ _ _ draw fun _ => 0] at hstate hcontroller
    obtain ⟨now, nows, rfl⟩ := List.exists_cons_of_length_eq_add_one hnows
    rw [List.dropLast_cons_of_ne_nil (List.cons_ne_nil _ _), List.forall_mem_cons] at hclear
    obtain ⟨⟨htip, hties⟩, hclear⟩ := hclear
    obtain ⟨node', hpublish, hnext, hnet'⟩ := publishTick_geometric inf
      ⟨e.state, e.state.speed, 0, now⟩ ht hnet hcones htip hties
    have hrest' : retraced tan inf cones node' e'.state nows = some (rest.map (·.state)) := by
      rcases hrest with ⟨-, rfl⟩ | ⟨-, hrest⟩
      · rw [List.eq_nil_of_length_eq_zero (Nat.succ_injective hnows)]
        rfl
      · exact ih hrest (hcontroller ▸ hnext) hnet' hclear (Nat.succ_injective hnows)
    simp only [retraced, hpublish, Option.bind_eq_bind, Option.bind_some, List.map_cons]
    rw [← hstate, hrest']
    rfl

/-- **The episode again.**  With the node in the place of the geometric controller the kart goes
the way of the episode, as long as no cone is in the tip of the sector and none are tied. -/
theorem episode_retraced {settings : Settings (Track ℝ) ℝ} (hnoise : settings.noiseStd = 0)
    (hdropout : settings.dropout = 0)
    (hcones : (cones.map WorldCone.place).Perm (places settings.track.blueCones
      settings.track.yellowCones settings.track.orangeCones))
    {inf' : ℝ} {controller : GeometricController ℝ} {draws : Nat → StepDraws ℝ}
    {e : EpisodeState (GeometricController ℝ) ℝ}
    {es : List (EpisodeState (GeometricController ℝ) ℝ)}
    (h : episodeStates MathLib.real tan (geometricController MathLib.real inf) inf' settings
      controller draws = some (e :: es))
    {node : Node ℝ} (ht : Tuned { controller with lastSteer := 0.0 } node) (hnet : node.net = none)
    (hclear : ∀ e' ∈ (e :: es).dropLast, Clearcut settings.track cones e'.state)
    {nows : List ℝ} (hnows : nows.length = es.length) :
    retraced tan inf cones node e.state nows = some (es.map (·.state)) := by
  obtain ⟨_, _, hstart, hloop, hcons⟩ := episodeStates_eq h
  obtain ⟨rfl, rfl⟩ := List.cons.inj hcons
  have hzero : (0 : ℝ) = 0.0 := by norm_num
  rw [hnoise, hdropout, hzero] at hloop
  refine retraced_of_loop hcones hloop ?_ hnet hclear hnows
  obtain ⟨sPrev, -, rfl⟩ := startEpisode_eq hstart
  exact ht

end

/-! ## On a lane -/

/-- A cone on each side ahead of the kart, and two out of its sight. -/
noncomputable def laneTrack : Track ℝ where
  name := "lane".toList
  blueCones := [(3.0, 1), (20.0, 1)]
  yellowCones := [(3.0, -1), (20.0, -1)]
  orangeCones := []
  spawnX := 0
  spawnY := 0
  spawnYaw := 0
  halfTrackWidth := 1
  centerlineXy := [(0, 0), (3.0, 0)]
  centerlineS := [0, 3.0]
  trackLength := 6.0

/-- Its cones in a world file. -/
noncomputable def laneCones : List (WorldCone ℝ) :=
  [⟨"yellow_cone", 20.0, -1, 0⟩, ⟨"blue_cone", 3.0, 1, 0⟩, ⟨"blue_cone", 20.0, 1, 0⟩,
    ⟨"yellow_cone", 3.0, -1, 0⟩]

theorem perm_laneCones : (laneCones.map WorldCone.place).Perm
    (places laneTrack.blueCones laneTrack.yellowCones laneTrack.orangeCones) := by
  simp only [laneCones, places, laneTrack, WorldCone.place, List.map_cons, List.map_nil,
    List.append_nil]
  exact (List.perm_append_singleton ("yellow_cone", (20.0 : ℝ), -1) [_, _, _]).symm

/-- The kart is near the spawn. -/
structure NearSpawn (state : KartState ℝ) : Prop where
  x : |state.x| ≤ 1 / 10
  y : |state.y| ≤ 1 / 10
  yaw : |state.yaw| ≤ 1 / 10

/-- How far ahead a cone of the lane is. -/
theorem NearSpawn.forward {state : KartState ℝ} (h : NearSpawn state) {far side : ℝ}
    (hfar : 2 ≤ far) (hside : |side| ≤ 1) :
    9 / 10 * far - 1 ≤ (relative MathLib.real state (far, side)).1 := by
  have hcos : 1 - state.yaw ^ 2 / 2 ≤ Real.cos state.yaw := Real.one_sub_sq_div_two_le_cos
  have hsin : |Real.sin state.yaw| ≤ 1 / 10 := Real.abs_sin_le_abs.trans h.yaw
  have hyawSq : state.yaw ^ 2 ≤ (1 / 10) ^ 2 :=
    sq_le_sq' (abs_le.mp h.yaw).1 (abs_le.mp h.yaw).2
  have hcircle := Real.sin_sq_add_cos_sq state.yaw
  have hdrift : |(side - state.y) * Real.sin state.yaw| ≤ 11 / 10 * (1 / 10) := by
    rw [abs_mul]
    exact mul_le_mul ((abs_sub _ _).trans (by linarith [h.y])) hsin (abs_nonneg _) (by norm_num)
  have hx := abs_le.mp h.x
  have hfront : (far - 1 / 10) * (199 / 200) ≤ (far - state.x) * Real.cos state.yaw :=
    mul_le_mul (by linarith) (by linarith) (by norm_num) (by linarith)
  have hback := (abs_le.mp hdrift).1
  calc 9 / 10 * far - 1
      ≤ (far - state.x) * Real.cos state.yaw + (side - state.y) * Real.sin state.yaw - 0.55 := by
        norm_num
        linarith
    _ = (relative MathLib.real state (far, side)).1 := by
        simp only [relative, cameraOffset, MathLib.real]
        linear_combination 0.55 * hcircle

theorem NearSpawn.noTip {state : KartState ℝ} (h : NearSpawn state) : NoTip laneCones state := by
  have hahead : ∀ far side : ℝ, 2 ≤ far → |side| ≤ 1 →
      ¬ InTip (relative MathLib.real state (far, side)) := by
    rintro far side hfar hside ⟨-, -, -, htip⟩
    have := h.forward hfar hside
    linarith
  intro cone hcone
  simp only [laneCones, List.mem_cons, List.not_mem_nil, or_false] at hcone
  rcases hcone with rfl | rfl | rfl | rfl <;>
    exact hahead _ _ (by norm_num) (by norm_num)

/-- The far cones are out of sight. -/
theorem NearSpawn.not_mask {state : KartState ℝ} (h : NearSpawn state) {side : ℝ}
    (hside : |side| ≤ 1) : ¬ mask MathLib.real (relative MathLib.real state (20.0, side)) = true := by
  intro hmask
  obtain ⟨-, hdist, -⟩ := (mask_iff _).mp hmask
  have hfar : 9 / 10 * 20.0 - 1 ≤ (relative MathLib.real state (20.0, side)).1 :=
    h.forward (by norm_num) hside
  have hle := Real.le_sqrt_of_sq_le (x := (relative MathLib.real state (20.0, side)).1)
    (le_add_of_nonneg_right (mul_self_nonneg (relative MathLib.real state (20.0, side)).2) |>.trans'
      (sq _).le)
  norm_num at hfar hle hdist
  linarith

/-- What is seen from near the spawn: one cone of each class at most. -/
theorem NearSpawn.seen {state : KartState ℝ} (h : NearSpawn state) :
    ∀ cone ∈ perceive MathLib.real state laneTrack.blueCones laneTrack.yellowCones
      laneTrack.orangeCones 0.0 0.0 fun _ => 0,
      seenTriple cone = seenFrom state ("blue_cone", 3.0, 1) ∨
        seenTriple cone = seenFrom state ("yellow_cone", 3.0, -1) := by
  intro cone hcone
  have htriple := List.mem_map_of_mem (f := seenTriple) hcone
  rw [perceive_exact] at htriple
  obtain ⟨hplace, hmask⟩ := List.mem_filter.mp htriple
  simp only [places, laneTrack, List.map_cons, List.map_nil, List.cons_append, List.nil_append,
    List.append_nil, List.mem_cons, List.not_mem_nil, or_false] at hplace
  rcases hplace with hplace | hplace | hplace | hplace
  · exact Or.inl hplace
  · rw [hplace] at hmask
    exact absurd hmask (h.not_mask (by norm_num))
  · exact Or.inr hplace
  · rw [hplace] at hmask
    exact absurd hmask (h.not_mask (by norm_num))

theorem NearSpawn.clearcut {state : KartState ℝ} (h : NearSpawn state) :
    Clearcut laneTrack laneCones state := by
  refine ⟨h.noTip, fun cone hcone cone' hcone' hclass _ => ?_⟩
  rcases h.seen cone hcone with hseen | hseen <;> rcases h.seen cone' hcone' with hseen' | hseen'
  · exact congrArg Prod.snd (hseen.trans hseen'.symm)
  · exact absurd ((congrArg Prod.fst hseen).symm.trans (hclass.trans (congrArg Prod.fst hseen')))
      (show "blue_cone" ≠ "yellow_cone" by decide)
  · exact absurd ((congrArg Prod.fst hseen).symm.trans (hclass.trans (congrArg Prod.fst hseen')))
      (show "yellow_cone" ≠ "blue_cone" by decide)
  · exact congrArg Prod.snd (hseen.trans hseen'.symm)

/-- A kart that sets off on the lane. -/
noncomputable def laneTicks : List Tick :=
  [⟨⟨0, 0, 0, 0⟩, 0, 0, 1⟩, ⟨⟨0.05, 0.02, 0.01, 1⟩, 1, 0, 2.0⟩,
    ⟨⟨0.1, 0.03, -0.02, 5.0⟩, 3.0, 4.0, 3.0⟩]

/-- Networks whose weights all differ, and a kart that sets off. -/
theorem networks_published_lane :
    (∃ sim node cmds, NeuralNetController.init (counted 90) = some sim ∧
      Node.init Params.declared .neural (some (counted 90)) 0 = some node ∧
      simulated (neuralController MathLib.real) laneTrack.blueCones laneTrack.yellowCones
        laneTrack.orangeCones sim (laneTicks.map (·.state)) = some cmds ∧
      published 100 laneCones node laneTicks =
        some (cmds.map (networkTwist Params.declared))) ∧
    (∃ sim node cmds, NeuralNetV2Controller.init (counted 322) = some sim ∧
      Node.init Params.declared .neuralV2 (some (counted 322)) 0 = some node ∧
      simulated (neuralV2Controller MathLib.real) laneTrack.blueCones laneTrack.yellowCones
        laneTrack.orangeCones sim (laneTicks.map (·.state)) = some cmds ∧
      published 100 laneCones node laneTicks =
        some (cmds.map (networkTwist Params.declared))) := by
  have htip : ∀ tick ∈ laneTicks, NoTip laneCones tick.state := by
    intro tick htick
    simp only [laneTicks, List.mem_cons, List.not_mem_nil, or_false] at htick
    rcases htick with rfl | rfl | rfl <;>
      exact NearSpawn.noTip ⟨by norm_num [abs_le], by norm_num [abs_le], by norm_num [abs_le]⟩
  have hspeed : ∀ tick ∈ laneTicks,
      tick.state.speed = √(tick.vx * tick.vx + tick.vy * tick.vy) := by
    intro tick htick
    simp only [laneTicks, List.mem_cons, List.not_mem_nil, or_false] at htick
    rcases htick with rfl | rfl | rfl
    · simp
    · simp
    · exact (Real.sqrt_eq_iff_mul_self_eq (by norm_num) (by norm_num)).mpr (by norm_num) |>.symm
  exact ⟨(networks_published perm_laneCones Params.declared 0 (counted 90) htip
      hspeed).1 (counted_length 90),
    (networks_published perm_laneCones Params.declared 0 (counted 322) htip
      hspeed).2 (counted_length 322)⟩

/-! ## Setting off -/

/-- How far the kart can be from the spawn after `n` steps from rest. -/
structure SetOff (n : Nat) (state : KartState ℝ) : Prop where
  forward : 0 ≤ state.speed
  speed : state.speed ≤ n / 10
  x : |state.x| ≤ n ^ 2 / 400
  y : |state.y| ≤ n ^ 2 / 400
  yaw : |state.yaw| ≤ n ^ 2 / 400

theorem abs_tan_clip (steer : ℝ) : |Real.tan (clip steer (-maxSteer) maxSteer)| ≤ 1 := by
  have hsteer : |clip steer (-maxSteer) maxSteer| ≤ 1 / 2 := by
    have hmax : (maxSteer : ℝ) = 1 / 2 := by norm_num [maxSteer]
    rw [clip, python_max, python_min, hmax, abs_le]
    exact ⟨le_min (le_max_right _ _) (by norm_num), min_le_right _ _⟩
  generalize clip steer (-maxSteer) maxSteer = s at hsteer
  have hsq : s ^ 2 ≤ (1 / 2) ^ 2 := sq_le_sq' (abs_le.mp hsteer).1 (abs_le.mp hsteer).2
  have hcos : 1 / 2 ≤ Real.cos s :=
    (by linarith : (1 : ℝ) / 2 ≤ 1 - s ^ 2 / 2).trans Real.one_sub_sq_div_two_le_cos
  rw [Real.tan_eq_sin_div_cos, abs_div, div_le_one (by rw [abs_pos]; linarith), abs_of_pos
    (by linarith : 0 < Real.cos s)]
  exact (Real.abs_sin_le_abs.trans hsteer).trans hcos

/-- **One step.** -/
theorem SetOff.step {n : Nat} {state : KartState ℝ} (h : SetOff n state) (steer speedCmd : ℝ) :
    SetOff (n + 1) (kartStep MathLib.real Real.tan state steer speedCmd) := by
  have hway : ∀ a p : ℝ, |a| ≤ 1 → |p| ≤ n ^ 2 / 400 →
      |p + state.speed * a * 0.05| ≤ (n + 1 : ℕ) ^ 2 / 400 := by
    intro a p ha hp
    have hstep : |state.speed * a * 0.05| ≤ n / 10 * 1 * 0.05 := by
      rw [abs_mul, abs_mul, abs_of_nonneg h.forward]
      norm_num
      exact mul_le_of_le_one_right h.forward ha |>.trans h.speed
    have htriangle := abs_add_le p (state.speed * a * 0.05)
    push_cast
    nlinarith
  refine ⟨?_, ?_, hway _ _ (Real.abs_cos_le_one _) h.x, hway _ _ (Real.abs_sin_le_one _) h.y, ?_⟩
  · simp only [kartStep, clip, python_max, python_min, maxSpeed]
    norm_num
  · have hspeed := h.speed
    have hforward := h.forward
    simp only [kartStep, clip, python_max, python_min, maxSpeed, maxAccel, dt]
    have hn : (0 : ℝ) ≤ n := Nat.cast_nonneg n
    refine (min_le_left _ _).trans (max_le ?_ ?_)
    · refine (add_le_add hspeed (min_le_right _ _)).trans ?_
      push_cast
      norm_num
      linarith
    · push_cast
      norm_num
      linarith
  · have htan : |Real.tan (clip steer (-maxSteer) maxSteer) / 1.05| ≤ 1 := by
      rw [abs_div, abs_of_pos (by norm_num : (0 : ℝ) < 1.05), div_le_one (by norm_num)]
      exact (abs_tan_clip steer).trans (by norm_num)
    have hyaw := hway _ _ htan h.yaw
    rw [← mul_div_assoc] at hyaw
    exact hyaw

theorem SetOff.near {n : Nat} {state : KartState ℝ} (h : SetOff n state) (hn : n ≤ 6) :
    NearSpawn state := by
  have hsq : (n : ℝ) ^ 2 / 400 ≤ 1 / 10 := by
    have hle : (n : ℝ) ≤ 6 := by exact_mod_cast hn
    have hsq := pow_le_pow_left₀ (Nat.cast_nonneg n) hle 2
    linarith
  exact ⟨h.x.trans hsq, h.y.trans hsq, h.yaw.trans hsq⟩

/-- Both edges of a side begin and end at its nearer cone: the first one counts. -/
theorem sideOfNearest_lane {x y : ℝ} (hx : x ≤ 2) (side : ℝ) :
    ∃ d, sideOfNearest MathLib.real [(3.0, side), (20.0, side)] (x, y) =
      some (d, (20.0 - 3.0) * (y - side)) := by
  have hfirst : nearestT (x, y) (((3.0 : ℝ), side), (20.0, side)) = 0 := by
    have hback : (x - 3.0) * (20.0 - 3.0) + (y - side) * (side - side) ≤ 0 := by
      norm_num
      linarith
    rw [nearestT, clip, python_max, python_min, max_eq_right]
    · exact min_eq_left zero_le_one
    · exact div_nonpos_of_nonpos_of_nonneg hback (by norm_num)
  have hsecond : nearestT (x, y) (((20.0 : ℝ), side), (3.0, side)) = 1 := by
    have hfar : (1 : ℝ) ≤ ((x - 20.0) * (3.0 - 20.0) + (y - side) * (side - side)) /
        ((3.0 - 20.0) * (3.0 - 20.0) + (side - side) * (side - side)) := by
      norm_num
      linarith
    rw [nearestT, clip, python_max, python_min, max_eq_left (zero_le_one.trans hfar)]
    exact min_eq_right hfar
  have hsame : segmentDist MathLib.real (x, y) (((20.0 : ℝ), side), (3.0, side)) =
      segmentDist MathLib.real (x, y) (((3.0 : ℝ), side), (20.0, side)) := by
    simp only [segmentDist, hfirst, hsecond]
    norm_num
  refine ⟨segmentDist MathLib.real (x, y) (((3.0 : ℝ), side), (20.0, side)), ?_⟩
  have haround : around [((3.0 : ℝ), side), (20.0, side)] =
      [((3.0, side), (20.0, side)), ((20.0, side), (3.0, side))] := rfl
  simp only [sideOfNearest, haround, List.map_cons, List.map_nil, hsame]
  simp [argmin, cross]

/-- The kart is on the lane. -/
theorem not_outside_lane {S : Type} {e : EpisodeState S ℝ} (hx : e.state.x ≤ 2)
    (hy : |e.state.y| ≤ 1) : ¬ Outside MathLib.real laneTrack e := by
  rintro ⟨bd, hbd, hneg⟩
  obtain ⟨hlow, hhigh⟩ := abs_le.mp hy
  obtain ⟨blue, hblue⟩ := sideOfNearest_lane (y := e.state.y) hx 1
  obtain ⟨yellow, hyellow⟩ := sideOfNearest_lane (y := e.state.y) hx (-1)
  have hinside : laneTrack.isInsideTrack MathLib.real e.state.x e.state.y = some true := by
    have hleft : (20.0 - 3.0 : ℝ) * (e.state.y - 1) ≤ 0 := by
      norm_num
      linarith
    have hright : (0 : ℝ) ≤ (20.0 - 3.0) * (e.state.y - -1) := by
      norm_num
      linarith
    simp only [TrackData.isInsideTrack, laneTrack, hblue, hyellow, Option.bind_eq_bind,
      Option.bind_some, decide_eq_true hleft, decide_eq_true hright]
    rfl
  simp only [TrackData.distToBoundary, hinside, Option.mem_def, Option.bind_eq_bind,
    Option.bind_eq_some_iff] at hbd
  obtain ⟨idx, -, d, hd, inside, htrue, heq⟩ := hbd
  obtain rfl := Option.some.inj htrue
  obtain rfl : d = bd := Option.some.inj heq
  obtain ⟨segment, -, rfl⟩ := List.mem_map.mp (List.mem_of_getElem? hd)
  exact absurd hneg (not_lt.mpr (Real.sqrt_nonneg _))

/-- **The first six steps on the lane**: none of them leads out of it. -/
theorem setOff_of_episodeLoop {S : Type} {ctrl : Controller S ℝ} {e : EpisodeState S ℝ}
    {draws : List (StepDraws ℝ)} {es : List (EpisodeState S ℝ)}
    (h : episodeLoop MathLib.real Real.tan ctrl 0.0 0.0 laneTrack e draws = some es) {n : Nat}
    (he : SetOff n e.state) (hn : n + draws.length ≤ 6) :
    es.length = draws.length ∧ ∀ e' ∈ e :: es, NearSpawn e'.state := by
  have hnear := he.near (Nat.le_of_add_right_le hn)
  induction draws generalizing e es n with
  | nil =>
    obtain rfl := Option.some.inj h
    exact ⟨rfl, by simpa using hnear⟩
  | cons draw draws ih =>
    obtain ⟨e', outside, rest, hstep, rfl, hrest⟩ := episodeLoop_cons h
    obtain ⟨r, -, hstate, -⟩ := driven_of_episodeStep hstep
    have he' : SetOff (n + 1) e'.state := hstate ▸ he.step r.1.1 r.1.2
    rw [List.length_cons] at hn
    have hnear' := he'.near (by omega)
    rcases hrest with ⟨rfl, -⟩ | ⟨-, hrest⟩
    · have hin := not_outside_lane ((abs_le.mp hnear'.x).2.trans (by norm_num))
        (hnear'.y.trans (by norm_num))
      exact absurd ((outside_of_episodeStep hstep).mp rfl) hin
    · obtain ⟨hlength, hall⟩ := ih hrest he' (by omega) hnear'
      exact ⟨congrArg Nat.succ hlength, List.forall_mem_cons.mpr ⟨hnear, hall⟩⟩

/-- Six steps on the lane. -/
theorem episode_retraced_lane :
    ∃ e es, episodeStates MathLib.real Real.tan (geometricController MathLib.real 100) 100
        ⟨laneTrack, 6, 0, 0⟩ ⟨1.0, 0.5, 2.0, 0.5, 15.0, 1.0, 0.0⟩ (fun _ _ => 0) =
          some (e :: es) ∧ es.length = 6 ∧
      retraced Real.tan 100 laneCones ⟨Params.declared, none, 0.0, 0.0, 0⟩ e.state
        (List.replicate es.length 1) = some (es.map (·.state)) := by
  have hlined : Lined (⟨laneTrack, 6, 0, 0⟩ : Settings (Track ℝ) ℝ).track :=
    ⟨List.cons_ne_nil _ _, rfl, List.cons_ne_nil _ _, List.cons_ne_nil _ _⟩
  obtain ⟨r, hr⟩ := exists_runEpisode MathLib.real Real.tan hlined
    (geometricController_answers MathLib.real 100) 100 trivial .v1 (fun _ _ => 0)
  obtain ⟨states, hstates, -⟩ := Option.bind_eq_some_iff.mp hr
  obtain ⟨e, es, hstart, hloop, rfl⟩ := episodeStates_eq hstates
  have hfirst : SetOff 0 e.state := by
    obtain ⟨sPrev, -, rfl⟩ := startEpisode_eq hstart
    exact ⟨by norm_num, by norm_num, by norm_num [laneTrack], by norm_num [laneTrack],
      by norm_num [laneTrack]⟩
  have hzero : (0 : ℝ) = 0.0 := by norm_num
  rw [hzero] at hloop
  obtain ⟨hlength, hnear⟩ := setOff_of_episodeLoop hloop hfirst (by simp)
  refine ⟨e, es, hstates, by simpa using hlength, episode_retraced rfl rfl perm_laneCones hstates
    ⟨rfl, rfl, rfl, rfl, rfl, rfl, rfl, rfl⟩ rfl (fun e' he' => ?_) List.length_replicate⟩
  exact (hnear e' (List.mem_of_mem_dropLast he')).clearcut

end KartStack.PipelinesAgree
