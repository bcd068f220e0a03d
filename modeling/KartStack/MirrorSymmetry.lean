import KartStack.ControllersAgree
import Mathlib.Tactic.Linarith

/-! # Left and right

In a scene mirrored at the kart's axis the blue cones are where the yellow ones were,
on the other side.  The geometric controllers steer the other way there, at the same
speed.  Blue and yellow are two cases of the loop and four of the choice of a point,
with opposite offsets; the point is always ahead of the kart, where the direction to
it is odd in its lateral part.

The node's controller is proved symmetric, and the simulator's through it: they agree
on the cones half a metre ahead (`control_agree`), and the simulator's passes over
the others.
-/
namespace KartStack.MirrorSymmetry
open KartStack.Python Sim2d ConeFollower ControllersAgree

/-! ## Mirrored scenes -/

/-- The other side's class of cone. -/
def swapClass (classId : String) : String :=
  if classId = "blue_cone" then "yellow_cone"
  else if classId = "yellow_cone" then "blue_cone"
  else classId

variable {K : Type} [Field K]

/-- A point on the other side. -/
def mirrorPoint (p : K × K) : K × K := (p.1, -p.2)

/-- A cone in the mirrored scene. -/
def mirrorCone (cone : Cone K) : Cone K := ⟨swapClass cone.classId, cone.fwd, -cone.left⟩

/-- The node in the mirrored scene. -/
def mirrorNode (self : Node K) : Node K := { self with lastSteer := -self.lastSteer }

/-- A cone the simulator sees in the mirrored scene. -/
def mirrorSeen (cone : SeenCone K) : SeenCone K :=
  { cone with classId := swapClass cone.classId, y := -cone.y }

/-- The simulator's controller in the mirrored scene. -/
def mirrorSim (self : GeometricController K) : GeometricController K :=
  { self with lastSteer := -self.lastSteer }

/-- The nearest cones of the mirrored scene. -/
def mirrorNearest (n : ConeFollower.Nearest K) : ConeFollower.Nearest K :=
  ⟨n.nearestYellow.map mirrorPoint, n.nearestBlue.map mirrorPoint, n.minYd, n.minBd⟩

theorem swapClass_swapClass (classId : String) : swapClass (swapClass classId) = classId := by
  by_cases hblue : classId = "blue_cone"
  · subst hblue
    decide
  · by_cases hyellow : classId = "yellow_cone"
    · subst hyellow
      decide
    · simp [swapClass, hblue, hyellow]

/-- A class is on the other side where its name is swapped. -/
theorem swapClass_eq_iff {classId classId' : String} :
    swapClass classId = classId' ↔ classId = swapClass classId' := by
  constructor
  · rintro rfl
    exact (swapClass_swapClass classId).symm
  · rintro rfl
    exact swapClass_swapClass classId'

variable [LinearOrder K]

/-- What is known of `math`: `hypot` is even, and `atan2` is odd for points ahead. -/
structure Mirrors (m : MathLib K) : Prop where
  hypot_neg : ∀ x y, m.hypot x (-y) = m.hypot x y
  atan2_neg : ∀ y x, 0 < x → m.atan2 (-y) x = -(m.atan2 y x)

variable {m : MathLib K}

/-! ## The loop -/

/-- One cone: a blue one of the scene is a yellow one of the mirrored scene. -/
theorem look_mirror (hm : Mirrors m) (self : Node K) (n : ConeFollower.Nearest K) (cone : Cone K) :
    (mirrorNode self).look m (mirrorNearest n) (mirrorCone cone) =
      mirrorNearest (self.look m n cone) := by
  have hparams : (mirrorNode self).params = self.params := rfl
  have hswapBlue : swapClass "blue_cone" = "yellow_cone" := by decide
  have hswapYellow : swapClass "yellow_cone" = "blue_cone" := by decide
  unfold Node.look
  simp only [mirrorCone, hm.hypot_neg, swapClass_eq_iff, hswapBlue, hswapYellow, hparams]
  by_cases hfar : self.params.lookaheadMax < m.hypot cone.fwd cone.left
  · rw [if_pos hfar, if_pos hfar]
  · rw [if_neg hfar, if_neg hfar]
    by_cases hblue : cone.classId = "blue_cone"
    · by_cases hnear : m.hypot cone.fwd cone.left < n.minBd <;>
        simp [hblue, hnear, mirrorNearest, mirrorPoint]
    · by_cases hyellow : cone.classId = "yellow_cone"
      · by_cases hnear : m.hypot cone.fwd cone.left < n.minYd <;>
          simp [hyellow, hnear, mirrorNearest, mirrorPoint]
      · simp [hblue, hyellow]

/-- The loop. -/
theorem look_foldl_mirror (hm : Mirrors m) (self : Node K) (cones : List (Cone K))
    (n : ConeFollower.Nearest K) :
    (cones.map mirrorCone).foldl ((mirrorNode self).look m) (mirrorNearest n) =
      mirrorNearest (cones.foldl (self.look m) n) := by
  induction cones generalizing n with
  | nil => rfl
  | cons cone cones ih =>
    rw [List.map_cons, List.foldl_cons, look_mirror hm, ih, List.foldl_cons]

/-- The nearest cones are ahead of the kart. -/
structure Ahead (n : ConeFollower.Nearest K) : Prop where
  blue : ∀ p ∈ n.nearestBlue, 0.5 ≤ p.1
  yellow : ∀ p ∈ n.nearestYellow, 0.5 ≤ p.1

theorem look_ahead (self : Node K) {n : ConeFollower.Nearest K} (h : Ahead n) {cone : Cone K}
    (hcone : 0.5 ≤ cone.fwd) : Ahead (self.look m n cone) := by
  unfold Node.look
  dsimp only
  split
  · exact h
  · split
    · exact ⟨fun p hp => Option.some.inj hp ▸ hcone, h.yellow⟩
    · split
      · exact ⟨h.blue, fun p hp => Option.some.inj hp ▸ hcone⟩
      · exact h

theorem look_foldl_ahead (self : Node K) {cones : List (Cone K)}
    (hcones : ∀ cone ∈ cones, 0.5 ≤ cone.fwd) {n : ConeFollower.Nearest K} (h : Ahead n) :
    Ahead (cones.foldl (self.look m) n) := by
  induction cones generalizing n with
  | nil => exact h
  | cons cone cones ih =>
    obtain ⟨hcone, hrest⟩ := List.forall_mem_cons.mp hcones
    exact ih hrest (look_ahead self h hcone)

/-! ## The point, the steer and the speed -/

omit [LinearOrder K] in
/-- The point of the mirrored scene is the mirrored point. -/
theorem midpoint_mirror (self : Node K) (n : ConeFollower.Nearest K) :
    (mirrorNode self).midpoint (mirrorNearest n) = (self.midpoint n).map mirrorPoint := by
  rcases n with ⟨_ | blue, _ | yellow, minBd, minYd⟩
  · rfl
  · refine congrArg some (Prod.ext rfl ?_)
    show -yellow.2 - self.params.halfTrackWidth = -(yellow.2 + self.params.halfTrackWidth)
    ring
  · refine congrArg some (Prod.ext rfl ?_)
    show -blue.2 + self.params.halfTrackWidth = -(blue.2 - self.params.halfTrackWidth)
    ring
  · refine congrArg some (Prod.ext ?_ ?_)
    · show (yellow.1 + blue.1) / 2.0 = (blue.1 + yellow.1) / 2.0
      rw [add_comm]
    · show (-yellow.2 + -blue.2) / 2.0 = -((blue.2 + yellow.2) / 2.0)
      rw [← neg_add, add_comm, neg_div]

variable [IsStrictOrderedRing K]

/-- The point is ahead of the kart. -/
theorem midpoint_pos (self : Node K) {n : ConeFollower.Nearest K} (h : Ahead n) :
    ∀ p ∈ self.midpoint n, 0 < p.1 := by
  have hhalf : (0 : K) < 0.5 := by norm_num
  have htwo : (0 : K) < 2.0 := by norm_num
  obtain ⟨hblue, hyellow⟩ := h
  rcases n with ⟨_ | blue, _ | yellow, minBd, minYd⟩ <;> intro p hp
  · cases hp
  · rw [← Option.some.inj hp]
    exact hhalf.trans_le (hyellow yellow rfl)
  · rw [← Option.some.inj hp]
    exact hhalf.trans_le (hblue blue rfl)
  · rw [← Option.some.inj hp]
    exact div_pos (add_pos (hhalf.trans_le (hblue blue rfl)) (hhalf.trans_le (hyellow yellow rfl)))
      htwo

/-- The two comparisons of the steer treat both sides alike. -/
theorem clamp_neg {b : K} (hb : 0 ≤ b) (x : K) :
    max (-b) (min b (-x)) = -(max (-b) (min b x)) := by
  have hsym : -b ≤ b := by linarith
  calc max (-b) (min b (-x)) = min (max (-b) b) (max (-b) (-x)) := max_min_distrib_left ..
    _ = min b (max (-b) (-x)) := by rw [max_eq_right hsym]
    _ = min (-(-b)) (-(min b x)) := by rw [neg_neg, max_neg_neg]
    _ = -(max (-b) (min b x)) := min_neg_neg ..

/-- **The node's controller is symmetric.** -/
theorem controlGeometric_mirror (hm : Mirrors m) (inf : K) (self : Node K)
    (hsteer : 0 ≤ self.params.maxSteer) {cones : List (Cone K)}
    (hcones : ∀ cone ∈ cones, 0.5 ≤ cone.fwd) :
    ((mirrorNode self).controlGeometric m inf (cones.map mirrorCone)).1 =
        (-(self.controlGeometric m inf cones).1.1, (self.controlGeometric m inf cones).1.2) ∧
      ((mirrorNode self).controlGeometric m inf (cones.map mirrorCone)).2.lastSteer =
        -(self.controlGeometric m inf cones).2.lastSteer := by
  have hahead : Ahead (cones.foldl (self.look m) ⟨none, none, inf, inf⟩) :=
    look_foldl_ahead self hcones ⟨fun p hp => (by cases hp), fun p hp => (by cases hp)⟩
  have hmid : (mirrorNode self).midpoint ((cones.map mirrorCone).foldl ((mirrorNode self).look m)
      ⟨none, none, inf, inf⟩) =
      (self.midpoint (cones.foldl (self.look m) ⟨none, none, inf, inf⟩)).map mirrorPoint := by
    rw [← midpoint_mirror, ← look_foldl_mirror hm]
    rfl
  unfold Node.controlGeometric
  rw [hmid]
  cases hpoint : self.midpoint (cones.foldl (self.look m) ⟨none, none, inf, inf⟩) with
  | none => exact ⟨rfl, rfl⟩
  | some p =>
    have hangle := hm.atan2_neg p.2 p.1 (midpoint_pos self hahead p hpoint)
    have hclamp : max (-self.params.maxSteer)
        (min self.params.maxSteer (self.params.steeringGain * m.atan2 (-p.2) p.1)) =
        -(max (-self.params.maxSteer)
          (min self.params.maxSteer (self.params.steeringGain * m.atan2 p.2 p.1))) := by
      rw [hangle, mul_neg, clamp_neg hsteer]
    simp only [Option.map_some, mirrorPoint, mirrorNode, python_max, python_min, python_abs,
      hclamp, abs_neg, and_self]

/-! ## The simulator's controller -/

omit [IsStrictOrderedRing K] in
/-- The loop of the simulator passes over the cones that are not half a metre ahead. -/
theorem look_foldl_filter (self : GeometricController K) (cones : List (SeenCone K))
    (n : Sim2d.Nearest K) :
    (cones.filter fun cone => ¬ cone.x < 0.5).foldl (self.look m) n =
      cones.foldl (self.look m) n := by
  induction cones generalizing n with
  | nil => rfl
  | cons cone cones ih =>
    rw [List.foldl_cons]
    by_cases hnear : cone.x < 0.5
    · rw [List.filter_cons_of_neg (by simpa using hnear), ih]
      congr 1
      exact (if_pos hnear).symm
    · rw [List.filter_cons_of_pos (by simpa using hnear), List.foldl_cons, ih]

omit [IsStrictOrderedRing K] in
theorem control_filter (self : GeometricController K) (inf : K) (cones : List (SeenCone K)) :
    self.control m inf (cones.filter fun cone => ¬ cone.x < 0.5) = self.control m inf cones := by
  unfold GeometricController.control
  rw [look_foldl_filter]

/-- A node with the simulator's parameters. -/
def asNode (self : GeometricController K) : Node K where
  params := ⟨1.0, self.steeringGain, self.maxSteer, self.maxSpeed, self.minSpeed,
    self.lookaheadMax, 1.5, self.speedCurveFactor⟩
  net := none
  actualSpeed := 0.0
  lastSteer := self.lastSteer
  lastDetectionTime := 0.0

omit [LinearOrder K] [IsStrictOrderedRing K] in
theorem asNode_tuned (self : GeometricController K) : Tuned self (asNode self) :=
  ⟨rfl, rfl, rfl, rfl, rfl, rfl, rfl, rfl⟩

/-- **The simulator's controller is symmetric.** -/
theorem control_mirror (hm : Mirrors m) (inf : K) (self : GeometricController K)
    (hsteer : 0 ≤ self.maxSteer) (cones : List (SeenCone K)) :
    ((mirrorSim self).control m inf (cones.map mirrorSeen)).1 =
        (-(self.control m inf cones).1.1, (self.control m inf cones).1.2) ∧
      ((mirrorSim self).control m inf (cones.map mirrorSeen)).2.lastSteer =
        -(self.control m inf cones).2.lastSteer := by
  have hfar : ∀ cone ∈ cones.filter fun cone => ¬ cone.x < 0.5, ¬ cone.x < 0.5 := by
    intro cone hcone
    simpa using (List.mem_filter.mp hcone).2
  have hfar' : ∀ cone ∈ (cones.filter fun cone => ¬ cone.x < 0.5).map mirrorSeen,
      ¬ cone.x < 0.5 := by
    intro cone hcone
    obtain ⟨seen, hseen, rfl⟩ := List.mem_map.mp hcone
    exact hfar seen hseen
  have hfilter : (cones.map mirrorSeen).filter (fun cone => ¬ cone.x < 0.5) =
      (cones.filter fun cone => ¬ cone.x < 0.5).map mirrorSeen := List.filter_map ..
  obtain ⟨hout, hnext⟩ := control_agree m inf (asNode_tuned self) hfar
  obtain ⟨hout', hnext'⟩ := control_agree m inf (asNode_tuned (mirrorSim self)) hfar'
  have hmap : ((cones.filter fun cone => ¬ cone.x < 0.5).map mirrorSeen).map toCone =
      ((cones.filter fun cone => ¬ cone.x < 0.5).map toCone).map mirrorCone := by
    rw [List.map_map, List.map_map]
    rfl
  have hahead : ∀ cone ∈ (cones.filter fun cone => ¬ cone.x < 0.5).map toCone,
      0.5 ≤ cone.fwd := by
    intro cone hcone
    obtain ⟨seen, hseen, rfl⟩ := List.mem_map.mp hcone
    exact not_lt.mp (hfar seen hseen)
  obtain ⟨hsym, hlast⟩ := controlGeometric_mirror hm inf (asNode self) hsteer hahead
  rw [← control_filter self, ← control_filter (mirrorSim self), hfilter]
  rw [hmap] at hout' hnext'
  rw [← hout', ← hout, hnext'.lastSteer, hnext.lastSteer]
  exact ⟨hsym, hlast⟩

/-- **No bias to one side**: in the mirrored scene both controllers steer the other way,
drive at the same speed and keep the mirrored steer. -/
theorem geometric_symmetric (hm : Mirrors m) (inf : K) :
    (∀ (self : GeometricController K) (cones : List (SeenCone K)), 0 ≤ self.maxSteer →
      let r := self.control m inf cones
      let r' := (mirrorSim self).control m inf (cones.map mirrorSeen)
      r'.1 = (-r.1.1, r.1.2) ∧ r'.2.lastSteer = -r.2.lastSteer) ∧
    (∀ (self : Node K) (cones : List (Cone K)), 0 ≤ self.params.maxSteer →
      (∀ cone ∈ cones, 0.5 ≤ cone.fwd) →
      let r := self.controlGeometric m inf cones
      let r' := (mirrorNode self).controlGeometric m inf (cones.map mirrorCone)
      r'.1 = (-r.1.1, r.1.2) ∧ r'.2.lastSteer = -r.2.lastSteer) :=
  ⟨fun self cones hsteer => control_mirror hm inf self hsteer cones,
    fun self _ hsteer hcones => controlGeometric_mirror hm inf self hsteer hcones⟩

/-- `math` over the reals: the angle of a point ahead is odd, as it is not half a turn. -/
theorem real_mirrors : Mirrors MathLib.real where
  hypot_neg x y := by
    show √(x * x + -y * -y) = √(x * x + y * y)
    rw [neg_mul_neg]
  atan2_neg y x hx := by
    have hne : Complex.arg ⟨x, y⟩ ≠ Real.pi := fun h => (Complex.arg_eq_pi_iff.mp h).1.not_gt hx
    show Complex.arg ⟨x, -y⟩ = -Complex.arg ⟨x, y⟩
    have hconj : (⟨x, -y⟩ : ℂ) = (starRingEnd ℂ) ⟨x, y⟩ := rfl
    rw [hconj, Complex.arg_conj, if_neg hne]

/-- A blue cone to the left of the way ahead, against a yellow one to the right: in the
simulator, and on the kart. -/
theorem geometric_symmetric_ahead :
    let sim : GeometricController ℝ := ⟨1.0, 0.5, 2.0, 0.5, 15.0, 1.0, 0.2⟩
    let node : Node ℝ := ⟨Params.declared, none, 0.0, 0.2, 0⟩
    (sim.control MathLib.real 1000 [⟨"blue_cone", 4, 3, 0⟩]).1.1 =
        -((mirrorSim sim).control MathLib.real 1000
          ([⟨"blue_cone", 4, 3, 0⟩].map mirrorSeen)).1.1 ∧
      (node.controlGeometric MathLib.real 1000 [⟨"blue_cone", 4, 3⟩]).1.1 =
        -((mirrorNode node).controlGeometric MathLib.real 1000
          ([⟨"blue_cone", 4, 3⟩].map mirrorCone)).1.1 := by
  intro sim node
  have hsim : (0 : ℝ) ≤ sim.maxSteer := by
    norm_num [sim]
  have hnode : (0 : ℝ) ≤ node.params.maxSteer := by
    norm_num [node, Params.declared]
  have hahead : ∀ cone ∈ [(⟨"blue_cone", 4, 3⟩ : Cone ℝ)], 0.5 ≤ cone.fwd := by
    intro cone hcone
    rw [List.mem_singleton.mp hcone]
    norm_num
  obtain ⟨hs, hn⟩ := geometric_symmetric real_mirrors 1000
  exact ⟨(neg_eq_iff_eq_neg.mpr (congrArg Prod.fst (hs sim [⟨"blue_cone", 4, 3, 0⟩] hsim).1)).symm,
    (neg_eq_iff_eq_neg.mpr
      (congrArg Prod.fst (hn node [⟨"blue_cone", 4, 3⟩] hnode hahead).1)).symm⟩

end KartStack.MirrorSymmetry
