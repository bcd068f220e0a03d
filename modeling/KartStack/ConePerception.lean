import KartStack.ConeFollower
import KartStack.SimControllers
import Mathlib.Analysis.Real.Pi.Bounds
import Mathlib.Data.List.Perm.Basic

/-! # The cones a controller gets to see

In the simulator `perceive` hands the cones in view to the controller.  On the kart's
side `PerfectPerceptionNode` publishes those in range and in view, in the optical
frame, and the cone follower's callback filters them once more.

Over the reals the three cut the same sector out of the plane but for its tip: the
callback drops what is less than half a metre *ahead*, the simulator what is less
than half a metre *away*.  `sameCones_iff` says that nothing else makes a difference.
-/
namespace KartStack.ConePerception
open KartStack.Python Sim2d ConeFollower

section
variable {K : Type}

/-! ## The simulator -/

/-- `KartState`. -/
structure KartState (K : Type) where
  x : K
  y : K
  yaw : K
  speed : K
  deriving DecidableEq, Repr

variable [OfScientific K] [Add K] [Sub K] [Mul K] [Div K] [Neg K]

/-- `CAMERA_OFFSET`. -/
def cameraOffset : K := 0.55
/-- `FOV_HALF`. -/
def fovHalf (m : MathLib K) : K := radians m 35.0
/-- `RANGE_MIN`. -/
def rangeMin : K := 0.5
/-- `RANGE_MAX`. -/
def rangeMax : K := 15.0

/-- Forward and left coordinate of a cone. -/
def relative (m : MathLib K) (state : KartState K) (cone : K × K) : K × K :=
  let cosYaw := m.cos state.yaw
  let sinYaw := m.sin state.yaw
  let camX := state.x + cameraOffset * cosYaw
  let camY := state.y + cameraOffset * sinYaw
  let dx := cone.1 - camX
  let dy := cone.2 - camY
  (dx * cosYaw + dy * sinYaw, -dx * sinYaw + dy * cosYaw)

variable [LT K] [DecidableLT K] [LE K] [DecidableLE K]

/-- The mask of `perceive`. -/
def mask (m : MathLib K) (p : K × K) : Bool :=
  let dist := m.sqrt (p.1 * p.1 + p.2 * p.2)
  let angle := m.atan2 p.2 p.1
  decide (rangeMin ≤ dist) && decide (dist ≤ rangeMax) && decide (Python.abs angle ≤ fovHalf m)

/-- The cones under the mask, by class. -/
def candidates (m : MathLib K) (state : KartState K) (blue yellow orange : List (K × K)) :
    List (String × K × K) :=
  [("blue_cone", blue), ("yellow_cone", yellow), ("orange_cone", orange)].flatMap fun c =>
    ((c.2.map (relative m state)).filter (mask m)).map fun p => (c.1, p)

/-- `perceive`.  What the random numbers are for the `k`-th candidate, one uniform and
two normal ones, is `draw k`. -/
def perceive (m : MathLib K) (state : KartState K) (blue yellow orange : List (K × K))
    (noiseStd dropout : K) (draw : Nat → K × K × K) : List (SeenCone K) :=
  (candidates m state blue yellow orange).zipIdx.filterMap fun c =>
    if 0.0 < dropout ∧ (draw c.2).1 < dropout then none
    else if 0.0 < noiseStd then
      some ⟨c.1.1, c.1.2.1 + (draw c.2).2.1 * noiseStd, c.1.2.2 + (draw c.2).2.2 * noiseStd, 0.0⟩
    else some ⟨c.1.1, c.1.2.1, c.1.2.2, 0.0⟩

/-! ## The perception node -/

/-- A cone of the world file. -/
structure WorldCone (K : Type) where
  classId : String
  x : K
  y : K
  z : K
  deriving DecidableEq, Repr

/-- `PerfectPerceptionNode`. -/
structure PerceptionNode (K : Type) where
  maxRange : K
  fovRad : K
  camX : K
  camZ : K
  kartX : K
  kartY : K
  kartYaw : K
  gotOdom : Bool
  cones : List (WorldCone K)
  deriving DecidableEq, Repr

/-- The node with its declared parameters, after an odometry message. -/
def PerceptionNode.declared (m : MathLib K) (state : KartState K) (cones : List (WorldCone K)) :
    PerceptionNode K :=
  ⟨20.0, radians m 70.0, 0.55, 0.47, state.x, state.y, state.yaw, true, cones⟩

/-- The detection `_publish` makes of a cone, unless it is out of range or out of view. -/
def PerceptionNode.detection (m : MathLib K) (node : PerceptionNode K) (cone : WorldCone K) :
    Option (Detection K) :=
  let cosYaw := m.cos node.kartYaw
  let sinYaw := m.sin node.kartYaw
  let camWorldX := node.kartX + node.camX * cosYaw
  let camWorldY := node.kartY + node.camX * sinYaw
  let halfFov := node.fovRad / 2.0
  let dx := cone.x - camWorldX
  let dy := cone.y - camWorldY
  let cx := dx * cosYaw + dy * sinYaw
  let cy := -dx * sinYaw + dy * cosYaw
  let dist := m.sqrt (cx * cx + cy * cy)
  if node.maxRange < dist ∨ dist < 0.5 then none
  else if halfFov < Python.abs (m.atan2 cy cx) then none
  else
    let position : Position K := ⟨-cy, -(cone.z - node.camZ), cx⟩
    some ⟨[⟨cone.classId, 1.0, position⟩], position, ⟨0.25, 0.25, 0.325⟩⟩

/-- `_publish`. -/
def PerceptionNode.publish (m : MathLib K) (node : PerceptionNode K) : List (Detection K) :=
  if ¬ node.gotOdom ∨ node.cones.isEmpty then [] else node.cones.filterMap (node.detection m)

end

/-! ## Over the reals -/

/-- Class, forward and left of what the simulator's controller gets. -/
def seenTriple (cone : SeenCone ℝ) : String × ℝ × ℝ := (cone.classId, cone.x, cone.y)

/-- Class, forward and left of what the node's controller gets. -/
def coneTriple (cone : Cone ℝ) : String × ℝ × ℝ := (cone.classId, cone.fwd, cone.left)

/-- The simulator's cones with their classes. -/
def places (blue yellow orange : List (ℝ × ℝ)) : List (String × ℝ × ℝ) :=
  blue.map (fun p => ("blue_cone", p)) ++ yellow.map (fun p => ("yellow_cone", p)) ++
    orange.map fun p => ("orange_cone", p)

/-- Class and place of a cone of the world file. -/
def WorldCone.place (cone : WorldCone ℝ) : String × ℝ × ℝ := (cone.classId, cone.x, cone.y)

/-- A place seen from the kart. -/
noncomputable def seenFrom (state : KartState ℝ) (p : String × ℝ × ℝ) : String × ℝ × ℝ :=
  (p.1, relative MathLib.real state p.2)

/-- In the tip of the sector: in view and half a metre away, but not half a metre ahead. -/
def InTip (p : ℝ × ℝ) : Prop :=
  1 / 2 ≤ √(p.1 * p.1 + p.2 * p.2) ∧ √(p.1 * p.1 + p.2 * p.2) ≤ 15 ∧
    |Complex.arg ⟨p.1, p.2⟩| ≤ 35 * Real.pi / 180 ∧ p.1 < 1 / 2

theorem fovHalf_eq : fovHalf MathLib.real = 35 * Real.pi / 180 := by
  simp only [fovHalf, radians, MathLib.real]
  norm_num
  ring

/-- The mask cuts a sector without its inner end. -/
theorem mask_iff (p : ℝ × ℝ) :
    mask MathLib.real p = true ↔ 1 / 2 ≤ √(p.1 * p.1 + p.2 * p.2) ∧
      √(p.1 * p.1 + p.2 * p.2) ≤ 15 ∧ |Complex.arg ⟨p.1, p.2⟩| ≤ 35 * Real.pi / 180 := by
  have hmin : (rangeMin : ℝ) = 1 / 2 := by norm_num [rangeMin]
  have hmax : (rangeMax : ℝ) = 15 := by norm_num [rangeMax]
  simp only [mask, python_abs, fovHalf_eq, hmin, hmax, Bool.and_eq_true, decide_eq_true_eq,
    and_assoc]
  rfl

/-- Half the field of view of the node is that of the simulator, and the bound of the
callback is not below it. -/
theorem halfFov_eq : radians MathLib.real (70.0 : ℝ) / 2.0 = 35 * Real.pi / 180 := by
  simp only [radians, MathLib.real]
  norm_num
  ring

theorem fov_le : 35 * Real.pi / 180 ≤ 0.6109 := by
  have := Real.pi_lt_d4
  norm_num at this ⊢
  linarith

/-- What the perception node makes of a cone. -/
theorem detection_eq (state : KartState ℝ) (cones : List (WorldCone ℝ)) (cone : WorldCone ℝ) :
    (PerceptionNode.declared MathLib.real state cones).detection MathLib.real cone =
      let p := relative MathLib.real state (cone.x, cone.y)
      let d := √(p.1 * p.1 + p.2 * p.2)
      if 20.0 < d ∨ d < 0.5 then none
      else if 35 * Real.pi / 180 < |Complex.arg ⟨p.1, p.2⟩| then none
      else some ⟨[⟨cone.classId, 1.0, ⟨-p.2, -(cone.z - 0.47), p.1⟩⟩],
        ⟨-p.2, -(cone.z - 0.47), p.1⟩, ⟨0.25, 0.25, 0.325⟩⟩ := by
  rw [← halfFov_eq]
  simp only [← python_abs]
  rfl

/-- What the node's controller makes of a detection. -/
theorem detectedCone_eq (classId : String) (y : ℝ) (p : ℝ × ℝ) :
    detectedCone MathLib.real
        (⟨[⟨classId, 1.0, ⟨-p.2, y, p.1⟩⟩], ⟨-p.2, y, p.1⟩, ⟨0.25, 0.25, 0.325⟩⟩ : Detection ℝ) =
      if p.1 < 0.5 then none
      else if 15.0 < √(p.1 * p.1 + p.2 * p.2) then none
      else if 0.6109 < |Complex.arg ⟨p.1, p.2⟩| then none
      else some ⟨classId, p.1, p.2⟩ := by
  simp only [detectedCone, python_abs, neg_neg]
  rfl

/-- **A cone on its way to the node's controller.** -/
theorem detected_iff (state : KartState ℝ) (cones : List (WorldCone ℝ)) (cone : WorldCone ℝ) :
    ((PerceptionNode.declared MathLib.real state cones).detection MathLib.real cone).bind
        (detectedCone MathLib.real) =
      if mask MathLib.real (relative MathLib.real state (cone.x, cone.y)) = true ∧
          ¬ (relative MathLib.real state (cone.x, cone.y)).1 < 1 / 2 then
        some ⟨cone.classId, (relative MathLib.real state (cone.x, cone.y)).1,
          (relative MathLib.real state (cone.x, cone.y)).2⟩
      else none := by
  rw [detection_eq]
  simp only [mask_iff]
  generalize relative MathLib.real state (cone.x, cone.y) = p
  have hcone := detectedCone_eq cone.classId (-(cone.z - 0.47)) p
  generalize √(p.1 * p.1 + p.2 * p.2) = d at hcone ⊢
  generalize |Complex.arg ⟨p.1, p.2⟩| = a at hcone ⊢
  have hfov := fov_le
  by_cases hout : 20.0 < d ∨ d < 0.5
  · rw [if_pos hout, if_neg]
    · rfl
    · rintro ⟨⟨hlo, hhi, -⟩, -⟩
      norm_num at hout
      rcases hout with hout | hout <;> linarith
  · rw [if_neg hout]
    by_cases hview : 35 * Real.pi / 180 < a
    · rw [if_pos hview, if_neg]
      · rfl
      · rintro ⟨⟨-, -, hin⟩, -⟩
        linarith
    · rw [if_neg hview, Option.bind_some, hcone]
      have hbound : ¬ 0.6109 < a := by linarith
      rw [if_neg hbound]
      norm_num at hout ⊢
      by_cases hnear : p.1 < 1 / 2
      · rw [if_pos hnear, if_neg]
        intro h
        linarith
      · by_cases hfar : 15 < d
        · rw [if_neg hnear, if_pos hfar, if_neg]
          intro h
          linarith
        · rw [if_neg hnear, if_neg hfar, if_pos]
          refine ⟨⟨by linarith, by linarith, by linarith⟩, by linarith⟩

/-- One class of candidates. -/
theorem class_candidates (state : KartState ℝ) (classId : String) (cones : List (ℝ × ℝ)) :
    ((cones.map (relative MathLib.real state)).filter (mask MathLib.real)).map
        (fun p => (classId, p)) =
      ((cones.map fun p => (classId, p)).map (seenFrom state)).filter
        fun p => mask MathLib.real p.2 := by
  induction cones with
  | nil => rfl
  | cons cone cones ih =>
    simp only [List.map_cons, List.filter_cons, seenFrom]
    by_cases hmask : mask MathLib.real (relative MathLib.real state cone) = true
    · rw [if_pos hmask, if_pos hmask, List.map_cons, ih]
    · rw [if_neg hmask, if_neg hmask, ih]

theorem candidates_eq (state : KartState ℝ) (blue yellow orange : List (ℝ × ℝ)) :
    candidates MathLib.real state blue yellow orange =
      ((places blue yellow orange).map (seenFrom state)).filter fun p => mask MathLib.real p.2 := by
  simp only [candidates, places, List.flatMap_cons, List.flatMap_nil, List.append_nil,
    class_candidates, List.map_append, List.filter_append, List.append_assoc]

/-- Without noise and dropout the candidates are what is seen. -/
theorem perceive_exact (state : KartState ℝ) (blue yellow orange : List (ℝ × ℝ))
    (draw : Nat → ℝ × ℝ × ℝ) :
    (perceive MathLib.real state blue yellow orange 0.0 0.0 draw).map seenTriple =
      ((places blue yellow orange).map (seenFrom state)).filter fun p => mask MathLib.real p.2 := by
  rw [← candidates_eq]
  unfold perceive
  have hzero : ¬ (0.0 : ℝ) < 0.0 := lt_irrefl _
  simp only [hzero, false_and, if_false]
  have hmap : ∀ l : List ((String × ℝ × ℝ) × Nat), (l.filterMap fun c =>
      some (⟨c.1.1, c.1.2.1, c.1.2.2, 0.0⟩ : SeenCone ℝ)).map seenTriple = l.map Prod.fst := by
    intro l
    simp [seenTriple]
  rw [hmap, List.zipIdx_map_fst]

/-- What the callback passes on. -/
theorem received_eq (state : KartState ℝ) (cones : List (WorldCone ℝ)) :
    (detectedCones MathLib.real
        ((PerceptionNode.declared MathLib.real state cones).publish MathLib.real)).map coneTriple =
      ((cones.map WorldCone.place).map (seenFrom state)).filter
        fun p => mask MathLib.real p.2 && decide (¬ p.2.1 < 1 / 2) := by
  have hpublish : (PerceptionNode.declared MathLib.real state cones).publish MathLib.real =
      cones.filterMap
        ((PerceptionNode.declared MathLib.real state cones).detection MathLib.real) := by
    cases cones with
    | nil => rfl
    | cons _ _ => rfl
  rw [hpublish, detectedCones, List.filterMap_filterMap, List.map_filterMap, List.map_map,
    ← List.filterMap_eq_filter, List.filterMap_map]
  congr 1
  funext cone
  rw [detected_iff]
  simp only [Function.comp_apply, seenFrom, WorldCone.place]
  by_cases hcone : mask MathLib.real (relative MathLib.real state (cone.x, cone.y)) = true ∧
      ¬ (relative MathLib.real state (cone.x, cone.y)).1 < 1 / 2
  · rw [if_pos hcone, Option.guard]
    simp only [Bool.and_eq_true, decide_eq_true_eq]
    rw [if_pos hcone]
    rfl
  · rw [if_neg hcone, Option.guard]
    simp only [Bool.and_eq_true, decide_eq_true_eq]
    rw [if_neg hcone]
    rfl

/-- A second filter changes nothing exactly if all that passed the first pass it. -/
theorem filter_perm_iff {α : Type} (p q : α → Bool) (l : List α) :
    (l.filter p).Perm (l.filter fun x => p x && q x) ↔ ∀ x ∈ l, p x = true → q x = true := by
  constructor
  · intro hperm x hx hp
    have hmem : x ∈ l.filter fun x => p x && q x :=
      hperm.mem_iff.mp (List.mem_filter.mpr ⟨hx, hp⟩)
    exact (Bool.and_eq_true _ _ ▸ (List.mem_filter.mp hmem).2).2
  · intro hall
    refine List.Perm.of_eq (List.filter_congr fun x hx => ?_)
    cases hp : p x with
    | false => rfl
    | true => rw [hall x hx hp, Bool.and_self]

/-- The two filters against the one. -/
theorem seen_perm_iff (state : KartState ℝ) {blue yellow orange : List (ℝ × ℝ)}
    {cones : List (WorldCone ℝ)}
    (hcones : (cones.map WorldCone.place).Perm (places blue yellow orange))
    (draw : Nat → ℝ × ℝ × ℝ) :
    ((perceive MathLib.real state blue yellow orange 0.0 0.0 draw).map seenTriple).Perm
        ((detectedCones MathLib.real ((PerceptionNode.declared MathLib.real state
          cones).publish MathLib.real)).map coneTriple) ↔
      ∀ cone ∈ cones, mask MathLib.real (relative MathLib.real state (cone.x, cone.y)) = true →
        ¬ (relative MathLib.real state (cone.x, cone.y)).1 < 1 / 2 := by
  rw [perceive_exact, received_eq]
  have hseen := ((hcones.map (seenFrom state)).filter fun p => mask MathLib.real p.2).symm
  rw [hseen.congr_left, filter_perm_iff]
  simp only [List.forall_mem_map, seenFrom, WorldCone.place, decide_eq_true_eq]

/-- **The two controllers get the same cones** exactly if no cone is in the tip of the
sector. -/
theorem sameCones_iff (state : KartState ℝ) {blue yellow orange : List (ℝ × ℝ)}
    {cones : List (WorldCone ℝ)}
    (hcones : (cones.map WorldCone.place).Perm (places blue yellow orange))
    (draw : Nat → ℝ × ℝ × ℝ) :
    ((perceive MathLib.real state blue yellow orange 0.0 0.0 draw).map seenTriple).Perm
        ((detectedCones MathLib.real ((PerceptionNode.declared MathLib.real state
          cones).publish MathLib.real)).map coneTriple) ↔
      ∀ cone ∈ cones, ¬ InTip (relative MathLib.real state (cone.x, cone.y)) := by
  rw [seen_perm_iff state hcones]
  refine forall₂_congr fun cone _ => ?_
  rw [mask_iff]
  constructor
  · rintro hahead ⟨hlo, hhi, hview, htip⟩
    exact hahead ⟨hlo, hhi, hview⟩ htip
  · rintro hout ⟨hlo, hhi, hview⟩ htip
    exact hout ⟨hlo, hhi, hview, htip⟩

/-- A kart at the origin and one cone. -/
theorem sameCones_single :
    ((perceive MathLib.real ⟨0, 0, 0, 0⟩ [(5, 1)] [] [] 0.0 0.0 fun _ => 0).map seenTriple).Perm
        ((detectedCones MathLib.real ((PerceptionNode.declared MathLib.real ⟨0, 0, 0, 0⟩
          [⟨"blue_cone", 5, 1, 0⟩]).publish MathLib.real)).map coneTriple) ↔
      ∀ cone ∈ ([⟨"blue_cone", 5, 1, 0⟩] : List (WorldCone ℝ)),
        ¬ InTip (relative MathLib.real ⟨0, 0, 0, 0⟩ (cone.x, cone.y)) :=
  sameCones_iff ⟨0, 0, 0, 0⟩ (List.Perm.refl _) fun _ => 0

/-- Ahead 0.48 and left 0.14: half a metre away, and within 17 degrees. -/
theorem mask_tip : mask MathLib.real (0.48, 0.14) = true := by
  have hdist : √((0.48 : ℝ) * 0.48 + 0.14 * 0.14) = 1 / 2 := by
    rw [show (0.48 : ℝ) * 0.48 + 0.14 * 0.14 = (1 / 2) ^ 2 by norm_num]
    exact Real.sqrt_sq (by norm_num)
  have hnorm : ‖(⟨0.48, 0.14⟩ : ℂ)‖ = 1 / 2 := by
    rw [Complex.norm_eq_sqrt_sq_add_sq, ← hdist]
    congr 1
    ring
  have harg : Complex.arg ⟨0.48, 0.14⟩ = Real.arcsin 0.28 := by
    rw [Complex.arg_of_re_nonneg (by norm_num), hnorm]
    norm_num
  have hpi := Real.pi_pos
  have hnonneg : 0 ≤ Real.arcsin 0.28 := Real.arcsin_nonneg.mpr (by norm_num)
  have hle : Real.arcsin 0.28 ≤ Real.pi / 6 := by
    rw [Real.arcsin_le_iff_le_sin' ⟨by linarith, by linarith⟩, Real.sin_pi_div_six]
    norm_num
  rw [mask_iff]
  dsimp only
  rw [hdist, harg, abs_of_nonneg hnonneg]
  exact ⟨le_refl _, by norm_num, by linarith⟩

/-- With the kart at the origin the simulator's controller gets a cone at (1.03, 0.14),
and the node's does not. -/
theorem tip_not_received : ¬ ∀ (state : KartState ℝ) (blue yellow orange : List (ℝ × ℝ))
    (cones : List (WorldCone ℝ)) (draw : Nat → ℝ × ℝ × ℝ),
    (cones.map WorldCone.place).Perm (places blue yellow orange) →
    ((perceive MathLib.real state blue yellow orange 0.0 0.0 draw).map seenTriple).Perm
      ((detectedCones MathLib.real ((PerceptionNode.declared MathLib.real state
        cones).publish MathLib.real)).map coneTriple) := by
  intro hall
  have hplace : relative MathLib.real (⟨0, 0, 0, 0⟩ : KartState ℝ) (1.03, 0.14) = (0.48, 0.14) := by
    simp only [relative, MathLib.real, cameraOffset, Real.cos_zero, Real.sin_zero]
    norm_num
  have hcones : ([⟨"blue_cone", 1.03, 0.14, 0⟩] : List (WorldCone ℝ)).map WorldCone.place |>.Perm
      (places [(1.03, 0.14)] [] []) := List.Perm.refl _
  have hperm := hall ⟨0, 0, 0, 0⟩ [(1.03, 0.14)] [] [] _ (fun _ => 0) hcones
  have hahead := (seen_perm_iff _ hcones _).mp hperm _ (List.mem_singleton.mpr rfl)
  simp only [hplace] at hahead
  exact hahead mask_tip (by norm_num)

end KartStack.ConePerception
