import KartStack.ConeFollower
import KartStack.LeastElement
import Mathlib.Analysis.SpecialFunctions.Trigonometric.Bounds

/-! # The target on the display

`steering_hud_node.py` draws the target of the controller over the image of the camera.
It has no word from the controller on it, and works the target out again, from the same
message and in the frame of the camera.  It looks at all cones ahead up to the farthest
distance; the controller leaves out those more than 15 m away or out of a view of 35° to
either side first.

So the two have the same target if the nearest cone on each side is one that the controller
sees, and otherwise only where the numbers happen to agree (`hudTarget_iff`).
-/
namespace KartStack.SteeringHud
open KartStack.Python
open ConeFollower (Position Hypothesis Detection Cone detectedCone detectedCones)

/-! ## The node -/

/-- A cone that is drawn: `(pos.x, pos.y, pos.z, dist)`. -/
structure NearCone (K : Type) where
  pos : Position K
  dist : K

/-- The nearest cones so far, and their distances. -/
structure Nearest (K : Type) where
  nearestBlue : Option (NearCone K)
  nearestYellow : Option (NearCone K)
  minBlueDist : K
  minYellowDist : K

/-- What is said about the cones. -/
inductive Status
  | blueAndYellow
  | blueOnly
  | yellowOnly
  | noCones
  | no3d
  | stale
  deriving DecidableEq, Repr

/-- `SteeringHudNode`, as far as cones go. -/
structure Node (K : Type) where
  halfTrackWidth : K
  lookaheadMax : K
  coneStaleness : K
  latestCones : Option (List (Detection K))
  latestConesTime : K

section
variable {K : Type}

/-- `_on_cones`, at the time `now`. -/
def Node.onCones (self : Node K) (now : K) (msg : List (Detection K)) : Node K :=
  { self with latestCones := some msg, latestConesTime := now }

variable [LT K] [DecidableLT K] [OfScientific K] [Neg K] [Add K] [Mul K]

/-- The loop of `_find_nearest_cones`, for one detection. -/
def Node.look (m : MathLib K) (self : Node K) (n : Nearest K) (det : Detection K) : Nearest K :=
  match det.results with
  | [] => n
  | result :: _ =>
    let pos := result.position
    let fwd := pos.z
    let left := -pos.x
    let dist := m.sqrt (fwd * fwd + left * left)
    if fwd < 0.5 then n
    else if self.lookaheadMax < dist then n
    else if result.classId = "blue_cone" ∧ dist < n.minBlueDist then
      { n with minBlueDist := dist, nearestBlue := some ⟨pos, dist⟩ }
    else if result.classId = "yellow_cone" ∧ dist < n.minYellowDist then
      { n with minYellowDist := dist, nearestYellow := some ⟨pos, dist⟩ }
    else n

/-- `_find_nearest_cones`; `inf` is `float("inf")`. -/
def Node.findNearestCones (m : MathLib K) (inf : K) (self : Node K)
    (conesMsg : List (Detection K)) : Option (NearCone K) × Option (NearCone K) :=
  let n := conesMsg.foldl (self.look m) ⟨none, none, inf, inf⟩
  (n.nearestBlue, n.nearestYellow)

variable [Sub K] [Div K]

/-- `mid_opt`, the point between the cones, in the frame of the camera. -/
def Node.midOpt (self : Node K) :
    Option (NearCone K) × Option (NearCone K) → Option (Position K)
  | (some b, some y) => some ⟨(b.pos.x + y.pos.x) / 2.0, (b.pos.y + y.pos.y) / 2.0,
      (b.pos.z + y.pos.z) / 2.0⟩
  | (some b, none) => some ⟨b.pos.x + self.halfTrackWidth, b.pos.y, b.pos.z⟩
  | (none, some y) => some ⟨y.pos.x - self.halfTrackWidth, y.pos.y, y.pos.z⟩
  | (none, none) => none

/-- What `_on_image` shows of the cones, at the time `now`. -/
def Node.onImage (m : MathLib K) (inf : K) (self : Node K) (now : K) :
    Status × Option (Position K) :=
  match self.latestCones with
  | none => (.no3d, none)
  | some cones =>
    if now - self.latestConesTime < self.coneStaleness then
      let near := self.findNearestCones m inf cones
      match near with
      | (some _, some _) => (.blueAndYellow, self.midOpt near)
      | (some _, none) => (.blueOnly, self.midOpt near)
      | (none, some _) => (.yellowOnly, self.midOpt near)
      | (none, none) => (.noCones, self.midOpt near)
    else (.stale, none)

/-- The target shown for a message. -/
def Node.target (m : MathLib K) (inf : K) (self : Node K) (conesMsg : List (Detection K)) :
    Option (Position K) :=
  self.midOpt (self.findNearestCones m inf conesMsg)

/-- It is shown as long as the message is fresh. -/
theorem onImage_target (m : MathLib K) (inf : K) (self : Node K) {t now : K}
    (msg : List (Detection K)) (h : now - t < self.coneStaleness) :
    ((self.onCones t msg).onImage m inf now).2 = self.target m inf msg := by
  have hfresh : now - (self.onCones t msg).latestConesTime <
      (self.onCones t msg).coneStaleness := h
  have htarget : self.target m inf msg =
      (self.onCones t msg).midOpt ((self.onCones t msg).findNearestCones m inf msg) := rfl
  have hcones : (self.onCones t msg).latestCones = some msg := rfl
  rw [Node.onImage, hcones, htarget]
  simp only [if_pos hfresh]
  rcases (self.onCones t msg).findNearestCones m inf msg with ⟨_ | b, _ | y⟩ <;> rfl

end

end KartStack.SteeringHud

namespace KartStack.ConeFollower
open KartStack.Python

section
variable {K : Type} [LT K] [DecidableLT K] [OfScientific K] [Neg K] [Add K] [Sub K] [Mul K] [Div K]

/-- The target of the geometric controller for a message. -/
def Node.target (m : MathLib K) (inf : K) (self : Node K) (detections : List (Detection K)) :
    Option (K × K) :=
  self.midpoint ((detectedCones m detections).foldl (self.look m) ⟨none, none, inf, inf⟩)

/-- It steers for the target. -/
theorem controlGeometric_target (m : MathLib K) (inf : K) (self : Node K)
    {detections : List (Detection K)} {midF midL : K}
    (h : self.target m inf detections = some (midF, midL)) :
    (self.controlGeometric m inf (detectedCones m detections)).1.1 =
      Python.max (-self.params.maxSteer)
        (Python.min self.params.maxSteer (self.params.steeringGain * m.atan2 midL midF)) := by
  rw [Node.target] at h
  rw [Node.controlGeometric, h]

/-- With no target it steers as before. -/
theorem controlGeometric_no_target (m : MathLib K) (inf : K) (self : Node K)
    {detections : List (Detection K)} (h : self.target m inf detections = none) :
    (self.controlGeometric m inf (detectedCones m detections)).1.1 = self.lastSteer := by
  rw [Node.target] at h
  rw [Node.controlGeometric, h]

end

end KartStack.ConeFollower

namespace KartStack.SteeringHud
open KartStack.Python
open ConeFollower (Position Hypothesis Detection Cone detectedCone detectedCones)

/-! ## The nearest cones -/

/-- The distance of a cone, on the ground. -/
noncomputable def distance (p : Position ℝ) : ℝ := √(p.z * p.z + p.x * p.x)

/-- Where the cone of a detection is, if it is of this class. -/
def placed (classId : String) (det : Detection ℝ) : Option (Position ℝ) :=
  match det.results with
  | [] => none
  | result :: _ => if result.classId = classId then some result.position else none

/-- A cone ahead, and not farther than the lookahead. -/
def Reached (lookaheadMax : ℝ) (p : Position ℝ) : Prop :=
  0.5 ≤ p.z ∧ distance p ≤ lookaheadMax

/-- A cone that the controller does not leave out: within 15 m, and in view. -/
def InView (p : Position ℝ) : Prop :=
  distance p ≤ 15.0 ∧ |Complex.arg ⟨p.z, -p.x⟩| ≤ 0.6109

open Classical in
/-- The cones of a class that are reached. -/
noncomputable def reached (lookaheadMax : ℝ) (classId : String) (dets : List (Detection ℝ)) :
    List (Position ℝ) :=
  (dets.filterMap (placed classId)).filter fun p => Reached lookaheadMax p

/-- The first nearest of those. -/
noncomputable def nearest (lookaheadMax : ℝ) (classId : String) (dets : List (Detection ℝ)) :
    Option (Position ℝ) :=
  (reached lookaheadMax classId dets).argmin distance

open Classical in
/-- The first nearest of those in view. -/
noncomputable def nearestInView (lookaheadMax : ℝ) (classId : String)
    (dets : List (Detection ℝ)) : Option (Position ℝ) :=
  ((reached lookaheadMax classId dets).filter fun p => InView p).argmin distance

theorem nearestInView_eq_iff {lookaheadMax : ℝ} {classId : String} {dets : List (Detection ℝ)} :
    nearestInView lookaheadMax classId dets = nearest lookaheadMax classId dets ↔
      ∀ p ∈ nearest lookaheadMax classId dets, InView p := by
  classical
  rw [nearestInView, nearest, LeastElement.argmin_filter_eq_iff]
  simp only [decide_eq_true_eq]

/-! ## The loops -/

open Classical in
/-- What is nearest so far, of a class and among those that pass a test. -/
noncomputable def lookAt (keeps : Position ℝ → Prop) (classId : String)
    (best : Option (Position ℝ) × ℝ) (det : Detection ℝ) : Option (Position ℝ) × ℝ :=
  match placed classId det with
  | some p => if keeps p then LeastElement.keep distance best p else best
  | none => best

open Classical in
theorem foldl_lookAt (keeps : Position ℝ → Prop) (classId : String)
    (best : Option (Position ℝ) × ℝ) (dets : List (Detection ℝ)) :
    dets.foldl (lookAt keeps classId) best =
      ((dets.filterMap (placed classId)).filter fun p => keeps p).foldl
        (LeastElement.keep distance) best := by
  rw [List.foldl_filter, List.foldl_filterMap]
  congr 1
  funext best det
  rw [lookAt]
  cases placed classId det with
  | none => rfl
  | some p => simp only [decide_eq_true_eq]

/-- The same of both sides. -/
noncomputable def lookBoth (keeps : Position ℝ → Prop)
    (s : (Option (Position ℝ) × ℝ) × (Option (Position ℝ) × ℝ)) (det : Detection ℝ) :
    (Option (Position ℝ) × ℝ) × (Option (Position ℝ) × ℝ) :=
  (lookAt keeps "blue_cone" s.1 det, lookAt keeps "yellow_cone" s.2 det)

theorem foldl_lookBoth (keeps : Position ℝ → Prop)
    (s : (Option (Position ℝ) × ℝ) × (Option (Position ℝ) × ℝ)) (dets : List (Detection ℝ)) :
    dets.foldl (lookBoth keeps) s =
      (dets.foldl (lookAt keeps "blue_cone") s.1, dets.foldl (lookAt keeps "yellow_cone") s.2) := by
  induction dets generalizing s with
  | nil => rfl
  | cons det dets ih => exact ih (lookBoth keeps s det)

section
variable {keeps : Position ℝ → Prop} {result : Hypothesis ℝ} {results : List (Hypothesis ℝ)}
  {center size : Position ℝ} (s : (Option (Position ℝ) × ℝ) × (Option (Position ℝ) × ℝ))

/-- A cone that does not pass changes nothing. -/
theorem lookBoth_of_not_keeps (h : ¬ keeps result.position) :
    lookBoth keeps s ⟨result :: results, center, size⟩ = s := by
  have hside : ∀ classId best,
      lookAt keeps classId best ⟨result :: results, center, size⟩ = best := by
    intro classId best
    by_cases hclass : result.classId = classId <;> simp [lookAt, placed, hclass, h]
  rw [lookBoth, hside, hside]

/-- One that does is held against those of its class, as both programs do. -/
theorem lookBoth_of_keeps (h : keeps result.position) :
    lookBoth keeps s ⟨result :: results, center, size⟩ =
      if result.classId = "blue_cone" ∧ distance result.position < s.1.2 then
        ((some result.position, distance result.position), s.2)
      else if result.classId = "yellow_cone" ∧ distance result.position < s.2.2 then
        (s.1, (some result.position, distance result.position))
      else s := by
  by_cases hblue : result.classId = "blue_cone"
  · by_cases hless : distance result.position < s.1.2 <;>
      simp [lookBoth, lookAt, placed, LeastElement.keep, h, hblue, hless]
  · by_cases hyellow : result.classId = "yellow_cone"
    · by_cases hless : distance result.position < s.2.2 <;>
        simp [lookBoth, lookAt, placed, LeastElement.keep, h, hyellow, hless]
    · simp [lookBoth, lookAt, placed, hblue, hyellow]

end

/-- The loop of the display has the nearest cones, and their distances. -/
structure Shows (n : Nearest ℝ) (s : (Option (Position ℝ) × ℝ) × (Option (Position ℝ) × ℝ)) :
    Prop where
  nearestBlue : n.nearestBlue.map (·.pos) = s.1.1
  minBlueDist : n.minBlueDist = s.1.2
  nearestYellow : n.nearestYellow.map (·.pos) = s.2.1
  minYellowDist : n.minYellowDist = s.2.2

theorem Shows.look {self : Node ℝ} {n : Nearest ℝ}
    {s : (Option (Position ℝ) × ℝ) × (Option (Position ℝ) × ℝ)} (h : Shows n s)
    (det : Detection ℝ) :
    Shows (self.look MathLib.real n det) (lookBoth (Reached self.lookaheadMax) s det) := by
  obtain ⟨results, center, size⟩ := det
  cases results with
  | nil => exact h
  | cons result results =>
    have hdist : MathLib.real.sqrt (result.position.z * result.position.z +
        -result.position.x * -result.position.x) = distance result.position := by
      rw [neg_mul_neg]
      rfl
    simp only [Node.look, hdist]
    by_cases hreached : Reached self.lookaheadMax result.position
    · rw [if_neg (not_lt.mpr hreached.1), if_neg (not_lt.mpr hreached.2),
        lookBoth_of_keeps s hreached, ← h.minBlueDist, ← h.minYellowDist]
      split_ifs
      · exact ⟨rfl, rfl, h.nearestYellow, h.minYellowDist⟩
      · exact ⟨h.nearestBlue, h.minBlueDist, rfl, rfl⟩
      · exact h
    · rw [lookBoth_of_not_keeps s hreached]
      by_cases hfwd : result.position.z < 0.5
      · rw [if_pos hfwd]
        exact h
      · have hfar : self.lookaheadMax < distance result.position :=
          not_le.mp fun hle => hreached ⟨not_lt.mp hfwd, hle⟩
        rw [if_neg hfwd, if_pos hfar]
        exact h

theorem Shows.run {n : Nearest ℝ} {s : (Option (Position ℝ) × ℝ) × (Option (Position ℝ) × ℝ)}
    (h : Shows n s) (self : Node ℝ) (dets : List (Detection ℝ)) :
    Shows (dets.foldl (self.look MathLib.real) n)
      (dets.foldl (lookBoth (Reached self.lookaheadMax)) s) := by
  induction dets generalizing n s with
  | nil => exact h
  | cons det dets ih => exact ih (h.look det)

/-- A point as the controller has it. -/
def frame (p : Position ℝ) : ℝ × ℝ := (p.z, -p.x)

/-- The loop of the controller has the nearest cones, and their distances. -/
structure Follows (n : ConeFollower.Nearest ℝ)
    (s : (Option (Position ℝ) × ℝ) × (Option (Position ℝ) × ℝ)) : Prop where
  nearestBlue : n.nearestBlue = s.1.1.map frame
  minBd : n.minBd = s.1.2
  nearestYellow : n.nearestYellow = s.2.1.map frame
  minYd : n.minYd = s.2.2

/-- The cones that the controller goes by. -/
def Followed (lookaheadMax : ℝ) (p : Position ℝ) : Prop := Reached lookaheadMax p ∧ InView p

theorem Follows.look {self : ConeFollower.Node ℝ} {n : ConeFollower.Nearest ℝ}
    {s : (Option (Position ℝ) × ℝ) × (Option (Position ℝ) × ℝ)} (h : Follows n s)
    (det : Detection ℝ) :
    Follows ((detectedCone MathLib.real det).toList.foldl (self.look MathLib.real) n)
      (lookBoth (Followed self.params.lookaheadMax) s det) := by
  obtain ⟨results, center, size⟩ := det
  cases results with
  | nil => exact h
  | cons result results =>
    have hdist : MathLib.real.hypot result.position.z (-result.position.x) =
        distance result.position := congrArg Real.sqrt (by ring)
    have hangle : Python.abs (MathLib.real.atan2 (-result.position.x) result.position.z) =
        |Complex.arg ⟨result.position.z, -result.position.x⟩| := python_abs _
    simp only [detectedCone, hdist, hangle]
    by_cases hfollowed : Followed self.params.lookaheadMax result.position
    · obtain ⟨⟨hfwd, hnear⟩, hrange, hview⟩ := id hfollowed
      rw [if_neg (not_lt.mpr hfwd), if_neg (not_lt.mpr hrange), if_neg (not_lt.mpr hview),
        Option.toList_some, List.foldl_cons, List.foldl_nil]
      simp only [ConeFollower.Node.look, hdist]
      rw [if_neg (not_lt.mpr hnear), lookBoth_of_keeps s hfollowed, ← h.minBd, ← h.minYd]
      split_ifs
      · exact ⟨rfl, rfl, h.nearestYellow, h.minYd⟩
      · exact ⟨h.nearestBlue, h.minBd, rfl, rfl⟩
      · exact h
    · rw [lookBoth_of_not_keeps s hfollowed]
      split_ifs with hfwd hrange hview
      · exact h
      · exact h
      · exact h
      · -- in view, and beyond the lookahead
        have hfar : self.params.lookaheadMax < distance result.position :=
          not_le.mp fun hle => hfollowed
            ⟨⟨not_lt.mp hfwd, hle⟩, not_lt.mp hrange, not_lt.mp hview⟩
        rw [Option.toList_some, List.foldl_cons, List.foldl_nil]
        simp only [ConeFollower.Node.look, hdist]
        rw [if_pos hfar]
        exact h

theorem Follows.run {n : ConeFollower.Nearest ℝ}
    {s : (Option (Position ℝ) × ℝ) × (Option (Position ℝ) × ℝ)} (h : Follows n s)
    (self : ConeFollower.Node ℝ) (dets : List (Detection ℝ)) :
    Follows ((detectedCones MathLib.real dets).foldl (self.look MathLib.real) n)
      (dets.foldl (lookBoth (Followed self.params.lookaheadMax)) s) := by
  induction dets generalizing n s with
  | nil => exact h
  | cons det dets ih =>
    have hcones : detectedCones MathLib.real (det :: dets) =
        (detectedCone MathLib.real det).toList ++ detectedCones MathLib.real dets := by
      rw [detectedCones, List.filterMap_cons]
      cases detectedCone MathLib.real det <;> rfl
    rw [hcones, List.foldl_append]
    exact ih (h.look det)

/-! ## The targets -/

/-- The point halfway between two cones, or half the width of the track off one, as the
controller has it. -/
noncomputable def between (halfTrackWidth : ℝ) : Option (Position ℝ) → Option (Position ℝ) →
    Option (ℝ × ℝ)
  | some b, some y => some ((b.z + y.z) / 2.0, -(b.x + y.x) / 2.0)
  | some b, none => some (b.z, -b.x - halfTrackWidth)
  | none, some y => some (y.z, -y.x + halfTrackWidth)
  | none, none => none

section
variable {inf : ℝ}

open Classical in
/-- The loop of both sides ends with the nearest cones. -/
theorem foldl_lookBoth_nearest {keeps : Position ℝ → Prop} (dets : List (Detection ℝ))
    (h : ∀ p, keeps p → distance p < inf) :
    (dets.foldl (lookBoth keeps) ((none, inf), (none, inf))).1.1 =
        ((dets.filterMap (placed "blue_cone")).filter fun p => keeps p).argmin distance ∧
      (dets.foldl (lookBoth keeps) ((none, inf), (none, inf))).2.1 =
        ((dets.filterMap (placed "yellow_cone")).filter fun p => keeps p).argmin distance := by
  have hside : ∀ classId, (((dets.filterMap (placed classId)).filter fun p => keeps p).foldl
      (LeastElement.keep distance) (none, inf)).1 =
        ((dets.filterMap (placed classId)).filter fun p => keeps p).argmin distance := by
    intro classId
    have hlt : ∀ p ∈ (dets.filterMap (placed classId)).filter fun p => keeps p,
        distance p < inf := fun p hp => h p (by simpa using (List.mem_filter.mp hp).2)
    rw [LeastElement.foldl_keep distance hlt]
  rw [foldl_lookBoth, foldl_lookAt, foldl_lookAt]
  exact ⟨hside _, hside _⟩

theorem target_frame {self : Node ℝ} (h : self.lookaheadMax < inf) (dets : List (Detection ℝ)) :
    (self.target MathLib.real inf dets).map frame =
      between self.halfTrackWidth (nearest self.lookaheadMax "blue_cone" dets)
        (nearest self.lookaheadMax "yellow_cone" dets) := by
  classical
  have hstart : Shows ⟨none, none, inf, inf⟩ ((none, inf), (none, inf)) := ⟨rfl, rfl, rfl, rfl⟩
  obtain ⟨hblue, -, hyellow, -⟩ := hstart.run self dets
  have htwo : (2.0 : ℝ) = 2 := by norm_num
  obtain ⟨hnearBlue, hnearYellow⟩ := foldl_lookBoth_nearest dets
    fun p (hp : Reached self.lookaheadMax p) => hp.2.trans_lt h
  rw [nearest, reached, ← hnearBlue, ← hblue, nearest, reached, ← hnearYellow, ← hyellow]
  rw [Node.target, Node.findNearestCones]
  rcases (dets.foldl (self.look MathLib.real) ⟨none, none, inf, inf⟩) with ⟨_ | b, _ | y, _, _⟩
  · rfl
  · simp only [Node.midOpt, between, frame, Option.map_some, Option.map_none, Option.some.injEq,
      Prod.mk.injEq]
    exact ⟨trivial, by ring⟩
  · simp only [Node.midOpt, between, frame, Option.map_some, Option.map_none, Option.some.injEq,
      Prod.mk.injEq]
    exact ⟨trivial, by ring⟩
  · simp only [Node.midOpt, between, frame, Option.map_some, Option.some.injEq, Prod.mk.injEq, htwo]
    exact ⟨trivial, by ring⟩

theorem target_followed {self : ConeFollower.Node ℝ} (h : self.params.lookaheadMax < inf)
    (dets : List (Detection ℝ)) :
    self.target MathLib.real inf dets =
      between self.params.halfTrackWidth
        (nearestInView self.params.lookaheadMax "blue_cone" dets)
        (nearestInView self.params.lookaheadMax "yellow_cone" dets) := by
  classical
  have hstart : Follows ⟨none, none, inf, inf⟩ ((none, inf), (none, inf)) := ⟨rfl, rfl, rfl, rfl⟩
  obtain ⟨hblue, -, hyellow, -⟩ := hstart.run self dets
  have htwo : (2.0 : ℝ) = 2 := by norm_num
  have hfilter : ∀ classId, ((dets.filterMap (placed classId)).filter
      fun p => Followed self.params.lookaheadMax p) =
        (reached self.params.lookaheadMax classId dets).filter fun p => InView p := by
    intro classId
    rw [reached, List.filter_filter]
    refine List.filter_congr fun p _ => ?_
    rw [← Bool.decide_and, decide_eq_decide]
    exact and_comm
  obtain ⟨hnearBlue, hnearYellow⟩ := foldl_lookBoth_nearest dets
    fun p (hp : Followed self.params.lookaheadMax p) => hp.1.2.trans_lt h
  rw [hnearBlue, hfilter] at hblue
  rw [hnearYellow, hfilter] at hyellow
  rw [ConeFollower.Node.target, ConeFollower.Node.midpoint, hblue, hyellow, ← nearestInView,
    ← nearestInView]
  rcases nearestInView self.params.lookaheadMax "blue_cone" dets with _ | b <;>
    rcases nearestInView self.params.lookaheadMax "yellow_cone" dets with _ | y
  · rfl
  · rfl
  · rfl
  · simp only [between, frame, Option.map_some, Option.some.injEq, Prod.mk.injEq, htwo]
    exact ⟨trivial, by ring⟩

end

/-- The points agree although the cones do not: what is too far to one side is made up for on
the other, or by the width of the track. -/
def Coincide (halfTrackWidth : ℝ) : (blue yellow blueInView yellowInView : Option (Position ℝ)) →
    Prop
  | some b, some y, some b', some y' =>
    ¬ InView b ∧ ¬ InView y ∧ b.x + y.x = b'.x + y'.x ∧ b.z + y.z = b'.z + y'.z
  | some b, some y, some b', none =>
    (b.x + y.x) / 2.0 = b'.x + halfTrackWidth ∧ (b.z + y.z) / 2.0 = b'.z
  | some b, some y, none, some y' =>
    (b.x + y.x) / 2.0 = y'.x - halfTrackWidth ∧ (b.z + y.z) / 2.0 = y'.z
  | _, _, _, _ => False

/-- What is known of the nearest cone of a class, and of the nearest in view. -/
structure Sides (p p' : Option (Position ℝ)) : Prop where
  eq_iff : p' = p ↔ ∀ c ∈ p, InView c
  inView : ∀ c ∈ p', InView c
  none : p = .none → p' = .none

theorem sides_nearest (lookaheadMax : ℝ) (classId : String) (dets : List (Detection ℝ)) :
    Sides (nearest lookaheadMax classId dets) (nearestInView lookaheadMax classId dets) where
  eq_iff := nearestInView_eq_iff
  inView c hc := by
    classical
    simpa using (List.mem_filter.mp (List.argmin_mem hc)).2
  none h := by
    rw [nearest, List.argmin_eq_none] at h
    rw [nearestInView, h]
    rfl

theorem inView_of_frame {b b' : Position ℝ} (hz : b.z = b'.z) (hx : b.x = b'.x)
    (h : InView b') : InView b := by
  rw [InView, distance, hz, hx]
  exact h

/-- With two cones of each, one of them in view fixes the other. -/
theorem between_eq_pair {b y b' y' : Position ℝ} (hb : Sides (some b) (some b'))
    (hy : Sides (some y) (some y')) (hx : b.x + y.x = b'.x + y'.x)
    (hz : b.z + y.z = b'.z + y'.z) : (InView b ∧ InView y) ∨ (¬ InView b ∧ ¬ InView y) := by
  by_cases hviewb : InView b
  · obtain rfl : b' = b := by simpa using hb.eq_iff.mpr (by simpa using hviewb)
    exact .inl ⟨hviewb, inView_of_frame (by linarith) (by linarith) (hy.inView y' rfl)⟩
  · by_cases hviewy : InView y
    · obtain rfl : y' = y := by simpa using hy.eq_iff.mpr (by simpa using hviewy)
      exact absurd (inView_of_frame (by linarith) (by linarith) (hb.inView b' rfl)) hviewb
    · exact .inr ⟨hviewb, hviewy⟩

theorem between_eq_iff {w : ℝ} {b y b' y' : Option (Position ℝ)} (hb : Sides b b')
    (hy : Sides y y') :
    between w b y = between w b' y' ↔
      ((∀ p ∈ b, InView p) ∧ ∀ p ∈ y, InView p) ∨ Coincide w b y b' y' := by
  constructor
  · intro h
    rcases b with _ | b
    · obtain rfl := hb.none rfl
      rcases y with _ | y
      · exact .inl ⟨by simp, by simp⟩
      · rcases y' with _ | y'
        · cases h
        · obtain ⟨hz, hx⟩ := Prod.mk.inj (Option.some.inj h)
          have hview := inView_of_frame hz (by linarith) (hy.inView y' rfl)
          exact .inl ⟨by simp, by simpa using hview⟩
    · rcases y with _ | y
      · obtain rfl := hy.none rfl
        rcases b' with _ | b'
        · cases h
        · obtain ⟨hz, hx⟩ := Prod.mk.inj (Option.some.inj h)
          have hview := inView_of_frame hz (by linarith) (hb.inView b' rfl)
          exact .inl ⟨by simpa using hview, by simp⟩
      · rcases b' with _ | b' <;> rcases y' with _ | y'
        · cases h
        · obtain ⟨hz, hx⟩ := Prod.mk.inj (Option.some.inj h)
          exact .inr ⟨by linarith, by linarith⟩
        · obtain ⟨hz, hx⟩ := Prod.mk.inj (Option.some.inj h)
          exact .inr ⟨by linarith, by linarith⟩
        · obtain ⟨hz, hx⟩ := Prod.mk.inj (Option.some.inj h)
          have hsumx : b.x + y.x = b'.x + y'.x := by linarith
          have hsumz : b.z + y.z = b'.z + y'.z := by linarith
          rcases between_eq_pair hb hy hsumx hsumz with ⟨hviewb, hviewy⟩ | ⟨hviewb, hviewy⟩
          · exact .inl ⟨by simpa using hviewb, by simpa using hviewy⟩
          · exact .inr ⟨hviewb, hviewy, hsumx, hsumz⟩
  · rintro (⟨hviewb, hviewy⟩ | h)
    · rw [hb.eq_iff.mpr hviewb, hy.eq_iff.mpr hviewy]
    · rcases b with _ | b <;> rcases y with _ | y <;> rcases b' with _ | b' <;>
        rcases y' with _ | y' <;> first | exact h.elim | skip
      · obtain ⟨hx, hz⟩ := h
        exact congrArg some (Prod.ext (by linarith) (by linarith))
      · obtain ⟨hx, hz⟩ := h
        exact congrArg some (Prod.ext (by linarith) (by linarith))
      · obtain ⟨-, -, hx, hz⟩ := h
        exact congrArg some (Prod.ext (by linarith) (by linarith))

/-! ## What is shown -/

/-- The display and the controller have the same target for a message, or none. -/
def ShowsTarget (inf : ℝ) (hud : Node ℝ) (follower : ConeFollower.Node ℝ)
    (detections : List (Detection ℝ)) : Prop :=
  (hud.target MathLib.real inf detections).map (fun p => (p.z, -p.x)) =
    follower.target MathLib.real inf detections

/-- **When the target shown is that of the controller**: the nearest cone of each class that is
reached is in view, or the points coincide. -/
theorem hudTarget_iff {inf : ℝ} (hud : Node ℝ) (follower : ConeFollower.Node ℝ)
    (hlook : follower.params.lookaheadMax = hud.lookaheadMax)
    (hwidth : follower.params.halfTrackWidth = hud.halfTrackWidth) (hinf : hud.lookaheadMax < inf)
    (detections : List (Detection ℝ)) :
    ShowsTarget inf hud follower detections ↔
      ((∀ p ∈ nearest hud.lookaheadMax "blue_cone" detections, InView p) ∧
          ∀ p ∈ nearest hud.lookaheadMax "yellow_cone" detections, InView p) ∨
        Coincide hud.halfTrackWidth
          (nearest hud.lookaheadMax "blue_cone" detections)
          (nearest hud.lookaheadMax "yellow_cone" detections)
          (nearestInView hud.lookaheadMax "blue_cone" detections)
          (nearestInView hud.lookaheadMax "yellow_cone" detections) := by
  have hfollowed := target_followed (hlook.trans_lt hinf) detections
  rw [hlook, hwidth] at hfollowed
  have hshown := target_frame hinf detections
  rw [ShowsTarget, hfollowed]
  exact (Eq.congr_left hshown).trans
    (between_eq_iff (sides_nearest _ _ _) (sides_nearest _ _ _))

/-- A blue cone at a place on the ground, in the frame of the controller. -/
noncomputable def blueCone (fwd left : ℝ) : Detection ℝ :=
  ⟨[⟨"blue_cone", 1, ⟨-left, 0, fwd⟩⟩], ⟨-left, 0, fwd⟩, ⟨0, 0, 0⟩⟩

theorem reached_blueCone {lookaheadMax fwd left : ℝ} (h : Reached lookaheadMax ⟨-left, 0, fwd⟩) :
    reached lookaheadMax "blue_cone" [blueCone fwd left] = [⟨-left, 0, fwd⟩] ∧
      reached lookaheadMax "yellow_cone" [blueCone fwd left] = [] := by
  have hblue : placed "blue_cone" (blueCone fwd left) = some ⟨-left, 0, fwd⟩ := rfl
  have hyellow : placed "yellow_cone" (blueCone fwd left) = none := rfl
  simp [reached, hblue, hyellow, h]

theorem nearest_blueCone {lookaheadMax fwd left : ℝ} (h : Reached lookaheadMax ⟨-left, 0, fwd⟩) :
    nearest lookaheadMax "blue_cone" [blueCone fwd left] = some ⟨-left, 0, fwd⟩ ∧
      nearest lookaheadMax "yellow_cone" [blueCone fwd left] = none := by
  rw [nearest, nearest, (reached_blueCone h).1, (reached_blueCone h).2]
  exact ⟨rfl, rfl⟩

/-- The nodes as they are declared. -/
noncomputable def declaredHud : Node ℝ := ⟨1.5, 15.0, 0.5, none, 0.0⟩

noncomputable def declaredFollower : ConeFollower.Node ℝ :=
  ⟨ConeFollower.Params.declared, none, 0.0, 0.0, 0.0⟩

/-- One cone straight ahead. -/
theorem hudTarget_ahead : ShowsTarget 16 declaredHud declaredFollower [blueCone 5 0] := by
  have hinf : declaredHud.lookaheadMax < 16 := by norm_num [declaredHud]
  refine (hudTarget_iff declaredHud declaredFollower rfl rfl hinf [blueCone 5 0]).mpr (.inl ?_)
  have hdist : distance ⟨-0, 0, 5⟩ = 5 := by
    rw [distance, Real.sqrt_eq_iff_mul_self_eq] <;> norm_num
  have hreached : Reached declaredHud.lookaheadMax ⟨-0, 0, 5⟩ := by
    rw [Reached, hdist]
    norm_num [declaredHud]
  have hview : InView ⟨-0, 0, 5⟩ := by
    have harg : Complex.arg ⟨5, 0⟩ = 0 := Complex.arg_ofReal_of_nonneg (x := 5) (by norm_num)
    rw [InView, hdist]
    norm_num [harg]
  rw [(nearest_blueCone hreached).1, (nearest_blueCone hreached).2]
  exact ⟨by simpa using hview, by simp⟩

/-- One cone 53° to the left: a target is shown, and the controller has none. -/
theorem not_showsTarget_left :
    ¬ ∀ (inf : ℝ) (hud : Node ℝ) (follower : ConeFollower.Node ℝ),
      follower.params.lookaheadMax = hud.lookaheadMax →
      follower.params.halfTrackWidth = hud.halfTrackWidth → hud.lookaheadMax < inf →
      ∀ detections, ShowsTarget inf hud follower detections := by
  intro h
  have hinf : declaredHud.lookaheadMax < 16 := by norm_num [declaredHud]
  have hdist : distance ⟨-4, 0, 3⟩ = 5 := by
    rw [distance, Real.sqrt_eq_iff_mul_self_eq] <;> norm_num
  have hreached : Reached declaredHud.lookaheadMax ⟨-4, 0, 3⟩ := by
    rw [Reached, hdist]
    norm_num [declaredHud]
  have hview : ¬ InView ⟨-4, 0, 3⟩ := by
    rintro ⟨-, harg⟩
    have hpoint : (⟨3, - -4⟩ : ℂ) ≠ 0 := fun h0 => by simpa using congrArg Complex.re h0
    have hnorm : ‖(⟨3, - -4⟩ : ℂ)‖ = 5 := by
      rw [Complex.norm_def, Complex.normSq_mk, Real.sqrt_eq_iff_mul_self_eq] <;> norm_num
    -- a cosine of 3/5 is below that of any angle in view
    have hcos := Complex.cos_arg hpoint
    have hle := Real.one_sub_sq_div_two_le_cos (x := Complex.arg ⟨3, - -4⟩)
    have hsq := sq_le_sq.mpr (harg.trans (le_abs_self _))
    rw [hcos, hnorm] at hle
    norm_num at hle hsq
    linarith
  have hnone : nearestInView declaredHud.lookaheadMax "blue_cone" [blueCone 3 4] = none := by
    refine Option.eq_none_iff_forall_not_mem.mpr fun p hp => hview ?_
    obtain ⟨hmem, hp⟩ := List.mem_filter.mp (List.argmin_mem hp)
    rw [(reached_blueCone hreached).1, List.mem_singleton] at hmem
    simpa [hmem] using hp
  have hshown := h 16 declaredHud declaredFollower rfl rfl hinf [blueCone 3 4]
  have hlookahead : declaredFollower.params.lookaheadMax < 16 := hinf
  have hfollowed := target_followed hlookahead [blueCone 3 4]
  have hframe := target_frame hinf [blueCone 3 4]
  have hyellow := (sides_nearest declaredHud.lookaheadMax "yellow_cone" [blueCone 3 4]).none
    (nearest_blueCone hreached).2
  rw [(nearest_blueCone hreached).1, (nearest_blueCone hreached).2] at hframe
  rw [ShowsTarget, hfollowed] at hshown
  have htargets := hframe.symm.trans hshown
  have hlook : declaredFollower.params.lookaheadMax = declaredHud.lookaheadMax := rfl
  rw [hlook, hnone, hyellow] at htargets
  cases htargets

end KartStack.SteeringHud
