import KartStack.NestedPolygons
import KartStack.SimTrack

/-! # On the track or off it

`is_inside_track` takes the side of the nearest segment of each boundary for the whole answer.
Where the boundaries are simple polygons, one within the other, that is the answer of the
even-odd rule unless a corner misleads: the nearest point is a corner, and of the two segments
that meet there the one that comes first in the array lies wrongly (`isInsideTrack_iff`).
Beside a sharp corner there are such places (`not_agrees_sharp`).
-/
namespace KartStack.Sim2d
open KartStack.Python KartStack.Polygon

section
variable {K : Type} [Add K] [Sub K] [Mul K] [Div K] [LT K] [DecidableLT K]

/-- `_point_in_polygon`. -/
def pointInPolygon (px py : K) (poly : List (K × K)) : Bool :=
  (around poly).countP (fun edge =>
    let cond1 := decide (py < edge.1.2) != decide (py < edge.2.2)
    let xIntersect := (edge.2.1 - edge.1.1) * (py - edge.1.2) / (edge.2.2 - edge.1.2) + edge.1.1
    cond1 && decide (px < xIntersect)) % 2 == 1

/-- Outside the blue polygon and inside the yellow one. -/
def TrackData.between (self : TrackData K) (p : K × K) : Bool :=
  !pointInPolygon p.1 p.2 self.blueCones && pointInPolygon p.1 p.2 self.yellowCones

end

theorem pointInPolygon_iff (p : ℝ × ℝ) (poly : List (ℝ × ℝ)) :
    pointInPolygon p.1 p.2 poly = true ↔ Inside poly p := by
  rw [Inside, Nat.odd_iff, pointInPolygon, beq_iff_eq]
  have hcount : (around poly).countP (fun edge : (ℝ × ℝ) × (ℝ × ℝ) =>
      (decide (p.2 < edge.1.2) != decide (p.2 < edge.2.2)) && decide (p.1 <
        (edge.2.1 - edge.1.1) * (p.2 - edge.1.2) / (edge.2.2 - edge.1.2) + edge.1.1)) =
      (edges poly).countP (Meets p ·) := by
    refine List.countP_congr fun edge _ => ?_
    by_cases h1 : p.2 < edge.1.2 <;> by_cases h2 : p.2 < edge.2.2 <;> simp [Meets, h1, h2]
  rw [← hcount]

/-- The boundaries of a track, one within the other. -/
structure NestedBoundaries (track : TrackData ℝ) : Prop where
  blue : Simple track.blueCones
  blueTurn : Counterclockwise track.blueCones
  yellow : Simple track.yellowCones
  yellowTurn : Counterclockwise track.yellowCones
  apart : Apart track.blueCones track.yellowCones
  within : ∀ v ∈ track.blueCones, pointInPolygon v.1 v.2 track.yellowCones = true

/-- The answers for a place are those of the even-odd rule. -/
structure Agrees (track : TrackData ℝ) (p : ℝ × ℝ) : Prop where
  inside : track.isInsideTrack MathLib.real p.1 p.2 = some (track.between p)
  sign : ∃ d, track.distToBoundary MathLib.real p.1 p.2 = some d ∧
    if track.between p then 0 < d else d < 0

/-! ## The nearest segment -/

/-- No number from 0 to 1 is nearer than the clipped one. -/
theorem clip_nearest (x : ℝ) : 0 ≤ clip x 0 1 ∧ clip x 0 1 ≤ 1 ∧ ∀ u, 0 ≤ u → u ≤ 1 →
    clip x 0 1 * clip x 0 1 - 2 * clip x 0 1 * x ≤ u * u - 2 * u * x := by
  rw [clip, python_max, python_min]
  rcases lt_or_ge x 0 with hlow | hlow
  · rw [max_eq_right hlow.le, min_eq_left zero_le_one]
    exact ⟨le_rfl, zero_le_one, fun u hu _ => by nlinarith⟩
  · rw [max_eq_left hlow]
    rcases le_total x 1 with hhigh | hhigh
    · rw [min_eq_left hhigh]
      exact ⟨hlow, hhigh, fun u _ _ => by nlinarith [mul_self_nonneg (u - x)]⟩
    · rw [min_eq_right hhigh]
      exact ⟨zero_le_one, le_rfl, fun u hu hu1 => by nlinarith⟩

/-- The distance of a segment is that of its nearest point. -/
theorem segmentDist_spec (p : ℝ × ℝ) {e : (ℝ × ℝ) × (ℝ × ℝ)} (hne : e.1 ≠ e.2) :
    ∃ q ∈ segment ℝ e.1 e.2, segmentDist MathLib.real p e = Real.sqrt (distSq p q) ∧
      ∀ r ∈ segment ℝ e.1 e.2, distSq p q ≤ distSq p r := by
  obtain ⟨a, b⟩ := e
  obtain ⟨hlow, hhigh, hleast⟩ := clip_nearest (dot (p - a) (b - a) / distSq b a)
  have hN : 0 < distSq b a := distSq_pos hne.symm
  have hk : dot (p - a) (b - a) = dot (p - a) (b - a) / distSq b a * distSq b a :=
    (div_mul_cancel₀ _ hN.ne').symm
  have ht : nearestT p (a, b) = clip (dot (p - a) (b - a) / distSq b a) 0 1 := rfl
  rw [← ht] at hlow hhigh hleast
  refine ⟨a + nearestT p (a, b) • (b - a), ?_, ?_, fun r hr => ?_⟩
  · exact ⟨1 - nearestT p (a, b), nearestT p (a, b), by linarith, hlow, by ring, by module⟩
  · rfl
  · obtain ⟨u, v, hu, hv, huv, rfl⟩ := hr
    have hstep : u • a + v • b = a + v • (b - a) := by
      obtain rfl := eq_sub_of_add_eq huv
      module
    rw [hstep, distSq_toward, distSq_toward, hk]
    have hle := mul_le_mul_of_nonneg_right (hleast v hv (by linarith)) hN.le
    linarith

/-- **The segment that `_side_of_nearest` asks.** -/
theorem sideOfNearest_spec {cones : List (ℝ × ℝ)} (hs : Simple cones) (p : ℝ × ℝ) :
    ∃ a b q d, FirstNearest cones p (a, b) q ∧
      sideOfNearest MathLib.real cones p = some (d, orient a b p) := by
  have hnonempty : around cones ≠ [] := by
    obtain ⟨v, hv⟩ := List.exists_mem_of_ne_nil cones hs.ne_nil
    obtain ⟨w, hvw⟩ := exists_next hv
    exact List.ne_nil_of_mem hvw
  obtain ⟨i, hi, hlt⟩ := exists_argmin_map (segmentDist MathLib.real p) hnonempty
  obtain ⟨⟨a, b⟩, he⟩ : ∃ e, (around cones)[i]? = some e := ⟨_, List.getElem?_eq_getElem hlt⟩
  have hdist : ((around cones).map (segmentDist MathLib.real p))[i]? =
      some (segmentDist MathLib.real p (a, b)) := by rw [List.getElem?_map, he, Option.map_some]
  obtain ⟨d, hd, hmin⟩ := argmin_spec hi
  obtain rfl := Option.some.inj (hdist.symm.trans hd)
  have hab : (a, b) ∈ edges cones := List.mem_of_getElem? he
  obtain ⟨q, hq, hsqrt, -⟩ := segmentDist_spec p (e := (a, b)) (hs.ne_of_edge hab)
  have hside : sideOfNearest MathLib.real cones p =
      some (segmentDist MathLib.real p (a, b), orient a b p) := by
    simp only [sideOfNearest, hi, hdist, he, Option.bind_eq_bind, Option.bind_some]
    rfl
  refine ⟨a, b, q, _, ⟨hq, fun f hf r hr => ?_, i, he, fun j hj f hf r hr => ?_⟩, hside⟩
  · obtain ⟨q', hq', hsqrt', hleast'⟩ := segmentDist_spec p (hs.ne_of_edge hf)
    refine le_trans ?_ (hleast' r hr)
    have hle := hmin _ (List.mem_map_of_mem hf)
    rw [hsqrt, hsqrt'] at hle
    exact (Real.sqrt_le_sqrt_iff (distSq_nonneg p q')).mp hle
  · obtain ⟨q', hq', hsqrt', hleast'⟩ :=
      segmentDist_spec p (hs.ne_of_edge (List.mem_of_getElem? hf))
    refine lt_of_lt_of_le ?_ (hleast' r hr)
    have hdist' : ((around cones).map (segmentDist MathLib.real p))[j]? =
        some (segmentDist MathLib.real p f) := by
      rw [List.getElem?_map]
      exact congrArg (Option.map _) hf
    have hlt' := argmin_first hi hdist hj hdist'
    rw [hsqrt, hsqrt'] at hlt'
    exact (Real.sqrt_lt_sqrt_iff (distSq_nonneg p q)).mp hlt'

/-- The answer of `is_inside_track`. -/
theorem isInsideTrack_spec {track : TrackData ℝ} (hblue : Simple track.blueCones)
    (hyellow : Simple track.yellowCones) (p : ℝ × ℝ) :
    ∃ a b q c d r, FirstNearest track.blueCones p (a, b) q ∧
      FirstNearest track.yellowCones p (c, d) r ∧
      track.isInsideTrack MathLib.real p.1 p.2 =
        some (decide (orient a b p ≤ 0) && decide (0 ≤ orient c d p)) := by
  obtain ⟨a, b, q, _, hfirst, hside⟩ := sideOfNearest_spec hblue p
  obtain ⟨c, d, r, _, hfirst', hside'⟩ := sideOfNearest_spec hyellow p
  refine ⟨a, b, q, c, d, r, hfirst, hfirst', ?_⟩
  simp only [TrackData.isInsideTrack, hside, hside', Option.bind_eq_bind, Option.bind_some]
  rfl

/-- The distance off the boundaries has the sign of that answer. -/
theorem distToBoundary_spec {track : TrackData ℝ} (hblue : Simple track.blueCones)
    (hyellow : Simple track.yellowCones) {p : ℝ × ℝ} (hb : Off track.blueCones p)
    (hy : Off track.yellowCones p) {inside : Bool}
    (h : track.isInsideTrack MathLib.real p.1 p.2 = some inside) :
    ∃ d, 0 < d ∧ track.distToBoundary MathLib.real p.1 p.2 = some (if inside then d else -d) := by
  obtain ⟨a, b, _, _, hfirst, -⟩ := sideOfNearest_spec hblue p
  have hnonempty : around track.blueCones ++ around track.yellowCones ≠ [] :=
    List.append_ne_nil_of_left_ne_nil (List.ne_nil_of_mem hfirst.mem_edges) _
  obtain ⟨i, hi, hlt⟩ := exists_argmin_map (segmentDist MathLib.real p) hnonempty
  have he := List.getElem?_eq_getElem hlt
  have hmem := List.getElem_mem hlt
  generalize (around track.blueCones ++ around track.yellowCones)[i] = e at he hmem
  have hpos : 0 < segmentDist MathLib.real p e := by
    obtain ⟨hne, hoff⟩ : e.1 ≠ e.2 ∧ p ∉ segment ℝ e.1 e.2 := by
      rcases List.mem_append.mp hmem with hmem | hmem
      · exact ⟨hblue.ne_of_edge hmem, hb e hmem⟩
      · exact ⟨hyellow.ne_of_edge hmem, hy e hmem⟩
    obtain ⟨q, hq, hsqrt, -⟩ := segmentDist_spec p hne
    rw [hsqrt]
    refine Real.sqrt_pos.mpr (distSq_pos ?_)
    rintro rfl
    exact hoff hq
  refine ⟨_, hpos, ?_⟩
  simp only [TrackData.distToBoundary, hi, List.getElem?_map, he, h, Option.map_some,
    Option.bind_eq_bind, Option.bind_some]
  rfl

/-- The sign is right where the answer is. -/
theorem agrees_iff_inside {track : TrackData ℝ} (hblue : Simple track.blueCones)
    (hyellow : Simple track.yellowCones) {p : ℝ × ℝ} (hb : Off track.blueCones p)
    (hy : Off track.yellowCones p) :
    Agrees track p ↔ track.isInsideTrack MathLib.real p.1 p.2 = some (track.between p) := by
  refine ⟨fun h => h.inside, fun h => ⟨h, ?_⟩⟩
  obtain ⟨d, hd, hdist⟩ := distToBoundary_spec hblue hyellow hb hy h
  refine ⟨_, hdist, ?_⟩
  cases track.between p with
  | true => exact hd
  | false => exact neg_neg_of_pos hd

/-- Of two answers, each wrong if it misleads, what they say together. -/
theorem both_right_iff {inBlue inYellow saysBlue saysYellow misledBlue misledYellow : Prop}
    (hblue : (saysBlue ↔ inBlue) ↔ ¬ misledBlue)
    (hyellow : (saysYellow ↔ inYellow) ↔ ¬ misledYellow) (hwithin : inBlue → inYellow) :
    (¬ saysBlue ∧ saysYellow ↔ ¬ inBlue ∧ inYellow) ↔
      (¬ misledBlue ∧ ¬ misledYellow) ∨ (inBlue ∧ misledYellow) ∨
        (¬ inYellow ∧ misledBlue) := by
  by_cases hb : inBlue
  · have hy := hwithin hb
    simp only [hb, hy, iff_true] at hblue hyellow
    simp [hb, hy, hblue, hyellow]
    tauto
  · by_cases hy : inYellow
    · simp only [hb, hy, iff_true, iff_false] at hblue hyellow
      simp [hb, hy, hblue, hyellow]
    · simp only [hb, hy, iff_false] at hblue hyellow
      simp [hb, hy, hblue]
      tauto

/-- **When the nearest segments tell what is between the boundaries.**  Either no corner
misleads, or what a corner says of one boundary does not count: the place is inside the blue
polygon, whatever the yellow one, or outside the yellow one, whatever the blue. -/
theorem isInsideTrack_iff {track : TrackData ℝ} (h : NestedBoundaries track) {p : ℝ × ℝ}
    (hb : Off track.blueCones p) (hy : Off track.yellowCones p) :
    Agrees track p ↔
      (¬ Misled (0 < ·) track.blueCones p ∧ ¬ Misled (0 ≤ ·) track.yellowCones p) ∨
      (pointInPolygon p.1 p.2 track.blueCones = true ∧ Misled (0 ≤ ·) track.yellowCones p) ∨
      (¬ pointInPolygon p.1 p.2 track.yellowCones = true ∧
        Misled (0 < ·) track.blueCones p) := by
  obtain ⟨a, b, q, c, d, r, hfirst, hfirst', hanswer⟩ := isInsideTrack_spec h.blue h.yellow p
  have hblue : (0 < orient a b p ↔ Inside track.blueCones p) ↔
      ¬ Misled (0 < ·) track.blueCones p :=
    accepts_iff h.blue (h.blue.insideLeft h.blueTurn) (fun _ hx => hx) (fun _ hx => hx.not_gt)
      hfirst hb
  have hyellow : (0 ≤ orient c d p ↔ Inside track.yellowCones p) ↔
      ¬ Misled (0 ≤ ·) track.yellowCones p :=
    accepts_iff h.yellow (h.yellow.insideLeft h.yellowTurn) (fun _ hx => hx.le)
      (fun _ hx => hx.not_ge) hfirst' hy
  have hnested : Nested track.blueCones track.yellowCones :=
    ⟨h.apart, fun v hv => (pointInPolygon_iff v _).mp (h.within v hv)⟩
  have hwithin := hnested.inside h.blue.ne_nil h.yellow.ne_nil hb
  rw [agrees_iff_inside h.blue h.yellow hb hy, hanswer, Option.some.injEq, TrackData.between,
    Bool.eq_iff_iff, Bool.and_eq_true, Bool.and_eq_true, decide_eq_true_iff, decide_eq_true_iff,
    Bool.not_eq_true', ← Bool.not_eq_true, pointInPolygon_iff, pointInPolygon_iff, ← not_lt]
  exact both_right_iff hblue hyellow hwithin

/-! ## Beside a sharp corner -/

/-- A sharp corner of the blue boundary at the end of the first segment. -/
def sharpTrack : TrackData ℝ where
  name := []
  blueCones := [(0, 0), (4, 0), (0, 3)]
  yellowCones := [(-10, -10), (20, -10), (0, 20)]
  orangeCones := []
  spawnX := 1
  spawnY := -5
  spawnYaw := 0
  halfTrackWidth := 5

theorem left_sharp : ∀ f ∈ edges sharpTrack.yellowCones,
    ∀ v ∈ (5, 1) :: sharpTrack.blueCones, 0 < orient f.1 f.2 v := by
  intro f hf v hv
  rcases mem_edges_triangle.mp hf with rfl | rfl | rfl <;>
    simp only [sharpTrack, List.mem_cons, List.not_mem_nil, or_false] at hv <;>
    rcases hv with rfl | rfl | rfl | rfl <;> norm_num [orient]

theorem nestedBoundaries_sharp : NestedBoundaries sharpTrack where
  blue := simple_triangle (by norm_num [orient])
  blueTurn := counterclockwise_triangle (by norm_num [orient])
  yellow := simple_triangle (by norm_num [orient])
  yellowTurn := counterclockwise_triangle (by norm_num [orient])
  apart := apart_of_left fun f hf v hv => left_sharp f hf v (List.mem_cons_of_mem _ hv)
  within v hv := by
    simp only [sharpTrack, List.mem_cons, List.not_mem_nil, or_false] at hv
    rcases hv with rfl | rfl | rfl <;> norm_num [pointInPolygon, around, sharpTrack]

theorem off_blue_sharp : Off sharpTrack.blueCones (5, 1) := by
  refine off_of_orient fun f hf => ?_
  rcases mem_edges_triangle.mp hf with rfl | rfl | rfl <;> norm_num [orient]

theorem off_yellow_sharp : Off sharpTrack.yellowCones (5, 1) :=
  off_of_orient fun f hf => (left_sharp f hf (5, 1) List.mem_cons_self).ne'

theorem between_sharp : sharpTrack.between (5, 1) = true := by
  norm_num [TrackData.between, pointInPolygon, around, sharpTrack]

/-- The corner is the nearest point, and the segment that ends there is asked. -/
theorem firstNearest_sharp : FirstNearest sharpTrack.blueCones (5, 1) ((0, 0), (4, 0)) (4, 0) where
  mem := right_mem_segment ℝ _ _
  nearest f hf r hr := by
    obtain ⟨s, t, hs, ht, hst, rfl⟩ := hr
    obtain rfl := eq_sub_of_add_eq hst
    rcases mem_edges_triangle.mp hf with rfl | rfl | rfl <;> norm_num [distSq, dot] <;> nlinarith
  first := ⟨0, rfl, fun j hj => absurd hj (Nat.not_lt_zero j)⟩

/-- **Beside the corner the place is on the track, and the answer is that it is not.** -/
theorem not_agrees_sharp : ¬ ∀ (track : TrackData ℝ) (p : ℝ × ℝ), NestedBoundaries track →
    Off track.blueCones p → Off track.yellowCones p → Agrees track p := by
  intro hall
  have hagrees := hall sharpTrack (5, 1) nestedBoundaries_sharp off_blue_sharp off_yellow_sharp
  obtain ⟨a, b, q, c, d, r, hfirst, -, hanswer⟩ :=
    isInsideTrack_spec nestedBoundaries_sharp.blue nestedBoundaries_sharp.yellow (5, 1)
  obtain ⟨rfl, rfl⟩ := Prod.mk.inj (hfirst.edge_unique firstNearest_sharp)
  have hright := (Option.some.inj (hanswer.symm.trans hagrees.inside)).trans between_sharp
  rw [Bool.and_eq_true, decide_eq_true_iff] at hright
  have hside : orient ((0, 0) : ℝ × ℝ) (4, 0) (5, 1) = 4 := by norm_num [orient]
  linarith [hright.1]

/-- At that place. -/
theorem isInsideTrack_iff_sharp :
    NestedBoundaries sharpTrack ∧ Off sharpTrack.blueCones (5, 1) ∧
    Off sharpTrack.yellowCones (5, 1) ∧
    (Agrees sharpTrack (5, 1) ↔
      (¬ Misled (0 < ·) sharpTrack.blueCones (5, 1) ∧
        ¬ Misled (0 ≤ ·) sharpTrack.yellowCones (5, 1)) ∨
      (pointInPolygon 5 1 sharpTrack.blueCones = true ∧
        Misled (0 ≤ ·) sharpTrack.yellowCones (5, 1)) ∨
      (¬ pointInPolygon 5 1 sharpTrack.yellowCones = true ∧
        Misled (0 < ·) sharpTrack.blueCones (5, 1))) :=
  ⟨nestedBoundaries_sharp, off_blue_sharp, off_yellow_sharp,
    isInsideTrack_iff nestedBoundaries_sharp off_blue_sharp off_yellow_sharp⟩

end KartStack.Sim2d
