import KartStack.PolygonParity
import KartStack.SimTrack
import Mathlib.Algebra.BigOperators.Group.List.Basic
import Mathlib.Analysis.Real.Sqrt

/-! # The length of the centreline

`_compute_centerline` goes around the polygon of the middles in two nested loops, and
appends a point and the way from the point before it; the way from the last point back to
the first is added at the end.

The loops yield the points of each edge and how far along the line each is
(`centerlineLoop_eq`).  A hundredth of an edge lies between any two points in a row, also
where one edge ends and the next begins (`pointAt_next`), so how far along a point is follows
from its number (`cumS_interpolate`).
-/
namespace KartStack.Sim2d
open KartStack.Python

section
variable {K : Type} [Add K] [Sub K] [Mul K] [Div K]

/-! ## The loops -/

/-- One pass of the inner loop, with what was appended so far. -/
def appendPoint (m : MathLib K) (acc : List (K × K) × List K) (p : K × K) :
    List (K × K) × List K :=
  (acc.1 ++ [p], match acc.1.getLast?, acc.2.getLast? with
    | some last, some s => acc.2 ++ [s + m.hypot (p.1 - last.1) (p.2 - last.2)]
    | _, _ => acc.2)

/-- The point of an edge with this number. -/
def pointAt [NatCast K] (edge : (K × K) × (K × K)) (j : Nat) : K × K :=
  let t : K := (j : K) / (numInterpPerSegment : K)
  (edge.1.1 + t * (edge.2.1 - edge.1.1), edge.1.2 + t * (edge.2.2 - edge.1.2))

/-- The loops of `_compute_centerline`. -/
def centerlineLoop [NatCast K] [Zero K] (m : MathLib K) (ordered : List (K × K)) :
    List (K × K) × List K :=
  (around ordered).foldl (fun acc edge =>
    (List.range numInterpPerSegment).foldl (fun acc j => appendPoint m acc (pointAt edge j)) acc)
    ([], [0])

omit [Mul K] [Div K] in
theorem cumS_concat (m : MathLib K) (s : K) {points : List (K × K)} {last : K × K} {c : K}
    (hlast : points.getLast? = some last) (hc : (cumS m s points).getLast? = some c) (p : K × K) :
    cumS m s (points ++ [p]) =
      cumS m s points ++ [c + m.hypot (p.1 - last.1) (p.2 - last.2)] := by
  induction points generalizing s with
  | nil => cases hlast
  | cons q points ih =>
    cases points with
    | nil =>
      obtain rfl := Option.some.inj hlast
      obtain rfl := Option.some.inj hc
      rfl
    | cons r points =>
      rw [List.getLast?_cons_cons] at hlast
      have hne : cumS m (s + m.hypot (r.1 - q.1) (r.2 - q.2)) (r :: points) ≠ [] := by
        cases points <;> simp [cumS]
      rw [cumS, List.getLast?_cons_of_ne_nil hne] at hc
      rw [List.cons_append, List.cons_append, cumS, ← List.cons_append, ih _ hlast hc, cumS,
        List.cons_append]

omit [Mul K] [Div K] in
theorem foldl_appendPoint (m : MathLib K) (s : K) {points : List (K × K)} (hne : points ≠ [])
    (ps : List (K × K)) :
    ps.foldl (appendPoint m) (points, cumS m s points) =
      (points ++ ps, cumS m s (points ++ ps)) := by
  induction ps generalizing points with
  | nil => rw [List.foldl_nil, List.append_nil]
  | cons p ps ih =>
    have hlast := List.getLast?_eq_some_getLast hne
    have hcum : cumS m s points ≠ [] :=
      List.ne_nil_of_length_pos (by rw [cumS_length]; exact List.length_pos_of_ne_nil hne)
    have hc := List.getLast?_eq_some_getLast hcum
    have hstep : appendPoint m (points, cumS m s points) p =
        (points ++ [p], cumS m s (points ++ [p])) := by
      rw [appendPoint, cumS_concat m s hlast hc]
      simp only [hlast, hc]
    rw [List.foldl_cons, hstep, ih (List.append_ne_nil_of_right_ne_nil _ (List.cons_ne_nil _ _)),
      List.append_assoc, List.singleton_append]

theorem interpolate_eq [NatCast K] (ordered : List (K × K)) : interpolate ordered =
    (around ordered).flatMap fun edge => (List.range numInterpPerSegment).map (pointAt edge) := by
  rw [interpolate]
  congr 1

theorem interpolate_ne_nil [NatCast K] {ordered : List (K × K)} (hne : ordered ≠ []) :
    interpolate ordered ≠ [] := by
  apply List.ne_nil_of_length_pos
  have hlength : (interpolate ordered).length = ordered.length * numInterpPerSegment := by
    simp [interpolate, around, List.length_flatMap]
  rw [hlength]
  exact Nat.mul_pos (List.length_pos_of_ne_nil hne) (by decide)

/-- **What the loops yield.** -/
theorem centerlineLoop_eq [NatCast K] [Zero K] (m : MathLib K) {ordered : List (K × K)}
    (hne : ordered ≠ []) :
    centerlineLoop m ordered = (interpolate ordered, cumS m 0 (interpolate ordered)) := by
  have hloops : centerlineLoop m ordered =
      (interpolate ordered).foldl (appendPoint m) ([], [0]) := by
    rw [interpolate_eq, List.foldl_flatMap]
    simp only [List.foldl_map]
    rfl
  obtain ⟨p, ps, hps⟩ : ∃ p ps, interpolate ordered = p :: ps :=
    List.exists_cons_of_ne_nil (interpolate_ne_nil hne)
  rw [hloops, hps, List.foldl_cons]
  exact foldl_appendPoint m 0 (List.cons_ne_nil p []) ps

end

/-! ## How far along the points are -/

section
variable {A B : Type}

/-- Blocks of one length, one after the other. -/
theorem getElem?_flatMap {f : A → List B} {c : Nat} {as : List A}
    (hf : ∀ a ∈ as, (f a).length = c) (i : Nat) {j : Nat} (hj : j < c) :
    (as.flatMap f)[c * i + j]? = as[i]?.bind fun a => (f a)[j]? := by
  induction as generalizing i with
  | nil => rfl
  | cons a as ih =>
    have ha := hf a (List.mem_cons_self ..)
    rw [List.flatMap_cons]
    cases i with
    | zero =>
      rw [Nat.mul_zero, Nat.zero_add, List.getElem?_append_left (by omega)]
      rfl
    | succ i =>
      rw [List.getElem?_append_right (by rw [ha, Nat.mul_succ]; omega), ha,
        List.getElem?_cons_succ, ← ih (fun x hx => hf x (List.mem_cons_of_mem _ hx)) i]
      congr 1
      rw [Nat.mul_succ]
      omega

theorem getElem?_around {vs : List (A × A)} {i : Nat} {e : (A × A) × (A × A)} :
    (around vs)[i]? = some e ↔ ∃ h : i < vs.length,
      e = (vs[i], vs.get ⟨(i + 1) % vs.length, Nat.mod_lt _ (Nat.zero_lt_of_lt h)⟩) :=
  Polygon.getElem?_edges

theorem around_length (vs : List (A × A)) : (around vs).length = vs.length := by
  rw [around, List.length_zip, List.length_rotate, min_self]

/-- An edge ends where the next begins. -/
theorem around_next {vs : List (A × A)} {i : Nat} {e e' : (A × A) × (A × A)}
    (he : (around vs)[i]? = some e) (he' : (around vs)[i + 1]? = some e') : e.2 = e'.1 := by
  obtain ⟨hi, rfl⟩ := getElem?_around.mp he
  obtain ⟨hi', rfl⟩ := getElem?_around.mp he'
  simp only [List.get_eq_getElem, Nat.mod_eq_of_lt hi']

/-- The last edge ends where the first begins. -/
theorem around_last {vs : List (A × A)} {i : Nat} {e e' : (A × A) × (A × A)}
    (he : (around vs)[i]? = some e) (hi : i + 1 = vs.length) (he' : (around vs)[0]? = some e') :
    e.2 = e'.1 := by
  obtain ⟨-, rfl⟩ := getElem?_around.mp he
  obtain ⟨-, rfl⟩ := getElem?_around.mp he'
  simp only [List.get_eq_getElem, hi, Nat.mod_self]

end

section
variable {K : Type}

/-- The length of an edge. -/
def edgeLength [Sub K] (m : MathLib K) (edge : (K × K) × (K × K)) : K :=
  m.hypot (edge.2.1 - edge.1.1) (edge.2.2 - edge.1.2)

/-- From each arc length to the next. -/
theorem cumS_next [Add K] [Sub K] (m : MathLib K) {s : K} {points : List (K × K)} {k : Nat}
    {p q : K × K} {c : K} (hp : points[k]? = some p) (hq : points[k + 1]? = some q)
    (hc : (cumS m s points)[k]? = some c) :
    (cumS m s points)[k + 1]? = some (c + edgeLength m (p, q)) := by
  induction k generalizing s points with
  | zero =>
    obtain _ | ⟨p', _ | ⟨q', points⟩⟩ := points
    · cases hp
    · cases hq
    · obtain rfl := Option.some.inj hp
      obtain rfl := Option.some.inj hq
      obtain rfl := Option.some.inj hc
      cases points <;> rfl
  | succ k ih =>
    obtain _ | ⟨p', _ | ⟨q', points⟩⟩ := points
    · cases hp
    · cases hp
    · exact ih hp hq hc

end

section
variable {edge : (ℝ × ℝ) × (ℝ × ℝ)}

theorem hypot_mul {t : ℝ} (ht : 0 ≤ t) (x y : ℝ) :
    MathLib.real.hypot (t * x) (t * y) = t * MathLib.real.hypot x y := by
  have hsq : t * x * (t * x) + t * y * (t * y) = t ^ 2 * (x * x + y * y) := by ring
  simp only [MathLib.real]
  rw [hsq, Real.sqrt_mul (sq_nonneg t), Real.sqrt_sq ht]

theorem edgeLength_nonneg (edge : (ℝ × ℝ) × (ℝ × ℝ)) : 0 ≤ edgeLength MathLib.real edge :=
  Real.sqrt_nonneg _

theorem pointAt_zero (edge : (ℝ × ℝ) × (ℝ × ℝ)) : pointAt edge 0 = edge.1 := by
  simp [pointAt]

theorem pointAt_last (edge : (ℝ × ℝ) × (ℝ × ℝ)) :
    pointAt edge numInterpPerSegment = edge.2 := by
  have hne : (numInterpPerSegment : ℝ) ≠ 0 := Nat.cast_ne_zero.mpr (by decide)
  simp [pointAt, div_self hne]

/-- A hundredth of the edge lies between a point and the next. -/
theorem pointAt_next (edge : (ℝ × ℝ) × (ℝ × ℝ)) (j : Nat) :
    edgeLength MathLib.real (pointAt edge j, pointAt edge (j + 1)) =
      edgeLength MathLib.real edge / 100 := by
  have hdiff : ∀ a b : ℝ, a + ((j + 1 : Nat) : ℝ) / (numInterpPerSegment : ℝ) * (b - a) -
      (a + (j : ℝ) / (numInterpPerSegment : ℝ) * (b - a)) = 1 / 100 * (b - a) := by
    intro a b
    rw [numInterpPerSegment]
    push_cast
    ring
  simp only [edgeLength, pointAt]
  rw [hdiff, hdiff, hypot_mul (by norm_num)]
  ring

theorem getElem?_interpolate (ordered : List (ℝ × ℝ)) (i : Nat) {j : Nat} (hj : j < 100) :
    (interpolate ordered)[100 * i + j]? = (around ordered)[i]?.map (pointAt · j) := by
  rw [interpolate_eq, getElem?_flatMap (c := 100) (fun _ _ => by simp [numInterpPerSegment]) i hj]
  cases (around ordered)[i]? with
  | none => rfl
  | some edge =>
    rw [Option.bind_some, Option.map_some, List.getElem?_map,
      List.getElem?_range (by exact hj)]
    rfl

/-- The lengths of the edges. -/
noncomputable def edgeLengths (polygon : List (ℝ × ℝ)) : List ℝ :=
  (around polygon).map (edgeLength MathLib.real)

theorem take_succ_edgeLengths {polygon : List (ℝ × ℝ)} {i : Nat} {edge : (ℝ × ℝ) × (ℝ × ℝ)}
    (hedge : (around polygon)[i]? = some edge) :
    ((edgeLengths polygon).take (i + 1)).sum =
      ((edgeLengths polygon).take i).sum + edgeLength MathLib.real edge := by
  rw [edgeLengths, List.take_add_one, List.getElem?_map, hedge, List.sum_append]
  simp

/-- Along one edge. -/
theorem cumS_within {ordered : List (ℝ × ℝ)} {i : Nat} {edge : (ℝ × ℝ) × (ℝ × ℝ)} {c : ℝ}
    (hedge : (around ordered)[i]? = some edge)
    (hc : (cumS MathLib.real 0 (interpolate ordered))[100 * i]? = some c) {j : Nat} (hj : j < 100) :
    (cumS MathLib.real 0 (interpolate ordered))[100 * i + j]? =
      some (c + (j / 100 : ℝ) * edgeLength MathLib.real edge) := by
  induction j with
  | zero => simpa using hc
  | succ j ih =>
    have hp := getElem?_interpolate ordered i (Nat.lt_of_succ_lt hj)
    have hq := getElem?_interpolate ordered i hj
    rw [hedge] at hp hq
    rw [← Nat.add_assoc] at hq ⊢
    rw [cumS_next MathLib.real hp hq (ih (Nat.lt_of_succ_lt hj)), pointAt_next]
    push_cast
    congr 1
    ring

/-- **How far along the line a point is**, by its number. -/
theorem cumS_interpolate {ordered : List (ℝ × ℝ)} {i j : Nat} (hj : j < 100)
    {edge : (ℝ × ℝ) × (ℝ × ℝ)} (hedge : (around ordered)[i]? = some edge) :
    (cumS MathLib.real 0 (interpolate ordered))[100 * i + j]? =
      some (((edgeLengths ordered).take i).sum + (j / 100 : ℝ) * edgeLength MathLib.real edge) := by
  induction i generalizing j edge with
  | zero =>
    refine cumS_within hedge ?_ hj
    have hfirst := getElem?_interpolate ordered 0 (j := 0) (by decide)
    rw [hedge] at hfirst
    obtain ⟨p, ps, hps⟩ : ∃ p ps, interpolate ordered = p :: ps := by
      refine List.exists_cons_of_ne_nil fun hnil => ?_
      rw [hnil] at hfirst
      cases hfirst
    rw [hps]
    cases ps <;> rfl
  | succ i ih =>
    refine cumS_within hedge ?_ hj
    -- the step from the edge before
    have hi : i < (around ordered).length := by
      have hlt := (List.getElem?_eq_some_iff.mp hedge).1
      omega
    have hbefore := List.getElem?_eq_getElem hi
    have hp := getElem?_interpolate ordered i (j := 99) (by decide)
    have hq := getElem?_interpolate ordered (i + 1) (j := 0) (by decide)
    rw [hbefore] at hp
    rw [hedge, Option.map_some, pointAt_zero, ← around_next hbefore hedge, ← pointAt_last] at hq
    have hnext := cumS_next MathLib.real hp hq (ih (by decide) hbefore)
    rw [numInterpPerSegment, pointAt_next] at hnext
    have hindex : 100 * i + 99 + 1 = 100 * (i + 1) := by ring
    rw [hindex] at hnext
    rw [hnext, take_succ_edgeLengths hbefore]
    congr 1
    push_cast
    ring

theorem le_of_mem_cumS {s c : ℝ} {points : List (ℝ × ℝ)} (h : c ∈ cumS MathLib.real s points) :
    s ≤ c := by
  induction points generalizing s with
  | nil => cases h
  | cons p points ih =>
    cases points with
    | nil => exact (List.mem_singleton.mp h).ge
    | cons q points =>
      rw [cumS, List.mem_cons] at h
      rcases h with rfl | h
      · exact le_refl _
      · have hstep := edgeLength_nonneg (p, q)
        exact (le_add_of_nonneg_right hstep).trans (ih h)

theorem cumS_sorted (s : ℝ) (points : List (ℝ × ℝ)) :
    (cumS MathLib.real s points).Pairwise (· ≤ ·) := by
  induction points generalizing s with
  | nil => exact List.Pairwise.nil
  | cons p points ih =>
    cases points with
    | nil => exact List.pairwise_singleton _ _
    | cons q points =>
      rw [cumS, List.pairwise_cons]
      exact ⟨fun c hc => (le_add_of_nonneg_right (edgeLength_nonneg (p, q))).trans
        (le_of_mem_cumS hc), ih _⟩

/-- The points and the arc lengths of a line around a polygon. -/
structure GoesAround (polygon points : List (ℝ × ℝ)) (arcs : List ℝ) (length : ℝ) : Prop where
  pointsLength : points.length = 100 * polygon.length
  arcsLength : arcs.length = 100 * polygon.length
  start : arcs.head? = some 0
  sorted : arcs.Pairwise (· ≤ ·)
  point : ∀ (i j : Nat) (edge), (around polygon)[i]? = some edge → j < 100 →
    points[100 * i + j]? = some (edge.1.1 + (j / 100 : ℝ) * (edge.2.1 - edge.1.1),
      edge.1.2 + (j / 100 : ℝ) * (edge.2.2 - edge.1.2))
  arc : ∀ (i j : Nat) (edge), (around polygon)[i]? = some edge → j < 100 →
    arcs[100 * i + j]? = some (((edgeLengths polygon).take i).sum +
      (j / 100 : ℝ) * edgeLength MathLib.real edge)
  perimeter : length = (edgeLengths polygon).sum

theorem interpolate_length (polygon : List (ℝ × ℝ)) :
    (interpolate polygon).length = 100 * polygon.length := by
  rw [Nat.mul_comm]
  simp [interpolate, around, List.length_flatMap, numInterpPerSegment]

/-- **The centreline of a polygon**, with the way back to the start. -/
theorem goesAround_interpolate {polygon : List (ℝ × ℝ)} (hne : polygon ≠ []) {first last : ℝ × ℝ}
    {c : ℝ} (hfirst : (interpolate polygon).head? = some first)
    (hlast : (interpolate polygon).getLast? = some last)
    (hc : (cumS MathLib.real 0 (interpolate polygon)).getLast? = some c) :
    GoesAround polygon (interpolate polygon) (cumS MathLib.real 0 (interpolate polygon))
      (c + edgeLength MathLib.real (last, first)) := by
  have hpos := List.length_pos_of_ne_nil hne
  have hlength := interpolate_length polygon
  have hcum := cumS_length MathLib.real 0 (interpolate polygon)
  -- the first edge and the last
  obtain ⟨e, he⟩ : ∃ e, (around polygon)[0]? = some e :=
    ⟨_, List.getElem?_eq_getElem (by rwa [around_length])⟩
  obtain ⟨e', he'⟩ : ∃ e', (around polygon)[polygon.length - 1]? = some e' :=
    ⟨_, List.getElem?_eq_getElem (by rw [around_length]; omega)⟩
  have hindex : 100 * polygon.length - 1 = 100 * (polygon.length - 1) + 99 := by omega
  have hstart : first = e.1 := by
    have hpoint := getElem?_interpolate polygon 0 (j := 0) (by decide)
    rw [he, Option.map_some, pointAt_zero, ← List.head?_eq_getElem?, hfirst] at hpoint
    exact Option.some.inj hpoint
  have hstop : last = pointAt e' 99 := by
    have hpoint := getElem?_interpolate polygon (polygon.length - 1) (j := 99) (by decide)
    rw [he', Option.map_some, ← hindex, ← hlength, ← List.getLast?_eq_getElem?, hlast] at hpoint
    exact Option.some.inj hpoint
  have harc : c = ((edgeLengths polygon).take (polygon.length - 1)).sum +
      (99 / 100 : ℝ) * edgeLength MathLib.real e' := by
    have harc := cumS_interpolate (j := 99) (by decide) he'
    rw [← hindex, ← hlength, ← hcum, ← List.getLast?_eq_getElem?, hc] at harc
    push_cast at harc
    exact Option.some.inj harc
  refine ⟨hlength, hcum.trans hlength, ?_, cumS_sorted 0 _, fun i j edge hedge hj => ?_,
    fun i j edge hedge hj => cumS_interpolate hj hedge, ?_⟩
  · have harc := cumS_interpolate (j := 0) (by decide) he
    rw [List.head?_eq_getElem?]
    simpa using harc
  · rw [getElem?_interpolate polygon i hj, hedge, Option.map_some, pointAt, numInterpPerSegment]
    push_cast
    rfl
  · -- the way back is the last hundredth of the last edge
    have hback : edgeLength MathLib.real (last, first) = edgeLength MathLib.real e' / 100 := by
      rw [hstart, hstop, ← around_last he' (by omega) he, ← pointAt_last, numInterpPerSegment,
        pointAt_next]
    have hsum := take_succ_edgeLengths he'
    rw [Nat.sub_add_cancel hpos, List.take_of_length_le (by
      rw [edgeLengths, List.length_map, around_length])] at hsum
    rw [hback, harc, hsum]
    ring

theorem midpoints_of_pairs {blue yellow : List (ℝ × ℝ)} (hpairs : blue.length = yellow.length)
    (hn : 2 ≤ blue.length) :
    midpoints blue yellow = some (List.zipWith middle blue yellow) := by
  rcases blue with _ | ⟨b, _ | ⟨b', blue⟩⟩
  · exact absurd hn (Nat.not_succ_le_zero 1)
  · exact absurd hn (Nat.lt_irrefl 1)
  · rcases yellow with _ | ⟨y, _ | ⟨y', yellow⟩⟩
    · cases hpairs
    · cases hpairs
    · exact if_pos hpairs

/-- **`_compute_centerline` goes around the middles**, from one nearest the spawn. -/
theorem computeCenterline_goesAround (self : TrackData ℝ)
    (hpairs : self.blueCones.length = self.yellowCones.length) (hn : 2 ≤ self.blueCones.length) :
    let mids := List.zipWith middle self.blueCones self.yellowCones
    let spawnDist := fun p : ℝ × ℝ => MathLib.real.hypot (p.1 - self.spawnX) (p.2 - self.spawnY)
    ∃ idx points arcs length,
      self.computeCenterline MathLib.real = some (points, arcs, length) ∧
        centerlineLoop MathLib.real (mids.rotate idx) = (points, arcs) ∧
        points.length = 100 * self.blueCones.length ∧ arcs.length = 100 * self.blueCones.length ∧
        (∃ p, (mids.rotate idx).head? = some p ∧ ∀ q ∈ mids, spawnDist p ≤ spawnDist q) ∧
        GoesAround (mids.rotate idx) points arcs length := by
  intro mids spawnDist
  have hlength : mids.length = self.blueCones.length := by
    rw [List.length_zipWith, ← hpairs, min_self]
  have hmids : mids ≠ [] := List.ne_nil_of_length_pos (by omega)
  obtain ⟨idx, hidx, hlt⟩ := exists_argmin_map spawnDist hmids
  have hne : mids.rotate idx ≠ [] := fun hnil => hmids (List.rotate_eq_nil_iff.mp hnil)
  have hpoints := interpolate_ne_nil hne
  have harcs : cumS MathLib.real 0 (interpolate (mids.rotate idx)) ≠ [] :=
    List.ne_nil_of_length_pos (by rw [cumS_length]; exact List.length_pos_of_ne_nil hpoints)
  have haround := goesAround_interpolate hne (List.head?_eq_some_head hpoints)
    (List.getLast?_eq_some_getLast hpoints) (List.getLast?_eq_some_getLast harcs)
  refine ⟨idx, _, _, _, ?_, centerlineLoop_eq MathLib.real hne, ?_, ?_, ?_, haround⟩
  · rw [TrackData.computeCenterline, midpoints_of_pairs hpairs hn]
    change (argmin (mids.map spawnDist)).bind _ = _
    rw [hidx]
    change (interpolate (mids.rotate idx)).head?.bind _ = _
    rw [List.head?_eq_some_head hpoints]
    change (interpolate (mids.rotate idx)).getLast?.bind _ = _
    rw [List.getLast?_eq_some_getLast hpoints]
    change (cumS MathLib.real 0 (interpolate (mids.rotate idx))).getLast?.bind _ = _
    rw [List.getLast?_eq_some_getLast harcs]
    rfl
  · rw [haround.pointsLength, List.length_rotate, hlength]
  · rw [haround.arcsLength, List.length_rotate, hlength]
  · obtain ⟨d, hd, hmin⟩ := argmin_spec hidx
    rw [List.getElem?_map, Option.map_eq_some_iff] at hd
    obtain ⟨p, hp, rfl⟩ := hd
    refine ⟨p, (List.head?_rotate hlt).trans hp, fun q hq => ?_⟩
    exact hmin _ (List.mem_map_of_mem hq)

/-- Two pairs, with the spawn at the first. -/
theorem computeCenterline_goesAround_pairs :
    ∃ idx points arcs length,
      TrackData.computeCenterline MathLib.real
          ⟨[], [(0, 2), (4, 2)], [(0, 0), (4, 0)], [], 0, 1, 0, 1⟩ = some (points, arcs, length) ∧
        points.length = 200 ∧ GoesAround ((List.zipWith middle [(0, 2), (4, 2)]
          [(0, 0), (4, 0)]).rotate idx) points arcs length := by
  obtain ⟨idx, points, arcs, length, hsome, -, hpoints, -, -, haround⟩ :=
    computeCenterline_goesAround ⟨[], [(0, 2), (4, 2)], [(0, 0), (4, 0)], [], 0, 1, 0, 1⟩ rfl
      (Nat.le_refl 2)
  exact ⟨idx, points, arcs, length, hsome, hpoints, haround⟩

end

end KartStack.Sim2d
