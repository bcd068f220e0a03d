import KartStack.PythonNumbers
import KartStack.PythonStrings

/-! # Tracks

`track.py` of `sim2d`.  A track is two closed lines of cones, the blue ones on the left
of the direction of travel and the yellow ones on the right.  From the cones it computes a
centreline: the middles between cones of a pair, beginning near the spawn, with a hundred
points to a pair, and for each point how far along the line it is.

A place on the ground is known by the nearest point of the centreline, and by the nearest
segment of each boundary: it is on the track if it lies on the right side of both.
-/
namespace KartStack.Sim2d
open KartStack.Python

/-- The fields a `Track` is made from. -/
structure TrackData (K : Type) where
  name : Str
  blueCones : List (K × K)
  yellowCones : List (K × K)
  orangeCones : List (K × K)
  spawnX : K
  spawnY : K
  spawnYaw : K
  halfTrackWidth : K
  deriving DecidableEq

/-- `Track`, with what `__post_init__` computes; the segments of the boundaries are taken
from the cones where they are used. -/
structure Track (K : Type) extends TrackData K where
  centerlineXy : List (K × K)
  centerlineS : List K
  trackLength : K
  deriving DecidableEq

section
variable {K : Type}

/-- From each entry to the next, and from the last to the first. -/
def around (cones : List (K × K)) : List ((K × K) × (K × K)) := cones.zip (cones.rotate 1)

/-- `NUM_INTERP_PER_SEGMENT`. -/
def numInterpPerSegment : Nat := 100

variable [Add K] [Sub K] [Mul K] [Div K] [OfScientific K]

/-- The middle between two cones. -/
def middle (b y : K × K) : K × K := ((b.1 + y.1) / 2.0, (b.2 + y.2) / 2.0)

/-- `(self.blue_cones + self.yellow_cones) / 2.0`: a single row goes with all of the other
array, and arrays of different lengths do not go together. -/
def midpoints : List (K × K) → List (K × K) → Option (List (K × K))
  | [b], yellow => some (yellow.map (middle b))
  | blue, [y] => some (blue.map (middle · y))
  | blue, yellow =>
    if blue.length = yellow.length then some (List.zipWith middle blue yellow) else none

/-- The points of the centreline, from the middles in order. -/
def interpolate [NatCast K] (ordered : List (K × K)) : List (K × K) :=
  (around ordered).flatMap fun (p0, p1) => (List.range numInterpPerSegment).map fun j =>
    let t : K := (j : K) / (numInterpPerSegment : K)
    (p0.1 + t * (p1.1 - p0.1), p0.2 + t * (p1.2 - p0.2))

/-- `cum_s`, from the way so far. -/
def cumS (m : MathLib K) : K → List (K × K) → List K
  | _, [] => []
  | s, [_] => [s]
  | s, p :: q :: points => s :: cumS m (s + m.hypot (q.1 - p.1) (q.2 - p.2)) (q :: points)

variable [LT K] [DecidableLT K] [NatCast K] [Zero K]

/-- `_compute_centerline`; it raises where the boundaries do not go together, or are empty. -/
def TrackData.computeCenterline (m : MathLib K) (self : TrackData K) :
    Option (List (K × K) × List K × K) := do
  let midpoints ← midpoints self.blueCones self.yellowCones
  let spawnDists := midpoints.map fun p => m.hypot (p.1 - self.spawnX) (p.2 - self.spawnY)
  let spawnIdx ← argmin spawnDists
  let points := interpolate (midpoints.rotate spawnIdx)
  let cumS := cumS m 0 points
  let first ← points.head?
  let last ← points.getLast?
  let length ← cumS.getLast?
  return (points, cumS, length + m.hypot (first.1 - last.1) (first.2 - last.2))

/-- `Track(...)`. -/
def TrackData.postInit (m : MathLib K) (self : TrackData K) : Option (Track K) :=
  (self.computeCenterline m).map fun (centerlineXy, centerlineS, trackLength) =>
    { self with centerlineXy, centerlineS, trackLength }

/-! ## Where a place is -/

/-- `project_to_centerline`: how far along the line the nearest point is, and how far off. -/
def Track.projectToCenterline (m : MathLib K) (self : Track K) (x y : K) : Option (K × K) := do
  let distsSq := self.centerlineXy.map fun p => (p.1 - x) * (p.1 - x) + (p.2 - y) * (p.2 - y)
  let idx ← argmin distsSq
  return (← self.centerlineS[idx]?, m.sqrt (← distsSq[idx]?))

/-- The number for the nearest point of a segment: `0` is its start and `1` its end. -/
def nearestT [One K] (p : K × K) (segment : (K × K) × (K × K)) : K :=
  let d := (segment.2.1 - segment.1.1, segment.2.2 - segment.1.2)
  let ap := (p.1 - segment.1.1, p.2 - segment.1.2)
  clip ((ap.1 * d.1 + ap.2 * d.2) / (d.1 * d.1 + d.2 * d.2)) 0 1

/-- The distance of a segment. -/
def segmentDist [One K] (m : MathLib K) (p : K × K) (segment : (K × K) × (K × K)) : K :=
  let t := nearestT p segment
  m.hypot (p.1 - (segment.1.1 + t * (segment.2.1 - segment.1.1)))
    (p.2 - (segment.1.2 + t * (segment.2.2 - segment.1.2)))

/-- Positive if a point is left of a segment. -/
def cross (p : K × K) (segment : (K × K) × (K × K)) : K :=
  (segment.2.1 - segment.1.1) * (p.2 - segment.1.2) -
    (segment.2.2 - segment.1.2) * (p.1 - segment.1.1)

/-- `_side_of_nearest`. -/
def sideOfNearest [One K] (m : MathLib K) (cones : List (K × K)) (p : K × K) :
    Option (K × K) := do
  let dists := (around cones).map (segmentDist m p)
  let idx ← argmin dists
  return (← dists[idx]?, cross p (← (around cones)[idx]?))

variable [LE K] [DecidableLE K]

/-- `is_inside_track`. -/
def TrackData.isInsideTrack [One K] (m : MathLib K) (self : TrackData K) (x y : K) :
    Option Bool := do
  let (_, blueCross) ← sideOfNearest m self.blueCones (x, y)
  let (_, yellowCross) ← sideOfNearest m self.yellowCones (x, y)
  return decide (blueCross ≤ 0) && decide (0 ≤ yellowCross)

/-- `dist_to_boundary`. -/
def TrackData.distToBoundary [One K] [Neg K] (m : MathLib K) (self : TrackData K) (x y : K) :
    Option K := do
  let dists := (around self.blueCones ++ around self.yellowCones).map (segmentDist m (x, y))
  let idx ← argmin dists
  let d ← dists[idx]?
  let inside ← self.isInsideTrack m x y
  return if inside then d else -d

end

/-! ## What every track has -/

section
variable {K : Type}

/-- A track has a centreline, with an arc length for each point, and both boundaries. -/
structure Lined (track : Track K) : Prop where
  centerline : track.centerlineXy ≠ []
  arcs : track.centerlineS.length = track.centerlineXy.length
  blue : track.blueCones ≠ []
  yellow : track.yellowCones ≠ []

theorem cumS_length [Add K] [Sub K] (m : MathLib K) (s : K) (points : List (K × K)) :
    (cumS m s points).length = points.length := by
  induction points generalizing s with
  | nil => rfl
  | cons p points ih =>
    cases points with
    | nil => rfl
    | cons q points =>
      rw [cumS, List.length_cons, ih]
      rfl

variable [Add K] [Sub K] [Mul K] [Div K] [OfScientific K] [LT K] [DecidableLT K] [NatCast K]
  [Zero K]

omit [Sub K] [Mul K] [LT K] [DecidableLT K] [NatCast K] [Zero K] in
theorem midpoints_ne_nil {blue yellow ms : List (K × K)} (h : midpoints blue yellow = some ms)
    (hne : ms ≠ []) : blue ≠ [] ∧ yellow ≠ [] := by
  unfold midpoints at h
  split at h
  · obtain rfl := Option.some.inj h
    exact ⟨List.cons_ne_nil _ _, by simpa using hne⟩
  · obtain rfl := Option.some.inj h
    exact ⟨by simpa using hne, List.cons_ne_nil _ _⟩
  · split at h
    · obtain rfl := Option.some.inj h
      constructor
      · rintro rfl
        exact hne List.zipWith_nil_left
      · rintro rfl
        exact hne List.zipWith_nil_right
    · cases h

/-- **Every track is lined**: `__post_init__` raises otherwise. -/
theorem lined_of_postInit {m : MathLib K} {data : TrackData K} {track : Track K}
    (h : data.postInit m = some track) : Lined track := by
  obtain ⟨⟨points, arcs, length⟩, hcenterline, rfl⟩ := Option.map_eq_some_iff.mp h
  simp only [TrackData.computeCenterline, Option.bind_eq_bind, Option.bind_eq_some_iff]
    at hcenterline
  obtain ⟨ms, hms, idx, hidx, first, hfirst, last, -, total, -, hpair⟩ := hcenterline
  obtain ⟨hpoints, harcs⟩ := Prod.mk.inj (Option.some.inj hpair)
  obtain rfl := hpoints
  obtain ⟨rfl, -⟩ := Prod.mk.inj harcs
  have hne : ms ≠ [] := by
    rintro rfl
    cases hidx
  obtain ⟨hblue, hyellow⟩ := midpoints_ne_nil hms hne
  have hpoints : interpolate (ms.rotate idx) ≠ [] := by
    intro hnil
    rw [hnil] at hfirst
    cases hfirst
  exact ⟨hpoints, cumS_length m 0 _, hblue, hyellow⟩

end

end KartStack.Sim2d
