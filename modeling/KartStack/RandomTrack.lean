import KartStack.PythonLoops
import KartStack.SimTrack
import KartStack.TrackSpecs

/-! # Random tracks and track files

`random_track` asks the generator for two boundaries, resamples them to one number of
cones, and puts the spawn between the first pair.  The generator is a parameter: what the
call of a number comes to with given arguments.

A file holds the fields a track is made from; a name or a width that is missing is filled
in when the file is read.  What was written of a track makes the same track again
(`trackFromJson_trackToJson`).
-/
namespace KartStack.Sim2d
open KartStack.Python

section
variable {K : Type} [Field K] [LinearOrder K] (m : MathLib K)

/-- `np.median`, of at least one number. -/
def median (xs : List K) : Option K :=
  let sorted := xs.mergeSort fun a b => decide (a ≤ b)
  if sorted.length % 2 = 1 then sorted[sorted.length / 2]?
  else do return ((← sorted[sorted.length / 2 - 1]?) + (← sorted[sorted.length / 2]?)) / 2.0

/-- One entry of `_resample_boundary`, at the arc length `s`; `last` is the number of the
last segment. -/
def resampled (closed : List (K × K)) (cum : List K) (last : Nat) (s : K) : Option (K × K) := do
  let idx := min ((cum.takeWhile fun c => decide (c ≤ s)).length - 1) last
  let p ← closed[idx]?
  let q ← closed[idx + 1]?
  let c ← cum[idx]?
  let segLen := m.hypot (q.1 - p.1) (q.2 - p.2)
  let frac := if 0 < segLen then (s - c) / segLen else 0
  return (p.1 + frac * (q.1 - p.1), p.2 + frac * (q.2 - p.2))

/-- `_resample_boundary`; it raises where there is no cone. -/
def resampleBoundary (cones : List (K × K)) (n : Nat) : Option (List (K × K)) := do
  let closed := cones ++ [← cones.head?]
  let cum := cumS m 0 closed
  let total ← cum.getLast?
  (List.range n).mapM fun (i : Nat) =>
    resampled m closed cum (cones.length - 1) ((i : K) * (total / (n : K)))

/-- The name of a random track. -/
def randomName : Option Int → Str
  | some seed => "random_s".toList ++ decimalInt seed
  | none => "random".toList

/-- `random_track`, with the outcome of `_generate_in_subprocess`. -/
def randomTrack (args : RandomArgs K) (boundaries : List (K × K) × List (K × K)) :
    Option (Track K) := do
  let n := max boundaries.1.length boundaries.2.length
  let blue ← resampleBoundary m boundaries.1 n
  let yellow ← resampleBoundary m boundaries.2 n
  let spawn := middle (← blue[0]?) (← yellow[0]?)
  let nextMid := middle (← blue[1]?) (← yellow[1]?)
  let spawnYaw := m.atan2 (nextMid.2 - spawn.2) (nextMid.1 - spawn.1)
  let perp := (-m.sin spawnYaw, m.cos spawnYaw)
  let widths := List.zipWith
    (fun b y => m.sqrt ((b.1 - y.1) * (b.1 - y.1) + (b.2 - y.2) * (b.2 - y.2))) blue yellow
  let hw := (← median widths) / 2.0
  let left := (spawn.1 + hw * perp.1, spawn.2 + hw * perp.2)
  let right := (spawn.1 - hw * perp.1, spawn.2 - hw * perp.2)
  let along := (0.5 * m.cos spawnYaw, 0.5 * m.sin spawnYaw)
  TrackData.postInit m {
    name := randomName args.seed
    blueCones := blue
    yellowCones := yellow
    orangeCones := [
      (left.1 - along.1, left.2 - along.2), (left.1 + along.1, left.2 + along.2),
      (right.1 - along.1, right.2 - along.2), (right.1 + along.1, right.2 + along.2)]
    spawnX := spawn.1
    spawnY := spawn.2
    spawnYaw
    halfTrackWidth := hw }

/-- What a track file holds. -/
structure JsonTrack (K : Type) where
  name : Option Str
  blueCones : List (K × K)
  yellowCones : List (K × K)
  orangeCones : List (K × K)
  spawnX : K
  spawnY : K
  spawnYaw : K
  halfTrackWidth : Option K

/-- `track_to_json`: what it writes. -/
def trackToJson (track : Track K) : JsonTrack K where
  name := some track.name
  blueCones := track.blueCones
  yellowCones := track.yellowCones
  orangeCones := track.orangeCones
  spawnX := track.spawnX
  spawnY := track.spawnY
  spawnYaw := track.spawnYaw
  halfTrackWidth := some track.halfTrackWidth

/-- `track_from_json`: what it makes of the file with this path. -/
def trackFromJson (path : Str) (data : JsonTrack K) : Option (Track K) :=
  TrackData.postInit m {
    name := data.name.getD (baseName path)
    blueCones := data.blueCones
    yellowCones := data.yellowCones
    orangeCones := data.orangeCones
    spawnX := data.spawnX
    spawnY := data.spawnY
    spawnYaw := data.spawnYaw
    halfTrackWidth := data.halfTrackWidth.getD 1.5 }

/-! ## Tracks that were made -/

theorem toTrackData_of_postInit {data : TrackData K} {track : Track K}
    (h : data.postInit m = some track) : track.toTrackData = data := by
  obtain ⟨_, -, rfl⟩ := Option.map_eq_some_iff.mp h
  rfl

/-- `__post_init__` has made the track. -/
def Made (track : Track K) : Prop := track.toTrackData.postInit m = some track

theorem made_of_postInit {data : TrackData K} {track : Track K}
    (h : data.postInit m = some track) : Made m track := by
  rw [Made, toTrackData_of_postInit m h, h]

/-- **What was written of a track makes the track again.** -/
theorem trackFromJson_trackToJson {track : Track K} (h : Made m track) (path : Str) :
    trackFromJson m path (trackToJson track) = some track :=
  h

theorem made_of_trackFromJson {path : Str} {data : JsonTrack K} {track : Track K}
    (h : trackFromJson m path data = some track) : Made m track :=
  made_of_postInit m h

theorem randomTrack_eq_some {args : RandomArgs K} {boundaries : List (K × K) × List (K × K)}
    {track : Track K} (h : randomTrack m args boundaries = some track) :
    Made m track ∧ track.name = randomName args.seed ∧
      resampleBoundary m boundaries.1 (max boundaries.1.length boundaries.2.length) =
        some track.blueCones := by
  simp only [randomTrack, Option.bind_eq_bind, Option.bind_eq_some_iff] at h
  obtain ⟨blue, hblue, yellow, -, _, -, _, -, _, -, _, -, _, -, htrack⟩ := h
  have hdata := toTrackData_of_postInit m htrack
  refine ⟨made_of_postInit m htrack, congrArg (·.name) hdata, ?_⟩
  rw [hblue]
  exact congrArg some (congrArg (·.blueCones) hdata).symm

/-! ## What can be made -/

omit [LinearOrder K] in
theorem exists_midpoints {blue yellow : List (K × K)} (hlen : blue.length = yellow.length)
    (hne : blue ≠ []) : ∃ ms, midpoints blue yellow = some ms ∧ ms ≠ [] := by
  rcases blue with _ | ⟨b, _ | ⟨b', blue⟩⟩
  · exact absurd rfl hne
  · obtain ⟨y, rfl⟩ := List.length_eq_one_iff.mp hlen.symm
    exact ⟨_, rfl, List.cons_ne_nil _ _⟩
  · rcases yellow with _ | ⟨y, _ | ⟨y', yellow⟩⟩
    · cases hlen
    · cases hlen
    · have hms : midpoints (b :: b' :: blue) (y :: y' :: yellow) =
          if (b :: b' :: blue).length = (y :: y' :: yellow).length then
            some (List.zipWith middle (b :: b' :: blue) (y :: y' :: yellow)) else none := rfl
      exact ⟨_, hms.trans (if_pos hlen), List.cons_ne_nil _ _⟩

/-- As many blue cones as yellow ones make a track. -/
theorem exists_postInit {data : TrackData K}
    (hlen : data.blueCones.length = data.yellowCones.length) (hne : data.blueCones ≠ []) :
    ∃ track, data.postInit m = some track := by
  obtain ⟨ms, hms, hmsne⟩ := exists_midpoints hlen hne
  obtain ⟨idx, hidx, -⟩ := exists_argmin_map
    (fun p : K × K => m.hypot (p.1 - data.spawnX) (p.2 - data.spawnY)) hmsne
  have hlength : (interpolate (ms.rotate idx)).length = ms.length * numInterpPerSegment := by
    simp [interpolate, around, List.length_flatMap]
  have hpos : 0 < (interpolate (ms.rotate idx)).length := by
    rw [hlength]
    exact Nat.mul_pos (List.length_pos_of_ne_nil hmsne) (by decide)
  have hpoints := List.ne_nil_of_length_pos hpos
  have harcs : cumS m 0 (interpolate (ms.rotate idx)) ≠ [] :=
    List.ne_nil_of_length_pos (by rw [cumS_length]; exact hpos)
  simp only [TrackData.postInit, TrackData.computeCenterline, hms, hidx, Option.bind_eq_bind,
    Option.bind_some, List.head?_eq_some_head hpoints, List.getLast?_eq_some_getLast hpoints,
    List.getLast?_eq_some_getLast harcs]
  exact ⟨_, rfl⟩

theorem exists_resampled {closed : List (K × K)} {cum : List K} {last : Nat}
    (hclosed : closed.length = last + 2) (hcum : cum.length = closed.length) (s : K) :
    ∃ p, resampled m closed cum last s = some p := by
  have hidx := Nat.min_le_right ((cum.takeWhile fun c => decide (c ≤ s)).length - 1) last
  simp only [resampled]
  generalize min ((cum.takeWhile fun c => decide (c ≤ s)).length - 1) last = idx at hidx ⊢
  have hp : idx < closed.length := by omega
  have hq : idx + 1 < closed.length := by omega
  have hc : idx < cum.length := by omega
  rw [List.getElem?_eq_getElem hp, List.getElem?_eq_getElem hq, List.getElem?_eq_getElem hc]
  exact ⟨_, rfl⟩

theorem exists_resampleBoundary {cones : List (K × K)} (hne : cones ≠ []) (n : Nat) :
    ∃ out, resampleBoundary m cones n = some out ∧ out.length = n := by
  have hcones := List.length_pos_of_ne_nil hne
  obtain ⟨first, hfirst⟩ : ∃ first, cones.head? = some first :=
    ⟨_, List.head?_eq_some_head hne⟩
  have hclosed : (cones ++ [first]).length = cones.length - 1 + 2 := by
    rw [List.length_append, List.length_singleton]
    omega
  have hcum := cumS_length m 0 (cones ++ [first])
  obtain ⟨total, htotal⟩ : ∃ total, (cumS m 0 (cones ++ [first])).getLast? = some total :=
    ⟨_, List.getLast?_eq_some_getLast (List.ne_nil_of_length_pos (by omega))⟩
  have hall : ∀ i ∈ List.range n, ∃ p, resampled m (cones ++ [first]) (cumS m 0 (cones ++ [first]))
      (cones.length - 1) ((i : K) * (total / (n : K))) = some p := fun i _ =>
    exists_resampled m hclosed hcum _
  obtain ⟨out, hout⟩ := exists_mapM hall
  refine ⟨out, ?_, (length_of_mapM hout).trans List.length_range⟩
  simp only [resampleBoundary, hfirst, htotal, Option.bind_eq_bind, Option.bind_some]
  exact hout

theorem exists_median {xs : List K} (h : xs ≠ []) : ∃ x, median xs = some x := by
  have hpos : 0 < (xs.mergeSort fun a b => decide (a ≤ b)).length := by
    rw [List.length_mergeSort]
    exact List.length_pos_of_ne_nil h
  simp only [median]
  generalize xs.mergeSort (fun a b => decide (a ≤ b)) = sorted at hpos ⊢
  have hmid : sorted.length / 2 < sorted.length := by omega
  have hbefore : sorted.length / 2 - 1 < sorted.length := by omega
  rw [List.getElem?_eq_getElem hmid, List.getElem?_eq_getElem hbefore]
  split <;> exact ⟨_, rfl⟩

/-- Two boundaries, one of them of two cones or more, make a track. -/
theorem exists_randomTrack (args : RandomArgs K) {left right : List (K × K)} (hleft : left ≠ [])
    (hright : right ≠ []) (hlen : 2 ≤ max left.length right.length) :
    ∃ track, randomTrack m args (left, right) = some track := by
  obtain ⟨blue, hblue, hblueLen⟩ := exists_resampleBoundary m hleft (max left.length right.length)
  obtain ⟨yellow, hyellow, hyellowLen⟩ :=
    exists_resampleBoundary m hright (max left.length right.length)
  have hwidths : List.zipWith (fun b y : K × K =>
      m.sqrt ((b.1 - y.1) * (b.1 - y.1) + (b.2 - y.2) * (b.2 - y.2))) blue yellow ≠ [] := by
    apply List.ne_nil_of_length_pos
    rw [List.length_zipWith]
    omega
  obtain ⟨width, hwidth⟩ := exists_median hwidths
  have hb : ∀ {i}, i < 2 → i < blue.length := fun hi => by omega
  have hy : ∀ {i}, i < 2 → i < yellow.length := fun hi => by omega
  simp only [randomTrack, hblue, hyellow, hwidth, Option.bind_eq_bind, Option.bind_some,
    List.getElem?_eq_getElem (hb Nat.zero_lt_two), List.getElem?_eq_getElem (hy Nat.zero_lt_two),
    List.getElem?_eq_getElem (hb Nat.one_lt_two), List.getElem?_eq_getElem (hy Nat.one_lt_two)]
  exact exists_postInit m (hblueLen.trans hyellowLen.symm) (List.ne_nil_of_length_pos (hb (by decide)))

end

/-- The boundary of two cones a metre apart begins with the first of them. -/
theorem resampleBoundary_pair {p : ℝ × ℝ} {out : List (ℝ × ℝ)}
    (h : resampleBoundary MathLib.real [p, (p.1 + 1, p.2)] 2 = some out) : out.head? = some p := by
  simp only [resampleBoundary, List.head?_cons, Option.bind_eq_bind, Option.bind_some,
    Option.bind_eq_some_iff] at h
  obtain ⟨total, -, hout⟩ := h
  have hlong : MathLib.real.hypot (p.1 + 1 - p.1) (p.2 - p.2) = 1 := by
    simp [MathLib.real]
  have hfirst : resampled MathLib.real ([p, (p.1 + 1, p.2)] ++ [p])
      (cumS MathLib.real 0 ([p, (p.1 + 1, p.2)] ++ [p])) 1 0 = some p := by
    have hcum : (cumS MathLib.real 0 ([p, (p.1 + 1, p.2)] ++ [p])).takeWhile
        (fun c => decide (c ≤ 0)) = [0] := by
      simp only [List.cons_append, List.nil_append, cumS, hlong]
      norm_num [List.takeWhile]
    simp only [resampled, hcum]
    simp [cumS]
  have hrange : List.range 2 = [0, 1] := rfl
  rw [hrange, List.mapM_cons] at hout
  simp only [Nat.cast_zero, zero_mul, Option.bind_eq_bind, Option.bind_eq_some_iff] at hout
  obtain ⟨q, hq, _, -, hcons⟩ := hout
  obtain rfl := Option.some.inj hcons
  exact congrArg some (Option.some.inj (hq.symm.trans hfirst))

end KartStack.Sim2d
