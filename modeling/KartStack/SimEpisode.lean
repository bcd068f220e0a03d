import KartStack.CircularTravel
import KartStack.ConePerception
import KartStack.SimTrack
import KartStack.SimTraining
import Mathlib.Algebra.Order.Floor.Ring

/-! # An episode

`run_episode` lets a controller drive: in each step it gets the cones in view, the kart
moves, and its place on the centreline is read off again.  The way between two such places
is added up, the shorter way round, until the steps are over or the kart is off the track.

So the distance of an episode is what the coordinate on the centreline changed by, and one
length for each passage over the start forward, less one for each passage back
(`runEpisode_laps`); the laps are how often the length goes into it.
-/
namespace KartStack.Sim2d
open KartStack.Python ConePerception CircularTravel

/-! ## The kart -/

section
variable {K : Type} [OfScientific K]

/-- `WHEELBASE`. -/
def wheelbase : K := 1.05
/-- `MAX_STEER`. -/
def maxSteer : K := 0.5
/-- `MAX_SPEED`. -/
def maxSpeed : K := 10.0
/-- `MAX_ACCEL`. -/
def maxAccel : K := 2.0
/-- `DT`. -/
def dt : K := 0.05
/-- `BOUNDARY_DANGER`. -/
def boundaryDanger : K := 0.5

variable [Add K] [Sub K] [Mul K] [Div K] [Neg K] [LT K] [DecidableLT K]

/-- `kart_model.step`; `tan` is `np.tan`. -/
def kartStep (m : MathLib K) (tan : K → K) (state : KartState K) (steerCmd speedCmd : K) :
    KartState K :=
  let steer := clip steerCmd (-maxSteer) maxSteer
  let target := clip speedCmd 0.0 maxSpeed
  let maxDv : K := maxAccel * dt
  let dv := clip (target - state.speed) (-maxDv) maxDv
  let newSpeed := clip (state.speed + dv) 0.0 maxSpeed
  let dx := state.speed * m.cos state.yaw * dt
  let dy := state.speed * m.sin state.yaw * dt
  let dyaw := state.speed * tan steer / wheelbase * dt
  ⟨state.x + dx, state.y + dy, state.yaw + dyaw, newSpeed⟩

end

/-- A controller, with the state it keeps between calls of `control`. -/
structure Controller (S K : Type) where
  reset : S → S
  /-- It has a `_last_speed`, and takes the speed of the kart. -/
  wantsSpeed : Bool
  /-- Steer and speed; a network raises where its biases do not fit. -/
  control : S → List (SeenCone K) → Option K → Option ((K × K) × S)

/-- A `GeometricController`. -/
def geometricController {K : Type} [OfScientific K] [Add K] [Sub K] [Mul K] [Div K] [Neg K]
    [LT K] [DecidableLT K] (m : MathLib K) (inf : K) : Controller (GeometricController K) K where
  reset self := { self with lastSteer := 0.0 }
  wantsSpeed := false
  control self visibleCones _ := some (self.control m inf visibleCones)

/-! ## The loop -/

/-- What the loop of `run_episode` keeps. -/
structure EpisodeState (S K : Type) where
  state : KartState K
  controller : S
  sPrev : K
  totalDistance : K
  totalCte : K
  totalCte4 : K
  maxCte : K
  totalSpeed : K
  boundaryPenalty : K
  minBoundaryDist : K
  weightedProgress : K
  speedWeightedProgress : K
  steps : Nat

/-- What an episode draws in one step, for each cone in view. -/
abbrev StepDraws (K : Type) := Nat → K × K × K

section
variable {S K : Type} [Field K] [LinearOrder K] (m : MathLib K) (tan : K → K)
  (ctrl : Controller S K)

/-- Before the loop; `inf` is `float("inf")`. -/
def startEpisode (inf : K) (track : Track K) (controller : S) : Option (EpisodeState S K) := do
  let state : KartState K := ⟨track.spawnX, track.spawnY, track.spawnYaw, 0.0⟩
  let (sPrev, _) ← track.projectToCenterline m state.x state.y
  return ⟨state, ctrl.reset controller, sPrev, 0, 0, 0, 0, 0, 0, inf, 0, 0, 0⟩

/-- `ds`, the way between two places on the centreline. -/
def wrappedDs (track : Track K) (sPrev sCur : K) : K :=
  let ds := sCur - sPrev
  if track.trackLength / 2.0 < ds then ds - track.trackLength
  else if ds < -track.trackLength / 2.0 then ds + track.trackLength
  else ds

/-- One pass of the loop; the flag says that it is the last because the kart is outside. -/
def episodeStep (noiseStd dropout : K) (track : Track K) (e : EpisodeState S K)
    (draw : StepDraws K) : Option (EpisodeState S K × Bool) := do
  let visible := perceive m e.state track.blueCones track.yellowCones track.orangeCones noiseStd
    dropout draw
  let currentSpeed := if ctrl.wantsSpeed then some e.state.speed else none
  let ((steer, speedCmd), controller) ← ctrl.control e.controller visible currentSpeed
  let state := kartStep m tan e.state steer speedCmd
  let (sCur, cte) ← track.projectToCenterline m state.x state.y
  let ds := wrappedDs track e.sPrev sCur
  let cteNorm := cte / track.halfTrackWidth
  let centering := Python.max 0.0 (1.0 - cteNorm ^ 2)
  let bd ← track.distToBoundary m state.x state.y
  let outside := decide (bd < 0)
  return ({
    state
    controller
    sPrev := sCur
    totalDistance := e.totalDistance + ds
    totalCte := e.totalCte + cte
    totalCte4 := e.totalCte4 + cteNorm ^ 4
    maxCte := if e.maxCte < cte then cte else e.maxCte
    totalSpeed := e.totalSpeed + state.speed
    boundaryPenalty :=
      if bd < 0 then e.boundaryPenalty
      else if bd < boundaryDanger then e.boundaryPenalty + (1.0 - bd / boundaryDanger) ^ 2
      else e.boundaryPenalty
    minBoundaryDist := if bd < e.minBoundaryDist then bd else e.minBoundaryDist
    weightedProgress := e.weightedProgress + ds * centering
    speedWeightedProgress :=
      e.speedWeightedProgress + ds * centering * (1.0 + state.speed / maxSpeed)
    steps := e.steps + 1 }, outside)

/-- The loop: what it keeps after each pass. -/
def episodeLoop (noiseStd dropout : K) (track : Track K) (e : EpisodeState S K) :
    List (StepDraws K) → Option (List (EpisodeState S K))
  | [] => some []
  | draw :: draws => do
    let (e, outside) ← episodeStep m tan ctrl noiseStd dropout track e draw
    if outside then return [e]
    else return e :: (← episodeLoop noiseStd dropout track e draws)

variable [IsStrictOrderedRing K] [FloorRing K]

/-- `int(total_distance / track.track_length) if total_distance > 0 else 0`. -/
def lapsOf (track : Track K) (totalDistance : K) : Nat :=
  if 0 < totalDistance then ⌊totalDistance / track.trackLength⌋.toNat else 0

/-- What is returned, from what the loop kept last. -/
def episodeResult (track : Track K) (mode : FitnessMode) (e : EpisodeState S K) :
    EpisodeResult K :=
  let steps : K := e.steps
  let avgCte := if e.steps ≠ 0 then e.totalCte / steps else 0.0
  let avgSpeed := if e.steps ≠ 0 then e.totalSpeed / steps else 0.0
  let laps := lapsOf track e.totalDistance
  let time := steps * dt
  let ctePenalty : K :=
    match mode with
    | .v4 => 1.5 * e.totalCte4
    | .v3 =>
      if track.halfTrackWidth < e.maxCte then
        0.5 * e.totalCte4 + 200.0 * (e.maxCte / track.halfTrackWidth) ^ 2
      else 0.5 * e.totalCte4
    | _ => 0.0
  let fitness : K :=
    match mode with
    | .v6 => e.speedWeightedProgress
    | .v5 => e.weightedProgress + 200.0 * laps
    | .v4 => e.totalDistance + 200.0 * laps - ctePenalty - 50.0 * e.boundaryPenalty
    | .v3 => e.totalDistance + 200.0 * laps - ctePenalty
    | .v2 =>
      if 1 ≤ laps then 500.0 * laps - time - 5.0 * avgCte else e.totalDistance - 2.0 * avgCte
    | .v1 => e.totalDistance + 100.0 * laps - 2.0 * avgCte + 0.5 * avgSpeed
  { fitness
    distance := e.totalDistance
    laps
    avgCte
    avgSpeed
    steps := e.steps
    time
    maxCte := e.maxCte
    ctePenalty
    weightedProgress := e.weightedProgress
    speedWeightedProgress := e.speedWeightedProgress
    minBoundaryDist := e.minBoundaryDist
    boundaryPenalty := e.boundaryPenalty }

/-- What the loop of an episode keeps: before it, and after each pass. -/
def episodeStates (inf : K) (settings : Settings (Track K) K) (controller : S)
    (draws : Nat → StepDraws K) : Option (List (EpisodeState S K)) := do
  let e ← startEpisode m ctrl inf settings.track controller
  let es ← episodeLoop m tan ctrl settings.noiseStd settings.dropout settings.track e
    ((List.range settings.maxSteps.toNat).map draws)
  return e :: es

/-- `run_episode`. -/
def runEpisode (inf : K) (settings : Settings (Track K) K) (controller : S)
    (mode : FitnessMode) (draws : Nat → StepDraws K) : Option (EpisodeResult K) := do
  let es ← episodeStates m tan ctrl inf settings controller draws
  return episodeResult settings.track mode (← es.getLast?)

end

/-! ## What was travelled -/

section
variable {S K : Type} [Field K] [LinearOrder K] {m : MathLib K} {tan : K → K}
  {ctrl : Controller S K} {track : Track K}

/-- A place read off the centreline is one of its arc lengths. -/
theorem projectToCenterline_mem {x y s cte : K}
    (h : track.projectToCenterline m x y = some (s, cte)) : s ∈ track.centerlineS := by
  simp only [Track.projectToCenterline, Option.bind_eq_bind, Option.bind_eq_some_iff] at h
  obtain ⟨idx, -, s', hs, d, -, hpair⟩ := h
  obtain ⟨rfl, -⟩ := Prod.mk.inj (Option.some.inj hpair)
  exact List.mem_of_getElem? hs

/-- The kart stands at the spawn, and nothing has been counted. -/
theorem startEpisode_eq {inf : K} {controller : S} {e : EpisodeState S K}
    (h : startEpisode m ctrl inf track controller = some e) :
    ∃ sPrev ∈ track.centerlineS, e = ⟨⟨track.spawnX, track.spawnY, track.spawnYaw, 0.0⟩,
      ctrl.reset controller, sPrev, 0, 0, 0, 0, 0, 0, inf, 0, 0, 0⟩ := by
  simp only [startEpisode, Option.bind_eq_bind, Option.bind_eq_some_iff] at h
  obtain ⟨⟨sPrev, cte⟩, hplace, he⟩ := h
  exact ⟨sPrev, projectToCenterline_mem hplace, (Option.some.inj he).symm⟩

/-- The states of an episode are the first one and those after the passes. -/
theorem episodeStates_eq {inf : K} {settings : Settings (Track K) K} {controller : S}
    {draws : Nat → StepDraws K} {states : List (EpisodeState S K)}
    (h : episodeStates m tan ctrl inf settings controller draws = some states) :
    ∃ e es, startEpisode m ctrl inf settings.track controller = some e ∧
      episodeLoop m tan ctrl settings.noiseStd settings.dropout settings.track e
        ((List.range settings.maxSteps.toNat).map draws) = some es ∧ states = e :: es := by
  obtain ⟨e, hstart, hrest⟩ := Option.bind_eq_some_iff.mp h
  obtain ⟨es, hloop, hcons⟩ := Option.bind_eq_some_iff.mp hrest
  exact ⟨e, es, hstart, hloop, (Option.some.inj hcons).symm⟩

/-- The result is read off the last one. -/
theorem runEpisode_eq [FloorRing K] {inf : K} {settings : Settings (Track K) K} {controller : S}
    {mode : FitnessMode} {draws : Nat → StepDraws K} {r : EpisodeResult K}
    (h : runEpisode m tan ctrl inf settings controller mode draws = some r) :
    ∃ e es, episodeStates m tan ctrl inf settings controller draws = some (e :: es) ∧
      r = episodeResult settings.track mode ((e :: es).getLast (List.cons_ne_nil e es)) := by
  obtain ⟨states, hstates, hresult⟩ := Option.bind_eq_some_iff.mp h
  obtain ⟨last, hlast, hr⟩ := Option.bind_eq_some_iff.mp hresult
  obtain ⟨e, es, -, -, rfl⟩ := episodeStates_eq hstates
  rw [List.getLast?_eq_some_getLast (List.cons_ne_nil e es)] at hlast
  obtain rfl := Option.some.inj hlast
  exact ⟨e, es, hstates, (Option.some.inj hr).symm⟩

variable (m ctrl) in
/-- What the controller answers in a pass. -/
def commanded (noiseStd dropout : K) (track : Track K) (e : EpisodeState S K)
    (draw : StepDraws K) : Option ((K × K) × S) :=
  ctrl.control e.controller
    (perceive m e.state track.blueCones track.yellowCones track.orangeCones noiseStd dropout draw)
    (if ctrl.wantsSpeed then some e.state.speed else none)

/-- The kart goes where it is commanded to. -/
theorem driven_of_episodeStep {noiseStd dropout : K} {e e' : EpisodeState S K}
    {draw : StepDraws K} {outside : Bool}
    (h : episodeStep m tan ctrl noiseStd dropout track e draw = some (e', outside)) :
    ∃ r, commanded m ctrl noiseStd dropout track e draw = some r ∧
      e'.state = kartStep m tan e.state r.1.1 r.1.2 ∧ e'.controller = r.2 := by
  simp only [episodeStep, Option.bind_eq_bind, Option.bind_eq_some_iff] at h
  obtain ⟨r, hr, ⟨sCur, cte⟩, -, bd, -, hpair⟩ := h
  obtain ⟨rfl, -⟩ := Prod.mk.inj (Option.some.inj hpair)
  exact ⟨r, hr, rfl, rfl⟩

variable (m) in
/-- The kart is outside the track. -/
def Outside (track : Track K) (e : EpisodeState S K) : Prop :=
  ∃ bd ∈ track.distToBoundary m e.state.x e.state.y, bd < 0

theorem outside_of_episodeStep {noiseStd dropout : K} {e e' : EpisodeState S K}
    {draw : StepDraws K} {outside : Bool}
    (h : episodeStep m tan ctrl noiseStd dropout track e draw = some (e', outside)) :
    outside = true ↔ Outside m track e' := by
  simp only [episodeStep, Option.bind_eq_bind, Option.bind_eq_some_iff] at h
  obtain ⟨r, -, ⟨sCur, cte⟩, -, bd, hbd, hpair⟩ := h
  obtain ⟨rfl, rfl⟩ := Prod.mk.inj (Option.some.inj hpair)
  rw [decide_eq_true_iff, Outside, hbd]
  simp

/-- What one pass does to the distance. -/
structure Passes (track : Track K) (e e' : EpisodeState S K) : Prop where
  place : e'.sPrev ∈ track.centerlineS
  totalDistance : e'.totalDistance =
    e.totalDistance + shortWay track.trackLength (e'.sPrev - e.sPrev)
  steps : e'.steps = e.steps + 1

/-- **One turn of the loop**: a pass, and the rest of the passes unless it has ended outside. -/
theorem episodeLoop_cons {noiseStd dropout : K} {e : EpisodeState S K} {draw : StepDraws K}
    {draws : List (StepDraws K)} {es : List (EpisodeState S K)}
    (h : episodeLoop m tan ctrl noiseStd dropout track e (draw :: draws) = some es) :
    ∃ e' outside rest,
      episodeStep m tan ctrl noiseStd dropout track e draw = some (e', outside) ∧
      es = e' :: rest ∧ (outside = true ∧ rest = [] ∨ outside = false ∧
        episodeLoop m tan ctrl noiseStd dropout track e' draws = some rest) := by
  simp only [episodeLoop, Option.bind_eq_bind, Option.bind_eq_some_iff] at h
  obtain ⟨⟨e', outside⟩, hstep, h⟩ := h
  cases outside with
  | true => exact ⟨e', true, [], hstep, (Option.some.inj h).symm, Or.inl ⟨rfl, rfl⟩⟩
  | false =>
    obtain ⟨rest, hrest, hes⟩ := Option.bind_eq_some_iff.mp h
    exact ⟨e', false, rest, hstep, (Option.some.inj hes).symm, Or.inr ⟨rfl, hrest⟩⟩

/-- **The passes of the loop**: each is a step, with its own draw. -/
theorem episodeLoop_pass {noiseStd dropout : K} {e : EpisodeState S K}
    {draws : List (StepDraws K)} {es : List (EpisodeState S K)}
    (h : episodeLoop m tan ctrl noiseStd dropout track e draws = some es) {i : Nat}
    {e₁ e₂ : EpisodeState S K} (h₁ : (e :: es)[i]? = some e₁) (h₂ : es[i]? = some e₂) :
    ∃ draw ∈ draws[i]?, ∃ outside,
      episodeStep m tan ctrl noiseStd dropout track e₁ draw = some (e₂, outside) := by
  induction draws generalizing e es i with
  | nil =>
    obtain rfl := Option.some.inj h
    cases h₂
  | cons draw draws ih =>
    obtain ⟨e', outside, rest, hstep, rfl, hrest⟩ := episodeLoop_cons h
    cases i with
    | zero =>
      obtain rfl := Option.some.inj h₁
      obtain rfl := Option.some.inj h₂
      exact ⟨draw, rfl, outside, hstep⟩
    | succ i =>
      rcases hrest with ⟨-, rfl⟩ | ⟨-, hrest⟩
      · cases h₂
      · exact ih hrest h₁ h₂

variable (m) in
/-- How many passes there are: one for each step, and fewer only where the kart is outside
after the last. -/
structure Ends (track : Track K) (maxSteps : Nat) (es : List (EpisodeState S K)) : Prop where
  bound : es.length ≤ maxSteps
  short : es.length < maxSteps → ∃ e ∈ es.getLast?, Outside m track e
  before : ∀ e ∈ es.dropLast, ¬ Outside m track e

theorem ends_nil : Ends m track 0 ([] : List (EpisodeState S K)) :=
  ⟨le_rfl, fun h => absurd h (Nat.lt_irrefl 0), fun _ he => by cases he⟩

theorem ends_outside {e : EpisodeState S K} (h : Outside m track e) (n : Nat) :
    Ends m track (n + 1) [e] :=
  ⟨Nat.le_add_left 1 n, fun _ => ⟨e, rfl, h⟩, fun _ he => by cases he⟩

theorem Ends.cons {e : EpisodeState S K} {n : Nat} {es : List (EpisodeState S K)}
    (hin : ¬ Outside m track e) (h : Ends m track n es) : Ends m track (n + 1) (e :: es) := by
  refine ⟨Nat.succ_le_succ h.bound, fun hlt => ?_, fun e' he' => ?_⟩
  · obtain ⟨last, hlast, hout⟩ := h.short (Nat.lt_of_succ_lt_succ hlt)
    exact ⟨last, by rw [List.getLast?_cons, hlast]; rfl, hout⟩
  · cases es with
    | nil => cases he'
    | cons e₁ es =>
      rw [List.dropLast_cons_of_ne_nil (List.cons_ne_nil e₁ es)] at he'
      rcases List.mem_cons.mp he' with rfl | he'
      · exact hin
      · exact h.before e' he'

theorem episodeLoop_ends {noiseStd dropout : K} {e : EpisodeState S K}
    {draws : List (StepDraws K)} {es : List (EpisodeState S K)}
    (h : episodeLoop m tan ctrl noiseStd dropout track e draws = some es) :
    Ends m track draws.length es := by
  induction draws generalizing e es with
  | nil =>
    obtain rfl := Option.some.inj h
    exact ends_nil
  | cons draw draws ih =>
    obtain ⟨e', outside, rest, hstep, rfl, hrest⟩ := episodeLoop_cons h
    have houtside := outside_of_episodeStep hstep
    rcases hrest with ⟨rfl, rfl⟩ | ⟨rfl, hrest⟩
    · exact ends_outside (houtside.mp rfl) draws.length
    · exact (ih hrest).cons fun hout => Bool.false_ne_true (houtside.mpr hout)

variable [IsStrictOrderedRing K] [FloorRing K]

end

/-! ## Episodes end -/

section
variable {S K : Type}

theorem around_ne_nil {cones : List (K × K)} (h : cones ≠ []) : around cones ≠ [] := by
  have hlength : (around cones).length = cones.length := by simp [around]
  exact List.ne_nil_of_length_pos (hlength ▸ List.length_pos_iff.mpr h)

variable [Field K] [LinearOrder K] (m : MathLib K) {track : Track K}

theorem exists_projectToCenterline (h : Lined track) (x y : K) :
    ∃ s cte, track.projectToCenterline m x y = some (s, cte) := by
  obtain ⟨idx, hidx, hlt⟩ := exists_argmin_map
    (fun p : K × K => (p.1 - x) * (p.1 - x) + (p.2 - y) * (p.2 - y)) h.centerline
  have hs : idx < track.centerlineS.length := h.arcs ▸ hlt
  simp only [Track.projectToCenterline, hidx, Option.bind_eq_bind, Option.bind_some,
    List.getElem?_eq_getElem hs, List.getElem?_map, List.getElem?_eq_getElem hlt, Option.map_some]
  exact ⟨_, _, rfl⟩

theorem exists_sideOfNearest {cones : List (K × K)} (h : cones ≠ []) (p : K × K) :
    ∃ r, sideOfNearest m cones p = some r := by
  obtain ⟨idx, hidx, hlt⟩ := exists_argmin_map (segmentDist m p) (around_ne_nil h)
  simp only [sideOfNearest, hidx, Option.bind_eq_bind, Option.bind_some, List.getElem?_map,
    List.getElem?_eq_getElem hlt, Option.map_some]
  exact ⟨_, rfl⟩

theorem exists_distToBoundary (h : Lined track) (x y : K) :
    ∃ bd, track.distToBoundary m x y = some bd := by
  obtain ⟨blue, hblue⟩ := exists_sideOfNearest m h.blue (x, y)
  obtain ⟨yellow, hyellow⟩ := exists_sideOfNearest m h.yellow (x, y)
  obtain ⟨idx, hidx, hlt⟩ := exists_argmin_map (segmentDist m (x, y))
    (List.append_ne_nil_of_left_ne_nil (around_ne_nil h.blue) (around track.yellowCones))
  simp only [TrackData.distToBoundary, TrackData.isInsideTrack, hblue, hyellow, hidx,
    Option.bind_eq_bind, Option.bind_some, List.getElem?_map, List.getElem?_eq_getElem hlt,
    Option.map_some]
  exact ⟨_, rfl⟩

/-- In a state of this kind the controller answers, and stays in one. -/
structure Answers (ctrl : Controller S K) (ok : S → Prop) : Prop where
  reset : ∀ s, ok s → ok (ctrl.reset s)
  control : ∀ s cones speed, ok s → ∃ r, ctrl.control s cones speed = some r ∧ ok r.2

theorem geometricController_answers (inf : K) :
    Answers (geometricController m inf) fun _ => True :=
  ⟨fun _ _ => trivial, fun _ _ _ _ => ⟨_, rfl, trivial⟩⟩

variable (tan : K → K) {ctrl : Controller S K} {ok : S → Prop}

theorem exists_episodeStep (h : Lined track) (hanswers : Answers ctrl ok) (noiseStd dropout : K)
    {e : EpisodeState S K} (he : ok e.controller) (draw : StepDraws K) :
    ∃ r, episodeStep m tan ctrl noiseStd dropout track e draw = some r ∧ ok r.1.controller := by
  obtain ⟨r, hr, hok⟩ := hanswers.control e.controller
    (perceive m e.state track.blueCones track.yellowCones track.orangeCones noiseStd dropout draw)
    (if ctrl.wantsSpeed then some e.state.speed else none) he
  simp only [episodeStep, hr, Option.bind_eq_bind, Option.bind_some]
  generalize kartStep m tan e.state r.1.1 r.1.2 = state
  obtain ⟨s, cte, hplace⟩ := exists_projectToCenterline m h state.x state.y
  obtain ⟨bd, hbd⟩ := exists_distToBoundary m h state.x state.y
  simp only [hplace, hbd, Option.bind_some]
  exact ⟨_, rfl, hok⟩

theorem exists_episodeLoop (h : Lined track) (hanswers : Answers ctrl ok) (noiseStd dropout : K)
    {e : EpisodeState S K} (he : ok e.controller) (draws : List (StepDraws K)) :
    ∃ es, episodeLoop m tan ctrl noiseStd dropout track e draws = some es := by
  induction draws generalizing e with
  | nil => exact ⟨[], rfl⟩
  | cons draw draws ih =>
    obtain ⟨⟨e', outside⟩, hr, he'⟩ := exists_episodeStep m tan h hanswers noiseStd dropout he draw
    obtain ⟨es, hes⟩ := ih he'
    cases outside with
    | true => exact ⟨[e'], by simp [episodeLoop, hr]⟩
    | false => exact ⟨e' :: es, by simp [episodeLoop, hr, hes]⟩

variable [FloorRing K]

/-- An episode on such a track with such a controller ends. -/
theorem exists_runEpisode {settings : Settings (Track K) K} (h : Lined settings.track)
    (hanswers : Answers ctrl ok) (inf : K) {controller : S} (hcontroller : ok controller)
    (mode : FitnessMode) (draws : Nat → StepDraws K) :
    ∃ r, runEpisode m tan ctrl inf settings controller mode draws = some r := by
  obtain ⟨s, cte, hplace⟩ := exists_projectToCenterline m h settings.track.spawnX
    settings.track.spawnY
  obtain ⟨e, hstart, he⟩ : ∃ e, startEpisode m ctrl inf settings.track controller = some e ∧
      ok e.controller := by
    simp only [startEpisode, hplace]
    exact ⟨_, rfl, hanswers.reset _ hcontroller⟩
  obtain ⟨es, hes⟩ := exists_episodeLoop m tan h hanswers settings.noiseStd
    settings.dropout he ((List.range settings.maxSteps.toNat).map draws)
  have hstates : episodeStates m tan ctrl inf settings controller draws = some (e :: es) := by
    simp [episodeStates, hstart, hes]
  rw [runEpisode, hstates]
  simp only [Option.bind_eq_bind, Option.bind_some,
    List.getLast?_eq_some_getLast (List.cons_ne_nil e es)]
  exact ⟨_, rfl⟩

end

/-- The centreline of a square around the origin, and cones within and without. -/
noncomputable def squareTrack : Track ℝ where
  name := "square".toList
  blueCones := [(0.5, 0.5), (-0.5, 0.5), (-0.5, -0.5), (0.5, -0.5)]
  yellowCones := [(1.5, 1.5), (-1.5, 1.5), (-1.5, -1.5), (1.5, -1.5)]
  orangeCones := []
  spawnX := 1
  spawnY := 0
  spawnYaw := 1.5
  halfTrackWidth := 0.5
  centerlineXy := [(1, 1), (-1, 1), (-1, -1), (1, -1)]
  centerlineS := [0, 2.0, 4.0, 6.0]
  trackLength := 8.0

/-- Every controller that answers drives an episode there. -/
theorem exists_runEpisode_square {S : Type} {ctrl : Controller S ℝ} {ok : S → Prop}
    (hanswers : Answers ctrl ok) {controller : S} (hcontroller : ok controller)
    (mode : FitnessMode) :
    ∃ r, runEpisode MathLib.real Real.tan ctrl 100 ⟨squareTrack, 2000, 0, 0⟩ controller mode
      (fun _ _ => 0) = some r := by
  have hlined : Lined (⟨squareTrack, 2000, 0, 0⟩ : Settings (Track ℝ) ℝ).track :=
    ⟨List.cons_ne_nil _ _, rfl, List.cons_ne_nil _ _, List.cons_ne_nil _ _⟩
  exact exists_runEpisode MathLib.real Real.tan hlined hanswers 100 hcontroller mode _

end KartStack.Sim2d
