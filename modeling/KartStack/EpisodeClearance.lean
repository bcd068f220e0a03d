import KartStack.OnTrack
import KartStack.SimEpisode

/-! # No way off the track without a penalty

`run_episode` charges a kart that comes nearer than `BOUNDARY_DANGER` to a boundary, and looks
only where the kart is at the end of each step.  In exact arithmetic, which is that of this
module, a step at `MAX_SPEED` is just as long as that strip is wide.  So a kart that is clear of
the strip at the end of a step is on the same side of both boundaries at the end of the next,
and by the even-odd rule it is between them as long as nothing has been charged
(`penalty_of_leaving`), whatever the controller does and whatever `dist_to_boundary` makes of
the sign.
-/
namespace KartStack.Polygon

/-- No point of the closed line is nearer than `r`. -/
def Clear (vs : List (ℝ × ℝ)) (p : ℝ × ℝ) (r : ℝ) : Prop :=
  ∀ f ∈ edges vs, ∀ q ∈ segment ℝ f.1 f.2, r ^ 2 ≤ distSq p q

section
variable {vs : List (ℝ × ℝ)} {p q : ℝ × ℝ} {r s : ℝ}

theorem distSq_self (p : ℝ × ℝ) : distSq p p = 0 := by simp [distSq, dot]

theorem Clear.off (h : Clear vs p r) (hr : r ≠ 0) : Off vs p := by
  intro f hf hp
  have hle := h f hf p hp
  rw [distSq_self] at hle
  exact absurd hle (not_le.mpr (by positivity))

theorem Clear.mono (h : Clear vs p r) (hs : 0 ≤ s) (hsr : s ≤ r) : Clear vs p s :=
  fun f hf q hq => (pow_le_pow_left₀ hs hsr 2).trans (h f hf q hq)

/-- On the way to another place only that place is as far. -/
theorem distSq_of_segment (hne : p ≠ q) {x : ℝ × ℝ} (hx : x ∈ segment ℝ p q) :
    x = q ∨ distSq p x < distSq p q := by
  obtain ⟨u, v, hu, hv, huv, rfl⟩ := hx
  obtain rfl := eq_sub_of_add_eq huv
  have hdist : distSq p ((1 - v) • p + v • q) = v ^ 2 * distSq p q := by
    simp only [distSq, dot, Prod.fst_sub, Prod.snd_sub, Prod.fst_add, Prod.snd_add,
      Prod.smul_fst, Prod.smul_snd, smul_eq_mul]
    ring
  rcases (sub_nonneg.mp hu).eq_or_lt with rfl | hv1
  · left
    simp
  · right
    rw [hdist]
    exact mul_lt_of_lt_one_left (distSq_pos hne) (pow_lt_one₀ hv hv1 two_ne_zero)

/-- **A step no longer than the clearance** stays on the same side of the line. -/
theorem Clear.inside (h : Clear vs p r) (hpq : distSq p q ≤ r ^ 2) (hq : Off vs q) :
    Inside vs p ↔ Inside vs q := by
  by_cases hne : p = q
  · rw [hne]
  · refine inside_of_disjoint fun f hf => Set.disjoint_left.mpr fun x hx hx' => ?_
    rcases distSq_of_segment hne hx' with rfl | hlt
    · exact hq f hf hx
    · exact absurd (h f hf x hx) (not_le.mpr (hlt.trans_le hpq))

end
end KartStack.Polygon

namespace KartStack.Sim2d
open KartStack.Python KartStack.Polygon ConePerception

/-! ## What is measured -/

/-- Clear of both boundaries. -/
def TrackData.Clear (track : TrackData ℝ) (p : ℝ × ℝ) (r : ℝ) : Prop :=
  Polygon.Clear track.blueCones p r ∧ Polygon.Clear track.yellowCones p r

/-- No boundary has an edge of length zero. -/
def TrackData.Proper (track : TrackData ℝ) : Prop :=
  ∀ f ∈ around track.blueCones ++ around track.yellowCones, f.1 ≠ f.2

section
variable {track : TrackData ℝ} {p q : ℝ × ℝ}

/-- **What `dist_to_boundary` returns is the clearance**, whatever its sign. -/
theorem clear_of_distToBoundary (h : track.Proper) {bd : ℝ}
    (hbd : track.distToBoundary MathLib.real p.1 p.2 = some bd) : track.Clear p bd := by
  simp only [TrackData.distToBoundary, Option.bind_eq_bind, Option.bind_eq_some_iff] at hbd
  obtain ⟨idx, hidx, d, hd, inside, -, hpair⟩ := hbd
  obtain ⟨d', hd', hmin⟩ := argmin_spec hidx
  obtain rfl := Option.some.inj (hd'.symm.trans hd)
  have hsq : bd ^ 2 = d' ^ 2 := by
    obtain rfl := Option.some.inj hpair
    split <;> simp
  have hnonneg : 0 ≤ d' := by
    obtain ⟨f, -, rfl⟩ := List.mem_map.mp (List.mem_of_getElem? hd)
    exact Real.sqrt_nonneg _
  have hclear : ∀ f ∈ around track.blueCones ++ around track.yellowCones,
      ∀ x ∈ segment ℝ f.1 f.2, bd ^ 2 ≤ distSq p x := by
    intro f hf x hx
    obtain ⟨y, -, hdist, hleast⟩ := segmentDist_spec p (h f hf)
    have hle : d' ≤ Real.sqrt (distSq p y) := hdist ▸ hmin _ (List.mem_map_of_mem hf)
    rw [hsq]
    exact ((Real.le_sqrt hnonneg (distSq_nonneg p y)).mp hle).trans (hleast x hx)
  exact ⟨fun f hf => hclear f (List.mem_append_left _ hf),
    fun f hf => hclear f (List.mem_append_right _ hf)⟩

/-- A step no longer than the clearance does not leave the track. -/
theorem TrackData.Clear.between {r : ℝ} (h : track.Clear p r)
    (hpq : distSq p q ≤ r ^ 2) {d : ℝ} (hq : track.Clear q d) (hd : d ≠ 0) :
    track.between p = track.between q := by
  have hblue := h.1.inside hpq (hq.1.off hd)
  have hyellow := h.2.inside hpq (hq.2.off hd)
  rw [← pointInPolygon_iff, ← pointInPolygon_iff, ← Bool.eq_iff_iff] at hblue hyellow
  rw [TrackData.between, TrackData.between, hblue, hyellow]

end

/-! ## What a pass does -/

/-- Where the kart is. -/
def EpisodeState.place {S : Type} (e : EpisodeState S ℝ) : ℝ × ℝ := (e.state.x, e.state.y)

/-- The speed is one the kart can have. -/
structure EpisodeState.Sound {S : Type} (e : EpisodeState S ℝ) : Prop where
  forward : 0 ≤ e.state.speed
  limited : e.state.speed ≤ 10

/-- The speed after a step is one the kart can have. -/
theorem kartStep_speed (m : MathLib ℝ) (tan : ℝ → ℝ) (state : KartState ℝ) (steer speed : ℝ) :
    0 ≤ (kartStep m tan state steer speed).speed ∧
      (kartStep m tan state steer speed).speed ≤ 10 := by
  simp only [kartStep, clip, python_max, python_min, maxSpeed]
  norm_num

/-- A step is as long as the kart drives in `DT`. -/
theorem kartStep_place (tan : ℝ → ℝ) (state : KartState ℝ) (steer speed : ℝ) :
    distSq (state.x, state.y) ((kartStep MathLib.real tan state steer speed).x,
      (kartStep MathLib.real tan state steer speed).y) = (state.speed * 0.05) ^ 2 := by
  have hcircle := Real.sin_sq_add_cos_sq state.yaw
  simp only [kartStep, distSq, dot, Prod.fst_sub, Prod.snd_sub, dt, MathLib.real]
  linear_combination (state.speed * 0.05) ^ 2 * hcircle

section
variable {S : Type} {tan : ℝ → ℝ} {ctrl : Controller S ℝ} {track : Track ℝ}
  {noiseStd dropout : ℝ}

/-- What a pass of the loop does to the kart and to the penalty. -/
structure Charges (track : Track ℝ) (e e' : EpisodeState S ℝ) (bd : ℝ) : Prop where
  sound : e'.Sound
  moved : distSq e.place e'.place = (e.state.speed * 0.05) ^ 2
  measured : track.distToBoundary MathLib.real e'.place.1 e'.place.2 = some bd
  outside : bd < 0 → e'.boundaryPenalty = e.boundaryPenalty
  danger : 0 ≤ bd → bd < 1 / 2 → e'.boundaryPenalty = e.boundaryPenalty + (1 - bd / (1 / 2)) ^ 2
  away : 1 / 2 ≤ bd → e'.boundaryPenalty = e.boundaryPenalty

theorem charges_of_episodeStep {e e' : EpisodeState S ℝ} {draw : StepDraws ℝ} {outside : Bool}
    (h : episodeStep MathLib.real tan ctrl noiseStd dropout track e draw = some (e', outside)) :
    ∃ bd, Charges track e e' bd ∧ outside = decide (bd < 0) := by
  simp only [episodeStep, Option.bind_eq_bind, Option.bind_eq_some_iff] at h
  obtain ⟨r, -, ⟨sCur, cte⟩, -, bd, hbd, hpair⟩ := h
  obtain ⟨rfl, rfl⟩ := Prod.mk.inj (Option.some.inj hpair)
  have hdanger : (boundaryDanger : ℝ) = 1 / 2 := by norm_num [boundaryDanger]
  refine ⟨bd, ⟨⟨(kartStep_speed _ _ _ _ _).1, (kartStep_speed _ _ _ _ _).2⟩,
    kartStep_place _ _ _ _, hbd, fun hneg => ?_, fun hpos hlt => ?_, fun haway => ?_⟩, rfl⟩
  · exact if_pos hneg
  · have hone : (1.0 : ℝ) = 1 := by norm_num
    simp only [hdanger, if_neg (not_lt.mpr hpos), if_pos hlt, hone]
  · have hpos : ¬ bd < 0 := by linarith
    simp only [hdanger, if_neg hpos, if_neg (not_lt.mpr haway)]

/-- The penalty never goes down. -/
theorem Charges.le {e e' : EpisodeState S ℝ} {bd : ℝ} (h : Charges track e e' bd) :
    e.boundaryPenalty ≤ e'.boundaryPenalty := by
  rcases lt_or_ge bd 0 with hneg | hpos
  · exact (h.outside hneg).ge
  · rcases lt_or_ge bd (1 / 2) with hlt | haway
    · rw [h.danger hpos hlt]
      exact le_add_of_nonneg_right (sq_nonneg _)
    · exact (h.away haway).ge

/-- Nothing was charged in this pass: the kart is off the boundaries, and clear of the strip
unless it is outside. -/
theorem Charges.clear {e e' : EpisodeState S ℝ} {bd : ℝ} (h : Charges track e e' bd)
    (heq : e'.boundaryPenalty = e.boundaryPenalty) : bd < 0 ∨ 1 / 2 ≤ bd := by
  by_contra hbetween
  rw [not_or, not_lt, not_le] at hbetween
  rw [h.danger hbetween.1 hbetween.2] at heq
  have hpos : 0 < 1 - bd / (1 / 2) := by
    rw [sub_pos, div_lt_one (by norm_num)]
    exact hbetween.2
  have hsq : 0 < (1 - bd / (1 / 2)) ^ 2 := by positivity
  linarith

/-- What holds as long as the loop goes on. -/
structure Guarded (track : Track ℝ) (e : EpisodeState S ℝ) : Prop where
  sound : e.Sound
  penalty : 0 ≤ e.boundaryPenalty
  between : e.boundaryPenalty = 0 → track.between e.place = true
  /-- The next step is no longer than the clearance, or there is none. -/
  clear : e.boundaryPenalty = 0 → e.state.speed = 0 ∨ track.Clear e.place (1 / 2)

/-- **One pass**: without a penalty the kart is still between the boundaries. -/
theorem Guarded.between_next (hproper : track.Proper) {e e' : EpisodeState S ℝ} {bd : ℝ}
    (hg : Guarded track e) (h : Charges track e e' bd) (hzero : e'.boundaryPenalty = 0) :
    track.between e'.place = true := by
  have heq : e'.boundaryPenalty = e.boundaryPenalty :=
    le_antisymm (hzero ▸ hg.penalty) h.le
  have hbefore : e.boundaryPenalty = 0 := heq ▸ hzero
  rcases hg.clear hbefore with hstill | hclear
  · -- the kart does not move
    have hsame : e.place = e'.place := by
      by_contra hne
      have hmoved := h.moved
      rw [hstill, zero_mul, zero_pow two_ne_zero] at hmoved
      exact (distSq_pos hne).ne' hmoved
    exact hsame ▸ hg.between hbefore
  · have hne : bd ≠ 0 := by
      rcases h.clear heq with hneg | haway
      · exact hneg.ne
      · linarith
    have hshort : distSq e.place e'.place ≤ (1 / 2) ^ 2 := by
      rw [h.moved]
      refine pow_le_pow_left₀ (mul_nonneg hg.sound.forward (by norm_num)) ?_ 2
      have hlimited := hg.sound.limited
      norm_num
      linarith
    rw [← hclear.between hshort (clear_of_distToBoundary hproper h.measured) hne]
    exact hg.between hbefore

theorem Guarded.next (hproper : track.Proper) {e e' : EpisodeState S ℝ} {bd : ℝ}
    (hg : Guarded track e) (h : Charges track e e' bd) (hin : ¬ bd < 0) : Guarded track e' := by
  refine ⟨h.sound, hg.penalty.trans h.le, hg.between_next hproper h, fun hzero => Or.inr ?_⟩
  have heq : e'.boundaryPenalty = e.boundaryPenalty :=
    le_antisymm (hzero ▸ hg.penalty) h.le
  have haway : 1 / 2 ≤ bd := (h.clear heq).resolve_left hin
  obtain ⟨hblue, hyellow⟩ := clear_of_distToBoundary hproper h.measured
  exact ⟨hblue.mono (by norm_num) haway, hyellow.mono (by norm_num) haway⟩

/-- Between the boundaries, or charged. -/
def Watched (track : Track ℝ) (e : EpisodeState S ℝ) : Prop :=
  track.between e.place = true ∨ 0 < e.boundaryPenalty

theorem watched_of_zero {e : EpisodeState S ℝ} (hpenalty : 0 ≤ e.boundaryPenalty)
    (h : e.boundaryPenalty = 0 → track.between e.place = true) : Watched track e := by
  rcases hpenalty.eq_or_lt with hzero | hpos
  · exact Or.inl (h hzero.symm)
  · exact Or.inr hpos

/-- **Every pass of the loop.** -/
theorem Guarded.loop (hproper : track.Proper) {e : EpisodeState S ℝ}
    {draws : List (StepDraws ℝ)} {es : List (EpisodeState S ℝ)} (hg : Guarded track e)
    (h : episodeLoop MathLib.real tan ctrl noiseStd dropout track e draws = some es) :
    (∀ e' ∈ e :: es, Watched track e') ∧
      (e :: es).IsChain fun e e' => e.boundaryPenalty ≤ e'.boundaryPenalty := by
  have hfirst : Watched track e := watched_of_zero hg.penalty hg.between
  induction draws generalizing e es with
  | nil =>
    obtain rfl := Option.some.inj h
    exact ⟨by simpa using hfirst, List.isChain_singleton e⟩
  | cons draw draws ih =>
    obtain ⟨e', outside, rest, hstep, rfl, hrest⟩ := episodeLoop_cons h
    obtain ⟨bd, hcharges, rfl⟩ := charges_of_episodeStep hstep
    have hnext : Watched track e' :=
      watched_of_zero (hg.penalty.trans hcharges.le) (hg.between_next hproper hcharges)
    rcases hrest with ⟨-, rfl⟩ | ⟨hbd, hrest⟩
    · exact ⟨List.forall_mem_cons.mpr ⟨hfirst, by simpa using hnext⟩,
        List.isChain_cons_cons.mpr ⟨hcharges.le, List.isChain_singleton e'⟩⟩
    · obtain ⟨hall, hchain⟩ := ih (hg.next hproper hcharges (of_decide_eq_false hbd)) hrest hnext
      exact ⟨List.forall_mem_cons.mpr ⟨hfirst, hall⟩,
        List.isChain_cons_cons.mpr ⟨hcharges.le, hchain⟩⟩

/-- The kart stands at the spawn. -/
theorem guarded_of_startEpisode {inf : ℝ} {controller : S} {e : EpisodeState S ℝ}
    (hspawn : track.between (track.spawnX, track.spawnY) = true)
    (h : startEpisode MathLib.real ctrl inf track controller = some e) : Guarded track e := by
  obtain ⟨sPrev, -, rfl⟩ := startEpisode_eq h
  have hzero : (0.0 : ℝ) = 0 := by norm_num
  exact ⟨⟨hzero.ge, by norm_num⟩, le_rfl, fun _ => hspawn, fun _ => Or.inl hzero⟩

/-- **A kart that leaves the track has been charged for it.**  After each step of an episode
that begins between the boundaries the kart is between them, or the penalty is positive, and
the penalty only grows. -/
theorem penalty_of_leaving {inf : ℝ} {settings : Settings (Track ℝ) ℝ} {controller : S}
    {mode : FitnessMode} {draws : Nat → StepDraws ℝ} {r : EpisodeResult ℝ}
    (hproper : settings.track.Proper)
    (hspawn : settings.track.between (settings.track.spawnX, settings.track.spawnY) = true)
    (h : runEpisode MathLib.real tan ctrl inf settings controller mode draws = some r) :
    ∃ es, episodeStates MathLib.real tan ctrl inf settings controller draws = some es ∧
      ∀ e ∈ es, (settings.track.between (e.state.x, e.state.y) = true ∨
        0 < e.boundaryPenalty) ∧ e.boundaryPenalty ≤ r.boundaryPenalty := by
  obtain ⟨e, es, hstates, rfl⟩ := runEpisode_eq h
  obtain ⟨_, _, hstart, hes, hcons⟩ := episodeStates_eq hstates
  obtain ⟨rfl, rfl⟩ := List.cons.inj hcons
  obtain ⟨hall, hchain⟩ := (guarded_of_startEpisode hspawn hstart).loop hproper hes
  generalize hlast : (e :: es).getLast (List.cons_ne_nil e es) = last
  have hgrows : ∀ e' ∈ e :: es, e'.boundaryPenalty ≤ last.boundaryPenalty :=
    hchain.backwards_induction (fun e' => e'.boundaryPenalty ≤ last.boundaryPenalty) _
      (fun _ _ hle hlast => hle.trans hlast) fun _ => hlast ▸ le_rfl
  exact ⟨e :: es, hstates, fun e' he' => ⟨hall e' he', hgrows e' he'⟩⟩

/-- On the square. -/
theorem penalty_of_leaving_square :
    ∃ r, runEpisode MathLib.real Real.tan (geometricController MathLib.real 100) 100
        ⟨squareTrack, 2000, 0, 0⟩ ⟨1.0, 0.5, 2.0, 0.5, 15.0, 1.0, 0.0⟩ .v4 (fun _ _ => 0) = some r ∧
      ∃ es, episodeStates MathLib.real Real.tan (geometricController MathLib.real 100) 100
          ⟨squareTrack, 2000, 0, 0⟩ ⟨1.0, 0.5, 2.0, 0.5, 15.0, 1.0, 0.0⟩ (fun _ _ => 0) =
            some es ∧
        ∀ e ∈ es, (squareTrack.between (e.state.x, e.state.y) = true ∨
          0 < e.boundaryPenalty) ∧ e.boundaryPenalty ≤ r.boundaryPenalty := by
  obtain ⟨r, hr⟩ := exists_runEpisode_square (geometricController_answers MathLib.real 100)
    trivial .v4
  refine ⟨r, hr, penalty_of_leaving ?_ ?_ hr⟩
  · intro f hf
    simp only [squareTrack, around, List.rotate, List.mem_append] at hf
    norm_num at hf
    rcases hf with (rfl | rfl | rfl | rfl) | rfl | rfl | rfl | rfl <;> norm_num
  · norm_num [TrackData.between, pointInPolygon, around, squareTrack]

end

end KartStack.Sim2d
