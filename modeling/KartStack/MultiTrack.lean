import KartStack.SimTraining

/-! # Training on several tracks

An episode over several tracks puts `_active_track` back when it is done, so an
evaluation leaves the process as it is, in a pool as well as without one
(`evaluateAll_eq`), and the fitness of an individual can be read off that process:
the mean over the tracks if `_use_multitrack` is set, and the fitness on the active
track otherwise (`Process.fitness`).

`_use_multitrack` says whether the `_active_tracks` of `ga` is set; where it is, the
means are stored (`Optimizer.evaluate_means`).  But that name was bound when `sim` held
`None`, and `set_track` rebinds the one in `sim`: no step of any run sets it
(`run_imported`).  So each individual is only run on the first track of the
list, which is its mean over all of them exactly if the two happen to be the same
(`trainsOnAll_iff`).
-/
namespace KartStack.Sim2d
open KartStack.Python Transitions

variable {T C G R K : Type}

/-! ## An evaluation leaves the process as it is -/

section
variable (episode : Episode T C K)

theorem foldl_runOn (ctrl : C) (mode : FitnessMode) (tracks : List T) (sim : SimModule T K)
    (results : List (EpisodeResult K)) :
    ∃ t, tracks.foldl (runOn episode ctrl mode) (sim, results) =
      ({ sim with activeTrack := t },
        results ++ tracks.map fun t => episode { sim.settings with track := t } ctrl mode) := by
  induction tracks generalizing sim results with
  | nil => exact ⟨sim.activeTrack, by simp⟩
  | cons track tracks ih =>
    obtain ⟨t, ht⟩ := ih { sim with activeTrack := track }
      (results ++ [episode { sim.settings with track } ctrl mode])
    refine ⟨t, ht.trans ?_⟩
    rw [List.append_assoc]
    rfl

theorem SimModule.tracks_ne_nil (sim : SimModule T K) : sim.tracks ≠ [] := by
  unfold SimModule.tracks
  rcases sim.activeTracks with _ | (_ | ⟨track, tracks⟩)
  · exact List.cons_ne_nil _ _
  · exact List.cons_ne_nil _ _
  · exact List.cons_ne_nil _ _

variable [Zero K] [Add K] [Div K] [NatCast K]

/-- The mean of the fitness over a list of tracks. -/
def meanFitness (settings : Settings T K) (tracks : List T) (ctrl : C) (mode : FitnessMode) : K :=
  mean (tracks.map fun track => (episode { settings with track } ctrl mode).fitness)

/-- The fitness of an individual, as evaluated in a process. -/
def Process.fitness (p : Process T K) (args : (G → C) × G) : K :=
  if p.ga.useMultitrack then
    meanFitness episode p.sim.settings p.sim.tracks (args.1 args.2) p.ga.fitnessMode
  else (episode p.sim.settings (args.1 args.2) p.ga.fitnessMode).fitness

variable [LT K] [DecidableLT K] (trackLength : T → K)

/-- An episode over several tracks comes to their mean, and leaves `sim` as it was. -/
theorem runEpisodeMultitrack_eq (sim : SimModule T K) (ctrl : C) (mode : FitnessMode) :
    ∃ result, sim.runEpisodeMultitrack trackLength episode ctrl mode = (sim, some result) ∧
      result.fitness = meanFitness episode sim.settings sim.tracks ctrl mode := by
  obtain ⟨t, ht⟩ := foldl_runOn episode ctrl mode sim.tracks sim []
  cases htracks : sim.tracks with
  | nil => exact absurd htracks sim.tracks_ne_nil
  | cons first rest =>
    rw [htracks] at ht
    simp only [SimModule.runEpisodeMultitrack, htracks, ht, List.nil_append, List.map_cons, worst,
      Option.map_some]
    refine ⟨_, rfl, ?_⟩
    simp only [meanFitness, List.map_cons, List.map_map, Function.comp_def]

theorem evaluateOne_eq (p : Process T K) (args : (G → C) × G) :
    p.evaluateOne trackLength episode args = some (p, p.fitness episode args) := by
  unfold Process.evaluateOne Process.fitness
  by_cases hm : p.ga.useMultitrack
  · obtain ⟨result, hrun, hfit⟩ :=
      runEpisodeMultitrack_eq episode trackLength p.sim (args.1 args.2) p.ga.fitnessMode
    simp only [hm, if_true, hrun, Option.map_some, hfit]
  · simp only [hm, Bool.false_eq_true, if_false]

theorem evaluateEach_eq (p : Process T K) (args : List ((G → C) × G)) :
    p.evaluateEach trackLength episode args = some (p, args.map (p.fitness episode)) := by
  induction args with
  | nil => rfl
  | cons a args ih => simp [Process.evaluateEach, evaluateOne_eq, ih]

/-- The processes of a pool stay copies of the one that made it. -/
theorem evaluatePool_eq (p : Process T K) (worker : Nat → Nat)
    (args : List (((G → C) × G) × Nat)) :
    evaluatePool trackLength episode (fun _ => p) worker args =
      some (args.map fun a => p.fitness episode a.1) := by
  induction args with
  | nil => rfl
  | cons a args ih =>
    simp [evaluatePool, evaluateOne_eq, Function.update_eq_self, ih]

/-- **An evaluation** finds each individual's fitness, however the work is shared, and
leaves the process as it is. -/
theorem evaluateAll_eq (p : Process T K) (args : List ((G → C) × G)) (workers : Nat)
    (worker : Nat → Nat) :
    p.evaluateAll trackLength episode args workers worker =
      some (p, args.map (p.fitness episode)) := by
  unfold Process.evaluateAll
  split
  · have hargs : args.zipIdx.map (fun a => p.fitness episode a.1) = args.map (p.fitness episode) :=
      calc args.zipIdx.map (fun a => p.fitness episode a.1)
        _ = (args.zipIdx.map Prod.fst).map (p.fitness episode) := by rw [List.map_map]; rfl
        _ = args.map (p.fitness episode) := by rw [List.zipIdx_map_fst]
    rw [evaluatePool_eq, hargs, Option.map_some]
  · exact evaluateEach_eq episode trackLength p args

end

/-- `set_track` with a list of names makes the first one the active track. -/
theorem setTrack_names {getTrack : R → Str → Option T} {draws : Nat → R} {s : Str}
    {first : T} {rest : List T} {sim sim' : SimModule T K} {maxSteps : Option Int}
    {noiseStd dropout : K} (hs : ',' ∈ s)
    (htracks : getTracks getTrack draws (trackNames s) = some (first :: rest))
    (h : sim.setTrack getTrack draws (.name s) maxSteps noiseStd dropout = some sim') :
    sim' = ⟨first, some (first :: rest), maxSteps.getD sim.maxSteps, noiseStd, dropout⟩ := by
  simp only [SimModule.setTrack, resolve, if_pos hs, htracks, Option.bind_eq_bind,
    Option.bind_some, List.head?_cons] at h
  exact (Option.some.inj h).symm

/-! ## What an optimizer stores -/

namespace Scores

variable [LT K] [DecidableLT K]

theorem update_fitnesses {self scores : Scores G K} {individuals : List G} {fitnesses : List K}
    (h : self.update individuals fitnesses = some scores) : scores.fitnesses = fitnesses := by
  simp only [update, Option.bind_eq_bind, Option.bind_eq_some_iff] at h
  obtain ⟨_, -, _, -, _, -, h⟩ := h
  split at h
  · exact (congrArg Scores.fitnesses (Option.some.inj h)).symm
  · exact (congrArg Scores.fitnesses (Option.some.inj h)).symm

end Scores

/-- `xs[i] for i in range(n)`, where none of them raises. -/
theorem mapM_range_getElem? {xs ys : List G} {n : Nat}
    (h : (List.range n).mapM (xs[·]?) = some ys) : ys = xs.take n := by
  induction n generalizing ys with
  | zero => exact (Option.some.inj h).symm
  | succ n ih =>
    rw [List.range_succ, List.mapM_append] at h
    simp only [Option.bind_eq_bind, Option.bind_eq_some_iff, List.mapM_cons, List.mapM_nil] at h
    obtain ⟨ys₀, hys, last, ⟨y, hy, _, hnil, hlast⟩, hout⟩ := h
    obtain rfl := Option.some.inj hnil
    obtain rfl := Option.some.inj hlast
    obtain rfl := Option.some.inj hout
    rw [ih hys, List.take_add_one, hy]
    rfl

section
variable [Zero K] [Add K] [Div K] [NatCast K] [LT K] [DecidableLT K] (trackLength : T → K)
  (episode : Episode T C K)

/-- **What `evaluate` stores**, for either optimizer: the fitness of each individual in
the process that evaluates it. -/
theorem Optimizer.evaluate_eq {o o' : Optimizer G C K} {p p' : Process T K} {asked : List G}
    {workers : Nat} {worker : Nat → Nat}
    (h : o.evaluate trackLength episode p asked workers worker = some (p', o')) :
    p' = p.beginEvaluate o.fitnessMode ∧
      o'.fitnesses = (o.individuals asked).map fun genes =>
        (p.beginEvaluate o.fitnessMode).fitness episode (o.controllerClass, genes) := by
  cases o with
  | ga self =>
    obtain ⟨⟨q, ga⟩, heval, hout⟩ := Option.map_eq_some_iff.mp h
    simp only [GeneticAlgorithm.evaluate, evaluateAll_eq, Option.bind_eq_bind,
      Option.bind_eq_some_iff, Option.bind_some] at heval
    obtain ⟨individuals, hind, scores, hscores, hpair⟩ := heval
    obtain ⟨rfl, rfl⟩ := Prod.mk.inj (Option.some.inj hpair)
    obtain ⟨rfl, rfl⟩ := Prod.mk.inj hout
    refine ⟨rfl, (Scores.update_fitnesses hscores).trans ?_⟩
    rw [List.map_map, mapM_range_getElem? hind]
    rfl
  | cma self =>
    obtain ⟨⟨q, cma⟩, heval, hout⟩ := Option.map_eq_some_iff.mp h
    simp only [CMAESOptimizer.evaluate, evaluateAll_eq, Option.bind_eq_bind,
      Option.bind_eq_some_iff, Option.bind_some] at heval
    obtain ⟨scores, hscores, hpair⟩ := heval
    obtain ⟨rfl, rfl⟩ := Prod.mk.inj (Option.some.inj hpair)
    obtain ⟨rfl, rfl⟩ := Prod.mk.inj hout
    refine ⟨rfl, (Scores.update_fitnesses hscores).trans ?_⟩
    rw [List.map_map]
    rfl

/-- With the flag set, `evaluate` stores the means over the active tracks. -/
theorem Optimizer.evaluate_means {o o' : Optimizer G C K} {p p' : Process T K} {asked : List G}
    {workers : Nat} {worker : Nat → Nat}
    (h : o.evaluate trackLength episode p asked workers worker = some (p', o'))
    (hset : p.ga.activeTracks.isSome) :
    o'.fitnesses = (o.individuals asked).map fun genes =>
      meanFitness episode p.sim.settings p.sim.tracks (o.controllerClass genes) o.fitnessMode := by
  rw [(evaluate_eq trackLength episode h).2]
  exact List.map_congr_left fun genes _ => if_pos hset

/-- Without it, the fitnesses on the active track. -/
theorem Optimizer.evaluate_single {o o' : Optimizer G C K} {p p' : Process T K} {asked : List G}
    {workers : Nat} {worker : Nat → Nat}
    (h : o.evaluate trackLength episode p asked workers worker = some (p', o'))
    (hset : p.ga.activeTracks = none) :
    o'.fitnesses = (o.individuals asked).map fun genes =>
      (episode p.sim.settings (o.controllerClass genes) o.fitnessMode).fitness := by
  rw [(evaluate_eq trackLength episode h).2]
  refine List.map_congr_left fun genes _ => if_neg ?_
  simp [Process.beginEvaluate, hset]

/-! ## Runs -/

variable (getTrack : R → Str → Option T)

/-- No step rebinds what `ga` imported. -/
theorem trainStep_imported (p : Process T K) (a : TrainAct T C G R K) {p' : Process T K}
    (h : trainStep trackLength episode getTrack p a = some p') :
    p'.ga.activeTracks = p.ga.activeTracks := by
  cases a with
  | setTrack draws nameOrTrack maxSteps noiseStd dropout =>
    obtain ⟨sim, -, rfl⟩ := Option.map_eq_some_iff.mp h
    rfl
  | runEpisodeMultitrack ctrl mode =>
    obtain rfl := Option.some.inj h
    rfl
  | evaluate o asked workers worker =>
    obtain ⟨⟨q, o'⟩, heval, rfl⟩ := Option.map_eq_some_iff.mp h
    rw [(Optimizer.evaluate_eq trackLength episode heval).1]
    rfl

/-- Only `set_track` changes the variables of `sim`. -/
theorem trainStep_sim (p : Process T K) (a : TrainAct T C G R K) {p' : Process T K}
    (ha : a.isSetTrack = false) (h : trainStep trackLength episode getTrack p a = some p') :
    p'.sim = p.sim := by
  cases a with
  | setTrack draws nameOrTrack maxSteps noiseStd dropout => cases ha
  | runEpisodeMultitrack ctrl mode =>
    obtain rfl := Option.some.inj h
    obtain ⟨result, hrun, -⟩ := runEpisodeMultitrack_eq episode trackLength p.sim ctrl mode
    exact congrArg Prod.fst hrun
  | evaluate o asked workers worker =>
    obtain ⟨⟨q, o'⟩, heval, rfl⟩ := Option.map_eq_some_iff.mp h
    rw [(Optimizer.evaluate_eq trackLength episode heval).1]
    rfl

/-- **In every run** the `_active_tracks` of `ga` is what was there at the import. -/
theorem run_imported {ovalTrack : T} {acts : List (TrainAct T C G R K)} {p : Process T K}
    (h : run (trainStep trackLength episode getTrack) (.imported ovalTrack) acts = some p) :
    p.ga.activeTracks = none := by
  have hstep : ∀ (q : Process T K) (a : TrainAct T C G R K) (q' : Process T K),
      q.ga.activeTracks = none → True → trainStep trackLength episode getTrack q a = some q' →
      q'.ga.activeTracks = none := fun q a q' hq _ hs =>
    (trainStep_imported trackLength episode getTrack q a hs).trans hq
  exact inv_of_run hstep rfl (fun _ _ => trivial) h

/-- What `set_track` set is there until it is called again. -/
theorem run_sim {acts : List (TrainAct T C G R K)} {p p' : Process T K}
    (h : run (trainStep trackLength episode getTrack) p acts = some p')
    (hacts : ∀ a ∈ acts, a.isSetTrack = false) : p'.sim = p.sim :=
  inv_of_run (fun q a _ hq ha hstep =>
    (trainStep_sim trackLength episode getTrack q a ha hstep).trans hq) rfl hacts h

/-- The training does what several tracks are listed for: the fitness of every
individual is its mean over the tracks, and the active track stays. -/
structure TrainsOnAll (tracks : List T) (asked : List G) (p p' : Process T K)
    (o o' : Optimizer G C K) : Prop where
  fitnesses : o'.fitnesses = (o.individuals asked).map fun genes =>
    mean (tracks.map fun track =>
      (episode ⟨track, p.sim.maxSteps, 0, 0⟩ (o.controllerClass genes) o.fitnessMode).fitness)
  activeTrack : p'.sim.activeTrack = p.sim.activeTrack

/-- **Training on several tracks** trains on all of them exactly if no individual's
fitness on the first one differs from its mean. -/
theorem trainsOnAll_iff {ovalTrack first : T} {rest : List T} {draws : Nat → R} {s : Str}
    {maxSteps : Option Int} {acts acts' : List (TrainAct T C G R K)} {p p' : Process T K}
    {o o' : Optimizer G C K} {asked : List G} {workers : Nat} {worker : Nat → Nat} (hs : ',' ∈ s)
    (htracks : getTracks getTrack draws (trackNames s) = some (first :: rest))
    (hrun : run (trainStep trackLength episode getTrack) (.imported ovalTrack)
      (acts ++ .setTrack draws (.name s) maxSteps 0 0 :: acts') = some p)
    (hacts' : ∀ a ∈ acts', a.isSetTrack = false)
    (heval : o.evaluate trackLength episode p asked workers worker = some (p', o')) :
    TrainsOnAll episode (first :: rest) asked p p' o o' ↔ ∀ genes ∈ o.individuals asked,
      (episode ⟨first, p.sim.maxSteps, 0, 0⟩ (o.controllerClass genes) o.fitnessMode).fitness =
        mean ((first :: rest).map fun track =>
          (episode ⟨track, p.sim.maxSteps, 0, 0⟩ (o.controllerClass genes)
            o.fitnessMode).fitness) := by
  have himp : p.ga.activeTracks = none := run_imported trackLength episode getTrack hrun
  obtain ⟨p₁, -, hrest⟩ := run_append_eq_some _ hrun
  obtain ⟨p₂, hset, hrest⟩ := run_cons_eq_some _ hrest
  obtain ⟨sim, hsim, rfl⟩ := Option.map_eq_some_iff.mp hset
  obtain rfl := setTrack_names hs htracks hsim
  have hsettings : p.sim.settings = ⟨first, p.sim.maxSteps, 0, 0⟩ := by
    rw [run_sim trackLength episode getTrack hrest hacts']
    rfl
  have hstored := Optimizer.evaluate_single trackLength episode heval himp
  have hkept : p'.sim = p.sim :=
    (congrArg Process.sim (Optimizer.evaluate_eq trackLength episode heval).1 :)
  rw [hsettings] at hstored
  constructor
  · intro hall
    exact List.map_inj_left.mp (hstored.symm.trans hall.fitnesses)
  · intro hmean
    exact ⟨hstored.trans (List.map_congr_left hmean), congrArg SimModule.activeTrack hkept⟩

end

/-! ## Two tracks -/

/-- Two of the built-in tracks, as numbers. -/
def twoTracks (_ : Unit) (name : Str) : Option Nat :=
  if name = "oval".toList then some 0 else if name = "hairpin".toList then some 1 else none

/-- An episode on the first comes to nothing, one on the second to a metre. -/
def metres : Episode Nat Unit ℚ := fun settings _ _ =>
  ⟨settings.track, settings.track, 0, 0, 0, 1, 0, 0, 0, 0, 0, 0, 0⟩

/-- A genetic algorithm with one individual. -/
def loneIndividual : GeneticAlgorithm Unit Unit ℚ := ⟨id, 1, .v1, [()], ⟨[0], none, none⟩⟩

/-- `train.py --track oval,hairpin`, up to the first evaluation. -/
def ovalAndHairpin : Process Nat ℚ := ⟨⟨0, some [0, 1], 2000, 0, 0⟩, none, .v1, false⟩

theorem run_ovalAndHairpin :
    run (trainStep (G := Unit) (fun _ => 1) metres twoTracks) (.imported 0)
      ([] ++ [.setTrack (fun _ => ()) (.name "oval,hairpin".toList) (some 2000) 0 0]) =
        some ovalAndHairpin := rfl

/-- The individual is evaluated in a pool of eight. -/
theorem evaluate_loneIndividual :
    (Optimizer.ga loneIndividual).evaluate (fun _ => 1) metres ovalAndHairpin [] 8 id =
      some (ovalAndHairpin, .ga { loneIndividual with scores := ⟨[0], some 0, some ()⟩ }) := rfl

theorem trainsOnAll_ovalAndHairpin :
    TrainsOnAll metres [0, 1] ([] : List Unit) ovalAndHairpin ovalAndHairpin (.ga loneIndividual)
        (.ga { loneIndividual with scores := ⟨[0], some 0, some ()⟩ }) ↔
      ∀ genes ∈ (Optimizer.ga loneIndividual).individuals [],
        (metres ⟨0, 2000, 0, 0⟩ genes .v1).fitness =
          mean ([0, 1].map fun track => (metres ⟨track, 2000, 0, 0⟩ genes .v1).fitness) :=
  trainsOnAll_iff (fun _ => 1) metres twoTracks (by decide) rfl run_ovalAndHairpin
    (List.forall_mem_nil _) evaluate_loneIndividual

/-- The individual is stored with its fitness on the first track. -/
theorem not_trainsOnAll : ¬ ∀ (trackLength : Nat → ℚ) (episode : Episode Nat Unit ℚ)
    (getTrack : Unit → Str → Option Nat) (ovalTrack first : Nat) (rest : List Nat)
    (draws : Nat → Unit) (s : Str) (maxSteps : Option Int)
    (acts acts' : List (TrainAct Nat Unit Unit Unit ℚ)) (p p' : Process Nat ℚ)
    (o o' : Optimizer Unit Unit ℚ) (asked : List Unit) (workers : Nat) (worker : Nat → Nat),
    ',' ∈ s → getTracks getTrack draws (trackNames s) = some (first :: rest) →
    run (trainStep trackLength episode getTrack) (.imported ovalTrack)
      (acts ++ .setTrack draws (.name s) maxSteps 0 0 :: acts') = some p →
    (∀ a ∈ acts', a.isSetTrack = false) →
    o.evaluate trackLength episode p asked workers worker = some (p', o') →
    TrainsOnAll episode (first :: rest) asked p p' o o' := by
  intro hall
  have htrains := hall (fun _ => 1) metres twoTracks 0 0 [1] (fun _ => ()) "oval,hairpin".toList
    (some 2000) [] [] _ _ _ _ [] 8 id (by decide) rfl run_ovalAndHairpin
    (List.forall_mem_nil _) evaluate_loneIndividual
  have hmean : (0 : ℚ) = mean [0, 1] := (List.cons.inj htrains.fitnesses).1
  exact absurd hmean (by decide +kernel)

end KartStack.Sim2d
