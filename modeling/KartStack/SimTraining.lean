import KartStack.PythonNumbers
import KartStack.PythonStrings
import KartStack.Transitions

/-! # Training on tracks

`sim.py` keeps the track that episodes are run on in module variables, which
`set_track` rebinds; `ga.py` evaluates the individuals of an optimizer, in one process
or in a pool of forked ones.  The names `ga.py` takes over with
`from sim import run_episode, run_episode_multitrack, _active_tracks` are bound at that
moment: a later assignment in `sim` does not reach them.

What an episode comes to is a parameter: a function of the settings it reads, the
controller, and the fitness mode.
-/
namespace KartStack.Sim2d
open KartStack.Python

/-- `fitness_mode`. -/
inductive FitnessMode
  | v1 | v2 | v3 | v4 | v5 | v6
  deriving DecidableEq, Repr

/-- The module variables of `sim`; `T` is the type of tracks. -/
structure SimModule (T K : Type) where
  activeTrack : T
  activeTracks : Option (List T)
  maxSteps : Int
  noiseStd : K
  dropout : K

/-- The module variables of `ga`. -/
structure GaModule (T : Type) where
  /-- `_active_tracks`, as imported from `sim`. -/
  activeTracks : Option (List T)
  fitnessMode : FitnessMode
  useMultitrack : Bool

/-- A process that has imported both. -/
structure Process (T K : Type) where
  sim : SimModule T K
  ga : GaModule T

/-- What `run_episode` returns. -/
structure EpisodeResult (K : Type) where
  fitness : K
  distance : K
  laps : Nat
  avgCte : K
  avgSpeed : K
  steps : Nat
  time : K
  maxCte : K
  ctePenalty : K
  weightedProgress : K
  speedWeightedProgress : K
  minBoundaryDist : K
  boundaryPenalty : K

/-- An entry of `per_track`. -/
structure TrackResult (K : Type) where
  trackLength : K
  fitness : K
  laps : Nat
  avgCte : K

/-- What `run_episode_multitrack` returns. -/
structure MultitrackResult (K : Type) extends EpisodeResult K where
  perTrack : List (TrackResult K)

/-- What `run_episode` reads of the module. -/
structure Settings (T K : Type) where
  track : T
  maxSteps : Int
  noiseStd : K
  dropout : K

/-- An episode comes to what its settings, the controller and the fitness mode make of it. -/
abbrev Episode (T C K : Type) := Settings T K → C → FitnessMode → EpisodeResult K

variable {T C G R K : Type}

/-! ## Module `sim` -/

/-- The settings of an episode run now. -/
def SimModule.settings (sim : SimModule T K) : Settings T K where
  track := sim.activeTrack
  maxSteps := sim.maxSteps
  noiseStd := sim.noiseStd
  dropout := sim.dropout

/-- `sim` as imported; the parameter is `OVAL_TRACK`. -/
def SimModule.imported [Zero K] (ovalTrack : T) : SimModule T K where
  activeTrack := ovalTrack
  activeTracks := none
  maxSteps := 2000
  noiseStd := 0
  dropout := 0

/-- The argument `name_or_track` of `set_track`. -/
inductive NameOrTrack (T : Type)
  | name (s : Str)
  | track (t : T)

/-- `[n.strip() for n in name_or_track.split(",")]`. -/
def trackNames (s : Str) : List Str := (s.splitOn ',').map strip

/-- `[get_track(n) for n in names]`.  A random track is drawn anew by each call. -/
def getTracks (getTrack : R → Str → Option T) (draws : Nat → R) (names : List Str) :
    Option (List T) :=
  names.zipIdx.mapM fun (n, i) => getTrack (draws i) n

/-- What `set_track` makes of its first argument: `_active_track` and `_active_tracks`. -/
def resolve (getTrack : R → Str → Option T) (draws : Nat → R) :
    NameOrTrack T → Option (T × Option (List T))
  | .name s =>
    if ',' ∈ s then do
      let tracks ← getTracks getTrack draws (trackNames s)
      return (← tracks.head?, some tracks)
    else (getTrack (draws 0) s).map fun t => (t, none)
  | .track t => some (t, none)

/-- `set_track`; it fails where `get_track` raises. -/
def SimModule.setTrack (getTrack : R → Str → Option T) (draws : Nat → R) (sim : SimModule T K)
    (nameOrTrack : NameOrTrack T) (maxSteps : Option Int) (noiseStd dropout : K) :
    Option (SimModule T K) := do
  let (activeTrack, activeTracks) ← resolve getTrack draws nameOrTrack
  return ⟨activeTrack, activeTracks, maxSteps.getD sim.maxSteps, noiseStd, dropout⟩

section
variable [Zero K] [Add K] [Div K] [NatCast K] [LT K] [DecidableLT K] (trackLength : T → K)
  (episode : Episode T C K)

/-- One pass of the loop of `run_episode_multitrack`. -/
def runOn (ctrl : C) (mode : FitnessMode) (acc : SimModule T K × List (EpisodeResult K))
    (track : T) : SimModule T K × List (EpisodeResult K) :=
  let sim := { acc.1 with activeTrack := track }
  (sim, acc.2 ++ [episode sim.settings ctrl mode])

/-- `_active_tracks or [_active_track]`. -/
def SimModule.tracks (sim : SimModule T K) : List T :=
  match sim.activeTracks with
  | none | some [] => [sim.activeTrack]
  | some tracks => tracks

/-- `min(results, key=fitness)`: the first of the results with the least fitness. -/
def worst : List (EpisodeResult K) → Option (EpisodeResult K)
  | [] => none
  | r :: rs => some (rs.foldl (fun w q => if q.fitness < w.fitness then q else w) r)

/-- `run_episode_multitrack`. -/
def SimModule.runEpisodeMultitrack (sim : SimModule T K) (ctrl : C) (mode : FitnessMode) :
    SimModule T K × Option (MultitrackResult K) :=
  let tracks := sim.tracks
  let (last, results) := tracks.foldl (runOn episode ctrl mode) (sim, [])
  let result := (worst results).map fun w => {
    w with
    fitness := mean (results.map (·.fitness))
    perTrack := List.zipWith (fun t r => ⟨trackLength t, r.fitness, r.laps, r.avgCte⟩)
      tracks results }
  ({ last with activeTrack := sim.activeTrack }, result)

/-! ## Module `ga` -/

/-- Both modules as imported: `ga` takes `_active_tracks` over as it is then. -/
def Process.imported (ovalTrack : T) : Process T K :=
  let sim : SimModule T K := .imported ovalTrack
  ⟨sim, sim.activeTracks, .v1, false⟩

/-- `_evaluate_one`, on a controller class and genes. -/
def Process.evaluateOne (p : Process T K) (args : (G → C) × G) : Option (Process T K × K) :=
  let ctrl := args.1 args.2
  if p.ga.useMultitrack then
    let (sim, result) := p.sim.runEpisodeMultitrack trackLength episode ctrl p.ga.fitnessMode
    result.map fun r => ({ p with sim }, r.fitness)
  else
    some (p, (episode p.sim.settings ctrl p.ga.fitnessMode).fitness)

/-- `[_evaluate_one(a) for a in args]`. -/
def Process.evaluateEach (p : Process T K) : List ((G → C) × G) → Option (Process T K × List K)
  | [] => some (p, [])
  | a :: args => do
    let (p, f) ← p.evaluateOne trackLength episode a
    let (p, fs) ← p.evaluateEach args
    return (p, f :: fs)

/-- `pool.map(_evaluate_one, args)`: each task is for one of the pool's processes, which
begin as copies of this one. -/
def evaluatePool (pool : Nat → Process T K) (worker : Nat → Nat) :
    List (((G → C) × G) × Nat) → Option (List K)
  | [] => some []
  | (a, i) :: args => do
    let (p, f) ← (pool (worker i)).evaluateOne trackLength episode a
    let fs ← evaluatePool (Function.update pool (worker i) p) worker args
    return f :: fs

end

/-- What the optimizers remember of their evaluations; `none` is `-np.inf`. -/
structure Scores (G K : Type) where
  fitnesses : List K
  bestFitness : Option K
  bestGenes : Option G

/-- `GeneticAlgorithm`, as far as `evaluate` reads and writes it. -/
structure GeneticAlgorithm (G C K : Type) where
  controllerClass : G → C
  popSize : Nat
  fitnessMode : FitnessMode
  population : List G
  scores : Scores G K

/-- `CMAESOptimizer`, as far as `evaluate` reads and writes it. -/
structure CMAESOptimizer (G C K : Type) where
  controllerClass : G → C
  fitnessMode : FitnessMode
  solutions : Option (List G)
  scores : Scores G K

section
variable [Zero K] [Add K] [Div K] [NatCast K] [LT K] [DecidableLT K] (trackLength : T → K)
  (episode : Episode T C K)

/-- `if self.fitnesses[best_idx] > self.best_fitness`: the new best fitness and genes.
`np.argmax` raises if nothing was evaluated. -/
def Scores.update (self : Scores G K) (individuals : List G) (fitnesses : List K) :
    Option (Scores G K) := do
  let bestIdx ← argmax fitnesses
  let fitness ← fitnesses[bestIdx]?
  let genes ← individuals[bestIdx]?
  if self.bestFitness.all (· < fitness) then
    return ⟨fitnesses, some fitness, some genes⟩
  else
    return { self with fitnesses }

/-- The two globals that `evaluate` sets first. -/
def Process.beginEvaluate (p : Process T K) (mode : FitnessMode) : Process T K :=
  { p with ga := { p.ga with fitnessMode := mode, useMultitrack := p.ga.activeTracks.isSome } }

/-- The part the two `evaluate` share: the fitnesses of the individuals. -/
def Process.evaluateAll (p : Process T K) (args : List ((G → C) × G)) (workers : Nat)
    (worker : Nat → Nat) : Option (Process T K × List K) :=
  if 1 < workers then
    (evaluatePool trackLength episode (fun _ => p) worker args.zipIdx).map fun fs => (p, fs)
  else p.evaluateEach trackLength episode args

/-- `GeneticAlgorithm.evaluate`. -/
def GeneticAlgorithm.evaluate (self : GeneticAlgorithm G C K) (p : Process T K) (workers : Nat)
    (worker : Nat → Nat) : Option (Process T K × GeneticAlgorithm G C K) := do
  let p := p.beginEvaluate self.fitnessMode
  let individuals ← (List.range self.popSize).mapM (self.population[·]?)
  let args := individuals.map fun genes => (self.controllerClass, genes)
  let (p, fitnesses) ← p.evaluateAll trackLength episode args workers worker
  let scores ← self.scores.update individuals fitnesses
  return (p, { self with scores })

/-- `CMAESOptimizer.evaluate`; `asked` is what `es.ask()` returns. -/
def CMAESOptimizer.evaluate (self : CMAESOptimizer G C K) (p : Process T K) (asked : List G)
    (workers : Nat) (worker : Nat → Nat) : Option (Process T K × CMAESOptimizer G C K) := do
  let p := p.beginEvaluate self.fitnessMode
  let args := asked.map fun genes => (self.controllerClass, genes)
  let (p, fitnesses) ← p.evaluateAll trackLength episode args workers worker
  let scores ← self.scores.update asked fitnesses
  return (p, { self with solutions := some asked, scores })

end

/-- The optimizer of a training, by `--optimizer`. -/
inductive Optimizer (G C K : Type)
  | ga (self : GeneticAlgorithm G C K)
  | cma (self : CMAESOptimizer G C K)

namespace Optimizer

def controllerClass : Optimizer G C K → G → C
  | .ga self => self.controllerClass
  | .cma self => self.controllerClass

def fitnessMode : Optimizer G C K → FitnessMode
  | .ga self => self.fitnessMode
  | .cma self => self.fitnessMode

def fitnesses : Optimizer G C K → List K
  | .ga self => self.scores.fitnesses
  | .cma self => self.scores.fitnesses

/-- The individuals that `evaluate` evaluates. -/
def individuals (asked : List G) : Optimizer G C K → List G
  | .ga self => self.population.take self.popSize
  | .cma _ => asked

variable [Zero K] [Add K] [Div K] [NatCast K] [LT K] [DecidableLT K] (trackLength : T → K)
  (episode : Episode T C K)

/-- `evaluate`, of either kind. -/
def evaluate (p : Process T K) (asked : List G) (workers : Nat) (worker : Nat → Nat) :
    Optimizer G C K → Option (Process T K × Optimizer G C K)
  | .ga self => (self.evaluate trackLength episode p workers worker).map fun (p, o) => (p, .ga o)
  | .cma self =>
    (self.evaluate trackLength episode p asked workers worker).map fun (p, o) => (p, .cma o)

end Optimizer

/-! ## Runs -/

/-- What a program that trains does to the module variables: episodes on one track, and
what the optimizers do between evaluations, leave them alone. -/
inductive TrainAct (T C G R K : Type)
  | setTrack (draws : Nat → R) (nameOrTrack : NameOrTrack T) (maxSteps : Option Int)
      (noiseStd dropout : K)
  | runEpisodeMultitrack (ctrl : C) (mode : FitnessMode)
  | evaluate (o : Optimizer G C K) (asked : List G) (workers : Nat) (worker : Nat → Nat)

def TrainAct.isSetTrack : TrainAct T C G R K → Bool
  | .setTrack .. => true
  | _ => false

/-- A step of such a program; it ends where a call raises. -/
def trainStep [Zero K] [Add K] [Div K] [NatCast K] [LT K] [DecidableLT K] (trackLength : T → K)
    (episode : Episode T C K) (getTrack : R → Str → Option T) (p : Process T K) :
    TrainAct T C G R K → Option (Process T K)
  | .setTrack draws nameOrTrack maxSteps noiseStd dropout =>
    (p.sim.setTrack getTrack draws nameOrTrack maxSteps noiseStd dropout).map
      fun sim => { p with sim }
  | .runEpisodeMultitrack ctrl mode =>
    some { p with sim := (p.sim.runEpisodeMultitrack trackLength episode ctrl mode).1 }
  | .evaluate o asked workers worker =>
    (o.evaluate trackLength episode p asked workers worker).map Prod.fst

end KartStack.Sim2d
