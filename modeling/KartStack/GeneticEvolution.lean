import KartStack.MultiTrack
import KartStack.PythonLoops

/-! # Evolving a population

`GeneticAlgorithm.evolve` puts the best of a population at the front of the next and
fills the rest with children: of two tournaments each, crossed over and mutated.  What is
drawn at random is data, one supply for each slot that is filled; `np.argsort` promises no
order among equals, so its outcome is data too.

The fitness of an individual is a function of its genes as long as no track is set.  The
best of a population is at the front of the next one (`evolve_keeps`), so from one
evaluation to the next the greatest fitness never falls, and what is remembered as
the best is the best of all that were ever evaluated (`evaluations_remember`).
-/
namespace KartStack.Sim2d
open KartStack.Python

variable {T C R K : Type}

/-- A vector of genes. -/
abbrev Genes (K : Type) := List K

/-- `GeneticAlgorithm`, with what `evolve` reads and writes; `none` is `-np.inf`. -/
structure Evolver (C K : Type) extends GeneticAlgorithm (Genes K) C K where
  /-- `controller_class.RANGES`, if it has any. -/
  ranges : Option (List (K × K))
  numGenes : Nat
  eliteSize : Nat
  tournamentK : Nat
  mutationSigma : K
  initialSigma : K
  mutationDecay : K
  sigmaMin : K
  sigmaRestartPatience : Int
  generation : Nat
  stagnationCounter : Nat
  lastBest : Option K

/-- What an evolution draws: for each slot two choices for the tournaments, numbers for the
crossover and for the mutation of each gene; and what `np.argsort` returns. -/
structure Draws (K : Type) where
  order : List Nat
  first : Nat → List Nat
  second : Nat → List Nat
  random : Nat → Nat → K
  randn : Nat → Nat → K

/-- What `np.random.choice(n, k, replace=False)` may return. -/
def IsChoice (n k : Nat) (idxs : List Nat) : Prop :=
  idxs.length = k ∧ idxs.Nodup ∧ ∀ i ∈ idxs, i < n

instance (n k : Nat) (idxs : List Nat) : Decidable (IsChoice n k idxs) :=
  inferInstanceAs (Decidable (_ ∧ _))

section
variable [LT K] [DecidableLT K]

/-- What `np.argsort(-xs)` may return: all places, those of greater entries first. -/
def IsArgsort (xs : List K) (order : List Nat) : Prop :=
  order.Perm (List.range xs.length) ∧ (order.filterMap (xs[·]?)).Pairwise fun a b => ¬ a < b

instance (xs : List K) (order : List Nat) : Decidable (IsArgsort xs order) :=
  inferInstanceAs (Decidable (_ ∧ _))

/-- `np.max(xs)`; an empty array has none. -/
def npMax (xs : List K) : Option K := (argmax xs).bind (xs[·]?)

/-- `_tournament`, on the places drawn; it raises where so many cannot be drawn. -/
def Evolver.tournament (self : Evolver C K) (idxs : List Nat) : Option (Genes K) := do
  guard (IsChoice self.popSize self.tournamentK idxs)
  let fitnesses ← idxs.mapM (self.scores.fitnesses[·]?)
  let best ← argmax fitnesses
  let i ← idxs[best]?
  self.population[i]?

/-- `np.where(mask, p1, p2)`. -/
def whereMask (mask : List Bool) (p1 p2 : Genes K) : Genes K :=
  List.zipWith (fun m p => if m then p.1 else p.2) mask (p1.zip p2)

/-- `_crossover`. -/
def Evolver.crossover [OfScientific K] (self : Evolver C K) (random : Nat → K)
    (p1 p2 : Genes K) : Genes K :=
  whereMask ((List.range self.numGenes).map fun j => decide (random j < 0.5)) p1 p2

variable [Add K] [Mul K]

/-- `_mutate`. -/
def Evolver.mutate (self : Evolver C K) (randn : Nat → K) (ind : Genes K) : Genes K :=
  let child := List.zipWith (· + ·) ind
    ((List.range self.numGenes).map fun j => randn j * self.mutationSigma)
  match self.ranges with
  | some ranges => List.zipWith (fun x range => clip x range.1 range.2) child ranges
  | none => child

variable [OfScientific K]

/-- The child that goes to slot `i`. -/
def Evolver.child (self : Evolver C K) (d : Draws K) (i : Nat) : Option (Genes K) := do
  let p1 ← self.tournament (d.first i)
  let p2 ← self.tournament (d.second i)
  return self.mutate (d.randn i) (self.crossover (d.random i) p1 p2)

/-- `new_pop`. -/
def Evolver.newPop (self : Evolver C K) (d : Draws K) : Option (List (Genes K)) := do
  guard (IsArgsort self.scores.fitnesses d.order)
  let elite ← (d.order.take self.eliteSize).mapM (self.population[·]?)
  let offspring ← (List.range' self.eliteSize (self.popSize - self.eliteSize)).mapM (self.child d)
  return elite ++ offspring

/-- `evolve`, of a population of `pop_size`. -/
def Evolver.evolve (self : Evolver C K) (d : Draws K) : Option (Evolver C K) := do
  let population ← self.newPop d
  let currentBest ← npMax self.scores.fitnesses
  let mutationSigma := Python.max (self.mutationSigma * self.mutationDecay) self.sigmaMin
  let improved : Bool := self.lastBest.all (· + 0.1 < currentBest)
  let stagnationCounter := if improved then 0 else self.stagnationCounter + 1
  let lastBest := if improved then some currentBest else self.lastBest
  let restart : Bool := 0 < self.sigmaRestartPatience ∧
    self.sigmaRestartPatience ≤ stagnationCounter
  return {
    self with
    population
    mutationSigma := if restart then self.initialSigma * 0.5 else mutationSigma
    stagnationCounter := if restart then 0 else stagnationCounter
    lastBest
    generation := self.generation + 1 }

variable [Zero K] [Div K] [NatCast K] (trackLength : T → K) (episode : Episode T C K)

/-- `evaluate`. -/
def Evolver.evaluate (self : Evolver C K) (p : Process T K) (workers : Nat)
    (worker : Nat → Nat) : Option (Process T K × Evolver C K) :=
  (self.toGeneticAlgorithm.evaluate trackLength episode p workers worker).map
    fun (p, ga) => (p, { self with scores := ga.scores })

/-- What one pass of the loop over generations is given. -/
structure Round (K : Type) where
  workers : Nat
  worker : Nat → Nat
  draws : Draws K

/-- The loop of `train.py` over generations, to where a call raises: the optimizer after
each of its evaluations. -/
def evaluations (p : Process T K) (ga : Evolver C K) : List (Round K) → List (Evolver C K)
  | [] => []
  | r :: rounds =>
    match ga.evaluate trackLength episode p r.workers r.worker with
    | none => []
    | some (p, evaluated) =>
      match evaluated.evolve r.draws with
      | none => [evaluated]
      | some ga => evaluated :: evaluations p ga rounds

end

/-! ## What is remembered -/

/-- The best of the individuals seen is remembered, with its fitness. -/
def Remembers [LE K] (fit : Genes K → K) (seen : List (Genes K)) (s : Scores (Genes K) K) : Prop :=
  ∃ best genes, s.bestFitness = some best ∧ s.bestGenes = some genes ∧ genes ∈ seen ∧
    fit genes = best ∧ ∀ g ∈ seen, fit g ≤ best

section
variable [LinearOrder K] {fit : Genes K → K} {seen individuals : List (Genes K)}
  {s s' : Scores (Genes K) K}

/-- **One evaluation**: the best so far is kept, unless there is a better one. -/
theorem update_remembers (h : s.update individuals (individuals.map fit) = some s')
    (hs : (seen = [] ∧ s.bestFitness = none) ∨ Remembers fit seen s) :
    Remembers fit (seen ++ individuals) s' := by
  simp only [Scores.update, Option.bind_eq_bind, Option.bind_eq_some_iff] at h
  obtain ⟨i, hi, m, hm, genes, hgenes, h⟩ := h
  obtain ⟨m', hm', hle⟩ := argmax_spec hi
  obtain rfl := Option.some.inj (hm.symm.trans hm')
  have hfit : fit genes = m := by
    rw [List.getElem?_map, hgenes] at hm
    exact Option.some.inj hm
  have hnew : ∀ g ∈ individuals, fit g ≤ m := fun g hg => hle _ (List.mem_map_of_mem hg)
  have hin : genes ∈ seen ++ individuals := List.mem_append_right _ (List.mem_of_getElem? hgenes)
  by_cases hbetter : s.bestFitness.all (· < m)
  · rw [if_pos hbetter] at h
    obtain rfl := Option.some.inj h
    refine ⟨m, genes, rfl, rfl, hin, hfit, fun g hg => ?_⟩
    rcases List.mem_append.mp hg with hg | hg
    · rcases hs with ⟨rfl, -⟩ | ⟨best, -, hbest, -, -, -, hall⟩
      · cases hg
      · rw [hbest] at hbetter
        exact (hall g hg).trans (of_decide_eq_true hbetter).le
    · exact hnew g hg
  · rw [if_neg hbetter] at h
    obtain rfl := Option.some.inj h
    rcases hs with ⟨-, hnone⟩ | ⟨best, old, hbest, hold, hmem, hfitold, hall⟩
    · rw [hnone] at hbetter
      exact absurd rfl hbetter
    · rw [hbest] at hbetter
      have hworse : m ≤ best := not_lt.mp fun hlt => hbetter (decide_eq_true hlt)
      refine ⟨best, old, hbest, hold, List.mem_append_left _ hmem, hfitold, fun g hg => ?_⟩
      rcases List.mem_append.mp hg with hg | hg
      · exact hall g hg
      · exact (hnew g hg).trans hworse

/-- Individuals can be evaluated. -/
theorem exists_update (s : Scores (Genes K) K) (h : individuals ≠ []) (fit : Genes K → K) :
    ∃ s', s.update individuals (individuals.map fit) = some s' := by
  obtain ⟨i, hi⟩ := exists_argmax (by simpa using h : individuals.map fit ≠ [])
  obtain ⟨m, hm, -⟩ := argmax_spec hi
  obtain ⟨genes, hgenes, -⟩ := Option.map_eq_some_iff.mp (List.getElem?_map ▸ hm)
  simp only [Scores.update, hi, hm, hgenes, Option.bind_eq_bind, Option.bind_some]
  split
  · exact ⟨_, rfl⟩
  · exact ⟨_, rfl⟩

end

/-! ## One generation -/

section
variable [LT K] [DecidableLT K] [Add K] [Mul K] [OfScientific K]

/-- What an evolution leaves: the population is new, and what children are made by stays. -/
structure Evolves (ga next : Evolver C K) (d : Draws K) : Prop where
  population : ga.newPop d = some next.population
  scores : next.scores = ga.scores
  popSize : next.popSize = ga.popSize
  controllerClass : next.controllerClass = ga.controllerClass
  fitnessMode : next.fitnessMode = ga.fitnessMode
  eliteSize : next.eliteSize = ga.eliteSize
  ranges : next.ranges = ga.ranges
  numGenes : next.numGenes = ga.numGenes

theorem evolves_of_evolve {self next : Evolver C K} {d : Draws K} (h : self.evolve d = some next) :
    Evolves self next d := by
  simp only [Evolver.evolve, Option.bind_eq_bind, Option.bind_eq_some_iff] at h
  obtain ⟨population, hpop, currentBest, -, h⟩ := h
  obtain rfl := Option.some.inj h
  exact ⟨hpop, rfl, rfl, rfl, rfl, rfl, rfl, rfl⟩

/-- A new population: the elite, and children. -/
theorem newPop_eq_some {self : Evolver C K} {d : Draws K} {population : List (Genes K)}
    (h : self.newPop d = some population) :
    IsArgsort self.scores.fitnesses d.order ∧ ∃ elite offspring,
      (d.order.take self.eliteSize).mapM (self.population[·]?) = some elite ∧
      (List.range' self.eliteSize (self.popSize - self.eliteSize)).mapM (self.child d) =
        some offspring ∧ population = elite ++ offspring := by
  simp only [Evolver.newPop, Option.bind_eq_bind, Option.bind_eq_some_iff] at h
  obtain ⟨_, hguard, elite, helite, offspring, hoffspring, hpop⟩ := h
  refine ⟨?_, elite, offspring, helite, hoffspring, (Option.some.inj hpop).symm⟩
  by_contra hn
  simp [guard, hn] at hguard

/-- It has as many individuals. -/
theorem newPop_length {self : Evolver C K} {d : Draws K} {population : List (Genes K)}
    (h : self.newPop d = some population)
    (hsize : self.scores.fitnesses.length = self.popSize) :
    population.length = self.popSize := by
  obtain ⟨hsort, elite, offspring, helites, hoffspring, rfl⟩ := newPop_eq_some h
  have horder := hsort.1.length_eq
  rw [List.length_range] at horder
  rw [List.length_append, length_of_mapM helites, length_of_mapM hoffspring, List.length_take,
    List.length_range']
  omega

omit [Add K] [Mul K] [OfScientific K] in
theorem tournament_mem {self : Evolver C K} {idxs : List Nat} {g : Genes K}
    (h : self.tournament idxs = some g) : g ∈ self.population := by
  simp only [Evolver.tournament, Option.bind_eq_bind, Option.bind_eq_some_iff] at h
  obtain ⟨_, -, _, -, _, -, i, -, hi⟩ := h
  exact List.mem_of_getElem? hi

/-- An individual of the next population is one of this, or a child of two of them. -/
theorem mem_newPop {self : Evolver C K} {d : Draws K} {population : List (Genes K)}
    (h : self.newPop d = some population) {g : Genes K} (hg : g ∈ population) :
    g ∈ self.population ∨ ∃ randn random, ∃ p1 ∈ self.population, ∃ p2 ∈ self.population,
      g = self.mutate randn (self.crossover random p1 p2) := by
  obtain ⟨-, elite, offspring, helite, hoffspring, rfl⟩ := newPop_eq_some h
  rcases List.mem_append.mp hg with hg | hg
  · obtain ⟨i, -, hi⟩ := mem_of_mapM helite hg
    exact .inl (List.mem_of_getElem? hi)
  · obtain ⟨i, -, hi⟩ := mem_of_mapM hoffspring hg
    simp only [Evolver.child, Option.bind_eq_bind, Option.bind_eq_some_iff] at hi
    obtain ⟨p1, hp1, p2, hp2, hchild⟩ := hi
    exact .inr ⟨_, _, p1, tournament_mem hp1, p2, tournament_mem hp2,
      (Option.some.inj hchild).symm⟩

end

section
variable [LinearOrder K] [Add K] [Mul K] [OfScientific K]

/-- **The best is at the front of the next population.** -/
theorem evolve_keeps {self : Evolver C K} {fit : Genes K → K} {d : Draws K}
    {population : List (Genes K)} (h : self.newPop d = some population)
    (hfit : self.scores.fitnesses = self.population.map fit) (helite : 1 ≤ self.eliteSize)
    (hne : self.population ≠ []) :
    (self.population.map fit).maximum ≤ (population.map fit).maximum := by
  obtain ⟨⟨hperm, hsorted⟩, elite, offspring, helites, -, rfl⟩ := newPop_eq_some h
  rw [hfit] at hperm hsorted
  cases horder : d.order with
  | nil =>
    rw [horder, List.length_map] at hperm
    exact absurd (List.length_eq_zero_iff.mp (List.range_eq_nil.mp hperm.nil_eq.symm)) hne
  | cons i rest =>
    obtain ⟨e, he⟩ := Nat.exists_eq_add_of_le' helite
    rw [horder] at hperm hsorted helites
    rw [he, List.take_succ_cons] at helites
    obtain ⟨g, elite, hg, -, rfl⟩ := List.forall₂_cons_left_iff.mp (mapM_eq_some_iff.mp helites)
    have hgfit : (self.population.map fit)[i]? = some (fit g) := by
      rw [List.getElem?_map, hg, Option.map_some]
    rw [List.filterMap_cons, hgfit, List.pairwise_cons] at hsorted
    refine List.maximum_le_of_forall_le fun x hx => ?_
    have hle : x ≤ fit g := by
      obtain ⟨j, hj⟩ := List.mem_iff_getElem?.mp hx
      have hjlt := (List.getElem?_eq_some_iff.mp hj).1
      rcases List.mem_cons.mp (hperm.mem_iff.mpr (List.mem_range.mpr hjlt)) with rfl | hjrest
      · rw [hgfit] at hj
        exact (Option.some.inj hj).ge
      · exact not_lt.mp (hsorted.1 x (List.mem_filterMap.mpr ⟨j, hjrest, hj⟩))
    have hfront : fit g ∈ ((g :: elite) ++ offspring).map fit :=
      List.mem_map_of_mem (List.mem_append_left _ (List.mem_cons_self ..))
    exact (WithBot.coe_le_coe.mpr hle).trans (List.le_maximum_of_mem' hfront)

end

/-! ## All generations -/

section
variable [Zero K] [Add K] [Div K] [NatCast K] (episode : Episode T C K)

/-- The fitness of genes, as an optimizer of this class and mode evaluates them. -/
def geneFitness (p : Process T K) (controllerClass : Genes K → C) (mode : FitnessMode)
    (genes : Genes K) : K :=
  (p.beginEvaluate mode).fitness episode (controllerClass, genes)

variable [LT K] [DecidableLT K] (trackLength : T → K)

/-- An evaluation only changes what is remembered. -/
theorem Evolver.evaluate_eq {self e : Evolver C K} {p p' : Process T K} {workers : Nat}
    {worker : Nat → Nat} (hsize : self.population.length = self.popSize)
    (h : self.evaluate trackLength episode p workers worker = some (p', e)) :
    p' = p.beginEvaluate self.fitnessMode ∧ ∃ scores, e = { self with scores } ∧
      self.scores.update self.population (self.population.map
        (geneFitness episode p self.controllerClass self.fitnessMode)) = some scores := by
  obtain ⟨⟨q, ga⟩, heval, hout⟩ := Option.map_eq_some_iff.mp h
  simp only [GeneticAlgorithm.evaluate, evaluateAll_eq, Option.bind_eq_bind,
    Option.bind_eq_some_iff, Option.bind_some] at heval
  obtain ⟨individuals, hind, scores, hscores, hpair⟩ := heval
  obtain ⟨rfl, rfl⟩ := Prod.mk.inj (Option.some.inj hpair)
  obtain ⟨rfl, rfl⟩ := Prod.mk.inj hout
  have hall : individuals = self.population := by
    rw [mapM_range_getElem? hind, ← hsize, List.take_length]
  rw [hall, List.map_map] at hscores
  exact ⟨rfl, scores, rfl, hscores⟩

end

section
variable [LinearOrder K] [Zero K] [Add K] [Div K] [NatCast K] (trackLength : T → K)
  (episode : Episode T C K)

/-- An evaluation of individuals does not fail. -/
theorem Evolver.exists_evaluate {self : Evolver C K} (p : Process T K) (workers : Nat)
    (worker : Nat → Nat) (hsize : self.population.length = self.popSize) (hpos : 0 < self.popSize) :
    ∃ p' e, self.evaluate trackLength episode p workers worker = some (p', e) := by
  have hall : (List.range self.popSize).mapM (self.population[·]?) = some self.population := by
    rw [mapM_eq_some_iff, List.forall₂_iff_get]
    refine ⟨List.length_range.trans hsize.symm, fun i hi hi' => ?_⟩
    simp [List.getElem?_eq_getElem hi']
  have hne : self.population ≠ [] := List.ne_nil_of_length_pos (hsize.symm ▸ hpos)
  obtain ⟨scores, hscores⟩ := exists_update self.scores hne
    (geneFitness episode p self.controllerClass self.fitnessMode)
  refine ⟨p.beginEvaluate self.fitnessMode, { self with scores },
    Option.map_eq_some_iff.mpr ⟨(_, { self.toGeneticAlgorithm with scores }), ?_, rfl⟩⟩
  simp only [GeneticAlgorithm.evaluate, evaluateAll_eq, hall, Option.bind_eq_bind,
    Option.bind_some, List.map_map]
  exact Option.bind_eq_some_iff.mpr ⟨scores, hscores, rfl⟩

end

section
variable [LinearOrder K] [Zero K] [Add K] [Mul K] [Div K] [NatCast K] [OfScientific K]
  (trackLength : T → K) (episode : Episode T C K)

/-- From any generation on: nothing falls below what was reached, and the best of those seen
before and since is remembered. -/
theorem evaluations_from {p : Process T K} {ga : Evolver C K} {fit : Genes K → K}
    {seen : List (Genes K)} {least : WithBot K}
    (hfit : fit = geneFitness episode p ga.controllerClass ga.fitnessMode)
    (hsize : ga.population.length = ga.popSize) (helite : 1 ≤ ga.eliteSize)
    (hs : (seen = [] ∧ ga.scores.bestFitness = none) ∨ Remembers fit seen ga.scores)
    (hleast : least ≤ (ga.population.map fit).maximum) (rounds : List (Round K)) :
    (least :: (evaluations trackLength episode p ga rounds).map
        fun e => e.scores.fitnesses.maximum).IsChain (· ≤ ·) ∧
      ∀ before e after, evaluations trackLength episode p ga rounds = before ++ e :: after →
        Remembers fit (seen ++ (before ++ [e]).flatMap (·.population)) e.scores := by
  have hempty : ∀ {before : List (Evolver C K)} {e : Evolver C K} {after : List (Evolver C K)},
      [] ≠ before ++ e :: after := by simp
  induction rounds generalizing p ga seen least with
  | nil => exact ⟨List.isChain_singleton _, fun before e after h => absurd h hempty⟩
  | cons r rounds ih =>
    rw [evaluations]
    cases heval : ga.evaluate trackLength episode p r.workers r.worker with
    | none => exact ⟨List.isChain_singleton _, fun before e after h => absurd h hempty⟩
    | some pe =>
      obtain ⟨p', e⟩ := pe
      obtain ⟨rfl, scores, rfl, hscores⟩ := ga.evaluate_eq episode trackLength hsize heval
      rw [← hfit] at hscores
      have hstored : scores.fitnesses = ga.population.map fit := Scores.update_fitnesses hscores
      have hremember := update_remembers hscores hs
      have hfirst : least ≤ scores.fitnesses.maximum := hstored ▸ hleast
      simp only
      cases hevolve : Evolver.evolve { ga with scores } r.draws with
      | none =>
        refine ⟨List.isChain_cons_cons.mpr ⟨hfirst, List.isChain_singleton _⟩, ?_⟩
        intro before e after h
        obtain ⟨rfl, hlast⟩ : before = [] ∧ e :: after = [_] := by
          rcases List.singleton_eq_append_iff.mp h with hcase | ⟨-, hnil⟩
          · exact ⟨hcase.1, hcase.2⟩
          · cases hnil
        obtain ⟨rfl, -⟩ := List.cons.inj hlast
        simpa using hremember
      | some next =>
        simp only
        have hnext := evolves_of_evolve hevolve
        have hpos : ga.population ≠ [] := by
          intro hnil
          rw [hnil] at hscores
          cases hscores
        have hkeeps := evolve_keeps hnext.population hstored helite hpos
        have hscored : scores.fitnesses.length = ga.popSize := by
          rw [hstored, List.length_map, hsize]
        have hlength := newPop_length hnext.population hscored
        have hsame : fit = geneFitness episode (p.beginEvaluate ga.fitnessMode)
            next.controllerClass next.fitnessMode := by
          rw [hfit, hnext.controllerClass, hnext.fitnessMode]
          rfl
        have hseen : Remembers fit (seen ++ ga.population) next.scores :=
          hnext.scores.symm ▸ hremember
        have hleast : scores.fitnesses.maximum ≤ (next.population.map fit).maximum :=
          hstored ▸ hkeeps
        obtain ⟨hchain, hrest⟩ := ih hsame (hlength.trans hnext.popSize.symm)
          (hnext.eliteSize.symm ▸ helite) (.inr hseen) hleast
        refine ⟨List.isChain_cons_cons.mpr ⟨hfirst, hchain⟩, ?_⟩
        intro before e after h
        cases before with
        | nil =>
          obtain ⟨rfl, -⟩ := List.cons.inj h
          simpa using hremember
        | cons b before =>
          obtain ⟨rfl, htail⟩ := List.cons.inj h
          simpa using hrest before e after htail

/-- **The best is never forgotten.** From one evaluation to the next the greatest fitness does
not fall, and after each the best fitness and the best genes are those of the best
individual of all that were evaluated. -/
theorem evaluations_remember {p : Process T K} {ga : Evolver C K}
    (hsize : ga.population.length = ga.popSize) (helite : 1 ≤ ga.eliteSize)
    (hfresh : ga.scores.bestFitness = none)
    (rounds : List (Round K)) :
    ((evaluations trackLength episode p ga rounds).map
        fun e => e.scores.fitnesses.maximum).IsChain (· ≤ ·) ∧
      ∀ before e after, evaluations trackLength episode p ga rounds = before ++ e :: after →
        Remembers (geneFitness episode p ga.controllerClass ga.fitnessMode)
          ((before ++ [e]).flatMap (·.population)) e.scores := by
  obtain ⟨hchain, hremember⟩ := evaluations_from trackLength episode (p := p) rfl hsize helite
    (.inl ⟨rfl, hfresh⟩) bot_le rounds
  exact ⟨hchain.tail, hremember⟩

end

/-- Three individuals with one gene, the best of them in the middle. -/
def threeIndividuals : Evolver (Genes ℚ) ℚ where
  controllerClass := id
  popSize := 3
  fitnessMode := .v1
  population := [[1], [3], [2]]
  scores := ⟨[0, 0, 0], none, none⟩
  ranges := none
  numGenes := 1
  eliteSize := 1
  tournamentK := 2
  mutationSigma := 0.1
  initialSigma := 0.1
  mutationDecay := 0.995
  sigmaMin := 0.005
  sigmaRestartPatience := 30
  generation := 0
  stagnationCounter := 0
  lastBest := none

/-- An episode comes to the first gene. -/
def firstGene : Episode Unit (Genes ℚ) ℚ := fun _ genes _ =>
  ⟨genes.headD 0, 0, 0, 0, 0, 1, 0, 0, 0, 0, 0, 0, 0⟩

/-- Children are a little less than a parent. -/
def lesser (order : List Nat) : Round ℚ :=
  ⟨1, id, ⟨order, fun _ => [0, 2], fun _ => [1, 2], fun _ _ => 0, fun _ _ => -1⟩⟩

theorem evaluations_remember_two :
    (evaluations (fun _ => 1) firstGene (.imported ()) threeIndividuals
        [lesser [1, 2, 0], lesser [0, 1, 2]]).length = 2 ∧
      (((evaluations (fun _ => 1) firstGene (.imported ()) threeIndividuals
          [lesser [1, 2, 0], lesser [0, 1, 2]]).map
          fun e => e.scores.fitnesses.maximum).IsChain (· ≤ ·) ∧
        ∀ before e after, evaluations (fun _ => 1) firstGene (.imported ()) threeIndividuals
            [lesser [1, 2, 0], lesser [0, 1, 2]] = before ++ e :: after →
          Remembers (geneFitness firstGene (.imported ()) id .v1)
            ((before ++ [e]).flatMap (·.population)) e.scores) :=
  ⟨by decide +kernel, evaluations_remember (fun _ => 1) firstGene rfl (by decide) rfl
    [lesser [1, 2, 0], lesser [0, 1, 2]]⟩

end KartStack.Sim2d
