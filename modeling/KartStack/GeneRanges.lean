import KartStack.GeneticEvolution

/-! # The ranges of the genes

A `GeometricController` declares a range for each of its genes.  The first population is
drawn from the ranges, with the defaults in it, and what mutation takes beyond them is
clipped.  `train.py` then puts other individuals into that population: the seed, and copies of
the seed with noise added to them, which nothing clips.

So all individuals that are evaluated lie in the ranges exactly if those copies do
(`evaluations_inRanges_iff`).
-/
namespace KartStack.Sim2d
open KartStack.Python

variable {T C K : Type}

/-! ## The first population -/

/-- What `ga.py` reads of a controller class. -/
structure ControllerClass (C K : Type) where
  make : Genes K → C
  numGenes : Nat
  inputSize : Nat
  ranges : Option (List (K × K))
  defaults : Genes K

/-- What `np.random.random` may return, for each row and gene. -/
structure UniformDraws (K : Type) [Zero K] [One K] [LE K] [LT K] where
  value : Nat → Nat → K
  nonneg : ∀ i j, 0 ≤ value i j
  lt_one : ∀ i j, value i j < 1

section
variable [OfScientific K]

/-- `GeometricController.DEFAULTS`. -/
def geometricDefaults : Genes K := [1.0, 0.5, 2.0, 0.5, 15.0, 1.0]

/-- `GeometricController.RANGES`. -/
def geometricRanges : List (K × K) :=
  [(0.1, 5.0), (0.1, 1.0), (1.0, 5.0), (0.1, 2.0), (3.0, 20.0), (0.0, 3.0)]

/-- `GeometricController`; it has no `INPUT_SIZE`. -/
def geometric (make : Genes K → C) : ControllerClass C K where
  make := make
  numGenes := 6
  inputSize := 0
  ranges := some geometricRanges
  defaults := geometricDefaults

end

section
variable [Zero K] [One K] [LE K] [LT K] [Add K] [Sub K] [Mul K] [Div K] [NatCast K]

/-- `np.random.uniform(lo, hi)`, from a number below one. -/
def uniform (range : K × K) (u : K) : K := range.1 + (range.2 - range.1) * u

/-- `_init_population`; it raises where there is no row for the defaults. -/
def ControllerClass.initPopulation (m : MathLib K) (cls : ControllerClass C K) (popSize : Nat)
    (random : UniformDraws K) (randn : Nat → Nat → K) : Option (List (Genes K)) :=
  match cls.ranges with
  | some ranges =>
    let pop := (List.range popSize).map fun i =>
      ranges.zipIdx.map fun (range, j) => uniform range (random.value i j)
    if popSize = 0 then none else some (pop.set 0 cls.defaults)
  | none =>
    let scale := 1 / m.sqrt cls.inputSize
    some ((List.range popSize).map fun i =>
      (List.range cls.numGenes).map fun j => randn i j * scale)

variable [OfScientific K]

/-- `GeneticAlgorithm.__init__`, with the defaults for what `train.py` does not give. -/
def Evolver.init (m : MathLib K) (cls : ControllerClass C K) (popSize : Nat)
    (fitnessMode : FitnessMode) (mutationSigma sigmaMin : K) (random : UniformDraws K)
    (randn : Nat → Nat → K) : Option (Evolver C K) :=
  (cls.initPopulation m popSize random randn).map fun population => {
    controllerClass := cls.make
    popSize
    fitnessMode
    population
    scores := ⟨List.replicate popSize 0, none, none⟩
    ranges := cls.ranges
    numGenes := cls.numGenes
    eliteSize := 5
    tournamentK := 5
    mutationSigma
    initialSigma := mutationSigma
    mutationDecay := 0.995
    sigmaMin
    sigmaRestartPatience := 30
    generation := 0
    stagnationCounter := 0
    lastBest := none }

/-- `n_seed`. -/
def nSeed (popSize : Nat) : Nat := min popSize (max 20 (popSize / 2))

/-- `seed_genes + np.random.randn(len(seed_genes)) * seed_sigma`. -/
def seededRow (seedGenes : Genes K) (seedSigma : K) (randn : Nat → K) : Genes K :=
  List.zipWith (· + ·) seedGenes ((List.range seedGenes.length).map fun j => randn j * seedSigma)

/-- The slots that `train.py` fills from a seed. -/
def Evolver.seed (self : Evolver C K) (seedGenes : Genes K) (seedSigma : K)
    (randn : Nat → Nat → K) : Evolver C K :=
  { self with
    population := self.population.mapIdx fun i row =>
      if i = 0 then seedGenes
      else if i < nSeed self.popSize then seededRow seedGenes seedSigma (randn i)
      else row }

/-- What `train.py` is started with, and what it draws before the first generation. -/
structure Setup (K : Type) [Zero K] [One K] [LE K] [LT K] where
  popSize : Nat
  fitness : FitnessMode
  sigma : K
  sigmaMin : K
  seedGenes : Option (Genes K)
  random : UniformDraws K
  randn : Nat → Nat → K
  seedRandn : Nat → Nat → K

/-- The genetic algorithm that `train.py` sets up. -/
def Setup.ga (m : MathLib K) (cls : ControllerClass C K) (setup : Setup K) :
    Option (Evolver C K) :=
  (Evolver.init m cls setup.popSize setup.fitness setup.sigma setup.sigmaMin setup.random
      setup.randn).map fun opt =>
    match setup.seedGenes with
    | some seedGenes => opt.seed seedGenes setup.sigma setup.seedRandn
    | none => opt

end

/-! ## In the ranges -/

/-- Each gene is in its range. -/
def InRanges [LE K] (ranges : List (K × K)) (genes : Genes K) : Prop :=
  List.Forall₂ (fun x range => range.1 ≤ x ∧ x ≤ range.2) genes ranges

instance [LE K] [DecidableLE K] (ranges : List (K × K)) (genes : Genes K) :
    Decidable (InRanges ranges genes) :=
  inferInstanceAs (Decidable (List.Forall₂ _ _ _))

section
variable [LinearOrder K]

theorem clip_mem {range : K × K} (h : range.1 ≤ range.2) (x : K) :
    range.1 ≤ clip x range.1 range.2 ∧ clip x range.1 range.2 ≤ range.2 := by
  rw [clip, python_min, python_max]
  exact ⟨le_min (le_max_right _ _) h, min_le_right _ _⟩

/-- What is clipped lies in the ranges. -/
theorem inRanges_clip {ranges : List (K × K)} (h : ∀ range ∈ ranges, range.1 ≤ range.2)
    {genes : Genes K} (hlength : genes.length = ranges.length) :
    InRanges ranges (List.zipWith (fun x range => clip x range.1 range.2) genes ranges) := by
  induction ranges generalizing genes with
  | nil =>
    rw [List.zipWith_nil_right]
    exact .nil
  | cons range ranges ih =>
    obtain ⟨hrange, hranges⟩ := List.forall_mem_cons.mp h
    cases genes with
    | nil => cases hlength
    | cons x genes =>
      rw [List.zipWith_cons_cons]
      exact .cons (clip_mem hrange x) (ih hranges (Nat.succ.inj hlength))

variable [Add K] [Mul K] [OfScientific K]

omit [Add K] [Mul K] in
theorem crossover_length {self : Evolver C K} {p1 p2 : Genes K} (h1 : p1.length = self.numGenes)
    (h2 : p2.length = self.numGenes) (random : Nat → K) :
    (self.crossover random p1 p2).length = self.numGenes := by
  simp [Evolver.crossover, whereMask, h1, h2]

omit [OfScientific K] in
theorem mutate_inRanges {self : Evolver C K} {ranges : List (K × K)}
    (hranges : self.ranges = some ranges) (hgenes : ranges.length = self.numGenes)
    (h : ∀ range ∈ ranges, range.1 ≤ range.2) {ind : Genes K}
    (hind : ind.length = self.numGenes) (randn : Nat → K) :
    InRanges ranges (self.mutate randn ind) := by
  rw [Evolver.mutate, hranges]
  refine inRanges_clip h ?_
  simp [hind, hgenes]

/-- **An evolution stays in the ranges.** -/
theorem newPop_inRanges {self : Evolver C K} {ranges : List (K × K)}
    (hranges : self.ranges = some ranges) (hgenes : ranges.length = self.numGenes)
    (h : ∀ range ∈ ranges, range.1 ≤ range.2) (hin : ∀ g ∈ self.population, InRanges ranges g)
    {d : Draws K} {population : List (Genes K)} (hpop : self.newPop d = some population) :
    ∀ g ∈ population, InRanges ranges g := by
  intro g hg
  have hlength : ∀ g ∈ self.population, g.length = self.numGenes := fun g hg =>
    (hin g hg).length_eq.trans hgenes
  rcases mem_newPop hpop hg with hold | ⟨randn, random, p1, hp1, p2, hp2, rfl⟩
  · exact hin g hold
  · exact mutate_inRanges hranges hgenes h
      (crossover_length (hlength p1 hp1) (hlength p2 hp2) random) randn

end

/-! ## The first population of a geometric controller -/

section
variable [Field K] [LinearOrder K] [IsStrictOrderedRing K]

theorem geometricRanges_le : ∀ range ∈ (geometricRanges : List (K × K)), range.1 ≤ range.2 := by
  norm_num [geometricRanges]

theorem geometricDefaults_inRanges : InRanges geometricRanges (geometricDefaults : Genes K) := by
  norm_num [InRanges, geometricRanges, geometricDefaults]

theorem uniform_mem {range : K × K} (h : range.1 ≤ range.2) {u : K} (h0 : 0 ≤ u) (h1 : u < 1) :
    range.1 ≤ uniform range u ∧ uniform range u ≤ range.2 := by
  have hwidth : 0 ≤ range.2 - range.1 := sub_nonneg.mpr h
  have hstep : (range.2 - range.1) * u ≤ (range.2 - range.1) * 1 :=
    mul_le_mul_of_nonneg_left h1.le hwidth
  rw [uniform]
  constructor
  · linarith [mul_nonneg hwidth h0]
  · linarith

/-- A row that is drawn lies in the ranges. -/
theorem uniformRow_inRanges {ranges : List (K × K)} (h : ∀ range ∈ ranges, range.1 ≤ range.2)
    (random : UniformDraws K) (i : Nat) :
    InRanges ranges (ranges.zipIdx.map fun (range, j) => uniform range (random.value i j)) := by
  rw [InRanges, List.forall₂_map_left_iff, List.forall₂_iff_get]
  refine ⟨List.length_zipIdx, fun k hk hk' => ?_⟩
  simp only [List.get_eq_getElem, List.getElem_zipIdx]
  exact uniform_mem (h _ (List.getElem_mem hk')) (random.nonneg i _) (random.lt_one i _)

/-- A population that can be evaluated, of a class that declares these ranges. -/
structure Ranged (ranges : List (K × K)) (opt : Evolver C K) : Prop where
  size : opt.population.length = opt.popSize
  pos : 0 < opt.popSize
  declared : opt.ranges = some ranges
  numGenes : ranges.length = opt.numGenes

theorem init_ranged {m : MathLib K} {make : Genes K → C} {popSize : Nat} {mode : FitnessMode}
    {sigma sigmaMin : K} {random : UniformDraws K} {randn : Nat → Nat → K} {opt : Evolver C K}
    (h : Evolver.init m (geometric make) popSize mode sigma sigmaMin random randn = some opt) :
    opt.popSize = popSize ∧ Ranged geometricRanges opt ∧
      ∀ g ∈ opt.population, InRanges geometricRanges g := by
  obtain ⟨population, hpop, rfl⟩ := Option.map_eq_some_iff.mp h
  simp only [ControllerClass.initPopulation, geometric] at hpop
  split at hpop
  · cases hpop
  · rename_i hpos
    obtain rfl := Option.some.inj hpop
    refine ⟨rfl, ⟨by simp, Nat.pos_of_ne_zero hpos, rfl, rfl⟩, fun g hg => ?_⟩
    rcases List.mem_or_eq_of_mem_set hg with hg | rfl
    · obtain ⟨i, -, rfl⟩ := List.mem_map.mp hg
      exact uniformRow_inRanges geometricRanges_le random i
    · exact geometricDefaults_inRanges

end

/-! ## The seed -/

section
variable [Add K] [Mul K]

theorem seed_ranged {ga : Evolver C K} {ranges : List (K × K)} (h : Ranged ranges ga)
    (seedGenes : Genes K) (seedSigma : K) (randn : Nat → Nat → K) :
    Ranged ranges (ga.seed seedGenes seedSigma randn) :=
  ⟨by simpa [Evolver.seed] using h.size, h.pos, h.declared, h.numGenes⟩

theorem seededRow_mem {ga : Evolver C K} (hsize : ga.population.length = ga.popSize)
    (seedGenes : Genes K) (seedSigma : K) (randn : Nat → Nat → K) {i : Nat} (hi : 1 ≤ i)
    (hlt : i < nSeed ga.popSize) :
    seededRow seedGenes seedSigma (randn i) ∈ (ga.seed seedGenes seedSigma randn).population := by
  have hrow : i < ga.population.length := by
    rw [hsize]
    exact hlt.trans_le (min_le_left _ _)
  refine List.mem_mapIdx.mpr ⟨i, hrow, ?_⟩
  rw [if_neg (Nat.one_le_iff_ne_zero.mp hi), if_pos hlt]

end

/-! ## All generations -/

section
variable [LinearOrder K] [Zero K] [Add K] [Mul K] [Div K] [NatCast K] [OfScientific K]
  (trackLength : T → K) (episode : Episode T C K)

/-- The first evaluation is of the population as it is. -/
theorem evaluations_first (p : Process T K) {ga : Evolver C K} {ranges : List (K × K)}
    (h : Ranged ranges ga) (r : Round K) (rounds : List (Round K)) :
    ∃ e ∈ evaluations trackLength episode p ga (r :: rounds), e.population = ga.population := by
  obtain ⟨p', e, heval⟩ := ga.exists_evaluate trackLength episode p r.workers r.worker h.size h.pos
  obtain ⟨-, scores, rfl, -⟩ := ga.evaluate_eq episode trackLength h.size heval
  refine ⟨{ ga with scores }, ?_, rfl⟩
  rw [evaluations, heval]
  simp only
  split
  · exact List.mem_singleton_self _
  · exact List.mem_cons_self ..

/-- **Once in the ranges, always in the ranges.** -/
theorem evaluations_inRanges {p : Process T K} {ga : Evolver C K} {ranges : List (K × K)}
    (hranges : ∀ range ∈ ranges, range.1 ≤ range.2) (h : Ranged ranges ga)
    (hin : ∀ g ∈ ga.population, InRanges ranges g) (rounds : List (Round K)) :
    ∀ e ∈ evaluations trackLength episode p ga rounds, ∀ g ∈ e.population, InRanges ranges g := by
  induction rounds generalizing p ga with
  | nil => exact List.forall_mem_nil _
  | cons r rounds ih =>
    rw [evaluations]
    cases heval : ga.evaluate trackLength episode p r.workers r.worker with
    | none => exact List.forall_mem_nil _
    | some pe =>
      obtain ⟨p', e⟩ := pe
      obtain ⟨-, scores, rfl, hscores⟩ := ga.evaluate_eq episode trackLength h.size heval
      have hstored := Scores.update_fitnesses hscores
      have hscored : scores.fitnesses.length = ga.popSize := by
        rw [hstored, List.length_map, h.size]
      simp only
      cases hevolve : Evolver.evolve { ga with scores } r.draws with
      | none => exact fun e he => List.mem_singleton.mp he ▸ hin
      | some next =>
        have hnext := evolves_of_evolve hevolve
        refine List.forall_mem_cons.mpr ⟨hin, ih ?_ ?_⟩
        · exact ⟨(newPop_length hnext.population hscored).trans hnext.popSize.symm,
            hnext.popSize ▸ h.pos, hnext.ranges.trans h.declared,
            h.numGenes.trans hnext.numGenes.symm⟩
        · have hself : ({ ga with scores } : Evolver C K).ranges = some ranges := h.declared
          exact newPop_inRanges hself h.numGenes hranges hin hnext.population

end

section
variable [Field K] [LinearOrder K] [IsStrictOrderedRing K] (trackLength : T → K)
  (episode : Episode T C K)

/-- **When all genes stay in their ranges**: exactly if no generation is evaluated, or each copy
of the seed lies in them with its noise. -/
theorem evaluations_inRanges_iff {m : MathLib K} {make : Genes K → C} {setup : Setup K}
    {opt : Evolver C K} (hsetup : setup.ga m (geometric make) = some opt)
    (hseed : ∀ seedGenes ∈ setup.seedGenes, InRanges geometricRanges seedGenes)
    (p : Process T K) (rounds : List (Round K)) :
    (∀ e ∈ evaluations trackLength episode p opt rounds, ∀ g ∈ e.population,
        InRanges geometricRanges g) ↔
      rounds = [] ∨ ∀ seedGenes ∈ setup.seedGenes, ∀ i, 1 ≤ i → i < nSeed setup.popSize →
        InRanges geometricRanges (seededRow seedGenes setup.sigma (setup.seedRandn i)) := by
  obtain ⟨first, hinit, hopt⟩ := Option.map_eq_some_iff.mp hsetup
  obtain ⟨hsize, hfirst, hin⟩ := init_ranged hinit
  cases hgenes : setup.seedGenes with
  | none =>
    rw [hgenes] at hopt
    obtain rfl := hopt
    refine iff_of_true ?_ (.inr (by simp))
    exact evaluations_inRanges trackLength episode geometricRanges_le hfirst hin rounds
  | some seedGenes =>
    rw [hgenes] at hopt
    obtain rfl := hopt
    have hseeded := seed_ranged hfirst seedGenes setup.sigma setup.seedRandn
    constructor
    · intro hall
      cases rounds with
      | nil => exact .inl rfl
      | cons r rounds =>
        refine .inr fun genes hg i hi hlt => ?_
        obtain rfl := Option.some.inj hg
        obtain ⟨e, he, hpop⟩ := evaluations_first trackLength episode p hseeded r rounds
        exact hall e he _ (hpop ▸
          seededRow_mem hfirst.size seedGenes setup.sigma setup.seedRandn hi (hsize ▸ hlt))
    · rintro (rfl | hrows)
      · exact List.forall_mem_nil _
      · refine evaluations_inRanges trackLength episode geometricRanges_le hseeded ?_ rounds
        intro g hg
        obtain ⟨i, hi, rfl⟩ := List.mem_mapIdx.mp hg
        split_ifs with h0 hlt
        · exact hseed seedGenes hgenes
        · exact hrows seedGenes rfl i (Nat.one_le_iff_ne_zero.mpr h0) (hsize ▸ hlt)
        · exact hin _ (List.getElem_mem hi)

end

/-- Two individuals, seeded with genes and the same draw of noise for each of them. -/
noncomputable def twoSeeded (seedGenes : Genes ℝ) (noise : ℝ) : Setup ℝ where
  popSize := 2
  fitness := .v1
  sigma := 0.1
  sigmaMin := 0.005
  seedGenes := some seedGenes
  random := ⟨fun _ _ => 0, fun _ _ => le_rfl, fun _ _ => zero_lt_one⟩
  randn := fun _ _ => 0
  seedRandn := fun _ _ => noise

/-- Every episode comes to nothing. -/
noncomputable def idle : Episode Unit (Genes ℝ) ℝ := fun _ _ _ =>
  ⟨0, 0, 0, 0, 0, 1, 0, 0, 0, 0, 0, 0, 0⟩

/-- One generation in the same order. -/
noncomputable def sameOrder : Round ℝ :=
  ⟨1, id, ⟨[0, 1], fun _ => [], fun _ => [], fun _ _ => 0, fun _ _ => 0⟩⟩

theorem evaluations_inRanges_twoSeeded :
    ∃ opt, (twoSeeded geometricDefaults 1).ga MathLib.real (geometric id) = some opt ∧
      ((∀ e ∈ evaluations (fun _ => 1) idle (.imported ()) opt [sameOrder], ∀ g ∈ e.population,
          InRanges geometricRanges g) ↔
        [sameOrder] = [] ∨ ∀ seedGenes ∈ (twoSeeded geometricDefaults 1).seedGenes,
          ∀ i, 1 ≤ i → i < nSeed (twoSeeded geometricDefaults 1).popSize →
            InRanges geometricRanges (seededRow seedGenes (twoSeeded geometricDefaults 1).sigma
              ((twoSeeded geometricDefaults 1).seedRandn i))) :=
  ⟨_, rfl, evaluations_inRanges_iff (m := MathLib.real) (fun _ => 1) idle rfl
    (fun _ h => Option.some.inj h ▸ geometricDefaults_inRanges) (.imported ()) [sameOrder]⟩

/-- The greatest genes of the ranges. -/
def greatest : Genes ℝ := geometricRanges.map Prod.snd

theorem greatest_inRanges : InRanges geometricRanges greatest := by
  rw [InRanges, greatest, List.forall₂_map_left_iff, List.forall₂_same]
  exact fun range hrange => ⟨geometricRanges_le range hrange, le_rfl⟩

/-- **A seed at the end of its ranges**, and a draw of 1: the second individual leaves them. -/
theorem not_evaluations_inRanges :
    ¬ ∀ (setup : Setup ℝ) (opt : Evolver (Genes ℝ) ℝ),
      setup.ga MathLib.real (geometric id) = some opt →
      (∀ seedGenes ∈ setup.seedGenes, InRanges geometricRanges seedGenes) →
      ∀ rounds, ∀ e ∈ evaluations (fun _ => 1) idle (.imported ()) opt rounds,
        ∀ g ∈ e.population, InRanges geometricRanges g := by
  intro h
  let setup : Setup ℝ := twoSeeded greatest 1
  obtain ⟨first, hinit⟩ : ∃ first, Evolver.init MathLib.real (geometric id) 2 .v1 0.1 0.005
      setup.random setup.randn = some first := ⟨_, rfl⟩
  obtain ⟨hsize, hfirst, -⟩ := init_ranged hinit
  have hsetup : setup.ga MathLib.real (geometric id) =
      some (first.seed greatest 0.1 setup.seedRandn) :=
    Option.map_eq_some_iff.mpr ⟨first, hinit, rfl⟩
  obtain ⟨e, he, hpop⟩ := evaluations_first (fun _ => 1) idle (.imported ())
    (seed_ranged hfirst greatest 0.1 setup.seedRandn) sameOrder []
  have hrow := seededRow_mem hfirst.size greatest 0.1 setup.seedRandn
    le_rfl (by rw [hsize]; decide)
  have hin := h _ _ hsetup (fun _ h => Option.some.inj h ▸ greatest_inRanges)
    [sameOrder] e he _ (hpop ▸ hrow)
  obtain ⟨hgain, -⟩ := List.forall₂_cons.mp hin
  norm_num [setup, twoSeeded] at hgain

end KartStack.Sim2d
