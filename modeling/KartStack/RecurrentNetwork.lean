import KartStack.EpisodeClearance
import KartStack.NetworkGenes
import KartStack.PipelinesAgree

/-! # The network with a memory

`NeuralNetV3Controller` has two hidden layers, and is also fed what it did: the last steer, and
how much it was changed before.  It takes this from its own commands, not from the kart, which
clips what it is commanded.  The commands of the network are within what the kart can do, so in
an episode its memory is the speed and the last two angles the kart was steered by
(`memory_of_episode`), and without noise its inputs keep to the range they are normalised to.
-/
namespace KartStack.Sim2d
open KartStack.Python ConePerception

/-! ## The controller -/

/-- `NeuralNetV3Controller`. -/
structure NeuralNetV3Controller (K : Type) where
  w₁ : Array2 K
  b₁ : List K
  w₂ : Array2 K
  b₂ : List K
  w₃ : Array2 K
  b₃ : List K
  lastSpeed : K
  lastSteer : K
  prevSteer : K
  deriving DecidableEq, Repr

namespace NeuralNetV3Controller
variable {K : Type} [OfScientific K]

/-- `NeuralNetV3Controller.__init__`. -/
def init (g : List K) : Option (NeuralNetV3Controller K) :=
  let n₁ := 19 * 24
  let i₁ := n₁
  let i₂ := i₁ + 24
  let n₂ := 24 * 12
  let i₃ := i₂ + n₂
  let i₄ := i₃ + 12
  let n₃ := 12 * 2
  let i₅ := i₄ + n₃
  (reshape 19 24 (slice g 0 n₁)).bind fun w₁ =>
    (reshape 24 12 (slice g i₂ (i₂ + n₂))).bind fun w₂ =>
      (reshape 12 2 (slice g i₄ (i₄ + n₃))).map fun w₃ =>
        ⟨w₁, slice g i₁ (i₁ + 24), w₂, slice g i₃ (i₃ + 12), w₃, slice g i₅ (i₅ + 2),
          0.0, 0.0, 0.0⟩

/-- `NeuralNetV3Controller.reset`. -/
def reset (self : NeuralNetV3Controller K) : NeuralNetV3Controller K :=
  { self with lastSpeed := 0.0, lastSteer := 0.0, prevSteer := 0.0 }

variable [LT K] [DecidableLT K] [DecidableEq K] [Sub K] [Div K]

/-- The input of the network. -/
def input (m : MathLib K) (self : NeuralNetV3Controller K) (visibleCones : List (SeenCone K)) :
    List K :=
  let seen := visibleCones.foldl (collect m) ([], [])
  let inp := writeInputs m 0 ((Python.sort seen.1).take 4) (List.replicate 19 0.0)
  let inp := writeInputs m 8 ((Python.sort seen.2).take 4) inp
  let inp := inp.set 16 (self.lastSpeed / 10.0)
  let inp := inp.set 17 (self.lastSteer / 0.5)
  inp.set 18 ((self.lastSteer - self.prevSteer) / 0.5)

variable [Add K] [Mul K] [Neg K]

/-- Steer and speed from the input. -/
def out (m : MathLib K) (self : NeuralNetV3Controller K) (inp : List K) : Option (K × K) := do
  let h₁ := (← vecAdd (matmul inp self.w₁) self.b₁).map m.tanh
  let h₂ := (← vecAdd (matmul h₁ self.w₂) self.b₂).map m.tanh
  let out ← vecAdd (matmul h₂ self.w₃) self.b₃
  return (m.tanh (out.getD 0 0.0) * 0.5, 1.0 / (1.0 + m.exp (-(out.getD 1 0.0))) * 10.0)

/-- `NeuralNetV3Controller.control`; a speed that is passed is kept. -/
def control (m : MathLib K) (self : NeuralNetV3Controller K) (visibleCones : List (SeenCone K))
    (currentSpeed : Option K) : Option ((K × K) × NeuralNetV3Controller K) :=
  let self := { self with lastSpeed := currentSpeed.getD self.lastSpeed }
  (self.out m (self.input m visibleCones)).map fun r =>
    (r, { self with prevSteer := self.lastSteer, lastSteer := r.1 })

end NeuralNetV3Controller

/-- A `NeuralNetV3Controller`. -/
def neuralV3Controller {K : Type} [OfScientific K] [LT K] [DecidableLT K] [DecidableEq K] [Add K]
    [Sub K] [Mul K] [Div K] [Neg K] (m : MathLib K) : Controller (NeuralNetV3Controller K) K where
  reset self := self.reset
  wantsSpeed := true
  control self visibleCones currentSpeed := self.control m visibleCones currentSpeed

/-! ## Its genes -/

section
variable {K : Type}

/-- The arrays of two layers. -/
def Layers.arrays (net : Layers K) : List (Layer K) := [(net.w₁, net.b₁), (net.w₂, net.b₂)]

/-- The arrays of the three layers. -/
def NeuralNetV3Controller.arrays (net : NeuralNetV3Controller K) : List (Layer K) :=
  [(net.w₁, net.b₁), (net.w₂, net.b₂), (net.w₃, net.b₃)]

theorem slice_eq (g : List K) (i n : Nat) : slice g i (i + n) = (g.drop i).take n := by
  rw [slice, Nat.add_sub_cancel_left]

/-- The constructors of the smaller networks read their layers one after the other. -/
theorem layers_init_iff {i h o : Nat} {g : List K} {net : Layers K} :
    Layers.init i h o g = some net ↔ readLayers [(i, h), (h, o)] g = some net.arrays := by
  have hfirst : slice g 0 (i * h) = g.take (i * h) := by simpa using slice_eq g 0 (i * h)
  simp only [Layers.init, readLayers, slice_eq, hfirst, Option.bind_eq_some_iff,
    Option.map_eq_some_iff, Layers.arrays, List.drop_drop, Option.some.injEq]
  constructor
  · rintro ⟨w₁, hw₁, w₂, hw₂, rfl⟩
    exact ⟨w₁, hw₁, _, ⟨w₂, hw₂, [], rfl, rfl⟩, by simp [Nat.add_assoc]⟩
  · rintro ⟨w₁, hw₁, _, ⟨w₂, hw₂, rest, rfl, rfl⟩, harrays⟩
    refine ⟨w₁, hw₁, w₂, hw₂, ?_⟩
    obtain ⟨w₁', b₁', w₂', b₂'⟩ := net
    simp only [List.cons.injEq, Prod.mk.injEq] at harrays
    obtain ⟨⟨rfl, rfl⟩, ⟨rfl, rfl⟩, -⟩ := harrays
    simp [Nat.add_assoc]

theorem v3_init_iff [OfScientific K] {g : List K} {net : NeuralNetV3Controller K} :
    NeuralNetV3Controller.init g = some net ↔
      readLayers [(19, 24), (24, 12), (12, 2)] g = some net.arrays ∧ net.reset = net := by
  have hfirst : slice g 0 456 = g.take 456 := by simpa using slice_eq g 0 456
  have h₁ := slice_eq g 456 24
  have h₂ := slice_eq g 480 288
  have h₃ := slice_eq g 768 12
  have h₄ := slice_eq g 780 24
  have h₅ := slice_eq g 804 2
  simp only [Nat.reduceAdd] at h₁ h₂ h₃ h₄ h₅
  simp only [NeuralNetV3Controller.init, readLayers, Nat.reduceMul, Nat.reduceAdd, hfirst, h₁, h₂,
    h₃, h₄, h₅, Option.bind_eq_some_iff, Option.map_eq_some_iff, NeuralNetV3Controller.arrays,
    List.drop_drop, Option.some.injEq]
  constructor
  · rintro ⟨w₁, hw₁, w₂, hw₂, w₃, hw₃, rfl⟩
    exact ⟨⟨w₁, hw₁, _, ⟨w₂, hw₂, _, ⟨w₃, hw₃, [], rfl, rfl⟩, rfl⟩, rfl⟩, rfl⟩
  · rintro ⟨⟨w₁, hw₁, _, ⟨w₂, hw₂, _, ⟨w₃, hw₃, rest, rfl, rfl⟩, rfl⟩, harrays⟩, hreset⟩
    refine ⟨w₁, hw₁, w₂, hw₂, w₃, hw₃, ?_⟩
    obtain ⟨w₁', b₁', w₂', b₂', w₃', b₃', lastSpeed, lastSteer, prevSteer⟩ := net
    simp only [NeuralNetV3Controller.reset, NeuralNetV3Controller.mk.injEq, true_and] at hreset
    obtain ⟨rfl, rfl, rfl⟩ := hreset
    simp only [List.cons.injEq, Prod.mk.injEq] at harrays
    obtain ⟨⟨rfl, rfl⟩, ⟨rfl, rfl⟩, ⟨rfl, rfl⟩, -⟩ := harrays
    rfl

/-- What a constructor does with genes of the right number: it makes a network, and the one of
these sizes, fresh, that the genes are written from. -/
def ReadsGenes {Net : Type} (init : List K → Option Net) (arrays : Net → List (Layer K))
    (reset : Net → Net) (sizes : List (Nat × Nat)) (genes : List K) : Prop :=
  ∃ net, init genes = some net ∧ ∀ net', init genes = some net' ↔
    List.Forall₂ LayerFits sizes (arrays net') ∧ writeLayers (arrays net') = genes ∧
      reset net' = net'

theorem readsGenes_of_init {Net : Type} {init : List K → Option Net}
    {arrays : Net → List (Layer K)} {reset : Net → Net} {sizes : List (Nat × Nat)}
    {genes : List K} (hlen : genes.length = layersSize sizes)
    (hinit : ∀ net, init genes = some net ↔
      readLayers sizes genes = some (arrays net) ∧ reset net = net)
    (hex : ∀ layers, List.Forall₂ LayerFits sizes layers →
      ∃ net, arrays net = layers ∧ reset net = net) :
    ReadsGenes init arrays reset sizes genes := by
  obtain ⟨layers, hlayers⟩ := exists_readLayers hlen.ge
  obtain ⟨net, rfl, hreset⟩ := hex layers ((readLayers_eq_iff hlen layers).mp hlayers).1
  refine ⟨net, (hinit net).mpr ⟨hlayers, hreset⟩, fun net' => ?_⟩
  rw [hinit, readLayers_eq_iff hlen, and_assoc]

theorem exists_layers {i h o : Nat} {layers : List (Layer K)}
    (hfits : List.Forall₂ LayerFits [(i, h), (h, o)] layers) :
    ∃ net : Layers K, net.arrays = layers := by
  cases hfits with
  | @cons _ l₁ _ _ _ hrest =>
    cases hrest with
    | @cons _ l₂ _ _ _ hrest =>
      cases hrest
      exact ⟨⟨l₁.1, l₁.2, l₂.1, l₂.2⟩, rfl⟩

theorem exists_v3 [OfScientific K] {sizes : Nat × Nat} {sizes₂ sizes₃ : Nat × Nat}
    {layers : List (Layer K)} (hfits : List.Forall₂ LayerFits [sizes, sizes₂, sizes₃] layers) :
    ∃ net : NeuralNetV3Controller K, net.arrays = layers ∧ net.reset = net := by
  cases hfits with
  | @cons _ l₁ _ _ _ hrest =>
    cases hrest with
    | @cons _ l₂ _ _ _ hrest =>
      cases hrest with
      | @cons _ l₃ _ _ _ hrest =>
        cases hrest
        exact ⟨⟨l₁.1, l₁.2, l₂.1, l₂.2, l₃.1, l₃.2, 0.0, 0.0, 0.0⟩, rfl, rfl⟩

theorem v3_readsGenes [OfScientific K] {genes : List K} (hlen : genes.length = 806) :
    ReadsGenes NeuralNetV3Controller.init (·.arrays) (·.reset) [(19, 24), (24, 12), (12, 2)]
      genes :=
  readsGenes_of_init hlen (fun _ => v3_init_iff) fun _ hfits => exists_v3 hfits

/-- **Networks and genes are the same**: for each class, genes of the right number make one
network, whose arrays have the sizes of its layers and hold the genes in order, and every such
network is made from its genes. -/
theorem genes_round_trip [OfScientific K] (genes : List K) :
    (genes.length = 90 →
      ReadsGenes NeuralNetController.init (·.layers.arrays) (·.reset) [(8, 8), (8, 2)] genes) ∧
    (genes.length = 322 →
      ReadsGenes NeuralNetV2Controller.init (·.layers.arrays) (·.reset)
        [(17, 16), (16, 2)] genes) ∧
    (genes.length = 806 →
      ReadsGenes NeuralNetV3Controller.init (·.arrays) (·.reset)
        [(19, 24), (24, 12), (12, 2)] genes) := by
  refine ⟨fun hlen => ?_, fun hlen => ?_, v3_readsGenes⟩
  · refine readsGenes_of_init hlen (fun net => ?_) fun layers hfits => ?_
    · rw [NeuralNetController.init, Option.map_eq_some_iff]
      constructor
      · rintro ⟨layers, hlayers, rfl⟩
        exact ⟨layers_init_iff.mp hlayers, rfl⟩
      · rintro ⟨hlayers, -⟩
        exact ⟨net.layers, layers_init_iff.mpr hlayers, rfl⟩
    · obtain ⟨net, rfl⟩ := exists_layers hfits
      exact ⟨⟨net⟩, rfl, rfl⟩
  · refine readsGenes_of_init hlen (fun net => ?_) fun layers hfits => ?_
    · rw [NeuralNetV2Controller.init, Option.map_eq_some_iff]
      constructor
      · rintro ⟨layers, hlayers, rfl⟩
        exact ⟨layers_init_iff.mp hlayers, rfl⟩
      · rintro ⟨hlayers, hreset⟩
        exact ⟨net.layers, layers_init_iff.mpr hlayers, hreset⟩
    · obtain ⟨net, rfl⟩ := exists_layers hfits
      exact ⟨⟨net, 0.0⟩, rfl, rfl⟩

end

/-- Networks whose weights all differ. -/
theorem genes_round_trip_counted :
    ReadsGenes NeuralNetController.init (·.layers.arrays) (·.reset) [(8, 8), (8, 2)]
      (ControllersAgree.counted 90) ∧
    ReadsGenes NeuralNetV2Controller.init (·.layers.arrays) (·.reset) [(17, 16), (16, 2)]
      (ControllersAgree.counted 322) ∧
    ReadsGenes NeuralNetV3Controller.init (·.arrays) (·.reset)
      [(19, 24), (24, 12), (12, 2)] (ControllersAgree.counted 806) :=
  ⟨(genes_round_trip (ControllersAgree.counted 90)).1 (ControllersAgree.counted_length 90),
    (genes_round_trip (ControllersAgree.counted 322)).2.1 (ControllersAgree.counted_length 322),
    (genes_round_trip (ControllersAgree.counted 806)).2.2 (ControllersAgree.counted_length 806)⟩

/-! ## Its inputs -/

/-- An input in the range it is normalised to: the change of the steer may be twice the steer. -/
def Normal (inp : List ℝ) : Prop :=
  ∀ (i : Nat) (x : ℝ), inp[i]? = some x → |x| ≤ if i = 18 then 2.0 else 1

theorem Normal.set {inp : List ℝ} (h : Normal inp) {j : Nat} {x : ℝ}
    (hx : |x| ≤ if j = 18 then 2.0 else 1) : Normal (inp.set j x) := by
  intro i y hy
  rw [List.getElem?_set] at hy
  split_ifs at hy with hij hlt
  · obtain rfl := Option.some.inj hy
    exact hij ▸ hx
  · exact h i y hy

theorem normal_zero (n : Nat) : Normal (List.replicate n (0.0 : ℝ)) := by
  intro i x hx
  obtain rfl : x = 0.0 := List.eq_of_mem_replicate (List.mem_of_getElem? hx)
  split_ifs <;> norm_num

/-- A distance and an angle that are in view. -/
def InView (p : ℝ × ℝ) : Prop := |p.1 / 15.0| ≤ 1 ∧ |p.2 / MathLib.real.pi| ≤ 1

theorem Normal.writeInputs {inp : List ℝ} (h : Normal inp) (first : Nat) {cones : List (ℝ × ℝ)}
    (hcones : ∀ p ∈ cones, InView p) : Normal (writeInputs MathLib.real first cones inp) := by
  have hindexed : ∀ c ∈ cones.zipIdx, InView c.1 := fun c hc =>
    hcones c.1 (List.fst_mem_of_mem_zipIdx hc)
  unfold Sim2d.writeInputs
  generalize cones.zipIdx = indexed at hindexed
  induction indexed generalizing inp with
  | nil => exact h
  | cons c indexed ih =>
    obtain ⟨⟨hdist, hangle⟩, hrest⟩ := List.forall_mem_cons.mp hindexed
    refine ih ((h.set ?_).set ?_) hrest
    · split_ifs <;> linarith
    · split_ifs <;> linarith

/-- What is perceived without noise is under the mask. -/
theorem mask_of_perceive {state : KartState ℝ} {blue yellow orange : List (ℝ × ℝ)}
    {noiseStd dropout : ℝ} (hnoise : noiseStd ≤ 0) {draw : Nat → ℝ × ℝ × ℝ} :
    ∀ cone ∈ perceive MathLib.real state blue yellow orange noiseStd dropout draw,
      mask MathLib.real (cone.x, cone.y) = true := by
  intro cone hcone
  obtain ⟨c, hc, hcone⟩ := List.mem_filterMap.mp hcone
  have hquiet : ¬ 0.0 < noiseStd := by
    norm_num
    exact hnoise
  obtain ⟨class', -, hclass⟩ := List.mem_flatMap.mp (List.fst_mem_of_mem_zipIdx hc)
  obtain ⟨p, hp, hpair⟩ := List.mem_map.mp hclass
  have hmask := (List.mem_filter.mp hp).2
  rw [if_neg hquiet] at hcone
  split_ifs at hcone
  obtain rfl := Option.some.inj hcone
  rw [← hpair]
  exact hmask

theorem inView_of_mask {p : ℝ × ℝ} (h : mask MathLib.real p = true) :
    InView (MathLib.real.hypot p.1 p.2, MathLib.real.atan2 p.2 p.1) := by
  obtain ⟨hlo, hhi, hview⟩ := (mask_iff p).mp h
  have hpi := Real.pi_pos
  constructor
  · show |√(p.1 * p.1 + p.2 * p.2) / 15.0| ≤ 1
    rw [abs_of_nonneg (by positivity), div_le_one (by norm_num)]
    norm_num
    exact hhi
  · show |Complex.arg ⟨p.1, p.2⟩ / Real.pi| ≤ 1
    rw [abs_div, abs_of_pos hpi, div_le_one hpi]
    linarith

/-- The inputs of the network are in range if its memory is. -/
theorem normal_input {net : NeuralNetV3Controller ℝ} {cones : List (SeenCone ℝ)}
    (hcones : ∀ cone ∈ cones, mask MathLib.real (cone.x, cone.y) = true)
    (hspeed : |net.lastSpeed| ≤ 10) (hlast : |net.lastSteer| ≤ 1 / 2)
    (hprev : |net.prevSteer| ≤ 1 / 2) : Normal (net.input MathLib.real cones) := by
  have hside : ∀ classId, ∀ p ∈ (Python.sort (PipelinesAgree.sideCones MathLib.real classId
      cones)).take 4, InView p := by
    intro classId p hp
    obtain ⟨cone, hcone, rfl⟩ := List.mem_map.mp
      ((List.mergeSort_perm _ _).mem_iff.mp (List.mem_of_mem_take hp))
    exact inView_of_mask (hcones cone (List.mem_filter.mp hcone).1)
  simp only [NeuralNetV3Controller.input, PipelinesAgree.collect_foldl, List.nil_append]
  refine (((((normal_zero 19).writeInputs 0 (hside _)).writeInputs 8 (hside _)).set ?_).set
    ?_).set ?_
  · rw [abs_div, if_neg (by decide), div_le_one (by norm_num)]
    norm_num
    exact hspeed
  · rw [abs_div, if_neg (by decide), div_le_one (by norm_num)]
    norm_num
    linarith
  · have hdiff := abs_sub net.lastSteer net.prevSteer
    rw [abs_div, if_pos rfl, div_le_iff₀ (by norm_num)]
    norm_num
    linarith

/-! ## Its memory -/

/-- What the network commands the kart can do. -/
theorem out_within {net : NeuralNetV3Controller ℝ} {inp : List ℝ} {r : ℝ × ℝ}
    (h : net.out MathLib.real inp = some r) : |r.1| < 1 / 2 ∧ 0 < r.2 ∧ r.2 < 10 := by
  simp only [NeuralNetV3Controller.out, Option.bind_eq_bind, Option.bind_eq_some_iff] at h
  obtain ⟨h₁, -, h₂, -, out, -, hr⟩ := h
  obtain rfl := Option.some.inj hr
  generalize out.getD 0 0.0 = steer
  generalize out.getD 1 0.0 = speed
  have htanh := Real.abs_tanh_lt_one steer
  have hexp := Real.exp_pos (-speed)
  refine ⟨?_, ?_, ?_⟩
  · show |Real.tanh steer * 0.5| < 1 / 2
    rw [abs_mul]
    norm_num
    linarith
  · show 0 < 1.0 / (1.0 + Real.exp (-speed)) * 10.0
    positivity
  · have hlt : 1.0 / (1.0 + Real.exp (-speed)) < 1 := by
      rw [div_lt_one (by positivity)]
      norm_num
      exact hexp
    show 1.0 / (1.0 + Real.exp (-speed)) * 10.0 < 10
    norm_num at hlt ⊢
    linarith

/-- What the network remembers of a pass with these draws. -/
structure Retains (tan : ℝ → ℝ) (noiseStd dropout : ℝ) (track : Track ℝ) (draw : StepDraws ℝ)
    (e e' : EpisodeState (NeuralNetV3Controller ℝ) ℝ) : Prop where
  lastSpeed : e'.controller.lastSpeed = e.state.speed
  /-- The steer that is remembered is the one commanded, and drives the kart. -/
  lastSteer : ∃ speedCmd, (commanded MathLib.real (neuralV3Controller MathLib.real) noiseStd
      dropout track e draw).map Prod.fst = some (e'.controller.lastSteer, speedCmd) ∧
    e'.state = kartStep MathLib.real tan e.state e'.controller.lastSteer speedCmd
  /-- The kart can do what it is commanded. -/
  unclipped : clip e'.controller.lastSteer (-maxSteer) maxSteer = e'.controller.lastSteer
  prevSteer : e'.controller.prevSteer = e.controller.lastSteer

/-- What holds of kart and network after each pass. -/
structure InRange (e : EpisodeState (NeuralNetV3Controller ℝ) ℝ) : Prop where
  speed : 0 ≤ e.state.speed ∧ e.state.speed ≤ 10
  lastSteer : |e.controller.lastSteer| ≤ 1 / 2
  prevSteer : |e.controller.prevSteer| ≤ 1 / 2

section
variable {tan : ℝ → ℝ} {track : Track ℝ} {noiseStd dropout : ℝ}

theorem clip_steer {steer : ℝ} (h : |steer| < 1 / 2) : clip steer (-maxSteer) maxSteer = steer := by
  obtain ⟨hlow, hhigh⟩ := abs_lt.mp h
  have hmax : (maxSteer : ℝ) = 1 / 2 := by norm_num [maxSteer]
  rw [clip, python_max, python_min, hmax, max_eq_left hlow.le, min_eq_left hhigh.le]

/-- **One pass.** -/
theorem retains_of_episodeStep {e e' : EpisodeState (NeuralNetV3Controller ℝ) ℝ}
    {draw : StepDraws ℝ} {outside : Bool}
    (h : episodeStep MathLib.real tan (neuralV3Controller MathLib.real) noiseStd dropout track e
      draw = some (e', outside)) :
    Retains tan noiseStd dropout track draw e e' ∧ (InRange e → InRange e') := by
  obtain ⟨r, hr, hstate, hcontroller⟩ := driven_of_episodeStep h
  obtain ⟨out, hout, rfl⟩ := Option.map_eq_some_iff.mp hr
  have hsteer := (out_within hout).1
  refine ⟨⟨?_, ⟨out.2, ?_, ?_⟩, ?_, ?_⟩, fun he => ⟨?_, ?_, ?_⟩⟩
  · rw [hcontroller]
    rfl
  · rw [hr, hcontroller]
    rfl
  · rw [hstate, hcontroller]
  · rw [hcontroller]
    exact clip_steer hsteer
  · rw [hcontroller]
  · rw [hstate]
    exact kartStep_speed _ _ _ _ _
  · rw [hcontroller]
    exact hsteer.le
  · rw [hcontroller]
    exact he.lastSteer

/-- **Every pass of the loop** keeps kart and network in range. -/
theorem inRange_of_episodeLoop {e : EpisodeState (NeuralNetV3Controller ℝ) ℝ}
    {draws : List (StepDraws ℝ)} {es : List (EpisodeState (NeuralNetV3Controller ℝ) ℝ)}
    (he : InRange e)
    (h : episodeLoop MathLib.real tan (neuralV3Controller MathLib.real) noiseStd dropout track e
      draws = some es) : ∀ e' ∈ e :: es, InRange e' := by
  have hall : ∀ (i : Nat) (e' : EpisodeState (NeuralNetV3Controller ℝ) ℝ),
      (e :: es)[i]? = some e' → InRange e' := by
    intro i
    induction i with
    | zero =>
      intro e' he'
      obtain rfl := Option.some.inj he'
      exact he
    | succ i ih =>
      intro e' he'
      obtain ⟨hlt, -⟩ := List.getElem?_eq_some_iff.mp he'
      have hbefore := List.getElem?_eq_getElem (Nat.lt_of_succ_lt hlt)
      obtain ⟨draw, -, outside, hstep⟩ := episodeLoop_pass h hbefore he'
      exact (retains_of_episodeStep hstep).2 (ih _ hbefore)
  intro e' he'
  obtain ⟨i, hi⟩ := List.getElem?_of_mem he'
  exact hall i e' hi

/-- **The network remembers what the kart did**, in every episode, whatever its genes: after each
step the speed before it and the angle the kart was steered by, and the angle of the step before.
Without noise all its inputs are in the range they are normalised to. -/
theorem memory_of_episode {inf : ℝ} {settings : Settings (Track ℝ) ℝ}
    {controller : NeuralNetV3Controller ℝ} {draws : Nat → StepDraws ℝ}
    {es : List (EpisodeState (NeuralNetV3Controller ℝ) ℝ)}
    (h : episodeStates MathLib.real tan (neuralV3Controller MathLib.real) inf settings controller
      draws = some es) :
    (∀ e ∈ es.head?, e.controller.lastSpeed = 0 ∧ e.controller.lastSteer = 0 ∧
      e.controller.prevSteer = 0) ∧
    (∀ (i : Nat) (e e' : EpisodeState (NeuralNetV3Controller ℝ) ℝ), es[i]? = some e →
      es[i + 1]? = some e' → Retains tan settings.noiseStd settings.dropout settings.track
        (draws i) e e') ∧
    (settings.noiseStd ≤ 0 → ∀ e ∈ es, ∀ draw,
      Normal (({ e.controller with lastSpeed := e.state.speed } :
        NeuralNetV3Controller ℝ).input MathLib.real (perceive MathLib.real e.state
          settings.track.blueCones settings.track.yellowCones settings.track.orangeCones
          settings.noiseStd settings.dropout draw))) := by
  obtain ⟨e, es, hstart, hloop, rfl⟩ := episodeStates_eq h
  have hzero : (0.0 : ℝ) = 0 := by norm_num
  have hfresh : |(0.0 : ℝ)| ≤ 1 / 2 := by norm_num
  obtain ⟨sPrev, -, rfl⟩ := startEpisode_eq hstart
  refine ⟨fun e' he' => ?_, fun i e₁ e₂ h₁ h₂ => ?_, fun hnoise e' he' draw => ?_⟩
  · obtain rfl := Option.some.inj he'
    exact ⟨hzero, hzero, hzero⟩
  · obtain ⟨draw, hdraw, outside, hstep⟩ := episodeLoop_pass hloop h₁ h₂
    rw [List.getElem?_map] at hdraw
    obtain ⟨k, hk, rfl⟩ := Option.map_eq_some_iff.mp hdraw
    obtain ⟨hlt, rfl⟩ := List.getElem?_eq_some_iff.mp hk
    rw [List.getElem_range] at hstep
    exact (retains_of_episodeStep hstep).1
  · obtain ⟨⟨hlow, hhigh⟩, hlast, hprev⟩ :=
      inRange_of_episodeLoop ⟨⟨hzero.ge, by norm_num⟩, hfresh, hfresh⟩ hloop e' he'
    exact normal_input (mask_of_perceive hnoise) (abs_le.mpr ⟨by linarith, hhigh⟩) hlast hprev

end

/-! ## A network that steers -/

/-- The network has a bias for each column of its weights. -/
structure NeuralNetV3Controller.Fits {K : Type} (net : NeuralNetV3Controller K) : Prop where
  first : net.w₁.cols = net.b₁.length
  second : net.w₂.cols = net.b₂.length
  third : net.w₃.cols = net.b₃.length

theorem fits_of_init {K : Type} [OfScientific K] {genes : List K} (hlen : genes.length = 806)
    {net : NeuralNetV3Controller K} (h : NeuralNetV3Controller.init genes = some net) :
    net.Fits := by
  obtain ⟨hfits, -⟩ := (readLayers_eq_iff hlen _).mp (v3_init_iff.mp h).1
  cases hfits with
  | cons h₁ hrest =>
    cases hrest with
    | cons h₂ hrest =>
      cases hrest with
      | cons h₃ _ =>
        exact ⟨h₁.1.1.trans h₁.2.symm, h₂.1.1.trans h₂.2.symm, h₃.1.1.trans h₃.2.symm⟩

/-- Such a network answers. -/
theorem neuralV3Controller_answers (m : MathLib ℝ) :
    Answers (neuralV3Controller m) NeuralNetV3Controller.Fits := by
  refine ⟨fun net hnet => ⟨hnet.first, hnet.second, hnet.third⟩, fun net cones speed hnet => ?_⟩
  let self : NeuralNetV3Controller ℝ := { net with lastSpeed := speed.getD net.lastSpeed }
  obtain ⟨sum₁, hsum₁⟩ := exists_vecAdd (self.input m cones) hnet.first
  obtain ⟨sum₂, hsum₂⟩ := exists_vecAdd (sum₁.map m.tanh) hnet.second
  obtain ⟨sum₃, hsum₃⟩ := exists_vecAdd (sum₂.map m.tanh) hnet.third
  have hout : ∃ r, self.out m (self.input m cones) = some r := by
    simp only [NeuralNetV3Controller.out, self] at hsum₁ ⊢
    simp only [hsum₁, hsum₂, hsum₃, Option.bind_eq_bind, Option.bind_some]
    exact ⟨_, rfl⟩
  obtain ⟨r, hr⟩ := hout
  exact ⟨_, congrArg (Option.map _) hr, hnet.first, hnet.second, hnet.third⟩

/-- The genes of a network whose last layer has a bias to the left and no weights. -/
noncomputable def leftGenes : List ℝ :=
  ControllersAgree.counted 780 ++ List.replicate 24 0 ++ [1, 0]

theorem leftGenes_length : leftGenes.length = 806 := by
  simp [leftGenes, ControllersAgree.counted_length]

/-- Its last layer. -/
theorem lastLayer_of_leftGenes {net : NeuralNetV3Controller ℝ}
    (h : NeuralNetV3Controller.init leftGenes = some net) :
    net.w₃.cols = 2 ∧ (∀ row ∈ net.w₃.rows, ∀ w ∈ row, w = 0) ∧ net.b₃ = [1, 0] := by
  have hweights : slice leftGenes 780 (780 + 24) = List.replicate 24 0 := by
    rw [slice_eq, leftGenes, List.append_assoc,
      List.drop_left' (ControllersAgree.counted_length 780), List.take_left' (by simp)]
  have hbias : slice leftGenes 804 (804 + 2) = [1, 0] := by
    have hlen : (ControllersAgree.counted 780 ++ List.replicate 24 (0 : ℝ)).length = 804 := by
      rw [List.length_append, ControllersAgree.counted_length, List.length_replicate]
    have hdrop : leftGenes.drop 804 = [1, 0] := List.drop_left' hlen
    rw [slice_eq, hdrop]
    rfl
  simp only [NeuralNetV3Controller.init, Nat.reduceMul, Nat.reduceAdd, Option.bind_eq_some_iff,
    Option.map_eq_some_iff] at h hweights hbias
  obtain ⟨w₁, -, w₂, -, w₃, hw₃, rfl⟩ := h
  dsimp only
  refine ⟨cols_of_reshape hw₃, fun row hrow w hw => ?_, hbias⟩
  have hmem : w ∈ w₃.rows.flatten := List.mem_flatten.mpr ⟨row, hrow, hw⟩
  rw [(flatten_of_reshape hw₃).2, hweights] at hmem
  exact List.eq_of_mem_replicate hmem

/-- Weights of zero add nothing. -/
theorem foldl_weightless {rows : List (List ℝ)} (h : ∀ row ∈ rows, ∀ w ∈ row, w = 0) (j : Nat)
    (x : List ℝ) (acc : ℝ) :
    (List.zipWith (fun xi row => xi * row.getD j 0.0) x rows).foldl (· + ·) acc = acc := by
  induction rows generalizing x acc with
  | nil => simp
  | cons row rows ih =>
    obtain ⟨hrow, hrest⟩ := List.forall_mem_cons.mp h
    have hweight : row.getD j 0.0 = 0 := by
      rw [List.getD_eq_getElem?_getD]
      cases hj : row[j]? with
      | none => norm_num
      | some w => exact hrow w (List.mem_of_getElem? hj)
    cases x with
    | nil => rfl
    | cons xi x =>
      rw [List.zipWith_cons_cons, List.foldl_cons, hweight, mul_zero, add_zero, ih hrest]

/-- It steers to the left, whatever it sees. -/
theorem out_of_leftGenes {net : NeuralNetV3Controller ℝ}
    (h : NeuralNetV3Controller.init leftGenes = some net) {inp : List ℝ} {r : ℝ × ℝ}
    (hr : net.out MathLib.real inp = some r) : r.1 = Real.tanh 1 * 0.5 := by
  obtain ⟨hcols, hrows, hbias⟩ := lastLayer_of_leftGenes h
  simp only [NeuralNetV3Controller.out, Option.bind_eq_bind, Option.bind_eq_some_iff] at hr
  obtain ⟨sum₁, -, sum₂, -, out, hout, hr⟩ := hr
  obtain rfl := Option.some.inj hr
  have hmatmul : ∀ x, matmul x net.w₃ = [0.0, 0.0] := fun x => by
    simp only [matmul, hcols, foldl_weightless hrows]
    rfl
  rw [hmatmul, hbias] at hout
  obtain rfl : [(0.0 : ℝ) + 1, 0.0 + 0] = out := Option.some.inj hout
  show Real.tanh (0.0 + 1) * 0.5 = _
  norm_num

/-- The network of these genes on the square: it steers from the first step on. -/
theorem memory_of_episode_left :
    ∃ net e e' es, NeuralNetV3Controller.init leftGenes = some net ∧
      episodeStates MathLib.real Real.tan (neuralV3Controller MathLib.real) 100
        ⟨squareTrack, 2000, 0, 0⟩ net (fun _ _ => 0) = some (e :: e' :: es) ∧
      e'.controller.lastSteer = Real.tanh 1 * 0.5 ∧ 0 < e'.controller.lastSteer ∧
      (e.controller.lastSpeed = 0 ∧ e.controller.lastSteer = 0 ∧ e.controller.prevSteer = 0) ∧
      (∀ (i : Nat) (a b : EpisodeState (NeuralNetV3Controller ℝ) ℝ),
        (e :: e' :: es)[i]? = some a → (e :: e' :: es)[i + 1]? = some b →
          Retains Real.tan 0 0 squareTrack (fun _ => 0) a b) ∧
      ∀ a ∈ e :: e' :: es, ∀ draw, Normal (({ a.controller with lastSpeed := a.state.speed } :
        NeuralNetV3Controller ℝ).input MathLib.real (perceive MathLib.real a.state
          squareTrack.blueCones squareTrack.yellowCones squareTrack.orangeCones 0 0 draw)) := by
  obtain ⟨net, hnet, -⟩ := v3_readsGenes leftGenes_length
  obtain ⟨r, hr⟩ := exists_runEpisode_square (neuralV3Controller_answers MathLib.real)
    (fits_of_init leftGenes_length hnet) .v6
  obtain ⟨states, hstates, -⟩ := Option.bind_eq_some_iff.mp hr
  obtain ⟨hfresh, hretains, hnormal⟩ := memory_of_episode hstates
  obtain ⟨e, passes, hstart, hloop, rfl⟩ := episodeStates_eq hstates
  cases passes with
  | nil =>
    have hends := episodeLoop_ends hloop
    rw [List.length_map, List.length_range] at hends
    obtain ⟨last, hlast, -⟩ := hends.short (by decide)
    cases hlast
  | cons e' es =>
    have hfirst : e.controller = net.reset := by
      obtain ⟨sPrev, -, rfl⟩ := startEpisode_eq hstart
      rfl
    have hreset : net.reset = net := (v3_init_iff.mp hnet).2
    obtain ⟨speedCmd, hcommanded, -⟩ := (hretains 0 e e' rfl rfl).lastSteer
    obtain ⟨r, hr, hsteer⟩ := Option.map_eq_some_iff.mp hcommanded
    obtain ⟨out, hout, rfl⟩ := Option.map_eq_some_iff.mp hr
    have hleft : e'.controller.lastSteer = Real.tanh 1 * 0.5 := by
      rw [hfirst, hreset] at hout
      exact (congrArg Prod.fst hsteer).symm.trans (out_of_leftGenes hnet hout)
    have hpos : 0 < Real.tanh 1 * 0.5 := by
      rw [Real.tanh_eq_sinh_div_cosh]
      have hsinh := Real.sinh_pos_iff.mpr one_pos
      have hcosh := Real.cosh_pos 1
      positivity
    exact ⟨net, e, e', es, hnet, hstates, hleft, hleft ▸ hpos, hfresh e rfl, hretains,
      hnormal le_rfl⟩

end KartStack.Sim2d
