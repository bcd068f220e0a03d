import KartStack.SimControllers

/-! # Genes and weights

A controller with a network is made from a vector of genes, which holds the weights and the
biases of one layer after the other.  Such a vector is read back from the layers it makes, and
layers of the right sizes are read from the vector they are written to (`readLayers_eq_iff`), so
that no gene is read twice, and none is left out.  The constructors of the three networks read
their genes in this way.
-/
namespace KartStack.Python
variable {K : Type}

/-! ## Arrays -/

/-- An array with this many rows and columns. -/
def Array2.Shaped (a : Array2 K) (rows cols : Nat) : Prop :=
  a.cols = cols ∧ a.rows.length = rows ∧ ∀ row ∈ a.rows, row.length = cols

/-- The first rows, one after the other. -/
theorem flatten_slices (xs : List K) (rows cols : Nat) :
    ((List.range rows).map fun i => slice xs (i * cols) (i * cols + cols)).flatten =
      xs.take (rows * cols) := by
  induction rows with
  | zero => simp
  | succ rows ih =>
    rw [List.range_succ, List.map_append, List.flatten_append, ih, List.map_singleton,
      List.flatten_singleton, slice, Nat.add_sub_cancel_left, Nat.succ_mul]
    exact (List.take_add ..).symm

theorem flatten_of_reshape {rows cols : Nat} {xs : List K} {a : Array2 K}
    (h : reshape rows cols xs = some a) : a.Shaped rows cols ∧ a.rows.flatten = xs := by
  unfold reshape at h
  split at h
  · obtain rfl := Option.some.inj h
    refine ⟨⟨rfl, by simp, fun row hrow => ?_⟩, ?_⟩
    · obtain ⟨i, hi, rfl⟩ := List.mem_map.mp hrow
      have hle : i * cols + cols ≤ xs.length := by
        rw [‹xs.length = rows * cols›, ← Nat.succ_mul]
        exact Nat.mul_le_mul_right cols (List.mem_range.mp hi)
      rw [slice_length hle, Nat.add_sub_cancel_left]
    · rw [flatten_slices]
      exact List.take_of_length_le (by omega)
  · cases h

theorem slice_flatten {rows : List (List K)} {cols : Nat} (h : ∀ row ∈ rows, row.length = cols)
    {i : Nat} (hi : i < rows.length) :
    slice rows.flatten (i * cols) (i * cols + cols) = rows[i] := by
  induction rows generalizing i with
  | nil => exact absurd hi (Nat.not_lt_zero i)
  | cons row rows ih =>
    obtain ⟨hrow, hrest⟩ := List.forall_mem_cons.mp h
    cases i with
    | zero => simp [slice, ← hrow]
    | succ i =>
      have hdrop : (row ++ rows.flatten).drop ((i + 1) * cols) =
          rows.flatten.drop (i * cols) := by
        rw [Nat.succ_mul, Nat.add_comm, ← hrow, List.drop_append]
        simp
      rw [List.getElem_cons_succ, ← ih hrest (Nat.lt_of_succ_lt_succ hi), slice, slice,
        Nat.add_sub_cancel_left, Nat.add_sub_cancel_left, List.flatten_cons, hdrop]

theorem reshape_flatten {rows cols : Nat} {a : Array2 K} (h : a.Shaped rows cols) :
    reshape rows cols a.rows.flatten = some a := by
  obtain ⟨rfl, rfl, hrows⟩ := h
  have hlen : a.rows.flatten.length = a.rows.length * a.cols := by
    rw [List.length_flatten, List.map_congr_left hrows, List.map_const', List.sum_replicate,
      smul_eq_mul]
  rw [reshape, if_pos hlen]
  congr 1
  have hall : ((List.range a.rows.length).map fun i =>
      slice a.rows.flatten (i * a.cols) (i * a.cols + a.cols)) = a.rows := by
    refine List.ext_getElem (by simp) fun i h₁ h₂ => ?_
    rw [List.getElem_map, List.getElem_range, slice_flatten hrows h₂]
  rw [hall]

/-! ## Layers -/

/-- Weights and biases. -/
abbrev Layer (K : Type) := Array2 K × List K

/-- The layers in a vector, by the numbers of their inputs and outputs. -/
def readLayers : List (Nat × Nat) → List K → Option (List (Layer K))
  | [], _ => some []
  | (n, k) :: sizes, g =>
    (reshape n k (g.take (n * k))).bind fun w =>
      (readLayers sizes (g.drop (n * k + k))).map fun layers =>
        (w, (g.drop (n * k)).take k) :: layers

/-- The vector of layers. -/
def writeLayers (layers : List (Layer K)) : List K :=
  layers.flatMap fun layer => layer.1.rows.flatten ++ layer.2

/-- How many numbers the layers hold. -/
def layersSize (sizes : List (Nat × Nat)) : Nat := (sizes.map fun (n, k) => n * k + k).sum

/-- A layer of this size. -/
def LayerFits (size : Nat × Nat) (layer : Layer K) : Prop :=
  layer.1.Shaped size.1 size.2 ∧ layer.2.length = size.2

theorem LayerFits.length {size : Nat × Nat} {layer : Layer K} (h : LayerFits size layer) :
    layer.1.rows.flatten.length = size.1 * size.2 := by
  obtain ⟨⟨-, hrows, hcols⟩, -⟩ := h
  rw [List.length_flatten, List.map_congr_left hcols, List.map_const', List.sum_replicate,
    smul_eq_mul, hrows]

theorem readLayers_writeLayers {sizes : List (Nat × Nat)} {layers : List (Layer K)}
    (h : List.Forall₂ LayerFits sizes layers) :
    readLayers sizes (writeLayers layers) = some layers := by
  induction h with
  | nil => rfl
  | @cons size layer sizes layers hfits _ ih =>
    obtain ⟨n, k⟩ := size
    obtain ⟨w, b⟩ := layer
    have hw : w.rows.flatten.length = n * k := hfits.length
    have hb : b.length = k := hfits.2
    have htake : (w.rows.flatten ++ b ++ writeLayers layers).take (n * k) = w.rows.flatten := by
      rw [List.append_assoc, List.take_left' hw]
    have hbias : ((w.rows.flatten ++ b ++ writeLayers layers).drop (n * k)).take k = b := by
      rw [List.append_assoc, List.drop_left' hw, List.take_left' hb]
    have hrest : (w.rows.flatten ++ b ++ writeLayers layers).drop (n * k + k) =
        writeLayers layers :=
      List.drop_left' (by rw [List.length_append, hw, hb])
    show readLayers ((n, k) :: sizes) (w.rows.flatten ++ b ++ writeLayers layers) = _
    rw [readLayers, htake, hbias, hrest, reshape_flatten hfits.1, Option.bind_some, ih,
      Option.map_some]

theorem writeLayers_readLayers {sizes : List (Nat × Nat)} {g : List K} {layers : List (Layer K)}
    (hlen : g.length = layersSize sizes) (h : readLayers sizes g = some layers) :
    List.Forall₂ LayerFits sizes layers ∧ writeLayers layers = g := by
  induction sizes generalizing g layers with
  | nil =>
    obtain rfl := Option.some.inj h
    exact ⟨.nil, (List.eq_nil_of_length_eq_zero hlen).symm⟩
  | cons size sizes ih =>
    obtain ⟨n, k⟩ := size
    have hsize : g.length = n * k + k + layersSize sizes := hlen
    obtain ⟨w, hw, hrest⟩ := Option.bind_eq_some_iff.mp h
    obtain ⟨rest, hread, rfl⟩ := Option.map_eq_some_iff.mp hrest
    obtain ⟨hshape, hflat⟩ := flatten_of_reshape hw
    obtain ⟨hfits, hwrite⟩ := ih (by rw [List.length_drop]; omega) hread
    refine ⟨.cons ⟨hshape, ?_⟩ hfits, ?_⟩
    · rw [List.length_take, List.length_drop]
      exact min_eq_left (by omega)
    · show w.rows.flatten ++ (g.drop (n * k)).take k ++ writeLayers rest = g
      rw [hflat, hwrite, ← List.drop_drop, List.append_assoc, List.take_append_drop,
        List.take_append_drop]

/-- A vector that is long enough can be read. -/
theorem exists_readLayers {sizes : List (Nat × Nat)} {g : List K}
    (h : layersSize sizes ≤ g.length) : ∃ layers, readLayers sizes g = some layers := by
  induction sizes generalizing g with
  | nil => exact ⟨[], rfl⟩
  | cons size sizes ih =>
    obtain ⟨n, k⟩ := size
    have hsize : n * k + k + layersSize sizes ≤ g.length := h
    obtain ⟨w, hw⟩ : ∃ w, reshape n k (g.take (n * k)) = some w :=
      ⟨_, if_pos (by rw [List.length_take]; omega)⟩
    obtain ⟨layers, hlayers⟩ := ih (g := g.drop (n * k + k)) (by rw [List.length_drop]; omega)
    exact ⟨(w, (g.drop (n * k)).take k) :: layers, by rw [readLayers, hw, Option.bind_some,
      hlayers, Option.map_some]⟩

/-- **Vectors and layers of these sizes are the same**: each is read from the other. -/
theorem readLayers_eq_iff {sizes : List (Nat × Nat)} {g : List K}
    (hlen : g.length = layersSize sizes) (layers : List (Layer K)) :
    readLayers sizes g = some layers ↔
      List.Forall₂ LayerFits sizes layers ∧ writeLayers layers = g := by
  constructor
  · exact writeLayers_readLayers hlen
  · rintro ⟨hfits, rfl⟩
    exact readLayers_writeLayers hfits

end KartStack.Python
