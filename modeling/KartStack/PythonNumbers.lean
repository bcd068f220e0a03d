import Mathlib.Analysis.SpecialFunctions.Complex.Arg
import Mathlib.Analysis.SpecialFunctions.Trigonometric.DerivHyp

/-! # Numbers in Python

The functions of `math` and `numpy` that the programs call, over any type of
numbers: a program that uses no law of arithmetic can be read over floats as well as
over the reals.  `MathLib.real` is the exact one.

Arrays are lists, and a two-dimensional one is the list of its rows; `reshape` fails
where the sizes do not fit, as it raises in `numpy`.
-/
namespace KartStack.Python

/-- `math`, as far as it is used. -/
structure MathLib (K : Type) where
  pi : K
  cos : K → K
  sin : K → K
  sqrt : K → K
  tanh : K → K
  exp : K → K
  hypot : K → K → K
  atan2 : K → K → K

/-- `math` over the reals. -/
noncomputable def MathLib.real : MathLib ℝ where
  pi := Real.pi
  cos := Real.cos
  sin := Real.sin
  sqrt := Real.sqrt
  tanh := Real.tanh
  exp := Real.exp
  hypot x y := Real.sqrt (x * x + y * y)
  atan2 y x := Complex.arg ⟨x, y⟩

section
variable {K : Type}

section
variable [LT K] [DecidableLT K]

/-- `max(a, b)`: the first argument, unless the second is greater. -/
protected def max (a b : K) : K := if a < b then b else a

/-- `min(a, b)`: the first argument, unless the second is smaller. -/
protected def min (a b : K) : K := if b < a then b else a

/-- `np.clip(x, lo, hi)`. -/
def clip (x lo hi : K) : K := Python.min (Python.max x lo) hi

/-- `abs`. -/
protected def abs [Neg K] [OfScientific K] (a : K) : K := if a < 0.0 then -a else a

variable [DecidableEq K]

/-- A pair is smaller than another at the first place where they differ. -/
def pairLt (a b : K × K) : Bool := if a.1 = b.1 then a.2 < b.2 else a.1 < b.1

/-- `list.sort` of pairs. -/
protected def sort (xs : List (K × K)) : List (K × K) := xs.mergeSort fun a b => !pairLt b a

end

/-- `sum(xs)`. -/
protected def sum [Zero K] [Add K] (xs : List K) : K := xs.foldl (· + ·) 0

/-- `sum(xs) / len(xs)`. -/
def mean [Zero K] [Add K] [Div K] [NatCast K] (xs : List K) : K := Python.sum xs / xs.length

/-- `np.argmax(xs)`: the first place of a greatest entry.  An empty array has none. -/
def argmax [LT K] [DecidableLT K] (xs : List K) : Option Nat :=
  match xs.zipIdx with
  | [] => none
  | p :: ps => some (ps.foldl (fun best q => if best.1 < q.1 then q else best) p).2

/-- `np.argmin(xs)`: the first place of a least entry.  An empty array has none. -/
def argmin [LT K] [DecidableLT K] (xs : List K) : Option Nat :=
  match xs.zipIdx with
  | [] => none
  | p :: ps => some (ps.foldl (fun best q => if q.1 < best.1 then q else best) p).2

/-- `math.radians`. -/
def radians [Mul K] [Div K] [OfScientific K] (m : MathLib K) (x : K) : K := x * (m.pi / 180.0)

/-! ## Arrays -/

/-- An array with two dimensions. -/
structure Array2 (K : Type) where
  cols : Nat
  rows : List (List K)
  deriving DecidableEq, Repr

/-- `xs[i:j]`. -/
def slice (xs : List K) (i j : Nat) : List K := (xs.drop i).take (j - i)

/-- `reshape(rows, cols)`. -/
def reshape (rows cols : Nat) (xs : List K) : Option (Array2 K) :=
  if xs.length = rows * cols then
    some ⟨cols, (List.range rows).map fun i => slice xs (i * cols) (i * cols + cols)⟩
  else none

theorem slice_length {xs : List K} {i j : Nat} (h : j ≤ xs.length) :
    (slice xs i j).length = j - i := by
  rw [slice, List.length_take, List.length_drop]
  omega

/-- What is in a slice. -/
theorem mem_slice {xs : List K} {i j : Nat} {a : K} :
    a ∈ slice xs i j ↔ ∃ n, i ≤ n ∧ n < j ∧ xs[n]? = some a := by
  rw [slice, List.mem_iff_getElem?]
  constructor
  · rintro ⟨n, hn⟩
    rw [List.getElem?_take] at hn
    split at hn
    · rw [List.getElem?_drop] at hn
      exact ⟨i + n, by omega, by omega, hn⟩
    · cases hn
  · rintro ⟨n, hi, hj, hn⟩
    refine ⟨n - i, ?_⟩
    rw [List.getElem?_take_of_lt (by omega), List.getElem?_drop, Nat.add_sub_cancel' hi, hn]

/-- A slice of the right length can be reshaped. -/
theorem reshape_slice {xs : List K} (i j : Nat) {rows cols : Nat} (h : j ≤ xs.length)
    (hn : j - i = rows * cols) : ∃ a, reshape rows cols (slice xs i j) = some a :=
  ⟨_, if_pos ((slice_length h).trans hn)⟩

variable [Add K] [Mul K] [OfScientific K]

/-- `x @ a` of a vector and an array. -/
def matmul (x : List K) (a : Array2 K) : List K :=
  (List.range a.cols).map fun j =>
    (List.zipWith (fun xi row => xi * row.getD j 0.0) x a.rows).foldl (· + ·) 0.0

/-- `x + y` of vectors.  One of a single entry is added to every entry of the other, and
vectors whose lengths differ otherwise are a `ValueError`. -/
def vecAdd (x y : List K) : Option (List K) :=
  if x.length = y.length then some (List.zipWith (· + ·) x y)
  else match x, y with
    | [a], y => some (y.map (a + ·))
    | x, [b] => some (x.map (· + b))
    | _, _ => none

omit [Add K] [Mul K] [OfScientific K] in
theorem cols_of_reshape {rows cols : Nat} {xs : List K} {a : Array2 K}
    (h : reshape rows cols xs = some a) : a.cols = cols := by
  unfold reshape at h
  split at h
  · obtain rfl := Option.some.inj h
    rfl
  · cases h

/-- As many sums as columns can be taken. -/
theorem exists_vecAdd (x : List K) {a : Array2 K} {b : List K} (h : a.cols = b.length) :
    ∃ sum, vecAdd (matmul x a) b = some sum :=
  ⟨_, if_pos (by rw [matmul, List.length_map, List.length_range, h])⟩

end

/-! ## Exact arithmetic -/

section
variable {K : Type} [Field K] [LinearOrder K] [IsStrictOrderedRing K]

omit [Field K] [IsStrictOrderedRing K] in
theorem python_max (a b : K) : Python.max a b = max a b := by
  unfold Python.max
  split <;> rename_i h
  · exact (max_eq_right h.le).symm
  · exact (max_eq_left (not_lt.mp h)).symm

omit [Field K] [IsStrictOrderedRing K] in
theorem python_min (a b : K) : Python.min a b = min a b := by
  unfold Python.min
  split <;> rename_i h
  · exact (min_eq_right h.le).symm
  · exact (min_eq_left (not_lt.mp h)).symm

theorem python_abs (a : K) : Python.abs a = |a| := by
  have hzero : (0.0 : K) = 0 := by norm_num
  unfold Python.abs
  rw [hzero]
  split <;> rename_i h
  · exact (abs_of_neg h).symm
  · exact (abs_of_nonneg (not_lt.mp h)).symm

end

/-! ## The greatest and the least -/

section
variable {K : Type} [LinearOrder K]

theorem foldl_argmax (ps : List (K × Nat)) (p : K × Nat) :
    ps.foldl (fun best q => if best.1 < q.1 then q else best) p ∈ p :: ps ∧
      ∀ q ∈ p :: ps, q.1 ≤ (ps.foldl (fun best q => if best.1 < q.1 then q else best) p).1 := by
  induction ps generalizing p with
  | nil => simp
  | cons q ps ih =>
    rw [List.foldl_cons]
    by_cases hlt : p.1 < q.1
    · rw [if_pos hlt]
      obtain ⟨hmem, hle⟩ := ih q
      refine ⟨List.mem_cons_of_mem _ hmem, List.forall_mem_cons.mpr ⟨?_, hle⟩⟩
      exact hlt.le.trans (hle q (List.mem_cons_self ..))
    · rw [if_neg hlt]
      obtain ⟨hmem, hle⟩ := ih p
      have hp := hle p (List.mem_cons_self ..)
      refine ⟨?_, List.forall_mem_cons.mpr ⟨hp, List.forall_mem_cons.mpr ⟨?_, ?_⟩⟩⟩
      · rcases List.mem_cons.mp hmem with heq | hmem
        · rw [heq]
          exact List.mem_cons_self ..
        · exact List.mem_cons_of_mem _ (List.mem_cons_of_mem _ hmem)
      · exact (not_lt.mp hlt).trans hp
      · exact fun r hr => hle r (List.mem_cons_of_mem _ hr)

/-- Of pairs in order of their numbers, those before the one found are smaller. -/
theorem foldl_argmax_first (ps : List (K × Nat)) (p : K × Nat)
    (hsorted : (p :: ps).Pairwise fun a b => a.2 < b.2) :
    ∀ q ∈ p :: ps, q.2 < (ps.foldl (fun best q => if best.1 < q.1 then q else best) p).2 →
      q.1 < (ps.foldl (fun best q => if best.1 < q.1 then q else best) p).1 := by
  induction ps generalizing p with
  | nil =>
    intro q hq hlt
    rw [List.mem_singleton.mp hq] at hlt
    exact absurd hlt (lt_irrefl _)
  | cons q ps ih =>
    obtain ⟨hp, hrest⟩ := List.pairwise_cons.mp hsorted
    rw [List.foldl_cons]
    by_cases hlt : p.1 < q.1
    · rw [if_pos hlt]
      refine List.forall_mem_cons.mpr ⟨fun _ => ?_, ih q hrest⟩
      exact hlt.trans_le ((foldl_argmax ps q).2 q (List.mem_cons_self ..))
    · rw [if_neg hlt]
      have hskip : (p :: ps).Pairwise fun a b => a.2 < b.2 :=
        List.pairwise_cons.mpr ⟨fun r hr => hp r (List.mem_cons_of_mem _ hr),
          (List.pairwise_cons.mp hrest).2⟩
      have hfirst := ih p hskip
      refine List.forall_mem_cons.mpr ⟨hfirst p (List.mem_cons_self ..),
        List.forall_mem_cons.mpr ⟨fun hbefore => ?_, fun r hr =>
          hfirst r (List.mem_cons_of_mem _ hr)⟩⟩
      have hpq := hp q (List.mem_cons_self ..)
      exact (not_lt.mp hlt).trans_lt (hfirst p (List.mem_cons_self ..) (hpq.trans hbefore))

/-- `np.argmax` is the place of an entry that no other exceeds. -/
theorem argmax_spec {xs : List K} {i : Nat} (h : argmax xs = some i) :
    ∃ m, xs[i]? = some m ∧ ∀ x ∈ xs, x ≤ m := by
  unfold argmax at h
  split at h
  · cases h
  · rename_i p ps hzip
    obtain ⟨hmem, hle⟩ := foldl_argmax ps p
    rw [← hzip] at hmem hle
    obtain rfl := Option.some.inj h
    refine ⟨_, List.mk_mem_zipIdx_iff_getElem?.mp hmem, fun x hx => ?_⟩
    obtain ⟨j, hj⟩ := List.mem_iff_getElem?.mp hx
    exact hle (x, j) (List.mk_mem_zipIdx_iff_getElem?.mpr hj)

/-- `np.argmax` is the first such place. -/
theorem argmax_first {xs : List K} {i j : Nat} {m x : K} (h : argmax xs = some i)
    (hm : xs[i]? = some m) (hj : j < i) (hx : xs[j]? = some x) : x < m := by
  unfold argmax at h
  split at h
  · cases h
  · rename_i p ps hzip
    have hmem := (foldl_argmax ps p).1
    have hsorted : (p :: ps).Pairwise fun a b => a.2 < b.2 := by
      rw [← hzip, ← List.pairwise_map (f := Prod.snd), List.zipIdx_map_snd]
      exact List.pairwise_lt_range'
    have hfirst := foldl_argmax_first ps p hsorted (x, j)
    rw [← hzip] at hmem hfirst
    obtain rfl := Option.some.inj h
    have heq := (List.mk_mem_zipIdx_iff_getElem?.mp hmem).symm.trans hm
    rw [← Option.some.inj heq]
    exact hfirst (List.mk_mem_zipIdx_iff_getElem?.mpr hx) hj

theorem exists_argmax {xs : List K} (h : xs ≠ []) : ∃ i, argmax xs = some i := by
  unfold argmax
  split
  · rename_i hnil
    exact absurd (List.zipIdx_eq_nil_iff.mp hnil) h
  · exact ⟨_, rfl⟩

/-- `np.argmin` is the place of an entry that exceeds no other. -/
theorem argmin_spec {xs : List K} {i : Nat} (h : argmin xs = some i) :
    ∃ m, xs[i]? = some m ∧ ∀ x ∈ xs, m ≤ x :=
  argmax_spec (K := Kᵒᵈ) h

/-- `np.argmin` is the first such place. -/
theorem argmin_first {xs : List K} {i j : Nat} {m x : K} (h : argmin xs = some i)
    (hm : xs[i]? = some m) (hj : j < i) (hx : xs[j]? = some x) : m < x :=
  argmax_first (K := Kᵒᵈ) h hm hj hx

theorem exists_argmin {xs : List K} (h : xs ≠ []) : ∃ i, argmin xs = some i :=
  exists_argmax (K := Kᵒᵈ) h

theorem exists_argmin_map {A : Type} (f : A → K) {as : List A} (h : as ≠ []) :
    ∃ i, argmin (as.map f) = some i ∧ i < as.length := by
  obtain ⟨i, hi⟩ := exists_argmin (by simpa using h : as.map f ≠ [])
  obtain ⟨x, hx, -⟩ := argmin_spec hi
  exact ⟨i, hi, by simpa using (List.getElem?_eq_some_iff.mp hx).1⟩

end

end KartStack.Python
