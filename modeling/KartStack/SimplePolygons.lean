import KartStack.PolygonParity
import Mathlib.Analysis.Convex.Topology
import Mathlib.Analysis.Normed.Module.Convex
import Mathlib.Topology.MetricSpace.Thickening

/-! # Simple polygons

A simple polygon is listed counterclockwise if it turns left at its lowest corner.  What is
left of any of its edges, and close enough to it, is then inside by the even-odd rule, and
what is right of it is outside (`Simple.insideLeft`).

One place near the edge decides for the whole edge (`insideLeft_of_frequently`): a convex
surrounding of a stretch of it meets no other edge.  At a corner, the side that the line does
not turn to is one piece beside both edges (`corner_congr`), so each edge decides for the next
(`insideLeft_next`).  Below the lowest corner there is no edge at all.
-/
namespace KartStack.Polygon
open Filter Topology

/-! ## Corners in order -/

section
variable {K : Type}

theorem mem_edges {vs : List (K × K)} {e : (K × K) × (K × K)} :
    e ∈ edges vs ↔ ∃ (i : Nat) (h : i < vs.length),
      e = (vs[i], vs.get ⟨(i + 1) % vs.length, Nat.mod_lt _ (Nat.zero_lt_of_lt h)⟩) := by
  simp only [List.mem_iff_getElem?, getElem?_edges]

theorem mem_of_mem_edges {vs : List (K × K)} {a b : K × K} (h : (a, b) ∈ edges vs) :
    a ∈ vs ∧ b ∈ vs :=
  ⟨(List.of_mem_zip h).1, List.mem_rotate.mp (List.of_mem_zip h).2⟩

theorem exists_next {vs : List (K × K)} {a : K × K} (h : a ∈ vs) : ∃ b, (a, b) ∈ edges vs := by
  obtain ⟨i, hi, rfl⟩ := List.mem_iff_getElem.mp h
  exact ⟨_, mem_edges.mpr ⟨i, hi, rfl⟩⟩

theorem exists_prev {vs : List (K × K)} {b : K × K} (h : b ∈ vs) : ∃ a, (a, b) ∈ edges vs := by
  obtain ⟨i, hi, rfl⟩ := List.mem_iff_getElem.mp (List.mem_rotate.mpr h : b ∈ vs.rotate 1)
  rw [List.length_rotate] at hi
  refine ⟨vs[i], mem_edges.mpr ⟨i, hi, ?_⟩⟩
  rw [List.getElem_rotate]
  rfl

theorem next_unique {vs : List (K × K)} (hnodup : vs.Nodup) {a b c : K × K}
    (hb : (a, b) ∈ edges vs) (hc : (a, c) ∈ edges vs) : b = c := by
  obtain ⟨i, hi, hib⟩ := mem_edges.mp hb
  obtain ⟨j, hj, hjc⟩ := mem_edges.mp hc
  obtain ⟨ha, rfl⟩ := Prod.mk.inj hib
  obtain ⟨ha', rfl⟩ := Prod.mk.inj hjc
  obtain rfl : i = j := (hnodup.getElem_inj_iff).mp (ha.symm.trans ha')
  rfl

theorem edges_nodup {vs : List (K × K)} (hnodup : vs.Nodup) : (edges vs).Nodup := by
  have hfst : (edges vs).map Prod.fst = vs := List.map_fst_zip (by simp)
  exact List.Nodup.of_map Prod.fst (by rwa [hfst])

/-- What goes from each edge to the next holds of all. -/
theorem forall_edges {vs : List (K × K)} {P : (K × K) × (K × K) → Prop}
    (hnext : ∀ a b c, (a, b) ∈ edges vs → (b, c) ∈ edges vs → P (a, b) → P (b, c))
    {e : (K × K) × (K × K)} (he : e ∈ edges vs) (hP : P e) : ∀ f ∈ edges vs, P f := by
  obtain ⟨i, hi, rfl⟩ := mem_edges.mp he
  have hlt : ∀ k, k % vs.length < vs.length := fun k => Nat.mod_lt k (Nat.zero_lt_of_lt hi)
  have hall : ∀ k,
      P (vs.get ⟨(i + k) % vs.length, hlt _⟩, vs.get ⟨(i + k + 1) % vs.length, hlt _⟩) := by
    intro k
    induction k with
    | zero => simpa only [Nat.add_zero, List.get_eq_getElem, Nat.mod_eq_of_lt hi] using hP
    | succ k ih =>
      have hmem : ∀ m,
          (vs.get ⟨m % vs.length, hlt m⟩, vs.get ⟨(m + 1) % vs.length, hlt _⟩) ∈ edges vs := by
        intro m
        refine mem_edges.mpr ⟨m % vs.length, hlt m, ?_⟩
        simp only [List.get_eq_getElem, Nat.mod_add_mod]
      exact hnext _ _ _ (hmem (i + k)) (hmem (i + k + 1)) ih
  intro f hf
  obtain ⟨j, hj, rfl⟩ := mem_edges.mp hf
  have hround : (i + (vs.length - i + j)) % vs.length = j := by
    rw [← Nat.add_assoc, Nat.add_sub_cancel' hi.le, Nat.add_mod_left, Nat.mod_eq_of_lt hj]
  have hlast := hall (vs.length - i + j)
  simpa only [List.get_eq_getElem, hround, ← Nat.mod_add_mod (i + (vs.length - i + j))] using hlast

end

/-! ## Near a point -/

theorem isCompact_segment (a b : ℝ × ℝ) : IsCompact (segment ℝ a b) := by
  rw [segment_eq_image]
  exact isCompact_Icc.image (by fun_prop)

/-- A convex set that keeps off edges can be made open. -/
theorem exists_open_convex {k : Set (ℝ × ℝ)} (hcompact : IsCompact k) (hconvex : Convex ℝ k)
    {E : List ((ℝ × ℝ) × (ℝ × ℝ))} (h : ∀ e ∈ E, Disjoint k (segment ℝ e.1 e.2)) :
    ∃ U, IsOpen U ∧ Convex ℝ U ∧ k ⊆ U ∧ ∀ e ∈ E, Disjoint U (segment ℝ e.1 e.2) := by
  have hclosed : IsClosed (⋃ e ∈ {e | e ∈ E}, segment ℝ e.1 e.2) :=
    (List.finite_toSet E).isClosed_biUnion fun e _ => (isCompact_segment e.1 e.2).isClosed
  have hdisjoint : Disjoint k (⋃ e ∈ {e | e ∈ E}, segment ℝ e.1 e.2) :=
    Set.disjoint_iUnion₂_right.mpr h
  obtain ⟨δ, hδ, hthick⟩ := hdisjoint.exists_thickenings hcompact hclosed
  refine ⟨Metric.thickening δ k, Metric.isOpen_thickening, hconvex.thickening δ,
    Metric.self_subset_thickening hδ k, fun e he => hthick.mono_right ?_⟩
  have hsub : segment ℝ e.1 e.2 ⊆ ⋃ e ∈ {e | e ∈ E}, segment ℝ e.1 e.2 := fun r hr =>
    Set.mem_biUnion (show e ∈ {e | e ∈ E} from he) hr
  exact hsub.trans (Metric.self_subset_thickening hδ _)

/-- What holds near a point holds a little way off it in any direction. -/
theorem eventually_move {r : ℝ × ℝ} {P : ℝ × ℝ → Prop} (h : ∀ᶠ p in 𝓝 r, P p) (u : ℝ × ℝ) :
    ∀ᶠ δ in 𝓝[>] (0 : ℝ), P (r + δ • u) := by
  have hcont : Tendsto (fun δ : ℝ => r + δ • u) (𝓝 0) (𝓝 r) := by
    have hat : ContinuousAt (fun δ : ℝ => r + δ • u) 0 := by fun_prop
    simpa [ContinuousAt] using hat
  exact (hcont.mono_left nhdsWithin_le_nhds).eventually h

/-! ## Sides -/

theorem orient_combo (a b p q : ℝ × ℝ) {s t : ℝ} (h : s + t = 1) :
    orient a b (s • p + t • q) = s * orient a b p + t * orient a b q := by
  obtain rfl := eq_sub_of_add_eq h
  simp only [orient, Prod.fst_add, Prod.snd_add, Prod.smul_fst, Prod.smul_snd, smul_eq_mul]
  ring

theorem convex_side (σ : ℝ) (a b : ℝ × ℝ) : Convex ℝ {p | 0 < σ * orient a b p} := by
  intro p hp q hq s t hs ht hst
  have hpos : s * (σ * orient a b p) + t * (σ * orient a b q) ∈ Set.Ioi 0 :=
    convex_Ioi (0 : ℝ) hp hq hs ht hst
  change 0 < σ * orient a b (s • p + t • q)
  rw [orient_combo a b p q hst]
  linarith [Set.mem_Ioi.mp hpos]

@[simp]
theorem orient_left (a b : ℝ × ℝ) : orient a b a = 0 := by
  simp [orient]

@[simp]
theorem orient_right (a b : ℝ × ℝ) : orient a b b = 0 := by
  rw [orient, mul_comm, sub_self]

theorem orient_cycle (a b c : ℝ × ℝ) : orient b c a = orient a b c := by
  simp only [orient]
  ring

theorem orient_of_mem {a b r : ℝ × ℝ} (h : r ∈ segment ℝ a b) : orient a b r = 0 := by
  obtain ⟨s, t, -, -, hst, rfl⟩ := h
  rw [orient_combo a b a b hst, orient_left, orient_right, mul_zero, mul_zero, add_zero]

/-- Points on one side of a line are both inside, or both outside, if the closed line stays
on the other. -/
theorem inside_of_side {vs : List (ℝ × ℝ)} {U : Set (ℝ × ℝ)} {σ : ℝ} {a b p q : ℝ × ℝ}
    (hU : Convex ℝ U)
    (hoff : ∀ e ∈ edges vs, ∀ r ∈ U, r ∈ segment ℝ e.1 e.2 → σ * orient a b r ≤ 0)
    (hp : p ∈ U) (hq : q ∈ U) (hp' : 0 < σ * orient a b p) (hq' : 0 < σ * orient a b q) :
    Inside vs p ↔ Inside vs q := by
  refine inside_of_disjoint fun e he => Set.disjoint_left.mpr fun r hr hr' => ?_
  have hside : 0 < σ * orient a b r := (convex_side σ a b).segment_subset hp' hq' hr'
  exact (hoff e he r (hU.segment_subset hp hq hr') hr).not_gt hside

/-- The inner product. -/
def dot (u v : ℝ × ℝ) : ℝ := u.1 * v.1 + u.2 * v.2

theorem dot_self_pos {u : ℝ × ℝ} (h : u ≠ 0) : 0 < dot u u := by
  rcases eq_or_ne u.1 0 with h1 | h1
  · have h2 : u.2 ≠ 0 := fun h2 => h (Prod.ext h1 h2)
    exact add_pos_of_nonneg_of_pos (mul_self_nonneg _) (mul_self_pos.mpr h2)
  · exact add_pos_of_pos_of_nonneg (mul_self_pos.mpr h1) (mul_self_nonneg _)

/-- A quarter turn to the left. -/
def turned (u : ℝ × ℝ) : ℝ × ℝ := (-u.2, u.1)

/-- The line through a point within an edge, square to it, leads from one side to the
other. -/
theorem crosses_square {a b r : ℝ × ℝ} (hr : r ∈ openSegment ℝ a b) (hab : a ≠ b) {δ : ℝ}
    (hδ : 0 < δ) :
    0 < orient a b (r + δ • turned (b - a)) ∧ orient a b (r - δ • turned (b - a)) < 0 ∧
      Crosses a b (r + δ • turned (b - a)) (r - δ • turned (b - a)) := by
  obtain ⟨s, t, hs, ht, hst, rfl⟩ := hr
  have hN : 0 < dot (b - a) (b - a) := dot_self_pos (sub_ne_zero.mpr hab.symm)
  obtain rfl := eq_sub_of_add_eq hst
  have hleft : orient a b ((1 - t) • a + t • b + δ • turned (b - a)) =
      δ * dot (b - a) (b - a) := by
    simp [orient, turned, dot]
    ring
  have hright : orient a b ((1 - t) • a + t • b - δ • turned (b - a)) =
      -(δ * dot (b - a) (b - a)) := by
    simp [orient, turned, dot]
    ring
  have hbegin : orient ((1 - t) • a + t • b + δ • turned (b - a))
      ((1 - t) • a + t • b - δ • turned (b - a)) a = -(2 * δ * t * dot (b - a) (b - a)) := by
    simp [orient, turned, dot]
    ring
  have hend : orient ((1 - t) • a + t • b + δ • turned (b - a))
      ((1 - t) • a + t • b - δ • turned (b - a)) b = 2 * δ * (1 - t) * dot (b - a) (b - a) := by
    simp [orient, turned, dot]
    ring
  rw [Crosses, hleft, hright, hbegin, hend]
  have hside : 0 < δ * dot (b - a) (b - a) := mul_pos hδ hN
  exact ⟨hside, neg_neg_of_pos hside, mul_neg_of_pos_of_neg hside (neg_neg_of_pos hside),
    mul_neg_of_neg_of_pos (neg_neg_of_pos (by positivity)) (by positivity)⟩

theorem frequently_beside {a b r : ℝ × ℝ} (hab : a ≠ b) (hr : orient a b r = 0) {σ : ℝ}
    (hσ : σ ≠ 0) : ∃ᶠ p in 𝓝 r, 0 < σ * orient a b p := by
  intro hnone
  obtain ⟨δ, hδ, hpos⟩ :=
    ((eventually_move hnone (σ • turned (b - a))).and self_mem_nhdsWithin).exists
  have hN : 0 < dot (b - a) (b - a) := dot_self_pos (sub_ne_zero.mpr hab.symm)
  have hσσ : 0 < σ * σ := mul_self_pos.mpr hσ
  have hδ' : 0 < δ := hpos
  have hside : σ * orient a b (r + δ • σ • turned (b - a)) =
      σ * orient a b r + σ * σ * (δ * dot (b - a) (b - a)) := by
    simp [orient, turned, dot]
    ring
  refine hδ ?_
  change 0 < σ * orient a b (r + δ • σ • turned (b - a))
  rw [hside, hr, mul_zero, zero_add]
  positivity

/-- What holds near a point of a segment holds near one within it. -/
theorem exists_openSegment {a b r : ℝ × ℝ} (hr : r ∈ segment ℝ a b) {P : ℝ × ℝ → Prop}
    (h : ∀ᶠ p in 𝓝 r, P p) : ∃ v ∈ openSegment ℝ a b, ∀ᶠ p in 𝓝 v, P p := by
  have hfreq := mem_closure_iff_frequently.mp (segment_subset_closure_openSegment hr)
  exact (hfreq.and_eventually h.eventually_nhds).exists

/-! ## Simple polygons -/

/-- A closed line that meets itself nowhere but where an edge ends and the next begins. -/
structure Simple (vs : List (ℝ × ℝ)) : Prop where
  three : 3 ≤ vs.length
  corners : vs.Nodup
  meets : ∀ e ∈ edges vs, ∀ f ∈ edges vs, e ≠ f →
    ∀ r ∈ segment ℝ e.1 e.2, r ∈ segment ℝ f.1 f.2 →
      (r = e.2 ∧ r = f.1) ∨ (r = e.1 ∧ r = f.2)

namespace Simple
variable {vs : List (ℝ × ℝ)} (hs : Simple vs) {a b c : ℝ × ℝ}
include hs

theorem ne_nil : vs ≠ [] := List.ne_nil_of_length_pos (lt_of_lt_of_le (by decide) hs.three)

theorem ne_of_edge (h : (a, b) ∈ edges vs) : a ≠ b := by
  obtain ⟨i, hi, hab⟩ := mem_edges.mp h
  obtain ⟨rfl, rfl⟩ := Prod.mk.inj hab
  intro heq
  have hthree := hs.three
  have hindex := hs.corners.getElem_inj_iff.mp heq
  rcases Nat.lt_or_ge (i + 1) vs.length with hlt | hge
  · rw [Nat.mod_eq_of_lt hlt] at hindex
    omega
  · obtain rfl : i = vs.length - 1 := by omega
    rw [Nat.sub_add_cancel (by omega), Nat.mod_self] at hindex
    omega

/-- Near a point within an edge there is no other edge. -/
theorem off_of_openSegment (h : (a, b) ∈ edges vs) {r : ℝ × ℝ} (hr : r ∈ openSegment ℝ a b) :
    ∀ f ∈ edges vs, f ≠ (a, b) → r ∉ segment ℝ f.1 f.2 := by
  intro f hf hne hmem
  have hab := hs.ne_of_edge h
  have hra : r ≠ a := by
    rintro rfl
    exact hab (left_mem_openSegment_iff.mp hr)
  have hrb : r ≠ b := by
    rintro rfl
    exact hab (right_mem_openSegment_iff.mp hr)
  rcases hs.meets _ h f hf hne.symm r (openSegment_subset_segment ℝ a b hr) hmem with hr' | hr'
  · exact hrb hr'.1
  · exact hra hr'.1

/-- Near a corner there are only the edges that meet there. -/
theorem off_of_corner (hab : (a, b) ∈ edges vs) (hbc : (b, c) ∈ edges vs) :
    ∀ f ∈ edges vs, f ≠ (a, b) → f ≠ (b, c) → b ∉ segment ℝ f.1 f.2 := by
  rintro ⟨d, e⟩ hf hne hne' hmem
  rcases hs.meets _ hab _ hf hne.symm b (right_mem_segment ℝ a b) hmem with ⟨-, hb⟩ | ⟨hb, -⟩
  · obtain rfl : b = d := hb
    exact hne' (Prod.ext rfl (next_unique hs.corners hf hbc))
  · exact hs.ne_of_edge hab hb.symm

theorem prev_unique (ha : (a, b) ∈ edges vs) (hc : (c, b) ∈ edges vs) : a = c := by
  by_contra hne
  have hne' : (a, b) ≠ (c, b) := fun heq => hne (Prod.mk.inj heq).1
  rcases hs.meets _ ha _ hc hne' b (right_mem_segment ℝ a b) (right_mem_segment ℝ c b) with
    ⟨-, hb⟩ | ⟨hb, -⟩
  · exact hs.ne_of_edge hc hb.symm
  · exact hs.ne_of_edge ha hb.symm

/-! ### Along an edge -/

/-- The sides of an edge are told apart by what is inside. -/
theorem insideLeft_congr (h : (a, b) ∈ edges vs) {U : Set (ℝ × ℝ)} (hopen : IsOpen U)
    (hU : Convex ℝ U) (hoff : ∀ f ∈ edges vs, f ≠ (a, b) → Disjoint U (segment ℝ f.1 f.2))
    {r : ℝ × ℝ} (hr : r ∈ openSegment ℝ a b) (hrU : r ∈ U) {p q : ℝ × ℝ} (hp : p ∈ U) (hq : q ∈ U)
    (hp' : orient a b p ≠ 0) (hq' : orient a b q ≠ 0) :
    (Inside vs p ↔ 0 < orient a b p) ↔ (Inside vs q ↔ 0 < orient a b q) := by
  have hedge : ∀ σ : ℝ, ∀ f ∈ edges vs, ∀ v ∈ U, v ∈ segment ℝ f.1 f.2 → σ * orient a b v ≤ 0 := by
    intro σ f hf v hv hmem
    by_cases hfe : f = (a, b)
    · subst hfe
      rw [orient_of_mem hmem, mul_zero]
    · exact absurd hmem (Set.disjoint_left.mp (hoff f hf hfe) hv)
  -- a step across the edge
  have hnear : ∀ᶠ δ in 𝓝[>] (0 : ℝ),
      r + δ • turned (b - a) ∈ U ∧ r - δ • turned (b - a) ∈ U := by
    have hU' := hopen.mem_nhds hrU
    filter_upwards [eventually_move hU' (turned (b - a)), eventually_move hU' (-turned (b - a))]
      with δ hleft hright
    exact ⟨hleft, by rwa [smul_neg, ← sub_eq_add_neg] at hright⟩
  obtain ⟨δ, ⟨hleft, hright⟩, hδ⟩ := (hnear.and self_mem_nhdsWithin).exists
  obtain ⟨hleft', hright', hcross⟩ := crosses_square hr (hs.ne_of_edge h) hδ
  have hflip := inside_of_crosses (edges_nodup hs.corners) h hcross fun f hf hne htouch => by
    obtain ⟨v, hv, hv'⟩ := htouch.exists_mem
    exact Set.disjoint_left.mp (hoff f hf hne) (hU.segment_subset hleft hright hv') hv
  have hstep : ∀ v ∈ U, orient a b v ≠ 0 →
      ((Inside vs v ↔ 0 < orient a b v) ↔ Inside vs (r + δ • turned (b - a))) := by
    intro v hv hv'
    rcases lt_or_gt_of_ne hv' with hneg | hpos
    · rw [inside_of_side hU (hedge (-1)) hv hright (by linarith) (by linarith)]
      have := hneg.not_gt
      tauto
    · rw [inside_of_side hU (hedge 1) hv hleft (by linarith) (by linarith)]
      tauto
  rw [hstep p hp hp', hstep q hq hq']

omit hs in
variable (vs) in
/-- What is left of an edge and close to it is inside, and what is right of it is not. -/
def InsideLeft (e : (ℝ × ℝ) × (ℝ × ℝ)) : Prop :=
  ∀ r ∈ openSegment ℝ e.1 e.2, ∀ᶠ p in 𝓝 r,
    orient e.1 e.2 p ≠ 0 → (Inside vs p ↔ 0 < orient e.1 e.2 p)

/-- One place decides for an edge. -/
theorem insideLeft_of_frequently (h : (a, b) ∈ edges vs) {r : ℝ × ℝ}
    (hr : r ∈ openSegment ℝ a b)
    (hfreq : ∃ᶠ p in 𝓝 r, orient a b p ≠ 0 ∧ (Inside vs p ↔ 0 < orient a b p)) :
    InsideLeft vs (a, b) := by
  intro v hv
  have hwithin : segment ℝ r v ⊆ openSegment ℝ a b :=
    (convex_openSegment a b).segment_subset hr hv
  obtain ⟨U, hopen, hU, hsub, hoff⟩ := exists_open_convex (isCompact_segment r v)
    (convex_segment r v) (E := (edges vs).filter (· ≠ (a, b))) fun f hf => by
      rw [List.mem_filter, decide_eq_true_iff] at hf
      exact Set.disjoint_left.mpr fun w hw => hs.off_of_openSegment h (hwithin hw) f hf.1 hf.2
  have hrU : r ∈ U := hsub (left_mem_segment ℝ r v)
  have hvU : v ∈ U := hsub (right_mem_segment ℝ r v)
  obtain ⟨p, ⟨hp', hp⟩, hpU⟩ := (hfreq.and_eventually (hopen.mem_nhds hrU)).exists
  filter_upwards [hopen.mem_nhds hvU] with q hqU hq'
  refine (hs.insideLeft_congr h hopen hU (fun f hf hne => hoff f ?_) hr hrU hpU hqU hp' hq').mp hp
  rw [List.mem_filter, decide_eq_true_iff]
  exact ⟨hf, hne⟩

/-! ### At a corner -/

/-- An edge and the next go straight on or turn; they do not fold back. -/
theorem straight_on (hab : (a, b) ∈ edges vs) (hbc : (b, c) ∈ edges vs)
    (h : orient a b c = 0) : ∃ k : ℝ, 0 < k ∧ c - b = k • (b - a) := by
  have hab' := hs.ne_of_edge hab
  have hbc' := hs.ne_of_edge hbc
  have hN : 0 < dot (b - a) (b - a) := dot_self_pos (sub_ne_zero.mpr hab'.symm)
  have hkc : c - b = (dot (b - a) (c - b) / dot (b - a) (b - a)) • (b - a) := by
    rw [div_eq_inv_mul, mul_smul, eq_inv_smul_iff₀ hN.ne']
    rw [orient] at h
    ext
    · simp only [Prod.smul_fst, Prod.fst_sub, Prod.snd_sub, smul_eq_mul, dot]
      linear_combination (-(b.2 - a.2)) * h
    · simp only [Prod.smul_snd, Prod.fst_sub, Prod.snd_sub, smul_eq_mul, dot]
      linear_combination (b.1 - a.1) * h
  refine ⟨_, ?_, hkc⟩
  generalize dot (b - a) (c - b) / dot (b - a) (b - a) = k at hkc
  by_contra hk
  have hne : k ≠ 0 := by
    rintro rfl
    rw [zero_smul] at hkc
    exact hbc' (sub_eq_zero.mp hkc).symm
  have hneg : k < 0 := lt_of_le_of_ne (not_lt.mp hk) hne
  have hpos : 0 < 1 - k := by linarith
  -- a point within both edges
  have hwithin : (1 - (1 - k)⁻¹) • b + (1 - k)⁻¹ • c ∈ openSegment ℝ b c :=
    ⟨_, _, sub_pos.mpr (inv_lt_one_of_one_lt₀ (by linarith)), inv_pos.mpr hpos,
      sub_add_cancel _ _, rfl⟩
  have hwithin' : (1 - (1 - k)⁻¹) • b + (1 - k)⁻¹ • c ∈ segment ℝ a b := by
    refine ⟨1 - (1 - k)⁻¹, (1 - k)⁻¹, ?_, (inv_pos.mpr hpos).le, sub_add_cancel _ _, ?_⟩
    · exact (sub_pos.mpr (inv_lt_one_of_one_lt₀ (by linarith))).le
    · have hinv : (1 - k)⁻¹ * (1 - k) = 1 := inv_mul_cancel₀ hpos.ne'
      have h1 : c.1 - b.1 = k * (b.1 - a.1) := congrArg Prod.fst hkc
      have h2 : c.2 - b.2 = k * (b.2 - a.2) := congrArg Prod.snd hkc
      ext
      · simp only [Prod.fst_add, Prod.smul_fst, smul_eq_mul]
        linear_combination (b.1 - a.1) * hinv - (1 - k)⁻¹ * h1
      · simp only [Prod.snd_add, Prod.smul_snd, smul_eq_mul]
        linear_combination (b.2 - a.2) * hinv - (1 - k)⁻¹ * h2
  exact hs.off_of_openSegment hbc hwithin (a, b) hab (fun heq => hab' (Prod.mk.inj heq).1) hwithin'

/-- There are places beside both edges that meet at a corner, however near. -/
theorem exists_beside_both (hab : (a, b) ∈ edges vs) (hbc : (b, c) ∈ edges vs) {σ : ℝ}
    (hσ : σ ≠ 0) : ∃ u : ℝ × ℝ, ∀ δ : ℝ, 0 < δ →
      0 < σ * orient a b (b + δ • u) ∧ 0 < σ * orient b c (b + δ • u) := by
  have hσσ : 0 < σ * σ := mul_self_pos.mpr hσ
  by_cases hturn : orient a b c = 0
  · -- straight on: square to both
    obtain ⟨k, hk, hkc⟩ := hs.straight_on hab hbc hturn
    have hN : 0 < dot (b - a) (b - a) := dot_self_pos (sub_ne_zero.mpr (hs.ne_of_edge hab).symm)
    refine ⟨σ • turned (b - a), fun δ hδ => ?_⟩
    have hc1 : c.1 - b.1 = k * (b.1 - a.1) := congrArg Prod.fst hkc
    have hc2 : c.2 - b.2 = k * (b.2 - a.2) := congrArg Prod.snd hkc
    have hfirst : σ * orient a b (b + δ • σ • turned (b - a)) =
        σ * σ * (δ * dot (b - a) (b - a)) := by
      simp [orient, turned, dot]
      ring
    have hsecond : σ * orient b c (b + δ • σ • turned (b - a)) =
        σ * σ * (δ * (k * dot (b - a) (b - a))) := by
      simp [orient, turned, dot, hc1, hc2]
      ring
    rw [hfirst, hsecond]
    exact ⟨by positivity, by positivity⟩
  · -- a turn: away from both, or between them
    have hττ : 0 < orient a b c * orient a b c := mul_self_pos.mpr hturn
    refine ⟨(σ * orient a b c) • ((c - b) - (b - a)), fun δ hδ => ?_⟩
    have hfirst : σ * orient a b (b + δ • (σ * orient a b c) • ((c - b) - (b - a))) =
        σ * σ * (δ * (orient a b c * orient a b c)) := by
      simp [orient]
      ring
    have hsecond : σ * orient b c (b + δ • (σ * orient a b c) • ((c - b) - (b - a))) =
        σ * σ * (δ * (orient a b c * orient a b c)) := by
      simp [orient]
      ring
    rw [hfirst, hsecond]
    exact ⟨by positivity, by positivity⟩

/-- On the side that the line does not turn to, all places near the corner are inside, or
none is. -/
theorem corner_congr (hab : (a, b) ∈ edges vs) (hbc : (b, c) ∈ edges vs) {σ : ℝ} (hσ : σ ≠ 0)
    (hturn : σ * orient a b c ≤ 0) : ∃ U ∈ 𝓝 b, ∀ p ∈ U, ∀ q ∈ U,
      (0 < σ * orient a b p ∨ 0 < σ * orient b c p) →
      (0 < σ * orient a b q ∨ 0 < σ * orient b c q) → (Inside vs p ↔ Inside vs q) := by
  obtain ⟨U, hopen, hU, hsub, hoff⟩ := exists_open_convex (isCompact_singleton (x := b))
    (convex_singleton b) (E := (edges vs).filter fun f => f ≠ (a, b) ∧ f ≠ (b, c))
    fun f hf => by
      rw [List.mem_filter, decide_eq_true_iff] at hf
      exact Set.disjoint_singleton_left.mpr (hs.off_of_corner hab hbc f hf.1 hf.2.1 hf.2.2)
  have hbU : b ∈ U := hsub rfl
  have hedge : ∀ f ∈ edges vs, ∀ r ∈ U, r ∈ segment ℝ f.1 f.2 →
      σ * orient a b r ≤ 0 ∧ σ * orient b c r ≤ 0 := by
    intro f hf r hr hmem
    by_cases hfa : f = (a, b)
    · subst hfa
      obtain ⟨s, t, hs', -, hst, rfl⟩ := hmem
      rw [orient_combo a b a b hst, orient_combo b c a b hst, orient_left, orient_right,
        orient_left, orient_cycle]
      exact ⟨by simp, by nlinarith⟩
    by_cases hfb : f = (b, c)
    · subst hfb
      obtain ⟨s, t, -, ht, hst, rfl⟩ := hmem
      rw [orient_combo a b b c hst, orient_combo b c b c hst, orient_left, orient_right,
        orient_right]
      exact ⟨by nlinarith, by simp⟩
    refine absurd hmem (Set.disjoint_left.mp (hoff f ?_) hr)
    rw [List.mem_filter, decide_eq_true_iff]
    exact ⟨hf, hfa, hfb⟩
  obtain ⟨u, hu⟩ := hs.exists_beside_both hab hbc hσ
  obtain ⟨δ, hmU, hδ⟩ := ((eventually_move (hopen.mem_nhds hbU) u).and self_mem_nhdsWithin).exists
  obtain ⟨hm, hm'⟩ := hu δ hδ
  have hall : ∀ p ∈ U, (0 < σ * orient a b p ∨ 0 < σ * orient b c p) →
      (Inside vs p ↔ Inside vs (b + δ • u)) := by
    rintro p hp (hside | hside)
    · exact inside_of_side hU (fun f hf r hr hmem => (hedge f hf r hr hmem).1) hp hmU hside hm
    · exact inside_of_side hU (fun f hf r hr hmem => (hedge f hf r hr hmem).2) hp hmU hside hm'
  exact ⟨U, hopen.mem_nhds hbU, fun p hp q hq hp' hq' =>
    (hall p hp hp').trans (hall q hq hq').symm⟩

/-- What an edge tells about the corner where it ends. -/
theorem corner_of_insideLeft (hab : (a, b) ∈ edges vs) (hbc : (b, c) ∈ edges vs)
    (hinside : InsideLeft vs (a, b)) {σ : ℝ} (hσ : σ ≠ 0) (hturn : σ * orient a b c ≤ 0) :
    ∀ᶠ p in 𝓝 b, (0 < σ * orient a b p ∨ 0 < σ * orient b c p) → (Inside vs p ↔ 0 < σ) := by
  obtain ⟨U, hU, hsame⟩ := hs.corner_congr hab hbc hσ hturn
  -- a place of `U` beside the edge, and close to it
  obtain ⟨r, hr, hrU⟩ := exists_openSegment (right_mem_segment ℝ a b) hU
  have hzero : orient a b r = 0 := orient_of_mem (openSegment_subset_segment ℝ a b hr)
  obtain ⟨p, hside, hin, hp⟩ := ((frequently_beside (hs.ne_of_edge hab) hzero hσ).and_eventually
    ((hinside r hr).and hrU)).exists
  have hsign := pos_iff_pos_of_mul_pos hside
  filter_upwards [hU] with q hq hq'
  rw [← hsame p hp q hq (Or.inl hside) hq', hin (right_ne_zero_of_mul hside.ne'), hsign]

theorem insideLeft_of_corner (hab : (a, b) ∈ edges vs) (hbc : (b, c) ∈ edges vs) {σ : ℝ}
    (hσ : σ ≠ 0) (h : ∀ᶠ p in 𝓝 b,
      (0 < σ * orient a b p ∨ 0 < σ * orient b c p) → (Inside vs p ↔ 0 < σ)) :
    InsideLeft vs (a, b) ∧ InsideLeft vs (b, c) := by
  constructor
  · obtain ⟨r, hr, hrh⟩ := exists_openSegment (right_mem_segment ℝ a b) h
    have hzero : orient a b r = 0 := orient_of_mem (openSegment_subset_segment ℝ a b hr)
    refine hs.insideLeft_of_frequently hab hr
      (((frequently_beside (hs.ne_of_edge hab) hzero hσ).and_eventually hrh).mono ?_)
    rintro p ⟨hside, hp⟩
    exact ⟨right_ne_zero_of_mul hside.ne',
      (hp (Or.inl hside)).trans (pos_iff_pos_of_mul_pos hside)⟩
  · obtain ⟨r, hr, hrh⟩ := exists_openSegment (left_mem_segment ℝ b c) h
    have hzero : orient b c r = 0 := orient_of_mem (openSegment_subset_segment ℝ b c hr)
    refine hs.insideLeft_of_frequently hbc hr
      (((frequently_beside (hs.ne_of_edge hbc) hzero hσ).and_eventually hrh).mono ?_)
    rintro p ⟨hside, hp⟩
    exact ⟨right_ne_zero_of_mul hside.ne',
      (hp (Or.inr hside)).trans (pos_iff_pos_of_mul_pos hside)⟩

/-- From an edge to the next. -/
theorem insideLeft_next (hab : (a, b) ∈ edges vs) (hbc : (b, c) ∈ edges vs)
    (hinside : InsideLeft vs (a, b)) : InsideLeft vs (b, c) := by
  rcases le_total (orient a b c) 0 with hturn | hturn
  · exact (hs.insideLeft_of_corner hab hbc one_ne_zero
      (hs.corner_of_insideLeft hab hbc hinside one_ne_zero (by linarith))).2
  · exact (hs.insideLeft_of_corner hab hbc (neg_ne_zero.mpr one_ne_zero)
      (hs.corner_of_insideLeft hab hbc hinside (neg_ne_zero.mpr one_ne_zero) (by linarith))).2

end Simple

/-! ### Counterclockwise -/

/-- No corner is lower, and none as low is further left. -/
def Lowest (vs : List (ℝ × ℝ)) (b : ℝ × ℝ) : Prop :=
  b ∈ vs ∧ ∀ v ∈ vs, b.2 < v.2 ∨ b.2 = v.2 ∧ b.1 ≤ v.1

/-- The line turns left at its lowest corner. -/
def Counterclockwise (vs : List (ℝ × ℝ)) : Prop :=
  ∀ a b c, (a, b) ∈ edges vs → (b, c) ∈ edges vs → Lowest vs b → 0 < orient a b c

theorem exists_lowest {vs : List (ℝ × ℝ)} (hne : vs ≠ []) : ∃ b, Lowest vs b := by
  classical
  obtain ⟨b, hb, hmin⟩ := Finset.exists_min_image vs.toFinset (fun v => toLex (v.2, v.1))
    (by rwa [List.toFinset_nonempty_iff])
  refine ⟨b, List.mem_toFinset.mp hb, fun v hv => ?_⟩
  exact Prod.Lex.toLex_le_toLex.mp (hmin v (List.mem_toFinset.mpr hv))

theorem Lowest.le {vs : List (ℝ × ℝ)} {b v : ℝ × ℝ} (h : Lowest vs b) (hv : v ∈ vs) :
    b.2 ≤ v.2 := by
  rcases h.2 v hv with hlt | ⟨heq, -⟩
  · exact hlt.le
  · exact heq.le

/-- A place below all corners is outside. -/
theorem not_inside_of_below {vs : List (ℝ × ℝ)} {p : ℝ × ℝ} (h : ∀ v ∈ vs, p.2 < v.2) :
    ¬ Inside vs p := by
  rw [Inside, List.countP_eq_zero.mpr]
  · decide
  · rintro ⟨a, b⟩ he
    obtain ⟨ha, hb⟩ := mem_of_mem_edges he
    rw [decide_eq_true_iff]
    exact fun hmeets => hmeets.1 (iff_of_true (h a ha) (h b hb))

/-- Of a place near a corner that turns left, the sides and the lengths along the edges. -/
theorem corner_combo (a b c p : ℝ × ℝ) (w : ℝ × ℝ) :
    orient a b c * dot w (p - b) =
      orient a b p * dot w (c - b) + orient b c p * dot w (a - b) := by
  simp only [orient, dot, Prod.fst_sub, Prod.snd_sub]
  ring

/-- **What is left of an edge of a simple counterclockwise polygon is inside.** -/
theorem Simple.insideLeft {vs : List (ℝ × ℝ)} (hs : Simple vs) (hccw : Counterclockwise vs) :
    ∀ e ∈ edges vs, InsideLeft vs e := by
  obtain ⟨b, hlow⟩ := exists_lowest hs.ne_nil
  obtain ⟨a, hab⟩ := exists_prev hlow.1
  obtain ⟨c, hbc⟩ := exists_next hlow.1
  have hturn := hccw a b c hab hbc hlow
  have hσ : (-1 : ℝ) ≠ 0 := neg_ne_zero.mpr one_ne_zero
  obtain ⟨U, hU, hsame⟩ := hs.corner_congr hab hbc hσ (by linarith)
  -- a place below the lowest corner is outside, and on the right
  obtain ⟨δ, hpU, hδ⟩ := ((eventually_move hU (0, -1)).and self_mem_nhdsWithin).exists
  have hδ' : (0 : ℝ) < δ := hδ
  have hout : ¬ Inside vs (b + δ • (0, -1)) := not_inside_of_below fun v hv => by
    have hle := hlow.le hv
    simp only [Prod.snd_add, Prod.smul_snd, smul_eq_mul]
    linarith
  have hright : 0 < -1 * orient a b (b + δ • (0, -1)) ∨ 0 < -1 * orient b c (b + δ • (0, -1)) := by
    by_contra hc
    rw [not_or, not_lt, not_lt] at hc
    have hcombo := corner_combo a b c (b + δ • (0, -1)) (0, 1)
    have ha := hlow.le (mem_of_mem_edges hab).1
    have hc' := hlow.le (mem_of_mem_edges hbc).2
    simp only [dot, add_sub_cancel_left, Prod.smul_snd, smul_eq_mul, Prod.snd_sub, zero_mul,
      zero_add, one_mul] at hcombo
    nlinarith
  have hcorner : ∀ᶠ p in 𝓝 b,
      (0 < -1 * orient a b p ∨ 0 < -1 * orient b c p) → (Inside vs p ↔ (0 : ℝ) < -1) := by
    filter_upwards [hU] with p hp hside
    rw [hsame p hp _ hpU hside hright]
    exact iff_of_false hout (by norm_num)
  exact forall_edges (fun _ _ _ h h' => hs.insideLeft_next h h') hab
    (hs.insideLeft_of_corner hab hbc hσ hcorner).1

end KartStack.Polygon
