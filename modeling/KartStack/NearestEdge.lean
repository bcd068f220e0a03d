import KartStack.SimplePolygons

/-! # The side of the nearest edge

Of a place off a simple counterclockwise polygon, the side of the nearest edge tells whether
it is inside, as long as the nearest point is within an edge or at a corner where the line
goes straight on.  At a corner that turns it is the turn that tells: the place is outside if
the line turns left there and inside if it turns right (`inside_at_turn`).  The sides of
the two edges may then say otherwise, and where the edge that is asked does, it misleads
(`accepts_iff`).
-/
namespace KartStack.Polygon
open Filter Topology

/-! ## Nearest points -/

/-- The distance, squared. -/
def distSq (p q : ℝ × ℝ) : ℝ := dot (p - q) (p - q)

/-- No point of the closed line is nearer. -/
def Nearest (vs : List (ℝ × ℝ)) (p q : ℝ × ℝ) : Prop :=
  ∀ f ∈ edges vs, ∀ r ∈ segment ℝ f.1 f.2, distSq p q ≤ distSq p r

/-- A place is off a closed line. -/
def Off (vs : List (ℝ × ℝ)) (p : ℝ × ℝ) : Prop := ∀ f ∈ edges vs, p ∉ segment ℝ f.1 f.2

theorem dot_smul_right (k : ℝ) (u v : ℝ × ℝ) : dot u (k • v) = k * dot u v := by
  simp only [dot, Prod.smul_fst, Prod.smul_snd, smul_eq_mul]
  ring

theorem distSq_nonneg (p q : ℝ × ℝ) : 0 ≤ distSq p q :=
  add_nonneg (mul_self_nonneg _) (mul_self_nonneg _)

theorem distSq_pos {p q : ℝ × ℝ} (h : p ≠ q) : 0 < distSq p q := dot_self_pos (sub_ne_zero.mpr h)

theorem distSq_toward (p q r : ℝ × ℝ) (s : ℝ) :
    distSq p (q + s • (r - q)) = distSq p q - 2 * s * dot (p - q) (r - q) + s * s * distSq r q := by
  simp only [distSq, dot, Prod.fst_sub, Prod.snd_sub, Prod.fst_add, Prod.snd_add, Prod.smul_fst,
    Prod.smul_snd, smul_eq_mul]
  ring

section
variable {vs : List (ℝ × ℝ)} {p q a b c : ℝ × ℝ}

/-- A nearest point is as near as a step from it along its edge. -/
theorem Nearest.dot_nonpos (h : Nearest vs p q) {f : (ℝ × ℝ) × (ℝ × ℝ)} (hf : f ∈ edges vs)
    (hq : q ∈ segment ℝ f.1 f.2) {r : ℝ × ℝ} (hr : r ∈ segment ℝ f.1 f.2) :
    dot (p - q) (r - q) ≤ 0 := by
  by_contra hpos
  rw [not_le] at hpos
  -- a step short enough
  have hn := distSq_nonneg r q
  generalize hd : dot (p - q) (r - q) = d at hpos
  generalize hN : distSq r q = n at hn
  have hsum : 0 < d + n := by linarith
  have hs : 0 < d / (d + n) := div_pos hpos hsum
  have hs1 : d / (d + n) ≤ 1 := (div_le_one hsum).mpr (by linarith)
  have hmem : q + (d / (d + n)) • (r - q) ∈ segment ℝ q r :=
    ⟨1 - d / (d + n), d / (d + n), by linarith, hs.le, by ring, by
      rw [smul_sub, sub_smul, one_smul]
      abel⟩
  have hle := h f hf _ ((convex_segment f.1 f.2).segment_subset hq hr hmem)
  rw [distSq_toward, hd, hN] at hle
  have hstep : d / (d + n) * n < d := by
    rw [div_mul_eq_mul_div, div_lt_iff₀ hsum]
    nlinarith
  nlinarith

/-- The way to the nearest point keeps off the line. -/
theorem Nearest.inside_toward (h : Nearest vs p q) (hne : p ≠ q) {δ : ℝ} (hδ : 0 < δ)
    (hδ1 : δ ≤ 1) : Inside vs (q + δ • (p - q)) ↔ Inside vs p := by
  refine inside_of_disjoint fun f hf => Set.disjoint_left.mpr fun r hr hr' => ?_
  obtain ⟨u, v, hu, hv, huv, rfl⟩ := hr'
  have hle := h f hf _ hr
  have hdist : distSq p (u • (q + δ • (p - q)) + v • p) = (u * (1 - δ)) ^ 2 * distSq p q := by
    obtain rfl := eq_sub_of_add_eq' huv
    simp only [distSq, dot, Prod.fst_sub, Prod.snd_sub, Prod.fst_add, Prod.snd_add, Prod.smul_fst,
      Prod.smul_snd, smul_eq_mul]
    ring
  rw [hdist] at hle
  have hpos := distSq_pos hne
  have hsmall : u * (1 - δ) < 1 := by nlinarith
  have hnonneg : 0 ≤ u * (1 - δ) := mul_nonneg hu (by linarith)
  have hsq : (u * (1 - δ)) ^ 2 < 1 := by nlinarith
  nlinarith

/-- What holds near the nearest point holds a little way from it towards the place, where
the same is inside. -/
theorem Nearest.exists_toward (h : Nearest vs p q) (hne : p ≠ q) {P : ℝ × ℝ → Prop}
    (hP : ∀ᶠ r in 𝓝 q, P r) :
    ∃ δ : ℝ, 0 < δ ∧ P (q + δ • (p - q)) ∧ (Inside vs (q + δ • (p - q)) ↔ Inside vs p) := by
  have hone : ∀ᶠ δ in 𝓝[>] (0 : ℝ), δ ≤ 1 :=
    mem_nhdsWithin_of_mem_nhds (Iic_mem_nhds one_pos)
  obtain ⟨δ, ⟨hPδ, hδ1⟩, hδ⟩ :=
    (((eventually_move hP (p - q)).and hone).and self_mem_nhdsWithin).exists
  exact ⟨δ, hδ, hPδ, h.inside_toward hne hδ hδ1⟩

theorem orient_toward (hq : orient a b q = 0) (δ : ℝ) :
    orient a b (q + δ • (p - q)) = δ * orient a b p := by
  have hcombo := orient_combo a b q p (s := 1 - δ) (t := δ) (by ring)
  rw [hq, mul_zero, zero_add] at hcombo
  rw [← hcombo]
  congr 1
  rw [smul_sub, sub_smul, one_smul]
  abel

/-- A place square to an edge is on one of its sides. -/
theorem orient_ne_zero_of_square (hab : a ≠ b) (hne : p ≠ q) (hq : orient a b q = 0)
    (hsquare : dot (p - q) (b - a) = 0) : orient a b p ≠ 0 := by
  intro hzero
  have hside : orient a b p - orient a b q =
      (b.1 - a.1) * (p.2 - q.2) - (b.2 - a.2) * (p.1 - q.1) := by
    simp only [orient]
    ring
  rw [hzero, hq, sub_zero] at hside
  have hprod : dot (b - a) (b - a) * distSq p q =
      (dot (p - q) (b - a)) ^ 2 + ((b.1 - a.1) * (p.2 - q.2) - (b.2 - a.2) * (p.1 - q.1)) ^ 2 := by
    simp only [distSq, dot, Prod.fst_sub, Prod.snd_sub]
    ring
  rw [hsquare, ← hside] at hprod
  have hpos := mul_pos (dot_self_pos (sub_ne_zero.mpr hab.symm)) (distSq_pos hne)
  rw [hprod] at hpos
  norm_num at hpos

/-! ## Which side is inside -/

variable (hs : Simple vs) (hleft : ∀ e ∈ edges vs, Simple.InsideLeft vs e)
include hs hleft

/-- Within an edge its side tells. -/
theorem inside_within_edge (h : Nearest vs p q) (hne : p ≠ q) (hab : (a, b) ∈ edges vs)
    (hq : q ∈ openSegment ℝ a b) :
    orient a b p ≠ 0 ∧ (Inside vs p ↔ 0 < orient a b p) := by
  have hmem := openSegment_subset_segment ℝ a b hq
  have hline := orient_of_mem hmem
  have hsquare : dot (p - q) (b - a) = 0 := by
    obtain ⟨s, t, hs', ht, hst, rfl⟩ := hq
    have ha := h.dot_nonpos hab hmem (left_mem_segment ℝ a b)
    have hb := h.dot_nonpos hab hmem (right_mem_segment ℝ a b)
    obtain rfl := eq_sub_of_add_eq hst
    have hfromA : a - ((1 - t) • a + t • b) = (-t) • (b - a) := by module
    have hfromB : b - ((1 - t) • a + t • b) = (1 - t) • (b - a) := by module
    rw [hfromA, dot_smul_right] at ha
    rw [hfromB, dot_smul_right] at hb
    exact le_antisymm (nonpos_of_mul_nonpos_right hb hs') (by nlinarith)
  have hside := orient_ne_zero_of_square (hs.ne_of_edge hab) hne hline hsquare
  obtain ⟨δ, hδ, hin, htoward⟩ := h.exists_toward hne (hleft _ hab q hq)
  rw [orient_toward hline] at hin
  refine ⟨hside, htoward.symm.trans ((hin (mul_ne_zero hδ.ne' hside)).trans ?_)⟩
  exact mul_pos_iff_of_pos_left hδ

/-- Near a corner that does not turn to one side, what is on that side of an edge is inside,
or what is on the other is not. -/
theorem inside_beside_corner (h : Nearest vs p b) (hne : p ≠ b) (hab : (a, b) ∈ edges vs)
    (hbc : (b, c) ∈ edges vs) {σ : ℝ} (hσ : σ ≠ 0) (hturn : σ * orient a b c ≤ 0)
    (hside : 0 < σ * orient a b p ∨ 0 < σ * orient b c p) : Inside vs p ↔ 0 < σ := by
  obtain ⟨δ, hδ, hin, htoward⟩ :=
    h.exists_toward hne (hs.corner_of_insideLeft hab hbc (hleft _ hab) hσ hturn)
  rw [orient_toward (orient_right a b), orient_toward (orient_left b c)] at hin
  refine htoward.symm.trans (hin (hside.imp ?_ ?_))
  · intro hpos
    rw [mul_left_comm]
    exact mul_pos hδ hpos
  · intro hpos
    rw [mul_left_comm]
    exact mul_pos hδ hpos

/-- **At a corner that turns, the turn tells.** -/
theorem inside_at_turn (h : Nearest vs p b) (hne : p ≠ b) (hab : (a, b) ∈ edges vs)
    (hbc : (b, c) ∈ edges vs) (hturn : orient a b c ≠ 0) : Inside vs p ↔ orient a b c < 0 := by
  have ha := h.dot_nonpos hab (right_mem_segment ℝ a b) (left_mem_segment ℝ a b)
  have hc := h.dot_nonpos hbc (left_mem_segment ℝ b c) (right_mem_segment ℝ b c)
  have hcombo := corner_combo a b c p (p - b)
  have hpos : 0 < dot (p - b) (p - b) := distSq_pos hne
  rcases lt_or_gt_of_ne hturn with hright | hleftward
  · have hside : 0 < 1 * orient a b p ∨ 0 < 1 * orient b c p := by
      by_contra hnone
      rw [not_or, not_lt, not_lt, one_mul, one_mul] at hnone
      nlinarith
    rw [inside_beside_corner hs hleft h hne hab hbc one_ne_zero (by linarith) hside]
    exact iff_of_true one_pos hright
  · have hside : 0 < -1 * orient a b p ∨ 0 < -1 * orient b c p := by
      by_contra hnone
      rw [not_or, not_lt, not_lt] at hnone
      nlinarith
    rw [inside_beside_corner hs hleft h hne hab hbc (neg_ne_zero.mpr one_ne_zero) (by linarith)
      hside]
    exact iff_of_false (by norm_num) hleftward.not_gt

/-- Where the line goes straight on, both sides tell. -/
theorem inside_straight_on (h : Nearest vs p b) (hne : p ≠ b) (hab : (a, b) ∈ edges vs)
    (hbc : (b, c) ∈ edges vs) (hturn : orient a b c = 0) :
    (orient a b p ≠ 0 ∧ (Inside vs p ↔ 0 < orient a b p)) ∧
      (orient b c p ≠ 0 ∧ (Inside vs p ↔ 0 < orient b c p)) := by
  have ha := h.dot_nonpos hab (right_mem_segment ℝ a b) (left_mem_segment ℝ a b)
  have hc := h.dot_nonpos hbc (left_mem_segment ℝ b c) (right_mem_segment ℝ b c)
  obtain ⟨k, hk, hkc⟩ := hs.straight_on hab hbc hturn
  have hsecond : orient b c p = k * orient a b p := by
    have h1 : c.1 - b.1 = k * (b.1 - a.1) := congrArg Prod.fst hkc
    have h2 : c.2 - b.2 = k * (b.2 - a.2) := congrArg Prod.snd hkc
    rw [orient, h1, h2, orient]
    ring
  have hsquare : dot (p - b) (b - a) = 0 := by
    rw [hkc, dot_smul_right] at hc
    rw [← neg_sub b a, ← neg_one_smul ℝ (b - a), dot_smul_right] at ha
    nlinarith
  have hside := orient_ne_zero_of_square (hs.ne_of_edge hab) hne (orient_right a b) hsquare
  have hfirst : Inside vs p ↔ 0 < orient a b p := by
    rw [inside_beside_corner hs hleft h hne hab hbc hside (by rw [hturn, mul_zero])
      (Or.inl (mul_self_pos.mpr hside))]
  rw [hsecond]
  exact ⟨⟨hside, hfirst⟩, mul_ne_zero hk.ne' hside,
    hfirst.trans (mul_pos_iff_of_pos_left hk).symm⟩

end

/-! ## The edge that is asked -/

/-- The first of the nearest edges, with its nearest point. -/
structure FirstNearest (vs : List (ℝ × ℝ)) (p : ℝ × ℝ) (e : (ℝ × ℝ) × (ℝ × ℝ)) (q : ℝ × ℝ) :
    Prop where
  mem : q ∈ segment ℝ e.1 e.2
  nearest : Nearest vs p q
  first : ∃ i : Nat, (edges vs)[i]? = some e ∧ ∀ j < i, ∀ f : (ℝ × ℝ) × (ℝ × ℝ),
    (edges vs)[j]? = some f →
    ∀ r ∈ segment ℝ f.1 f.2, distSq p q < distSq p r

/-- The side of an edge tells otherwise than the turn at its end; `accepts` tells which sides are
taken for the inside. -/
def Misread (accepts : ℝ → Prop) (turn side : ℝ) : Prop :=
  0 < turn ∧ accepts side ∨ turn < 0 ∧ ¬ accepts side

/-- The nearest point is the corner where an edge and the next meet, and the one of them that
comes first misleads. -/
def Misled (accepts : ℝ → Prop) (vs : List (ℝ × ℝ)) (p : ℝ × ℝ) : Prop :=
  ∃ a b c, (a, b) ∈ edges vs ∧ (b, c) ∈ edges vs ∧
    (FirstNearest vs p (a, b) b ∧ Misread accepts (orient a b c) (orient a b p) ∨
      FirstNearest vs p (b, c) b ∧ Misread accepts (orient a b c) (orient b c p))

section
variable {vs : List (ℝ × ℝ)} {p q q' : ℝ × ℝ} {e e' : (ℝ × ℝ) × (ℝ × ℝ)}

theorem FirstNearest.mem_edges (h : FirstNearest vs p e q) : e ∈ edges vs := by
  obtain ⟨i, hi, -⟩ := h.first
  exact List.mem_of_getElem? hi

theorem FirstNearest.edge_unique (h : FirstNearest vs p e q) (h' : FirstNearest vs p e' q') :
    e = e' := by
  obtain ⟨i, hi, hbefore⟩ := h.first
  obtain ⟨j, hj, hbefore'⟩ := h'.first
  rcases Nat.lt_trichotomy i j with hlt | rfl | hgt
  · have hle := h.nearest e' h'.mem_edges q' h'.mem
    exact absurd (hbefore' i hlt e hi q h.mem) (not_lt.mpr hle)
  · exact Option.some.inj (hi.symm.trans hj)
  · have hle := h'.nearest e h.mem_edges q h.mem
    exact absurd (hbefore j hgt e' hj q' h'.mem) (not_lt.mpr hle)

/-- An edge has one nearest point. -/
theorem FirstNearest.point_unique (h : FirstNearest vs p e q) (h' : FirstNearest vs p e q') :
    q = q' := by
  by_contra hne
  have hq := h.nearest.dot_nonpos h.mem_edges h.mem h'.mem
  have hq' := h'.nearest.dot_nonpos h.mem_edges h'.mem h.mem
  have hsum : dot (p - q) (q' - q) + dot (p - q') (q - q') = distSq q q' := by
    simp only [distSq, dot, Prod.fst_sub, Prod.snd_sub]
    ring
  linarith [distSq_pos hne]

end

section
variable {vs : List (ℝ × ℝ)} (hs : Simple vs) (hleft : ∀ e ∈ edges vs, Simple.InsideLeft vs e)
  {accepts : ℝ → Prop} (hpos : ∀ x, 0 < x → accepts x) (hneg : ∀ x < 0, ¬ accepts x)
  {p q a b c : ℝ × ℝ}

include hpos hneg in
theorem accepts_iff_of_ne_zero {x : ℝ} (hx : x ≠ 0) : accepts x ↔ 0 < x := by
  rcases lt_or_gt_of_ne hx with hlt | hgt
  · exact iff_of_false (hneg x hlt) hlt.not_gt
  · exact iff_of_true (hpos x hgt) hgt

theorem not_misread_zero {side : ℝ} : ¬ Misread accepts 0 side := by
  rintro (⟨h, -⟩ | ⟨h, -⟩)
  · exact lt_irrefl 0 h
  · exact lt_irrefl 0 h

include hs hleft hpos hneg

/-- What an edge tells of a place whose nearest point is its end or its beginning. -/
theorem accepts_at_corner (h : Nearest vs p b) (hne : p ≠ b) (hab : (a, b) ∈ edges vs)
    (hbc : (b, c) ∈ edges vs) {side : ℝ} (hside : side = orient a b p ∨ side = orient b c p) :
    (accepts side ↔ Inside vs p) ↔ ¬ Misread accepts (orient a b c) side := by
  rcases eq_or_ne (orient a b c) 0 with hzero | hturn
  · obtain ⟨⟨hne₁, h₁⟩, hne₂, h₂⟩ := inside_straight_on hs hleft h hne hab hbc hzero
    rw [hzero]
    refine iff_of_true ?_ not_misread_zero
    rcases hside with rfl | rfl
    · exact (accepts_iff_of_ne_zero hpos hneg hne₁).trans h₁.symm
    · exact (accepts_iff_of_ne_zero hpos hneg hne₂).trans h₂.symm
  · rw [inside_at_turn hs hleft h hne hab hbc hturn, Misread]
    rcases lt_or_gt_of_ne hturn with hright | hleftward
    · simp [hright, hright.not_gt]
    · simp [hleftward, hleftward.not_gt]

/-- **When the nearest edge tells what is inside.** -/
theorem accepts_iff (h : FirstNearest vs p (a, b) q) (hoff : Off vs p) :
    (accepts (orient a b p) ↔ Inside vs p) ↔ ¬ Misled accepts vs p := by
  have hab := h.mem_edges
  have hne : p ≠ q := by
    rintro rfl
    exact hoff _ hab h.mem
  have hends := h.mem
  rw [← insert_endpoints_openSegment] at hends
  rcases hends with rfl | rfl | hq
  · -- the nearest point is where the edge begins
    obtain ⟨z, hz⟩ := exists_prev (mem_of_mem_edges hab).1
    rw [accepts_at_corner hs hleft hpos hneg h.nearest hne hz hab (Or.inr rfl), not_iff_not]
    constructor
    · exact fun hmis => ⟨z, q, b, hz, hab, Or.inr ⟨h, hmis⟩⟩
    · rintro ⟨a', b', c', ha', hb', ⟨hfirst, hmis⟩ | ⟨hfirst, hmis⟩⟩
      · obtain ⟨rfl, rfl⟩ := Prod.mk.inj (h.edge_unique hfirst)
        exact absurd (h.point_unique hfirst) (hs.ne_of_edge hab)
      · obtain ⟨rfl, rfl⟩ := Prod.mk.inj (h.edge_unique hfirst)
        obtain rfl := hs.prev_unique hz ha'
        exact hmis
  · obtain ⟨c, hc⟩ := exists_next (mem_of_mem_edges hab).2
    rw [accepts_at_corner hs hleft hpos hneg h.nearest hne hab hc (Or.inl rfl), not_iff_not]
    constructor
    · exact fun hmis => ⟨a, q, c, hab, hc, Or.inl ⟨h, hmis⟩⟩
    · rintro ⟨a', b', c', ha', hb', ⟨hfirst, hmis⟩ | ⟨hfirst, hmis⟩⟩
      · obtain ⟨rfl, rfl⟩ := Prod.mk.inj (h.edge_unique hfirst)
        obtain rfl := next_unique hs.corners hc hb'
        exact hmis
      · obtain ⟨rfl, rfl⟩ := Prod.mk.inj (h.edge_unique hfirst)
        exact absurd (h.point_unique hfirst).symm (hs.ne_of_edge hab)
  · -- within an edge no corner misleads
    obtain ⟨hside, hin⟩ := inside_within_edge hs hleft h.nearest hne hab hq
    refine iff_of_true ((accepts_iff_of_ne_zero hpos hneg hside).trans hin.symm) ?_
    rintro ⟨a', b', c', ha', hb', ⟨hfirst, -⟩ | ⟨hfirst, -⟩⟩
    · obtain ⟨rfl, rfl⟩ := Prod.mk.inj (h.edge_unique hfirst)
      obtain rfl := h.point_unique hfirst
      exact hs.ne_of_edge hab (right_mem_openSegment_iff.mp hq)
    · obtain ⟨rfl, rfl⟩ := Prod.mk.inj (h.edge_unique hfirst)
      obtain rfl := h.point_unique hfirst
      exact hs.ne_of_edge hab (left_mem_openSegment_iff.mp hq)

end

end KartStack.Polygon
