import KartStack.NearestEdge

/-! # A closed line within another

Two closed lines that keep apart are each inside the other as a whole or outside
(`inside_of_apart_line`), and not each inside the other: the highest corner of both is outside
(`not_both_inside`).  So if a line runs inside another, what is inside the first is inside the
second (`Nested.inside`).
-/
namespace KartStack.Polygon

/-- No edge of one closed line meets an edge of the other. -/
def Apart (vs ws : List (ℝ × ℝ)) : Prop :=
  ∀ e ∈ edges vs, ∀ f ∈ edges ws, Disjoint (segment ℝ e.1 e.2) (segment ℝ f.1 f.2)

theorem Apart.symm {vs ws : List (ℝ × ℝ)} (h : Apart vs ws) : Apart ws vs :=
  fun f hf e he => (h e he f hf).symm

section
variable {vs ws : List (ℝ × ℝ)}

/-- What is inside at one point of an edge is inside along the edge. -/
theorem inside_along (h : Apart vs ws) {e : (ℝ × ℝ) × (ℝ × ℝ)} (he : e ∈ edges vs)
    {r s : ℝ × ℝ} (hr : r ∈ segment ℝ e.1 e.2) (hs : s ∈ segment ℝ e.1 e.2) :
    Inside ws r ↔ Inside ws s :=
  inside_of_disjoint fun f hf =>
    (h.symm f hf e he).mono_right ((convex_segment e.1 e.2).segment_subset hr hs)

/-- A line that keeps apart from another is inside as a whole or outside. -/
theorem inside_of_apart_line (h : Apart vs ws) {e : (ℝ × ℝ) × (ℝ × ℝ)} (he : e ∈ edges vs)
    {r : ℝ × ℝ} (hr : r ∈ segment ℝ e.1 e.2) (hin : Inside ws r) :
    ∀ f ∈ edges vs, ∀ s ∈ segment ℝ f.1 f.2, Inside ws s := by
  have hends : ∀ f ∈ edges vs, Inside ws f.2 := by
    refine forall_edges (P := fun f => Inside ws f.2) ?_ he ?_
    · intro a b c _ hbc hb
      exact (inside_along h hbc (left_mem_segment ℝ b c) (right_mem_segment ℝ b c)).mp hb
    · exact (inside_along h he hr (right_mem_segment ℝ e.1 e.2)).mp hin
  intro f hf s hs
  exact (inside_along h hf (right_mem_segment ℝ f.1 f.2) hs).mp (hends f hf)

/-- A place no lower than any corner is outside. -/
theorem not_inside_of_above {p : ℝ × ℝ} (h : ∀ v ∈ vs, v.2 ≤ p.2) : ¬ Inside vs p := by
  rw [Inside, List.countP_eq_zero.mpr]
  · decide
  · rintro ⟨a, b⟩ he
    obtain ⟨ha, hb⟩ := mem_of_mem_edges he
    rw [decide_eq_true_iff]
    exact fun hmeets => hmeets.1 (iff_of_false (h a ha).not_gt (h b hb).not_gt)

theorem exists_highest (hne : vs ≠ []) : ∃ b ∈ vs, ∀ v ∈ vs, v.2 ≤ b.2 := by
  classical
  obtain ⟨b, hb, hmax⟩ := Finset.exists_max_image vs.toFinset Prod.snd
    (by rwa [List.toFinset_nonempty_iff])
  exact ⟨b, List.mem_toFinset.mp hb, fun v hv => hmax v (List.mem_toFinset.mpr hv)⟩

/-- Two lines are not each inside the other. -/
theorem not_both_inside (hvs : vs ≠ []) (hws : ws ≠ []) (h : ∀ v ∈ vs, Inside ws v) :
    ∃ w ∈ ws, ¬ Inside vs w := by
  obtain ⟨v, hv, hhighest⟩ := exists_highest hvs
  obtain ⟨w, hw, hhighest'⟩ := exists_highest hws
  rcases le_total v.2 w.2 with hle | hle
  · exact ⟨w, hw, not_inside_of_above fun u hu => (hhighest u hu).trans hle⟩
  · exact absurd (h v hv) (not_inside_of_above fun u hu => (hhighest' u hu).trans hle)

/-- A closed line has a nearest point. -/
theorem exists_nearest (hne : vs ≠ []) (p : ℝ × ℝ) :
    ∃ e ∈ edges vs, ∃ q ∈ segment ℝ e.1 e.2, Nearest vs p q := by
  have hcompact : IsCompact (⋃ e ∈ {e | e ∈ edges vs}, segment ℝ e.1 e.2) :=
    (List.finite_toSet (edges vs)).isCompact_biUnion fun e _ => isCompact_segment e.1 e.2
  obtain ⟨b, hb⟩ := exists_highest hne
  obtain ⟨c, hbc⟩ := exists_next hb.1
  have hnonempty : (⋃ e ∈ {e | e ∈ edges vs}, segment ℝ e.1 e.2).Nonempty :=
    ⟨b, Set.mem_biUnion (show (b, c) ∈ {e | e ∈ edges vs} from hbc) (left_mem_segment ℝ b c)⟩
  have hcont : Continuous (distSq p) := by
    unfold distSq dot
    fun_prop
  obtain ⟨q, hq, hmin⟩ := hcompact.exists_isMinOn hnonempty hcont.continuousOn
  obtain ⟨e, he, hqe⟩ := Set.mem_iUnion₂.mp hq
  exact ⟨e, he, q, hqe, fun f hf r hr =>
    hmin (Set.mem_biUnion (show f ∈ {e | e ∈ edges vs} from hf) hr)⟩

end

/-- A closed line that runs inside another. -/
structure Nested (vs ws : List (ℝ × ℝ)) : Prop where
  apart : Apart vs ws
  within : ∀ v ∈ vs, Inside ws v

/-- **What is inside the inner line is inside the outer.** -/
theorem Nested.inside {vs ws : List (ℝ × ℝ)} (h : Nested vs ws) (hvs : vs ≠ []) (hws : ws ≠ [])
    {p : ℝ × ℝ} (hoff : Off vs p) (hin : Inside vs p) : Inside ws p := by
  obtain ⟨⟨a, b⟩, hab, q, hq, hnearest⟩ := exists_nearest hvs p
  have hne : p ≠ q := by
    rintro rfl
    exact hoff _ hab hq
  have hqin : Inside ws q :=
    inside_of_apart_line h.apart hab (left_mem_segment ℝ a b)
      (h.within a (mem_of_mem_edges hab).1) _ hab q hq
  by_contra hout
  -- the way to the nearest point of the inner line meets the outer line
  obtain ⟨f, hf, r, hr, hmeets⟩ : ∃ f ∈ edges ws, ∃ r ∈ segment ℝ q p, r ∈ segment ℝ f.1 f.2 := by
    by_contra hnone
    refine hout ((inside_of_disjoint fun f hf => ?_).mp hqin)
    exact Set.disjoint_left.mpr fun r hr hr' => hnone ⟨f, hf, r, hr', hr⟩
  -- at a point inside the inner line
  have hrin : Inside vs r := by
    obtain ⟨u, v, hu, hv, huv, rfl⟩ := hr
    have hv0 : v ≠ 0 := by
      rintro rfl
      obtain rfl : u = 1 := by linarith
      rw [one_smul, zero_smul, add_zero] at hmeets
      exact Set.disjoint_left.mp (h.apart _ hab f hf) hq hmeets
    have hstep : u • q + v • p = q + v • (p - q) := by
      obtain rfl := eq_sub_of_add_eq huv
      module
    rw [hstep]
    exact (hnearest.inside_toward hne (lt_of_le_of_ne hv (Ne.symm hv0)) (by linarith)).mpr hin
  obtain ⟨w, hw, hwout⟩ := not_both_inside hvs hws h.within
  obtain ⟨x, hwx⟩ := exists_next hw
  exact hwout (inside_of_apart_line h.apart.symm hf hmeets hrin _ hwx w (left_mem_segment ℝ w x))

/-! ## Triangles -/

section
variable {a b c : ℝ × ℝ}

theorem eq_corner_of_mem (h : orient a b c ≠ 0) {r : ℝ × ℝ} (hr : r ∈ segment ℝ a b)
    (hr' : r ∈ segment ℝ b c) : r = b := by
  have hline := orient_of_mem hr
  obtain ⟨s, t, -, -, hst, rfl⟩ := hr'
  rw [orient_combo a b b c hst, orient_right, mul_zero, zero_add] at hline
  obtain rfl := (mul_eq_zero.mp hline).resolve_right h
  obtain rfl : s = 1 := by linarith
  rw [one_smul, zero_smul, add_zero]

theorem mem_edges_triangle {e : (ℝ × ℝ) × (ℝ × ℝ)} :
    e ∈ edges [a, b, c] ↔ e = (a, b) ∨ e = (b, c) ∨ e = (c, a) := by
  change e ∈ [(a, b), (b, c), (c, a)] ↔ _
  simp only [List.mem_cons, List.not_mem_nil, or_false]

/-- A triangle is simple. -/
theorem simple_triangle (h : orient a b c ≠ 0) : Simple [a, b, c] where
  three := le_rfl
  corners := by
    have hab : a ≠ b := by
      rintro rfl
      exact h (by simp [orient])
    have hbc : b ≠ c := by
      rintro rfl
      exact h (orient_right a b)
    have hac : a ≠ c := by
      rintro rfl
      exact h (orient_left a b)
    simp [hab, hbc, hac]
  meets := by
    have hbca : orient b c a ≠ 0 := by rwa [orient_cycle]
    have hcab : orient c a b ≠ 0 := by rwa [orient_cycle]
    intro e he f hf hne r hr hr'
    rcases mem_edges_triangle.mp he with rfl | rfl | rfl <;>
      rcases mem_edges_triangle.mp hf with rfl | rfl | rfl
    · exact absurd rfl hne
    · exact Or.inl ⟨eq_corner_of_mem h hr hr', eq_corner_of_mem h hr hr'⟩
    · exact Or.inr ⟨eq_corner_of_mem hcab hr' hr, eq_corner_of_mem hcab hr' hr⟩
    · exact Or.inr ⟨eq_corner_of_mem h hr' hr, eq_corner_of_mem h hr' hr⟩
    · exact absurd rfl hne
    · exact Or.inl ⟨eq_corner_of_mem hbca hr hr', eq_corner_of_mem hbca hr hr'⟩
    · exact Or.inl ⟨eq_corner_of_mem hcab hr hr', eq_corner_of_mem hcab hr hr'⟩
    · exact Or.inr ⟨eq_corner_of_mem hbca hr' hr, eq_corner_of_mem hbca hr' hr⟩
    · exact absurd rfl hne

/-- It is listed counterclockwise if its corners turn left. -/
theorem counterclockwise_triangle (h : 0 < orient a b c) : Counterclockwise [a, b, c] := by
  have hcorners := (simple_triangle h.ne').corners
  intro x y z hxy hyz _
  rcases mem_edges_triangle.mp hxy with heq | heq | heq
  · obtain ⟨rfl, rfl⟩ := Prod.mk.inj heq
    rwa [next_unique hcorners hyz (mem_edges_triangle.mpr (Or.inr (Or.inl rfl)))]
  · obtain ⟨rfl, rfl⟩ := Prod.mk.inj heq
    rwa [next_unique hcorners hyz (mem_edges_triangle.mpr (Or.inr (Or.inr rfl))), orient_cycle]
  · obtain ⟨rfl, rfl⟩ := Prod.mk.inj heq
    rwa [next_unique hcorners hyz (mem_edges_triangle.mpr (Or.inl rfl)), ← orient_cycle]

end

/-- Corners on one side of all edges keep apart from them. -/
theorem apart_of_left {vs ws : List (ℝ × ℝ)}
    (h : ∀ f ∈ edges ws, ∀ v ∈ vs, 0 < orient f.1 f.2 v) : Apart vs ws := by
  rintro ⟨a, b⟩ he f hf
  refine Set.disjoint_left.mpr fun r hr hr' => ?_
  obtain ⟨ha, hb⟩ := mem_of_mem_edges he
  have hside : 0 < 1 * orient f.1 f.2 r := by
    refine (convex_side 1 f.1 f.2).segment_subset ?_ ?_ hr
    · simpa using h f hf a ha
    · simpa using h f hf b hb
  rw [orient_of_mem hr', mul_zero] at hside
  exact lt_irrefl 0 hside

theorem off_of_orient {vs : List (ℝ × ℝ)} {p : ℝ × ℝ}
    (h : ∀ f ∈ edges vs, orient f.1 f.2 p ≠ 0) : Off vs p :=
  fun f hf hmem => h f hf (orient_of_mem hmem)

end KartStack.Polygon
