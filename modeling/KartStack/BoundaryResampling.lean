import KartStack.CenterlineLength
import KartStack.RandomTrack

/-! # Resampled boundaries

`_resample_boundary` walks along a closed boundary in steps of one length.  For each step it
searches the lengths up to the cones for the last that is not beyond it, and divides what is
left by the length of the edge there.

The search takes the last of equal lengths, so it does not end at an edge of length zero
unless there is no other, and there the division is left out; that the number of the edge is
capped makes a difference only then.
-/
namespace KartStack.Sim2d
open KartStack.Python

/-- The place at the distance `s` along a closed line: on an edge that begins before it and
ends after it, at the fraction that is left. -/
def LiesAt (cones : List (ℝ × ℝ)) (s : ℝ) (p : ℝ × ℝ) : Prop :=
  ∃ (i : Nat) (edge : (ℝ × ℝ) × (ℝ × ℝ)) (frac : ℝ), (around cones)[i]? = some edge ∧
    ((edgeLengths cones).take i).sum ≤ s ∧ s ≤ ((edgeLengths cones).take (i + 1)).sum ∧
    (edgeLength MathLib.real edge = 0 ∧ frac = 0 ∨ 0 < edgeLength MathLib.real edge ∧
      frac = (s - ((edgeLengths cones).take i).sum) / edgeLength MathLib.real edge) ∧
    0 ≤ frac ∧ frac ≤ 1 ∧
    p = (edge.1.1 + frac * (edge.2.1 - edge.1.1), edge.1.2 + frac * (edge.2.2 - edge.1.2))

/-- What `np.searchsorted` finds from the right: what is before it is not greater, and what is
at it is. -/
theorem searchsorted_right (cum : List ℝ) (s : ℝ) :
    (∀ i c, i < (cum.takeWhile fun c => decide (c ≤ s)).length → cum[i]? = some c → c ≤ s) ∧
      ∀ c, cum[(cum.takeWhile fun c => decide (c ≤ s)).length]? = some c → s < c := by
  induction cum with
  | nil => exact ⟨fun i c hi => absurd hi (Nat.not_lt_zero i), fun c hc => absurd hc (by simp)⟩
  | cons a cum ih =>
    obtain ⟨hbefore, hat⟩ := ih
    by_cases ha : a ≤ s
    · have hcons : (a :: cum).takeWhile (fun c => decide (c ≤ s)) =
          a :: cum.takeWhile fun c => decide (c ≤ s) :=
        List.takeWhile_cons_of_pos (by simpa using ha)
      rw [hcons, List.length_cons]
      refine ⟨fun i c hi hc => ?_, hat⟩
      cases i with
      | zero =>
        obtain rfl := Option.some.inj hc
        exact ha
      | succ i => exact hbefore i c (Nat.lt_of_succ_lt_succ hi) hc
    · have hcons : (a :: cum).takeWhile (fun c => decide (c ≤ s)) = [] :=
        List.takeWhile_cons_of_neg (by simpa using ha)
      rw [hcons]
      refine ⟨fun i c hi => absurd hi (Nat.not_lt_zero i), fun c hc => ?_⟩
      obtain rfl := Option.some.inj hc
      exact not_le.mp ha

theorem edgeLength_pos_or (edge : (ℝ × ℝ) × (ℝ × ℝ)) :
    edgeLength MathLib.real edge = 0 ∧ edge.1 = edge.2 ∨ 0 < edgeLength MathLib.real edge := by
  rcases (edgeLength_nonneg edge).eq_or_lt with hzero | hpos
  · refine Or.inl ⟨hzero.symm, ?_⟩
    have hsq := Real.sqrt_eq_zero'.mp hzero.symm
    have hnonneg := add_nonneg (mul_self_nonneg (edge.2.1 - edge.1.1))
      (mul_self_nonneg (edge.2.2 - edge.1.2))
    obtain ⟨h1, h2⟩ := mul_self_add_mul_self_eq_zero.mp (le_antisymm hsq hnonneg)
    exact Prod.ext (sub_eq_zero.mp h1).symm (sub_eq_zero.mp h2).symm
  · exact Or.inr hpos

theorem edgeLengths_nonneg {cones : List (ℝ × ℝ)} {l : ℝ} (h : l ∈ edgeLengths cones) :
    0 ≤ l := by
  obtain ⟨edge, -, rfl⟩ := List.mem_map.mp h
  exact edgeLength_nonneg edge

theorem sum_take_nonneg (cones : List (ℝ × ℝ)) (i : Nat) :
    0 ≤ ((edgeLengths cones).take i).sum :=
  List.sum_nonneg fun _ hl => edgeLengths_nonneg (List.mem_of_mem_take hl)

theorem sum_take_le (cones : List (ℝ × ℝ)) (i : Nat) :
    ((edgeLengths cones).take i).sum ≤ (edgeLengths cones).sum := by
  have hrest : 0 ≤ ((edgeLengths cones).drop i).sum :=
    List.sum_nonneg fun _ hl => edgeLengths_nonneg (List.mem_of_mem_drop hl)
  have hsum := List.sum_take_add_sum_drop (edgeLengths cones) i
  linarith

section
variable {cones : List (ℝ × ℝ)} {first : ℝ × ℝ} (hfirst : cones.head? = some first)
include hfirst

/-- The edges of the closed boundary. -/
theorem getElem?_closed {i : Nat} {edge : (ℝ × ℝ) × (ℝ × ℝ)}
    (hedge : (around cones)[i]? = some edge) :
    (cones ++ [first])[i]? = some edge.1 ∧ (cones ++ [first])[i + 1]? = some edge.2 := by
  obtain ⟨hi, rfl⟩ := getElem?_around.mp hedge
  refine ⟨?_, ?_⟩
  · rw [List.getElem?_append_left hi, List.getElem?_eq_getElem hi]
  · rcases Nat.lt_or_ge (i + 1) cones.length with hlt | hge
    · rw [List.getElem?_append_left hlt, List.getElem?_eq_getElem hlt]
      simp only [List.get_eq_getElem, Nat.mod_eq_of_lt hlt]
    · have hlast : i + 1 = cones.length := by omega
      rw [List.getElem?_append_right hge, hlast, Nat.sub_self]
      simp only [List.get_eq_getElem, Nat.mod_self]
      rw [List.head?_eq_getElem?] at hfirst
      rw [← hfirst.symm.trans (List.getElem?_eq_getElem (Nat.zero_lt_of_lt hi))]
      rfl

/-- The lengths up to the cones. -/
theorem cumS_closed {i : Nat} (hi : i ≤ cones.length) :
    (cumS MathLib.real 0 (cones ++ [first]))[i]? = some ((edgeLengths cones).take i).sum := by
  induction i with
  | zero =>
    obtain ⟨c, cs, rfl⟩ : ∃ c cs, cones = c :: cs := by
      refine List.exists_cons_of_ne_nil fun hnil => ?_
      rw [hnil] at hfirst
      cases hfirst
    cases cs <;> rfl
  | succ i ih =>
    obtain ⟨edge, hedge⟩ : ∃ edge, (around cones)[i]? = some edge :=
      ⟨_, List.getElem?_eq_getElem (by rwa [around_length])⟩
    obtain ⟨hp, hq⟩ := getElem?_closed hfirst hedge
    rw [cumS_next MathLib.real hp hq (ih (Nat.le_of_succ_le hi)), take_succ_edgeLengths hedge]

/-- The edge that the search ends at, capped. -/
theorem search_ends {s : ℝ} (hs : 0 ≤ s)
    (hend : s < (edgeLengths cones).sum ∨ (edgeLengths cones).sum = 0 ∧ s = 0) :
    let i := min (((cumS MathLib.real 0 (cones ++ [first])).takeWhile
      fun c => decide (c ≤ s)).length - 1) (cones.length - 1)
    i < cones.length ∧ ((edgeLengths cones).take i).sum ≤ s ∧
      s ≤ ((edgeLengths cones).take (i + 1)).sum := by
  intro i
  have hpos : 0 < cones.length := by
    refine List.length_pos_of_ne_nil fun hnil => ?_
    rw [hnil] at hfirst
    cases hfirst
  have hi : i < cones.length := by omega
  have hidx : i = min _ _ := rfl
  clear_value i
  refine ⟨hi, ?_⟩
  rcases hend with hlt | ⟨htotal, rfl⟩
  · obtain ⟨hbefore, hat⟩ := searchsorted_right (cumS MathLib.real 0 (cones ++ [first])) s
    generalize ((cumS MathLib.real 0 (cones ++ [first])).takeWhile
      fun c => decide (c ≤ s)).length = found at hidx hbefore hat
    -- the search ends after the first cone and before the last is closed
    have hle : found ≤ cones.length := by
      by_contra hgt
      have hall := hbefore _ _ (not_le.mp hgt) (cumS_closed hfirst (le_refl _))
      rw [List.take_of_length_le (by rw [edgeLengths, List.length_map, around_length])] at hall
      exact hall.not_gt hlt
    have hge : 0 < found := by
      by_contra hzero
      obtain rfl : found = 0 := by omega
      exact (hat _ (cumS_closed hfirst (Nat.zero_le _))).not_ge hs
    have hfound : i + 1 = found := by omega
    rw [hfound]
    exact ⟨hbefore i _ (by omega) (cumS_closed hfirst hi.le), (hat _ (cumS_closed hfirst hle)).le⟩
  · exact ⟨(sum_take_le cones i).trans htotal.le, sum_take_nonneg cones (i + 1)⟩

/-- One step of the resampling. -/
theorem resampled_liesAt {s : ℝ} (hs : 0 ≤ s)
    (hend : s < (edgeLengths cones).sum ∨ (edgeLengths cones).sum = 0 ∧ s = 0) {p : ℝ × ℝ}
    (h : resampled MathLib.real (cones ++ [first]) (cumS MathLib.real 0 (cones ++ [first]))
      (cones.length - 1) s = some p) : LiesAt cones s p := by
  obtain ⟨hi, hlow, hhigh⟩ := search_ends hfirst hs hend
  simp only [resampled] at h
  generalize min (((cumS MathLib.real 0 (cones ++ [first])).takeWhile
    fun c => decide (c ≤ s)).length - 1) (cones.length - 1) = i at h hi hlow hhigh
  obtain ⟨edge, hedge⟩ : ∃ edge, (around cones)[i]? = some edge :=
    ⟨_, List.getElem?_eq_getElem (by rwa [around_length])⟩
  obtain ⟨hp, hq⟩ := getElem?_closed hfirst hedge
  rw [hp, hq, cumS_closed hfirst hi.le] at h
  obtain rfl := Option.some.inj h
  rw [take_succ_edgeLengths hedge] at hhigh
  rcases edgeLength_pos_or edge with ⟨hzero, -⟩ | hpos
  · refine ⟨i, edge, 0, hedge, hlow, ?_, Or.inl ⟨hzero, rfl⟩, le_refl 0, zero_le_one, ?_⟩
    · rwa [take_succ_edgeLengths hedge]
    · have hnone : ¬ 0 < MathLib.real.hypot (edge.2.1 - edge.1.1) (edge.2.2 - edge.1.2) :=
        hzero.not_gt
      rw [if_neg hnone]
  · refine ⟨i, edge, (s - ((edgeLengths cones).take i).sum) / edgeLength MathLib.real edge, hedge,
      hlow, ?_, Or.inr ⟨hpos, rfl⟩, div_nonneg (sub_nonneg.mpr hlow) hpos.le,
      (div_le_one hpos).mpr (by linarith), ?_⟩
    · rwa [take_succ_edgeLengths hedge]
    · have hsome : 0 < MathLib.real.hypot (edge.2.1 - edge.1.1) (edge.2.2 - edge.1.2) := hpos
      rw [if_pos hsome]
      rfl

end

/-- Edges of no length lead back to the first cone. -/
theorem begins_at_first {cones : List (ℝ × ℝ)} {i : Nat} {edge : (ℝ × ℝ) × (ℝ × ℝ)}
    (hedge : (around cones)[i]? = some edge) (hzero : ((edgeLengths cones).take i).sum = 0) :
    cones.head? = some edge.1 := by
  induction i generalizing edge with
  | zero =>
    obtain ⟨h, rfl⟩ := getElem?_around.mp hedge
    rw [List.head?_eq_getElem?, List.getElem?_eq_getElem h]
  | succ i ih =>
    have hlt := (List.getElem?_eq_some_iff.mp hedge).1
    have hbefore := List.getElem?_eq_getElem (Nat.lt_of_succ_lt hlt)
    rw [take_succ_edgeLengths hbefore] at hzero
    have hsum := sum_take_nonneg cones i
    rcases edgeLength_pos_or (around cones)[i] with ⟨hnone, hsame⟩ | hpos
    · rw [ih hbefore (by linarith), hsame, around_next hbefore hedge]
    · linarith

/-- What lies at the distance zero is the first cone, also where the first edges have no
length. -/
theorem liesAt_zero {cones : List (ℝ × ℝ)} {p : ℝ × ℝ} (h : LiesAt cones 0 p) :
    cones.head? = some p := by
  obtain ⟨i, edge, frac, hedge, hlow, -, hfrac, -, -, rfl⟩ := h
  have hzero := le_antisymm hlow (sum_take_nonneg cones i)
  obtain rfl : frac = 0 := by
    rcases hfrac with ⟨-, rfl⟩ | ⟨-, rfl⟩
    · rfl
    · rw [hzero, sub_zero, zero_div]
  rw [begins_at_first hedge hzero, zero_mul, zero_mul, add_zero, add_zero]

/-- **The resampling of a boundary is sound.** -/
theorem resampleBoundary_sound {cones : List (ℝ × ℝ)} (hne : cones ≠ []) {n : Nat} (hn : 1 ≤ n) :
    ∃ out, resampleBoundary MathLib.real cones n = some out ∧ out.length = n ∧
      out.head? = cones.head? ∧ ∀ (k : Nat) (p : ℝ × ℝ), out[k]? = some p →
        LiesAt cones (k * (edgeLengths cones).sum / n) p := by
  obtain ⟨out, hout, hlength⟩ := exists_resampleBoundary MathLib.real hne n
  have hlies : ∀ (k : Nat) (p : ℝ × ℝ), out[k]? = some p →
      LiesAt cones (k * (edgeLengths cones).sum / n) p := by
    intro k p hp
    simp only [resampleBoundary, Option.bind_eq_bind, Option.bind_eq_some_iff] at hout
    obtain ⟨first, hfirst, total, htotal, hmapM⟩ := hout
    have hk : k < n := hlength ▸ (List.getElem?_eq_some_iff.mp hp).1
    obtain ⟨q, hq, hstep⟩ := getElem?_of_mapM hmapM (List.getElem?_range hk)
    obtain rfl := Option.some.inj (hq.symm.trans hp)
    obtain rfl : (edgeLengths cones).sum = total := by
      have hlast := cumS_closed hfirst (le_refl cones.length)
      rw [List.take_of_length_le (by rw [edgeLengths, List.length_map, around_length])] at hlast
      rw [List.getLast?_eq_getElem?, cumS_length, List.length_append, List.length_singleton,
        Nat.add_sub_cancel, hlast] at htotal
      exact Option.some.inj htotal
    have htotal : 0 ≤ (edgeLengths cones).sum := List.sum_nonneg fun _ => edgeLengths_nonneg
    have hn' : (0 : ℝ) < n := Nat.cast_pos.mpr hn
    have hk' : (k : ℝ) < n := Nat.cast_lt.mpr hk
    rw [← mul_div_assoc] at hstep
    refine resampled_liesAt hfirst (by positivity) ?_ hstep
    rcases htotal.eq_or_lt with hzero | hpos
    · exact Or.inr ⟨hzero.symm, by rw [← hzero, mul_zero, zero_div]⟩
    · exact Or.inl ((div_lt_iff₀ hn').mpr (by nlinarith))
  refine ⟨out, hout, hlength, ?_, hlies⟩
  obtain ⟨p, hp⟩ : ∃ p, out[0]? = some p := ⟨_, List.getElem?_eq_getElem (by omega)⟩
  have hzero := hlies 0 p hp
  rw [Nat.cast_zero, zero_mul, zero_div] at hzero
  rw [liesAt_zero hzero, List.head?_eq_getElem?, hp]

/-- A boundary that begins with a cone twice. -/
theorem resampleBoundary_sound_twice :
    ∃ out, resampleBoundary MathLib.real [(0, 0), (0, 0), (3, 4)] 4 = some out ∧
      out.length = 4 ∧ out.head? = some (0, 0) ∧ ∀ (k : Nat) (p : ℝ × ℝ), out[k]? = some p →
        LiesAt [(0, 0), (0, 0), (3, 4)]
          (k * (edgeLengths [(0, 0), (0, 0), (3, 4)]).sum / (4 : Nat)) p :=
  resampleBoundary_sound (List.cons_ne_nil _ _) (by decide)

end KartStack.Sim2d
