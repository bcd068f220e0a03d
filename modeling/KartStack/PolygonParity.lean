import Mathlib.Algebra.Order.Field.Basic
import Mathlib.Algebra.Ring.Parity
import Mathlib.Data.List.Rotate
import Mathlib.Analysis.Convex.Segment
import Mathlib.Order.CompletePartialOrder
import Mathlib.Tactic.Linarith
import Mathlib.Tactic.Ring
import Mathlib.Tactic.FieldSimp

/-! # The even-odd rule

A place is inside a closed line if the ray from it along the first axis meets an odd number
of edges.  Which edges the ray meets changes as the place moves, also where the place keeps
off the line: the height of a corner is passed, and the ray leaves one edge for the next.

So a move along a segment is compared with the rays from the corners back against the axis:
for an edge that the segment keeps off, the rays from the ends of the segment change as much
as those from the ends of the edge (`parity_of_apart`), and every corner is the beginning of
one edge and the end of another.  A segment that does not meet the line is therefore inside
as a whole or outside (`inside_of_disjoint`), and one that crosses a single edge leads from
the inside to the outside (`inside_of_crosses`).
-/
namespace KartStack.Polygon

section
variable {K : Type} [Field K]

/-- Positive if `p` is left of the line from `a` to `b`. -/
def orient (a b p : K × K) : K := (b.1 - a.1) * (p.2 - a.2) - (b.2 - a.2) * (p.1 - a.1)

theorem orient_swap (a b p : K × K) : orient b a p = -orient a b p := by
  simp only [orient]
  ring

theorem orient_sub (a b p q : K × K) :
    orient a b p - orient a b q = orient p q b - orient p q a := by
  simp only [orient]
  ring

/-- How the sides of two segments go together, by the height of the end of one. -/
theorem orient_height (a b p q : K × K) :
    orient p q a * (b.2 - a.2) = orient a b q * (p.2 - a.2) - orient a b p * (q.2 - a.2) := by
  simp only [orient]
  ring

theorem orient_height' (a b p q : K × K) :
    orient p q b * (b.2 - a.2) = orient a b q * (p.2 - b.2) - orient a b p * (q.2 - b.2) := by
  simp only [orient]
  ring

variable [LinearOrder K]

/-- The ray from `p` along the first axis meets an edge. -/
def Meets (p : K × K) (e : (K × K) × (K × K)) : Prop :=
  ¬ (p.2 < e.1.2 ↔ p.2 < e.2.2) ∧
    p.1 < (e.2.1 - e.1.1) * (p.2 - e.1.2) / (e.2.2 - e.1.2) + e.1.1

/-- The ray from `v` against the first axis meets the segment from `p` to `q`. -/
def Passes (p q v : K × K) : Prop :=
  ¬ (p.2 < v.2 ↔ q.2 < v.2) ∧ 0 < (p.2 - q.2) * orient p q v

instance (p : K × K) : DecidablePred (Meets p) := fun _ => inferInstanceAs (Decidable (_ ∧ _))

instance (p q : K × K) : DecidablePred (Passes p q) :=
  fun _ => inferInstanceAs (Decidable (_ ∧ _))

/-- Each segment has the ends of the other on different sides, or touches it there. -/
def Touches (a b p q : K × K) : Prop :=
  orient a b p * orient a b q ≤ 0 ∧ orient p q a * orient p q b ≤ 0 ∧
    orient a b p ≠ orient a b q

theorem passes_swap (p q v : K × K) : Passes q p v ↔ Passes p q v := by
  rw [Passes, Passes, orient_swap, iff_comm (a := q.2 < v.2)]
  have hsign : (q.2 - p.2) * -orient p q v = (p.2 - q.2) * orient p q v := by ring
  rw [hsign]

variable [IsStrictOrderedRing K]

/-- By the sign of the slope, and with no division. -/
theorem meets_iff (p : K × K) (e : (K × K) × (K × K)) :
    Meets p e ↔ ¬ (p.2 < e.1.2 ↔ p.2 < e.2.2) ∧
      0 < (e.2.2 - e.1.2) * orient e.1 e.2 p := by
  refine and_congr_right fun hsplit => ?_
  have hne : e.2.2 - e.1.2 ≠ 0 := by
    intro hzero
    rw [sub_eq_zero.mp hzero] at hsplit
    exact hsplit Iff.rfl
  have hsq : 0 < (e.2.2 - e.1.2) ^ 2 := by positivity
  have hdiff : (e.2.2 - e.1.2) * orient e.1 e.2 p =
      ((e.2.1 - e.1.1) * (p.2 - e.1.2) / (e.2.2 - e.1.2) + e.1.1 - p.1) * (e.2.2 - e.1.2) ^ 2 := by
    rw [orient]
    field_simp
    ring
  rw [hdiff, mul_pos_iff_of_pos_right hsq, sub_pos]

theorem meets_swap (p a b : K × K) : Meets p (b, a) ↔ Meets p (a, b) := by
  rw [meets_iff, meets_iff, orient_swap, iff_comm (a := p.2 < b.2)]
  have hsign : (a.2 - b.2) * -orient a b p = (b.2 - a.2) * orient a b p := by ring
  rw [hsign]

/-- A rising edge. -/
theorem meets_rising {a b : K × K} (h : a.2 ≤ b.2) (p : K × K) :
    Meets p (a, b) ↔ a.2 ≤ p.2 ∧ p.2 < b.2 ∧ 0 < orient a b p := by
  rw [meets_iff]
  constructor
  · rintro ⟨hsplit, hpos⟩
    rcases h.eq_or_lt with heq | hlt
    · rw [heq] at hsplit
      exact absurd Iff.rfl hsplit
    · rw [mul_pos_iff_of_pos_left (sub_pos.mpr hlt)] at hpos
      by_cases hlow : p.2 < a.2
      · exact absurd (iff_of_true hlow (hlow.trans hlt)) hsplit
      · by_cases hhigh : p.2 < b.2
        · exact ⟨not_lt.mp hlow, hhigh, hpos⟩
        · exact absurd (iff_of_false hlow hhigh) hsplit
  · rintro ⟨hlow, hhigh, hpos⟩
    exact ⟨fun hsplit => hlow.not_gt (hsplit.mpr hhigh),
      mul_pos (sub_pos.mpr (hlow.trans_lt hhigh)) hpos⟩

theorem passes_rising {p q : K × K} (h : p.2 ≤ q.2) (v : K × K) :
    Passes p q v ↔ p.2 < v.2 ∧ v.2 ≤ q.2 ∧ orient p q v < 0 := by
  rw [Passes]
  constructor
  · rintro ⟨hsplit, hpos⟩
    rcases h.eq_or_lt with heq | hlt
    · rw [heq] at hsplit
      exact absurd Iff.rfl hsplit
    · have hneg : orient p q v < 0 := by
        by_contra hge
        exact absurd hpos (not_lt.mpr
          (mul_nonpos_of_nonpos_of_nonneg (sub_nonpos.mpr h) (not_lt.mp hge)))
      by_cases hhigh : q.2 < v.2
      · exact absurd (iff_of_true (hlt.trans hhigh) hhigh) hsplit
      · by_cases hlow : p.2 < v.2
        · exact ⟨hlow, not_lt.mp hhigh, hneg⟩
        · exact absurd (iff_of_false hlow hhigh) hsplit
  · rintro ⟨hlow, hhigh, hneg⟩
    exact ⟨fun hsplit => hhigh.not_gt (hsplit.mp hlow),
      mul_pos_of_neg_of_neg (sub_neg.mpr (hlow.trans_le hhigh)) hneg⟩

/-! ## Two segments -/

section
variable {a b p q : K × K}

omit [IsStrictOrderedRing K] in
theorem Touches.symm (h : Touches a b p q) : Touches p q a b := by
  obtain ⟨hab, hpq, hne⟩ := h
  refine ⟨hpq, hab, fun heq => hne (sub_eq_zero.mp ?_)⟩
  rw [orient_sub, heq, sub_self]

/-- A segment at the heights of the other has both ends on one side of it. -/
theorem touches_of_within (hp : a.2 ≤ p.2) (hpq : p.2 ≤ q.2) (hq : q.2 ≤ b.2) (hab : a.2 < b.2)
    (hsides : orient a b p * orient a b q ≤ 0) (hne : orient a b p ≠ orient a b q) :
    Touches a b p q := by
  have hheight : 0 < b.2 - a.2 := sub_pos.mpr hab
  have ha := orient_height a b p q
  have hb := orient_height' a b p q
  refine ⟨hsides, ?_, hne⟩
  rcases mul_nonpos_iff.mp hsides with ⟨h1, h2⟩ | ⟨h1, h2⟩
  · have hanonpos : orient p q a ≤ 0 := by
      by_contra hc
      nlinarith
    have hbnonneg : 0 ≤ orient p q b := by
      by_contra hc
      nlinarith
    exact mul_nonpos_of_nonpos_of_nonneg hanonpos hbnonneg
  · have hanonneg : 0 ≤ orient p q a := by
      by_contra hc
      nlinarith
    have hbnonpos : orient p q b ≤ 0 := by
      by_contra hc
      nlinarith
    exact mul_nonpos_of_nonneg_of_nonpos hanonneg hbnonpos

/-- The segment from `p` to `q` begins below the edge and ends beside it. -/
theorem touches_of_below (hp : p.2 < a.2) (ha : a.2 ≤ q.2) (hq : q.2 < b.2)
    (hsides : 0 < orient a b q ∧ 0 ≤ orient p q a ∨ orient a b q ≤ 0 ∧ orient p q a < 0) :
    Touches a b p q := by
  have hheight := orient_height a b p q
  have hheight' := orient_height' p q a b
  rcases hsides with ⟨hside, hpass⟩ | ⟨hside, hpass⟩
  · have hpneg : orient a b p < 0 := by
      by_contra hc
      nlinarith
    have hbneg : orient p q b ≤ 0 := by
      by_contra hc
      nlinarith
    exact ⟨mul_nonpos_of_nonpos_of_nonneg hpneg.le hside.le,
      mul_nonpos_of_nonneg_of_nonpos hpass hbneg, (hpneg.trans hside).ne⟩
  · have hppos : 0 < orient a b p := by
      by_contra hc
      nlinarith
    have hbpos : 0 ≤ orient p q b := by
      by_contra hc
      nlinarith
    exact ⟨mul_nonpos_of_nonneg_of_nonpos hppos.le hside,
      mul_nonpos_of_nonpos_of_nonneg hpass.le hbpos, (hside.trans_lt hppos).ne'⟩

/-- The segment from `p` to `q` begins beside the edge and ends above it. -/
theorem touches_of_above (hp : a.2 ≤ p.2) (hb : p.2 < b.2) (hq : b.2 ≤ q.2)
    (hsides : 0 < orient a b p ∧ 0 ≤ orient p q b ∨ orient a b p ≤ 0 ∧ orient p q b < 0) :
    Touches a b p q := by
  have hheight := orient_height' a b p q
  have hheight' := orient_height p q a b
  rcases hsides with ⟨hside, hpass⟩ | ⟨hside, hpass⟩
  · have hqneg : orient a b q ≤ 0 := by
      by_contra hc
      nlinarith
    have haneg : orient p q a ≤ 0 := by
      by_contra hc
      nlinarith
    exact ⟨mul_nonpos_of_nonneg_of_nonpos hside.le hqneg,
      mul_nonpos_of_nonpos_of_nonneg haneg hpass, (hqneg.trans_lt hside).ne'⟩
  · have hqpos : 0 < orient a b q := by
      by_contra hc
      nlinarith
    have hapos : 0 ≤ orient p q a := by
      by_contra hc
      nlinarith
    exact ⟨mul_nonpos_of_nonpos_of_nonneg hside hqpos.le,
      mul_nonpos_of_nonneg_of_nonpos hapos hpass.le, (hside.trans_lt hqpos).ne⟩

/-- `p` and `q` are on different sides of a segment, and its ends on different sides of
theirs. -/
def Crosses (a b p q : K × K) : Prop :=
  orient a b p * orient a b q < 0 ∧ orient p q a * orient p q b < 0

/-- Which of the rays can meet, by the heights. -/
theorem rising_cases (hab : a.2 ≤ b.2) (hpq : p.2 ≤ q.2) :
    ((q.2 < a.2 ∨ b.2 ≤ p.2) ∧
      ¬ Meets p (a, b) ∧ ¬ Meets q (a, b) ∧ ¬ Passes p q a ∧ ¬ Passes p q b) ∨
    ((p.2 < a.2 ∧ a.2 ≤ q.2 ∧ q.2 < b.2) ∧ ¬ Meets p (a, b) ∧
      (Meets q (a, b) ↔ 0 < orient a b q) ∧ (Passes p q a ↔ orient p q a < 0) ∧
      ¬ Passes p q b) ∨
    ((p.2 < a.2 ∧ b.2 ≤ q.2) ∧ ¬ Meets p (a, b) ∧ ¬ Meets q (a, b) ∧
      (Passes p q a ↔ orient p q a < 0) ∧ (Passes p q b ↔ orient p q b < 0)) ∨
    ((a.2 ≤ p.2 ∧ q.2 < b.2) ∧ (Meets p (a, b) ↔ 0 < orient a b p) ∧
      (Meets q (a, b) ↔ 0 < orient a b q) ∧ ¬ Passes p q a ∧ ¬ Passes p q b) ∨
    ((a.2 ≤ p.2 ∧ p.2 < b.2 ∧ b.2 ≤ q.2) ∧ (Meets p (a, b) ↔ 0 < orient a b p) ∧
      ¬ Meets q (a, b) ∧ ¬ Passes p q a ∧ (Passes p q b ↔ orient p q b < 0)) := by
  rw [meets_rising hab, meets_rising hab, passes_rising hpq, passes_rising hpq]
  rcases lt_or_ge q.2 a.2 with hqa | haq
  · refine Or.inl ⟨Or.inl hqa, ?_, ?_, ?_, ?_⟩ <;> rintro ⟨h, h', -⟩ <;> linarith
  rcases le_or_gt b.2 p.2 with hbp | hpb
  · refine Or.inl ⟨Or.inr hbp, ?_, ?_, ?_, ?_⟩ <;> rintro ⟨h, h', -⟩ <;> linarith
  rcases lt_or_ge p.2 a.2 with hpa | hap
  · rcases lt_or_ge q.2 b.2 with hqb | hbq
    · exact Or.inr (Or.inl ⟨⟨hpa, haq, hqb⟩, fun h => hpa.not_ge h.1,
        ⟨fun h => h.2.2, fun h => ⟨haq, hqb, h⟩⟩, ⟨fun h => h.2.2, fun h => ⟨hpa, haq, h⟩⟩,
        fun h => hqb.not_ge h.2.1⟩)
    · exact Or.inr (Or.inr (Or.inl ⟨⟨hpa, hbq⟩, fun h => hpa.not_ge h.1,
        fun h => hbq.not_gt h.2.1, ⟨fun h => h.2.2, fun h => ⟨hpa, haq, h⟩⟩,
        ⟨fun h => h.2.2, fun h => ⟨hpa.trans_le hab, hbq, h⟩⟩⟩))
  · rcases lt_or_ge q.2 b.2 with hqb | hbq
    · exact Or.inr (Or.inr (Or.inr (Or.inl ⟨⟨hap, hqb⟩, ⟨fun h => h.2.2, fun h => ⟨hap, hpb, h⟩⟩,
        ⟨fun h => h.2.2, fun h => ⟨hap.trans hpq, hqb, h⟩⟩, fun h => hap.not_gt h.1,
        fun h => hqb.not_ge h.2.1⟩)))
    · exact Or.inr (Or.inr (Or.inr (Or.inr ⟨⟨hap, hpb, hbq⟩,
        ⟨fun h => h.2.2, fun h => ⟨hap, hpb, h⟩⟩, fun h => hbq.not_gt h.2.1,
        fun h => hap.not_gt h.1, ⟨fun h => h.2.2, fun h => ⟨hpb, hbq, h⟩⟩⟩)))

theorem mul_nonpos_of_sides {x y : K} (h : ¬ (0 < x ↔ 0 < y)) : x * y ≤ 0 ∧ x ≠ y := by
  refine ⟨?_, fun heq => h (by rw [heq])⟩
  rcases lt_or_ge 0 x with hx | hx
  · have hy : y ≤ 0 := not_lt.mp fun hy => h (iff_of_true hx hy)
    exact mul_nonpos_of_nonneg_of_nonpos hx.le hy
  · have hy : 0 < y := by
      by_contra hy
      exact h (iff_of_false hx.not_gt hy)
    exact mul_nonpos_of_nonpos_of_nonneg hx hy.le

theorem parity_of_rising (hab : a.2 ≤ b.2) (hpq : p.2 ≤ q.2) (h : ¬ Touches a b p q) :
    (Meets p (a, b) ↔ Meets q (a, b)) ↔ (Passes p q a ↔ Passes p q b) := by
  rcases rising_cases hab hpq with ⟨-, hp, hq, ha, hb⟩ | ⟨⟨h1, h2, h3⟩, hp, hq, ha, hb⟩ |
    ⟨⟨h1, h2⟩, hp, hq, ha, hb⟩ | ⟨⟨h1, h2⟩, hp, hq, ha, hb⟩ | ⟨⟨h1, h2, h3⟩, hp, hq, ha, hb⟩
  · exact iff_of_true (iff_of_false hp hq) (iff_of_false ha hb)
  · have hsides : 0 < orient a b q ↔ orient p q a < 0 := by
      by_contra hne
      refine h (touches_of_below h1 h2 h3 ?_)
      rcases lt_or_ge 0 (orient a b q) with hside | hside
      · exact Or.inl ⟨hside, not_lt.mp fun hc => hne (iff_of_true hside hc)⟩
      · exact Or.inr ⟨hside, not_le.mp fun hc => hne (iff_of_false hside.not_gt hc.not_gt)⟩
    rw [iff_false_left hp, iff_false_right hb, hq, ha, hsides]
  · have hsides : 0 < -orient p q a ↔ 0 < -orient p q b := by
      by_contra hne
      obtain ⟨hprod, hdiff⟩ := mul_nonpos_of_sides hne
      refine h (touches_of_within h1.le hab h2 (h1.trans_le (hab.trans h2)) ?_ ?_).symm
      · rwa [neg_mul_neg] at hprod
      · exact fun heq => hdiff (congrArg Neg.neg heq)
    rw [neg_pos, neg_pos] at hsides
    exact iff_of_true (iff_of_false hp hq) (ha.trans (hsides.trans hb.symm))
  · have hsides : 0 < orient a b p ↔ 0 < orient a b q := by
      by_contra hne
      obtain ⟨hprod, hdiff⟩ := mul_nonpos_of_sides hne
      exact h (touches_of_within h1 hpq h2.le (h1.trans_lt (hpq.trans_lt h2)) hprod hdiff)
    exact iff_of_true (hp.trans (hsides.trans hq.symm)) (iff_of_false ha hb)
  · have hsides : 0 < orient a b p ↔ orient p q b < 0 := by
      by_contra hne
      refine h (touches_of_above h1 h2 h3 ?_)
      rcases lt_or_ge 0 (orient a b p) with hside | hside
      · exact Or.inl ⟨hside, not_lt.mp fun hc => hne (iff_of_true hside hc)⟩
      · exact Or.inr ⟨hside, not_le.mp fun hc => hne (iff_of_false hside.not_gt hc.not_gt)⟩
    rw [iff_false_right hq, iff_false_left ha, hp, hb, hsides]

omit [IsStrictOrderedRing K] in
theorem Crosses.symm (h : Crosses a b p q) : Crosses p q a b := ⟨h.2, h.1⟩

omit [IsStrictOrderedRing K] in
theorem Crosses.swap (h : Crosses a b p q) : Crosses b a p q := by
  rw [Crosses, orient_swap a b p, orient_swap a b q, neg_mul_neg, mul_comm (orient p q b)]
  exact h

omit [IsStrictOrderedRing K] in
theorem Touches.swap (h : Touches a b p q) : Touches b a p q := by
  rw [Touches, orient_swap a b p, orient_swap a b q, neg_mul_neg, mul_comm (orient p q b), Ne,
    neg_inj]
  exact h

theorem Crosses.signs (h : Crosses a b p q) :
    (0 < orient a b p ∧ orient a b q < 0 ∧ orient p q a < 0 ∧ 0 < orient p q b) ∨
      (orient a b p < 0 ∧ 0 < orient a b q ∧ 0 < orient p q a ∧ orient p q b < 0) := by
  have hsub := orient_sub a b p q
  rcases mul_neg_iff.mp h.1 with ⟨h1, h2⟩ | ⟨h1, h2⟩
  · rcases mul_neg_iff.mp h.2 with ⟨h3, h4⟩ | ⟨h3, h4⟩
    · linarith
    · exact Or.inl ⟨h1, h2, h3, h4⟩
  · rcases mul_neg_iff.mp h.2 with ⟨h3, h4⟩ | ⟨h3, h4⟩
    · exact Or.inr ⟨h1, h2, h3, h4⟩
    · linarith

/-- Segments that cross have a height in common. -/
theorem Crosses.heights (h : Crosses a b p q) (hab : a.2 ≤ b.2) (hpq : p.2 ≤ q.2) :
    a.2 ≤ q.2 ∧ p.2 < b.2 := by
  have hheight := orient_height a b p q
  have hheight' := orient_height' a b p q
  have hflat : ¬ (b.2 = a.2 ∧ p.2 = a.2) := by
    rintro ⟨hb, hp⟩
    have hzero : orient a b p = 0 := by
      rw [orient, hb, hp, sub_self, mul_zero, zero_mul, sub_self]
    exact h.1.ne (by rw [hzero, zero_mul])
  rcases h.signs with ⟨h1, h2, h3, h4⟩ | ⟨h1, h2, h3, h4⟩
  all_goals
    refine ⟨not_lt.mp fun hc => ?_, not_le.mp fun hbp => ?_⟩
    · nlinarith
    · have hqb : q.2 ≤ b.2 := not_lt.mp fun hc => by nlinarith
      have hba : b.2 ≤ a.2 := not_lt.mp fun hc => by nlinarith
      exact hflat ⟨le_antisymm hba hab, by linarith⟩

theorem parity_of_rising_crosses (hab : a.2 ≤ b.2) (hpq : p.2 ≤ q.2) (h : Crosses a b p q) :
    ¬ ((Meets p (a, b) ↔ Meets q (a, b)) ↔ (Passes p q a ↔ Passes p q b)) := by
  have hheights := h.heights hab hpq
  rcases rising_cases hab hpq with ⟨h1 | h1, -⟩ | ⟨-, hp, hq, ha, hb⟩ |
    ⟨-, hp, hq, ha, hb⟩ | ⟨-, hp, hq, ha, hb⟩ | ⟨-, hp, hq, ha, hb⟩
  · exact absurd h1 hheights.1.not_gt
  · exact absurd h1 hheights.2.not_ge
  all_goals
    rcases h.signs with ⟨h1, h2, h3, h4⟩ | ⟨h1, h2, h3, h4⟩
    · have hq' := h2.not_gt
      have hb' := h4.not_gt
      simp [hp, hq, ha, hb, h1, hq', h3, hb']
    · have hp' := h1.not_gt
      have ha' := h3.not_gt
      simp [hp, hq, ha, hb, hp', h2, ha', h4]

/-- Where a segment keeps off an edge, it changes as much for the rays of its ends as for
those of the ends of the edge. -/
theorem parity_of_apart (h : ¬ Touches a b p q) :
    (Meets p (a, b) ↔ Meets q (a, b)) ↔ (Passes p q a ↔ Passes p q b) := by
  rcases le_total a.2 b.2 with hab | hab
  · rcases le_total p.2 q.2 with hpq | hpq
    · exact parity_of_rising hab hpq h
    · have hrising := parity_of_rising hab hpq fun hc => h hc.symm.swap.symm
      rwa [passes_swap p q a, passes_swap p q b, iff_comm (a := Meets q _)] at hrising
  · rcases le_total p.2 q.2 with hpq | hpq
    · have hrising := parity_of_rising hab hpq fun hc => h hc.swap
      rwa [meets_swap p a b, meets_swap q a b, iff_comm (a := Passes p q b)] at hrising
    · have hrising := parity_of_rising hab hpq fun hc => h hc.swap.symm.swap.symm
      rwa [meets_swap p a b, meets_swap q a b, passes_swap p q a, passes_swap p q b,
        iff_comm (a := Meets q _), iff_comm (a := Passes p q b)] at hrising

theorem parity_of_crosses (h : Crosses a b p q) :
    ¬ ((Meets p (a, b) ↔ Meets q (a, b)) ↔ (Passes p q a ↔ Passes p q b)) := by
  rcases le_total a.2 b.2 with hab | hab
  · rcases le_total p.2 q.2 with hpq | hpq
    · exact parity_of_rising_crosses hab hpq h
    · have hrising := parity_of_rising_crosses hab hpq h.symm.swap.symm
      rwa [passes_swap p q a, passes_swap p q b, iff_comm (a := Meets q _)] at hrising
  · rcases le_total p.2 q.2 with hpq | hpq
    · have hrising := parity_of_rising_crosses hab hpq h.swap
      rwa [meets_swap p a b, meets_swap q a b, iff_comm (a := Passes p q b)] at hrising
    · have hrising := parity_of_rising_crosses hab hpq h.swap.symm.swap.symm
      rwa [meets_swap p a b, meets_swap q a b, passes_swap p q a, passes_swap p q b,
        iff_comm (a := Meets q _), iff_comm (a := Passes p q b)] at hrising

end

/-! ## Closed lines -/

/-- The edges of a closed line, from each corner to the next. -/
def edges (vs : List (K × K)) : List ((K × K) × (K × K)) := vs.zip (vs.rotate 1)

omit [Field K] [LinearOrder K] [IsStrictOrderedRing K] in
theorem getElem?_edges {vs : List (K × K)} {i : Nat} {e : (K × K) × (K × K)} :
    (edges vs)[i]? = some e ↔ ∃ h : i < vs.length,
      e = (vs[i], vs.get ⟨(i + 1) % vs.length, Nat.mod_lt _ (Nat.zero_lt_of_lt h)⟩) := by
  rw [edges, List.getElem?_eq_some_iff]
  constructor
  · rintro ⟨h, rfl⟩
    rw [List.length_zip, List.length_rotate, min_self] at h
    refine ⟨h, ?_⟩
    rw [List.getElem_zip, List.getElem_rotate]
    rfl
  · rintro ⟨h, rfl⟩
    refine ⟨by rwa [List.length_zip, List.length_rotate, min_self], ?_⟩
    rw [List.getElem_zip, List.getElem_rotate]
    rfl

/-- `p` is inside by the even-odd rule. -/
def Inside (vs : List (K × K)) (p : K × K) : Prop := Odd ((edges vs).countP (Meets p ·))

theorem odd_countP_cons {A : Type} (P : A → Prop) [DecidablePred P] (a : A) (as : List A) :
    Odd ((a :: as).countP (P ·)) ↔ ¬ (P a ↔ Odd (as.countP (P ·))) := by
  rw [List.countP_cons]
  by_cases ha : P a
  · simp only [ha, decide_true, if_true, true_iff, Nat.odd_add_one]
  · simp only [ha, decide_false, Bool.false_eq_true, if_false, add_zero, false_iff, not_not]

theorem odd_countP_iff {A : Type} (P Q : A → Prop) [DecidablePred P] [DecidablePred Q]
    (as : List A) :
    (Odd (as.countP (P ·)) ↔ Odd (as.countP (Q ·))) ↔
      ¬ Odd (as.countP fun a => ¬ (P a ↔ Q a)) := by
  induction as with
  | nil => simp
  | cons a as ih =>
    rw [odd_countP_cons P, odd_countP_cons Q, odd_countP_cons fun a => ¬ (P a ↔ Q a), not_iff_not]
    by_cases hP : P a <;> by_cases hQ : Q a <;> simp only [hP, hQ] <;> tauto

omit [Field K] [LinearOrder K] [IsStrictOrderedRing K] in
/-- A place is passed as often at the beginning of an edge as at the end of one. -/
theorem countP_ends (vs : List (K × K)) (P : K × K → Prop) [DecidablePred P] :
    (edges vs).countP (P ·.1) = (edges vs).countP (P ·.2) := by
  have hfst : (edges vs).map Prod.fst = vs := List.map_fst_zip (by simp)
  have hsnd : (edges vs).map Prod.snd = vs.rotate 1 := List.map_snd_zip (by simp)
  have hcount : ((edges vs).map Prod.fst).countP (P ·) =
      ((edges vs).map Prod.snd).countP (P ·) := by
    rw [hfst, hsnd]
    exact (List.rotate_perm vs 1).countP_eq _ |>.symm
  rwa [List.countP_map, List.countP_map] at hcount

omit [IsStrictOrderedRing K] in
theorem inside_iff_passes (vs : List (K × K)) (p q : K × K) :
    (Inside vs p ↔ Inside vs q) ↔ ¬ Odd ((edges vs).countP fun e =>
      ¬ ((Meets p e ↔ Meets q e) ↔ (Passes p q e.1 ↔ Passes p q e.2))) := by
  have hends : Odd ((edges vs).countP (Passes p q ·.1)) ↔
      Odd ((edges vs).countP (Passes p q ·.2)) := by
    rw [countP_ends vs (Passes p q)]
  rw [odd_countP_iff (fun e : (K × K) × (K × K) => Passes p q e.1) fun e => Passes p q e.2] at hends
  rw [Inside, Inside, odd_countP_iff (Meets p) (Meets q)]
  have hboth := odd_countP_iff (fun e => ¬ (Meets p e ↔ Meets q e))
    (fun e => ¬ (Passes p q e.1 ↔ Passes p q e.2)) (edges vs)
  simp only [not_iff_not] at hboth
  rw [← hboth]
  tauto

/-- **A segment that keeps off the line is inside as a whole, or outside.** -/
theorem inside_of_apart {vs : List (K × K)} {p q : K × K}
    (h : ∀ e ∈ edges vs, ¬ Touches e.1 e.2 p q) : Inside vs p ↔ Inside vs q := by
  rw [inside_iff_passes, List.countP_eq_zero.mpr]
  · decide
  · intro e he
    simpa using parity_of_apart (h e he)

/-- **A segment that crosses one edge leads from the inside to the outside.** -/
theorem inside_of_crosses {vs : List (K × K)} {p q : K × K} {e : (K × K) × (K × K)}
    (hnodup : (edges vs).Nodup) (he : e ∈ edges vs) (hcross : Crosses e.1 e.2 p q)
    (h : ∀ f ∈ edges vs, f ≠ e → ¬ Touches f.1 f.2 p q) : Inside vs p ↔ ¬ Inside vs q := by
  have hcount : ((edges vs).countP fun f =>
      ¬ ((Meets p f ↔ Meets q f) ↔ (Passes p q f.1 ↔ Passes p q f.2))) = (edges vs).count e := by
    refine List.countP_congr fun f hf => ?_
    rw [decide_eq_true_iff, beq_iff_eq]
    constructor
    · intro hodd
      by_contra hne
      exact hodd (parity_of_apart (h f hf hne))
    · rintro rfl
      exact parity_of_crosses hcross
  have hne : ¬ (Inside vs p ↔ Inside vs q) := by
    rw [inside_iff_passes, hcount, List.count_eq_one_of_mem hnodup he]
    decide
  tauto

/-! ## Common points -/

theorem weights_of_sides {x y : K} (h : x * y ≤ 0) (hne : x ≠ y) :
    0 ≤ -y / (x - y) ∧ 0 ≤ x / (x - y) ∧ -y / (x - y) + x / (x - y) = 1 := by
  have hsum : -y / (x - y) + x / (x - y) = 1 := by
    rw [← add_div, neg_add_eq_sub, div_self (sub_ne_zero.mpr hne)]
  rcases mul_nonpos_iff.mp h with ⟨hx, hy⟩ | ⟨hx, hy⟩
  · exact ⟨div_nonneg (by linarith) (by linarith), div_nonneg hx (by linarith), hsum⟩
  · exact ⟨div_nonneg_of_nonpos (by linarith) (by linarith),
      div_nonneg_of_nonpos hx (by linarith), hsum⟩

/-- The point that divides each segment as the sides of its ends say. -/
theorem Touches.exists_mem {a b p q : K × K} (h : Touches a b p q) :
    ∃ r, r ∈ segment K a b ∧ r ∈ segment K p q := by
  obtain ⟨h1, h2, h3⟩ := weights_of_sides h.1 h.2.2
  obtain ⟨h4, h5, h6⟩ := weights_of_sides h.2.1 h.symm.2.2
  refine ⟨_, ⟨_, _, h4, h5, h6, rfl⟩, ⟨_, _, h1, h2, h3, ?_⟩⟩
  have hdiff : orient p q a - orient p q b = -(orient a b p - orient a b q) := by
    rw [orient_sub a b p q, neg_sub]
  have hne : orient a b p - orient a b q ≠ 0 := sub_ne_zero.mpr h.2.2
  rw [hdiff]
  ext
  · simp only [Prod.fst_add, Prod.smul_fst, smul_eq_mul]
    field_simp
    simp only [orient]
    ring
  · simp only [Prod.snd_add, Prod.smul_snd, smul_eq_mul]
    field_simp
    simp only [orient]
    ring

/-- **A segment that does not meet the line is inside as a whole, or outside.** -/
theorem inside_of_disjoint {vs : List (K × K)} {p q : K × K}
    (h : ∀ e ∈ edges vs, Disjoint (segment K e.1 e.2) (segment K p q)) :
    Inside vs p ↔ Inside vs q :=
  inside_of_apart fun e he htouch =>
    let ⟨_, hr, hr'⟩ := htouch.exists_mem
    Set.disjoint_left.mp (h e he) hr hr'

end
end KartStack.Polygon
