import Mathlib.Algebra.Polynomial.Eval.Degree
import Mathlib.Algebra.Field.ZMod
import Mathlib.RingTheory.Coprime.Lemmas
import Mathlib.Tactic.LinearCombination

/-! # Codes of multiples of a polynomial

A sequence of bits, highest first, is a polynomial over the field of two elements
(`ofBits`): a sequence followed by another is shifted by its length, and exclusive
or is addition.  The words of a cyclic redundancy check are the multiples of a
generator `g`.  Two words differ by a multiple of `g`, so an error is detected
exactly if its polynomial is none: an odd number of errors if 1 is a root of `g`
(`not_dvd_of_odd`), a burst no longer than the degree of `g` if `g` has a constant
term (`not_dvd_of_burst`).
-/
namespace KartStack.PolynomialCodes
open Polynomial

/-- The polynomial whose coefficients are the bits, highest first. -/
noncomputable def ofBits : List Bool → (ZMod 2)[X]
  | [] => 0
  | b :: bs => (if b then X ^ bs.length else 0) + ofBits bs

@[simp] theorem ofBits_nil : ofBits [] = 0 := rfl

theorem ofBits_cons (b : Bool) (bs : List Bool) :
    ofBits (b :: bs) = (if b then X ^ bs.length else 0) + ofBits bs := rfl

theorem ofBits_append (xs ys : List Bool) :
    ofBits (xs ++ ys) = ofBits xs * X ^ ys.length + ofBits ys := by
  induction xs with
  | nil => rw [List.nil_append, ofBits_nil, zero_mul, zero_add]
  | cons x xs ih =>
    rw [List.cons_append, ofBits_cons, ofBits_cons, ih, List.length_append]
    split <;> ring

/-- Addition is its own inverse. -/
theorem add_self (p : (ZMod 2)[X]) : p + p = 0 := CharTwo.add_self_eq_zero p

/-- Exclusive or is addition. -/
theorem ofBits_xor {xs ys : List Bool} (h : xs.length = ys.length) :
    ofBits (List.zipWith xor xs ys) = ofBits xs + ofBits ys := by
  induction xs generalizing ys with
  | nil =>
    rw [List.length_eq_zero_iff.mp h.symm, List.zipWith_nil_right, ofBits_nil, add_zero]
  | cons x xs ih =>
    obtain ⟨y, ys, rfl⟩ := List.exists_cons_of_length_eq_add_one h.symm
    have hlen : xs.length = ys.length := Nat.succ.inj h
    have hzip : (List.zipWith xor xs ys).length = ys.length := by
      rw [List.length_zipWith, hlen, Nat.min_self]
    rw [List.zipWith_cons_cons, ofBits_cons, ofBits_cons, ofBits_cons, ih hlen, hzip, hlen]
    have htwo := add_self (X ^ ys.length)
    cases x <;> cases y <;>
      simp only [Bool.xor_true, Bool.xor_false, Bool.not_false, Bool.not_true,
        Bool.false_eq_true, if_true, if_false]
    case true.true => linear_combination -htwo
    all_goals ring

theorem ofBits_eq_zero {bs : List Bool} (h : true ∉ bs) : ofBits bs = 0 := by
  induction bs with
  | nil => rfl
  | cons b bs ih =>
    obtain ⟨hb, hbs⟩ := not_or.mp (List.mem_cons.not.mp h)
    rw [ofBits_cons, ih hbs, if_neg fun heq => hb heq.symm, add_zero]

/-- The degree is below the number of bits. -/
theorem degree_ofBits_lt (bs : List Bool) : (ofBits bs).degree < bs.length := by
  induction bs with
  | nil =>
    rw [ofBits_nil, degree_zero]
    exact WithBot.bot_lt_coe _
  | cons b bs ih =>
    have hlt : (bs.length : WithBot Nat) < (bs.length + 1 : Nat) := by
      exact_mod_cast Nat.lt_succ_self bs.length
    rw [ofBits_cons, List.length_cons]
    refine lt_of_le_of_lt (degree_add_le _ _) (max_lt ?_ (ih.trans hlt))
    split
    · rw [degree_X_pow]
      exact hlt
    · rw [degree_zero]
      exact WithBot.bot_lt_coe _

/-- Different words are different polynomials: only the empty one is zero. -/
theorem ofBits_ne_zero {bs : List Bool} (h : true ∈ bs) : ofBits bs ≠ 0 := by
  induction bs with
  | nil => exact absurd h List.not_mem_nil
  | cons b bs ih =>
    cases b with
    | false =>
      rw [ofBits_cons, if_neg Bool.false_ne_true, zero_add]
      exact ih ((List.mem_cons.mp h).resolve_left Bool.noConfusion)
    | true =>
      rw [ofBits_cons, if_pos rfl]
      intro hzero
      have hdeg := degree_ofBits_lt bs
      rw [← neg_eq_of_add_eq_zero_right hzero, degree_neg, degree_X_pow] at hdeg
      exact lt_irrefl _ hdeg

/-- At 1 the polynomial counts the ones. -/
theorem eval_one_ofBits (bs : List Bool) : (ofBits bs).eval 1 = (bs.count true : ZMod 2) := by
  induction bs with
  | nil => simp
  | cons b bs ih =>
    rw [ofBits_cons, eval_add, ih, List.count_cons]
    cases b
    · simp
    · simp [add_comm]

/-! ## Errors that are detected -/

variable {g : (ZMod 2)[X]} {e : List Bool}

/-- **Parity.**  If 1 is a root of the generator, no word with an odd number of ones is
a multiple. -/
theorem not_dvd_of_odd (hg : g.eval 1 = 0) (hodd : Odd (e.count true)) : ¬ g ∣ ofBits e := by
  rintro ⟨q, hq⟩
  have heval := eval_one_ofBits e
  rw [hq, eval_mul, hg, zero_mul] at heval
  exact (Nat.not_even_iff_odd.mpr hodd) ((ZMod.natCast_eq_zero_iff_even).mp heval.symm)

/-- There is a one, and all the ones lie in a window of `n` places. -/
def Burst (n : Nat) (e : List Bool) : Prop :=
  true ∈ e ∧ ∃ w, ∀ k, e[k]? = some true → w ≤ k ∧ k < w + n

/-- A burst is a short word followed by zeros. -/
theorem Burst.exists_ofBits {n : Nat} (h : Burst n e) :
    ∃ mid k, ofBits e = ofBits mid * X ^ k ∧ mid.length ≤ n ∧ true ∈ mid := by
  obtain ⟨htrue, w, hwin⟩ := h
  have hbefore : true ∉ e.take w := by
    intro hmem
    obtain ⟨k, hk⟩ := List.mem_iff_getElem?.mp hmem
    rw [List.getElem?_take] at hk
    split at hk
    · have := (hwin k hk).1
      omega
    · simp at hk
  have hafter : true ∉ (e.drop w).drop n := by
    intro hmem
    obtain ⟨k, hk⟩ := List.mem_iff_getElem?.mp hmem
    rw [List.drop_drop, List.getElem?_drop] at hk
    have := (hwin _ hk).2
    omega
  have hsplit : e = e.take w ++ ((e.drop w).take n ++ (e.drop w).drop n) := by
    rw [List.take_append_drop, List.take_append_drop]
  refine ⟨(e.drop w).take n, ((e.drop w).drop n).length, ?_, List.length_take_le .., ?_⟩
  · conv_lhs => rw [hsplit]
    rw [ofBits_append, ofBits_append, ofBits_eq_zero hbefore, ofBits_eq_zero hafter, zero_mul,
      zero_add, add_zero]
  · rw [hsplit, List.mem_append, List.mem_append] at htrue
    exact (htrue.resolve_left hbefore).resolve_right hafter

/-- **Bursts.**  A generator with a constant term divides no burst that is not longer
than its degree. -/
theorem not_dvd_of_burst (hg : IsCoprime g X) (h : Burst g.natDegree e) : ¬ g ∣ ofBits e := by
  obtain ⟨mid, k, he, hlen, htrue⟩ := h.exists_ofBits
  rw [he]
  intro hdvd
  have hmid : g ∣ ofBits mid := (hg.pow_right (n := k)).dvd_of_dvd_mul_right hdvd
  have hne := ofBits_ne_zero htrue
  have hdeg := degree_ofBits_lt mid
  rw [degree_eq_natDegree hne] at hdeg
  have hlt : (ofBits mid).natDegree < mid.length := by exact_mod_cast hdeg
  have hle := natDegree_le_of_dvd hmid hne
  omega

end KartStack.PolynomialCodes
