import Mathlib.Data.List.MinMax

/-! # The first of the least

A loop that goes through a list and keeps what is least so far ends with the first of
the least elements, `List.argmin`.  What is least among all and passes a test is least
among those that pass it.
-/
namespace KartStack.LeastElement

variable {A K : Type} [LinearOrder K] (f : A → K)

/-- What is least so far, and its measure. -/
def keep (best : Option A × K) (a : A) : Option A × K :=
  if f a < best.2 then (some a, f a) else best

/-- **A loop keeps the first of the least**, from a bound that is above all of them. -/
theorem foldl_keep {inf : K} {as : List A} (h : ∀ a ∈ as, f a < inf) :
    as.foldl (keep f) (none, inf) = (as.argmin f, ((as.argmin f).map f).getD inf) := by
  induction as using List.reverseRecOn with
  | nil => rfl
  | append_singleton as a ih =>
    have hprefix : ∀ b ∈ as, f b < inf := fun b hb => h b (List.mem_append_left _ hb)
    rw [List.foldl_concat, ih hprefix, List.argmin_concat]
    cases as.argmin f with
    | none => exact if_pos (h a List.mem_concat_self)
    | some b => by_cases hb : f a < f b <;> simp [keep, hb]

/-- The first of the least is that of any part it is in. -/
theorem argmin_filter {p : A → Bool} {as : List A} {c : A} (h : as.argmin f = some c)
    (hc : p c = true) : (as.filter p).argmin f = some c := by
  induction as using List.reverseRecOn with
  | nil => cases h
  | append_singleton as a ih =>
    rw [List.argmin_concat] at h
    rw [List.filter_append]
    cases hbest : as.argmin f with
    | none =>
      obtain rfl := List.argmin_eq_none.mp hbest
      obtain rfl : a = c := by simpa [hbest] using h
      simp [hc]
    | some b =>
      simp only [hbest] at h
      by_cases hb : f a < f b
      · rw [if_pos hb] at h
        obtain rfl := Option.some.inj h
        have hpart : List.filter p [a] = [a] := by simp [hc]
        rw [hpart, List.argmin_concat]
        cases hrest : (as.filter p).argmin f with
        | none => rfl
        | some d =>
          have hd : d ∈ as := (List.mem_filter.mp (List.argmin_mem hrest)).1
          exact if_pos (hb.trans_le (List.le_of_mem_argmin hd hbest))
      · rw [if_neg hb] at h
        obtain rfl := Option.some.inj h
        by_cases ha : p a
        · have hpart : List.filter p [a] = [a] := by simp [ha]
          rw [hpart, List.argmin_concat, ih hbest]
          exact if_neg hb
        · have hpart : List.filter p [a] = [] := by simp [ha]
          rw [hpart, List.append_nil, ih hbest]

/-- The least of a part passes the test. -/
theorem argmin_filter_eq_iff {p : A → Bool} {as : List A} :
    (as.filter p).argmin f = as.argmin f ↔ ∀ c ∈ as.argmin f, p c = true := by
  constructor
  · intro h c hc
    rw [← h] at hc
    exact (List.mem_filter.mp (List.argmin_mem hc)).2
  · intro h
    cases hbest : as.argmin f with
    | none =>
      obtain rfl := List.argmin_eq_none.mp hbest
      rfl
    | some c => exact argmin_filter f hbest (h c hbest)

end KartStack.LeastElement
