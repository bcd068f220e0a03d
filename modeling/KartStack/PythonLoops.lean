import Mathlib.Data.List.Forall2

/-! # Comprehensions in Python

`[f(x) for x in xs]` raises where a call of `f` does, so it is `xs.mapM f`: what it comes
to, element by element.
-/
namespace KartStack.Python

variable {A B : Type}

/-- **What a comprehension comes to**, element by element. -/
theorem mapM_eq_some_iff {f : A → Option B} {as : List A} {bs : List B} :
    as.mapM f = some bs ↔ List.Forall₂ (fun a b => f a = some b) as bs := by
  induction as generalizing bs with
  | nil =>
    rw [List.mapM_nil, List.forall₂_nil_left_iff]
    exact Option.some_inj.trans eq_comm
  | cons a as ih =>
    rw [List.forall₂_cons_left_iff, List.mapM_cons]
    simp only [Option.bind_eq_bind, Option.bind_eq_some_iff, Option.pure_def, Option.some.injEq,
      ← ih]
    constructor
    · rintro ⟨b, hb, bs, hbs, rfl⟩
      exact ⟨b, bs, hb, hbs, rfl⟩
    · rintro ⟨b, bs, hb, hbs, rfl⟩
      exact ⟨b, hb, bs, hbs, rfl⟩

theorem length_of_mapM {f : A → Option B} {as : List A} {bs : List B} (h : as.mapM f = some bs) :
    bs.length = as.length :=
  (mapM_eq_some_iff.mp h).length_eq.symm

/-- The outcome at a place is that of the element there. -/
theorem getElem?_of_mapM {f : A → Option B} {as : List A} {bs : List B}
    (h : as.mapM f = some bs) {i : Nat} {a : A} (ha : as[i]? = some a) :
    ∃ b, bs[i]? = some b ∧ f a = some b := by
  obtain ⟨hlen, hall⟩ := List.forall₂_iff_get.mp (mapM_eq_some_iff.mp h)
  obtain ⟨hi, rfl⟩ := List.getElem?_eq_some_iff.mp ha
  exact ⟨_, List.getElem?_eq_getElem (hlen ▸ hi), hall i hi (hlen ▸ hi)⟩

/-- Each outcome is that of some element. -/
theorem mem_of_mapM {f : A → Option B} {as : List A} {bs : List B} (h : as.mapM f = some bs)
    {b : B} (hb : b ∈ bs) : ∃ a ∈ as, f a = some b := by
  obtain ⟨i, hi, rfl⟩ := List.getElem_of_mem hb
  have hall := List.forall₂_iff_get.mp (mapM_eq_some_iff.mp h)
  exact ⟨_, List.get_mem as ⟨i, hall.1 ▸ hi⟩, hall.2 i (hall.1 ▸ hi) hi⟩

/-- Two loops with the same outcomes call for the same, element by element. -/
theorem eq_of_mapM_eq {f g : A → Option B} {as : List A} {bs : List B}
    (h : as.mapM f = as.mapM g) (hg : as.mapM g = some bs) : ∀ a ∈ as, f a = g a := by
  have hall := List.forall₂_iff_get.mp (mapM_eq_some_iff.mp hg)
  have hall' := List.forall₂_iff_get.mp (mapM_eq_some_iff.mp (h.trans hg))
  intro a ha
  obtain ⟨i, hi, rfl⟩ := List.getElem_of_mem ha
  exact (hall'.2 i hi (hall.1 ▸ hi)).trans (hall.2 i hi (hall.1 ▸ hi)).symm

theorem mapM_congr {f g : A → Option B} {as : List A} (h : ∀ a ∈ as, f a = g a) :
    as.mapM f = as.mapM g := by
  induction as with
  | nil => rfl
  | cons a as ih =>
    obtain ⟨ha, has⟩ := List.forall_mem_cons.mp h
    rw [List.mapM_cons, List.mapM_cons, ha, ih has]

/-- No call that raises, no loop that does. -/
theorem exists_mapM {f : A → Option B} {as : List A} (h : ∀ a ∈ as, ∃ b, f a = some b) :
    ∃ bs, as.mapM f = some bs := by
  induction as with
  | nil => exact ⟨[], rfl⟩
  | cons a as ih =>
    obtain ⟨⟨b, hb⟩, has⟩ := List.forall_mem_cons.mp h
    obtain ⟨bs, hbs⟩ := ih has
    exact ⟨b :: bs, by rw [List.mapM_cons, hb, hbs]; rfl⟩

/-- A call that fails exactly on some elements, as a condition and a function. -/
theorem mapM_ite {f : A → Option B} {g : A → B} {p : A → Prop} [DecidablePred p]
    (h : ∀ a, f a = if p a then some (g a) else none) (as : List A) :
    as.mapM f = if ∀ a ∈ as, p a then some (as.map g) else none := by
  induction as with
  | nil => simp
  | cons a as ih =>
    rw [List.mapM_cons, h, ih]
    by_cases ha : p a
    · by_cases has : ∀ a ∈ as, p a
      · have hall : ∀ b ∈ a :: as, p b := List.forall_mem_cons.mpr ⟨ha, has⟩
        rw [if_pos ha, if_pos has, if_pos hall]
        rfl
      · have hall : ¬ ∀ b ∈ a :: as, p b := fun hall => has (List.forall_mem_cons.mp hall).2
        rw [if_pos ha, if_neg has, if_neg hall]
        rfl
    · have hall : ¬ ∀ b ∈ a :: as, p b := fun hall => ha (List.forall_mem_cons.mp hall).1
      rw [if_neg ha, if_neg hall]
      rfl

end KartStack.Python
