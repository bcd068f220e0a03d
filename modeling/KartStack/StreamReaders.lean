import Mathlib.Tactic.Common

/-! # Readers of a stream

A reader takes what it needs off the front of its input, or fails.  It is local if
what it takes decides what it returns, whatever follows (`Local`).  Local readers
called until the input is used up (`Loop.run`) accept exactly the inputs that can be
cut into pieces, each of which one call takes (`Loop.run_eq_ok_iff`).
-/
namespace KartStack.StreamReaders

/-- What is read, and the input left; or an error. -/
abbrev Reader (E B : Type) := StateT (List B) (Except E)

variable {E B A C S : Type}

/-- In front of anything, `r` takes `used` and returns `a`. -/
def Reads (r : Reader E B A) (used : List B) (a : A) : Prop :=
  ∀ rest, r.run (used ++ rest) = .ok (a, rest)

/-- What `r` accepts is decided by what it takes. -/
def Local (r : Reader E B A) : Prop :=
  ∀ input a rest, r.run input = .ok (a, rest) → ∃ used, input = used ++ rest ∧ Reads r used a

theorem Reads.pure (a : A) : Reads (pure a : Reader E B A) [] a := fun _ => rfl

theorem Reads.bind {r : Reader E B A} {f : A → Reader E B C} {used used' : List B} {a : A} {c : C}
    (hr : Reads r used a) (hf : Reads (f a) used' c) : Reads (r >>= f) (used ++ used') c := by
  intro rest
  rw [StateT.run_bind, List.append_assoc, hr]
  exact hf rest

/-- The two parts of what two readers take. -/
theorem run_bind_eq_ok {r : Reader E B A} {f : A → Reader E B C} {input rest : List B} {c : C}
    (h : (r >>= f).run input = .ok (c, rest)) :
    ∃ a mid, r.run input = .ok (a, mid) ∧ (f a).run mid = .ok (c, rest) := by
  rw [StateT.run_bind] at h
  cases hr : r.run input with
  | error e =>
    rw [hr] at h
    cases h
  | ok p =>
    rw [hr] at h
    exact ⟨p.1, p.2, rfl, h⟩

theorem Local.pure (a : A) : Local (pure a : Reader E B A) := by
  rintro input a' rest h
  cases h
  exact ⟨[], rfl, Reads.pure a⟩

theorem Local.throw (e : E) : Local (throw e : Reader E B A) := by
  intro input a rest h
  cases h

theorem Local.bind {r : Reader E B A} {f : A → Reader E B C} (hr : Local r)
    (hf : ∀ a, Local (f a)) : Local (r >>= f) := by
  intro input c rest h
  obtain ⟨a, mid, hrun, hrun'⟩ := run_bind_eq_ok h
  obtain ⟨used, rfl, hused⟩ := hr input a mid hrun
  obtain ⟨used', rfl, hused'⟩ := hf a mid c rest hrun'
  exact ⟨used ++ used', (List.append_assoc ..).symm, hused.bind hused'⟩

theorem Local.map {r : Reader E B A} (hr : Local r) (f : A → C) : Local (f <$> r) := by
  rw [← bind_pure_comp]
  exact hr.bind fun a => Local.pure (f a)

theorem Reads.map {r : Reader E B A} {used : List B} {a : A} (hr : Reads r used a) (f : A → C) :
    Reads (f <$> r) used (f a) := by
  have h : Reads (r >>= fun a => Pure.pure (f a)) (used ++ []) (f a) := hr.bind (Reads.pure _)
  rw [List.append_nil] at h
  rwa [← bind_pure_comp]

/-! ## Loops -/

/-- A reader called until the input is used up: it is local, and takes something
each time. -/
structure Loop (E B S : Type) where
  step : S → Reader E B S
  isLocal : ∀ s, Local (step s)
  progress : ∀ s s', ¬ Reads (step s) [] s'

namespace Loop
variable (L : Loop E B S)

theorem length_lt {s s' : S} {input rest : List B} (h : (L.step s).run input = .ok (s', rest)) :
    rest.length < input.length := by
  obtain ⟨used, rfl, hused⟩ := L.isLocal s input s' rest h
  cases used with
  | nil => exact absurd hused (L.progress s s')
  | cons b used =>
    simp only [List.cons_append, List.length_cons, List.length_append]
    omega

/-- The loop. -/
def run (s : S) (input : List B) : Except E S :=
  if input = [] then .ok s
  else
    match _ : (L.step s).run input with
    | .error e => .error e
    | .ok (s', rest) => run s' rest
termination_by input.length
decreasing_by exact L.length_lt ‹_›

/-- The pieces one call after the other takes, and the state they lead to. -/
inductive Steps : S → List B → S → Prop
  | nil (s : S) : Steps s [] s
  | cons {s s' s'' : S} {used rest : List B} :
      Reads (L.step s) used s' → Steps s' rest s'' → Steps s (used ++ rest) s''

@[simp] theorem run_nil (s : S) : L.run s [] = .ok s := by
  rw [run, if_pos rfl]

theorem run_of_reads {s s' : S} {used : List B} (h : Reads (L.step s) used s') (rest : List B) :
    L.run s (used ++ rest) = L.run s' rest := by
  have hne : used ++ rest ≠ [] := by
    intro hnil
    rw [(List.append_eq_nil_iff.mp hnil).1] at h
    exact L.progress s s' h
  rw [run, if_neg hne]
  split
  · rename_i e he
    rw [h] at he
    cases he
  · rename_i t rest' he
    rw [h] at he
    cases he
    rfl

theorem run_of_error {s : S} {e : E} {input : List B} (hne : input ≠ [])
    (h : (L.step s).run input = .error e) : L.run s input = .error e := by
  rw [run, if_neg hne]
  split
  · rename_i e' he
    rw [h] at he
    cases he
    rfl
  · rename_i t rest' he
    rw [h] at he
    cases he

variable {L}

theorem Steps.run {s s' : S} {input : List B} (h : L.Steps s input s') (rest : List B) :
    L.run s (input ++ rest) = L.run s' rest := by
  induction h with
  | nil s => rfl
  | cons hread _ ih => rw [List.append_assoc, run_of_reads L hread, ih]

theorem Steps.append {s s' s'' : S} {input input' : List B} (h : L.Steps s input s')
    (h' : L.Steps s' input' s'') : L.Steps s (input ++ input') s'' := by
  induction h with
  | nil s => exact h'
  | cons hread _ ih =>
    rw [List.append_assoc]
    exact Steps.cons hread (ih h')

variable (L)

/-- **The loop accepts what can be cut into pieces that one call takes each.** -/
theorem run_eq_ok_iff {s s' : S} {input : List B} :
    L.run s input = .ok s' ↔ L.Steps s input s' := by
  constructor
  · intro h
    induction hn : input.length using Nat.strongRecOn generalizing s input with
    | ind n ih =>
      subst hn
      by_cases hne : input = []
      · subst hne
        rw [run_nil] at h
        cases h
        exact Steps.nil _
      · cases hstep : (L.step s).run input with
        | error e =>
          rw [L.run_of_error hne hstep] at h
          cases h
        | ok p =>
          obtain ⟨t, rest⟩ := p
          have hlt := L.length_lt hstep
          obtain ⟨used, rfl, hused⟩ := L.isLocal s _ t rest hstep
          rw [run_of_reads L hused] at h
          exact Steps.cons hused (ih _ hlt h rfl)
  · intro h
    have hrun := h.run []
    rwa [List.append_nil, run_nil] at hrun

end Loop
end KartStack.StreamReaders
