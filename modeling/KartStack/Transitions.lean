import Mathlib.Tactic.Common

/-! # Runs of a step function

A system of several parties is a step function: given a state and an action — whose
turn it is, and what its environment answers — it yields the next state, or `none`
when that action is not possible.  Every list of actions that never gets stuck is
a run, so runs are all interleavings.

Properties of runs follow from properties of steps: an invariant that every step
keeps holds in every state reached (`Reachable.inv`), also when only the steps
that meet a condition keep it and the run takes no others (`inv_of_along`); what
such a run does right can be read off the condition (`along_iff`,
`along_iff_of_inv`); and where each
state short of a goal has a step towards it, the goal can be reached (`exists_run`).
-/
namespace KartStack.Transitions

variable {S A : Type} (step : S → A → Option S)

/-- The state after a list of actions, if none of them is stuck. -/
def run : S → List A → Option S
  | s, [] => some s
  | s, a :: acts => (step s a).bind fun s' => run s' acts

@[simp] theorem run_nil (s : S) : run step s [] = some s := rfl

theorem run_cons {s s' : S} {a : A} (h : step s a = some s') (acts : List A) :
    run step s (a :: acts) = run step s' acts := by
  rw [run, h, Option.bind_some]

/-- A run that begins with `a` takes a step. -/
theorem run_cons_eq_some {s s' : S} {a : A} {acts : List A}
    (h : run step s (a :: acts) = some s') :
    ∃ s₁, step s a = some s₁ ∧ run step s₁ acts = some s' :=
  Option.bind_eq_some_iff.mp h

theorem run_append {s s₁ : S} {acts : List A} (h : run step s acts = some s₁) (acts' : List A) :
    run step s (acts ++ acts') = run step s₁ acts' := by
  induction acts generalizing s with
  | nil =>
    obtain rfl := Option.some.inj h
    rfl
  | cons a acts ih =>
    obtain ⟨s', hs', hrun⟩ := run_cons_eq_some step h
    rw [List.cons_append, run_cons step hs', ih hrun]

/-- A run can be cut in two. -/
theorem run_append_eq_some {s s' : S} {acts acts' : List A}
    (h : run step s (acts ++ acts') = some s') :
    ∃ s₁, run step s acts = some s₁ ∧ run step s₁ acts' = some s' := by
  induction acts generalizing s with
  | nil => exact ⟨s, rfl, h⟩
  | cons a acts ih =>
    obtain ⟨s₁, hs₁, hrun⟩ := run_cons_eq_some step h
    obtain ⟨s₂, hs₂, hrest⟩ := ih hrun
    exact ⟨s₂, (run_cons step hs₁ acts).trans hs₂, hrest⟩

/-- Each action of a run is possible in some state. -/
theorem exists_step_of_mem {s s' : S} {acts : List A} (h : run step s acts = some s') {a : A}
    (ha : a ∈ acts) : ∃ s₁ s₂, step s₁ a = some s₂ := by
  obtain ⟨front, back, rfl⟩ := List.append_of_mem ha
  obtain ⟨s₁, -, hrun⟩ := run_append_eq_some step h
  obtain ⟨s₂, hs₂, -⟩ := run_cons_eq_some step hrun
  exact ⟨s₁, s₂, hs₂⟩

/-- A state some run leads to. -/
def Reachable (s₀ s : S) : Prop := ∃ acts, run step s₀ acts = some s

/-- Every step of the run meets the condition in the state it is taken in. -/
def Along (ok : S → A → Prop) : S → List A → Prop
  | _, [] => True
  | s, a :: acts => ok s a ∧ ∀ s' ∈ step s a, Along ok s' acts

instance decAlong (ok : S → A → Prop) [∀ s a, Decidable (ok s a)] :
    ∀ (s : S) (acts : List A), Decidable (Along step ok s acts)
  | _, [] => isTrue trivial
  | _, _ :: acts =>
    have := fun s' => decAlong ok s' acts
    inferInstanceAs (Decidable (_ ∧ _))

variable {step}

/-- A condition that always holds holds along every run. -/
theorem along_of_forall {ok : S → A → Prop} (h : ∀ s a, ok s a) (s : S) (acts : List A) :
    Along step ok s acts := by
  induction acts generalizing s with
  | nil => trivial
  | cons a acts ih => exact ⟨h s a, fun s' _ => ih s'⟩

/-- **What an invariant that every step keeps implies holds along every run.** -/
theorem along_of_inv {Inv : S → Prop} {ok : S → A → Prop} (hok : ∀ s a, Inv s → ok s a)
    (hstep : ∀ s a s', Inv s → step s a = some s' → Inv s') {s : S} (hs : Inv s)
    (acts : List A) : Along step ok s acts := by
  induction acts generalizing s with
  | nil => trivial
  | cons a acts ih => exact ⟨hok s a hs, fun s' hs' => ih (hstep s a s' hs hs')⟩

/-- A run that does not get stuck takes possible steps. -/
theorem along_of_run {s s' : S} {acts : List A} (hrun : run step s acts = some s') :
    Along step (fun s a => ∃ s₁, step s a = some s₁) s acts := by
  induction acts generalizing s with
  | nil => trivial
  | cons a acts ih =>
    obtain ⟨s₁, hs₁, hrun⟩ := run_cons_eq_some step hrun
    refine ⟨⟨s₁, hs₁⟩, fun s₂ hs₂ => ?_⟩
    obtain rfl := Option.some.inj (hs₁.symm.trans hs₂)
    exact ih hrun

/-- **Invariants of runs that meet a condition.** -/
theorem inv_of_along {Inv : S → Prop} {ok : S → A → Prop}
    (hstep : ∀ s a s', Inv s → ok s a → step s a = some s' → Inv s') {s s' : S} {acts : List A}
    (hs : Inv s) (hok : Along step ok s acts) (hrun : run step s acts = some s') : Inv s' := by
  induction acts generalizing s with
  | nil =>
    obtain rfl := Option.some.inj hrun
    exact hs
  | cons a acts ih =>
    obtain ⟨s₁, hs₁, hrun⟩ := run_cons_eq_some step hrun
    exact ih (hstep s a s₁ hs hok.1 hs₁) (hok.2 s₁ hs₁) hrun

/-- **Two conditions meet along the same runs** if each step meets both or neither
wherever the invariant holds, and a step that meets them keeps the invariant. -/
theorem along_iff {Inv : S → Prop} {ok P Q : S → A → Prop}
    (hiff : ∀ s a, Inv s → ok s a → (P s a ↔ Q s a))
    (hstep : ∀ s a s', Inv s → ok s a → Q s a → step s a = some s' → Inv s') {s : S}
    {acts : List A} (hs : Inv s) (hok : Along step ok s acts) :
    Along step P s acts ↔ Along step Q s acts := by
  induction acts generalizing s with
  | nil => exact Iff.rfl
  | cons a acts ih =>
    obtain ⟨hoka, hok⟩ := hok
    constructor
    · rintro ⟨hp, hrest⟩
      have hq : Q s a := (hiff s a hs hoka).mp hp
      refine ⟨hq, fun s' hs' => ?_⟩
      exact (ih (hstep s a s' hs hoka hq hs') (hok s' hs')).mp (hrest s' hs')
    · rintro ⟨hq, hrest⟩
      refine ⟨(hiff s a hs hoka).mpr hq, fun s' hs' => ?_⟩
      exact (ih (hstep s a s' hs hoka hq hs') (hok s' hs')).mpr (hrest s' hs')

/-- **Two conditions meet along the same runs**, also those that are not restricted. -/
theorem along_iff_of_inv {Inv : S → Prop} {P Q : S → A → Prop}
    (hiff : ∀ s a, Inv s → (P s a ↔ Q s a))
    (hstep : ∀ s a s', Inv s → Q s a → step s a = some s' → Inv s') {s : S} (hs : Inv s)
    (acts : List A) : Along step P s acts ↔ Along step Q s acts :=
  along_iff (fun s a hs _ => hiff s a hs) (fun s a s' hs _ => hstep s a s' hs) hs
    (along_of_forall (fun _ _ => trivial) s acts)

/-- **Invariants of all runs** whose actions are of a kind. -/
theorem inv_of_run {Inv : S → Prop} {kind : A → Prop}
    (hstep : ∀ s a s', Inv s → kind a → step s a = some s' → Inv s') {s s' : S} {acts : List A}
    (hs : Inv s) (hkind : ∀ a ∈ acts, kind a) (hrun : run step s acts = some s') : Inv s' := by
  induction acts generalizing s with
  | nil =>
    obtain rfl := Option.some.inj hrun
    exact hs
  | cons a acts ih =>
    obtain ⟨s₁, hs₁, hrun⟩ := run_cons_eq_some step hrun
    exact ih (hstep s a s₁ hs (hkind a (List.mem_cons_self ..)) hs₁)
      (fun b hb => hkind b (List.mem_cons_of_mem _ hb)) hrun

/-- **Invariants of reachable states.** -/
theorem Reachable.inv {Inv : S → Prop} {s₀ s : S} (h : Reachable step s₀ s) (h₀ : Inv s₀)
    (hstep : ∀ s a s', Inv s → step s a = some s' → Inv s') : Inv s := by
  obtain ⟨acts, hrun⟩ := h
  exact inv_of_run (fun s a s' hs _ => hstep s a s' hs) h₀
    (fun _ _ => trivial) hrun

/-- **Progress.**  If every state of an invariant short of the goal has a step of
the right kind that keeps the invariant and comes closer, the goal can be reached by
such steps. -/
theorem exists_run {Inv Goal : S → Prop} {kind : A → Prop} (distance : S → Nat)
    (hstep : ∀ s, Inv s → ¬ Goal s →
      ∃ a s', kind a ∧ step s a = some s' ∧ Inv s' ∧ distance s' < distance s) {s : S}
    (hs : Inv s) :
    ∃ acts s', (∀ a ∈ acts, kind a) ∧ run step s acts = some s' ∧ Inv s' ∧ Goal s' := by
  induction hd : distance s using Nat.strongRecOn generalizing s with
  | _ d ih =>
    by_cases hgoal : Goal s
    · exact ⟨[], s, List.forall_mem_nil _, rfl, hs, hgoal⟩
    · obtain ⟨a, s₁, ha, hs₁, hinv, hlt⟩ := hstep s hs hgoal
      obtain ⟨acts, s', hacts, hrun, hgoal⟩ := ih _ (hd ▸ hlt) hinv rfl
      refine ⟨a :: acts, s', ?_, ?_, hgoal⟩
      · intro b hb
        rcases List.mem_cons.mp hb with rfl | hb
        · exact ha
        · exact hacts b hb
      · rw [run_cons step hs₁, hrun]

end KartStack.Transitions
