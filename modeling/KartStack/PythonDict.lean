import Mathlib.Data.Nat.Basic

/-! # Dictionaries that count

A dictionary keeps its entries in the order their keys came.  Where every entry holds
counts, what an update adds at one key it adds to the sum over the entries, whatever the
key (`sum_updated`), and an entry made with zero adds nothing (`sum_ensured`).
-/
namespace KartStack.Python

section
variable {C S : Type} [DecidableEq C]

/-- `if key not in d: d[key] = value`. -/
def ensured (d : List (C × S)) (key : C) (value : S) : List (C × S) :=
  if key ∈ d.map Prod.fst then d else d ++ [(key, value)]

/-- `d[key] = f(d[key])`; there is none where the key is missing. -/
def updated (f : S → S) (key : C) : List (C × S) → Option (List (C × S))
  | [] => none
  | entry :: d =>
    if entry.1 = key then some ((entry.1, f entry.2) :: d)
    else (updated f key d).map (entry :: ·)

/-- The sum of a count over the entries. -/
def sumOf (count : S → Nat) : List (C × S) → Nat
  | [] => 0
  | entry :: d => count entry.2 + sumOf count d

theorem mem_ensured (d : List (C × S)) (key : C) (value : S) :
    key ∈ (ensured d key value).map Prod.fst := by
  rw [ensured]
  split
  · assumption
  · simp

theorem mem_ensured_of_mem {d : List (C × S)} {c : C} (hc : c ∈ d.map Prod.fst) (key : C)
    (value : S) : c ∈ (ensured d key value).map Prod.fst := by
  rw [ensured]
  split
  · exact hc
  · rw [List.map_append]
    exact List.mem_append_left _ hc

omit [DecidableEq C] in
theorem sum_append (count : S → Nat) (d e : List (C × S)) :
    sumOf count (d ++ e) = sumOf count d + sumOf count e := by
  induction d with
  | nil => rw [List.nil_append, sumOf, Nat.zero_add]
  | cons entry d ih => rw [List.cons_append, sumOf, sumOf, ih, Nat.add_assoc]

theorem sum_ensured {count : S → Nat} {value : S} (hvalue : count value = 0)
    (d : List (C × S)) (key : C) : sumOf count (ensured d key value) = sumOf count d := by
  rw [ensured]
  split
  · rfl
  · rw [sum_append, sumOf, sumOf, hvalue]
    rfl

/-- A key that is there can be updated, and stays there with all the others. -/
theorem exists_updated (f : S → S) {key : C} {d : List (C × S)} (hkey : key ∈ d.map Prod.fst) :
    ∃ d', updated f key d = some d' ∧ d'.map Prod.fst = d.map Prod.fst := by
  induction d with
  | nil => cases hkey
  | cons entry d ih =>
    rw [updated]
    split
    · exact ⟨_, rfl, rfl⟩
    · rename_i hne
      rw [List.map_cons, List.mem_cons] at hkey
      obtain ⟨d', hd', hkeys⟩ := ih (hkey.resolve_left (Ne.symm hne))
      exact ⟨entry :: d', by rw [hd', Option.map_some], by rw [List.map_cons, hkeys, List.map_cons]⟩

theorem sum_updated {f : S → S} {count : S → Nat} {k : Nat}
    (hf : ∀ s, count (f s) = count s + k) {key : C} {d d' : List (C × S)}
    (h : updated f key d = some d') : sumOf count d' = sumOf count d + k := by
  induction d generalizing d' with
  | nil => cases h
  | cons entry d ih =>
    rw [updated] at h
    split at h
    · obtain rfl := Option.some.inj h
      rw [sumOf, sumOf, hf]
      omega
    · obtain ⟨rest, hrest, rfl⟩ := Option.map_eq_some_iff.mp h
      rw [sumOf, sumOf, ih hrest, Nat.add_assoc]

/-! ## A count of the members of a list -/

section
variable {A : Type} (key : A → C) (f : S → S)

/-- What the keys of a list add, where each has its entry already. -/
theorem exists_foldlM_updated {as : List A} {d : List (C × S)}
    (hkeys : ∀ a ∈ as, key a ∈ d.map Prod.fst) :
    ∃ d', as.foldlM (fun d a => updated f (key a) d) d = some d' ∧
      d'.map Prod.fst = d.map Prod.fst ∧
      ∀ (count : S → Nat) (k : Nat), (∀ s, count (f s) = count s + k) →
        sumOf count d' = sumOf count d + k * as.length := by
  induction as generalizing d with
  | nil => exact ⟨d, rfl, rfl, fun _ _ _ => rfl⟩
  | cons a as ih =>
    obtain ⟨d₁, hd₁, hkeys₁⟩ := exists_updated f (hkeys a List.mem_cons_self)
    obtain ⟨d₂, hd₂, hkeys₂, hsum₂⟩ := ih (d := d₁) fun b hb => by
      rw [hkeys₁]
      exact hkeys b (List.mem_cons_of_mem a hb)
    refine ⟨d₂, ?_, hkeys₂.trans hkeys₁, fun count k hf => ?_⟩
    · rw [List.foldlM_cons, hd₁]
      exact hd₂
    · rw [hsum₂ count k hf, sum_updated hf hd₁, List.length_cons, Nat.mul_succ]
      omega

/-- What the keys of a list add, where a missing entry is made first. -/
theorem exists_foldlM_ensured (value : S) (as : List A) (d : List (C × S)) :
    ∃ d', as.foldlM (fun d a => updated f (key a) (ensured d (key a) value)) d = some d' ∧
      (∀ c ∈ d.map Prod.fst, c ∈ d'.map Prod.fst) ∧ (∀ a ∈ as, key a ∈ d'.map Prod.fst) ∧
      ∀ (count : S → Nat) (k : Nat), count value = 0 → (∀ s, count (f s) = count s + k) →
        sumOf count d' = sumOf count d + k * as.length := by
  induction as generalizing d with
  | nil => exact ⟨d, rfl, fun _ hc => hc, fun _ ha => (List.not_mem_nil ha).elim,
      fun _ _ _ _ => rfl⟩
  | cons a as ih =>
    obtain ⟨d₁, hd₁, hkeys₁⟩ := exists_updated f (mem_ensured d (key a) value)
    obtain ⟨d₂, hd₂, hkeep₂, hkeys₂, hsum₂⟩ := ih d₁
    refine ⟨d₂, ?_, fun c hc => ?_, fun b hb => ?_, fun count k hvalue hf => ?_⟩
    · rw [List.foldlM_cons, hd₁]
      exact hd₂
    · apply hkeep₂
      rw [hkeys₁]
      exact mem_ensured_of_mem hc (key a) value
    · rcases List.mem_cons.mp hb with rfl | hb
      · apply hkeep₂
        rw [hkeys₁]
        exact mem_ensured d (key b) value
      · exact hkeys₂ b hb
    · rw [hsum₂ count k hvalue hf, sum_updated hf hd₁, sum_ensured hvalue, List.length_cons,
        Nat.mul_succ]
      omega

end

end

end KartStack.Python
