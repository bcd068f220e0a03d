import Mathlib.Algebra.Order.Ring.Nat

/-! # Numbers in base 128

A number is written as groups of seven bits, the lowest first, one to a byte; each
byte but the last has its high bit set (`IsVarint`).  The shortest such writing is
`encode`; others end in groups of zeros (`length_encode_value_le`).
-/
namespace KartStack.Base128

/-- The shortest writing of a number. -/
def encode (n : Nat) : List UInt8 :=
  if n < 128 then [UInt8.ofNat n] else UInt8.ofNat (n % 128 + 128) :: encode (n / 128)
termination_by n
decreasing_by omega

/-- The bytes of one number: all but the last have the high bit set. -/
def IsVarint : List UInt8 → Prop
  | [] => False
  | [b] => b.toNat < 128
  | b :: c :: bytes => 128 ≤ b.toNat ∧ IsVarint (c :: bytes)

/-- The number some bytes write. -/
def value : List UInt8 → Nat
  | [] => 0
  | b :: bytes => b.toNat % 128 + 128 * value bytes

theorem encode_of_lt {n : Nat} (h : n < 128) : encode n = [UInt8.ofNat n] := by
  rw [encode, if_pos h]

theorem encode_of_le {n : Nat} (h : 128 ≤ n) :
    encode n = UInt8.ofNat (n % 128 + 128) :: encode (n / 128) := by
  rw [encode, if_neg (by omega)]

theorem encode_ne_nil (n : Nat) : encode n ≠ [] := by
  rw [encode]
  split <;> exact List.cons_ne_nil _ _

theorem IsVarint.ne_nil {bytes : List UInt8} (h : IsVarint bytes) : bytes ≠ [] := by
  rintro rfl
  exact h

/-- A byte in front of a number: it continues. -/
theorem isVarint_cons {b : UInt8} {bytes : List UInt8} (h : bytes ≠ []) :
    IsVarint (b :: bytes) ↔ 128 ≤ b.toNat ∧ IsVarint bytes := by
  cases bytes with
  | nil => exact absurd rfl h
  | cons c bytes => exact Iff.rfl

theorem isVarint_singleton {b : UInt8} : IsVarint [b] ↔ b.toNat < 128 := Iff.rfl

/-- The first byte decides whether the number goes on. -/
theorem isVarint_cons_iff {b : UInt8} {bytes : List UInt8} :
    IsVarint (b :: bytes) ↔
      if b.toNat < 128 then bytes = [] else IsVarint bytes := by
  cases bytes with
  | nil =>
    rw [isVarint_singleton]
    split <;> simp_all [IsVarint]
  | cons c bytes =>
    rw [isVarint_cons (List.cons_ne_nil c bytes)]
    split
    · simp only [reduceCtorEq, iff_false, not_and]
      omega
    · exact and_iff_right (by omega)

@[simp] theorem value_nil : value [] = 0 := rfl

@[simp] theorem value_cons (b : UInt8) (bytes : List UInt8) :
    value (b :: bytes) = b.toNat % 128 + 128 * value bytes := rfl

theorem toNat_ofNat {n : Nat} (h : n < 256) : (UInt8.ofNat n).toNat = n := by
  rw [UInt8.toNat_ofNat']
  exact Nat.mod_eq_of_lt h

theorem isVarint_encode (n : Nat) : IsVarint (encode n) := by
  induction n using Nat.strongRecOn with
  | ind n ih =>
    by_cases h : n < 128
    · rw [encode_of_lt h, isVarint_singleton, toNat_ofNat (by omega)]
      exact h
    · rw [encode_of_le (by omega), isVarint_cons (encode_ne_nil _), toNat_ofNat (by omega)]
      exact ⟨by omega, ih (n / 128) (by omega)⟩

@[simp] theorem value_encode (n : Nat) : value (encode n) = n := by
  induction n using Nat.strongRecOn with
  | ind n ih =>
    by_cases h : n < 128
    · rw [encode_of_lt h, value_cons, value_nil, toNat_ofNat (by omega)]
      omega
    · rw [encode_of_le (by omega), value_cons, toNat_ofNat (by omega), ih (n / 128) (by omega)]
      omega

/-- A number of at most `k` groups takes at most `k` bytes. -/
theorem length_encode_le {n : Nat} (k : Nat) (h : n < 128 ^ (k + 1)) :
    (encode n).length ≤ k + 1 := by
  induction k generalizing n with
  | zero =>
    rw [encode_of_lt (by omega)]
    exact le_refl _
  | succ k ih =>
    by_cases hn : n < 128
    · rw [encode_of_lt hn]
      exact Nat.succ_le_succ (Nat.zero_le _)
    · have hdiv : n / 128 < 128 ^ (k + 1) := by
        rw [Nat.div_lt_iff_lt_mul (by decide), ← pow_succ]
        exact h
      rw [encode_of_le (by omega), List.length_cons]
      exact Nat.succ_le_succ (ih hdiv)

/-- A number of more than `k` groups takes more than `k` bytes. -/
theorem le_length_encode {n : Nat} (k : Nat) (h : 128 ^ k ≤ n) : k + 1 ≤ (encode n).length := by
  induction k generalizing n with
  | zero => exact List.length_pos_iff.mpr (encode_ne_nil n)
  | succ k ih =>
    have hpow : 1 ≤ 128 ^ k := Nat.one_le_two_pow.trans (Nat.pow_le_pow_left (by decide) k)
    rw [pow_succ] at h
    rw [encode_of_le (by omega), List.length_cons]
    exact Nat.succ_le_succ (ih (by omega))

theorem value_lt (bytes : List UInt8) : value bytes < 128 ^ bytes.length := by
  induction bytes with
  | nil => exact Nat.one_pos
  | cons b bytes ih =>
    rw [value_cons, List.length_cons, Nat.pow_succ]
    omega

/-- No writing of a number is shorter. -/
theorem length_encode_value_le {bytes : List UInt8} (h : IsVarint bytes) :
    (encode (value bytes)).length ≤ bytes.length := by
  obtain ⟨k, hk⟩ := Nat.exists_eq_succ_of_ne_zero (mt List.length_eq_zero_iff.mp h.ne_nil)
  have hlt := value_lt bytes
  rw [hk] at hlt ⊢
  exact length_encode_le k hlt

/-- A number at the start of some bytes: its first byte, and the rest if that goes on. -/
theorem exists_varint_cons {b : UInt8} {stream rest : List UInt8} {P : List UInt8 → Prop} :
    (∃ bytes, IsVarint bytes ∧ b :: stream = bytes ++ rest ∧ P bytes) ↔
      if b.toNat < 128 then stream = rest ∧ P [b]
      else ∃ bytes, IsVarint bytes ∧ stream = bytes ++ rest ∧ P (b :: bytes) := by
  constructor
  · rintro ⟨bytes, hbytes, heq, hP⟩
    cases bytes with
    | nil => exact hbytes.elim
    | cons c bytes =>
      rw [List.cons_append, List.cons.injEq] at heq
      obtain ⟨rfl, rfl⟩ := heq
      rw [isVarint_cons_iff] at hbytes
      split at hbytes
      · subst hbytes
        rw [if_pos ‹_›]
        exact ⟨rfl, hP⟩
      · rw [if_neg ‹_›]
        exact ⟨bytes, hbytes, rfl, hP⟩
  · split
    · rintro ⟨rfl, hP⟩
      exact ⟨[b], ‹_›, rfl, hP⟩
    · rintro ⟨bytes, hbytes, rfl, hP⟩
      refine ⟨b :: bytes, ?_, rfl, hP⟩
      rw [isVarint_cons_iff, if_neg ‹_›]
      exact hbytes

end KartStack.Base128
