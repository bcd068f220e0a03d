import KartStack.PythonStrings
import Mathlib.Data.Rat.Floor
import Mathlib.Tactic.FieldSimp
import Mathlib.Tactic.Linarith
import Mathlib.Tactic.NormNum

/-! # Decimal numbers in Python

Numbers that are written with a fixed number of decimals, and numbers that are read.  What
was written is read back as the number rounded (`readFloat_formatFixed`).
-/
namespace KartStack.Python

/-- The nearest integer, and of two the even one. -/
def roundHalfEven (x : ℚ) : ℤ :=
  let n := ⌊x⌋
  if x - n < 0.5 then n else if 0.5 < x - n then n + 1 else if n % 2 = 0 then n else n + 1

/-- A number rounded to so many decimals. -/
def roundFixed (d : Nat) (x : ℚ) : ℚ :=
  (roundHalfEven (x * ((10 ^ d : Nat) : ℚ)) : ℚ) / ((10 ^ d : Nat) : ℚ)

/-- `s.zfill(n)`, of digits. -/
def zeroFill (n : Nat) (s : Str) : Str := List.replicate (n - s.length) '0' ++ s

/-- `f"{x:.{d}f}"`. -/
def formatFixed (d : Nat) (x : ℚ) : Str :=
  let n := (roundHalfEven (x * ((10 ^ d : Nat) : ℚ))).natAbs
  (if x < 0 then ['-'] else []) ++
    (decimal (n / 10 ^ d) ++ '.' :: zeroFill d (decimal (n % 10 ^ d)))

/-- Digits after a sign. -/
def readSigned (s : Str) : Option Int :=
  match s with
  | '-' :: ds => (readDigits 0 false ds).map fun n => -(n : Int)
  | '+' :: ds => (readDigits 0 false ds).map Int.ofNat
  | ds => (readDigits 0 false ds).map Int.ofNat

/-- A character that begins an exponent. -/
def isExponent (c : Char) : Bool := c = 'e' || c = 'E'

/-- `float(s)`, of a number without a sign. -/
def readUnsigned (s : Str) : Option ℚ := do
  let parts := partition '.' (s.takeWhile (!isExponent ·))
  let exponent ← match s.dropWhile (!isExponent ·) with
    | [] => some 0
    | _ :: e => readSigned e
  if parts.1 = [] ∧ parts.2 = [] then none
  else
    let whole ← if parts.1 = [] then some 0 else readDigits 0 false parts.1
    let decimals ← if parts.2 = [] then some 0 else readDigits 0 false parts.2
    let places := (parts.2.filter (· ≠ '_')).length
    return ((whole : ℚ) + (decimals : ℚ) / ((10 ^ places : Nat) : ℚ)) * ((10 : Nat) : ℚ) ^ exponent

/-- `float(s)`, but for infinities and what is not a number. -/
def readFloat (s : Str) : Option ℚ :=
  match strip s with
  | '-' :: t => (readUnsigned t).map fun x => -x
  | '+' :: t => readUnsigned t
  | t => readUnsigned t

/-! ## Rounding -/

/-- Rounding is by half a unit at most. -/
theorem abs_sub_roundHalfEven_le (x : ℚ) : |x - roundHalfEven x| ≤ 0.5 := by
  have hlo := Int.floor_le x
  have hhi := Int.lt_floor_add_one x
  simp only [roundHalfEven]
  split_ifs with hdown hup heven
  · rw [abs_le]
    constructor <;> linarith
  · rw [abs_le]
    push_cast
    constructor <;> linarith
  · rw [abs_le]
    constructor <;> linarith
  · rw [abs_le]
    push_cast
    constructor <;> linarith

theorem roundHalfEven_nonneg {x : ℚ} (h : 0 ≤ x) : 0 ≤ roundHalfEven x := by
  have hfloor : 0 ≤ ⌊x⌋ := Int.floor_nonneg.mpr h
  simp only [roundHalfEven]
  split_ifs <;> omega

theorem roundHalfEven_nonpos {x : ℚ} (h : x < 0) : roundHalfEven x ≤ 0 := by
  have hfloor : ⌊x⌋ < 0 := Int.floor_lt.mpr (by exact_mod_cast h)
  simp only [roundHalfEven]
  split_ifs <;> omega

/-! ## What is written -/

theorem zeroFill_digits {n : Nat} {s : Str} (h : ∀ c ∈ s, c.isDigit = true) :
    ∀ c ∈ zeroFill n s, c.isDigit = true := by
  intro c hc
  rcases List.mem_append.mp hc with hzero | hs
  · obtain rfl := List.eq_of_mem_replicate hzero
    rfl
  · exact h c hs

theorem zeroFill_length {n : Nat} {s : Str} (h : s.length ≤ n) : (zeroFill n s).length = n := by
  rw [zeroFill, List.length_append, List.length_replicate]
  omega

theorem formatFixed_chars {d : Nat} {x : ℚ} :
    ∀ c ∈ formatFixed d x, c.isDigit = true ∨ c = '-' ∨ c = '.' := by
  intro c hc
  simp only [formatFixed] at hc
  rcases List.mem_append.mp hc with hsign | hnumber
  · split at hsign
    · exact Or.inr (Or.inl (List.mem_singleton.mp hsign))
    · cases hsign
  rcases List.mem_append.mp hnumber with hwhole | hdecimals
  · exact Or.inl (decimal_digits _ c hwhole)
  rcases List.mem_cons.mp hdecimals with rfl | hdigit
  · exact Or.inr (Or.inr rfl)
  · exact Or.inl (zeroFill_digits (decimal_digits _) c hdigit)

theorem formatFixed_ne_nil (d : Nat) (x : ℚ) : formatFixed d x ≠ [] :=
  List.append_ne_nil_of_right_ne_nil _
    (List.append_ne_nil_of_left_ne_nil (decimal_ne_nil _) _)

theorem formatFixed_not_space {d : Nat} {x : ℚ} : ∀ c ∈ formatFixed d x, isSpace c = false := by
  intro c hc
  obtain hdigit | rfl | rfl := formatFixed_chars c hc
  · exact isSpace_of_isDigit hdigit
  · decide
  · decide

/-! ## What is read -/

theorem readDigits_zeroFill (d n : Nat) :
    readDigits 0 false (zeroFill d (decimal n)) = some n := by
  have hdigits := zeroFill_digits (n := d) (decimal_digits n)
  have hne : zeroFill d (decimal n) ≠ [] :=
    List.append_ne_nil_of_right_ne_nil _ (decimal_ne_nil n)
  rw [readDigits_digits hdigits 0 (Or.inr hne), zeroFill, Nat.ofDigitChars_append,
    Nat.ofDigitChars_replicate_zero, Nat.mul_zero, decimal, Nat.ofDigitChars_ten_toDigits]

theorem readUnsigned_parts {whole decimals : Str} (hw : ∀ c ∈ whole, c.isDigit = true)
    (hwne : whole ≠ []) (hd : ∀ c ∈ decimals, c.isDigit = true) (hdne : decimals ≠ []) {q r : Nat}
    (hq : readDigits 0 false whole = some q) (hr : readDigits 0 false decimals = some r) :
    readUnsigned (whole ++ '.' :: decimals) =
      some ((q : ℚ) + (r : ℚ) / ((10 ^ decimals.length : Nat) : ℚ)) := by
  have hchar : ∀ {c : Char}, c.isDigit = true → isExponent c = false ∧ c ≠ '.' ∧ c ≠ '_' := by
    intro c hc
    have hnat := isDigit_iff.mp hc
    refine ⟨?_, ?_, ?_⟩
    · rw [isExponent, Bool.or_eq_false_iff, decide_eq_false_iff_not, decide_eq_false_iff_not]
      constructor <;> rintro rfl <;> exact absurd hc (by decide)
    · rintro rfl
      exact absurd hc (by decide)
    · rintro rfl
      exact absurd hc (by decide)
  have hall : ∀ c ∈ whole ++ '.' :: decimals, (!isExponent c) = true := by
    intro c hc
    rcases List.mem_append.mp hc with h | h
    · rw [(hchar (hw c h)).1]
      rfl
    rcases List.mem_cons.mp h with rfl | h
    · decide
    · rw [(hchar (hd c h)).1]
      rfl
  have hdot : '.' ∉ whole := fun hmem => (hchar (hw _ hmem)).2.1 rfl
  have hplaces : decimals.filter (· ≠ '_') = decimals :=
    List.filter_eq_self.mpr fun c hc => decide_eq_true (hchar (hd c hc)).2.2
  have hparts : ¬ (whole = [] ∧ decimals = []) := fun h => hwne h.1
  rw [readUnsigned, List.takeWhile_eq_self_iff.mpr hall, List.dropWhile_eq_nil_iff.mpr hall,
    partition_append_cons hdot]
  simp only [Option.bind_eq_bind, Option.bind_some, if_neg hparts, if_neg hwne, if_neg hdne, hq, hr,
    hplaces, Option.pure_def, zpow_zero, mul_one]

/-- **What was written is read back rounded.** -/
theorem readFloat_formatFixed {d : Nat} (hd : 0 < d) (x : ℚ) :
    readFloat (formatFixed d x) = some (roundFixed d x) := by
  have hpos : 0 < 10 ^ d := Nat.pow_pos (by decide)
  have hstrip := strip_of_not_space (formatFixed_not_space (d := d) (x := x))
  have hnumber : ∀ n : Nat, readUnsigned
      (decimal (n / 10 ^ d) ++ '.' :: zeroFill d (decimal (n % 10 ^ d))) =
        some ((n : ℚ) / ((10 ^ d : Nat) : ℚ)) := by
    intro n
    have hr : n % 10 ^ d < 10 ^ d := Nat.mod_lt n hpos
    have hlen : (zeroFill d (decimal (n % 10 ^ d))).length = d :=
      zeroFill_length ((Nat.length_toDigits_le_iff (by decide) hd).mpr hr)
    rw [readUnsigned_parts (decimal_digits _) (decimal_ne_nil _)
      (zeroFill_digits (decimal_digits _))
      (List.ne_nil_of_length_pos (hlen.symm ▸ hd)) (readDigits_decimal _)
      (readDigits_zeroFill d _), hlen]
    have hne : ((10 ^ d : Nat) : ℚ) ≠ 0 := by exact_mod_cast hpos.ne'
    have hsplit : ((10 ^ d : Nat) : ℚ) * ((n / 10 ^ d : Nat) : ℚ) + ((n % 10 ^ d : Nat) : ℚ) =
        (n : ℚ) := by exact_mod_cast Nat.div_add_mod n (10 ^ d)
    rw [← hsplit]
    congr 1
    field_simp
  have hscale : (0 : ℚ) < ((10 ^ d : Nat) : ℚ) := by exact_mod_cast hpos
  rw [readFloat, hstrip, roundFixed, formatFixed]
  by_cases hneg : x < 0
  · have hround := roundHalfEven_nonpos (mul_neg_of_neg_of_pos hneg hscale)
    have habs : ((roundHalfEven (x * ((10 ^ d : Nat) : ℚ))).natAbs : ℚ) =
        -(roundHalfEven (x * ((10 ^ d : Nat) : ℚ)) : ℚ) := by
      rw [Nat.cast_natAbs, abs_of_nonpos hround, Int.cast_neg]
    simp only [if_pos hneg, List.cons_append, List.nil_append, hnumber, habs, Option.map_some]
    congr 1
    ring
  · have hround := roundHalfEven_nonneg (mul_nonneg (not_lt.mp hneg) hscale.le)
    have habs : ((roundHalfEven (x * ((10 ^ d : Nat) : ℚ))).natAbs : ℚ) =
        (roundHalfEven (x * ((10 ^ d : Nat) : ℚ)) : ℚ) := by
      rw [Nat.cast_natAbs, abs_of_nonneg hround]
    simp only [if_neg hneg, List.nil_append]
    rw [← habs, ← hnumber]
    -- the first character is a digit and no sign
    obtain ⟨c, cs, hcs⟩ := List.exists_cons_of_ne_nil (decimal_ne_nil
      ((roundHalfEven (x * ((10 ^ d : Nat) : ℚ))).natAbs / 10 ^ d))
    have hc : c.isDigit = true := decimal_digits _ c (hcs ▸ List.mem_cons_self)
    rw [hcs]
    split
    · rename_i heq
      obtain rfl := (List.cons.inj heq).1
      exact absurd hc (by decide)
    · rename_i heq
      obtain rfl := (List.cons.inj heq).1
      exact absurd hc (by decide)
    · rfl

end KartStack.Python
