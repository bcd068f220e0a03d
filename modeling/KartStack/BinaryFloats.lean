import KartStack.PythonDecimals
import Mathlib.Algebra.Order.Field.Power
import Mathlib.Data.Int.Log

/-! # Binary floating point

A format has the numbers `m * 2 ^ e` with `|m| ≤ 2 ^ precision` and `minExp ≤ e`; there
is no largest one.  A number is rounded to the nearest multiple of a power of two, which
depends on its size.  The result is in the format, and nothing in the format is nearer
(`abs_sub_round_le_of_mem`): everything else about rounding follows from that.
-/
namespace KartStack.BinaryFloats
open KartStack.Python

/-- How many bits a significand has, and the least exponent. -/
structure Format where
  precision : ℕ
  minExp : ℤ
  precision_pos : 0 < precision

namespace Format
variable (f : Format)

/-- The numbers of a format. -/
def Mem (y : ℚ) : Prop := ∃ m e : ℤ, |m| ≤ 2 ^ f.precision ∧ f.minExp ≤ e ∧ y = m * 2 ^ e

/-- The exponent of the last bit that is kept. -/
def exponent (x : ℚ) : ℤ :=
  if x = 0 then f.minExp else max (Int.log 2 |x| + 1 - f.precision) f.minExp

/-- The number of such bits. -/
def significand (x : ℚ) : ℤ := roundHalfEven (x / 2 ^ f.exponent x)

/-- Rounding to nearest, ties to even. -/
def round (x : ℚ) : ℚ := f.significand x * 2 ^ f.exponent x

end Format

/-- A `float`. -/
def single : Format := ⟨24, -149, by decide⟩

/-- A `double`. -/
def double : Format := ⟨53, -1074, by decide⟩

/-! ## To an integer -/

/-- No integer is nearer. -/
theorem abs_sub_roundHalfEven_le_int (t : ℚ) (n : ℤ) : |t - roundHalfEven t| ≤ |t - n| := by
  have hlo := Int.floor_le t
  have hhi := Int.lt_floor_add_one t
  have hside : (n : ℚ) ≤ ⌊t⌋ ∨ (⌊t⌋ : ℚ) + 1 ≤ n := by
    rcases le_or_gt n ⌊t⌋ with h | h
    · exact Or.inl (by exact_mod_cast h)
    · exact Or.inr (by exact_mod_cast h)
  have hdown : min (t - ⌊t⌋) (⌊t⌋ + 1 - t) ≤ |t - n| := by
    rcases hside with h | h
    · exact (min_le_left _ _).trans ((by linarith : t - ⌊t⌋ ≤ t - n).trans (le_abs_self _))
    · exact (min_le_right _ _).trans ((by linarith : ⌊t⌋ + 1 - t ≤ -(t - n)).trans (neg_le_abs _))
  refine le_trans ?_ hdown
  simp only [roundHalfEven]
  split_ifs with h₁ h₂
  · rw [abs_of_nonneg (by linarith), le_min_iff]
    constructor <;> linarith
  · push_cast
    rw [abs_of_nonpos (by linarith), le_min_iff]
    constructor <;> linarith
  · rw [abs_of_nonneg (by linarith), le_min_iff]
    constructor <;> linarith
  · push_cast
    rw [abs_of_nonpos (by linarith), le_min_iff]
    constructor <;> linarith

theorem roundHalfEven_intCast (n : ℤ) : roundHalfEven n = n := by
  have h : ((n : ℚ) - n : ℚ) < 0.5 := by norm_num
  rw [roundHalfEven, Int.floor_intCast, if_pos h]

theorem roundHalfEven_mem (t : ℚ) : roundHalfEven t = ⌊t⌋ ∨ roundHalfEven t = ⌊t⌋ + 1 := by
  simp only [roundHalfEven]
  split_ifs <;> simp

theorem roundHalfEven_neg (t : ℚ) : roundHalfEven (-t) = -roundHalfEven t := by
  have hlo := Int.floor_le t
  have hhi := Int.lt_floor_add_one t
  by_cases hint : (⌊t⌋ : ℚ) = t
  · rw [← hint, ← Int.cast_neg, roundHalfEven_intCast, roundHalfEven_intCast]
  · have hlt : (⌊t⌋ : ℚ) < t := lt_of_le_of_ne hlo hint
    have hfloor : ⌊-t⌋ = -⌊t⌋ - 1 := by
      rw [Int.floor_eq_iff]
      push_cast
      constructor <;> linarith
    simp only [roundHalfEven, hfloor]
    push_cast
    split_ifs <;> first | linarith | omega

/-- A tie goes to the even one. -/
theorem roundHalfEven_tie (k : ℤ) : roundHalfEven (2 * k + 1 / 2) = 2 * k := by
  have hfloor : ⌊(2 * k + 1 / 2 : ℚ)⌋ = 2 * k := by
    rw [Int.floor_eq_iff]
    push_cast
    constructor <;> linarith
  have hhalf : (2 * k + 1 / 2 : ℚ) - ((2 * k : ℤ) : ℚ) = 0.5 := by
    push_cast
    norm_num
  simp only [roundHalfEven, hfloor, hhalf, lt_irrefl, if_false]
  rw [if_pos (by omega)]

/-! ## To a format -/

namespace Format
variable {f : Format}

theorem two_zpow_pos (e : ℤ) : (0 : ℚ) < 2 ^ e := zpow_pos (by norm_num) e

theorem exponent_of_ne {x : ℚ} (h : x ≠ 0) :
    f.exponent x = max (Int.log 2 |x| + 1 - f.precision) f.minExp := if_neg h

theorem minExp_le_exponent (x : ℚ) : f.minExp ≤ f.exponent x := by
  rw [exponent]
  split_ifs
  · exact le_refl _
  · exact le_max_right _ _

/-- What is rounded to an integer is below the largest significand. -/
theorem abs_lt_pow (x : ℚ) : |x| < 2 ^ (f.precision + f.exponent x) := by
  by_cases hx : x = 0
  · rw [hx, abs_zero]
    exact two_zpow_pos _
  · have hlog : |x| < 2 ^ (Int.log 2 |x| + 1) := Int.lt_zpow_succ_log_self (by norm_num) |x|
    refine hlog.trans_le (zpow_le_zpow_right₀ (by norm_num) ?_)
    have := le_max_left (Int.log 2 |x| + 1 - f.precision) f.minExp
    rw [exponent_of_ne hx]
    omega

theorem abs_significand_le (x : ℚ) : |f.significand x| ≤ 2 ^ f.precision := by
  have hpos := two_zpow_pos (f.exponent x)
  have hlt := f.abs_lt_pow x
  rw [zpow_add₀ (by norm_num), zpow_natCast, ← div_lt_iff₀ hpos, ← abs_of_pos hpos, ← abs_div,
    abs_lt] at hlt
  have hlo : -2 ^ f.precision ≤ ⌊x / 2 ^ f.exponent x⌋ := by
    rw [Int.le_floor]
    exact_mod_cast hlt.1.le
  have hhi : ⌊x / 2 ^ f.exponent x⌋ < 2 ^ f.precision := by
    rw [Int.floor_lt]
    exact_mod_cast hlt.2
  rw [significand, abs_le]
  rcases roundHalfEven_mem (x / 2 ^ f.exponent x) with h | h <;> rw [h] <;> constructor <;> omega

theorem ne_zero_of_minExp_lt {x : ℚ} (h : f.minExp < f.exponent x) : x ≠ 0 := by
  rintro rfl
  rw [exponent, if_pos rfl] at h
  exact h.false

/-- Above the least exponent, the exponent is given by the size. -/
theorem exponent_eq {x : ℚ} (h : f.minExp < f.exponent x) :
    f.exponent x = Int.log 2 |x| + 1 - f.precision := by
  have hx := ne_zero_of_minExp_lt h
  rw [exponent_of_ne hx] at h ⊢
  rcases max_choice (Int.log 2 |x| + 1 - f.precision) f.minExp with hmax | hmax
  · exact hmax
  · omega

/-- The power of two at or below `|x|`. -/
theorem pow_log_le {x : ℚ} (hx : x ≠ 0) : (2 : ℚ) ^ Int.log 2 |x| ≤ |x| :=
  Int.zpow_log_le_self (by norm_num) (abs_pos.mpr hx)

/-- There that power of two is a multiple of the last bit. -/
theorem pow_mul_eq {x : ℚ} (h : f.minExp < f.exponent x) :
    (2 : ℚ) ^ (f.precision - 1) * 2 ^ f.exponent x = 2 ^ Int.log 2 |x| := by
  have hprec := f.precision_pos
  rw [← zpow_natCast, ← zpow_add₀ (by norm_num), exponent_eq h]
  congr 1
  omega

/-- There the first bit of the significand is set. -/
theorem pow_le_significand {x : ℚ} (hx : 0 ≤ x) (h : f.minExp < f.exponent x) :
    2 ^ (f.precision - 1) ≤ f.significand x := by
  have hlog := pow_log_le (ne_zero_of_minExp_lt h)
  rw [← pow_mul_eq h, ← le_div_iff₀ (two_zpow_pos _), abs_of_nonneg hx] at hlog
  have hfloor : (2 : ℤ) ^ (f.precision - 1) ≤ ⌊x / 2 ^ f.exponent x⌋ := by
    rw [Int.le_floor]
    exact_mod_cast hlog
  rw [significand]
  rcases roundHalfEven_mem (x / 2 ^ f.exponent x) with hround | hround <;> omega

/-- **A rounded number is in the format.** -/
theorem round_mem (x : ℚ) : f.Mem (f.round x) :=
  ⟨_, _, abs_significand_le x, minExp_le_exponent x, rfl⟩

/-- The distance to a multiple of the last bit. -/
theorem abs_sub_mul (x : ℚ) (n : ℤ) :
    |x - n * 2 ^ f.exponent x| = |x / 2 ^ f.exponent x - n| * 2 ^ f.exponent x := by
  have hpos := two_zpow_pos (f.exponent x)
  rw [← abs_of_pos hpos, ← abs_mul, abs_of_pos hpos, sub_mul, div_mul_cancel₀ _ hpos.ne']

/-- No multiple of the last bit is nearer. -/
theorem abs_sub_round_le_mul (x : ℚ) (n : ℤ) : |x - f.round x| ≤ |x - n * 2 ^ f.exponent x| := by
  rw [round, abs_sub_mul, abs_sub_mul]
  exact mul_le_mul_of_nonneg_right (abs_sub_roundHalfEven_le_int _ n) (two_zpow_pos _).le

/-- Rounding is by half of the last bit at most. -/
theorem abs_sub_round_le (x : ℚ) : |x - f.round x| ≤ 2 ^ f.exponent x / 2 := by
  have hhalf := abs_sub_roundHalfEven_le (x / 2 ^ f.exponent x)
  have hpos := two_zpow_pos (f.exponent x)
  rw [round, abs_sub_mul]
  calc |x / 2 ^ f.exponent x - f.significand x| * 2 ^ f.exponent x
      ≤ 0.5 * 2 ^ f.exponent x := mul_le_mul_of_nonneg_right hhalf hpos.le
    _ = 2 ^ f.exponent x / 2 := by ring

/-- There it is not nearer. -/
theorem abs_sub_round_le_pow {x : ℚ} (h : f.minExp < f.exponent x) :
    |x - f.round x| ≤ |x| - 2 ^ Int.log 2 |x| := by
  have hlog := pow_log_le (ne_zero_of_minExp_lt h)
  have hpow := pow_mul_eq h
  generalize (2 : ℚ) ^ Int.log 2 |x| = k at hlog hpow ⊢
  rcases lt_or_gt_of_ne (ne_zero_of_minExp_lt h) with hneg | hpos
  · have hle := abs_sub_round_le_mul (f := f) x (-2 ^ (f.precision - 1))
    push_cast at hle
    rw [neg_mul, hpow, sub_neg_eq_add] at hle
    rw [abs_of_neg hneg] at hlog ⊢
    have hsub : |x + k| = -x - k := by
      rw [abs_of_nonpos (by linarith)]
      ring
    rwa [hsub] at hle
  · have hle := abs_sub_round_le_mul (f := f) x (2 ^ (f.precision - 1))
    push_cast at hle
    rw [hpow] at hle
    rw [abs_of_pos hpos] at hlog ⊢
    have hsub : |x - k| = x - k := abs_of_nonneg (by linarith)
    rwa [hsub] at hle

/-- **Nothing in the format is nearer** than the rounded number. -/
theorem abs_sub_round_le_of_mem (x : ℚ) {y : ℚ} (hy : f.Mem y) : |x - f.round x| ≤ |x - y| := by
  obtain ⟨m, e, hm, he, rfl⟩ := hy
  by_cases hle : f.exponent x ≤ e
  · -- a multiple of the last bit
    have hmul : (m : ℚ) * 2 ^ e =
        ((m * 2 ^ (e - f.exponent x).toNat : ℤ) : ℚ) * 2 ^ f.exponent x := by
      push_cast
      rw [mul_assoc, ← zpow_natCast, Int.toNat_of_nonneg (by omega), ← zpow_add₀ (by norm_num)]
      congr 2
      omega
    rw [hmul]
    exact abs_sub_round_le_mul x _
  · -- of a smaller power of two: not above the one at or below `x`
    have hmin : f.minExp < f.exponent x := by omega
    have hexp := exponent_eq hmin
    have hm' : |(m : ℚ)| ≤ 2 ^ f.precision := by exact_mod_cast hm
    have hy : |(m : ℚ) * 2 ^ e| ≤ 2 ^ Int.log 2 |x| :=
      calc |(m : ℚ) * 2 ^ e| = |(m : ℚ)| * 2 ^ e := by rw [abs_mul, abs_of_pos (two_zpow_pos e)]
        _ ≤ 2 ^ f.precision * 2 ^ e := mul_le_mul_of_nonneg_right hm' (two_zpow_pos e).le
        _ = 2 ^ (f.precision + e) := by rw [zpow_add₀ (by norm_num), zpow_natCast]
        _ ≤ 2 ^ Int.log 2 |x| := zpow_le_zpow_right₀ (by norm_num) (by omega)
    have hnear := abs_sub_round_le_pow hmin
    have htriangle := abs_sub_abs_le_abs_sub x ((m : ℚ) * 2 ^ e)
    linarith

/-- Of two numbers, that above the middle has the upper one nearer. -/
theorem add_le_of_abs_sub_le {x a b : ℚ} (hab : a < b) (h : |x - b| ≤ |x - a|) : a + b ≤ 2 * x := by
  by_contra hlt
  rw [not_le] at hlt
  have habs : |x - a| < b - x := abs_lt.mpr ⟨by linarith, by linarith⟩
  have hneg := neg_le_abs (x - b)
  linarith

theorem le_add_of_abs_sub_le {x a b : ℚ} (hab : a < b) (h : |x - a| ≤ |x - b|) : 2 * x ≤ a + b := by
  by_contra hlt
  rw [not_le] at hlt
  have habs : |x - b| < x - a := abs_lt.mpr ⟨by linarith, by linarith⟩
  have hpos := le_abs_self (x - a)
  linarith

/-- **Rounding is monotone.** -/
theorem round_mono {x x' : ℚ} (h : x ≤ x') : f.round x ≤ f.round x' := by
  rcases h.eq_or_lt with rfl | hlt
  · exact le_refl _
  · by_contra hgt
    rw [not_le] at hgt
    -- both numbers would lie beyond the middle of the two rounded ones
    have h₁ := add_le_of_abs_sub_le hgt (abs_sub_round_le_of_mem x (round_mem x'))
    have h₂ := le_add_of_abs_sub_le hgt (abs_sub_round_le_of_mem x' (round_mem x))
    linarith

/-- What is in the format is not changed. -/
theorem round_of_mem {y : ℚ} (hy : f.Mem y) : f.round y = y := by
  have h := abs_sub_round_le_of_mem y hy
  rw [sub_self, abs_zero, abs_nonpos_iff, sub_eq_zero] at h
  exact h.symm

/-- Between a number of the format and what lies below it, the middle decides. -/
theorem lt_round_iff {a b x : ℚ} (hb : f.Mem b) (hab : a < b) (hmid : f.round ((a + b) / 2) ≤ a) :
    a < f.round x ↔ (a + b) / 2 < x := by
  constructor
  · intro h
    by_contra hle
    exact absurd (round_mono (not_lt.mp hle)) (not_le.mpr (hmid.trans_lt h))
  · intro h
    rcases le_or_gt b x with hbx | hxb
    · have := round_mono (f := f) hbx
      rw [round_of_mem hb] at this
      exact hab.trans_le this
    · have hnear := abs_sub_round_le_of_mem x hb
      rw [abs_of_neg (by linarith : x - b < 0)] at hnear
      have := le_abs_self (x - f.round x)
      linarith

/-- The exponent of a positive number. -/
theorem exponent_of_pow_le {x : ℚ} {l : ℤ} (hlo : 2 ^ l ≤ x) (hhi : x < 2 ^ (l + 1)) :
    f.exponent x = max (l + 1 - f.precision) f.minExp := by
  have hx : 0 < x := (two_zpow_pos l).trans_le hlo
  have hlog : Int.log 2 x = l := by
    apply le_antisymm
    · have hlt : Int.log 2 x < l + 1 :=
        (Int.lt_zpow_iff_log_lt (by decide) hx).mp (by exact_mod_cast hhi)
      exact Int.lt_add_one_iff.mp hlt
    · exact (Int.zpow_le_iff_le_log (by decide) hx).mp (by exact_mod_cast hlo)
  rw [exponent_of_ne hx.ne', abs_of_pos hx, hlog]

/-- A number between two multiples of the last bit, the lower of them even. -/
theorem round_tie {x : ℚ} {k : ℤ} (hx : x = (2 * k + 1 / 2) * 2 ^ f.exponent x) :
    f.round x = 2 * k * 2 ^ f.exponent x := by
  have hdiv : x / 2 ^ f.exponent x = 2 * k + 1 / 2 := by
    rw [div_eq_iff (two_zpow_pos _).ne']
    exact hx
  rw [round, significand, hdiv, roundHalfEven_tie]
  push_cast
  rfl

/-- The error of numbers up to 1. -/
theorem abs_sub_round_le_of_abs_le {x : ℚ} (hx : |x| ≤ 1) (hmin : f.minExp ≤ 1 - f.precision) :
    |x - f.round x| ≤ 2 ^ (1 - f.precision : ℤ) / 2 := by
  refine (abs_sub_round_le x).trans (div_le_div_of_nonneg_right ?_ (by norm_num))
  refine zpow_le_zpow_right₀ (by norm_num) ?_
  rcases (minExp_le_exponent (f := f) x).eq_or_lt with h | h
  · omega
  · have hlog : Int.log 2 |x| ≤ Int.log 2 (1 : ℚ) :=
      Int.log_mono_right (abs_pos.mpr (ne_zero_of_minExp_lt h)) hx
    rw [Int.log_one_right] at hlog
    have := exponent_eq h
    omega

theorem mem_two_zpow {e : ℤ} (he : f.minExp ≤ e) : f.Mem (2 ^ e) :=
  ⟨1, e, by rw [abs_one]; exact one_le_pow₀ (by norm_num), he, by rw [Int.cast_one, one_mul]⟩

theorem round_one (h : f.minExp ≤ 0) : f.round 1 = 1 := by
  have hmem := f.mem_two_zpow h
  rw [zpow_zero] at hmem
  exact round_of_mem hmem

theorem round_zero : f.round 0 = 0 := by
  have h := abs_sub_round_le_mul (f := f) 0 0
  rw [Int.cast_zero, zero_mul, sub_zero, abs_zero, zero_sub, abs_neg, abs_nonpos_iff] at h
  exact h

theorem exponent_neg (x : ℚ) : f.exponent (-x) = f.exponent x := by
  simp only [exponent, abs_neg, neg_eq_zero]

theorem significand_neg (x : ℚ) : f.significand (-x) = -f.significand x := by
  rw [significand, exponent_neg, neg_div, roundHalfEven_neg, significand]

theorem round_neg (x : ℚ) : f.round (-x) = -f.round x := by
  rw [round, significand_neg, exponent_neg, Int.cast_neg, neg_mul, round]

theorem significand_nonneg {x : ℚ} (hx : 0 ≤ x) : 0 ≤ f.significand x :=
  roundHalfEven_nonneg (div_nonneg hx (two_zpow_pos _).le)

/-- Size and sign are rounded apart. -/
theorem round_eq (x : ℚ) : f.round x =
    (if x < 0 then -1 else 1) * (f.significand |x| * 2 ^ f.exponent x) := by
  rw [round]
  split_ifs with h
  · rw [abs_of_neg h, significand_neg]
    push_cast
    ring
  · rw [abs_of_nonneg (not_lt.mp h), one_mul]

end Format
end KartStack.BinaryFloats
