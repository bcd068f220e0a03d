import KartStack.ObjectTable
import Mathlib.Algebra.Order.Field.Rat
import Mathlib.Algebra.Order.Floor.Defs
import Mathlib.Data.Rat.Floor
import Mathlib.Tactic.Linarith

/-! # Arithmetic on floats

Sum, product and quotient of floats as IEEE 754 gives them, with exact rationals
for the finite values: opposite infinities do not add, zero times an infinity is
NaN, and NaN spreads.

`limit` is the pair of comparisons with which the ESP32's libraries keep a value
between two bounds.  It does so for every value except NaN, which passes both
comparisons unchanged (`limit_nan`, `limit_eq_fin`).
-/
namespace KartStack.CFloat

/-- `-a`. -/
def neg : CFloat → CFloat
  | .fin a => .fin (-a)
  | .inf negative => .inf (!negative)
  | .nan => .nan

/-- `fabsf(a)`. -/
def fabsf : CFloat → CFloat
  | .fin a => .fin |a|
  | .inf _ => .inf false
  | .nan => .nan

/-- `a + b`. -/
def add : CFloat → CFloat → CFloat
  | .fin a, .fin b => .fin (a + b)
  | .fin _, .inf negative => .inf negative
  | .inf negative, .fin _ => .inf negative
  | .inf negative, .inf negative' => if negative = negative' then .inf negative else .nan
  | _, _ => .nan

/-- An infinity times `a`. -/
def infMul (negative : Bool) (a : ℚ) : CFloat :=
  if a = 0 then .nan else .inf (negative ^^ decide (a < 0))

/-- `a * b`. -/
def mul : CFloat → CFloat → CFloat
  | .fin a, .fin b => .fin (a * b)
  | .fin a, .inf negative => infMul negative a
  | .inf negative, .fin a => infMul negative a
  | .inf negative, .inf negative' => .inf (negative ^^ negative')
  | _, _ => .nan

/-- `a / b`. -/
def div : CFloat → CFloat → CFloat
  | .fin a, .fin b =>
    if b = 0 then (if a = 0 then .nan else .inf (decide (a < 0))) else .fin (a / b)
  | .fin _, .inf _ => .fin 0
  | .inf negative, .fin b => .inf (negative ^^ decide (b < 0))
  | _, _ => .nan

instance : Neg CFloat := ⟨neg⟩
instance : Add CFloat := ⟨add⟩
instance : Sub CFloat := ⟨fun a b => add a (neg b)⟩
instance : Mul CFloat := ⟨mul⟩
instance : Div CFloat := ⟨div⟩

/-- `a <= b`. -/
instance : LE CFloat := ⟨fun a b => a < b ∨ (a = b ∧ a ≠ .nan)⟩

instance (a b : CFloat) : Decidable (a ≤ b) := inferInstanceAs (Decidable (_ ∨ _))

/-- A conversion to an unsigned integer of `w` bits: the fraction is dropped, and
where the rest does not fit, C leaves the conversion undefined. -/
def toUnsigned (w : Nat) : CFloat → Option Nat
  | .fin a => if -1 < a ∧ a < 2 ^ w then some ⌊a⌋.toNat else none
  | _ => none

theorem toUnsigned_fin (w : Nat) (a : ℚ) :
    toUnsigned w (.fin a) = if -1 < a ∧ a < 2 ^ w then some ⌊a⌋.toNat else none := rfl

/-- `if (v < min) v = min; if (v > max) v = max;`. -/
def limit (v min max : CFloat) : CFloat :=
  let v := if v < min then min else v
  if max < v then max else v

@[simp] theorem fin_lt_fin {a b : ℚ} : CFloat.fin a < .fin b ↔ a < b := by
  show lt (.fin a) (.fin b) = true ↔ _
  simp [lt]

@[simp] theorem fin_lt_inf {a : ℚ} {negative : Bool} :
    CFloat.fin a < .inf negative ↔ negative = false := by
  show lt (.fin a) (.inf negative) = true ↔ _
  simp [lt]

@[simp] theorem inf_lt_fin {a : ℚ} {negative : Bool} :
    CFloat.inf negative < .fin a ↔ negative = true := Iff.rfl

@[simp] theorem not_nan_lt (a : CFloat) : ¬ CFloat.nan < a := by
  cases a <;> exact Bool.false_ne_true

@[simp] theorem not_lt_nan (a : CFloat) : ¬ a < CFloat.nan := by
  cases a <;> exact Bool.false_ne_true

@[simp] theorem fin_le_fin {a b : ℚ} : CFloat.fin a ≤ .fin b ↔ a ≤ b := by
  show CFloat.fin a < .fin b ∨ (CFloat.fin a = .fin b ∧ _) ↔ _
  rw [fin_lt_fin, le_iff_lt_or_eq]
  simp

@[simp] theorem neg_fin (a : ℚ) : -CFloat.fin a = .fin (-a) := rfl
@[simp] theorem fabsf_fin (a : ℚ) : fabsf (.fin a) = .fin |a| := rfl
@[simp] theorem fabsf_nan : fabsf .nan = .nan := rfl
@[simp] theorem fin_add (a b : ℚ) : CFloat.fin a + .fin b = .fin (a + b) := rfl
@[simp] theorem fin_add_inf (a : ℚ) (n : Bool) : CFloat.fin a + .inf n = .inf n := rfl
@[simp] theorem inf_add_fin (n : Bool) (a : ℚ) : CFloat.inf n + .fin a = .inf n := rfl
@[simp] theorem fin_sub (a b : ℚ) : CFloat.fin a - .fin b = .fin (a - b) :=
  congrArg CFloat.fin (sub_eq_add_neg a b).symm
@[simp] theorem inf_sub_fin (n : Bool) (a : ℚ) : CFloat.inf n - .fin a = .inf n := rfl
@[simp] theorem fin_sub_inf (a : ℚ) (n : Bool) : CFloat.fin a - .inf n = .inf (!n) := rfl
@[simp] theorem nan_sub (a : CFloat) : CFloat.nan - a = .nan := by cases a <;> rfl
@[simp] theorem nan_add (a : CFloat) : CFloat.nan + a = .nan := by cases a <;> rfl
@[simp] theorem add_nan (a : CFloat) : a + CFloat.nan = .nan := by cases a <;> rfl
@[simp] theorem nan_mul (a : CFloat) : CFloat.nan * a = .nan := by cases a <;> rfl
@[simp] theorem mul_nan (a : CFloat) : a * CFloat.nan = .nan := by cases a <;> rfl
@[simp] theorem nan_div (a : CFloat) : CFloat.nan / a = .nan := by cases a <;> rfl
@[simp] theorem fin_mul (a b : ℚ) : CFloat.fin a * .fin b = .fin (a * b) := rfl

theorem inf_add_self (n : Bool) : CFloat.inf n + .inf n = .inf n := if_pos rfl

theorem inf_sub_self (n : Bool) : CFloat.inf n - .inf n = .nan := by
  cases n <;> rfl

theorem inf_sub_of_ne {n m : Bool} (h : n ≠ m) : CFloat.inf n - .inf m = .inf n := by
  cases n <;> cases m <;> first | rfl | exact absurd rfl h

theorem fin_div {a b : ℚ} (hb : 0 < b) : CFloat.fin a / .fin b = .fin (a / b) :=
  if_neg hb.ne'

/-- A positive factor does not change an infinity. -/
theorem fin_mul_inf {a : ℚ} (ha : 0 < a) (n : Bool) : CFloat.fin a * .inf n = .inf n := by
  show infMul n a = _
  rw [infMul, if_neg ha.ne', decide_eq_false ha.not_gt, Bool.xor_false]

theorem inf_mul_fin {a : ℚ} (ha : 0 < a) (n : Bool) : CFloat.inf n * .fin a = .inf n :=
  fin_mul_inf ha n

theorem inf_div_fin {a : ℚ} (ha : 0 < a) (n : Bool) : CFloat.inf n / .fin a = .inf n := by
  show CFloat.inf (n ^^ decide (a < 0)) = _
  rw [decide_eq_false ha.not_gt, Bool.xor_false]

/-- What a difference with a number is depends on the other side only. -/
theorem sub_fin_eq_nan_iff {a : CFloat} {b : ℚ} : a - .fin b = .nan ↔ a = .nan := by
  cases a <;> simp

theorem sub_fin_eq_inf_iff {a : CFloat} {b : ℚ} {n : Bool} :
    a - .fin b = .inf n ↔ a = .inf n := by
  cases a <;> simp

/-- What is above something is a number. -/
theorem ne_nan_of_gt {a b : CFloat} (h : a < b) : b ≠ .nan := by
  rintro rfl
  exact not_lt_nan a h

/-! ## Limits -/

/-- NaN passes both comparisons. -/
@[simp] theorem limit_nan (min max : CFloat) : limit .nan min max = .nan := by
  simp [limit]

theorem limit_fin {a lo hi : ℚ} (h : lo ≤ hi) :
    limit (.fin a) (.fin lo) (.fin hi) = .fin (max lo (min hi a)) := by
  unfold limit
  by_cases hlo : a < lo
  · have hmax : max lo (min hi a) = lo := max_eq_left (min_le_right hi a |>.trans hlo.le)
    simp [hlo, not_lt.mpr h, hmax]
  · by_cases hhi : hi < a
    · have hmax : max lo (min hi a) = hi := by rw [min_eq_left hhi.le, max_eq_right h]
      simp [hlo, hhi, hmax]
    · have hmax : max lo (min hi a) = a := by
        rw [min_eq_right (not_lt.mp hhi), max_eq_right (not_lt.mp hlo)]
      simp [hlo, hhi, hmax]

theorem limit_inf {lo hi : ℚ} (h : lo ≤ hi) (n : Bool) :
    limit (.inf n) (.fin lo) (.fin hi) = .fin (if n then lo else hi) := by
  cases n with
  | false => simp [limit]
  | true => simp [limit, not_lt.mpr h]

/-- **Whatever is a number comes out between the bounds.** -/
theorem limit_eq_fin {v : CFloat} (hv : v ≠ .nan) {lo hi : ℚ} (h : lo ≤ hi) :
    ∃ a, limit v (.fin lo) (.fin hi) = .fin a ∧ lo ≤ a ∧ a ≤ hi := by
  cases v with
  | fin a => exact ⟨_, limit_fin h, le_max_left .., max_le h (min_le_left ..)⟩
  | inf n =>
    refine ⟨_, limit_inf h n, ?_⟩
    cases n with
    | false => exact ⟨h, le_refl _⟩
    | true => exact ⟨le_refl _, h⟩
  | nan => exact absurd rfl hv

end KartStack.CFloat
