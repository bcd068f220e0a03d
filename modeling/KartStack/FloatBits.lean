import KartStack.BinaryFloats
import KartStack.DashboardTelemetry

/-! # Numbers as 32 bits

A Python float is a `double`; as a protobuf `float` it is rounded once more.  The bits
of the rounded number are those that are read as it (`ofBits_toBits`).
-/
namespace KartStack
open BinaryFloats KbDashboard

/-- The bits of `|x|` as a `float`; what is too large is an infinity. -/
def magnitudeBits (x : ℚ) : Nat :=
  min (255 * 2 ^ 23) ((single.exponent x + 149).toNat * 2 ^ 23 + (single.significand |x|).toNat)

/-- A number as a `float`. -/
def toBits (x : ℚ) : UInt32 := UInt32.ofNat (magnitudeBits x + if x < 0 then 2 ^ 31 else 0)

/-- The number that some bits without a sign are read as. -/
def readMagnitude (n : Nat) : ℚ :=
  if n / 2 ^ 23 = 0 then ((n % 2 ^ 23 : Nat) : ℚ) / 2 ^ 149
  else (2 ^ 23 + ((n % 2 ^ 23 : Nat) : ℚ)) * 2 ^ (n / 2 ^ 23) / 2 ^ 150

theorem and_pow_ne_zero_iff (n i : Nat) : n &&& 2 ^ i ≠ 0 ↔ n.testBit i = true := by
  constructor
  · intro h
    by_contra hbit
    apply h
    apply Nat.eq_of_testBit_eq
    intro j
    rw [Nat.testBit_and, Nat.testBit_two_pow, Nat.zero_testBit]
    by_cases hij : i = j
    · rw [← hij, Bool.eq_false_of_not_eq_true hbit, Bool.false_and]
    · rw [decide_eq_false hij, Bool.and_false]
  · intro h h0
    have hbit := congrArg (fun k => k.testBit i) h0
    simp [h] at hbit

theorem ofBits_ofNat {n : Nat} (hn : n < 255 * 2 ^ 23) (negative : Bool) :
    ofBits (UInt32.ofNat (n + if negative then 2 ^ 31 else 0)) =
      .fin (if negative then -readMagnitude n else readMagnitude n) := by
  have hsize : n + (if negative then 2 ^ 31 else 0) < 2 ^ 32 := by
    split <;> omega
  have hbits : (UInt32.ofNat (n + if negative then 2 ^ 31 else 0)).toNat =
      n + if negative then 2 ^ 31 else 0 := by
    rw [UInt32.toNat_ofNat', Nat.mod_eq_of_lt hsize]
  have hsign : decide (UInt32.ofNat (n + if negative then 2 ^ 31 else 0) &&& 0x80000000 ≠ 0) =
      negative := by
    have htest : (n + if negative then 2 ^ 31 else 0).testBit 31 = negative := by
      rw [Nat.testBit_eq_decide_div_mod_eq]
      cases negative <;> simp <;> omega
    have hiff : UInt32.ofNat (n + if negative then 2 ^ 31 else 0) &&& 0x80000000 ≠ 0 ↔
        negative = true := by
      rw [ne_eq, ← UInt32.toNat_inj, UInt32.toNat_and, hbits]
      exact (and_pow_ne_zero_iff _ 31).trans (by rw [htest])
    exact (decide_eq_decide.mpr hiff).trans (Bool.decide_coe negative)
  have hexp : (n + if negative then 2 ^ 31 else 0) / 2 ^ 23 % 2 ^ 8 = n / 2 ^ 23 := by
    split <;> omega
  have hfrac : (n + if negative then 2 ^ 31 else 0) % 2 ^ 23 = n % 2 ^ 23 := by
    split <;> omega
  have hlt : n / 2 ^ 23 ≠ 255 := by omega
  simp only [ofBits, hbits, hsign, hexp, hfrac]
  rw [if_neg hlt, readMagnitude]

/-- A significand and an exponent, as they are read. -/
theorem readMagnitude_eq {e m : Nat} (hm : m ≤ 2 ^ 24) (hnormal : e = 0 ∨ 2 ^ 23 ≤ m) :
    readMagnitude (e * 2 ^ 23 + m) = (m : ℚ) * 2 ^ ((e : ℤ) - 149) := by
  have hscale : (m : ℚ) * 2 ^ ((e : ℤ) - 149) = m * 2 ^ e / 2 ^ 149 := by
    rw [zpow_sub₀ (by norm_num), zpow_natCast, mul_div_assoc]
    rfl
  rw [hscale]
  have hcases : m < 2 ^ 23 ∨ 2 ^ 23 ≤ m ∧ m < 2 ^ 24 ∨ m = 2 ^ 24 := by omega
  rcases hcases with hsub | ⟨hlo, hhi⟩ | rfl
  · -- below the normal numbers
    obtain rfl : e = 0 := by omega
    have hexp : (0 * 2 ^ 23 + m) / 2 ^ 23 = 0 := by omega
    have hfrac : (0 * 2 ^ 23 + m) % 2 ^ 23 = m := by omega
    rw [readMagnitude, if_pos hexp, hfrac, pow_zero, mul_one]
  · have hexp : (e * 2 ^ 23 + m) / 2 ^ 23 = e + 1 := by omega
    have hfrac : (e * 2 ^ 23 + m) % 2 ^ 23 = m - 2 ^ 23 := by omega
    rw [readMagnitude, hexp, if_neg (by omega), hfrac, Nat.cast_sub hlo, pow_succ]
    push_cast
    ring
  · -- the significand of the next power of two
    have hexp : (e * 2 ^ 23 + 2 ^ 24) / 2 ^ 23 = e + 2 := by omega
    have hfrac : (e * 2 ^ 23 + 2 ^ 24) % 2 ^ 23 = 0 := by omega
    rw [readMagnitude, hexp, if_neg (by omega), hfrac, pow_succ, pow_succ]
    push_cast
    ring

theorem exponent_abs (x : ℚ) : single.exponent |x| = single.exponent x := by
  rcases abs_choice x with h | h <;> rw [h]
  exact Format.exponent_neg x

theorem abs_round (x : ℚ) :
    |single.round x| = single.significand |x| * 2 ^ single.exponent |x| := by
  have hnonneg : (0 : ℚ) ≤ single.significand |x| * 2 ^ single.exponent x :=
    mul_nonneg (by exact_mod_cast Format.significand_nonneg (abs_nonneg x))
      (Format.two_zpow_pos _).le
  rw [Format.round_eq, exponent_abs, abs_mul, abs_of_nonneg hnonneg]
  split_ifs <;> simp

/-- Bits that stand for infinity would be those of a number too large. -/
theorem pow_le_of_overflow {e m : Nat} (hm : m ≤ 2 ^ 24) (hnormal : e = 0 ∨ 2 ^ 23 ≤ m)
    (h : 255 * 2 ^ 23 ≤ e * 2 ^ 23 + m) : (2 : ℚ) ^ 128 ≤ m * 2 ^ ((e : ℤ) - 149) := by
  have hle : 2 ^ 277 ≤ m * 2 ^ e := by
    rcases (by omega : e = 253 ∨ 254 ≤ e) with rfl | he
    · rw [show m = 2 ^ 24 by omega, ← pow_add]
    · calc 2 ^ 277 = 2 ^ 23 * 2 ^ 254 := by rw [← pow_add]
        _ ≤ m * 2 ^ e := Nat.mul_le_mul (by omega) (Nat.pow_le_pow_right (by decide) he)
  have hcast : (2 : ℚ) ^ 277 ≤ m * 2 ^ e := by exact_mod_cast hle
  have hpow : (2 : ℚ) ^ 277 = 2 ^ 128 * 2 ^ (149 : ℤ) := by
    rw [← zpow_natCast, ← zpow_natCast, ← zpow_add₀ (by norm_num)]
    rfl
  rwa [zpow_sub₀ (by norm_num), zpow_natCast, ← mul_div_assoc,
    le_div_iff₀ (Format.two_zpow_pos 149), ← hpow]

/-- The significand and the exponent of the bits. -/
theorem exists_magnitude {x : ℚ} (h : |single.round x| < 2 ^ 128) :
    ∃ e m : Nat, magnitudeBits x = e * 2 ^ 23 + m ∧ e * 2 ^ 23 + m < 255 * 2 ^ 23 ∧
      m ≤ 2 ^ 24 ∧ (e = 0 ∨ 2 ^ 23 ≤ m) ∧
      (single.significand |x| : ℚ) * 2 ^ single.exponent x = (m : ℚ) * 2 ^ ((e : ℤ) - 149) := by
  have hexp : (-149 : ℤ) ≤ single.exponent x := Format.minExp_le_exponent x
  have hsig : 0 ≤ single.significand |x| := Format.significand_nonneg (abs_nonneg x)
  have hle : abs (single.significand |x|) ≤ 2 ^ 24 := Format.abs_significand_le |x|
  rw [abs_of_nonneg hsig] at hle
  obtain ⟨m, hm⟩ := Int.eq_ofNat_of_zero_le hsig
  obtain ⟨e, he⟩ := Int.eq_ofNat_of_zero_le (by omega : 0 ≤ single.exponent x + 149)
  have hnormal : e = 0 ∨ 2 ^ 23 ≤ m := by
    rcases Nat.eq_zero_or_pos e with h0 | hpos
    · exact Or.inl h0
    · have hlt : single.minExp < single.exponent |x| := by
        rw [exponent_abs]
        change (-149 : ℤ) < _
        omega
      have hbit : 2 ^ 23 ≤ single.significand |x| := Format.pow_le_significand (abs_nonneg x) hlt
      omega
  have hvalue : (single.significand |x| : ℚ) * 2 ^ single.exponent x =
      (m : ℚ) * 2 ^ ((e : ℤ) - 149) := by
    have hshift : single.exponent x = (e : ℤ) - 149 := by omega
    rw [hm, hshift]
    rfl
  have hfits : e * 2 ^ 23 + m < 255 * 2 ^ 23 := by
    by_contra hover
    have hlarge := pow_le_of_overflow (by omega) hnormal (not_lt.mp hover)
    rw [← hvalue, ← exponent_abs] at hlarge
    rw [abs_round] at h
    exact absurd h (not_lt.mpr hlarge)
  refine ⟨e, m, ?_, hfits, by omega, hnormal, hvalue⟩
  rw [magnitudeBits, he, hm]
  exact Nat.min_eq_right hfits.le

/-- **The bits of a number are read as the number rounded.** -/
theorem ofBits_toBits {x : ℚ} (h : |single.round x| < 2 ^ 128) :
    ofBits (toBits x) = .fin (single.round x) := by
  obtain ⟨e, m, hbits, hfits, hm, hnormal, hvalue⟩ := exists_magnitude h
  have hread := ofBits_ofNat hfits (decide (x < 0))
  rw [toBits, hbits]
  simp only [decide_eq_true_eq] at hread
  rw [hread, readMagnitude_eq hm hnormal, ← hvalue, Format.round_eq]
  split_ifs
  · rw [neg_one_mul]
  · rw [one_mul]

end KartStack
