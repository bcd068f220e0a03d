import KartStack.PolynomialCodes
import KartStack.WireFormat
import Mathlib.Data.Nat.Bitwise
import Mathlib.RingTheory.AdjoinRoot
import Mathlib.Tactic.ComputeDegree

/-! # What the CRC detects

A round of the CRC register multiplies by `X` modulo `X^8 + X^2 + X + 1`, whose last
three terms are the constant 0x07.  So the CRC of a sequence of bytes is the remainder
of that sequence followed by eight zeros, and a frame is accepted exactly if LEN,
TYPE, PAYLOAD and CRC together are a multiple of this generator.  It has the root 1 and a
constant term, so an odd number of wrong bits and a burst of up to eight of them are
detected.
-/
namespace KartStack
open Polynomial PolynomialCodes

/-- The bits of a byte, most significant first. -/
def byteBits (b : UInt8) : List Bool := (List.range 8).map fun i => b.toNat.testBit (7 - i)

/-- The bits of a sequence of bytes. -/
def bitsOf (bytes : List UInt8) : List Bool := bytes.flatMap byteBits

/-- Which bits of what was sent are received differently. -/
def bitErrors (sent received : List UInt8) : List Bool :=
  List.zipWith xor (bitsOf sent) (bitsOf received)

/-- The generator, 0x07 being its low terms. -/
noncomputable def generator : (ZMod 2)[X] := X ^ 8 + X ^ 2 + X + 1

theorem generator_natDegree : generator.natDegree = 8 := by
  unfold generator
  compute_degree!

theorem generator_eval_one : generator.eval 1 = 0 := by
  simp only [generator, eval_add, eval_pow, eval_X, eval_one]
  decide

theorem generator_coprime : IsCoprime generator X :=
  ⟨1, -(X ^ 7 + X + 1), by rw [generator]; ring⟩

@[simp] theorem byteBits_length (b : UInt8) : (byteBits b).length = 8 := by simp [byteBits]

theorem bitsOf_cons (b : UInt8) (bytes : List UInt8) :
    bitsOf (b :: bytes) = byteBits b ++ bitsOf bytes := List.flatMap_cons

theorem bitsOf_append (xs ys : List UInt8) : bitsOf (xs ++ ys) = bitsOf xs ++ bitsOf ys :=
  List.flatMap_append

theorem bitsOf_length (bytes : List UInt8) : (bitsOf bytes).length = 8 * bytes.length := by
  induction bytes with
  | nil => rfl
  | cons b bytes ih =>
    rw [bitsOf_cons, List.length_append, ih, byteBits_length, List.length_cons]
    omega

/-- The polynomial of the register. -/
noncomputable def polyOf (crc : UInt8) : (ZMod 2)[X] := ofBits (byteBits crc)

theorem polyOf_xor (a b : UInt8) : polyOf (a ^^^ b) = polyOf a + polyOf b := by
  have hbits : byteBits (a ^^^ b) = List.zipWith xor (byteBits a) (byteBits b) := by
    simp [byteBits, UInt8.toNat_xor, List.range_succ]
  rw [polyOf, hbits, ofBits_xor (by simp)]
  rfl

/-! ## The register -/

/-- The class of a polynomial modulo the generator. -/
noncomputable abbrev residue : (ZMod 2)[X] →+* AdjoinRoot generator := AdjoinRoot.mk generator

/-- The register moved up by one place: the highest bit is lost. -/
theorem byteBits_shift (crc : UInt8) : byteBits (crc <<< 1) = (byteBits crc).tail ++ [false] := by
  have hbit (i : Nat) : (crc.toNat <<< 1 % 2 ^ 8).testBit (i + 1) =
      (decide (i + 1 < 8) && crc.toNat.testBit i) := by
    rw [Nat.testBit_mod_two_pow, Nat.testBit_shiftLeft]
    simp
  have hlow : (crc.toNat <<< 1 % 2 ^ 8).testBit 0 = false := by
    rw [Nat.testBit_mod_two_pow, Nat.testBit_shiftLeft]
    simp
  have hshift : (crc <<< 1).toNat = crc.toNat <<< 1 % 2 ^ 8 := UInt8.toNat_shiftLeft ..
  simp only [byteBits, hshift, List.range_succ, List.range_zero, List.nil_append,
    List.cons_append, List.map_cons, List.map_nil, List.tail_cons]
  simp only [Nat.reduceSub, hbit, hlow]
  simp

/-- The test of the highest bit. -/
theorem highest_ne_zero (crc : UInt8) : crc &&& 0x80 ≠ 0 ↔ crc.toNat.testBit 7 = true := by
  have hand : (crc &&& 0x80).toNat = (crc.toNat.testBit 7).toNat * 2 ^ 7 := by
    rw [UInt8.toNat_and]
    exact Nat.and_two_pow crc.toNat 7
  rw [ne_eq, ← UInt8.toNat_inj, hand]
  cases crc.toNat.testBit 7 <;> simp

/-- Moving up multiplies by `X`, but for the highest bit. -/
theorem polyOf_shift (crc : UInt8) :
    X * polyOf crc = (if crc.toNat.testBit 7 then X ^ 8 else 0) + polyOf (crc <<< 1) := by
  have hcons : byteBits crc = crc.toNat.testBit 7 :: (byteBits crc).tail := by
    simp [byteBits, List.range_succ]
  have hlen : (byteBits crc).tail.length = 7 := by simp
  rw [polyOf, polyOf, byteBits_shift, ofBits_append, hcons, ofBits_cons, List.tail_cons, hlen]
  simp only [ofBits_cons, ofBits_nil, List.length_singleton]
  split <;> simp <;> ring

/-- **One round multiplies by `X`** modulo the generator. -/
theorem residue_crcShift (crc : UInt8) :
    residue (polyOf (crcShift crc)) = residue (X * polyOf crc) := by
  have hconst : polyOf 0x07 = X ^ 2 + X + 1 := by
    have hbits : byteBits 0x07 = [false, false, false, false, false, true, true, true] := by
      decide
    simp [polyOf, hbits, ofBits_cons, add_assoc]
  rw [polyOf_shift, crcShift]
  by_cases hhigh : crc.toNat.testBit 7 = true
  · rw [if_pos ((highest_ne_zero crc).mpr hhigh), if_pos hhigh, polyOf_xor, hconst]
    have hgen : residue (X ^ 8) = residue (X ^ 2 + X + 1) := by
      rw [AdjoinRoot.mk_eq_mk, generator]
      have htwo := add_self (X ^ 2 + X + 1)
      exact ⟨1, by linear_combination -htwo⟩
    rw [map_add residue (X ^ 8), hgen, ← map_add, add_comm]
  · rw [if_neg fun h => hhigh ((highest_ne_zero crc).mp h), if_neg hhigh, zero_add]

theorem residue_crcRounds (rounds : Nat) (crc : UInt8) :
    residue (polyOf (crcRounds rounds crc)) = residue (X ^ rounds * polyOf crc) := by
  induction rounds generalizing crc with
  | zero => rw [crcRounds, pow_zero, one_mul]
  | succ rounds ih =>
    rw [crcRounds, ih, map_mul, residue_crcShift, ← map_mul, pow_succ, mul_assoc]

/-- One byte: the bytes before it move up by eight places. -/
theorem residue_update (crc b : UInt8) :
    residue (polyOf (SerialDriver.update crc b)) = residue (X ^ 8 * (polyOf crc + polyOf b)) := by
  rw [SerialDriver.update, residue_crcRounds, polyOf_xor]

/-- All the bytes: the CRC is the remainder of the bytes, followed by eight zeros. -/
theorem residue_foldl_update (crc : UInt8) (bytes : List UInt8) :
    residue (polyOf (bytes.foldl SerialDriver.update crc)) =
      residue (X ^ (8 * bytes.length) * polyOf crc + X ^ 8 * ofBits (bitsOf bytes)) := by
  induction bytes generalizing crc with
  | nil => simp [bitsOf]
  | cons b bytes ih =>
    have hpoly : X ^ (8 * bytes.length) * (X ^ 8 * (polyOf crc + polyOf b)) +
        X ^ 8 * ofBits (bitsOf bytes) =
        X ^ (8 * (b :: bytes).length) * polyOf crc + X ^ 8 * ofBits (bitsOf (b :: bytes)) := by
      have hb : polyOf b = ofBits (byteBits b) := rfl
      rw [bitsOf_cons, ofBits_append, bitsOf_length, List.length_cons, hb]
      ring
    rw [List.foldl_cons, ih, map_add, map_mul, residue_update, ← map_mul, ← map_add, hpoly]

/-- A byte that is not zero is a burst of eight bits. -/
theorem burst_byteBits {b : UInt8} (h : b ≠ 0) : Burst 8 (byteBits b) := by
  refine ⟨?_, 0, fun k hk => ?_⟩
  · by_contra hnone
    refine h (UInt8.toNat_inj.mp (Nat.eq_of_testBit_eq fun i => ?_))
    rw [UInt8.toNat_zero, Nat.zero_testBit]
    by_cases hi : i < 8
    · have hbit : (b.toNat.testBit i) ∈ byteBits b :=
        List.mem_map.mpr ⟨7 - i, List.mem_range.mpr (by omega), by
          rw [Nat.sub_sub_self (by omega)]⟩
      cases hval : b.toNat.testBit i with
      | false => rfl
      | true => exact absurd (hval ▸ hbit) hnone
    · refine Nat.testBit_lt_two_pow (Nat.lt_of_lt_of_le b.toNat_lt ?_)
      exact Nat.pow_le_pow_right (by decide) (by omega)
  · obtain ⟨hlt, -⟩ := List.getElem?_eq_some_iff.mp hk
    rw [byteBits_length] at hlt
    omega

/-- **A CRC byte is right exactly if** it makes LEN, TYPE, PAYLOAD and CRC a multiple of
the generator. -/
theorem crc8_eq_iff {len type crc : UInt8} {payload : List UInt8}
    (hlen : payload.length = len.toNat) :
    SerialDriver.crc8 len type payload len = crc ↔
      generator ∣ ofBits (bitsOf (len :: (type :: payload ++ [crc]))) := by
  have hcrc := residue_foldl_update 0 (len :: type :: payload)
  have hzero : polyOf 0 = 0 := ofBits_eq_zero (by decide)
  have hfold : SerialDriver.crc8 len type payload len =
      (len :: type :: payload).foldl SerialDriver.update 0 := by
    rw [SerialDriver.crc8, ← hlen, List.take_length, List.foldl_cons, List.foldl_cons]
  rw [hzero, mul_zero, zero_add, ← hfold] at hcrc
  have hcons : len :: (type :: payload ++ [crc]) = (len :: type :: payload) ++ [crc] := rfl
  have hlast : bitsOf [crc] = byteBits crc := by simp [bitsOf]
  have hpoly : ofBits (byteBits crc) = polyOf crc := rfl
  have hsplit : residue (ofBits (bitsOf (len :: (type :: payload ++ [crc])))) =
      residue (polyOf (SerialDriver.crc8 len type payload len ^^^ crc)) := by
    rw [hcons, bitsOf_append, hlast, ofBits_append, byteBits_length, mul_comm, map_add, ← hcrc,
      hpoly, ← map_add, polyOf_xor]
  rw [← AdjoinRoot.mk_eq_zero, hsplit, AdjoinRoot.mk_eq_zero]
  constructor
  · rintro rfl
    rw [UInt8.xor_self, hzero]
    exact dvd_zero _
  · intro hdvd
    by_contra hne
    have hburst := burst_byteBits fun hxor => hne (UInt8.xor_eq_zero_iff.mp hxor)
    rw [← generator_natDegree] at hburst
    exact not_dvd_of_burst generator_coprime hburst hdvd

/-! ## The receiver -/

/-- The bits that differ between two accepted frames of one length are a multiple of the
generator. -/
theorem generator_dvd_bitErrors {len type type' : UInt8} {payload payload' : List UInt8}
    (hlen : payload.length = len.toNat) (hlen' : payload'.length = len.toNat) :
    generator ∣ ofBits (bitErrors (type :: payload ++ [SerialDriver.crc8 len type payload len])
      (type' :: payload' ++ [SerialDriver.crc8 len type' payload' len])) := by
  have hsum := dvd_add ((crc8_eq_iff hlen).mp (rfl : _ = SerialDriver.crc8 len type payload len))
    ((crc8_eq_iff hlen').mp (rfl : _ = SerialDriver.crc8 len type' payload' len))
  have hlength : (bitsOf (type :: payload ++ [SerialDriver.crc8 len type payload len])).length =
      (bitsOf (type' :: payload' ++ [SerialDriver.crc8 len type' payload' len])).length := by
    simp [bitsOf_length, hlen, hlen']
  rw [bitErrors, ofBits_xor hlength]
  rw [bitsOf_cons, bitsOf_cons, ofBits_append, ofBits_append, hlength] at hsum
  have htwo := add_self (ofBits (byteBits len) *
    X ^ (bitsOf (type' :: payload' ++ [SerialDriver.crc8 len type' payload' len])).length)
  convert hsum using 1
  linear_combination -htwo

/-- **Both routines compute one function, and it detects** an odd number of wrong bits
and a burst of at most eight of them in TYPE, PAYLOAD and CRC. -/
theorem crc8_detects :
    (∀ len type data, KmComs.crc8 len type data = SerialDriver.crc8 len type data len) ∧
    ∀ (len type type' crc' : UInt8) (payload payload' : List UInt8),
      payload.length = len.toNat → payload'.length = len.toNat →
      (Odd ((bitErrors (type :: payload ++ [KmComs.crc8 len type payload])
          (type' :: payload' ++ [crc'])).count true) ∨
        Burst 8 (bitErrors (type :: payload ++ [KmComs.crc8 len type payload])
          (type' :: payload' ++ [crc']))) →
      KmComs.crc8 len type' payload' ≠ crc' ∧ SerialDriver.crc8 len type' payload' len ≠ crc' := by
  refine ⟨crc8_agree, fun len type type' crc' payload payload' hlen hlen' herrors => ?_⟩
  suffices hne : SerialDriver.crc8 len type' payload' len ≠ crc' by
    exact ⟨(crc8_agree len type' payload').symm ▸ hne, hne⟩
  intro haccepted
  subst haccepted
  rw [crc8_agree] at herrors
  have hdvd := @generator_dvd_bitErrors len type type' payload payload' hlen hlen'
  rcases herrors with hodd | hburst
  · exact not_dvd_of_odd generator_eval_one hodd hdvd
  · rw [← generator_natDegree] at hburst
    exact not_dvd_of_burst generator_coprime hburst hdvd

/-- One wrong bit in a payload of one byte. -/
theorem crc8_detects_oneBit : KmComs.crc8 1 2 [5] ≠ KmComs.crc8 1 2 [4] :=
  (crc8_detects.2 1 2 2 (KmComs.crc8 1 2 [4]) [4] [5] (by decide) (by decide)
    (Or.inl (by decide +kernel))).1

end KartStack
