import KartStack.Base128
import KartStack.StreamReaders

/-! # Varints in nanopb

`pb_encode.c` writes a 64-bit number from its two 32-bit halves, to avoid 64-bit
shifts (`pb_encode_varint_32`); the bytes are those of the plain base 128 writing
(`varint32Bytes_eq`), never more than the ten its buffer holds.

`pb_decode.c` reads varints with two loops.  The 64-bit one accepts exactly the
writings of at most ten bytes whose value fits (`decodeVarint_eq_ok_iff`), short or
padded.  The 32-bit one, for tags and for `bool`, drops the upper half of a sign
extended number: where it accepts, so does the other, and it returns the lower 32
bits (`decodeVarint32_sound`).
-/
namespace KartStack.Nanopb
open StreamReaders Base128

/-- The texts of `PB_RETURN_ERROR`. -/
inductive Error where
  /-- "end-of-stream" -/
  | endOfStream
  /-- "varint overflow" -/
  | varintOverflow
  /-- "invalid wire_type" -/
  | invalidWireType
  /-- "wrong wire type" -/
  | wrongWireType
  /-- "integer too large" -/
  | integerTooLarge
  /-- "zero tag" -/
  | zeroTag
  /-- "stream full" -/
  | streamFull
  deriving DecidableEq, Repr

/-- A function that reads from a `pb_istream_t` over a buffer: the bytes left are the
input. -/
abbrev IStream := Reader Error UInt8

/-- `pb_read`: the next `count` bytes. -/
def read (count : Nat) : IStream (List UInt8) := fun stream =>
  if stream.length < count then .error .endOfStream
  else .ok (stream.take count, stream.drop count)

/-- `pb_ostream_t` over a buffer of `maxSize` bytes. -/
structure OStream where
  written : List UInt8
  maxSize : Nat
  deriving DecidableEq, Repr

/-- `pb_ostream_from_buffer`. -/
def OStream.fromBuffer (size : Nat) : OStream := ⟨[], size⟩

/-- `pb_write`. -/
def OStream.write (stream : OStream) (buf : List UInt8) : Except Error OStream :=
  if 0 < buf.length ∧ stream.maxSize < stream.written.length + buf.length then .error .streamFull
  else .ok { stream with written := stream.written ++ buf }

theorem OStream.write_of_le {stream : OStream} {buf : List UInt8}
    (h : stream.written.length + buf.length ≤ stream.maxSize) :
    stream.write buf = .ok { stream with written := stream.written ++ buf } := by
  rw [write, if_neg (by omega)]

/-! ## Writing -/

/-- The first loop of `pb_encode_varint_32`: it runs while `i < 4`. -/
def lowLoop (high : UInt32) : Nat → List UInt8 → UInt8 → UInt32 → List UInt8 × UInt8
  | 0, buffer, byte, _ => (buffer, byte)
  | left + 1, buffer, byte, low =>
    if low ≠ 0 ∨ high ≠ 0 then
      lowLoop high left (buffer ++ [byte ||| 0x80]) (low &&& 0x7F).toUInt8 (low >>> 7)
    else (buffer, byte)

theorem toNat_shiftRight_seven (x : UInt32) : (x >>> 7).toNat = x.toNat / 128 := by
  rw [UInt32.toNat_shiftRight, Nat.shiftRight_eq_div_pow]
  rfl

theorem toNat_pos {x : UInt32} (h : x ≠ 0) : 0 < x.toNat := by
  rw [Nat.pos_iff_ne_zero]
  exact fun h0 => h (UInt32.toNat_inj.mp h0)

/-- Its second loop. -/
def highLoop (buffer : List UInt8) (byte : UInt8) (high : UInt32) : List UInt8 × UInt8 :=
  if high ≠ 0 then highLoop (buffer ++ [byte ||| 0x80]) (high &&& 0x7F).toUInt8 (high >>> 7)
  else (buffer, byte)
termination_by high.toNat
decreasing_by
  have := toNat_pos ‹_›
  rw [toNat_shiftRight_seven]
  omega

/-- What follows the first loop. -/
def finish (high : UInt32) (buffer : List UInt8) (byte : UInt8) : List UInt8 :=
  if high ≠ 0 then
    let (buffer, byte) := highLoop buffer (byte ||| ((high &&& 0x07) <<< 4).toUInt8) (high >>> 3)
    buffer ++ [byte]
  else buffer ++ [byte]

/-- The bytes `pb_encode_varint_32` writes. -/
def varint32Bytes (low high : UInt32) : List UInt8 :=
  let (buffer, byte) := lowLoop high 4 [] (low &&& 0x7F).toUInt8 (low >>> 7)
  finish high buffer byte

/-- `pb_encode_varint`. -/
def encodeVarint (stream : OStream) (value : UInt64) : Except Error OStream :=
  if value ≤ 0x7F then stream.write [value.toUInt8]
  else stream.write (varint32Bytes value.toUInt32 (value >>> 32).toUInt32)

theorem toNat_low (x : UInt32) : (x &&& 0x7F).toUInt8.toNat = x.toNat % 128 := by
  rw [UInt32.toNat_toUInt8, UInt32.toNat_and]
  have h : x.toNat &&& 127 = x.toNat % 128 := Nat.and_two_pow_sub_one_eq_mod x.toNat 7
  change (x.toNat &&& 127) % 256 = _
  omega

theorem or_high {byte : UInt8} (h : byte.toNat < 128) :
    byte ||| 0x80 = UInt8.ofNat (byte.toNat + 128) := by
  apply UInt8.toNat_inj.mp
  have hor : 2 ^ 7 * 1 + byte.toNat = 2 ^ 7 * 1 ||| byte.toNat := Nat.two_pow_add_eq_or_of_lt h 1
  rw [UInt8.toNat_or, toNat_ofNat (by omega), Nat.or_comm]
  change 2 ^ 7 * 1 ||| byte.toNat = _
  omega

/-- A byte that is not the last, in front of the rest of the number. -/
theorem encode_group {byte : UInt8} {n : Nat} (hbyte : byte.toNat < 128) (hn : 0 < n) :
    encode (byte.toNat + 128 * n) = (byte ||| 0x80) :: encode n := by
  rw [encode_of_le (by omega), or_high hbyte]
  congr 3 <;> omega

theorem encode_single {byte : UInt8} (h : byte.toNat < 128) : encode byte.toNat = [byte] := by
  rw [encode_of_lt h, UInt8.ofNat_toNat]

theorem highLoop_eq (buffer : List UInt8) {byte : UInt8} (high : UInt32) (h : byte.toNat < 128) :
    (highLoop buffer byte high).1 ++ [(highLoop buffer byte high).2] =
      buffer ++ encode (byte.toNat + 128 * high.toNat) := by
  induction buffer, byte, high using highLoop.induct with
  | case1 buffer byte high h0 ih =>
    have hpos := toNat_pos h0
    have hlow := toNat_low high
    have hrest := ih (by omega)
    rw [hlow, toNat_shiftRight_seven, Nat.mod_add_div] at hrest
    rw [highLoop, if_pos h0, hrest, encode_group h hpos, List.append_assoc]
    rfl
  | case2 buffer byte high h0 =>
    obtain rfl := not_not.mp h0
    rw [highLoop, if_neg h0]
    change buffer ++ [byte] = buffer ++ encode (byte.toNat + 128 * 0)
    rw [Nat.mul_zero, Nat.add_zero, encode_single h]

/-- The byte in which the two halves meet. -/
theorem toNat_meet {byte : UInt8} (high : UInt32) (h : byte.toNat < 16) :
    (byte ||| ((high &&& 0x07) <<< 4).toUInt8).toNat = byte.toNat + 16 * (high.toNat % 8) := by
  have hand : high.toNat &&& 7 = high.toNat % 8 := Nat.and_two_pow_sub_one_eq_mod high.toNat 3
  have hshift : ((high &&& 0x07) <<< 4).toUInt8.toNat = 16 * (high.toNat % 8) := by
    rw [UInt32.toNat_toUInt8, UInt32.toNat_shiftLeft, UInt32.toNat_and, Nat.shiftLeft_eq]
    change (high.toNat &&& 7) * 2 ^ 4 % 4294967296 % 256 = _
    omega
  have hor : 2 ^ 4 * (high.toNat % 8) + byte.toNat = 2 ^ 4 * (high.toNat % 8) ||| byte.toNat :=
    Nat.two_pow_add_eq_or_of_lt h _
  rw [UInt8.toNat_or, hshift, Nat.or_comm]
  change 2 ^ 4 * (high.toNat % 8) ||| byte.toNat = _
  omega

theorem finish_eq (high : UInt32) (buffer : List UInt8) {byte : UInt8} (h : byte.toNat < 16) :
    finish high buffer byte = buffer ++ encode (byte.toNat + 16 * high.toNat) := by
  unfold finish
  by_cases h0 : high = 0
  · subst h0
    rw [if_neg (by simp)]
    change buffer ++ [byte] = buffer ++ encode (byte.toNat + 16 * 0)
    rw [Nat.mul_zero, Nat.add_zero, encode_single (by omega)]
  · have hmeet := toNat_meet high h
    have hshift : (high >>> 3).toNat = high.toNat / 8 := by
      rw [UInt32.toNat_shiftRight, Nat.shiftRight_eq_div_pow]
      rfl
    rw [if_pos h0]
    refine (highLoop_eq buffer _ (by omega)).trans ?_
    rw [hmeet, hshift]
    congr 2
    omega

/-- With `left` rounds to go, `low` and `byte` hold what is below the `high` half. -/
theorem lowLoop_eq (high : UInt32) (left : Nat) (buffer : List UInt8) (byte : UInt8) (low : UInt32)
    (hbyte : byte.toNat < 128) (h : byte.toNat + 128 * low.toNat < 2 ^ (7 * left + 4)) :
    finish high (lowLoop high left buffer byte low).1 (lowLoop high left buffer byte low).2 =
      buffer ++ encode (byte.toNat + 128 * low.toNat + 2 ^ (7 * left + 4) * high.toNat) := by
  induction left generalizing buffer byte low with
  | zero =>
    have hlt : byte.toNat < 16 := by omega
    rw [lowLoop]
    dsimp only
    rw [finish_eq high buffer hlt]
    congr 2
    omega
  | succ left ih =>
    have hpow : 2 ^ (7 * (left + 1) + 4) = 128 * 2 ^ (7 * left + 4) := by
      rw [show 7 * (left + 1) + 4 = 7 + (7 * left + 4) by omega, pow_add]
      rfl
    rw [hpow] at h ⊢
    by_cases h0 : low = 0 ∧ high = 0
    · obtain ⟨rfl, rfl⟩ := h0
      have hval : byte.toNat + 128 * (0 : UInt32).toNat +
          128 * 2 ^ (7 * left + 4) * (0 : UInt32).toNat = byte.toNat := by
        rfl
      rw [hval, encode_single hbyte]
      rfl
    · have hgoes : low ≠ 0 ∨ high ≠ 0 := by
        by_cases hl : low = 0
        · exact Or.inr fun hh => h0 ⟨hl, hh⟩
        · exact Or.inl hl
      have hpos : 0 < low.toNat + 2 ^ (7 * left + 4) * high.toNat := by
        rcases hgoes with hl | hh
        · have := toNat_pos hl
          omega
        · have := Nat.mul_pos (Nat.two_pow_pos (7 * left + 4)) (toNat_pos hh)
          omega
      have hlow := toNat_low low
      have hshift := toNat_shiftRight_seven low
      have hrest := ih (buffer ++ [byte ||| 0x80]) (low &&& 0x7F).toUInt8 (low >>> 7) (by omega)
        (by omega)
      rw [hlow, hshift, Nat.mod_add_div, List.append_assoc] at hrest
      rw [lowLoop, if_pos hgoes, hrest, Nat.mul_assoc, Nat.add_assoc, ← Nat.mul_add,
        encode_group hbyte hpos]
      rfl

/-- **The halves give the plain writing**, which the buffer of ten bytes holds. -/
theorem varint32Bytes_eq (low high : UInt32) :
    varint32Bytes low high = encode (low.toNat + 2 ^ 32 * high.toNat) ∧
      (varint32Bytes low high).length ≤ 10 := by
  have hlow := toNat_low low
  have hshift := toNat_shiftRight_seven low
  have hlt := low.toNat_lt
  have hlt' := high.toNat_lt
  have heq : varint32Bytes low high = encode (low.toNat + 2 ^ 32 * high.toNat) := by
    have h := lowLoop_eq high 4 [] (low &&& 0x7F).toUInt8 (low >>> 7) (by omega) (by omega)
    rw [hlow, hshift, Nat.mod_add_div] at h
    exact h
  rw [heq]
  exact ⟨rfl, length_encode_le 9 (by omega)⟩

/-- **`pb_encode_varint` writes the shortest writing.** -/
theorem encodeVarint_eq (stream : OStream) (value : UInt64) :
    encodeVarint stream value = stream.write (encode value.toNat) := by
  unfold encodeVarint
  split
  · rename_i h
    have hle : value.toNat ≤ 127 := UInt64.le_iff_toNat_le.mp h
    rw [encode_of_lt (by omega)]
    rfl
  · have hlow : value.toUInt32.toNat = value.toNat % 2 ^ 32 := UInt64.toNat_toUInt32 value
    have hhigh : (value >>> 32).toUInt32.toNat = value.toNat / 2 ^ 32 := by
      have hlt := value.toNat_lt
      rw [UInt64.toNat_toUInt32, UInt64.toNat_shiftRight, Nat.shiftRight_eq_div_pow]
      change value.toNat / 2 ^ 32 % 2 ^ 32 = _
      omega
    rw [(varint32Bytes_eq _ _).1, hlow, hhigh, Nat.mod_add_div]

/-! ## Reading -/

/-- A round of `pb_decode_varint`: what the next byte makes of the result. -/
def extend64 (bitpos : Nat) (result : UInt64) (byte : UInt8) : Except Error UInt64 :=
  if 63 ≤ bitpos ∧ byte &&& 0xFE ≠ 0 then .error .varintOverflow
  else .ok (result ||| (byte &&& 0x7F).toUInt64 <<< UInt64.ofNat bitpos)

/-- `valid_extension`: a byte above the word is padding, or extends the sign. -/
def ValidExtension (bitpos : Nat) (result : UInt32) (byte : UInt8) : Prop :=
  byte &&& 0x7F = 0 ∨ result >>> 31 ≠ 0 ∧ byte = if bitpos < 63 then 0xFF else 0x01

instance (bitpos : Nat) (result : UInt32) (byte : UInt8) :
    Decidable (ValidExtension bitpos result byte) := inferInstanceAs (Decidable (_ ∨ _))

/-- A round of the multibyte case of `pb_decode_varint32_eof`. -/
def extend32 (bitpos : Nat) (result : UInt32) (byte : UInt8) : Except Error UInt32 :=
  if 32 ≤ bitpos then
    if 64 ≤ bitpos ∨ ¬ValidExtension bitpos result byte then .error .varintOverflow else .ok result
  else if bitpos = 28 then
    if byte &&& 0x70 ≠ 0 ∧ byte &&& 0x78 ≠ 0x78 then .error .varintOverflow
    else .ok (result ||| (byte &&& 0x0F).toUInt32 <<< UInt32.ofNat bitpos)
  else .ok (result ||| (byte &&& 0x7F).toUInt32 <<< UInt32.ofNat bitpos)

variable {W : Type} (extend : Nat → W → UInt8 → Except Error W)

/-- The loop of both: rounds until a byte without the high bit. -/
def decodeFrom (bitpos : Nat) (result : W) : IStream W
  | [] => .error .endOfStream
  | byte :: stream =>
    match extend bitpos result byte with
    | .error e => .error e
    | .ok result =>
      if byte &&& 0x80 ≠ 0 then decodeFrom (bitpos + 7) result stream else .ok (result, stream)

/-- `pb_decode_varint`. -/
def decodeVarint : IStream UInt64 := decodeFrom extend64 0 0

/-- `pb_decode_varint32`. -/
def decodeVarint32 : IStream UInt32
  | [] => .error .endOfStream
  | byte :: stream =>
    if byte &&& 0x80 = 0 then .ok (byte.toUInt32, stream)
    else decodeFrom extend32 7 (byte &&& 0x7F).toUInt32 stream

/-- `pb_skip_varint`. -/
def skipVarint : IStream Unit
  | [] => .error .endOfStream
  | byte :: stream => if byte &&& 0x80 ≠ 0 then skipVarint stream else .ok ((), stream)

theorem high_bit (byte : UInt8) : byte &&& 0x80 = 0 ↔ byte.toNat < 128 := by
  have h : ∀ i : Fin 256, i.val &&& 128 = 0 ↔ i.val < 128 := by decide +kernel
  rw [← UInt8.toNat_inj, UInt8.toNat_and]
  exact h ⟨byte.toNat, byte.toNat_lt⟩

theorem toNat_group (byte : UInt8) : (byte &&& 0x7F).toNat = byte.toNat % 128 := by
  rw [UInt8.toNat_and]
  exact Nat.and_two_pow_sub_one_eq_mod byte.toNat 7

theorem low_bit (byte : UInt8) : byte &&& 0xFE ≠ 0 ↔ 2 ≤ byte.toNat := by
  have h : ∀ i : Fin 256, i.val &&& 254 = 0 ↔ i.val < 2 := by decide +kernel
  rw [ne_eq, ← UInt8.toNat_inj, UInt8.toNat_and, ← not_lt]
  exact not_congr (h ⟨byte.toNat, byte.toNat_lt⟩)

/-- The rounds for some bytes. -/
def rounds (bitpos : Nat) (result : W) : List UInt8 → Except Error W
  | [] => .ok result
  | byte :: bytes =>
    match extend bitpos result byte with
    | .error e => .error e
    | .ok result => rounds (bitpos + 7) result bytes

/-- The loop takes the bytes of one number and makes its rounds with them. -/
theorem decodeFrom_eq_ok_iff {bitpos : Nat} {result v : W} {input rest : List UInt8} :
    (decodeFrom extend bitpos result).run input = .ok (v, rest) ↔
      ∃ bytes, IsVarint bytes ∧ input = bytes ++ rest ∧ rounds extend bitpos result bytes = .ok v := by
  induction input generalizing bitpos result with
  | nil =>
    constructor
    · intro h
      cases h
    · rintro ⟨bytes, hbytes, hnil, -⟩
      exact absurd (List.append_eq_nil_iff.mp hnil.symm).1 hbytes.ne_nil
  | cons byte stream ih =>
    rw [exists_varint_cons (P := fun bytes => rounds extend bitpos result bytes = .ok v)]
    change decodeFrom extend bitpos result (byte :: stream) = _ ↔ _
    rw [decodeFrom]
    simp only [rounds]
    cases extend bitpos result byte with
    | error e => simp
    | ok result' =>
      simp only [ne_eq, high_bit, ite_not]
      split
      · simp only [Except.ok.injEq, Prod.mk.injEq]
        exact and_comm
      · exact ih

theorem local_decodeFrom (bitpos : Nat) (result : W) : Local (decodeFrom extend bitpos result) := by
  intro input v rest h
  obtain ⟨bytes, hbytes, rfl, hrounds⟩ := (decodeFrom_eq_ok_iff extend).mp h
  exact ⟨bytes, rfl, fun rest' =>
    (decodeFrom_eq_ok_iff extend).mpr ⟨bytes, hbytes, rfl, hrounds⟩⟩

theorem pow_succ_group (k : Nat) : 2 ^ (7 * (k + 1)) = 128 * 2 ^ (7 * k) := by
  rw [show 7 * (k + 1) = 7 + 7 * k by omega, pow_add]
  rfl

/-- Up to the ninth group all fit; of the tenth, one bit does. -/
theorem group_fits {k : Nat} {byte : UInt8} (hk : k ≤ 9) (h : k = 9 → byte.toNat < 2) :
    byte.toNat % 128 * 2 ^ (7 * k) < 2 ^ 64 := by
  by_cases h9 : k = 9
  · subst h9
    have := h rfl
    omega
  · have hpow : 2 ^ (7 * k) ≤ 2 ^ (7 * 8) := Nat.pow_le_pow_right (by decide) (by omega)
    have hmul := Nat.mul_le_mul (show byte.toNat % 128 ≤ 127 by omega) hpow
    omega

/-- A group is put above the result. -/
theorem or_group64 {k : Nat} {result : UInt64} {byte : UInt8} (hk : k ≤ 9)
    (hr : result.toNat < 2 ^ (7 * k)) (h : k = 9 → byte.toNat < 2) :
    (result ||| (byte &&& 0x7F).toUInt64 <<< UInt64.ofNat (7 * k)).toNat =
      result.toNat + 2 ^ (7 * k) * (byte.toNat % 128) := by
  have hfits := group_fits hk h
  have hpos : (UInt64.ofNat (7 * k)).toNat % 64 = 7 * k := by
    rw [UInt64.toNat_ofNat']
    omega
  have hor := Nat.two_pow_add_eq_or_of_lt hr (byte.toNat % 128)
  rw [UInt64.toNat_or, UInt64.toNat_shiftLeft, UInt8.toNat_toUInt64, toNat_group, hpos,
    Nat.shiftLeft_eq, Nat.mod_eq_of_lt hfits, Nat.or_comm, Nat.mul_comm, ← hor, Nat.add_comm]

theorem rounds64_eq_ok_iff {bytes : List UInt8} (h : IsVarint bytes) {k : Nat} {result v : UInt64}
    (hk : k ≤ 9) (hr : result.toNat < 2 ^ (7 * k)) :
    rounds extend64 (7 * k) result bytes = .ok v ↔
      k + bytes.length ≤ 10 ∧ result.toNat + 2 ^ (7 * k) * value bytes < 2 ^ 64 ∧
        v.toNat = result.toNat + 2 ^ (7 * k) * value bytes := by
  induction bytes generalizing k result with
  | nil => exact h.elim
  | cons byte bytes ih =>
    rw [isVarint_cons_iff] at h
    rw [rounds, value_cons, List.length_cons]
    by_cases hover : k = 9 ∧ 2 ≤ byte.toNat
    · -- the tenth byte goes on, or its group does not fit
      obtain ⟨rfl, h2⟩ := hover
      rw [extend64, if_pos ⟨by omega, low_bit byte |>.mpr h2⟩]
      simp only [reduceCtorEq, false_iff, not_and]
      intro hlen
      split at h
      · subst h
        rw [value_nil]
        omega
      · have := List.length_pos_iff.mpr h.ne_nil
        omega
    · have hsmall : k = 9 → byte.toNat < 2 := by omega
      have hor := or_group64 hk hr hsmall
      have hfits := group_fits hk hsmall
      rw [Nat.mul_comm] at hfits
      rw [extend64, if_neg (by rw [low_bit]; omega)]
      dsimp only
      split at h
      · subst h
        have hmod : byte.toNat % 128 = byte.toNat := by omega
        simp only [rounds, Except.ok.injEq, List.length_nil, value_nil, Nat.mul_zero, Nat.add_zero]
        rw [← UInt64.toNat_inj, hor]
        have hlt : result.toNat + 2 ^ (7 * k) * (byte.toNat % 128) < 2 ^ 64 := by
          rw [← hor]
          exact UInt64.toNat_lt _
        exact ⟨fun hv => ⟨by omega, hlt, hv.symm⟩, fun hv => hv.2.2.symm⟩
      · have hk8 : k ≤ 8 := by omega
        have hpow := pow_succ_group k
        have hmul := Nat.mul_le_mul_left (2 ^ (7 * k)) (show byte.toNat % 128 ≤ 127 by omega)
        have hlt : result.toNat + 2 ^ (7 * k) * (byte.toNat % 128) < 2 ^ (7 * (k + 1)) := by
          rw [hpow]
          omega
        have hsum : result.toNat + 2 ^ (7 * k) * (byte.toNat % 128) + 2 ^ (7 * (k + 1)) * value bytes =
            result.toNat + 2 ^ (7 * k) * (byte.toNat % 128 + 128 * value bytes) := by
          rw [hpow, Nat.mul_add, Nat.mul_comm 128, Nat.mul_assoc, Nat.add_assoc]
        rw [← hor] at hlt
        rw [show 7 * k + 7 = 7 * (k + 1) by omega, ih h (by omega) hlt, hor, hsum,
          show k + 1 + bytes.length = k + (bytes.length + 1) by omega]

/-- **What `pb_decode_varint` accepts**: at most ten bytes whose value fits 64 bits. -/
theorem decodeVarint_eq_ok_iff {input rest : List UInt8} {v : UInt64} :
    decodeVarint.run input = .ok (v, rest) ↔
      ∃ bytes, IsVarint bytes ∧ input = bytes ++ rest ∧
        bytes.length ≤ 10 ∧ value bytes < 2 ^ 64 ∧ v.toNat = value bytes := by
  rw [decodeVarint, decodeFrom_eq_ok_iff]
  refine exists_congr fun bytes => and_congr_right fun h => and_congr_right fun _ => ?_
  have hrounds := @rounds64_eq_ok_iff bytes h 0 0 v (Nat.zero_le _) Nat.one_pos
  change rounds extend64 (7 * 0) 0 bytes = .ok v ↔ _
  rw [hrounds]
  simp

theorem reads_decodeVarint {bytes : List UInt8} (h : IsVarint bytes) (hlen : bytes.length ≤ 10)
    (hlt : value bytes < 2 ^ 64) : Reads decodeVarint bytes (UInt64.ofNat (value bytes)) := by
  intro rest
  refine decodeVarint_eq_ok_iff.mpr ⟨bytes, h, rfl, hlen, hlt, ?_⟩
  rw [UInt64.toNat_ofNat']
  exact Nat.mod_eq_of_lt hlt

theorem local_decodeVarint : Local decodeVarint := local_decodeFrom extend64 0 0

/-- `pb_skip_varint` takes one number of any length. -/
theorem skipVarint_eq_ok_iff {input rest : List UInt8} :
    skipVarint.run input = .ok ((), rest) ↔
      ∃ bytes, IsVarint bytes ∧ input = bytes ++ rest ∧ True := by
  induction input with
  | nil =>
    constructor
    · intro h
      cases h
    · rintro ⟨bytes, hbytes, hnil, -⟩
      exact absurd (List.append_eq_nil_iff.mp hnil.symm).1 hbytes.ne_nil
  | cons byte stream ih =>
    rw [exists_varint_cons (P := fun _ => True)]
    change skipVarint (byte :: stream) = _ ↔ _
    simp only [skipVarint, ne_eq, high_bit, ite_not]
    split
    · simp
    · exact ih

theorem local_skipVarint : Local skipVarint := by
  rintro input ⟨⟩ rest h
  obtain ⟨bytes, hbytes, rfl, -⟩ := skipVarint_eq_ok_iff.mp h
  exact ⟨bytes, rfl, fun rest' => skipVarint_eq_ok_iff.mpr ⟨bytes, hbytes, rfl, trivial⟩⟩

/-! ### The 32-bit decoder

`p` is the number the bytes up to the present one write, before it is cut. -/

theorem fifth_bits (byte : UInt8) : byte &&& 0x70 = 0 ↔ byte.toNat % 128 < 16 := by
  have h : ∀ i : Fin 256, i.val &&& 112 = 0 ↔ i.val % 128 < 16 := by decide +kernel
  rw [← UInt8.toNat_inj, UInt8.toNat_and]
  exact h ⟨byte.toNat, byte.toNat_lt⟩

theorem or_group32 {k : Nat} {result : UInt32} {byte : UInt8} (hk : k ≤ 3)
    (hr : result.toNat < 2 ^ (7 * k)) :
    (result ||| (byte &&& 0x7F).toUInt32 <<< UInt32.ofNat (7 * k)).toNat =
      result.toNat + 2 ^ (7 * k) * (byte.toNat % 128) := by
  have hpow : 2 ^ (7 * k) ≤ 2 ^ (7 * 3) := Nat.pow_le_pow_right (by decide) (by omega)
  have hmul := Nat.mul_le_mul (show byte.toNat % 128 ≤ 127 by omega) hpow
  have hpos : (UInt32.ofNat (7 * k)).toNat % 32 = 7 * k := by
    rw [UInt32.toNat_ofNat']
    omega
  have hor := Nat.two_pow_add_eq_or_of_lt hr (byte.toNat % 128)
  rw [UInt32.toNat_or, UInt32.toNat_shiftLeft, UInt8.toNat_toUInt32, toNat_group, hpos,
    Nat.shiftLeft_eq, Nat.mod_eq_of_lt (by omega), Nat.or_comm, Nat.mul_comm, ← hor, Nat.add_comm]

/-- Of the fifth group, four bits fit. -/
theorem or_fifth32 {result : UInt32} {byte : UInt8} (hr : result.toNat < 2 ^ 28) :
    (result ||| (byte &&& 0x0F).toUInt32 <<< UInt32.ofNat 28).toNat =
      result.toNat + 2 ^ 28 * (byte.toNat % 16) := by
  have hand : (byte &&& 0x0F).toNat = byte.toNat % 16 := by
    rw [UInt8.toNat_and]
    exact Nat.and_two_pow_sub_one_eq_mod byte.toNat 4
  have hor := Nat.two_pow_add_eq_or_of_lt hr (byte.toNat % 16)
  rw [UInt32.toNat_or, UInt32.toNat_shiftLeft, UInt8.toNat_toUInt32, hand, Nat.or_comm,
    show (UInt32.ofNat 28).toNat % 32 = 28 from rfl, Nat.shiftLeft_eq,
    Nat.mod_eq_of_lt (by omega), Nat.mul_comm, ← hor, Nat.add_comm]

/-- What a round of the 32-bit decoder can do. -/
theorem extend32_sound {k p : Nat} {result result' : UInt32} {byte : UInt8} (hk : 1 ≤ k)
    (hp : p < 2 ^ (7 * k)) (hr : result.toNat = p % 2 ^ 32)
    (h : extend32 (7 * k) result byte = .ok result') :
    k ≤ 9 ∧ (k = 9 → byte.toNat % 128 ≤ 1) ∧
      result'.toNat = (p + 2 ^ (7 * k) * (byte.toNat % 128)) % 2 ^ 32 := by
  unfold extend32 at h
  split at h
  · split at h
    · cases h
    · rename_i hge hvalid
      rw [Except.ok.injEq] at h
      subst h
      rw [not_or, not_not] at hvalid
      obtain ⟨hlt, hvalid⟩ := hvalid
      refine ⟨by omega, ?_, ?_⟩
      · rintro rfl
        rcases hvalid with h0 | ⟨-, hbyte⟩
        · rw [← toNat_group, h0]
          exact Nat.zero_le _
        · rw [if_neg (by omega)] at hbyte
          subst hbyte
          exact Nat.le_refl _
      · -- the group lies above the word
        rw [hr, show 7 * k = 32 + (7 * k - 32) by omega, pow_add, Nat.mul_assoc,
          Nat.add_mul_mod_self_left]
  · split at h
    · split at h
      · cases h
      · rename_i hlt h28 hbits
        rw [Except.ok.injEq] at h
        subst h
        rw [h28] at hp ⊢
        rw [or_fifth32 (by omega), hr]
        omega
    · rename_i hlt h28
      rw [Except.ok.injEq] at h
      subst h
      have hpow : 2 ^ (7 * k) ≤ 2 ^ (7 * 3) := Nat.pow_le_pow_right (by decide) (by omega)
      have hmul := Nat.mul_le_mul (show byte.toNat % 128 ≤ 127 by omega) hpow
      rw [Nat.mul_comm] at hmul
      have hlt32 : p + 2 ^ (7 * k) * (byte.toNat % 128) < 2 ^ 32 := by omega
      rw [Nat.mod_eq_of_lt (by omega)] at hr
      rw [or_group32 (by omega) (by omega), hr, Nat.mod_eq_of_lt hlt32]
      exact ⟨by omega, by omega, rfl⟩

/-- A round succeeds as long as the number fits. -/
theorem extend32_complete {k : Nat} {result : UInt32} {byte : UInt8} (hk : k ≤ 9)
    (hr : result.toNat < 2 ^ (7 * k))
    (h : result.toNat + 2 ^ (7 * k) * (byte.toNat % 128) < 2 ^ 32) :
    ∃ result', extend32 (7 * k) result byte = .ok result' ∧
      result'.toNat = result.toNat + 2 ^ (7 * k) * (byte.toNat % 128) := by
  unfold extend32
  by_cases h5 : 5 ≤ k
  · have hpow : 2 ^ (7 * 5) ≤ 2 ^ (7 * k) := Nat.pow_le_pow_right (by decide) (by omega)
    have h0 : byte.toNat % 128 = 0 := by
      by_contra hne
      have := Nat.mul_le_mul hpow (Nat.one_le_iff_ne_zero.mpr hne)
      omega
    have hgroup : byte &&& 0x7F = 0 := by
      rw [← UInt8.toNat_inj, toNat_group]
      exact h0
    have hvalid : ValidExtension (7 * k) result byte := Or.inl hgroup
    rw [if_pos (by omega), if_neg (by rw [not_or, not_not]; exact ⟨by omega, hvalid⟩), h0]
    exact ⟨result, rfl, rfl⟩
  · rw [if_neg (by omega)]
    by_cases h4 : k = 4
    · subst h4
      have hlow : byte.toNat % 128 < 16 := by omega
      rw [if_pos (by rfl), if_neg (by simp [fifth_bits, hlow])]
      refine ⟨_, rfl, ?_⟩
      change (result ||| (byte &&& 0x0F).toUInt32 <<< UInt32.ofNat 28).toNat = _
      rw [or_fifth32 (by omega)]
      omega
    · rw [if_neg (by omega)]
      exact ⟨_, rfl, or_group32 (by omega) hr⟩

theorem rounds32_sound {bytes : List UInt8} (h : IsVarint bytes) {k p : Nat} {result v : UInt32}
    (hk : 1 ≤ k) (hp : p < 2 ^ (7 * k)) (hr : result.toNat = p % 2 ^ 32)
    (hrounds : rounds extend32 (7 * k) result bytes = .ok v) :
    k + bytes.length ≤ 10 ∧ p + 2 ^ (7 * k) * value bytes < 2 ^ 64 ∧
      v.toNat = (p + 2 ^ (7 * k) * value bytes) % 2 ^ 32 := by
  induction bytes generalizing k p result with
  | nil => exact h.elim
  | cons byte bytes ih =>
    rw [isVarint_cons_iff] at h
    rw [rounds] at hrounds
    split at hrounds
    · cases hrounds
    · rename_i result' hstep
      obtain ⟨hk9, htenth, hresult'⟩ := extend32_sound hk hp hr hstep
      have hpow := pow_succ_group k
      have hmul := Nat.mul_le_mul_left (2 ^ (7 * k)) (show byte.toNat % 128 ≤ 127 by omega)
      have hp' : p + 2 ^ (7 * k) * (byte.toNat % 128) < 2 ^ (7 * (k + 1)) := by
        rw [hpow]
        omega
      rw [value_cons, List.length_cons]
      split at h
      · subst h
        rw [rounds, Except.ok.injEq] at hrounds
        subst hrounds
        simp only [value_nil, Nat.mul_zero, Nat.add_zero, List.length_nil]
        refine ⟨by omega, ?_, hresult'⟩
        by_cases h9 : k = 9
        · subst h9
          have := htenth rfl
          omega
        · have hle : 2 ^ (7 * (k + 1)) ≤ 2 ^ (7 * 9) :=
            Nat.pow_le_pow_right (by decide) (by omega)
          omega
      · obtain ⟨hlen, hlt, hv⟩ := ih h (by omega) hp' hresult' hrounds
        have hsum : p + 2 ^ (7 * k) * (byte.toNat % 128) + 2 ^ (7 * (k + 1)) * value bytes =
            p + 2 ^ (7 * k) * (byte.toNat % 128 + 128 * value bytes) := by
          rw [hpow, Nat.mul_add, Nat.mul_comm 128, Nat.mul_assoc, Nat.add_assoc]
        rw [hsum] at hlt hv
        exact ⟨by omega, hlt, hv⟩

theorem rounds32_complete {bytes : List UInt8} (h : IsVarint bytes) {k : Nat} {result : UInt32}
    (hk : k + bytes.length ≤ 10) (hr : result.toNat < 2 ^ (7 * k))
    (hlt : result.toNat + 2 ^ (7 * k) * value bytes < 2 ^ 32) :
    rounds extend32 (7 * k) result bytes =
      .ok (UInt32.ofNat (result.toNat + 2 ^ (7 * k) * value bytes)) := by
  induction bytes generalizing k result with
  | nil => exact h.elim
  | cons byte bytes ih =>
    have hpow := pow_succ_group k
    have hsum : result.toNat + 2 ^ (7 * k) * (byte.toNat % 128) + 2 ^ (7 * (k + 1)) * value bytes =
        result.toNat + 2 ^ (7 * k) * value (byte :: bytes) := by
      rw [value_cons, hpow, Nat.mul_add, Nat.mul_comm 128, Nat.mul_assoc, Nat.add_assoc]
    have hmul := Nat.mul_le_mul_left (2 ^ (7 * k)) (show byte.toNat % 128 ≤ 127 by omega)
    rw [List.length_cons] at hk
    obtain ⟨result', hstep, hresult'⟩ :=
      extend32_complete (by omega) hr (by omega : result.toNat + 2 ^ (7 * k) * (byte.toNat % 128) < _)
    rw [← hsum, ← hresult'] at hlt ⊢
    rw [rounds, hstep]
    dsimp only
    rw [isVarint_cons_iff] at h
    split at h
    · subst h
      rw [rounds, value_nil, Nat.mul_zero, Nat.add_zero, UInt32.ofNat_toNat]
    · refine ih h (by omega) ?_ hlt
      rw [hresult', hpow]
      omega

/-- What `pb_decode_varint32` returns are the lower 32 bits of a number that fits 64. -/
theorem decodeVarint32_sound {input rest : List UInt8} {v : UInt32}
    (h : decodeVarint32.run input = .ok (v, rest)) :
    ∃ bytes, IsVarint bytes ∧ input = bytes ++ rest ∧
      bytes.length ≤ 10 ∧ value bytes < 2 ^ 64 ∧ v.toNat = value bytes % 2 ^ 32 := by
  cases input with
  | nil => cases h
  | cons byte stream =>
    change decodeVarint32 (byte :: stream) = _ at h
    rw [decodeVarint32] at h
    split at h
    · rename_i h0
      rw [Except.ok.injEq, Prod.mk.injEq] at h
      obtain ⟨rfl, rfl⟩ := h
      rw [high_bit] at h0
      refine ⟨[byte], h0, rfl, by simp, ?_, ?_⟩
      · simp only [value_cons, value_nil]
        omega
      · simp only [value_cons, value_nil, UInt8.toNat_toUInt32]
        omega
    · rename_i h0
      rw [high_bit] at h0
      obtain ⟨bytes, hbytes, rfl, hrounds⟩ := (decodeFrom_eq_ok_iff extend32).mp h
      have hgroup : (byte &&& 0x7F).toUInt32.toNat = byte.toNat % 128 := by
        rw [UInt8.toNat_toUInt32, toNat_group]
      obtain ⟨hlen, hlt, hv⟩ := rounds32_sound hbytes (Nat.le_refl 1) (p := byte.toNat % 128)
        (by omega) (by rw [hgroup]; omega) hrounds
      refine ⟨byte :: bytes, ?_, rfl, ?_, ?_, ?_⟩
      · rw [isVarint_cons_iff, if_neg h0]
        exact hbytes
      · rw [List.length_cons]
        omega
      · rw [value_cons]
        exact hlt
      · rw [value_cons]
        exact hv

theorem reads_decodeVarint32 {bytes : List UInt8} (h : IsVarint bytes) (hlen : bytes.length ≤ 10)
    (hlt : value bytes < 2 ^ 32) : Reads decodeVarint32 bytes (UInt32.ofNat (value bytes)) := by
  intro rest
  cases bytes with
  | nil => exact h.elim
  | cons byte bytes =>
    change decodeVarint32 (byte :: (bytes ++ rest)) = _
    rw [isVarint_cons_iff] at h
    rw [decodeVarint32]
    have hgroup : (byte &&& 0x7F).toUInt32.toNat = byte.toNat % 128 := by
      rw [UInt8.toNat_toUInt32, toNat_group]
    split at h
    · subst h
      rw [if_pos ((high_bit byte).mpr ‹_›), value_cons, value_nil, Nat.mul_zero, Nat.add_zero,
        Nat.mod_eq_of_lt ‹_›, List.nil_append, Except.ok.injEq, Prod.mk.injEq, ← UInt32.toNat_inj,
        UInt8.toNat_toUInt32, UInt32.toNat_ofNat']
      exact ⟨by omega, rfl⟩
    · rw [value_cons] at hlt ⊢
      rw [if_neg (by rwa [high_bit])]
      refine (decodeFrom_eq_ok_iff extend32).mpr ⟨bytes, h, rfl, ?_⟩
      rw [List.length_cons] at hlen
      have hgroup_lt : (byte &&& 0x7F).toUInt32.toNat < 2 ^ (7 * 1) := by
        rw [hgroup]
        omega
      have hrounds := rounds32_complete h (by omega) hgroup_lt (by rw [hgroup]; exact hlt)
      rwa [hgroup] at hrounds

theorem local_decodeVarint32 : Local decodeVarint32 := by
  intro input v rest h
  cases input with
  | nil => cases h
  | cons byte stream =>
    change decodeVarint32 (byte :: stream) = _ at h
    rw [decodeVarint32] at h
    split at h
    · rename_i h0
      cases h
      refine ⟨[byte], rfl, fun rest' => ?_⟩
      change decodeVarint32 (byte :: rest') = _
      rw [decodeVarint32, if_pos h0]
    · rename_i h0
      obtain ⟨used, rfl, hused⟩ := local_decodeFrom extend32 _ _ _ _ _ h
      refine ⟨byte :: used, rfl, fun rest' => ?_⟩
      change decodeVarint32 (byte :: (used ++ rest')) = _
      rw [decodeVarint32, if_neg h0]
      exact hused rest'

/-- **The 32-bit decoder is the 64-bit one, cut**: where it accepts, so does the
other, and it returns the lower half; and it accepts all numbers of 32 bits. -/
theorem decodeVarint32_refines (input rest : List UInt8) :
    (∀ v, decodeVarint32.run input = .ok (v, rest) →
      ∃ w, decodeVarint.run input = .ok (w, rest) ∧ v = w.toUInt32) ∧
    (∀ w, decodeVarint.run input = .ok (w, rest) → w.toNat < 2 ^ 32 →
      decodeVarint32.run input = .ok (w.toUInt32, rest)) := by
  constructor
  · intro v h
    obtain ⟨bytes, hbytes, rfl, hlen, hlt, hv⟩ := decodeVarint32_sound h
    refine ⟨_, reads_decodeVarint hbytes hlen hlt rest, ?_⟩
    rw [← UInt32.toNat_inj, hv, UInt64.toNat_toUInt32, UInt64.toNat_ofNat', Nat.mod_eq_of_lt hlt]
  · intro w h hw
    obtain ⟨bytes, hbytes, rfl, hlen, -, hv⟩ := decodeVarint_eq_ok_iff.mp h
    rw [hv] at hw
    rw [reads_decodeVarint32 hbytes hlen hw rest]
    congr 2
    rw [← UInt32.toNat_inj, UInt64.toNat_toUInt32, hv, UInt32.toNat_ofNat']

/-- **A number is written in the fewest bytes, and read back**, whatever follows. -/
theorem varint_round_trip (v : UInt64) :
    ∃ bytes, (∀ stream, encodeVarint stream v = stream.write bytes) ∧ bytes.length ≤ 10 ∧
      (∀ rest, decodeVarint.run (bytes ++ rest) = .ok (v, rest)) ∧
      ∀ bytes', IsVarint bytes' → value bytes' = v.toNat → bytes.length ≤ bytes'.length := by
  have hlt := v.toNat_lt
  have hlen : (encode v.toNat).length ≤ 10 := length_encode_le 9 (by omega)
  refine ⟨encode v.toNat, fun stream => encodeVarint_eq stream v, hlen, fun rest => ?_, ?_⟩
  · have hread := reads_decodeVarint (isVarint_encode v.toNat) hlen (by rw [value_encode]; exact hlt)
    rw [value_encode, UInt64.ofNat_toNat] at hread
    exact hread rest
  · intro bytes' hbytes' hvalue
    rw [← hvalue]
    exact length_encode_value_le hbytes'

end KartStack.Nanopb
