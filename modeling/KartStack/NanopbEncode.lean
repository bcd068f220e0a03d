import KartStack.NanopbDecode

/-! # Encoding a message

`pb_encode` writes the fields of a message in the order of the descriptor and leaves
out those whose bytes are all zero.  Piece by piece, it fills the buffer as one write
of all its bytes would (`encode_eq_write`): it fails exactly if they do not fit.  They
always fit a buffer of the size the generated header gives (`length_bytes_le`), which
no message exceeds and some message fills (`exists_length_eq`).

A message that is encoded is decoded to itself (`decode_bytes`); the fields left out
are those decoding leaves at zero.
-/
namespace KartStack.Nanopb
open StreamReaders Base128

/-! ## The code -/

/-- `pb_encode_tag_for_field`. -/
def encodeTag (f : FieldInfo) (stream : OStream) : Except Error OStream :=
  encodeVarint stream (UInt64.ofNat f.tag <<< 3 ||| f.ltype.wireType.toUInt64)

/-- The four bytes `pb_encode_fixed32` writes. -/
def fixed32Bytes (v : UInt32) : List UInt8 :=
  [(v &&& 0xFF).toUInt8, (v >>> 8 &&& 0xFF).toUInt8, (v >>> 16 &&& 0xFF).toUInt8,
    (v >>> 24 &&& 0xFF).toUInt8]

/-- `pb_enc_bool`, `pb_enc_varint` and `pb_enc_fixed`. -/
def encodeValue (stream : OStream) : (ltype : LType) → ltype.Data → Except Error OStream
  | .bool, v => encodeVarint stream (if v then 1 else 0)
  | .uvarint, v => encodeVarint stream v.toUInt64
  | .fixed32, v => stream.write (fixed32Bytes v)

/-- `pb_check_proto3_default_value`: all bytes are zero. -/
def isDefault : (ltype : LType) → ltype.Data → Bool
  | .bool, v => !v
  | .uvarint, v => v == 0
  | .fixed32, v => v == 0

/-- `encode_field`. -/
def encodeField (f : FieldInfo) (v : f.ltype.Data) (stream : OStream) : Except Error OStream :=
  if isDefault f.ltype v then .ok stream
  else do
    let stream ← encodeTag f stream
    encodeValue stream f.ltype v

variable {d : MsgDesc}

/-- `pb_encode`. -/
def encode (m : Struct d) (stream : OStream) : Except Error OStream :=
  (List.finRange d.count).foldlM (fun stream i => encodeField (d.field i) (m i) stream) stream

/-! ## The bytes -/

/-- The bytes of a field's value. -/
def valueBytes : (ltype : LType) → ltype.Data → List UInt8
  | .bool, v => Base128.encode (if v then 1 else 0)
  | .uvarint, v => Base128.encode v.toNat
  | .fixed32, v => fixed32Bytes v

/-- The tag and the wire type in one number. -/
def FieldInfo.head (f : FieldInfo) : Nat := 8 * f.tag + f.ltype.wireType.toNat

/-- The bytes of a field. -/
def fieldBytes (f : FieldInfo) (v : f.ltype.Data) : List UInt8 :=
  if isDefault f.ltype v then [] else Base128.encode f.head ++ valueBytes f.ltype v

/-- The bytes of a message. -/
def Struct.bytes (m : Struct d) : List UInt8 :=
  (List.finRange d.count).flatMap fun i => fieldBytes (d.field i) (m i)

theorem wireType_lt (ltype : LType) : ltype.wireType.toNat < 8 := by
  cases ltype <;> decide

theorem toNat_head {f : FieldInfo} (h : f.tag < 2 ^ 16) :
    (UInt64.ofNat f.tag <<< 3 ||| f.ltype.wireType.toUInt64).toNat = f.head := by
  have hwt := wireType_lt f.ltype
  have hor : 2 ^ 3 * f.tag + f.ltype.wireType.toNat = 2 ^ 3 * f.tag ||| f.ltype.wireType.toNat :=
    Nat.two_pow_add_eq_or_of_lt hwt f.tag
  rw [UInt64.toNat_or, UInt64.toNat_shiftLeft, UInt64.toNat_ofNat', UInt32.toNat_toUInt64,
    Nat.shiftLeft_eq, FieldInfo.head, show UInt64.toNat 3 % 64 = 3 from rfl,
    Nat.mod_eq_of_lt (show f.tag < 2 ^ 64 by omega), Nat.mod_eq_of_lt (by omega), Nat.mul_comm]
  omega

/-- Two writes, or one of both. -/
theorem OStream.write_append (stream : OStream) (buf buf' : List UInt8) :
    (stream.write buf >>= fun stream => stream.write buf') = stream.write (buf ++ buf') := by
  unfold OStream.write
  rw [List.length_append]
  split
  · rw [if_pos (by omega)]
    rfl
  · change (if _ then _ else _) = _
    dsimp only
    rw [List.length_append]
    split
    · rw [if_pos (by omega)]
    · rw [if_neg (by omega), List.append_assoc]

theorem OStream.write_nil (stream : OStream) : stream.write [] = .ok stream := by
  rw [OStream.write, if_neg (by simp), List.append_nil]

theorem encodeValue_eq (stream : OStream) (ltype : LType) (v : ltype.Data) :
    encodeValue stream ltype v = stream.write (valueBytes ltype v) := by
  cases ltype with
  | bool => cases v <;> exact encodeVarint_eq stream _
  | uvarint => exact (encodeVarint_eq stream _).trans (by rw [UInt32.toNat_toUInt64]; rfl)
  | fixed32 => rfl

theorem encodeField_eq {f : FieldInfo} (h : f.tag < 2 ^ 16) (v : f.ltype.Data) (stream : OStream) :
    encodeField f v stream = stream.write (fieldBytes f v) := by
  unfold encodeField fieldBytes
  split
  · exact (OStream.write_nil stream).symm
  · simp only [encodeTag, encodeVarint_eq, encodeValue_eq, toNat_head h]
    exact OStream.write_append stream _ _

theorem tag_lt_pow (i : Fin d.count) : (d.field i).tag < 2 ^ 16 :=
  (d.tag_bounds _ (List.get_mem d.fields i)).2

/-- **Encoding is one write of all bytes.** -/
theorem encode_eq_write (m : Struct d) (stream : OStream) : encode m stream = stream.write m.bytes := by
  have hfold : ∀ (is : List (Fin d.count)) (stream : OStream),
      is.foldlM (fun stream i => encodeField (d.field i) (m i) stream) stream =
        stream.write (is.flatMap fun i => fieldBytes (d.field i) (m i)) := by
    intro is
    induction is with
    | nil => exact fun stream => (OStream.write_nil stream).symm
    | cons i is ih =>
      intro stream
      rw [List.foldlM_cons, List.flatMap_cons, ← OStream.write_append,
        encodeField_eq (tag_lt_pow i)]
      exact congrArg _ (funext ih)
  exact hfold _ stream

/-! ## Round trip -/

theorem or_byte {a k : UInt32} (hk : k.toNat ≤ 24) (ha : a.toNat < 2 ^ k.toNat) (b : UInt8) :
    (a ||| b.toUInt32 <<< k).toNat = a.toNat + 2 ^ k.toNat * b.toNat := by
  have hb := b.toNat_lt
  have hpow : 2 ^ k.toNat ≤ 2 ^ 24 := Nat.pow_le_pow_right (by decide) hk
  have hmul := Nat.mul_le_mul (show b.toNat ≤ 255 by omega) hpow
  have hor := Nat.two_pow_add_eq_or_of_lt ha b.toNat
  rw [UInt32.toNat_or, UInt32.toNat_shiftLeft, UInt8.toNat_toUInt32,
    Nat.mod_eq_of_lt (show k.toNat < 32 by omega), Nat.shiftLeft_eq,
    Nat.mod_eq_of_lt (by omega), Nat.or_comm, Nat.mul_comm, ← hor, Nat.add_comm]

theorem toNat_byte (v k : UInt32) (hk : k.toNat < 32) :
    (v >>> k &&& 0xFF).toUInt8.toNat = v.toNat / 2 ^ k.toNat % 256 := by
  have hand : v.toNat / 2 ^ k.toNat &&& 255 = v.toNat / 2 ^ k.toNat % 256 :=
    Nat.and_two_pow_sub_one_eq_mod _ 8
  rw [UInt32.toNat_toUInt8, UInt32.toNat_and, UInt32.toNat_shiftRight, Nat.mod_eq_of_lt hk,
    Nat.shiftRight_eq_div_pow]
  change (v.toNat / 2 ^ k.toNat &&& 255) % 256 = _
  omega

theorem fixed32_fixed32Bytes (v : UInt32) : fixed32 (fixed32Bytes v) = v := by
  have h0 : (v &&& 0xFF).toUInt8.toNat = v.toNat % 256 := by
    have := toNat_byte v 0 (by decide)
    simpa using this
  have h1 := toNat_byte v 8 (by decide)
  have h2 := toNat_byte v 16 (by decide)
  have h3 := toNat_byte v 24 (by decide)
  simp only [UInt32.reduceToNat] at h1 h2 h3
  have hlt := v.toNat_lt
  have e0 : ((v &&& 0xFF).toUInt8.toUInt32 <<< 0).toNat = v.toNat % 256 := by
    simpa using h0
  have e1 := or_byte (a := (v &&& 0xFF).toUInt8.toUInt32 <<< 0) (k := 8) (by decide)
    (by rw [e0]; exact Nat.mod_lt _ (by decide)) (v >>> 8 &&& 0xFF).toUInt8
  rw [e0, h1] at e1
  simp only [UInt32.reduceToNat] at e1
  have e2 := or_byte (k := 16) (by decide) (lt_of_eq_of_lt e1 (by simp only [UInt32.reduceToNat]; omega))
    (v >>> 16 &&& 0xFF).toUInt8
  rw [e1, h2] at e2
  simp only [UInt32.reduceToNat] at e2
  have e3 := or_byte (k := 24) (by decide) (lt_of_eq_of_lt e2 (by simp only [UInt32.reduceToNat]; omega))
    (v >>> 24 &&& 0xFF).toUInt8
  rw [e2, h3] at e3
  simp only [UInt32.reduceToNat] at e3
  rw [← UInt32.toNat_inj]
  refine e3.trans ?_
  omega

theorem writes_encode {n : Nat} (h : n < 2 ^ 64) : Writes (Base128.encode n) n :=
  ⟨isVarint_encode n, length_encode_le 9 (by omega), value_encode n⟩

theorem valueBytes_written (ltype : LType) (v : ltype.Data) :
    ValueBytes WritesWord ltype v (valueBytes ltype v) := by
  cases ltype with
  | bool =>
    cases v with
    | false => exact ⟨0, writes_encode (by decide), rfl⟩
    | true => exact ⟨1, writes_encode (by decide), rfl⟩
  | uvarint =>
    have hlt := UInt32.toNat_lt v
    exact writes_encode (by omega)
  | fixed32 => exact ⟨rfl, (fixed32_fixed32Bytes v).symm⟩

/-- A field that is not left out is one record. -/
theorem fieldBytes_written (i : Fin d.count) (v : (d.field i).ltype.Data)
    (h : isDefault (d.field i).ltype v = false) :
    (Record.known i v).WrittenBy WritesWord d (fieldBytes (d.field i) v) := by
  have htag := tag_lt_pow i
  have hwt := wireType_lt (d.field i).ltype
  have hn : (UInt32.ofNat (d.field i).head).toNat = (d.field i).head := by
    rw [UInt32.toNat_ofNat', FieldInfo.head]
    omega
  have hand : (d.field i).head &&& 7 = (d.field i).head % 8 := Nat.and_two_pow_sub_one_eq_mod _ 3
  rw [fieldBytes, if_neg (by rw [h]; exact Bool.false_ne_true)]
  refine .known (n := UInt32.ofNat (d.field i).head) ?_ ?_ ?_ (valueBytes_written _ v)
  · rw [WritesWord, hn]
    exact writes_encode (by rw [FieldInfo.head]; omega)
  · rw [← UInt32.toNat_inj, UInt32.toNat_and, hn]
    refine hand.trans ?_
    rw [FieldInfo.head]
    omega
  · rw [UInt32.toNat_shiftRight, hn, Nat.shiftRight_eq_div_pow, FieldInfo.head]
    change (8 * _ + _) / 2 ^ 3 = _
    omega

/-- The record of a field, if it is not left out. -/
def Struct.record (m : Struct d) (i : Fin d.count) : Option (Record d) :=
  if isDefault (d.field i).ltype (m i) then none else some (.known i (m i))

theorem record_of_default {m : Struct d} {i : Fin d.count}
    (h : isDefault (d.field i).ltype (m i) = true) : m.record i = none := if_pos h

theorem record_of_ne {m : Struct d} {i : Fin d.count}
    (h : isDefault (d.field i).ltype (m i) = false) : m.record i = some (.known i (m i)) :=
  if_neg (by rw [h]; exact Bool.false_ne_true)

theorem bytes_payload (m : Struct d) (is : List (Fin d.count)) :
    Payload WritesWord (is.filterMap m.record) (is.flatMap fun i => fieldBytes (d.field i) (m i)) := by
  induction is with
  | nil => exact .nil
  | cons i is ih =>
    rw [List.flatMap_cons]
    cases h : isDefault (d.field i).ltype (m i) with
    | true =>
      rw [List.filterMap_cons_none (record_of_default h), fieldBytes, if_pos h]
      exact ih
    | false =>
      rw [List.filterMap_cons_some (record_of_ne h)]
      exact .cons (fieldBytes_written i _ h) ih

theorem isDefault_iff {ltype : LType} {v : ltype.Data} :
    isDefault ltype v = true ↔ v = ltype.zero := by
  cases ltype with
  | bool => cases v <;> decide
  | uvarint => exact beq_iff_eq
  | fixed32 => exact beq_iff_eq

/-- The records of some fields set those; the fields left out stay. -/
theorem merge_records (m m' : Struct d) (is : List (Fin d.count)) (i : Fin d.count) :
    merge m' (is.filterMap m.record) i =
      if i ∈ is ∧ isDefault (d.field i).ltype (m i) = false then m i else m' i := by
  induction is generalizing m' with
  | nil => simp [merge]
  | cons j is ih =>
    cases h : isDefault (d.field j).ltype (m j) with
    | true =>
      rw [List.filterMap_cons_none (record_of_default h), ih]
      refine if_congr ?_ rfl rfl
      rw [List.mem_cons]
      constructor
      · exact fun hi => ⟨Or.inr hi.1, hi.2⟩
      · rintro ⟨rfl | hi, hdef⟩
        · rw [h] at hdef
          cases hdef
        · exact ⟨hi, hdef⟩
    | false =>
      rw [List.filterMap_cons_some (record_of_ne h)]
      change merge (m'.set j (m j)) (is.filterMap m.record) i = _
      rw [ih]
      by_cases hij : i = j
      · subst hij
        have hset : m'.set i (m i) i = m i := Function.update_self ..
        rw [hset, ite_self, if_pos ⟨List.mem_cons_self, h⟩]
      · have hset : m'.set j (m j) i = m' i := Function.update_of_ne hij ..
        rw [hset]
        refine if_congr ?_ rfl rfl
        rw [List.mem_cons, or_iff_right hij]

/-- The records of a message. -/
def Struct.records (m : Struct d) : List (Record d) := (List.finRange d.count).filterMap m.record

theorem payload_bytes (m : Struct d) : Payload WritesWord m.records m.bytes := bytes_payload m _

theorem merge_zero_records (m : Struct d) : merge Struct.zero m.records = m := by
  funext i
  rw [Struct.records, merge_records]
  split
  · rfl
  · rename_i h
    rw [not_and, Bool.not_eq_false] at h
    exact (isDefault_iff.mp (h (List.mem_finRange i))).symm

/-- **A message that is encoded is decoded to itself.** -/
theorem decode_bytes (m : Struct d) : decode d m.bytes = .ok m := by
  rw [decode_of_records (payload_bytes m), merge_zero_records]

/-! ## Sizes -/

/-- The most bytes a field's value takes. -/
def LType.maxSize : LType → Nat
  | .bool => 1
  | .uvarint => 5
  | .fixed32 => 4

/-- The most bytes a field takes. -/
def FieldInfo.maxSize (f : FieldInfo) : Nat := (Base128.encode f.head).length + f.ltype.maxSize

/-- The most bytes some fields take. -/
def totalSize : List FieldInfo → Nat
  | [] => 0
  | f :: fs => f.maxSize + totalSize fs

/-- All bits of a field set. -/
def LType.full : (ltype : LType) → ltype.Data
  | .bool => true
  | .uvarint => (0xFFFFFFFF : UInt32)
  | .fixed32 => (0xFFFFFFFF : UInt32)

theorem length_valueBytes_le (ltype : LType) (v : ltype.Data) :
    (valueBytes ltype v).length ≤ ltype.maxSize := by
  cases ltype with
  | bool => cases v <;> exact length_encode_le 0 (by decide)
  | uvarint =>
    have hlt := UInt32.toNat_lt v
    exact length_encode_le 4 (by omega)
  | fixed32 => exact Nat.le_refl 4

theorem length_fieldBytes_le (f : FieldInfo) (v : f.ltype.Data) :
    (fieldBytes f v).length ≤ f.maxSize := by
  have hvalue := length_valueBytes_le f.ltype v
  unfold fieldBytes
  split
  · exact Nat.zero_le _
  · rw [List.length_append, FieldInfo.maxSize]
    omega

theorem length_fieldBytes_full (f : FieldInfo) : (fieldBytes f f.ltype.full).length = f.maxSize := by
  have hvalue : ∀ ltype : LType, isDefault ltype ltype.full = false ∧
      (valueBytes ltype ltype.full).length = ltype.maxSize := by
    rintro (_ | _ | _)
    · exact ⟨rfl, le_antisymm (length_valueBytes_le .bool _) (le_length_encode 0 (by decide))⟩
    · exact ⟨rfl, le_antisymm (length_valueBytes_le .uvarint _) (le_length_encode 4 (by decide))⟩
    · exact ⟨rfl, rfl⟩
  obtain ⟨hdef, hlen⟩ := hvalue f.ltype
  rw [fieldBytes, if_neg (by rw [hdef]; exact Bool.false_ne_true), List.length_append, hlen]
  rfl

theorem map_field_finRange (d : MsgDesc) : (List.finRange d.count).map d.field = d.fields :=
  List.map_get_finRange d.fields

theorem length_flatMap_le (m : Struct d) (is : List (Fin d.count)) :
    (is.flatMap fun i => fieldBytes (d.field i) (m i)).length ≤ totalSize (is.map d.field) := by
  induction is with
  | nil => exact Nat.le_refl 0
  | cons i is ih =>
    have hi := length_fieldBytes_le (d.field i) (m i)
    rw [List.flatMap_cons, List.length_append, List.map_cons, totalSize]
    omega

theorem length_flatMap_full (is : List (Fin d.count)) :
    (is.flatMap fun i => fieldBytes (d.field i) (d.field i).ltype.full).length =
      totalSize (is.map d.field) := by
  induction is with
  | nil => rfl
  | cons i is ih =>
    rw [List.flatMap_cons, List.length_append, List.map_cons, totalSize, ih,
      length_fieldBytes_full]

theorem length_bytes_le (m : Struct d) : m.bytes.length ≤ totalSize d.fields := by
  have h := length_flatMap_le m (List.finRange d.count)
  rwa [map_field_finRange] at h

theorem exists_length_eq (d : MsgDesc) : ∃ m : Struct d, m.bytes.length = totalSize d.fields := by
  refine ⟨fun i => (d.field i).ltype.full, ?_⟩
  have h := length_flatMap_full (List.finRange d.count)
  rwa [map_field_finRange] at h

/-- What is encoded into a buffer large enough for any message of its type. -/
theorem encode_fromBuffer (m : Struct d) {size : Nat} (h : totalSize d.fields ≤ size) :
    encode m (OStream.fromBuffer size) = .ok ⟨m.bytes, size⟩ := by
  have hle := length_bytes_le m
  rw [encode_eq_write, OStream.write_of_le (by change [].length + _ ≤ size; simp; omega)]
  rfl

/-- **A message takes no bytes exactly if all its fields are zero.** -/
theorem bytes_eq_nil_iff (m : Struct d) : m.bytes = [] ↔ m = Struct.zero := by
  constructor
  · intro h
    have hdecode := decode_bytes m
    rw [h] at hdecode
    cases hdecode.symm.trans (decode_of_records (.nil : Payload WritesWord ([] : List (Record d)) []))
    rfl
  · rintro rfl
    refine List.flatMap_eq_nil_iff.mpr fun i _ => ?_
    exact if_pos (isDefault_iff.mpr rfl)

/-- **Encoding and decoding.**  A message is encoded exactly if its bytes fit, and they
are decoded to it. -/
theorem encode_decode (m : Struct d) (size : Nat) :
    encode m (OStream.fromBuffer size) =
        (if m.bytes.length ≤ size then .ok ⟨m.bytes, size⟩ else .error .streamFull) ∧
      decode d m.bytes = .ok m := by
  refine ⟨?_, decode_bytes m⟩
  rw [encode_eq_write, OStream.write]
  simp only [OStream.fromBuffer, List.length_nil, Nat.zero_add, List.nil_append]
  by_cases h : m.bytes.length ≤ size
  · rw [if_neg (by omega), if_pos h]
  · rw [if_pos (by omega), if_neg h]

end KartStack.Nanopb
