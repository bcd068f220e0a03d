import KartStack.NanopbFields
import Mathlib.Logic.Function.Basic

/-! # Decoding a message

`pb_decode` sets all fields to zero and reads one record after the other until the
stream is used up.  A record of a field the descriptor has sets that field; any other
is skipped.

So a payload is decoded by its records: it may hold them in any order and repeatedly,
with fields the receiver does not know in between, and its numbers may be padded
(`decode_of_records`).  Conversely, whatever is accepted is such a sequence of records
(`records_of_decode`), except that of tags, lengths and `bool`s nanopb looks only at
the lower 32 bits.
-/
namespace KartStack.Nanopb
open StreamReaders Base128

/-! ## The code -/

/-- `PB_WT_VARINT`. -/
def wtVarint : UInt32 := 0
/-- `PB_WT_64BIT`. -/
def wt64bit : UInt32 := 1
/-- `PB_WT_STRING`. -/
def wtString : UInt32 := 2
/-- `PB_WT_32BIT`. -/
def wt32bit : UInt32 := 5
/-- `PB_WT_PACKED`. -/
def wtPacked : UInt32 := 255

/-- `pb_skip_string`. -/
def skipString : IStream Unit := do
  let length ← decodeVarint32
  let _ ← read length.toNat
  pure ()

/-- `pb_skip_field`. -/
def skipField (wireType : UInt32) : IStream Unit :=
  if wireType = wtVarint then skipVarint
  else if wireType = wt64bit then (fun _ => ()) <$> read 8
  else if wireType = wtString then skipString
  else if wireType = wt32bit then (fun _ => ()) <$> read 4
  else throw .invalidWireType

/-- `pb_decode_tag`: the wire type and the tag.  The stream is not at its end. -/
def decodeTag : IStream (UInt32 × UInt32) :=
  (fun temp => (temp &&& 7, temp >>> 3)) <$> decodeVarint32

/-- The number in four bytes, the lowest first. -/
def fixed32 (bytes : List UInt8) : UInt32 :=
  (bytes.getD 0 0).toUInt32 <<< 0 ||| (bytes.getD 1 0).toUInt32 <<< 8 |||
    (bytes.getD 2 0).toUInt32 <<< 16 ||| (bytes.getD 3 0).toUInt32 <<< 24

/-- `pb_decode_fixed32`. -/
def decodeFixed32 : IStream UInt32 := fixed32 <$> read 4

/-- `pb_dec_bool`. -/
def decBool : IStream Bool := (fun value => decide (value ≠ 0)) <$> decodeVarint32

/-- `pb_dec_varint`, for the data size of an `uint32`. -/
def decVarint : IStream UInt32 := do
  let value ← decodeVarint
  if value.toUInt32.toUInt64 ≠ value then throw .integerTooLarge else pure value.toUInt32

/-- The check each kind of field begins with. -/
def expecting {A : Type} (expected wireType : UInt32) (r : IStream A) : IStream A :=
  if wireType ≠ expected ∧ wireType ≠ wtPacked then throw .wrongWireType else r

/-- `decode_basic_field`. -/
def decodeBasicField (wireType : UInt32) : (ltype : LType) → IStream ltype.Data
  | .bool => expecting wtVarint wireType decBool
  | .uvarint => expecting wtVarint wireType decVarint
  | .fixed32 => expecting wt32bit wireType decodeFixed32

/-- The memory of a message: what each of its fields holds. -/
abbrev Struct (d : MsgDesc) : Type := (i : Fin d.count) → (d.field i).ltype.Data

/-- A field of zero bytes. -/
def LType.zero : (ltype : LType) → ltype.Data
  | .bool => false
  | .uvarint => (0 : UInt32)
  | .fixed32 => (0 : UInt32)

variable {d : MsgDesc}

/-- `pb_message_set_to_defaults`. -/
def Struct.zero : Struct d := fun i => (d.field i).ltype.zero

/-- A field is set. -/
def Struct.set (m : Struct d) (i : Fin d.count) (value : (d.field i).ltype.Data) : Struct d :=
  Function.update m i value

/-- A round of the loop of `pb_decode_inner`: the iterator, and the message. -/
def decodeStep (s : Fin d.count × Struct d) : IStream (Fin d.count × Struct d) := do
  let head ← decodeTag
  if head.2 = 0 then throw .zeroTag
  else
    let find := d.iterFind s.1 head.2.toNat
    if find.1 then
      (fun value => (find.2, s.2.set find.2 value)) <$>
        decodeBasicField head.1 (d.field find.2).ltype
    else (fun _ => (find.2, s.2)) <$> skipField head.1

/-! ### Each part is local -/

theorem local_read (count : Nat) : Local (read count) := by
  intro input bytes rest h
  change read count input = _ at h
  unfold read at h
  split at h
  · cases h
  · rename_i hle
    cases h
    refine ⟨input.take count, (List.take_append_drop count input).symm, fun rest' => ?_⟩
    have hlen : (input.take count).length = count := by
      rw [List.length_take]
      omega
    change read count (input.take count ++ rest') = _
    unfold read
    rw [if_neg (by rw [List.length_append]; omega), List.take_left' hlen, List.drop_left' hlen]

theorem reads_read (bytes : List UInt8) : Reads (read bytes.length) bytes bytes := by
  intro rest
  change read bytes.length (bytes ++ rest) = _
  unfold read
  rw [if_neg (by rw [List.length_append]; omega), List.take_left, List.drop_left]

theorem local_skipField (wireType : UInt32) : Local (skipField wireType) := by
  unfold skipField
  split_ifs
  · exact local_skipVarint
  · exact (local_read 8).map _
  · exact local_decodeVarint32.bind fun length => (local_read _).bind fun _ => Local.pure _
  · exact (local_read 4).map _
  · exact Local.throw _

theorem local_expecting {A : Type} (expected wireType : UInt32) {r : IStream A} (h : Local r) :
    Local (expecting expected wireType r) := by
  unfold expecting
  split_ifs
  · exact Local.throw _
  · exact h

theorem local_decVarint : Local decVarint := by
  refine local_decodeVarint.bind fun value => ?_
  split_ifs
  · exact Local.throw _
  · exact Local.pure _

theorem local_decodeBasicField (wireType : UInt32) (ltype : LType) :
    Local (decodeBasicField wireType ltype) := by
  cases ltype with
  | bool => exact local_expecting _ _ (local_decodeVarint32.map _)
  | uvarint => exact local_expecting _ _ local_decVarint
  | fixed32 => exact local_expecting _ _ ((local_read 4).map _)

theorem local_decodeStep (s : Fin d.count × Struct d) : Local (decodeStep s) := by
  refine (local_decodeVarint32.map _).bind fun head => ?_
  dsimp only
  split_ifs
  · exact Local.throw _
  · exact (local_decodeBasicField _ _).map _
  · exact (local_skipField _).map _

/-- The loop of `pb_decode_inner`. -/
def decodeLoop (d : MsgDesc) : Loop Error UInt8 (Fin d.count × Struct d) where
  step := decodeStep
  isLocal := local_decodeStep
  progress s s' h := by cases h []

/-- `pb_decode`. -/
def decode (d : MsgDesc) (stream : List UInt8) : Except Error (Struct d) :=
  Prod.snd <$> (decodeLoop d).run (⟨0, d.nonempty⟩, Struct.zero) stream

/-! ## Records -/

/-- A record: a field of the descriptor with its value, or any other field. -/
inductive Record (d : MsgDesc) where
  | known (i : Fin d.count) (value : (d.field i).ltype.Data)
  | unknown

/-- What a record does to the message. -/
def Record.apply (m : Struct d) : Record d → Struct d
  | .known i value => m.set i value
  | .unknown => m

/-- The message some records, one after the other, leave. -/
def merge (m : Struct d) (records : List (Record d)) : Struct d := records.foldl Record.apply m

/-- Some bytes write a number. -/
def Writes (bytes : List UInt8) (n : Nat) : Prop :=
  IsVarint bytes ∧ bytes.length ≤ 10 ∧ value bytes = n

/-- Some bytes write a number of 32 bits. -/
def WritesWord (bytes : List UInt8) (n : UInt32) : Prop := Writes bytes n.toNat

/-- Some bytes write a number of at most 64 bits, the lower 32 of which are given. -/
def WritesLow (bytes : List UInt8) (n : UInt32) : Prop :=
  ∃ w < 2 ^ 64, Writes bytes w ∧ w % 2 ^ 32 = n.toNat

section Wire
-- how the numbers of which nanopb uses 32 bits are written
variable (num : List UInt8 → UInt32 → Prop)

/-- The wire type of a kind of field. -/
def LType.wireType : LType → UInt32
  | .bool => wtVarint
  | .uvarint => wtVarint
  | .fixed32 => wt32bit

/-- The bytes of a field's value. -/
def ValueBytes : (ltype : LType) → ltype.Data → List UInt8 → Prop
  | .bool, v, bytes => ∃ n, num bytes n ∧ v = decide (n ≠ 0)
  | .uvarint, v, bytes => WritesWord bytes v
  | .fixed32, v, bytes => bytes.length = 4 ∧ v = fixed32 bytes

/-- The bytes of a value of some wire type. -/
def SkipBytes (wireType : UInt32) (bytes : List UInt8) : Prop :=
  wireType = wtVarint ∧ IsVarint bytes ∨ wireType = wt64bit ∧ bytes.length = 8 ∨
    (wireType = wtString ∧ ∃ length n rest, num length n ∧ bytes = length ++ rest ∧
      rest.length = n.toNat) ∨ wireType = wt32bit ∧ bytes.length = 4

/-- The bytes of a record: the tag and the wire type in one number, then the value. -/
inductive Record.WrittenBy (d : MsgDesc) : Record d → List UInt8 → Prop
  | known {i : Fin d.count} {v : (d.field i).ltype.Data} {head bytes : List UInt8} {n : UInt32} :
      num head n → n &&& 7 = (d.field i).ltype.wireType → (n >>> 3).toNat = (d.field i).tag →
      ValueBytes num _ v bytes → WrittenBy d (.known i v) (head ++ bytes)
  | unknown {head bytes : List UInt8} {n : UInt32} :
      num head n → n >>> 3 ≠ 0 → d.indexOf (n >>> 3).toNat = none →
      SkipBytes num (n &&& 7) bytes → WrittenBy d .unknown (head ++ bytes)

end Wire

/-! ### What is written is read -/

theorem reads_word {bytes : List UInt8} {n : UInt32} (h : WritesWord bytes n) :
    Reads decodeVarint32 bytes n := by
  obtain ⟨hvarint, hlen, hvalue⟩ := h
  have hreads := reads_decodeVarint32 hvarint hlen (by rw [hvalue]; exact n.toNat_lt)
  rwa [hvalue, UInt32.ofNat_toNat] at hreads

theorem reads_decVarint {bytes : List UInt8} {n : UInt32} (h : WritesWord bytes n) :
    Reads decVarint bytes n := by
  obtain ⟨hvarint, hlen, hvalue⟩ := h
  have hlt := n.toNat_lt
  have hreads := reads_decodeVarint hvarint hlen (by omega)
  have hword : (UInt64.ofNat (value bytes)).toUInt32 = n := by
    rw [← UInt32.toNat_inj, UInt64.toNat_toUInt32, UInt64.toNat_ofNat', hvalue]
    omega
  have hback : n.toUInt64 = UInt64.ofNat (value bytes) := by
    rw [← UInt64.toNat_inj, UInt32.toNat_toUInt64, UInt64.toNat_ofNat', hvalue]
    omega
  rw [← List.append_nil bytes]
  refine hreads.bind ?_
  rw [hword, hback, if_neg (not_not.mpr rfl)]
  exact Reads.pure n

theorem reads_expecting {A : Type} {expected : UInt32} {r : IStream A} {used : List UInt8} {a : A}
    (h : Reads r used a) : Reads (expecting expected expected r) used a := by
  rw [expecting, if_neg fun hne => hne.1 rfl]
  exact h

theorem reads_decodeBasicField {ltype : LType} {v : ltype.Data} {bytes : List UInt8}
    (h : ValueBytes WritesWord ltype v bytes) :
    Reads (decodeBasicField ltype.wireType ltype) bytes v := by
  cases ltype with
  | bool =>
    obtain ⟨n, hn, rfl⟩ := h
    exact reads_expecting ((reads_word hn).map _)
  | uvarint => exact reads_expecting (reads_decVarint h)
  | fixed32 =>
    obtain ⟨hlen, rfl⟩ := h
    have hreads := (reads_read bytes).map fixed32
    rw [hlen] at hreads
    exact reads_expecting hreads

theorem reads_skipField {wireType : UInt32} {bytes : List UInt8}
    (h : SkipBytes WritesWord wireType bytes) : Reads (skipField wireType) bytes () := by
  unfold skipField
  rcases h with ⟨rfl, h⟩ | ⟨rfl, h⟩ | ⟨rfl, length, n, rest, hn, rfl, h⟩ | ⟨rfl, h⟩
  · rw [if_pos rfl]
    exact fun rest => skipVarint_eq_ok_iff.mpr ⟨bytes, h, rfl, trivial⟩
  · rw [if_neg (by decide), if_pos rfl, ← h]
    exact (reads_read bytes).map _
  · rw [if_neg (by decide), if_neg (by decide), if_pos rfl, skipString]
    have hrest := reads_read rest
    rw [h] at hrest
    refine (reads_word hn).bind ?_
    rw [← List.append_nil rest]
    exact hrest.bind (Reads.pure ())
  · rw [if_neg (by decide), if_neg (by decide), if_neg (by decide), if_pos rfl, ← h]
    exact (reads_read bytes).map _

/-- **A round reads a record**, wherever the iterator stands. -/
theorem reads_decodeStep {r : Record d} {bytes : List UInt8} (h : r.WrittenBy WritesWord d bytes)
    (iter : Fin d.count) (m : Struct d) :
    ∃ iter', Reads (decodeStep (iter, m)) bytes (iter', r.apply m) := by
  cases h with
  | @known i v head bytes n hn hwire htag hvalue =>
    have hfind : d.iterFind iter (n >>> 3).toNat = (true, i) := by
      rw [d.iterFind_eq, MsgDesc.indexOf_eq_some_iff.mpr htag.symm]
      rfl
    have hne : n >>> 3 ≠ 0 := by
      intro h0
      have hpos := (d.tag_bounds _ (List.get_mem d.fields i)).1
      rw [h0] at htag
      exact absurd htag (by change 0 ≠ (d.fields.get i).tag; omega)
    refine ⟨i, ((reads_word hn).map _).bind ?_⟩
    dsimp only
    rw [if_neg hne, hfind, if_pos rfl, hwire]
    exact (reads_decodeBasicField hvalue).map _
  | @unknown head bytes n hn hne hnone hskip =>
    have hfind : d.iterFind iter (n >>> 3).toNat = (false, iter) := by
      rw [d.iterFind_eq, hnone]
      rfl
    refine ⟨iter, ((reads_word hn).map _).bind ?_⟩
    dsimp only
    rw [if_neg hne, hfind, if_neg Bool.false_ne_true]
    exact (reads_skipField hskip).map _

/-! ### What is read was written -/

theorem low_of_run {input rest : List UInt8} {n : UInt32}
    (h : decodeVarint32.run input = .ok (n, rest)) :
    ∃ bytes, WritesLow bytes n ∧ input = bytes ++ rest := by
  obtain ⟨bytes, hvarint, rfl, hlen, hlt, hn⟩ := decodeVarint32_sound h
  exact ⟨bytes, ⟨value bytes, hlt, ⟨hvarint, hlen, rfl⟩, hn.symm⟩, rfl⟩

/-- What a mapped reader returned. -/
theorem run_map_eq_ok {A B : Type} {r : IStream A} {f : A → B} {input rest : List UInt8} {b : B}
    (h : (f <$> r).run input = .ok (b, rest)) : ∃ a, r.run input = .ok (a, rest) ∧ f a = b := by
  rw [← bind_pure_comp] at h
  obtain ⟨a, mid, hrun, hpure⟩ := run_bind_eq_ok h
  cases hpure
  exact ⟨a, hrun, rfl⟩

theorem read_of_run {count : Nat} {input rest bytes : List UInt8}
    (h : (read count).run input = .ok (bytes, rest)) :
    input = bytes ++ rest ∧ bytes.length = count := by
  change read count input = _ at h
  unfold read at h
  split at h
  · cases h
  · cases h
    refine ⟨(List.take_append_drop count input).symm, ?_⟩
    rw [List.length_take]
    omega

theorem expecting_of_run {A : Type} {expected wireType : UInt32} {r : IStream A}
    {input rest : List UInt8} {a : A} (hne : wireType ≠ wtPacked)
    (h : (expecting expected wireType r).run input = .ok (a, rest)) :
    wireType = expected ∧ r.run input = .ok (a, rest) := by
  unfold expecting at h
  split at h
  · cases h
  · rename_i heq
    exact ⟨by_contra fun hw => heq ⟨hw, hne⟩, h⟩

theorem value_of_run {ltype : LType} {wireType : UInt32} {v : ltype.Data} {input rest : List UInt8}
    (hne : wireType ≠ wtPacked)
    (h : (decodeBasicField wireType ltype).run input = .ok (v, rest)) :
    wireType = ltype.wireType ∧
      ∃ bytes, ValueBytes WritesLow ltype v bytes ∧ input = bytes ++ rest := by
  cases ltype with
  | bool =>
    obtain ⟨hwire, h⟩ := expecting_of_run hne h
    obtain ⟨n, hrun, rfl⟩ := run_map_eq_ok h
    obtain ⟨bytes, hbytes, rfl⟩ := low_of_run hrun
    exact ⟨hwire, bytes, ⟨n, hbytes, rfl⟩, rfl⟩
  | uvarint =>
    obtain ⟨hwire, h⟩ := expecting_of_run hne h
    obtain ⟨w, mid, hrun, hrest⟩ := run_bind_eq_ok h
    obtain ⟨bytes, hvarint, rfl, hlen, -, hw⟩ := decodeVarint_eq_ok_iff.mp hrun
    split at hrest
    · cases hrest
    · rename_i hback
      cases hrest
      refine ⟨hwire, bytes, ⟨hvarint, hlen, ?_⟩, rfl⟩
      rw [← hw, ← UInt32.toNat_toUInt64, not_not.mp hback]
  | fixed32 =>
    obtain ⟨hwire, h⟩ := expecting_of_run hne h
    obtain ⟨bytes, hrun, rfl⟩ := run_map_eq_ok h
    obtain ⟨rfl, hlen⟩ := read_of_run hrun
    exact ⟨hwire, bytes, ⟨hlen, rfl⟩, rfl⟩

theorem skip_of_run {wireType : UInt32} {input rest : List UInt8}
    (h : (skipField wireType).run input = .ok ((), rest)) :
    ∃ bytes, SkipBytes WritesLow wireType bytes ∧ input = bytes ++ rest := by
  unfold skipField at h
  split at h
  · obtain ⟨bytes, hbytes, rfl, -⟩ := skipVarint_eq_ok_iff.mp h
    exact ⟨bytes, Or.inl ⟨‹_›, hbytes⟩, rfl⟩
  · split at h
    · obtain ⟨bytes, hrun, -⟩ := run_map_eq_ok h
      obtain ⟨rfl, hlen⟩ := read_of_run hrun
      exact ⟨bytes, Or.inr (Or.inl ⟨‹_›, hlen⟩), rfl⟩
    · split at h
      · obtain ⟨n, mid, hrun, htail⟩ := run_bind_eq_ok h
        obtain ⟨length, hlow, rfl⟩ := low_of_run hrun
        obtain ⟨skipped, mid', hread, hpure⟩ := run_bind_eq_ok htail
        obtain ⟨rfl, hlen⟩ := read_of_run hread
        cases hpure
        exact ⟨length ++ skipped, Or.inr (Or.inr (Or.inl ⟨‹_›, length, n, skipped, hlow, rfl, hlen⟩)),
          (List.append_assoc ..).symm⟩
      · split at h
        · obtain ⟨bytes, hrun, -⟩ := run_map_eq_ok h
          obtain ⟨rfl, hlen⟩ := read_of_run hrun
          exact ⟨bytes, Or.inr (Or.inr (Or.inr ⟨‹_›, hlen⟩)), rfl⟩
        · cases h

/-- A tag's lowest three bits are never those of a packed field. -/
theorem and_seven_ne_packed (n : UInt32) : n &&& 7 ≠ wtPacked := by
  intro h
  have hle : (n &&& 7).toNat ≤ 7 := by
    rw [UInt32.toNat_and]
    exact Nat.and_le_right
  rw [h] at hle
  exact absurd hle (by decide)

/-- **A round that succeeds reads a record.** -/
theorem record_of_step {s s' : Fin d.count × Struct d} {bytes : List UInt8}
    (h : Reads (decodeStep s) bytes s') :
    ∃ r : Record d, r.WrittenBy WritesLow d bytes ∧ s'.2 = r.apply s.2 := by
  have hrun := h []
  rw [List.append_nil] at hrun
  obtain ⟨head, mid, hhead, hbody⟩ := run_bind_eq_ok hrun
  obtain ⟨n, hn, rfl⟩ := run_map_eq_ok hhead
  obtain ⟨headBytes, hlow, rfl⟩ := low_of_run hn
  dsimp only at hbody
  split at hbody
  · cases hbody
  · rename_i hne
    cases hindex : d.indexOf (n >>> 3).toNat with
    | some i =>
      have hfind : d.iterFind s.1 (n >>> 3).toNat = (true, i) := by
        rw [d.iterFind_eq, hindex]
        rfl
      rw [hfind, if_pos rfl] at hbody
      obtain ⟨v, hvalue, rfl⟩ := run_map_eq_ok hbody
      obtain ⟨hwire, bytes, hbytes, rfl⟩ := value_of_run (and_seven_ne_packed n) hvalue
      rw [List.append_nil]
      exact ⟨.known i v, .known hlow hwire (MsgDesc.indexOf_eq_some_iff.mp hindex).symm hbytes, rfl⟩
    | none =>
      have hfind : d.iterFind s.1 (n >>> 3).toNat = (false, s.1) := by
        rw [d.iterFind_eq, hindex]
        rfl
      rw [hfind, if_neg Bool.false_ne_true] at hbody
      obtain ⟨u, hskip, rfl⟩ := run_map_eq_ok hbody
      obtain ⟨bytes, hbytes, rfl⟩ := skip_of_run hskip
      rw [List.append_nil]
      exact ⟨.unknown, .unknown hlow hne hindex hbytes, rfl⟩

/-! ## Payloads -/

/-- Some bytes are those of the records, one after the other. -/
inductive Payload (num : List UInt8 → UInt32 → Prop) : List (Record d) → List UInt8 → Prop
  | nil : Payload num [] []
  | cons {r : Record d} {records : List (Record d)} {bytes rest : List UInt8} :
      r.WrittenBy num d bytes → Payload num records rest →
      Payload num (r :: records) (bytes ++ rest)

theorem steps_of_payload {records : List (Record d)} {payload : List UInt8}
    (h : Payload WritesWord records payload) (iter : Fin d.count) (m : Struct d) :
    ∃ iter', (decodeLoop d).Steps (iter, m) payload (iter', merge m records) := by
  induction h generalizing iter m with
  | nil => exact ⟨iter, Loop.Steps.nil _⟩
  | cons hr _ ih =>
    obtain ⟨iter', hread⟩ := reads_decodeStep hr iter m
    obtain ⟨iter'', hsteps⟩ := ih iter' _
    exact ⟨iter'', Loop.Steps.cons hread hsteps⟩

theorem payload_of_steps {s s' : Fin d.count × Struct d} {payload : List UInt8}
    (h : (decodeLoop d).Steps s payload s') :
    ∃ records : List (Record d), Payload WritesLow records payload ∧ s'.2 = merge s.2 records := by
  induction h with
  | nil s => exact ⟨[], Payload.nil, rfl⟩
  | cons hread _ ih =>
    obtain ⟨r, hr, hs'⟩ := record_of_step hread
    obtain ⟨records, hpayload, hmerge⟩ := ih
    refine ⟨r :: records, Payload.cons hr hpayload, ?_⟩
    rw [hmerge, hs']
    rfl

theorem decode_eq_ok_iff {payload : List UInt8} {m : Struct d} :
    decode d payload = .ok m ↔
      ∃ iter, (decodeLoop d).Steps (⟨0, d.nonempty⟩, Struct.zero) payload (iter, m) := by
  simp only [← Loop.run_eq_ok_iff]
  rw [decode]
  cases (decodeLoop d).run (⟨0, d.nonempty⟩, Struct.zero) payload with
  | error e =>
    constructor
    · intro h
      cases h
    · rintro ⟨iter, ⟨⟩⟩
  | ok s =>
    constructor
    · intro h
      cases h
      exact ⟨s.1, rfl⟩
    · rintro ⟨iter, ⟨⟩⟩
      rfl

/-- **A payload is decoded by its records**, in whatever order and with whatever
unknown fields between them. -/
theorem decode_of_records {records : List (Record d)} {payload : List UInt8}
    (h : Payload WritesWord records payload) :
    decode d payload = .ok (merge Struct.zero records) :=
  decode_eq_ok_iff.mpr (steps_of_payload h _ _)

/-- **What is accepted is a sequence of records.** -/
theorem records_of_decode {payload : List UInt8} {m : Struct d} (h : decode d payload = .ok m) :
    ∃ records : List (Record d), Payload WritesLow records payload ∧ m = merge Struct.zero records :=
  let ⟨_, hsteps⟩ := decode_eq_ok_iff.mp h
  payload_of_steps hsteps

/-- Two payloads, one after the other: the second adds its records to what the first
left. -/
theorem decode_append {payload payload' : List UInt8} {m : Struct d}
    (h : decode d payload = .ok m) {records : List (Record d)}
    (h' : Payload WritesWord records payload') :
    decode d (payload ++ payload') = .ok (merge m records) := by
  obtain ⟨iter, hsteps⟩ := decode_eq_ok_iff.mp h
  obtain ⟨iter', hsteps'⟩ := steps_of_payload h' iter m
  exact decode_eq_ok_iff.mpr ⟨iter', hsteps.append hsteps'⟩

/-- **What nanopb reads.**  A payload of records adds them to what the payload before it
left, and a payload that is accepted is one of records. -/
theorem decode_spec (d : MsgDesc) :
    (∀ (payload payload' : List UInt8) (m : Struct d) (records : List (Record d)),
      decode d payload = .ok m → Payload WritesWord records payload' →
        decode d (payload ++ payload') = .ok (merge m records)) ∧
    ∀ (payload : List UInt8) (m : Struct d), decode d payload = .ok m →
      ∃ records : List (Record d), Payload WritesLow records payload ∧
        m = merge Struct.zero records :=
  ⟨fun _ _ _ _ h h' => decode_append h h', fun _ _ h => records_of_decode h⟩

end KartStack.Nanopb
