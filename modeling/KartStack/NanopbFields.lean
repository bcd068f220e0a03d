import KartStack.NanopbVarint
import Mathlib.Data.List.Sort

/-! # Message descriptors and the field iterator

`pb_common.c` finds the field of a tag starting from the field it found last: on
through the descriptor, around its end, and up to the field it started from.
Descriptors are in the order of their tags, so it finds a field exactly if there is
one (`iterFind_eq`), whatever field it starts from.
-/
namespace KartStack.Nanopb

/-- `PB_LTYPE` of the fields: `bool`; `uint32`; `float`. -/
inductive LType where
  | bool
  | uvarint
  | fixed32
  deriving DecidableEq, Repr

/-- What the memory of a field holds; a `float` is given by its 32 bits. -/
abbrev LType.Data : LType → Type
  | .bool => Bool
  | .uvarint => UInt32
  | .fixed32 => UInt32

instance (ltype : LType) : DecidableEq ltype.Data :=
  match ltype with
  | .bool => inferInstanceAs (DecidableEq Bool)
  | .uvarint => inferInstanceAs (DecidableEq UInt32)
  | .fixed32 => inferInstanceAs (DecidableEq UInt32)

/-- A field of a descriptor: static, and singular. -/
structure FieldInfo where
  tag : Nat
  ltype : LType
  deriving DecidableEq, Repr

/-- `pb_msgdesc_t` of a message with some field. -/
structure MsgDesc where
  fields : List FieldInfo
  nonempty : 0 < fields.length := by decide
  ascending : (fields.map FieldInfo.tag).SortedLT := by decide
  tag_bounds : ∀ f ∈ fields, 1 ≤ f.tag ∧ f.tag < 2 ^ 16 := by decide

namespace MsgDesc
variable (d : MsgDesc)

/-- `field_count`. -/
def count : Nat := d.fields.length

/-- The field at an index. -/
def field (i : Fin d.count) : FieldInfo := d.fields.get i

/-- `largest_tag`: the tag of the last field. -/
def largestTag : Nat := (d.field ⟨d.count - 1, Nat.sub_lt d.nonempty Nat.one_pos⟩).tag

/-- `advance_iterator`. -/
def advance (index : Nat) : Fin d.count :=
  if h : index + 1 < d.count then ⟨index + 1, h⟩ else ⟨0, d.nonempty⟩

theorem advance_val (index : Nat) :
    (d.advance index : Nat) = if index + 1 < d.count then index + 1 else 0 := by
  unfold advance
  split <;> rfl

/-- How far the iterator is from `start`, on through the descriptor and around its end. -/
def distance (start : Fin d.count) (index : Nat) : Nat :=
  if index < start then start - index else d.count + 1 - index + start

theorem distance_advance {start : Fin d.count} {index : Fin (d.count + 1)}
    (h : d.advance index ≠ start) : d.distance start (d.advance index) < d.distance start index := by
  have hne : (d.advance index : Nat) ≠ start := fun he => h (Fin.ext he)
  have hval := d.advance_val index
  unfold distance
  split at hval <;> split <;> split <;> omega

/-- The loop of `pb_field_iter_find`, which ends at `start`: the lowest six bits of a
tag are compared first. -/
def searchFrom (tag : Nat) (start : Fin d.count) (index : Fin (d.count + 1)) :
    Bool × Fin d.count :=
  let iter := d.advance index
  if (d.field iter).tag % 64 = tag % 64 ∧ (d.field iter).tag = tag then (true, iter)
  else if iter = start then (false, iter)
  else searchFrom tag start iter.castSucc
termination_by d.distance start index
decreasing_by exact d.distance_advance ‹_›

/-- `pb_field_iter_find`. -/
def iterFind (iter : Fin d.count) (tag : Nat) : Bool × Fin d.count :=
  if (d.field iter).tag = tag then (true, iter)
  else if d.largestTag < tag then (false, iter)
  else d.searchFrom tag iter (if tag < (d.field iter).tag then Fin.last d.count else iter.castSucc)

/-- The field that has a tag, if any does. -/
def indexOf (tag : Nat) : Option (Fin d.count) :=
  (List.finRange d.count).find? fun i => (d.field i).tag = tag

variable {d}

theorem tag_lt {i j : Fin d.count} (h : i < j) : (d.field i).tag < (d.field j).tag := by
  have hpair := List.pairwise_map.mp d.ascending.pairwise
  exact List.pairwise_iff_get.mp hpair i j h

theorem tag_inj {i j : Fin d.count} (h : (d.field i).tag = (d.field j).tag) : i = j := by
  rcases lt_trichotomy i j with hij | hij | hij
  · exact absurd h (tag_lt hij).ne
  · exact hij
  · exact absurd h (tag_lt hij).ne'

theorem lt_of_tag_lt {i j : Fin d.count} (h : (d.field i).tag < (d.field j).tag) : i < j := by
  by_contra hle
  rcases lt_or_eq_of_le (not_lt.mp hle) with hji | hji
  · have := tag_lt hji
    omega
  · subst hji
    omega

theorem tag_le_largest (i : Fin d.count) : (d.field i).tag ≤ d.largestTag := by
  rcases lt_or_eq_of_le (Nat.le_sub_one_of_lt i.isLt) with h | h
  · exact (tag_lt (i := i) (j := ⟨d.count - 1, _⟩) h).le
  · rw [largestTag]
    exact le_of_eq (congrArg (fun i => (d.field i).tag) (Fin.ext h))

theorem indexOf_eq_some_iff {tag : Nat} {i : Fin d.count} :
    d.indexOf tag = some i ↔ (d.field i).tag = tag := by
  constructor
  · intro h
    simpa using List.find?_some h
  · rintro rfl
    cases hfind : d.indexOf (d.field i).tag with
    | none => simpa using List.find?_eq_none.mp hfind i (List.mem_finRange i)
    | some j =>
      have hj : (d.field j).tag = (d.field i).tag := by simpa using List.find?_some hfind
      rw [tag_inj hj]

theorem indexOf_eq_none_iff {tag : Nat} :
    d.indexOf tag = none ↔ ∀ i, (d.field i).tag ≠ tag := by
  rw [indexOf, List.find?_eq_none]
  simp

theorem advance_of_lt {index : Nat} {i : Fin d.count} (h : index < i) :
    (d.advance index : Nat) = index + 1 := by
  rw [advance_val, if_pos (by omega)]

/-- The search gets to the field with the tag unless it meets the start before. -/
theorem searchFrom_found {i start : Fin d.count} (n : Nat) {index : Fin (d.count + 1)}
    (hn : index + n + 1 = i) (hstart : ∀ j : Fin d.count, (index : Nat) < j → j < i → j ≠ start) :
    d.searchFrom (d.field i).tag start index = (true, i) := by
  have hadv : (d.advance index : Nat) = index + 1 := advance_of_lt (i := i) (by omega)
  rw [searchFrom]
  induction n generalizing index with
  | zero =>
    have heq : d.advance index = i := Fin.ext (by omega)
    rw [heq, if_pos ⟨rfl, rfl⟩]
  | succ n ih =>
    have hlt : d.advance index < i := Fin.lt_def.mpr (by omega)
    have hne := (tag_lt hlt).ne
    rw [if_neg fun h => hne h.2, if_neg (hstart _ (by omega) hlt), searchFrom]
    refine ih (by rw [Fin.val_castSucc]; omega) (fun j hj => hstart j ?_)
      (advance_of_lt (i := i) (by rw [Fin.val_castSucc]; omega))
    rw [Fin.val_castSucc] at hj
    omega

/-- Without a field that has the tag, the search gets to the start. -/
theorem searchFrom_absent {tag : Nat} {start : Fin d.count} (h : ∀ i, (d.field i).tag ≠ tag)
    (index : Fin (d.count + 1)) : d.searchFrom tag start index = (false, start) := by
  induction index using searchFrom.induct d tag start with
  | case1 index iter hmatch => exact absurd hmatch.2 (h _)
  | case2 index iter hmatch heq =>
    rw [searchFrom, if_neg fun hm => h _ hm.2, if_pos heq]
    exact congrArg _ heq
  | case3 index iter hmatch hne ih =>
    rw [searchFrom, if_neg fun hm => h _ hm.2, if_neg hne]
    exact ih

/-- **The iterator finds the field of a tag** wherever it stands; where there is none
it stays. -/
theorem iterFind_eq (iter : Fin d.count) (tag : Nat) :
    d.iterFind iter tag = (d.indexOf tag).elim (false, iter) fun i => (true, i) := by
  rw [iterFind]
  cases hfind : d.indexOf tag with
  | none =>
    have habsent := indexOf_eq_none_iff.mp hfind
    rw [if_neg (habsent iter), searchFrom_absent habsent, ite_self]
    rfl
  | some i =>
    obtain rfl := indexOf_eq_some_iff.mp hfind
    change _ = (true, i)
    rw [if_neg (not_lt.mpr (tag_le_largest i))]
    split
    · rename_i heq
      rw [tag_inj heq]
    · rename_i hne
      split
      · -- the field comes before: on from the end of the descriptor
        rename_i hlt
        have hi := lt_of_tag_lt hlt
        rw [searchFrom]
        have hzero : (d.advance (Fin.last d.count) : Nat) = 0 := by
          rw [advance_val, if_neg (by rw [Fin.val_last]; omega)]
        by_cases h0 : d.advance (Fin.last d.count) = i
        · rw [h0, if_pos ⟨rfl, rfl⟩]
        · have hpos : d.advance (Fin.last d.count) < i := by
            refine lt_of_le_of_ne (Fin.le_def.mpr (by omega)) h0
          rw [if_neg fun h => (tag_lt hpos).ne h.2, if_neg (hpos.trans hi).ne]
          refine searchFrom_found (i - 1) ?_ fun j _ hj => (hj.trans hi).ne
          rw [Fin.val_castSucc, hzero]
          have := Fin.lt_def.mp hpos
          omega
      · -- the field comes after
        have hi := lt_of_tag_lt (lt_of_le_of_ne (not_lt.mp ‹_›) hne)
        refine searchFrom_found (i - iter - 1) ?_ fun j hj _ => ?_
        · rw [Fin.val_castSucc]
          have := Fin.lt_def.mp hi
          omega
        · exact (Fin.lt_def.mpr hj : iter < j).ne'

end MsgDesc
end KartStack.Nanopb
