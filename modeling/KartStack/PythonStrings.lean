import Mathlib.Data.List.Basic
import Mathlib.Data.List.DropRight

/-! # Text in Python

A `str` is the list of its characters.  The methods of `str` that the programs call,
with the character tables they go by, and the parts of a file name that `pathlib` tells
apart: a name is its stem and its suffix (`stem_append_suffix`), and what is put in front
of a suffix is the stem of the name made so (`stem_append`, `suffix_append`).
-/
namespace KartStack.Python

/-- `str`. -/
abbrev Str := List Char

/-! ## White space -/

/-- `str.isspace`, of one character. -/
def isSpace (c : Char) : Bool :=
  let n := c.toNat
  (0x09 ≤ n && n ≤ 0x0d) || (0x1c ≤ n && n ≤ 0x20) || n == 0x85 || n == 0xa0 || n == 0x1680 ||
    (0x2000 ≤ n && n ≤ 0x200a) || n == 0x2028 || n == 0x2029 || n == 0x202f || n == 0x205f ||
    n == 0x3000

/-- A character that ends a line. -/
def isLineBreak (c : Char) : Bool :=
  let n := c.toNat
  (0x0a ≤ n && n ≤ 0x0d) || (0x1c ≤ n && n ≤ 0x1e) || n == 0x85 || n == 0x2028 || n == 0x2029

/-- `s.strip()`. -/
def strip (s : Str) : Str := ((s.dropWhile isSpace).reverse.dropWhile isSpace).reverse

/-- The words of a text; the first argument is the one begun, backwards. -/
def wordsFrom : Str → Str → List Str
  | [], [] => []
  | word, [] => [word.reverse]
  | word, c :: s =>
    if isSpace c then
      if word = [] then wordsFrom [] s else word.reverse :: wordsFrom [] s
    else wordsFrom (c :: word) s

/-- `s.split()`. -/
def words (s : Str) : List Str := wordsFrom [] s

/-- The lines of a text; the first argument is the one begun, backwards. -/
def linesFrom : Str → Str → List Str
  | [], [] => []
  | line, [] => [line.reverse]
  | line, '\r' :: '\n' :: s => line.reverse :: linesFrom [] s
  | line, c :: s =>
    if isLineBreak c then line.reverse :: linesFrom [] s else linesFrom (c :: line) s

/-- `s.splitlines()`. -/
def splitLines (s : Str) : List Str := linesFrom [] s

/-- `sep.join(parts)`. -/
def join (sep : Str) (parts : List Str) : Str := sep.intercalate parts

/-! ## Numbers -/

/-- The zeros of the decimal digits of all scripts; the other nine follow each. -/
def digitZeros : List Nat := [
  0x30, 0x660, 0x6f0, 0x7c0, 0x966, 0x9e6, 0xa66, 0xae6, 0xb66, 0xbe6, 0xc66, 0xce6, 0xd66,
  0xde6, 0xe50, 0xed0, 0xf20, 0x1040, 0x1090, 0x17e0, 0x1810, 0x1946, 0x19d0, 0x1a80, 0x1a90,
  0x1b50, 0x1bb0, 0x1c40, 0x1c50, 0xa620, 0xa8d0, 0xa900, 0xa9d0, 0xa9f0, 0xaa50, 0xabf0, 0xff10,
  0x104a0, 0x10d30, 0x11066, 0x110f0, 0x11136, 0x111d0, 0x112f0, 0x11450, 0x114d0, 0x11650,
  0x116c0, 0x11730, 0x118e0, 0x11950, 0x11c50, 0x11d50, 0x11da0, 0x16a60, 0x16ac0, 0x16b50,
  0x1d7ce, 0x1d7d8, 0x1d7e2, 0x1d7ec, 0x1d7f6, 0x1e140, 0x1e2f0, 0x1e950, 0x1fbf0]

/-- The value of a decimal digit. -/
def digitValue (c : Char) : Option Nat :=
  (digitZeros.find? fun z => z ≤ c.toNat && c.toNat < z + 10).map (c.toNat - ·)

/-- Digits, with single underscores between them; the flag says whether one was just read. -/
def readDigits (n : Nat) (afterDigit : Bool) : Str → Option Nat
  | [] => if afterDigit then some n else none
  | c :: s =>
    if c = '_' then
      if afterDigit then readDigits n false s else none
    else (digitValue c).bind fun d => readDigits (10 * n + d) true s

/-- `int(s)`; it fails where Python raises a `ValueError`. -/
def readInt (s : Str) : Option Int :=
  match strip s with
  | '-' :: ds => (readDigits 0 false ds).map fun n => -(n : Int)
  | '+' :: ds => (readDigits 0 false ds).map Int.ofNat
  | ds => (readDigits 0 false ds).map Int.ofNat

/-- `str(n)`. -/
def decimal (n : Nat) : Str := Nat.toDigits 10 n

theorem decimal_inj {m n : Nat} (h : decimal m = decimal n) : m = n := by
  have hback := congrArg (Nat.ofDigitChars 10 · 0) h
  rwa [decimal, decimal, Nat.ofDigitChars_ten_toDigits, Nat.ofDigitChars_ten_toDigits] at hback

/-- `str(n)`, of any integer. -/
def decimalInt (n : Int) : Str := if n < 0 then '-' :: decimal n.natAbs else decimal n.natAbs

theorem isDigit_iff {c : Char} : c.isDigit = true ↔ 48 ≤ c.toNat ∧ c.toNat ≤ 57 := by
  rw [Char.isDigit, Bool.and_eq_true, decide_eq_true_eq, decide_eq_true_eq]
  exact Iff.rfl

theorem digitValue_of_isDigit {c : Char} (h : c.isDigit = true) :
    digitValue c = some (c.toNat - 48) := by
  have hc := isDigit_iff.mp h
  have hfirst : (48 ≤ c.toNat && c.toNat < 48 + 10) = true := by
    rw [Bool.and_eq_true, decide_eq_true_eq, decide_eq_true_eq]
    omega
  have hfind : digitZeros.find? (fun z => z ≤ c.toNat && c.toNat < z + 10) = some 48 :=
    List.find?_cons_of_pos (by simpa using hfirst)
  rw [digitValue, hfind]
  rfl

/-- A digit is neither white space nor a sign. -/
theorem isSpace_of_isDigit {c : Char} (h : c.isDigit = true) : isSpace c = false := by
  have hc := isDigit_iff.mp h
  simp only [isSpace, Bool.or_eq_false_iff, Bool.and_eq_false_iff, decide_eq_false_iff_not,
    beq_eq_false_iff_ne]
  omega

theorem decimal_digits (n : Nat) : ∀ c ∈ decimal n, c.isDigit = true := fun _ hc =>
  Nat.isDigit_of_mem_toDigits (by decide) (by decide) hc

theorem decimal_ne_nil (n : Nat) : decimal n ≠ [] := Nat.toDigits_ne_nil

theorem readDigits_digits {cs : Str} (h : ∀ c ∈ cs, c.isDigit = true) (n : Nat) {after : Bool}
    (hsome : after = true ∨ cs ≠ []) :
    readDigits n after cs = some (Nat.ofDigitChars 10 cs n) := by
  induction cs generalizing n after with
  | nil =>
    obtain rfl := hsome.resolve_right fun hne => hne rfl
    rfl
  | cons c cs ih =>
    obtain ⟨hc, hcs⟩ := List.forall_mem_cons.mp h
    have hline : c ≠ '_' := by
      rintro rfl
      cases hc
    rw [readDigits, if_neg hline, digitValue_of_isDigit hc, Option.bind_some,
      ih hcs _ (Or.inl rfl), Nat.ofDigitChars_cons]
    rfl

theorem readDigits_decimal (n : Nat) : readDigits 0 false (decimal n) = some n := by
  rw [readDigits_digits (decimal_digits n) 0 (Or.inr (decimal_ne_nil n)), decimal,
    Nat.ofDigitChars_ten_toDigits]

/-- What neither begins nor ends with white space is not stripped. -/
theorem strip_of_ends {s : Str} (hhead : ∀ c ∈ s.head?, isSpace c = false)
    (hlast : ∀ c ∈ s.getLast?, isSpace c = false) : strip s = s := by
  have hdrop : ∀ {t : Str}, (∀ c ∈ t.head?, isSpace c = false) → t.dropWhile isSpace = t := by
    intro t ht
    cases t with
    | nil => rfl
    | cons c t => exact List.dropWhile_cons_of_neg (by simp [ht c rfl])
  rw [strip, hdrop hhead, hdrop, List.reverse_reverse]
  rwa [List.head?_reverse]

theorem strip_of_not_space {s : Str} (h : ∀ c ∈ s, isSpace c = false) : strip s = s :=
  strip_of_ends (fun c hc => h c (List.mem_of_mem_head? hc))
    fun c hc => h c (List.mem_of_getLast? hc)

theorem rdropWhile_append_cons {p : Char → Bool} {c : Char} (hc : p c = false) (a b : Str) :
    (a ++ c :: b).rdropWhile p = a ++ c :: b.rdropWhile p := by
  have hstay : (c :: a.reverse).dropWhile p = c :: a.reverse :=
    List.dropWhile_cons_of_neg (by simp [hc])
  have hrev : (a ++ c :: b).reverse = b.reverse ++ c :: a.reverse := by simp
  rw [List.rdropWhile, List.rdropWhile, hrev, List.dropWhile_append, hstay]
  split
  · rename_i hempty
    simp [List.isEmpty_iff.mp hempty]
  · simp

/-- What stands before a character that is no white space is not stripped off with the end. -/
theorem strip_append_cons {c : Char} {a : Str} (hc : isSpace c = false)
    (ha : ∀ x ∈ a.head?, isSpace x = false) (b : Str) :
    strip (a ++ c :: b) = a ++ c :: b.rdropWhile isSpace := by
  have hdrop : (a ++ c :: b).dropWhile isSpace = a ++ c :: b := by
    cases a with
    | nil => exact List.dropWhile_cons_of_neg (by simp [hc])
    | cons x a => exact List.dropWhile_cons_of_neg (by simp [ha x rfl])
  have hstrip : strip (a ++ c :: b) = ((a ++ c :: b).dropWhile isSpace).rdropWhile isSpace := rfl
  rw [hstrip, hdrop, rdropWhile_append_cons hc]

theorem strip_rdropWhile (s : Str) : strip (s.rdropWhile isSpace) = strip s := by
  have hsplit := List.takeWhile_append_dropWhile (p := isSpace) (l := s)
  cases hdrop : s.dropWhile isSpace with
  | nil =>
    have hall := List.dropWhile_eq_nil_iff.mp hdrop
    have hnil : s.rdropWhile isSpace = [] := List.rdropWhile_eq_nil_iff.mpr hall
    have hstrip : strip s = ((s.dropWhile isSpace).reverse.dropWhile isSpace).reverse := rfl
    rw [hnil, hstrip, hdrop]
    rfl
  | cons c rest =>
    have hc : isSpace c = false := by
      have hhead := List.head?_dropWhile_not isSpace s
      rw [hdrop] at hhead
      simpa using hhead
    have hspaces : ∀ x ∈ s.takeWhile isSpace, isSpace x = true := fun x hx =>
      List.mem_takeWhile_imp hx
    have hdropOf : ∀ t, (s.takeWhile isSpace ++ c :: t).dropWhile isSpace = c :: t := fun t => by
      rw [List.dropWhile_append_of_pos hspaces]
      exact List.dropWhile_cons_of_neg (by simp [hc])
    have hright : (s.takeWhile isSpace ++ c :: rest).rdropWhile isSpace =
        s.takeWhile isSpace ++ c :: rest.rdropWhile isSpace := rdropWhile_append_cons hc _ _
    have hcons : (c :: rest).rdropWhile isSpace = c :: rest.rdropWhile isSpace :=
      rdropWhile_append_cons hc [] rest
    rw [hdrop] at hsplit
    have hstrip : ∀ t, strip t = (t.dropWhile isSpace).rdropWhile isSpace := fun _ => rfl
    rw [← hsplit, hright, hstrip, hstrip, hdropOf, hdropOf, ← hcons, List.rdropWhile_idempotent]

/-- An end that is no white space stays. -/
theorem suffix_strip {t s : Str} (h : t <:+ s) (hhead : ∀ c ∈ t.head?, isSpace c = false)
    (hlast : ∀ c ∈ t.getLast?, isSpace c = false) : t <:+ strip s := by
  obtain ⟨a, rfl⟩ := h
  have hdrop : ∃ a', (a ++ t).dropWhile isSpace = a' ++ t := by
    rw [List.dropWhile_append]
    split
    · cases t with
      | nil => exact ⟨[], rfl⟩
      | cons x t => exact ⟨[], List.dropWhile_cons_of_neg (by simp [hhead x rfl])⟩
    · exact ⟨_, rfl⟩
  obtain ⟨a', ha'⟩ := hdrop
  have hstrip : strip (a ++ t) = ((a ++ t).dropWhile isSpace).rdropWhile isSpace := rfl
  rw [hstrip, ha']
  rcases List.eq_nil_or_concat t with rfl | ⟨u, x, rfl⟩
  · exact List.nil_suffix
  · rw [List.concat_eq_append] at hlast ⊢
    have hx : isSpace x = false := hlast x (by simp)
    rw [← List.append_assoc, rdropWhile_append_cons hx]
    exact ⟨a', by simp⟩

theorem decimal_not_space (n : Nat) : ∀ c ∈ decimal n, isSpace c = false := fun c hc =>
  isSpace_of_isDigit (decimal_digits n c hc)

theorem readInt_decimal (n : Nat) : readInt (decimal n) = some (n : Int) := by
  have hdigits := decimal_digits n
  rw [readInt, strip_of_not_space (decimal_not_space n)]
  cases hcs : decimal n with
  | nil => exact absurd hcs (decimal_ne_nil n)
  | cons c cs =>
    have hc : c.isDigit = true := hdigits c (hcs ▸ List.mem_cons_self ..)
    have hminus : c ≠ '-' := by
      rintro rfl
      cases hc
    have hplus : c ≠ '+' := by
      rintro rfl
      cases hc
    split
    · rename_i heq
      exact absurd (List.cons.inj heq).1 hminus
    · rename_i heq
      exact absurd (List.cons.inj heq).1 hplus
    · rw [← hcs, readDigits_decimal]
      rfl

theorem decimalInt_not_space (n : Int) : ∀ c ∈ decimalInt n, isSpace c = false := by
  unfold decimalInt
  split
  · exact List.forall_mem_cons.mpr ⟨by decide, decimal_not_space _⟩
  · exact decimal_not_space _

theorem decimalInt_ne_nil (n : Int) : decimalInt n ≠ [] := by
  unfold decimalInt
  split
  · exact List.cons_ne_nil _ _
  · exact decimal_ne_nil _

/-- **An integer that was written is read back.** -/
theorem readInt_decimalInt (n : Int) : readInt (decimalInt n) = some n := by
  by_cases hneg : n < 0
  · have htext : decimalInt n = '-' :: decimal n.natAbs := if_pos hneg
    have hstrip := strip_of_not_space (decimalInt_not_space n)
    rw [htext] at hstrip
    have hback : -(n.natAbs : Int) = n := by omega
    rw [htext, readInt, hstrip]
    simp only [readDigits_decimal]
    exact congrArg some hback
  · have htext : decimalInt n = decimal n.natAbs := if_neg hneg
    rw [htext, readInt_decimal]
    congr 1
    omega

theorem decimalInt_inj {m n : Int} (h : decimalInt m = decimalInt n) : m = n := by
  have hback := congrArg readInt h
  rw [readInt_decimalInt, readInt_decimalInt] at hback
  exact Option.some.inj hback

/-- Digits and underscores, that is what numbers are made of. -/
theorem digit_of_readDigits {n m : Nat} {after : Bool} {s : Str}
    (h : readDigits n after s = some m) : ∀ c ∈ s, c = '_' ∨ digitValue c ≠ none := by
  induction s generalizing n after with
  | nil => exact List.forall_mem_nil _
  | cons c s ih =>
    rw [readDigits] at h
    split at h
    · rename_i hline
      split at h
      · exact List.forall_mem_cons.mpr ⟨Or.inl hline, ih h⟩
      · cases h
    · obtain ⟨d, hd, hrest⟩ := Option.bind_eq_some_iff.mp h
      exact List.forall_mem_cons.mpr ⟨Or.inr (by rw [hd]; simp), ih hrest⟩

/-- What ends in a letter is no integer. -/
theorem readInt_eq_none {s : Str} {c : Char} (hlast : (strip s).getLast? = some c)
    (hsign : c ≠ '-' ∧ c ≠ '+') (hc : c ≠ '_' ∧ digitValue c = none) : readInt s = none := by
  have hfail : ∀ {ds : Str} {n : Nat}, c ∈ ds → readDigits 0 false ds ≠ some n := by
    intro ds n hmem h
    obtain hline | hdigit := digit_of_readDigits h c hmem
    · exact hc.1 hline
    · exact hdigit hc.2
  have hnone : ∀ {ds : Str}, c ∈ ds → readDigits 0 false ds = none := fun hmem =>
    Option.eq_none_iff_forall_ne_some.mpr fun _ => hfail hmem
  have hmem := List.mem_of_getLast? hlast
  rw [readInt]
  split
  · rename_i heq
    rw [heq] at hmem
    rw [hnone ((List.mem_cons.mp hmem).resolve_left hsign.1)]
    rfl
  · rename_i heq
    rw [heq] at hmem
    rw [hnone ((List.mem_cons.mp hmem).resolve_left hsign.2)]
    rfl
  · rw [hnone hmem]
    rfl

/-! ## Lines and words -/

theorem isLineBreak_of_not_space {c : Char} (h : isSpace c = false) : isLineBreak c = false := by
  simp only [isSpace, isLineBreak, Bool.or_eq_false_iff, Bool.and_eq_false_iff,
    decide_eq_false_iff_not, beq_eq_false_iff_ne] at h ⊢
  omega

theorem linesFrom_of_not_break {s : Str} (h : ∀ c ∈ s, isLineBreak c = false) (begun : Str) :
    linesFrom begun s = linesFrom (s.reverse ++ begun) [] := by
  induction s generalizing begun with
  | nil => rfl
  | cons c s ih =>
    obtain ⟨hc, hs⟩ := List.forall_mem_cons.mp h
    have hstep : linesFrom begun (c :: s) = linesFrom (c :: begun) s := by
      rw [linesFrom, hc, if_neg Bool.false_ne_true]
      rintro _ rfl
      cases hc
    rw [hstep, ih hs, List.reverse_cons, List.append_assoc]
    rfl

/-- A text with no end of a line in it is one line. -/
theorem splitLines_of_not_break {s : Str} (h : ∀ c ∈ s, isLineBreak c = false) (hne : s ≠ []) :
    splitLines s = [s] := by
  have hbegun : s.reverse ++ [] ≠ [] := by simpa using hne
  have hback : (s.reverse ++ []).reverse = s := by simp
  rw [splitLines, linesFrom_of_not_break h]
  cases hrev : s.reverse ++ [] with
  | nil => exact absurd hrev hbegun
  | cons c cs =>
    have hlast : linesFrom (c :: cs) [] = [(c :: cs).reverse] := rfl
    rw [hlast, ← hrev, hback]

theorem wordsFrom_cons (begun : Str) (c : Char) (s : Str) :
    wordsFrom begun (c :: s) =
      if isSpace c then
        if begun = [] then wordsFrom [] s else begun.reverse :: wordsFrom [] s
      else wordsFrom (c :: begun) s := by
  cases begun <;> rfl

theorem wordsFrom_word {w : Str} (hw : ∀ c ∈ w, isSpace c = false) (begun s : Str) :
    wordsFrom begun (w ++ s) = wordsFrom (w.reverse ++ begun) s := by
  induction w generalizing begun with
  | nil => rfl
  | cons c w ih =>
    obtain ⟨hc, hrest⟩ := List.forall_mem_cons.mp hw
    rw [List.cons_append, wordsFrom_cons, hc, if_neg Bool.false_ne_true, ih hrest,
      List.reverse_cons, List.append_assoc]
    rfl

/-- A text is split where words were joined. -/
theorem words_join {parts : List Str} (h : ∀ w ∈ parts, w ≠ [] ∧ ∀ c ∈ w, isSpace c = false) :
    words (join [' '] parts) = parts := by
  induction parts with
  | nil => rfl
  | cons w parts ih =>
    obtain ⟨⟨hne, hw⟩, hparts⟩ := List.forall_mem_cons.mp h
    have hbegun : w.reverse ++ [] ≠ [] := by simpa using hne
    have hback : (w.reverse ++ []).reverse = w := by simp
    cases parts with
    | nil =>
      have hjoin : join [' '] [w] = w ++ [] := by simp [join]
      rw [hjoin, words, wordsFrom_word hw]
      cases hrev : w.reverse ++ [] with
      | nil => exact absurd hrev hbegun
      | cons c cs =>
        have hlast : wordsFrom (c :: cs) [] = [(c :: cs).reverse] := rfl
        rw [hlast, ← hrev, hback]
    | cons v parts =>
      have hjoin : join [' '] (w :: v :: parts) = w ++ ' ' :: join [' '] (v :: parts) := by
        simp [join]
      have hspace : isSpace ' ' = true := by decide
      rw [hjoin, words, wordsFrom_word hw, wordsFrom_cons, hspace, if_pos rfl, if_neg hbegun,
        hback]
      exact congrArg (w :: ·) (ih hparts)

/-! ## Parts -/

/-- `s.rfind(c)`. -/
def rfind (c : Char) : Str → Option Nat
  | [] => none
  | a :: s =>
    match rfind c s with
    | some i => some (i + 1)
    | none => if a = c then some 0 else none

theorem rfind_eq_none {c : Char} {s : Str} : rfind c s = none ↔ c ∉ s := by
  induction s with
  | nil => simp [rfind]
  | cons a s ih =>
    rw [rfind]
    cases hs : rfind c s with
    | some i =>
      have hmem : c ∈ s := by
        by_contra hn
        cases hs.symm.trans (ih.mpr hn)
      simp [hmem]
    | none =>
      have hn : c ∉ s := ih.mp hs
      by_cases ha : a = c
      · simp [ha]
      · simp [ha, hn, Ne.symm ha]

theorem rfind_eq_some {c : Char} {s : Str} {i : Nat} (h : rfind c s = some i) :
    ∃ rest, s.drop i = c :: rest ∧ c ∉ rest := by
  induction s generalizing i with
  | nil => cases h
  | cons a s ih =>
    rw [rfind] at h
    cases hs : rfind c s with
    | some j =>
      rw [hs] at h
      obtain rfl := Option.some.inj h
      exact ih hs
    | none =>
      simp only [hs] at h
      split at h
      · rename_i ha
        obtain rfl := Option.some.inj h
        exact ⟨s, by rw [ha]; rfl, rfind_eq_none.mp hs⟩
      · cases h

theorem rfind_append_cons {c : Char} {s rest : Str} (h : c ∉ rest) :
    rfind c (s ++ c :: rest) = some s.length := by
  induction s with
  | nil => simp [rfind, rfind_eq_none.mpr h]
  | cons a s ih => simp [rfind, ih]

/-- Where the suffix of a file name begins: at the last dot, unless that is at one of the ends. -/
def suffixAt (name : Str) : Nat :=
  match rfind '.' name with
  | some i => if 0 < i ∧ i < name.length - 1 then i else name.length
  | none => name.length

/-- `Path(name).stem`. -/
def stem (name : Str) : Str := name.take (suffixAt name)

/-- `Path(name).suffix`. -/
def suffix (name : Str) : Str := name.drop (suffixAt name)

theorem stem_append_suffix (name : Str) : stem name ++ suffix name = name :=
  List.take_append_drop (suffixAt name) name

/-- A suffix: a dot and at least one more character, none of them a dot. -/
def IsSuffix (s : Str) : Prop := ∃ rest, s = '.' :: rest ∧ rest ≠ [] ∧ '.' ∉ rest

/-- A file name has a suffix of this form, after a stem, or none. -/
theorem isSuffix_suffix {name : Str} (h : suffix name ≠ []) :
    IsSuffix (suffix name) ∧ stem name ≠ [] := by
  have hlen : suffixAt name < name.length := by
    by_contra hle
    exact h (List.drop_eq_nil_of_le (Nat.le_of_not_lt hle))
  unfold suffixAt at hlen
  split at hlen
  · rename_i i hi
    split at hlen
    · rename_i hbounds
      obtain ⟨rest, hrest, hdot⟩ := rfind_eq_some hi
      have hat : suffixAt name = i := by simp [suffixAt, hi, hbounds]
      have hlength : (name.drop i).length = rest.length + 1 := by rw [hrest, List.length_cons]
      rw [List.length_drop] at hlength
      refine ⟨⟨rest, by rw [suffix, hat, hrest], ?_, hdot⟩, ?_⟩
      · apply List.ne_nil_of_length_pos
        omega
      · rw [stem, hat]
        apply List.ne_nil_of_length_pos
        rw [List.length_take]
        omega
    · omega
  · omega

theorem stem_ne_nil {name : Str} (h : name ≠ []) : stem name ≠ [] := by
  by_cases hs : suffix name = []
  · have hname := stem_append_suffix name
    rw [hs, List.append_nil] at hname
    rwa [hname]
  · exact (isSuffix_suffix hs).2

theorem suffixAt_append {s ext : Str} (hs : s ≠ []) (hext : IsSuffix ext) :
    suffixAt (s ++ ext) = s.length := by
  obtain ⟨rest, rfl, hne, hdot⟩ := hext
  have hpos := List.length_pos_of_ne_nil hs
  have hrest := List.length_pos_of_ne_nil hne
  have hbounds : 0 < s.length ∧ s.length < (s ++ '.' :: rest).length - 1 := by
    rw [List.length_append, List.length_cons]
    omega
  simp only [suffixAt, rfind_append_cons hdot, if_pos hbounds]

theorem stem_append {s ext : Str} (hs : s ≠ []) (hext : IsSuffix ext) : stem (s ++ ext) = s := by
  rw [stem, suffixAt_append hs hext, List.take_left]

theorem suffix_append {s ext : Str} (hs : s ≠ []) (hext : IsSuffix ext) :
    suffix (s ++ ext) = ext := by
  rw [suffix, suffixAt_append hs hext, List.drop_left]

/-- `s.lower()`, up to letters outside ASCII, which stay as they are: none of these has a
letter of ASCII other than `i` and `k` in its lower case. -/
def lower (s : Str) : Str := s.map Char.toLower

/-- `s.replace(old, new)`, from a place on; the number is at least that of the characters left. -/
def replaceFrom (old new : Str) : Nat → Str → Str
  | 0, s => s
  | _, [] => []
  | n + 1, c :: s =>
    if old.isPrefixOf (c :: s) then new ++ replaceFrom old new n ((c :: s).drop old.length)
    else c :: replaceFrom old new n s

/-- `s.replace(old, new)`, where `old` is not empty. -/
def replace (old new s : Str) : Str := replaceFrom old new s.length s

/-- `s.partition(c)`, without the separator. -/
def partition (c : Char) (s : Str) : Str × Str :=
  (s.takeWhile (· ≠ c), (s.dropWhile (· ≠ c)).drop 1)

theorem partition_append_cons {c : Char} {a : Str} (h : c ∉ a) (b : Str) :
    partition c (a ++ c :: b) = (a, b) := by
  have hpos : ∀ x ∈ a, decide (x ≠ c) = true := fun x hx =>
    decide_eq_true fun heq => h (heq ▸ hx)
  rw [partition, List.takeWhile_append_of_pos hpos, List.dropWhile_append_of_pos hpos]
  simp

theorem partition_of_not_mem {c : Char} {s : Str} (h : c ∉ s) : partition c s = (s, []) := by
  have hpos : ∀ x ∈ s, decide (x ≠ c) = true := fun x hx =>
    decide_eq_true fun heq => h (heq ▸ hx)
  rw [partition, List.takeWhile_eq_self_iff.mpr hpos, List.dropWhile_eq_nil_iff.mpr hpos]
  rfl

theorem join_cons_cons (sep a b : Str) (parts : List Str) :
    join sep (a :: b :: parts) = a ++ sep ++ join sep (b :: parts) := by
  simp [join]

/-- **Splitting what was joined** splits every part. -/
theorem splitOn_join (c : Char) {parts : List Str} (h : parts ≠ []) :
    (join [c] parts).splitOn c = parts.flatMap (·.splitOn c) := by
  induction parts with
  | nil => exact absurd rfl h
  | cons a parts ih =>
    cases parts with
    | nil => simp [join]
    | cons b parts =>
      rw [join_cons_cons, List.append_assoc, List.singleton_append, List.splitOn_append_cons_self,
        ih (List.cons_ne_nil _ _)]
      rfl

/-- A text with the separator in it has more than one part. -/
theorem one_lt_length_splitOn {c : Char} {s : Str} (h : c ∈ s) : 1 < (s.splitOn c).length := by
  by_contra hle
  have hpos := List.length_pos_of_ne_nil (List.splitOn_ne_nil c s)
  obtain ⟨a, ha⟩ := List.length_eq_one_iff.mp (by omega : (s.splitOn c).length = 1)
  obtain ⟨front, back, rfl⟩ := List.append_of_mem h
  rw [List.splitOn_append_cons_self] at ha
  have hlen := congrArg List.length ha
  have hfront := List.length_pos_of_ne_nil (List.splitOn_ne_nil c front)
  have hback := List.length_pos_of_ne_nil (List.splitOn_ne_nil c back)
  rw [List.length_append, List.length_singleton] at hlen
  omega

/-- More parts come out than were joined, if one of them has the separator in it. -/
theorem length_lt_splitOn_join {c : Char} {parts : List Str} {s : Str} (hs : s ∈ parts)
    (h : c ∈ s) : parts.length < ((join [c] parts).splitOn c).length := by
  have hpos : ∀ ts : List Str, ts.length ≤ (ts.flatMap (·.splitOn c)).length := by
    intro ts
    induction ts with
    | nil => exact Nat.zero_le 0
    | cons t ts ih =>
      have ht := List.length_pos_of_ne_nil (List.splitOn_ne_nil c t)
      rw [List.flatMap_cons, List.length_append, List.length_cons]
      omega
  rw [splitOn_join c (List.ne_nil_of_mem hs)]
  obtain ⟨front, back, rfl⟩ := List.append_of_mem hs
  have hmany := one_lt_length_splitOn h
  have hfront := hpos front
  have hback := hpos back
  rw [List.flatMap_append, List.flatMap_cons, List.length_append, List.length_append,
    List.length_append, List.length_cons]
  omega

/-- A part does not have the separator in it. -/
theorem not_mem_of_mem_splitOn {c : Char} {s part : Str} (h : part ∈ s.splitOn c) : c ∉ part := by
  intro hc
  have hlt := length_lt_splitOn_join h hc
  rw [join, List.intercalate_splitOn] at hlt
  exact lt_irrefl _ hlt

theorem mem_of_mem_strip {c : Char} {s : Str} (h : c ∈ strip s) : c ∈ s := by
  have hright : c ∈ s.dropWhile isSpace := (List.rdropWhile_prefix isSpace _).subset h
  exact (List.dropWhile_suffix isSpace).subset hright

/-- `os.path.basename(path)`. -/
def baseName (path : Str) : Str := path.rtakeWhile (· ≠ '/')

/-- `os.path.join(base, name)`, where `name` does not begin with a slash. -/
def joinNames (base name : Str) : Str :=
  if base = [] then name
  else if base.getLast? = some '/' then base ++ name
  else base ++ '/' :: name

theorem joinNames_inj {base name name' : Str} (h : joinNames base name = joinNames base name') :
    name = name' := by
  unfold joinNames at h
  split at h
  · exact h
  · split at h
    · exact List.append_cancel_left h
    · exact (List.cons.inj (List.append_cancel_left h)).2

/-- `str(Path(base) / name)`. -/
def joinPath (base name : Str) : Str :=
  if base = ['.'] then name
  else if base.getLast? = some '/' then base ++ name
  else base ++ '/' :: name

end KartStack.Python
