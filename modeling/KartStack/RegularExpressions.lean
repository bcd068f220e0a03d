import Mathlib.Data.List.Infix

/-! # Regular expressions

A pattern is matched by backtracking: `finds` lists what can be found at the start of a
text in the order in which a backtracking matcher comes to it, so the first is what it
reports.  Repetition is of a class of symbols, greedy or lazy.  `findAll` goes through a
text from left to right and reports what is found, with the groups, one find after the
other.

Most of a text is of no interest to a pattern (`Quiet`); what a text yields is then put
together from its pieces (`Yields.append`).  Of all the ways to match a greedy repetition
only the longest leaves a rest that does not begin with one more symbol of the class
(`Leads`), which is how a pattern with repetitions comes to find one thing only.
-/
namespace KartStack.Regex

variable {A : Type}

/-- A pattern. -/
inductive Pattern (A : Type)
  | word (w : List A)
  | one (p : A → Bool)
  | many (reluctant : Bool) (p : A → Bool)
  | seq (r q : Pattern A)
  | either (r q : Pattern A)
  | group (i : Nat) (r : Pattern A)

/-- Something found at the start of a text: the part that is matched, the part that is not,
and the groups in it. -/
structure Found (A : Type) where
  text : List A
  rest : List A
  groups : List (Nat × List A)

/-- One find and the one after it, as one. -/
def Found.andThen (f g : Found A) : Found A := ⟨f.text ++ g.text, g.rest, f.groups ++ g.groups⟩

/-- The end of a group. -/
def Found.close (i : Nat) (f : Found A) : Found A :=
  { f with groups := f.groups ++ [(i, f.text)] }

/-- One or more of a class, as many as there are. -/
def Pattern.plus (p : A → Bool) : Pattern A := .seq (.one p) (.many false p)

/-- How many symbols of a class a repetition takes, the most first. -/
def runs (p : A → Bool) : List A → List (Found A)
  | [] => [⟨[], [], []⟩]
  | c :: s =>
    if p c then ((runs p s).map fun f => { f with text := c :: f.text }) ++ [⟨[], c :: s, []⟩]
    else [⟨[], c :: s, []⟩]

section
variable [DecidableEq A]

/-- What is found at the start of a text, in the order in which it is come to. -/
def Pattern.finds : Pattern A → List A → List (Found A)
  | word w, s => if w <+: s then [⟨w, s.drop w.length, []⟩] else []
  | one _, [] => []
  | one p, c :: s => if p c then [⟨[c], s, []⟩] else []
  | many reluctant p, s => if reluctant then (runs p s).reverse else runs p s
  | seq r q, s => (r.finds s).flatMap fun f => (q.finds f.rest).map f.andThen
  | either r q, s => r.finds s ++ q.finds s
  | group i r, s => (r.finds s).map (Found.close i)

/-- The groups of all that is found, with a bound on the number of steps.  After an empty
find the search goes on one symbol further. -/
def findFrom (r : Pattern A) : Nat → List A → List (List (Nat × List A))
  | 0, _ => []
  | n + 1, s =>
    match r.finds s with
    | f :: _ =>
      f.groups :: if s = [] then [] else findFrom r n (if f.text = [] then s.drop 1 else f.rest)
    | [] =>
      match s with
      | [] => []
      | _ :: s => findFrom r n s

/-- The groups of all that is found. -/
def findAll (r : Pattern A) (s : List A) : List (List (Nat × List A)) :=
  findFrom r (s.length + 1) s

end

/-! ## The search -/

theorem runs_append {p : A → Bool} {s : List A} {f : Found A} (h : f ∈ runs p s) :
    f.text ++ f.rest = s := by
  induction s generalizing f with
  | nil =>
    obtain rfl := List.mem_singleton.mp h
    rfl
  | cons c s ih =>
    rw [runs] at h
    split at h
    · rcases List.mem_append.mp h with hmap | hlast
      · obtain ⟨g, hg, rfl⟩ := List.mem_map.mp hmap
        exact congrArg (c :: ·) (ih hg)
      · obtain rfl := List.mem_singleton.mp hlast
        rfl
    · obtain rfl := List.mem_singleton.mp h
      rfl

theorem runs_groups {p : A → Bool} {s : List A} {f : Found A} (h : f ∈ runs p s) :
    f.groups = [] := by
  induction s generalizing f with
  | nil =>
    obtain rfl := List.mem_singleton.mp h
    rfl
  | cons c s ih =>
    rw [runs] at h
    split at h
    · rcases List.mem_append.mp h with hmap | hlast
      · obtain ⟨g, hg, rfl⟩ := List.mem_map.mp hmap
        have hnone := ih hg
        exact hnone
      · obtain rfl := List.mem_singleton.mp hlast
        rfl
    · obtain rfl := List.mem_singleton.mp h
      rfl

section
variable [DecidableEq A]

/-- A find cuts the text in two. -/
theorem Pattern.finds_append {r : Pattern A} {s : List A} {f : Found A}
    (h : f ∈ r.finds s) : f.text ++ f.rest = s := by
  induction r generalizing s f with
  | word w =>
    rw [finds] at h
    split at h
    · rename_i hw
      obtain rfl := List.mem_singleton.mp h
      exact List.prefix_iff_eq_append.mp hw
    · cases h
  | one p =>
    cases s with
    | nil => cases h
    | cons c s =>
      rw [finds] at h
      split at h
      · obtain rfl := List.mem_singleton.mp h
        rfl
      · cases h
  | many reluctant p =>
    rw [finds] at h
    split at h
    · exact runs_append (List.mem_reverse.mp h)
    · exact runs_append h
  | seq r q ihr ihq =>
    obtain ⟨g, hg, hmap⟩ := List.mem_flatMap.mp h
    obtain ⟨g', hg', rfl⟩ := List.mem_map.mp hmap
    have hrest := ihq hg'
    have htext := ihr hg
    rw [Found.andThen, List.append_assoc, hrest, htext]
  | either r q ihr ihq =>
    rcases List.mem_append.mp h with h | h
    · exact ihr h
    · exact ihq h
  | group i r ih =>
    obtain ⟨g, hg, rfl⟩ := List.mem_map.mp h
    have htext := ih hg
    exact htext

theorem findFrom_eq (r : Pattern A) {n n' : Nat} {s : List A} (hn : s.length < n)
    (hn' : s.length < n') : findFrom r n s = findFrom r n' s := by
  induction n generalizing n' s with
  | zero => exact absurd hn (Nat.not_lt_zero _)
  | succ n ih =>
    cases n' with
    | zero => exact absurd hn' (Nat.not_lt_zero _)
    | succ n' =>
      cases hm : r.finds s with
      | nil =>
        cases s with
        | nil => simp only [findFrom, hm]
        | cons c s =>
          rw [List.length_cons] at hn hn'
          simp only [findFrom, hm]
          exact ih (by omega) (by omega)
      | cons f fs =>
        have happend := r.finds_append (hm ▸ List.mem_cons_self : f ∈ r.finds s)
        have hlength := congrArg List.length happend
        rw [List.length_append] at hlength
        simp only [findFrom, hm]
        congr 1
        split
        · rfl
        · rename_i hne
          have hpos := List.length_pos_of_ne_nil hne
          split
          · have hdrop : (s.drop 1).length = s.length - 1 := List.length_drop
            exact ih (by omega) (by omega)
          · rename_i htext
            have htextpos := List.length_pos_of_ne_nil htext
            exact ih (by omega) (by omega)

/-- The search goes on where nothing is found. -/
theorem findAll_cons_of_nil {r : Pattern A} {c : A} {s : List A} (h : r.finds (c :: s) = []) :
    findAll r (c :: s) = findAll r s := by
  simp only [findAll, List.length_cons, findFrom, h]

/-- The search goes on behind what is found. -/
theorem findAll_of_cons {r : Pattern A} {s : List A} {f : Found A} {fs : List (Found A)}
    (h : r.finds s = f :: fs) (hne : f.text ≠ []) :
    findAll r s = f.groups :: findAll r f.rest := by
  have happend := r.finds_append (h ▸ List.mem_cons_self : f ∈ r.finds s)
  have hlength := congrArg List.length happend
  have hpos := List.length_pos_of_ne_nil hne
  rw [List.length_append] at hlength
  have hs : s ≠ [] := List.ne_nil_of_length_pos (by omega)
  have hstep : findFrom r (s.length + 1) s = f.groups :: findFrom r s.length f.rest := by
    simp only [findFrom, h, if_neg hs, if_neg hne]
  rw [findAll, hstep, findAll, findFrom_eq r (by omega) (Nat.lt_succ_self _)]

/-! ## What the pieces of a text yield -/

/-- Nothing is found anywhere in this part of a text. -/
def Quiet (r : Pattern A) (t : List A) : Prop :=
  ∀ u, u <:+ t → u ≠ [] → ∀ rest, r.finds (u ++ rest) = []

/-- What is found in this part of a text, whatever comes after it. -/
def Yields (r : Pattern A) (t : List A) (groups : List (List (Nat × List A))) : Prop :=
  ∀ rest, findAll r (t ++ rest) = groups ++ findAll r rest

theorem Quiet.nil (r : Pattern A) : Quiet r [] := fun _ hu hne =>
  absurd (List.suffix_nil.mp hu) hne

theorem Quiet.cons {r : Pattern A} {c : A} {t : List A} (hc : ∀ rest, r.finds (c :: t ++ rest) = [])
    (ht : Quiet r t) : Quiet r (c :: t) := by
  intro u hu hne rest
  rcases List.suffix_cons_iff.mp hu with rfl | hu
  · exact hc rest
  · exact ht u hu hne rest

theorem Quiet.append {r : Pattern A} {t t' : List A} (h : Quiet r t) (h' : Quiet r t') :
    Quiet r (t ++ t') := by
  induction t with
  | nil => exact h'
  | cons c t ih =>
    have ht : Quiet r t := fun u hu => h u (hu.trans (List.suffix_cons c t))
    refine Quiet.cons (fun rest => ?_) (ih ht)
    have hc := h (c :: t) (List.suffix_refl _) (List.cons_ne_nil _ _) (t' ++ rest)
    rwa [← List.append_assoc] at hc

theorem Quiet.intercalate {r : Pattern A} {sep : List A} (hsep : Quiet r sep) {ts : List (List A)}
    (h : ∀ t ∈ ts, Quiet r t) : Quiet r (sep.intercalate ts) := by
  induction ts with
  | nil => exact Quiet.nil r
  | cons t ts ih =>
    obtain ⟨ht, hts⟩ := List.forall_mem_cons.mp h
    cases ts with
    | nil => simpa using ht
    | cons t' ts =>
      rw [List.intercalate_cons_cons, List.append_assoc]
      exact ht.append (hsep.append (ih hts))

theorem Quiet.yields {r : Pattern A} {t : List A} (h : Quiet r t) : Yields r t [] := by
  intro rest
  induction t with
  | nil => rfl
  | cons c t ih =>
    have hc : r.finds (c :: (t ++ rest)) = [] :=
      h (c :: t) (List.suffix_refl _) (List.cons_ne_nil _ _) rest
    rw [List.cons_append, findAll_cons_of_nil hc]
    exact ih fun u hu => h u (hu.trans (List.suffix_cons c t))

theorem Yields.append {r : Pattern A} {t t' : List A} {gs gs' : List (List (Nat × List A))}
    (h : Yields r t gs) (h' : Yields r t' gs') : Yields r (t ++ t') (gs ++ gs') := by
  intro rest
  rw [List.append_assoc, h, h', List.append_assoc]

/-- What pieces yield that are joined by something that yields nothing. -/
theorem Yields.intercalate {r : Pattern A} {sep : List A} (hsep : Quiet r sep) {ts : List (List A)}
    {gss : List (List (List (Nat × List A)))} (h : List.Forall₂ (Yields r) ts gss) :
    Yields r (sep.intercalate ts) gss.flatten := by
  induction h with
  | nil => exact (Quiet.nil r).yields
  | @cons t gs ts gss ht hts ih =>
    cases hts with
    | nil => simpa using ht
    | @cons t' gs' ts gss _ _ =>
      rw [List.intercalate_cons_cons, List.append_assoc]
      exact ht.append (hsep.yields.append ih)

/-- A piece that is found as a whole. -/
theorem yields_of_finds {r : Pattern A} {t : List A} {groups : List (Nat × List A)} (hne : t ≠ [])
    (h : ∀ rest, ∃ fs, r.finds (t ++ rest) = ⟨t, rest, groups⟩ :: fs) : Yields r t [groups] := by
  intro rest
  obtain ⟨fs, hfs⟩ := h rest
  exact findAll_of_cons hfs hne

/-- What a whole text yields is what is found in it. -/
theorem Yields.findAll_eq {r : Pattern A} {t : List A} {gs : List (List (Nat × List A))}
    (h : Yields r t gs) (hnil : r.finds [] = []) : findAll r t = gs := by
  have hend := h []
  have hempty : findAll r [] = [] := by
    simp only [findAll, findFrom, hnil]
  rwa [List.append_nil, hempty, List.append_nil] at hend

/-! ## Where a pattern cannot begin -/

theorem finds_seq_of_nil {r q : Pattern A} {s : List A} (h : r.finds s = []) :
    (Pattern.seq r q).finds s = [] := by
  rw [Pattern.finds, h]
  rfl

/-- The two differ at a place that both have. -/
def clash : List A → List A → Bool
  | a :: w, b :: t => a ≠ b || clash w t
  | _, _ => false

theorem not_prefix_of_clash {w t : List A} (h : clash w t = true) (rest : List A) :
    ¬ w <+: t ++ rest := by
  induction w generalizing t with
  | nil => cases h
  | cons a w ih =>
    cases t with
    | nil => cases h
    | cons b t =>
      rw [clash, Bool.or_eq_true, decide_eq_true_eq] at h
      rw [List.cons_append, List.cons_prefix_cons]
      rintro ⟨rfl, hw⟩
      exact ih (h.resolve_left fun hne => hne rfl) hw

theorem finds_word_of_clash {w t : List A} (h : clash w t = true) (rest : List A) :
    (Pattern.word w).finds (t ++ rest) = [] := by
  rw [Pattern.finds, if_neg (not_prefix_of_clash h rest)]

/-- A word cannot begin anywhere in this text. -/
def clashes (w : List A) : List A → Bool
  | [] => true
  | c :: t => clash w (c :: t) && clashes w t

theorem Quiet.of_clashes {w t : List A} {q : Pattern A} (h : clashes w t = true) :
    Quiet (.seq (.word w) q) t := by
  induction t with
  | nil => exact Quiet.nil _
  | cons c t ih =>
    rw [clashes, Bool.and_eq_true] at h
    exact Quiet.cons (fun rest => finds_seq_of_nil (finds_word_of_clash h.1 rest)) (ih h.2)

/-- A text without the first symbol of a pattern. -/
theorem Quiet.of_not_mem {a : A} {w t : List A} {q : Pattern A} (h : a ∉ t) :
    Quiet (.seq (.word (a :: w)) q) t := by
  induction t with
  | nil => exact Quiet.nil _
  | cons c t ih =>
    obtain ⟨hne, ht⟩ := not_or.mp fun hor => h (List.mem_cons.mpr hor)
    refine Quiet.cons (fun rest => finds_seq_of_nil ?_) (ih ht)
    rw [Pattern.finds, if_neg]
    rw [List.cons_append, List.cons_prefix_cons]
    exact fun hw => hne hw.1

/-! ## Where a pattern has one way to go -/

theorem finds_word (w s : List A) : (Pattern.word w).finds (w ++ s) = [⟨w, s, []⟩] := by
  rw [Pattern.finds, if_pos (List.prefix_append w s), List.drop_left]

/-- The first thing found, where all others leave a rest that begins in a class. -/
def Leads (r : Pattern A) (s : List A) (f : Found A) (p : A → Bool) : Prop :=
  ∃ fs, r.finds s = f :: fs ∧ ∀ o ∈ fs, ∃ c t, o.rest = c :: t ∧ p c = true

omit [DecidableEq A] in
theorem runs_leads {p : A → Bool} {u v : List A} (hu : ∀ c ∈ u, p c = true)
    (hv : ∀ c ∈ v.head?, p c = false) :
    ∃ fs, runs p (u ++ v) = ⟨u, v, []⟩ :: fs ∧ ∀ o ∈ fs, ∃ c t, o.rest = c :: t ∧ p c = true := by
  induction u with
  | nil =>
    refine ⟨[], ?_, List.forall_mem_nil _⟩
    cases v with
    | nil => rfl
    | cons c v =>
      rw [List.nil_append, runs, hv c rfl]
      rfl
  | cons c u ih =>
    obtain ⟨hc, hrest⟩ := List.forall_mem_cons.mp hu
    obtain ⟨fs, hfs, hall⟩ := ih hrest
    rw [List.cons_append, runs, hc, if_pos rfl, hfs, List.map_cons]
    refine ⟨_, rfl, fun o ho => ?_⟩
    rcases List.mem_append.mp ho with hmap | hlast
    · obtain ⟨f, hf, rfl⟩ := List.mem_map.mp hmap
      exact hall f hf
    · obtain rfl := List.mem_singleton.mp hlast
      exact ⟨c, u ++ v, rfl, hc⟩

/-- A greedy repetition takes all there is. -/
theorem Leads.many {p : A → Bool} {u v : List A} (hu : ∀ c ∈ u, p c = true)
    (hv : ∀ c ∈ v.head?, p c = false) :
    Leads (.many false p) (u ++ v) ⟨u, v, []⟩ p :=
  runs_leads hu hv

/-- After something that is found in one way only. -/
theorem Leads.after {r q : Pattern A} {s : List A} {f g : Found A} {p : A → Bool}
    (hr : r.finds s = [f]) (hq : Leads q f.rest g p) : Leads (.seq r q) s (f.andThen g) p := by
  obtain ⟨fs, hfs, hall⟩ := hq
  refine ⟨fs.map f.andThen, ?_, fun o ho => ?_⟩
  · rw [Pattern.finds, hr, List.flatMap_singleton, hfs, List.map_cons]
  · obtain ⟨g', hg', rfl⟩ := List.mem_map.mp ho
    exact hall g' hg'

theorem Leads.plus {p : A → Bool} {u v : List A} (hne : u ≠ []) (hu : ∀ c ∈ u, p c = true)
    (hv : ∀ c ∈ v.head?, p c = false) : Leads (.plus p) (u ++ v) ⟨u, v, []⟩ p := by
  cases u with
  | nil => exact absurd rfl hne
  | cons c u =>
    obtain ⟨hc, hrest⟩ := List.forall_mem_cons.mp hu
    have hone : (Pattern.one p).finds (c :: u ++ v) = [⟨[c], u ++ v, []⟩] := by
      rw [List.cons_append, Pattern.finds, if_pos hc]
    exact Leads.after hone (Leads.many hrest hv)

theorem Leads.group {r : Pattern A} {s : List A} {f : Found A} {p : A → Bool} (i : Nat)
    (h : Leads r s f p) : Leads (.group i r) s (f.close i) p := by
  obtain ⟨fs, hfs, hall⟩ := h
  refine ⟨fs.map (Found.close i), ?_, fun o ho => ?_⟩
  · rw [Pattern.finds, hfs, List.map_cons]
  · obtain ⟨g, hg, rfl⟩ := List.mem_map.mp ho
    exact hall g hg

/-- **What comes next decides**: a pattern that does not begin in the class goes on from the
first find only. -/
theorem finds_seq_of_leads {r q : Pattern A} {s : List A} {f : Found A} {p : A → Bool}
    (hr : Leads r s f p) (hq : ∀ c t, p c = true → q.finds (c :: t) = []) :
    (Pattern.seq r q).finds s = (q.finds f.rest).map f.andThen := by
  obtain ⟨fs, hfs, hall⟩ := hr
  have hnone : (fs.flatMap fun o => (q.finds o.rest).map o.andThen) = [] := by
    rw [List.flatMap_eq_nil_iff]
    intro o ho
    obtain ⟨c, t, hrest, hc⟩ := hall o ho
    rw [hrest, hq c t hc]
    rfl
  rw [Pattern.finds, hfs, List.flatMap_cons, hnone, List.append_nil]

/-- After something that is found in one way only. -/
theorem finds_seq_of_single {r q : Pattern A} {s : List A} {f : Found A} (hr : r.finds s = [f]) :
    (Pattern.seq r q).finds s = (q.finds f.rest).map f.andThen := by
  rw [Pattern.finds, hr, List.flatMap_singleton]

theorem finds_either (r q : Pattern A) (s : List A) :
    (Pattern.either r q).finds s = r.finds s ++ q.finds s :=
  rfl

theorem finds_seq_word (w s : List A) (q : Pattern A) :
    (Pattern.seq (.word w) q).finds (w ++ s) = (q.finds s).map (Found.andThen ⟨w, s, []⟩) :=
  finds_seq_of_single (finds_word w s)

/-- A repetition that has nothing to take. -/
theorem finds_seq_many {p : A → Bool} {s : List A} (hs : ∀ c ∈ s.head?, p c = false)
    (q : Pattern A) : (Pattern.seq (.many false p) q).finds s = q.finds s := by
  have hempty : (Pattern.many false p).finds s = [⟨[], s, []⟩] := by
    cases s with
    | nil => rfl
    | cons c s =>
      rw [Pattern.finds, if_neg Bool.false_ne_true, runs, hs c rfl]
      rfl
  rw [finds_seq_of_single hempty]
  exact List.map_id _

theorem finds_group_of_nil {r : Pattern A} {s : List A} (i : Nat) (h : r.finds s = []) :
    (Pattern.group i r).finds s = [] := by
  rw [Pattern.finds, h]
  rfl

/-- A word does not begin in a class that its first symbol is not in. -/
theorem finds_word_of_head {a : A} {w : List A} (hw : w.head? = some a) {p : A → Bool}
    (ha : p a = false) (c : A) (t : List A) (hc : p c = true) :
    (Pattern.word w).finds (c :: t) = [] := by
  cases w with
  | nil => cases hw
  | cons b w =>
    obtain rfl := Option.some.inj hw
    rw [Pattern.finds, if_neg]
    rw [List.cons_prefix_cons]
    rintro ⟨rfl, -⟩
    rw [ha] at hc
    cases hc

/-! ## What is captured -/

/-- What every group of a pattern matches. -/
def Pattern.Captures (P : Nat → List A → Prop) : Pattern A → Prop
  | seq r q | either r q => r.Captures P ∧ q.Captures P
  | group i r => r.Captures P ∧ ∀ s, ∀ f ∈ r.finds s, P i f.text
  | word _ | one _ | many _ _ => True

theorem Pattern.Captures.of_finds {P : Nat → List A → Prop} {r : Pattern A} (h : r.Captures P)
    {s : List A} {f : Found A} (hf : f ∈ r.finds s) : ∀ g ∈ f.groups, P g.1 g.2 := by
  induction r generalizing s f with
  | word w =>
    rw [finds] at hf
    split at hf
    · obtain rfl := List.mem_singleton.mp hf
      simp
    · cases hf
  | one p =>
    cases s with
    | nil => cases hf
    | cons c s =>
      rw [finds] at hf
      split at hf
      · obtain rfl := List.mem_singleton.mp hf
        simp
      · cases hf
  | many reluctant p =>
    have hruns : f ∈ runs p s := by
      rw [finds] at hf
      split at hf
      · exact List.mem_reverse.mp hf
      · exact hf
    simp [runs_groups hruns]
  | seq r q ihr ihq =>
    obtain ⟨g, hg, hmap⟩ := List.mem_flatMap.mp hf
    obtain ⟨g', hg', rfl⟩ := List.mem_map.mp hmap
    intro c hc
    rcases List.mem_append.mp hc with hc | hc
    · exact ihr h.1 hg c hc
    · exact ihq h.2 hg' c hc
  | either r q ihr ihq =>
    rcases List.mem_append.mp hf with hf | hf
    · exact ihr h.1 hf
    · exact ihq h.2 hf
  | group i r ih =>
    obtain ⟨g, hg, rfl⟩ := List.mem_map.mp hf
    intro c hc
    rcases List.mem_append.mp hc with hc | hc
    · exact ih h.1 hg c hc
    · obtain rfl := List.mem_singleton.mp hc
      exact h.2 s g hg

theorem Pattern.Captures.of_findFrom {P : Nat → List A → Prop} {r : Pattern A} (h : r.Captures P)
    {n : Nat} {s : List A} : ∀ groups ∈ findFrom r n s, ∀ g ∈ groups, P g.1 g.2 := by
  induction n generalizing s with
  | zero => simp [findFrom]
  | succ n ih =>
    intro groups hgroups
    cases hm : r.finds s with
    | nil =>
      cases s with
      | nil => simp [findFrom, hm] at hgroups
      | cons c s =>
        simp only [findFrom, hm] at hgroups
        exact ih groups hgroups
    | cons f fs =>
      simp only [findFrom, hm] at hgroups
      rcases List.mem_cons.mp hgroups with rfl | hgroups
      · exact h.of_finds (hm ▸ List.mem_cons_self)
      · split at hgroups
        · cases hgroups
        · exact ih groups hgroups

/-- **What is captured anywhere in a text.** -/
theorem Pattern.Captures.of_findAll {P : Nat → List A → Prop} {r : Pattern A} (h : r.Captures P)
    {s : List A} : ∀ groups ∈ findAll r s, ∀ g ∈ groups, P g.1 g.2 :=
  h.of_findFrom

end

end KartStack.Regex
