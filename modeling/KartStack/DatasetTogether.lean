import KartStack.DatasetPrepare
import KartStack.Transitions

/-! # Images and their labels

The loop that looks for a free name always finds one (`target_eq_some`): images are never
overwritten, and each ends up in one part of the split.  Labels are named after the
stem alone.  An image can find its own name free and yet meet the label of another
one with the same stem: `a.png` after `a.jpg`, or `a_1.png` after a second `a.jpg`.
Then the label is overwritten, and goes where the first of the two images goes.

Images and labels stay together exactly if this does not happen: no image finds a label
of its stem when it is copied (`keepsTogether_iff`).  They do if all images have the
same suffix (`labelFree_of_suffix`).
-/
namespace KartStack.PrepareDataset
open KartStack.Python Transitions

variable {A B K S : Type}

/-! ## A free name -/

/-- What `out_img` and `out_lbl` are after a number of passes. -/
def place (name : Str) : Nat → Str × Str
  | 0 => (name, lblName (stem name))
  | k + 1 => (numbered name (k + 1) ++ suffix name, lblName (numbered name (k + 1)))

theorem place_inj {name : Str} {j k : Nat} (h : (place name j).1 = (place name k).1) : j = k := by
  have hlong : ∀ i, (place name (i + 1)).1 ≠ name := by
    intro i hi
    have hlen := congrArg List.length (hi.trans (stem_append_suffix name).symm)
    simp only [place, numbered, List.length_append, List.length_cons] at hlen
    omega
  cases j with
  | zero =>
    cases k with
    | zero => rfl
    | succ k => exact absurd h.symm (hlong k)
  | succ j =>
    cases k with
    | zero => exact absurd h (hlong j)
    | succ k =>
      have hnum : numbered name (j + 1) = numbered name (k + 1) := List.append_cancel_right h
      exact decimal_inj (List.cons.inj (List.append_cancel_left hnum)).2

/-- The loop ends at the first free name, if it has enough passes to come to one. -/
theorem dedup_place (images : Dir B) (name : Str) (fuel k : Nat) :
    (∃ j, dedup images name fuel (k + 1) (place name k) = some (place name j) ∧
        (place name j).1 ∉ images) ∨
      ∀ j < fuel, (place name (k + j)).1 ∈ images := by
  induction fuel generalizing k with
  | zero => exact .inr fun j hj => absurd hj (Nat.not_lt_zero j)
  | succ fuel ih =>
    rw [dedup]
    by_cases hk : (place name k).1 ∈ images
    · rw [if_pos hk]
      refine (ih (k + 1)).imp id fun hall j hj => ?_
      cases j with
      | zero => exact hk
      | succ j =>
        rw [show k + (j + 1) = k + 1 + j by omega]
        exact hall j (by omega)
    · rw [if_neg hk]
      exact .inl ⟨k, rfl, hk⟩

/-- **There is a free name**, and the loop finds it. -/
theorem target_eq_some (images : Dir B) (name : Str) :
    ∃ j, target images name = some (place name j) ∧ (place name j).1 ∉ images := by
  refine (dedup_place images name _ 0).resolve_right fun hall => ?_
  -- more names than files
  have hnodup : ((List.range (images.keys.length + 1)).map fun j => (place name j).1).Nodup :=
    List.nodup_range.map fun j k => place_inj
  have hsub : (List.range (images.keys.length + 1)).map (fun j => (place name j).1) ⊆
      images.keys := by
    intro out hout
    obtain ⟨j, hj, rfl⟩ := List.mem_map.mp hout
    have hin := hall j (List.mem_range.mp hj)
    rwa [Nat.zero_add] at hin
  have hle := (List.subperm_of_subset hnodup hsub).length_le
  rw [List.length_map, List.length_range] at hle
  omega

/-- The files written for an image go by the same stem, and the suffix is that of the
image. -/
theorem place_parts {name : Str} (h : suffix name ≠ []) (j : Nat) :
    (place name j).2 = lblName (stem (place name j).1) ∧
      suffix (place name j).1 = suffix name := by
  cases j with
  | zero => exact ⟨rfl, rfl⟩
  | succ j =>
    obtain ⟨hsuffix, -⟩ := isSuffix_suffix h
    have hne : numbered name (j + 1) ≠ [] := by simp [numbered]
    exact ⟨congrArg lblName (stem_append hne hsuffix).symm, suffix_append hne hsuffix⟩

theorem suffix_ne_nil {name : Str} (h : IsImage name) : suffix name ≠ [] := by
  intro hnil
  rw [IsImage, hnil] at h
  revert h
  decide

theorem isImage_append {s ext : Str} (hs : s ≠ []) (h : ext ∈ imageSuffixes) :
    IsImage (s ++ ext) := by
  have hext : IsSuffix ext ∧ lower ext ∈ imageSuffixes := by
    simp only [imageSuffixes, List.mem_cons, List.not_mem_nil, or_false] at h
    rcases h with rfl | rfl | rfl | rfl
    · exact ⟨⟨"jpg".toList, rfl, by decide, by decide⟩, by decide⟩
    · exact ⟨⟨"jpeg".toList, rfl, by decide, by decide⟩, by decide⟩
    · exact ⟨⟨"png".toList, rfl, by decide, by decide⟩, by decide⟩
    · exact ⟨⟨"bmp".toList, rfl, by decide, by decide⟩, by decide⟩
  rw [IsImage, suffix_append hs hext.1]
  exact hext.2

/-! ## One copy -/

/-- What a copy does: both files are written, the image under a free name. -/
structure Copied (merged : Dataset B) (o : Offer B) (c : Copy B) : Prop where
  target : target merged.images o.name = some (c.outImg, c.outLbl)
  free : c.outImg ∉ merged.images
  content : c.content = o.content
  text : c.text = labelText o.lines
  label : IsImage o.name → c.outLbl = lblName (stem c.outImg)
  suffix : IsImage o.name → suffix c.outImg = suffix o.name

theorem copyImage_eq (merged : Dataset B) (o : Offer B) :
    ∃ c, copyImage merged o = some (⟨merged.images.insert c.outImg c.content,
      merged.labels.insert c.outLbl c.text⟩, c) ∧ Copied merged o c := by
  obtain ⟨j, hj, hfree⟩ := target_eq_some merged.images o.name
  refine ⟨⟨(place o.name j).1, o.content, (place o.name j).2, labelText o.lines⟩, ?_, ?_⟩
  · simp only [copyImage, hj, Option.bind_eq_bind, Option.bind_some]
    rfl
  · exact {
      target := hj
      free := hfree
      content := rfl
      text := rfl
      label := fun h => (place_parts (suffix_ne_nil h) j).1
      suffix := fun h => (place_parts (suffix_ne_nil h) j).2 }

/-- What the copies so far have to do with the files of the merged directory. -/
structure Logged (s : Merged B) : Prop where
  image : ∀ c ∈ s.copies, IsImage c.outImg
  label : ∀ c ∈ s.copies, c.outLbl = lblName (stem c.outImg)
  mem_images : ∀ name, name ∈ s.dataset.images ↔ ∃ c ∈ s.copies, c.outImg = name
  mem_labels : ∀ name, name ∈ s.dataset.labels ↔ ∃ c ∈ s.copies, c.outLbl = name
  content : ∀ c ∈ s.copies, s.dataset.images.lookup c.outImg = some c.content
  text : s.copies.Pairwise (fun a b => a.outLbl ≠ b.outLbl) →
    ∀ c ∈ s.copies, s.dataset.labels.lookup c.outLbl = some c.text

theorem logged_empty : Logged (⟨.empty, []⟩ : Merged B) where
  image := List.forall_mem_nil _
  label := List.forall_mem_nil _
  mem_images := fun name => by simp [Dataset.empty]
  mem_labels := fun name => by simp [Dataset.empty]
  content := List.forall_mem_nil _
  text := fun _ => List.forall_mem_nil _

/-- No label has the name that the one of an image is to get. -/
def LabelFree (merged : Dataset B) (o : Offer B) : Prop :=
  ∀ out ∈ target merged.images o.name, out.2 ∉ merged.labels

theorem pairwise_concat {s : Merged B} {c : Copy B} (h : Logged s) :
    (s.copies ++ [c]).Pairwise (fun a b => a.outLbl ≠ b.outLbl) ↔
      s.copies.Pairwise (fun a b => a.outLbl ≠ b.outLbl) ∧ c.outLbl ∉ s.dataset.labels := by
  rw [List.pairwise_append, h.mem_labels]
  simp

theorem forall_mem_concat {p : Copy B → Prop} {copies : List (Copy B)} {c : Copy B} :
    (∀ d ∈ copies ++ [c], p d) ↔ (∀ d ∈ copies, p d) ∧ p c :=
  List.forall_mem_append.trans (and_congr_right' List.forall_mem_singleton)

theorem Logged.copied {s : Merged B} (h : Logged s) {o : Offer B} {c : Copy B}
    (ho : IsImage o.name) (hc : Copied s.dataset o c) :
    Logged ⟨⟨s.dataset.images.insert c.outImg c.content, s.dataset.labels.insert c.outLbl c.text⟩,
      s.copies ++ [c]⟩ where
  image := by
    refine forall_mem_concat.mpr ⟨h.image, ?_⟩
    rw [IsImage, hc.suffix ho]
    exact ho
  label := forall_mem_concat.mpr ⟨h.label, hc.label ho⟩
  mem_images := by
    intro name
    rw [AList.mem_insert, h.mem_images]
    grind
  mem_labels := by
    intro name
    rw [AList.mem_insert, h.mem_labels]
    grind
  content := by
    refine forall_mem_concat.mpr ⟨fun d hd => ?_, AList.lookup_insert _⟩
    have hne : d.outImg ≠ c.outImg := by
      intro he
      exact hc.free ((h.mem_images _).mpr ⟨d, hd, he⟩)
    exact (AList.lookup_insert_ne hne).trans (h.content d hd)
  text := by
    intro hpair
    obtain ⟨hold, hnew⟩ := (pairwise_concat h).mp hpair
    refine forall_mem_concat.mpr ⟨fun d hd => ?_, AList.lookup_insert _⟩
    have hne : d.outLbl ≠ c.outLbl := by
      intro he
      exact hnew ((h.mem_labels _).mpr ⟨d, hd, he⟩)
    exact (AList.lookup_insert_ne hne).trans (h.text hold d hd)

/-- **A copy** keeps the log, and the labels distinct exactly if it finds its own free. -/
theorem copy_spec {s : Merged B} (h : Logged s) {o : Offer B} (ho : IsImage o.name) :
    ∃ s', s.copy o = some s' ∧ (copyImage s.dataset o).map Prod.fst = some s'.dataset ∧
      Logged s' ∧ (s'.copies.Pairwise (fun a b => a.outLbl ≠ b.outLbl) ↔
        s.copies.Pairwise (fun a b => a.outLbl ≠ b.outLbl) ∧ LabelFree s.dataset o) := by
  obtain ⟨c, hcopy, hc⟩ := copyImage_eq s.dataset o
  refine ⟨⟨_, s.copies ++ [c]⟩, by rw [Merged.copy, hcopy]; rfl, by rw [hcopy]; rfl,
    h.copied ho hc, ?_⟩
  rw [pairwise_concat h]
  simp [LabelFree, hc.target]

/-! ## Many copies -/

/-- A copy, as a step on the merged directory. -/
def copyStep (merged : Dataset B) (o : Offer B) : Option (Dataset B) :=
  (copyImage merged o).map Prod.fst

/-- **Any number of copies**: none raises, the log is kept, and the labels are distinct in
the end exactly if each image found its own free. -/
theorem foldlM_copy {s : Merged B} (h : Logged s) {offers : List (Offer B)}
    (hoffers : ∀ o ∈ offers, IsImage o.name) :
    ∃ s', offers.foldlM Merged.copy s = some s' ∧ Logged s' ∧
      (s'.copies.Pairwise (fun a b => a.outLbl ≠ b.outLbl) ↔
        s.copies.Pairwise (fun a b => a.outLbl ≠ b.outLbl) ∧
          Along copyStep LabelFree s.dataset offers) := by
  induction offers generalizing s with
  | nil => exact ⟨s, rfl, h, by simp [Along]⟩
  | cons o offers ih =>
    obtain ⟨ho, hrest⟩ := List.forall_mem_cons.mp hoffers
    obtain ⟨s₁, hcopy, hstep, hlog, hfree⟩ := copy_spec h ho
    obtain ⟨s', hfold, hlog', hiff⟩ := ih hlog hrest
    refine ⟨s', ?_, hlog', ?_⟩
    · rw [List.foldlM_cons, hcopy]
      exact hfold
    · rw [hiff, hfree, Along, copyStep, hstep, and_assoc]
      simp

/-- What a loop over files copies, up to the first one on which it raises. -/
def offered (verdict : A → Verdict B) : List A → List (Offer B)
  | [] => []
  | file :: files =>
    match verdict file with
    | .raises => []
    | .skips => offered verdict files
    | .copies o => o :: offered verdict files

theorem copyEach_eq (verdict : A → Verdict B) (files : List A) (s : Merged B) :
    copyEach verdict files s = (offered verdict files).foldlM Merged.copy s := by
  induction files generalizing s with
  | nil => rfl
  | cons file files ih =>
    rw [copyEach, offered]
    cases verdict file with
    | raises => rfl
    | skips => exact ih s
    | copies o =>
      rw [List.foldlM_cons]
      exact congrArg (s.copy o).bind (funext ih)

theorem mem_offered {verdict : A → Verdict B} {files : List A} {o : Offer B}
    (h : o ∈ offered verdict files) : ∃ file ∈ files, verdict file = .copies o := by
  induction files with
  | nil => cases h
  | cons file files ih =>
    rw [offered] at h
    cases hv : verdict file with
    | raises =>
      rw [hv] at h
      cases h
    | skips =>
      rw [hv] at h
      obtain ⟨f, hf, hvf⟩ := ih h
      exact ⟨f, List.mem_cons_of_mem _ hf, hvf⟩
    | copies o' =>
      rw [hv] at h
      rcases List.mem_cons.mp h with rfl | h
      · exact ⟨file, List.mem_cons_self, hv⟩
      · obtain ⟨f, hf, hvf⟩ := ih h
        exact ⟨f, List.mem_cons_of_mem _ hf, hvf⟩

section
variable [Add K] [Sub K] [Div K] [OfScientific K] [LT K] [DecidableLT K] [DecidableEq K]
  (fixed6 : K → Str) (readText : B → Option Str)

/-- The images that a call copies, with the lines of their labels. -/
def Call.offers : Call K B → List (Offer B)
  | .supervisely src classMap => offered (convertFile fixed6 classMap) (annFiles src)
  | .yolo src classMap srcClassNames =>
    match srcClassNames.map some <|> discoverNames src with
    | none => []
    | some none => []
    | some (some names) =>
      offered (ingestFile readText (idRemap classMap names)) (yoloFiles src)

theorem call_eq (s : Merged B) (call : Call K B) :
    s.call fixed6 readText call = (call.offers fixed6 readText).foldlM Merged.copy s := by
  cases call with
  | supervisely src classMap => exact copyEach_eq _ _ s
  | yolo src classMap srcClassNames =>
    rw [Merged.call, ingestYoloDataset, Call.offers]
    rcases srcClassNames.map some <|> discoverNames src with _ | _ | names
    · rfl
    · rfl
    · exact copyEach_eq _ _ s

theorem foldlM_call (calls : List (Call K B)) (s : Merged B) :
    calls.foldlM (fun s call => s.call fixed6 readText call) s =
      (calls.flatMap (Call.offers fixed6 readText)).foldlM Merged.copy s := by
  induction calls generalizing s with
  | nil => rfl
  | cons call calls ih =>
    rw [List.foldlM_cons, List.flatMap_cons, List.foldlM_append, call_eq]
    exact congrArg (((call.offers fixed6 readText).foldlM Merged.copy s).bind ·) (funext ih)

/-- An annotation comes to an image. -/
theorem isImage_convertFile {classMap : ClassMap} {src : List (AnnDir K B)}
    {file : Dir B × Str × Option (Ann K)} {o : Offer B} (hfile : file ∈ annFiles src)
    (h : convertFile fixed6 classMap file = .copies o) : IsImage o.name := by
  obtain ⟨img, name, ann⟩ := file
  have hname : name ≠ [] := by
    obtain ⟨annDir, -, hdir⟩ := List.mem_flatMap.mp hfile
    split at hdir
    · cases hdir
    · obtain ⟨⟨n, a⟩, hjson, heq⟩ := List.mem_map.mp hdir
      obtain ⟨-, rfl, -⟩ : _ ∧ n = name ∧ a = ann := by simpa using heq
      have hsuffix : ".json".toList.isSuffixOf n = true := (List.mem_filter.mp hjson).2
      rintro rfl
      exact absurd hsuffix (by decide)
  cases ann with
  | none => cases h
  | some ann =>
    simp only [convertFile] at h
    split at h
    · cases h
    · split at h
      · cases h
      · split at h
        · cases h
        · rename_i imgFile content hfind
          obtain rfl := Verdict.copies.inj h
          obtain ⟨ext, hext, hlook⟩ := List.exists_of_findSome?_eq_some hfind
          obtain ⟨_, -, hpair⟩ := Option.map_eq_some_iff.mp hlook
          obtain ⟨rfl, -⟩ := Prod.mk.inj hpair
          exact isImage_append (stem_ne_nil hname) hext

theorem isImage_ingestFile {remap : Int → Option Nat} {file : Dir B × Str × B} {o : Offer B}
    (h : ingestFile readText remap file = .copies o) : IsImage o.name := by
  obtain ⟨labels, name, content⟩ := file
  by_cases himage : IsImage name
  · rw [ingestFile, if_neg (not_not_intro himage)] at h
    split at h
    · cases h
    · split at h
      · cases h
      · cases h
      · obtain rfl := Verdict.copies.inj h
        exact himage
  · rw [ingestFile, if_pos himage] at h
    cases h

/-- Only images are copied. -/
theorem Call.isImage_offers (call : Call K B) {o : Offer B}
    (h : o ∈ call.offers fixed6 readText) : IsImage o.name := by
  cases call with
  | supervisely src classMap =>
    obtain ⟨file, hfile, hv⟩ := mem_offered h
    exact isImage_convertFile fixed6 hfile hv
  | yolo src classMap srcClassNames =>
    simp only [Call.offers] at h
    split at h
    · cases h
    · cases h
    · obtain ⟨file, -, hv⟩ := mem_offered h
      exact isImage_ingestFile readText hv

end

/-! ## Moving -/

theorem lookup_erase_ite {β : Type} (dir : Dir β) (a b : Str) :
    (dir.erase b).lookup a = if a = b then none else dir.lookup a := by
  split
  · rename_i h
    rw [h, AList.lookup_erase]
  · rename_i h
    exact AList.lookup_erase_ne h

/-- The names of the labels of some images. -/
def lblNames (names : List Str) : List Str := names.map fun name => lblName (stem name)

@[simp] theorem mem_lblNames_cons {l name : Str} {names : List Str} :
    l ∈ lblNames (name :: names) ↔ l = lblName (stem name) ∨ l ∈ lblNames names :=
  List.mem_cons

@[simp] theorem not_mem_lblNames_nil {l : Str} : l ∉ lblNames [] := List.not_mem_nil

/-- Where files are after some images were moved, with the labels there were for them. -/
structure Moved (names : List Str) (merged dest merged' dest' : Dataset B) : Prop where
  imagesLeft : ∀ n, merged'.images.lookup n = if n ∈ names then none else merged.images.lookup n
  images : ∀ n, dest'.images.lookup n =
    if n ∈ names then merged.images.lookup n else dest.images.lookup n
  labelsLeft : ∀ l, merged'.labels.lookup l =
    if l ∈ lblNames names then none else merged.labels.lookup l
  labels : ∀ l, dest'.labels.lookup l =
    if l ∈ lblNames names then merged.labels.lookup l <|> dest.labels.lookup l
    else dest.labels.lookup l

theorem moveImage_eq {merged : Dataset B} {name : Str} (dest : Dataset B)
    (h : name ∈ merged.images) :
    ∃ m d, moveImage merged dest name = some (m, d) ∧ Moved [name] merged dest m d := by
  obtain ⟨content, hcontent⟩ := Option.isSome_iff_exists.mp (AList.lookup_isSome.mpr h)
  cases hlbl : merged.labels.lookup (lblName (stem name)) with
  | none =>
    refine ⟨_, _, by simp only [moveImage, hcontent, hlbl]; rfl, ?_⟩
    constructor
    · intro n
      simp [lookup_erase_ite]
    · intro n
      rcases eq_or_ne n name with rfl | hn
      · simp [hcontent]
      · simp [hn]
    · intro l
      rcases eq_or_ne l (lblName (stem name)) with rfl | hl
      · simp [hlbl]
      · simp [hl]
    · intro l
      rcases eq_or_ne l (lblName (stem name)) with rfl | hl
      · simp [hlbl]
      · simp [hl]
  | some text =>
    refine ⟨_, _, by simp only [moveImage, hcontent, hlbl]; rfl, ?_⟩
    constructor
    · intro n
      simp [lookup_erase_ite]
    · intro n
      rcases eq_or_ne n name with rfl | hn
      · simp [hcontent]
      · simp [hn]
    · intro l
      simp [lookup_erase_ite]
    · intro l
      rcases eq_or_ne l (lblName (stem name)) with rfl | hl
      · simp [hlbl]
      · simp [hl]

/-- **Moving images** that are all there: none raises. -/
theorem moveAll_eq {names : List Str} {merged : Dataset B} (dest : Dataset B)
    (hnodup : names.Nodup) (h : ∀ n ∈ names, n ∈ merged.images) :
    ∃ m d, moveAll names merged dest = some (m, d) ∧ Moved names merged dest m d := by
  induction names generalizing merged dest with
  | nil =>
    refine ⟨merged, dest, rfl, ?_⟩
    constructor <;> intro n <;> simp
  | cons name names ih =>
    obtain ⟨hname, hnodup⟩ := List.nodup_cons.mp hnodup
    obtain ⟨m, d, hmove, hm⟩ := moveImage_eq dest (h name List.mem_cons_self)
    have hrest : ∀ n ∈ names, n ∈ m.images := by
      intro n hn
      have hne : n ∉ [name] := by
        rintro hmem
        exact hname (List.mem_singleton.mp hmem ▸ hn)
      rw [← AList.lookup_isSome, hm.imagesLeft, if_neg hne, AList.lookup_isSome]
      exact h n (List.mem_cons_of_mem _ hn)
    obtain ⟨m', d', hall, hm'⟩ := ih d hnodup hrest
    refine ⟨m', d', by rw [moveAll, hmove]; exact hall, ?_⟩
    constructor
    · intro n
      rw [hm'.imagesLeft, hm.imagesLeft]
      by_cases hn : n ∈ names <;> simp [hn]
    · intro n
      rw [hm'.images, hm.imagesLeft, hm.images]
      by_cases hn : n ∈ names
      · have hne : n ≠ name := fun he => hname (he ▸ hn)
        simp [hn, hne]
      · simp [hn]
    · intro l
      rw [hm'.labelsLeft, hm.labelsLeft]
      by_cases hl : l ∈ lblNames names <;> simp [hl]
    · intro l
      rw [hm'.labels, hm.labelsLeft, hm.labels]
      by_cases hl : l ∈ lblNames names <;> by_cases hlbl : l = lblName (stem name) <;>
        simp [hl, hlbl]

/-! ## The split -/

/-- An image is in one part of the split and not in the other, and its label is with it. -/
structure Together (part other : Dataset B) (c : Copy B) : Prop where
  image : part.images.lookup c.outImg = some c.content
  notOther : c.outImg ∉ other.images
  label : part.labels.lookup (lblName (stem c.outImg)) = some c.text

/-- Images and labels are kept together: each image is in exactly one part with its own
label, and no two were given the same one. -/
structure KeepsTogether (copies : List (Copy B)) (split : Split B) : Prop where
  together : ∀ c ∈ copies, Together split.train split.val c ∨ Together split.val split.train c
  unshared : copies.Pairwise fun a b => a.outLbl ≠ b.outLbl

theorem mem_mergedImages {merged : Dataset B} {name : Str} :
    name ∈ mergedImages merged ↔ name ∈ merged.images ∧ IsImage name := by
  simp [mergedImages, AList.mem_keys]

theorem nodup_mergedImages (merged : Dataset B) : (mergedImages merged).Nodup :=
  ((List.mergeSort_perm _ _).nodup_iff.mpr merged.images.keys_nodup).filter _

/-- The images in two parts, and both moved, the first part first. -/
structure Parted (merged : Dataset B) (trainImages valImages : List Str) (split : Split B)
    (left left' : Dataset B) : Prop where
  parts : (valImages ++ trainImages).Perm (mergedImages merged)
  train : Moved trainImages merged .empty left split.train
  val : Moved valImages left .empty left' split.val

theorem Parted.disjoint {merged : Dataset B} {trainImages valImages : List Str} {split : Split B}
    {left left' : Dataset B} (h : Parted merged trainImages valImages split left left') {n : Str}
    (hv : n ∈ valImages) : n ∉ trainImages := fun ht =>
  (List.nodup_append.mp (h.parts.nodup_iff.mpr (nodup_mergedImages merged))).2.2 n hv n ht rfl

theorem moveParts {merged : Dataset B} {trainImages valImages : List Str}
    (h : (valImages ++ trainImages).Perm (mergedImages merged)) :
    ∃ (split : Split B) (left left' : Dataset B),
      moveAll trainImages merged .empty = some (left, split.train) ∧
      moveAll valImages left .empty = some (left', split.val) ∧
      Parted merged trainImages valImages split left left' := by
  obtain ⟨hval, htrain, hdisj⟩ :=
    List.nodup_append.mp (h.nodup_iff.mpr (nodup_mergedImages merged))
  have hmem : ∀ n, n ∈ valImages ∨ n ∈ trainImages → n ∈ merged.images := fun n hn =>
    (mem_mergedImages.mp (h.mem_iff.mp (List.mem_append.mpr hn))).1
  obtain ⟨left, train, hmove, hmoved⟩ :=
    moveAll_eq .empty htrain fun n hn => hmem n (.inr hn)
  have hleft : ∀ n ∈ valImages, n ∈ left.images := by
    intro n hn
    have hout : n ∉ trainImages := fun ht => hdisj n hn n ht rfl
    rw [← AList.lookup_isSome, hmoved.imagesLeft, if_neg hout, AList.lookup_isSome]
    exact hmem n (.inl hn)
  obtain ⟨left', val, hmove', hmoved'⟩ := moveAll_eq .empty hval hleft
  exact ⟨⟨train, val⟩, left, left', hmove, hmove', h, hmoved, hmoved'⟩

/-- **The split** does not raise, and moves each image to one of the parts. -/
theorem splitTrainVal_eq [NatCast K] [Mul K] (trunc : K → Int) {shuffle : S → List Str → List Str}
    (hshuffle : ∀ seed images, (shuffle seed images).Perm images) (merged : Dataset B)
    (valRatio : K) (seed : S) :
    ∃ (trainImages valImages : List Str) (split : Split B) (left left' : Dataset B),
      splitTrainVal trunc shuffle merged valRatio seed =
        some (split, trainImages.length, valImages.length) ∧
      Parted merged trainImages valImages split left left' := by
  generalize hk : sliceAt (shuffle seed (mergedImages merged))
    (trunc ((shuffle seed (mergedImages merged)).length * valRatio)) = k
  have hparts : ((shuffle seed (mergedImages merged)).take k ++
      (shuffle seed (mergedImages merged)).drop k).Perm (mergedImages merged) := by
    rw [List.take_append_drop]
    exact hshuffle seed (mergedImages merged)
  obtain ⟨split, left, left', hmove, hmove', hparted⟩ := moveParts hparts
  refine ⟨_, _, split, left, left', ?_, hparted⟩
  simp only [splitTrainVal, hk, hmove, hmove', Option.bind_eq_bind, Option.bind_some]
  rfl

/-- Every image copied is in exactly one part, as it was copied. -/
theorem image_in_one {s : Merged B} (hlog : Logged s) {trainImages valImages : List Str}
    {left left' : Dataset B} {split : Split B}
    (h : Parted s.dataset trainImages valImages split left left') {c : Copy B} (hc : c ∈ s.copies) :
    (c.outImg ∈ trainImages ∧ split.train.images.lookup c.outImg = some c.content ∧
        c.outImg ∉ split.val.images) ∨
      (c.outImg ∈ valImages ∧ c.outImg ∉ trainImages ∧
        split.val.images.lookup c.outImg = some c.content ∧ c.outImg ∉ split.train.images) := by
  have hin : c.outImg ∈ valImages ++ trainImages := h.parts.mem_iff.mpr
    (mem_mergedImages.mpr ⟨(hlog.mem_images _).mpr ⟨c, hc, rfl⟩, hlog.image c hc⟩)
  rcases List.mem_append.mp hin with hv | ht
  · have hnot : c.outImg ∉ trainImages := h.disjoint hv
    refine .inr ⟨hv, hnot, ?_, ?_⟩
    · rw [h.val.images, if_pos hv, h.train.imagesLeft, if_neg hnot, hlog.content c hc]
    · rw [← AList.lookup_eq_none, h.train.images, if_neg hnot]
      rfl
  · have hnot : c.outImg ∉ valImages := fun hv => h.disjoint hv ht
    refine .inl ⟨ht, ?_, ?_⟩
    · rw [h.train.images, if_pos ht, hlog.content c hc]
    · rw [← AList.lookup_eq_none, h.val.images, if_neg hnot]
      rfl

theorem mem_lblNames {l : Str} {names : List Str} :
    l ∈ lblNames names ↔ ∃ n ∈ names, lblName (stem n) = l :=
  List.mem_map

/-- **Distinct labels stay with their images.** -/
theorem together_of_unshared {s : Merged B} (hlog : Logged s)
    (hpair : s.copies.Pairwise fun a b => a.outLbl ≠ b.outLbl) {trainImages valImages : List Str}
    {left left' : Dataset B} {split : Split B}
    (h : Parted s.dataset trainImages valImages split left left') {c : Copy B} (hc : c ∈ s.copies) :
    Together split.train split.val c ∨ Together split.val split.train c := by
  have htext : s.dataset.labels.lookup (lblName (stem c.outImg)) = some c.text := by
    rw [← hlog.label c hc]
    exact hlog.text hpair c hc
  rcases image_in_one hlog h hc with ⟨ht, himage, hnot⟩ | ⟨hv, ht, himage, hnot⟩
  · refine .inl ⟨himage, hnot, ?_⟩
    rw [h.train.labels, if_pos (mem_lblNames.mpr ⟨_, ht, rfl⟩), htext]
    rfl
  · -- no image of the first part took the label along
    have hstays : lblName (stem c.outImg) ∉ lblNames trainImages := by
      intro hl
      obtain ⟨n, hn, hlbl⟩ := mem_lblNames.mp hl
      have hmem := (mem_mergedImages.mp (h.parts.mem_iff.mp (List.mem_append_right _ hn))).1
      obtain ⟨d, hd, rfl⟩ := (hlog.mem_images n).mp hmem
      have heq : d.outLbl = c.outLbl := by rw [hlog.label d hd, hlog.label c hc, hlbl]
      have hnodup : (s.copies.map Copy.outLbl).Nodup := List.pairwise_map.mpr hpair
      exact ht (List.inj_on_of_nodup_map hnodup hd hc heq ▸ hn)
    refine .inr ⟨himage, hnot, ?_⟩
    rw [h.val.labels, if_pos (mem_lblNames.mpr ⟨_, hv, rfl⟩), h.train.labelsLeft, if_neg hstays,
      htext]
    rfl

/-! ## The whole preparation -/

section
variable [Add K] [Sub K] [Mul K] [Div K] [NatCast K] [OfScientific K] [LT K] [DecidableLT K]
  [DecidableEq K] (fixed6 : K → Str) (readText : B → Option Str) (trunc : K → Int)
  {shuffle : S → List Str → List Str}

/-- **Images and labels stay together** exactly if no image, when it is copied, finds a
label that has the name its own is to get. -/
theorem keepsTogether_iff (hshuffle : ∀ seed images, (shuffle seed images).Perm images)
    (calls : List (Call K B)) (valRatio : K) (seed : S) :
    ∃ s split counts, mergeAll fixed6 readText calls = some s ∧
      splitTrainVal trunc shuffle s.dataset valRatio seed = some (split, counts) ∧
      (KeepsTogether s.copies split ↔
        Along copyStep LabelFree .empty (calls.flatMap (Call.offers fixed6 readText))) := by
  obtain ⟨s, hmerge, hlog, hiff⟩ := foldlM_copy logged_empty fun o ho => by
    obtain ⟨call, -, ho⟩ := List.mem_flatMap.mp ho
    exact Call.isImage_offers fixed6 readText call ho
  obtain ⟨trainImages, valImages, split, left, left', hsplit, hparted⟩ :=
    splitTrainVal_eq trunc hshuffle s.dataset valRatio seed
  refine ⟨s, split, _, (foldlM_call fixed6 readText calls _).trans hmerge, hsplit, ?_⟩
  constructor
  · intro h
    exact (hiff.mp h.unshared).2
  · intro halong
    have hpair := hiff.mpr ⟨List.Pairwise.nil, halong⟩
    exact ⟨fun c hc => together_of_unshared hlog hpair hparted hc, hpair⟩

end

/-- **One suffix** is enough: images that all have the same one never meet another's label. -/
theorem labelFree_of_suffix {s : Merged B} (h : Logged s) {ext : Str} {offers : List (Offer B)}
    (hcopies : ∀ c ∈ s.copies, suffix c.outImg = ext)
    (hoffers : ∀ o ∈ offers, IsImage o.name ∧ suffix o.name = ext) :
    Along copyStep LabelFree s.dataset offers := by
  induction offers generalizing s with
  | nil => trivial
  | cons o offers ih =>
    obtain ⟨⟨ho, hext⟩, hrest⟩ := List.forall_mem_cons.mp hoffers
    obtain ⟨c, hcopy, hc⟩ := copyImage_eq s.dataset o
    have hsuffix : suffix c.outImg = ext := (hc.suffix ho).trans hext
    refine ⟨?_, fun d hd => ?_⟩
    · intro out hout hmem
      obtain rfl := Option.some.inj (hc.target.symm.trans hout)
      obtain ⟨b, hb, hlbl⟩ := (h.mem_labels _).mp hmem
      -- one stem and one suffix make one name
      have hstem : stem b.outImg = stem c.outImg := by
        rw [h.label b hb] at hlbl
        exact List.append_cancel_right (hlbl.trans (hc.label ho))
      have hname : b.outImg = c.outImg := by
        rw [← stem_append_suffix b.outImg, ← stem_append_suffix c.outImg, hstem, hcopies b hb,
          hsuffix]
      exact hc.free ((h.mem_images _).mpr ⟨b, hb, hname⟩)
    · rw [copyStep, hcopy] at hd
      obtain rfl := Option.some.inj hd
      exact ih (h.copied ho hc) (forall_mem_concat.mpr ⟨hcopies, hsuffix⟩) hrest

/-! ## One stem, two suffixes -/

/-- A source with one image and its label. -/
def oneImage (image label : String) : YoloSource Str where
  path := "own".toList
  config f := if f = "data.yaml".toList then
    some (some (.list ["blue_cone".toList, "yellow_cone".toList])) else none
  dir d :=
    if d = "own/images".toList then some ((∅ : Dir Str).insert image.toList [])
    else if d = "own/labels".toList then some ((∅ : Dir Str).insert "a.txt".toList label.toList)
    else none

/-- A photo of a blue cone, and a screenshot of a yellow one. -/
def jpgAndPng : List (Call ℚ Str) :=
  [.yolo (oneImage "a.jpg" "0 0.5 0.5 0.1 0.1") some none,
    .yolo (oneImage "a.png" "1 0.5 0.5 0.2 0.2") some none]

/-- `int`, of a fraction. -/
def truncQ (x : ℚ) : Int := x.num.tdiv x.den

theorem keepsTogether_jpgAndPng : ∃ s split counts,
    mergeAll (fun _ : ℚ => []) some jpgAndPng = some s ∧
      splitTrainVal truncQ (fun _ : Unit => List.reverse) s.dataset (3 / 20) () =
        some (split, counts) ∧
      (KeepsTogether s.copies split ↔ Along copyStep LabelFree .empty
        (jpgAndPng.flatMap (Call.offers (fun _ => []) some))) :=
  keepsTogether_iff (fun _ => []) some truncQ (fun _ => List.reverse_perm) jpgAndPng (3 / 20) ()

/-- The label of the photo is overwritten. -/
theorem jpgAndPng_shared : ¬ ∀ (fixed6 : ℚ → Str) (readText : Str → Option Str) (trunc : ℚ → Int)
    (shuffle : Unit → List Str → List Str) (calls : List (Call ℚ Str)) (valRatio : ℚ) (seed : Unit)
    (s : Merged Str) (split : Split Str) (counts : Nat × Nat),
    (∀ seed images, (shuffle seed images).Perm images) → 0 ≤ valRatio → valRatio ≤ 1 →
    mergeAll fixed6 readText calls = some s →
    splitTrainVal trunc shuffle s.dataset valRatio seed = some (split, counts) →
    KeepsTogether s.copies split := by
  intro hall
  obtain ⟨s, hs⟩ : ∃ s, mergeAll (fun _ : ℚ => []) some jpgAndPng = some s :=
    Option.isSome_iff_exists.mp (by decide +kernel)
  have hshared : ∀ s ∈ mergeAll (fun _ : ℚ => []) some jpgAndPng,
      ¬ s.copies.Pairwise (fun a b => a.outLbl ≠ b.outLbl) := by
    decide +kernel
  have hperm : ∀ (seed : Unit) (images : List Str), images.reverse.Perm images :=
    fun _ => List.reverse_perm
  obtain ⟨_, _, split, _, _, hsplit, -⟩ := splitTrainVal_eq truncQ hperm s.dataset (3 / 20) ()
  have htogether := hall _ some truncQ _ jpgAndPng (3 / 20) () s split _ hperm (by decide +kernel)
    (by decide +kernel) hs hsplit
  exact hshared s hs htogether.unshared

end KartStack.PrepareDataset
