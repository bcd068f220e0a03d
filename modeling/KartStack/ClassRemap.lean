import KartStack.DatasetPrepare
import KartStack.PythonLoops

/-! # Class ids

A source says what its class ids are called, in a list or in a mapping from ids to
names.  `ingest_yolo_dataset` turns a mapping into a list, and goes by the places in
that list: the id `k` is taken for the `k`-th of the ids that have a name.  Labels keep
their classes exactly if that makes no difference (`remapsIds_iff`), and for all class
maps exactly if the ids with a name are `0`, `1`, ... without a gap.
-/
namespace KartStack.PrepareDataset
open KartStack.Python

variable {B : Type}

/-! ## What a label is to become -/

namespace Names

/-- `names[k]`, if the class `k` has a name. -/
def name : Names → Int → Option Str
  | .list names, k => if 0 ≤ k then names[k.toNat]? else none
  | .mapping names, k => names.lookup k
  | .other, _ => none

/-- `src_class_names`. -/
def listed : Names → Option (List Str)
  | .list names => some names
  | .mapping names => some (sorted names)
  | .other => none

/-- The name of the `k`-th id that has one, in order. -/
def ranked (names : Names) (k : Int) : Option Str :=
  if 0 ≤ k then names.listed.bind fun names => names[k.toNat]? else none

/-- The ids with a name are `0`, `1`, ... without a gap. -/
def Contiguous : Names → Prop
  | .list _ => True
  | .mapping names => ∀ k, k ∈ names ↔ 0 ≤ k ∧ k < names.keys.length
  | .other => False

end Names

/-- `CLASS_TO_ID[class_map[name]]`, for the name of a class if it has one. -/
def classOf (classMap : ClassMap) (srcName : Option Str) : Option Nat := do
  let srcName ← srcName
  let targetName ← classMap srcName
  classToId targetName

/-- The fields of a label line that are read: there are at least five. -/
def fields (line : Str) : Option (Str × List Str) :=
  match words (strip line) with
  | srcId :: rest => if 4 ≤ rest.length then some (srcId, rest) else none
  | [] => none

/-- The line that is to be written for a line, if any: the class of its id, and the same
remaining fields. -/
def expectedLine (names : Names) (classMap : ClassMap) (line : Str) : Option Str := do
  let (srcId, rest) ← fields line
  let k ← readInt srcId
  let classId ← classOf classMap (names.name k)
  return join [' '] (decimal classId :: rest)

/-- All lines of a text have an id that is a number, if they are read. -/
def Numbered (text : Str) : Prop :=
  ∀ line ∈ splitLines (strip text), ∀ srcId rest, fields line = some (srcId, rest) →
    (readInt srcId).isSome

instance (text : Str) : Decidable (Numbered text) :=
  decidable_of_iff (∀ line ∈ splitLines (strip text),
      ∀ parts ∈ fields line, (readInt parts.1).isSome) <| by
    simp only [Numbered, Prod.forall, Option.mem_def]

/-- What an image is to come to.  An id that is no number is the only thing in a label
that the program may fail on. -/
def expectedFile (readText : B → Option Str) (names : Names) (classMap : ClassMap) :
    Dir B × Str × B → Verdict B
  | (labels, name, content) =>
    if ¬ IsImage name then .skips
    else
      match labels.lookup (lblName (stem name)) with
      | none => .skips
      | some lblFile =>
        match readText lblFile with
        | none => .raises
        | some text =>
          if ¬ Numbered text then .raises
          else
            match (splitLines (strip text)).filterMap (expectedLine names classMap) with
            | [] => .skips
            | lines => .copies ⟨name, content, lines⟩

/-- Labels keep their classes: whatever the images and labels of a source with these
names, it is ingested as it is to be. -/
def RemapsIds (names : Names) (classMap : ClassMap) : Prop :=
  ∀ (B : Type) (readText : B → Option Str) (src : YoloSource B) (s : Merged B),
    src.config "data.yaml".toList = some (some names) →
      ingestYoloDataset readText src classMap none s =
        copyEach (expectedFile readText names classMap) (yoloFiles src) s

/-! ## What it becomes -/

theorem join_cons (a : Str) {rest : List Str} (h : rest ≠ []) :
    join [' '] (a :: rest) = a ++ ' ' :: join [' '] rest := by
  cases rest with
  | nil => exact absurd rfl h
  | cons b rest => simp [join]

/-- What becomes of a line, by its fields. -/
theorem remapLine_eq (remap : Int → Option Nat) (line : Str) :
    remapLine remap line =
      match fields line with
      | none => some none
      | some (srcId, rest) => (readInt srcId).map fun k =>
          (remap k).map fun classId => join [' '] (decimal classId :: rest) := by
  rw [remapLine, fields]
  cases words (strip line) with
  | nil => rfl
  | cons srcId rest =>
    by_cases hrest : rest.length < 4
    · simp [hrest, Nat.not_le.mpr hrest]
    · have hne : rest ≠ [] := by
        rintro rfl
        exact hrest (by decide)
      simp [hrest, Nat.not_lt.mp hrest, join_cons _ hne]

theorem remapLine_expected (names : Names) (classMap : ClassMap) (line : Str) :
    remapLine (fun k => classOf classMap (names.name k)) line =
      if ∀ parts ∈ fields line, (readInt parts.1).isSome then
        some (expectedLine names classMap line)
      else none := by
  rw [remapLine_eq, expectedLine]
  cases fields line with
  | none => simp
  | some parts =>
    obtain ⟨srcId, rest⟩ := parts
    cases hid : readInt srcId with
    | none => simp [hid]
    | some k =>
      cases hclass : classOf classMap (names.name k) <;> simp [hid, hclass]

theorem reduceOption_map {A : Type} (f : A → Option B) (as : List A) :
    (as.map f).reduceOption = as.filterMap f := List.filterMap_map ..

theorem remapLabel_expected (names : Names) (classMap : ClassMap) (text : Str) :
    remapLabel (fun k => classOf classMap (names.name k)) text =
      if Numbered text then
        some ((splitLines (strip text)).filterMap (expectedLine names classMap))
      else none := by
  have hnumbered : Numbered text ↔ ∀ line ∈ splitLines (strip text),
      ∀ parts ∈ fields line, (readInt parts.1).isSome := by
    simp only [Numbered, Prod.forall, Option.mem_def]
  rw [remapLabel, mapM_ite (remapLine_expected names classMap)]
  by_cases h : Numbered text
  · rw [if_pos h, if_pos (hnumbered.mp h), Option.map_some, reduceOption_map]
  · rw [if_neg h, if_neg (mt hnumbered.mpr h), Option.map_none]

/-- The loop as it is to be is the loop of the program, over the classes of the ids. -/
theorem expectedFile_eq (readText : B → Option Str) (names : Names) (classMap : ClassMap) :
    expectedFile readText names classMap =
      ingestFile readText fun k => classOf classMap (names.name k) := by
  funext ⟨labels, name, content⟩
  rw [expectedFile, ingestFile]
  by_cases himage : IsImage name
  · rw [if_neg (not_not_intro himage), if_neg (not_not_intro himage)]
    cases labels.lookup (lblName (stem name)) with
    | none => rfl
    | some lblFile =>
      simp only []
      cases readText lblFile with
      | none => rfl
      | some text =>
        rw [Option.bind_some, remapLabel_expected]
        by_cases htext : Numbered text
        · simp only [htext, not_true_eq_false, if_true, if_false]
          cases (splitLines (strip text)).filterMap (expectedLine names classMap) <;> rfl
        · simp [htext]
  · rw [if_pos himage, if_pos himage]

/-- The ids go by the places in the list of names. -/
theorem idRemap_eq {names : Names} {srcClassNames : List Str}
    (h : names.listed = some srcClassNames) (classMap : ClassMap) :
    idRemap classMap srcClassNames = fun k => classOf classMap (names.ranked k) := by
  funext k
  rw [idRemap, Names.ranked, h]
  by_cases hk : 0 ≤ k
  · simp [hk, guard, classOf]
  · simp [hk, guard, classOf]

theorem listed_eq_some {names : Names} (h : names ≠ .other) :
    ∃ srcClassNames, names.listed = some srcClassNames := by
  cases names with
  | list names => exact ⟨names, rfl⟩
  | mapping names => exact ⟨Names.sorted names, rfl⟩
  | other => exact absurd rfl h

theorem discoverNames_eq {src : YoloSource B} {names : Names}
    (h : src.config "data.yaml".toList = some (some names)) :
    discoverNames src = some names.listed := by
  rw [discoverNames, List.findSome?_cons, h]
  cases names <;> rfl

/-- **What is ingested.** The classes are those of the names by rank. -/
theorem ingestYoloDataset_eq (readText : B → Option Str) {src : YoloSource B} {names : Names}
    (hother : names ≠ .other) (h : src.config "data.yaml".toList = some (some names))
    (classMap : ClassMap) (s : Merged B) :
    ingestYoloDataset readText src classMap none s =
      copyEach (ingestFile readText fun k => classOf classMap (names.ranked k))
        (yoloFiles src) s := by
  obtain ⟨srcClassNames, hlisted⟩ := listed_eq_some hother
  rw [ingestYoloDataset, Option.map_none, discoverNames_eq h, hlisted]
  rw [← idRemap_eq hlisted classMap]
  rfl

/-! ## A source with one label -/

/-- A directory with one file. -/
def oneFile (name : Str) (content : B) : Dir B := AList.singleton name content

/-- A source with one image, whose label is the given text. -/
def oneLabel (names : Names) (text : Str) : YoloSource Str where
  path := "src".toList
  config f := if f = "data.yaml".toList then some (some names) else none
  dir d :=
    if d = "src/images".toList then some (oneFile "a.png".toList [])
    else if d = "src/labels".toList then some (oneFile "a.txt".toList text)
    else none

theorem yoloFiles_oneLabel (names : Names) (text : Str) :
    yoloFiles (oneLabel names text) =
      [(oneFile "a.txt".toList text, "a.png".toList, [])] := by
  have hdirs : imgDirs (oneLabel names text) = ["src/images".toList] := rfl
  have hlbl : lblDir "src/images".toList = "src/labels".toList := by decide
  have himages : (oneLabel names text).dir "src/images".toList =
      some (oneFile "a.png".toList ([] : Str)) := rfl
  have hlabels : (oneLabel names text).dir "src/labels".toList =
      some (oneFile "a.txt".toList text) := rfl
  have hsorted : sortedFiles (oneFile "a.png".toList ([] : Str)) =
      [("a.png".toList, ([] : Str))] := by
    have hkeys : (oneFile "a.png".toList ([] : Str)).keys = ["a.png".toList] := rfl
    rw [sortedFiles, hkeys, List.mergeSort_singleton]
    rfl
  rw [yoloFiles, hdirs, List.flatMap_singleton, hlbl, himages, hlabels]
  simp only [hsorted, List.map_cons, List.map_nil]

/-- The line of the class `k`. -/
def lineOf (k : Int) : Str := join [' '] (decimalInt k :: List.replicate 4 ['0'])

theorem lineOf_eq (k : Int) : lineOf k = decimalInt k ++ " 0 0 0 0".toList := by
  simp [lineOf, join, List.replicate]

theorem strip_lineOf (k : Int) : strip (lineOf k) = lineOf k := by
  rw [lineOf_eq]
  refine strip_of_ends (fun c hc => ?_) fun c hc => ?_
  · rw [List.head?_append_of_ne_nil _ (decimalInt_ne_nil k)] at hc
    exact decimalInt_not_space k c (List.mem_of_mem_head? hc)
  · rw [List.getLast?_append_of_ne_nil _ (by decide)] at hc
    obtain rfl := Option.some.inj hc
    decide

theorem splitLines_lineOf (k : Int) : splitLines (lineOf k) = [lineOf k] := by
  have hnobreak : ∀ c ∈ lineOf k, isLineBreak c = false := by
    rw [lineOf_eq]
    intro c hc
    rcases List.mem_append.mp hc with hc | hc
    · exact isLineBreak_of_not_space (decimalInt_not_space k c hc)
    · obtain rfl | rfl : c = ' ' ∨ c = '0' := by
        have hchars : c = ' ' ∨ c = '0' ∨ c = ' ' ∨ c = '0' ∨ c = ' ' ∨ c = '0' ∨ c = ' ' ∨
            c = '0' := by simpa using hc
        tauto
      · decide
      · decide
  refine splitLines_of_not_break hnobreak ?_
  rw [lineOf_eq]
  exact List.append_ne_nil_of_left_ne_nil (decimalInt_ne_nil k) _

theorem fields_lineOf (k : Int) :
    fields (lineOf k) = some (decimalInt k, List.replicate 4 ['0']) := by
  rw [fields, strip_lineOf, lineOf, words_join]
  · rfl
  · refine List.forall_mem_cons.mpr ⟨⟨decimalInt_ne_nil k, decimalInt_not_space k⟩, ?_⟩
    intro w hw
    obtain rfl := List.eq_of_mem_replicate hw
    exact ⟨List.cons_ne_nil _ _, List.forall_mem_singleton.mpr (by decide)⟩

/-- What becomes of the label with that line. -/
theorem ingestFile_oneLabel (remap : Int → Option Nat) (k : Int) :
    ingestFile some remap (oneFile "a.txt".toList (lineOf k), "a.png".toList, []) =
      match remap k with
      | none => .skips
      | some classId => .copies ⟨"a.png".toList, [],
          [join [' '] (decimal classId :: List.replicate 4 ['0'])]⟩ := by
  have himage : IsImage "a.png".toList := by decide
  have hlookup : (oneFile "a.txt".toList (lineOf k)).lookup (lblName (stem "a.png".toList)) =
      some (lineOf k) := rfl
  have hlabel : remapLabel remap (lineOf k) = some ((remap k).map fun classId =>
      join [' '] (decimal classId :: List.replicate 4 ['0'])).toList := by
    rw [remapLabel, strip_lineOf, splitLines_lineOf, List.mapM_cons, List.mapM_nil, remapLine_eq,
      fields_lineOf]
    cases hremap : remap k with
    | none =>
      simp only [readInt_decimalInt, hremap, Option.map_some, Option.map_none]
      rfl
    | some classId =>
      simp only [readInt_decimalInt, hremap, Option.map_some]
      rfl
  rw [ingestFile, if_neg (not_not_intro himage), hlookup]
  simp only [Option.bind_some, hlabel]
  cases remap k <;> rfl

/-- **The label that is written shows the class of the line.** -/
theorem remap_eq_of_copyEach {remap remap' : Int → Option Nat} {k : Int}
    (h : copyEach (ingestFile some remap)
        [(oneFile "a.txt".toList (lineOf k), "a.png".toList, [])] ⟨.empty, []⟩ =
      copyEach (ingestFile some remap')
        [(oneFile "a.txt".toList (lineOf k), "a.png".toList, [])] ⟨.empty, []⟩) :
    remap k = remap' k := by
  have htexts : ∀ remap : Int → Option Nat, (copyEach (ingestFile some remap)
        [(oneFile "a.txt".toList (lineOf k), "a.png".toList, [])] ⟨.empty, []⟩).map
          (fun s => s.copies.map (·.text)) =
      some ((remap k).map fun classId =>
        labelText [join [' '] (decimal classId :: List.replicate 4 ['0'])]).toList := by
    intro remap
    rw [copyEach, ingestFile_oneLabel]
    cases remap k <;> rfl
  have hlists := Option.some.inj ((htexts remap).symm.trans ((congrArg _ h).trans (htexts remap')))
  cases hk : remap k with
  | none =>
    rw [hk] at hlists
    cases hk' : remap' k with
    | none => rfl
    | some _ => simp [hk'] at hlists
  | some classId =>
    cases hk' : remap' k with
    | none => simp [hk, hk'] at hlists
    | some classId' =>
      have htext : labelText [join [' '] (decimal classId :: List.replicate 4 ['0'])] =
          labelText [join [' '] (decimal classId' :: List.replicate 4 ['0'])] := by
        simpa [hk, hk'] using hlists
      have hline : decimal classId ++ " 0 0 0 0\n".toList =
          decimal classId' ++ " 0 0 0 0\n".toList := by
        simpa [labelText, join, List.replicate] using htext
      rw [decimal_inj (List.append_cancel_right hline)]

/-! ## Ids with gaps -/

/-- The names in the order of their ids: there is one for each id. -/
theorem length_sorted (names : AList fun _ : Int => Str) :
    (Names.sorted names).length = names.keys.length := by
  have hall : ∀ k ∈ names.keys.mergeSort fun a b => a ≤ b, (names.lookup k).isSome := by
    intro k hk
    exact AList.lookup_isSome.mpr ((List.mergeSort_perm _ _).mem_iff.mp hk)
  rw [Names.sorted, List.filterMap_length_eq_length.mpr hall, (List.mergeSort_perm _ _).length_eq]

theorem ranked_isSome {names : AList fun _ : Int => Str} {k : Int} :
    ((Names.mapping names).ranked k).isSome ↔ 0 ≤ k ∧ k < names.keys.length := by
  rw [Names.ranked, ← length_sorted]
  by_cases hk : 0 ≤ k
  · rw [if_pos hk, Names.listed, Option.bind_some, isSome_getElem?]
    omega
  · simp [hk]

theorem sorted_keys {names : AList fun _ : Int => Str} (h : (Names.mapping names).Contiguous) :
    (names.keys.mergeSort fun a b => a ≤ b) = (List.range names.keys.length).map Int.ofNat := by
  refine List.Perm.eq_of_pairwise' (r := (· ≤ ·)) (List.pairwise_mergeSort' _ _) ?_ ?_
  · exact (List.pairwise_lt_range.map _ fun a b hab => by simpa using hab).imp Int.le_of_lt
  · refine (List.mergeSort_perm _ _).trans ?_
    rw [List.perm_ext_iff_of_nodup names.keys_nodup
      (List.nodup_range.map fun _ _ => Int.ofNat.inj)]
    intro k
    rw [← AList.mem_keys, h k, List.mem_map]
    constructor
    · rintro ⟨h0, hk⟩
      exact ⟨k.toNat, List.mem_range.mpr (by omega), by simpa using h0⟩
    · rintro ⟨i, hi, rfl⟩
      exact ⟨Int.natCast_nonneg i, Int.ofNat_lt.mpr (List.mem_range.mp hi)⟩

theorem ranked_eq_name {names : Names} (h : names.Contiguous) (k : Int) :
    names.ranked k = names.name k := by
  cases names with
  | other => exact h.elim
  | list names => rfl
  | mapping names =>
    have hname : ∀ i ∈ (List.range names.keys.length).map Int.ofNat,
        names.lookup i = some ((names.lookup i).getD []) := by
      intro i hi
      obtain ⟨j, hj, rfl⟩ := List.mem_map.mp hi
      have hmem : Int.ofNat j ∈ names :=
        (h _).mpr ⟨Int.natCast_nonneg j, Int.ofNat_lt.mpr (List.mem_range.mp hj)⟩
      obtain ⟨name, hlookup⟩ := Option.isSome_iff_exists.mp (AList.lookup_isSome.mpr hmem)
      rw [hlookup]
      rfl
    have hsorted : Names.sorted names =
        (List.range names.keys.length).map fun i => (names.lookup (Int.ofNat i)).getD [] := by
      rw [Names.sorted, sorted_keys h, List.filterMap_congr hname, List.filterMap_eq_map',
        List.map_map]
      rfl
    by_cases hk : 0 ≤ k ∧ k < names.keys.length
    · have hin : k.toNat < names.keys.length := by omega
      have hcast : Int.ofNat k.toNat = k := by simpa using hk.1
      have hmem : k ∈ (List.range names.keys.length).map Int.ofNat :=
        List.mem_map.mpr ⟨k.toNat, List.mem_range.mpr hin, hcast⟩
      rw [Names.ranked, if_pos hk.1, Names.listed, Option.bind_some, hsorted, List.getElem?_map,
        List.getElem?_range hin, Option.map_some, hcast]
      exact (hname k hmem).symm
    · have hranked : (Names.mapping names).ranked k = none :=
        Option.not_isSome_iff_eq_none.mp (mt ranked_isSome.mp hk)
      have hnone : names.lookup k = none := AList.lookup_eq_none.mpr (mt (h k).mp hk)
      rw [hranked, Names.name, hnone]

/-- If every name is mapped, the ids with a name are told from the others. -/
theorem contiguous_of_forall {names : Names} (hother : names ≠ .other)
    (h : ∀ classMap k, classOf classMap (names.name k) = classOf classMap (names.ranked k)) :
    names.Contiguous := by
  have hall : ∀ name : Option Str,
      (classOf (fun _ => some "blue_cone".toList) name).isSome = name.isSome := by
    rintro (_ | name)
    · rfl
    · exact (by decide : (classToId "blue_cone".toList).isSome = true)
  cases names with
  | other => exact hother rfl
  | list names => trivial
  | mapping names =>
    intro k
    have hk := congrArg Option.isSome (h (fun _ => some "blue_cone".toList) k)
    rw [hall, hall] at hk
    rw [← AList.lookup_isSome, ← ranked_isSome, ← hk]
    rfl

/-- **When labels keep their classes.** For a class map exactly if each id has the class of
the name that comes at its place; for all class maps exactly if the ids have no gaps. -/
theorem remapsIds_iff (names : Names) (hother : names ≠ .other) :
    (∀ classMap, RemapsIds names classMap ↔
        ∀ k, classOf classMap (names.name k) = classOf classMap (names.ranked k)) ∧
      ((∀ classMap, RemapsIds names classMap) ↔ names.Contiguous) := by
  have hone : ∀ classMap, RemapsIds names classMap ↔
      ∀ k, classOf classMap (names.name k) = classOf classMap (names.ranked k) := by
    intro classMap
    constructor
    · intro h k
      have hsource := h Str some (oneLabel names (lineOf k)) ⟨.empty, []⟩ rfl
      rw [ingestYoloDataset_eq some hother rfl, expectedFile_eq, yoloFiles_oneLabel] at hsource
      exact (remap_eq_of_copyEach hsource).symm
    · intro h B readText src s hnames
      rw [ingestYoloDataset_eq readText hother hnames, expectedFile_eq, funext h]
  refine ⟨hone, fun h => ?_, fun h classMap => ?_⟩
  · exact contiguous_of_forall hother fun classMap => (hone classMap).mp (h classMap)
  · exact (hone classMap).mpr fun k => by rw [ranked_eq_name h]

/-- Two classes, the second one first in the file. -/
def fromZero : Names :=
  .mapping ((AList.singleton 0 "blue_cone".toList).insert 1 "yellow_cone".toList)

/-- A list of names has no gaps, and neither has this mapping. -/
theorem remapsIds_fromZero : RemapsIds fromZero some ∧
    RemapsIds (.list ["blue_cone".toList, "yellow_cone".toList]) some := by
  have hcontiguous : fromZero.Contiguous := by
    intro k
    have hkeys : k ∈ ((AList.singleton 0 "blue_cone".toList).insert 1 "yellow_cone".toList :
        AList fun _ : Int => Str) ↔ k ∈ [(1 : Int), 0] := Iff.rfl
    rw [hkeys]
    show _ ↔ 0 ≤ k ∧ k < 2
    simp only [List.mem_cons, List.not_mem_nil, or_false]
    omega
  exact ⟨(remapsIds_iff fromZero (by simp [fromZero])).2.mpr hcontiguous some,
    (remapsIds_iff (.list ["blue_cone".toList, "yellow_cone".toList])
      (by simp)).2.mpr trivial some⟩

/-- Two classes, with ids that start at one. -/
def fromOne : Names :=
  .mapping ((AList.singleton 1 "blue_cone".toList).insert 2 "yellow_cone".toList)

/-- The lines of the second class are dropped. -/
theorem not_remapsIds_fromOne :
    ¬ ∀ names : Names, names ≠ .other → ∀ classMap, RemapsIds names classMap := by
  intro h
  have hsource := h fromOne (by simp [fromOne]) some Str some (oneLabel fromOne (lineOf 2))
    ⟨.empty, []⟩ rfl
  rw [ingestYoloDataset_eq some (by simp [fromOne]) rfl, expectedFile_eq,
    yoloFiles_oneLabel] at hsource
  have hclass := remap_eq_of_copyEach hsource
  have hranked : fromOne.ranked 2 = none :=
    Option.not_isSome_iff_eq_none.mp (mt ranked_isSome.mp (by decide))
  rw [hranked] at hclass
  revert hclass
  decide

end KartStack.PrepareDataset
