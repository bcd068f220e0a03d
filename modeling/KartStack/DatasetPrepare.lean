import KartStack.PythonNumbers
import KartStack.PythonStrings
import Mathlib.Data.Char
import Mathlib.Data.List.AList
import Mathlib.Data.List.Lex

/-! # Preparing the data set

`prepare_dataset.py` merges data sets of two formats into one directory of images and
labels, and splits that into a part to train on and one to validate on.

A directory is a finite map from the names of its files to what they hold: bytes of a
type `B`, which `read_text` may fail to decode, or a text the program wrote itself.
What is read of a source is taken as read: parsed JSON and YAML, with `none` for a file
of another form, on which the program raises.  Formatting a number with six decimals
and shuffling are parameters.
-/
namespace KartStack.PrepareDataset
open KartStack.Python

/-- `CLASSES`. -/
def classes : List Str :=
  ["blue_cone".toList, "yellow_cone".toList, "orange_cone".toList, "large_orange_cone".toList]

/-- `CLASS_TO_ID.get(name)`. -/
def classToId (name : Str) : Option Nat := classes.idxOf? name

/-- `class_map.get(name)`; a class mapped to null reads as one not there. -/
abbrev ClassMap := Str → Option Str

/-- A directory, by the names of its files. -/
abbrev Dir (β : Type) := AList fun _ : Str => β

/-- The files of a directory, sorted by name. -/
def sortedFiles {β : Type} (dir : Dir β) : List (Str × β) :=
  (dir.keys.mergeSort fun a b => a ≤ b).filterMap fun name =>
    (dir.lookup name).map fun file => (name, file)

/-- A directory with `images` and `labels`. -/
structure Dataset (B : Type) where
  images : Dir B
  labels : Dir Str

/-- Both made and empty. -/
def Dataset.empty {B : Type} : Dataset B := ⟨∅, ∅⟩

variable {A B K S : Type}

/-! ## Copying one image -/

/-- An image that is to be copied, with the lines of its label. -/
structure Offer (B : Type) where
  name : Str
  content : B
  lines : List Str

/-- An image that was copied: the files written for it, and what was written. -/
structure Copy (B : Type) where
  outImg : Str
  content : B
  outLbl : Str
  text : Str

/-- The name of the label for a stem. -/
def lblName (stem : Str) : Str := stem ++ ".txt".toList

/-- `f"{img_file.stem}_{counter}"`. -/
def numbered (name : Str) (counter : Nat) : Str := stem name ++ '_' :: decimal counter

/-- `while out_img.exists()`: the pair is `out_img` and `out_lbl`; the first number bounds
the passes of the loop. -/
def dedup (images : Dir B) (name : Str) : Nat → Nat → Str × Str → Option (Str × Str)
  | 0, _, _ => none
  | fuel + 1, counter, out =>
    if out.1 ∈ images then
      dedup images name fuel (counter + 1)
        (numbered name counter ++ suffix name, lblName (numbered name counter))
    else some out

/-- `out_img` and `out_lbl` after the loop. -/
def target (images : Dir B) (name : Str) : Option (Str × Str) :=
  dedup images name (images.keys.length + 1) 1 (name, lblName (stem name))

/-- `"\n".join(lines) + "\n"`. -/
def labelText (lines : List Str) : Str := join ['\n'] lines ++ ['\n']

/-- What is done with an image in the end: both formats copy it in the same way. -/
def copyImage (merged : Dataset B) (o : Offer B) : Option (Dataset B × Copy B) := do
  let (outImg, outLbl) ← target merged.images o.name
  let text := labelText o.lines
  return (⟨merged.images.insert outImg o.content, merged.labels.insert outLbl text⟩,
    ⟨outImg, o.content, outLbl, text⟩)

/-- The merged directory, and what was copied so far: `converted` or `ingested`. -/
structure Merged (B : Type) where
  dataset : Dataset B
  copies : List (Copy B)

def Merged.copy (s : Merged B) (o : Offer B) : Option (Merged B) :=
  (copyImage s.dataset o).map fun (dataset, c) => ⟨dataset, s.copies ++ [c]⟩

/-- What a pass of a loop over files comes to, before anything is copied. -/
inductive Verdict (B : Type)
  | raises
  | skips
  | copies (o : Offer B)

/-- A loop over files.  Where it raises, what was copied stays. -/
def copyEach (verdict : A → Verdict B) : List A → Merged B → Option (Merged B)
  | [], s => some s
  | file :: files, s =>
    match verdict file with
    | .raises => some s
    | .skips => copyEach verdict files s
    | .copies o => (s.copy o).bind (copyEach verdict files)

/-! ## Supervisely -/

/-- An entry of `objects`: `classTitle`, and `points.exterior`. -/
structure AnnObject (K : Type) where
  classTitle : Str
  exterior : List (K × K)

/-- An annotation. -/
structure Ann (K : Type) where
  width : K
  height : K
  objects : List (AnnObject K)

/-- A directory named `ann`, by the parts of its path, with the directory `img` beside it. -/
structure AnnDir (K B : Type) where
  path : List Str
  files : Dir (Option (Ann K))
  img : Option (Dir B)

/-- The files of both loops: `*.json` of each `ann` that has an `img`, in order. -/
def annFiles (src : List (AnnDir K B)) : List (Dir B × Str × Option (Ann K)) :=
  (src.mergeSort fun a b => a.path ≤ b.path).flatMap fun annDir =>
    match annDir.img with
    | none => []
    | some img =>
      ((sortedFiles annDir.files).filter fun file => ".json".toList.isSuffixOf file.1).map
        fun file => (img, file)

section
variable [Add K] [Sub K] [Div K] [OfScientific K] [LT K] [DecidableLT K] [DecidableEq K]
  (fixed6 : K → Str)

/-- The line for an object, unless it is skipped; `fixed6` is the format `.6f`. -/
def yoloLine (classMap : ClassMap) (imgW imgH : K) (obj : AnnObject K) : Option Str := do
  let targetClass ← classMap obj.classTitle
  let classId ← classToId targetClass
  match obj.exterior with
  | p :: q :: points =>
    let xs := (q :: points).map (·.1)
    let ys := (q :: points).map (·.2)
    let xMin := xs.foldl Python.min p.1
    let xMax := xs.foldl Python.max p.1
    let yMin := ys.foldl Python.min p.2
    let yMax := ys.foldl Python.max p.2
    let xCenter := (xMin + xMax) / 2.0 / imgW
    let yCenter := (yMin + yMax) / 2.0 / imgH
    let w := (xMax - xMin) / imgW
    let h := (yMax - yMin) / imgH
    return join [' '] [decimal classId, fixed6 xCenter, fixed6 yCenter, fixed6 w, fixed6 h]
  | _ => none

/-- The suffixes tried for an image, in order. -/
def imageSuffixes : List Str :=
  [".jpg".toList, ".jpeg".toList, ".png".toList, ".bmp".toList]

/-- The image of an annotation. -/
def findImage (img : Dir B) (stem : Str) : Option (Str × B) :=
  imageSuffixes.findSome? fun ext => (img.lookup (stem ++ ext)).map fun file => (stem ++ ext, file)

/-- What an annotation comes to. -/
def convertFile (classMap : ClassMap) : Dir B × Str × Option (Ann K) → Verdict B
  | (_, _, none) => .raises
  | (img, name, some ann) =>
    if ann.width = 0.0 ∨ ann.height = 0.0 then .skips
    else
      let lines := ann.objects.filterMap (yoloLine fixed6 classMap ann.width ann.height)
      if lines = [] then .skips
      else
        match findImage img (stem name) with
        | none => .skips
        | some (imgFile, content) => .copies ⟨imgFile, content, lines⟩

/-- `convert_supervisely_to_yolo`. -/
def convertSuperviselyToYolo (src : List (AnnDir K B)) (classMap : ClassMap) (s : Merged B) :
    Option (Merged B) :=
  copyEach (convertFile fixed6 classMap) (annFiles src) s

end

/-! ## YOLO -/

/-- What a file with class names holds: its entry `names`, if it has one. -/
inductive Names
  | list (names : List Str)
  | mapping (names : AList fun _ : Int => Str)
  | other

/-- The source directory: its path, its files with class names, and the directories at and
under it, by their paths. -/
structure YoloSource (B : Type) where
  path : Str
  config : Str → Option (Option Names)
  dir : Str → Option (Dir B)

/-- `[names[k] for k in sorted(names.keys())]`. -/
def Names.sorted (names : AList fun _ : Int => Str) : List Str :=
  (names.keys.mergeSort fun a b => a ≤ b).filterMap names.lookup

/-- The class names as discovered; the outer `none` is a file that is not a mapping. -/
def discoverNames (src : YoloSource B) : Option (Option (List Str)) :=
  match ["data.yaml", "dataset.yaml", "_darknet.labels"].findSome? fun f => src.config f.toList with
  | none => some none
  | some none => none
  | some (some (.list names)) => some (some names)
  | some (some (.mapping names)) => some (some (Names.sorted names))
  | some (some .other) => some none

/-- `id_remap.get(src_id)`. -/
def idRemap (classMap : ClassMap) (srcClassNames : List Str) (srcId : Int) : Option Nat := do
  guard (0 ≤ srcId)
  let srcName ← srcClassNames[srcId.toNat]?
  let targetName ← classMap srcName
  classToId targetName

/-- The directories of images. -/
def imgDirs (src : YoloSource B) : List Str :=
  let found := (["images", "train/images", "valid/images", "test/images"].map fun pattern =>
    joinPath src.path pattern.toList).filter fun d => (src.dir d).isSome
  if found = [] then [src.path] else found

/-- The directory of labels for one of images. -/
def lblDir (imgDir : Str) : Str := replace "/images".toList "/labels".toList imgDir

/-- The files of both loops, with the labels they go with, in order. -/
def yoloFiles (src : YoloSource B) : List (Dir B × Str × B) :=
  (imgDirs src).flatMap fun imgDir =>
    match src.dir (lblDir imgDir), src.dir imgDir with
    | some labels, some images => (sortedFiles images).map fun file => (labels, file)
    | _, _ => []

/-- A line of a label, remapped: the outer `none` is an id that is no number, the inner
one a line that is left out. -/
def remapLine (remap : Int → Option Nat) (line : Str) : Option (Option Str) :=
  match words (strip line) with
  | srcId :: rest =>
    if rest.length < 4 then some none
    else
      (readInt srcId).map fun id => (remap id).map fun targetId =>
        decimal targetId ++ ' ' :: join [' '] rest
  | [] => some none

/-- `read_text`, and all lines of a label. -/
def remapLabel (remap : Int → Option Nat) (text : Str) : Option (List Str) :=
  ((splitLines (strip text)).mapM (remapLine remap)).map List.reduceOption

/-- `img_file.suffix.lower() in (".jpg", ".jpeg", ".png", ".bmp")`. -/
def IsImage (name : Str) : Prop := lower (suffix name) ∈ imageSuffixes

instance (name : Str) : Decidable (IsImage name) :=
  inferInstanceAs (Decidable (lower (suffix name) ∈ imageSuffixes))

/-- What an image file comes to. -/
def ingestFile (readText : B → Option Str) (remap : Int → Option Nat) :
    Dir B × Str × B → Verdict B
  | (labels, name, content) =>
    if ¬ IsImage name then .skips
    else
      match labels.lookup (lblName (stem name)) with
      | none => .skips
      | some lblFile =>
        match (readText lblFile).bind (remapLabel remap) with
        | none => .raises
        | some [] => .skips
        | some lines => .copies ⟨name, content, lines⟩

/-- `ingest_yolo_dataset`. -/
def ingestYoloDataset (readText : B → Option Str) (src : YoloSource B) (classMap : ClassMap)
    (srcClassNames : Option (List Str)) (s : Merged B) : Option (Merged B) :=
  match srcClassNames.map some <|> discoverNames src with
  | none => some s
  | some none => some s
  | some (some names) => copyEach (ingestFile readText (idRemap classMap names)) (yoloFiles src) s

/-! ## The split -/

/-- `shutil.move` of an image, and of its label if there is one. -/
def moveImage (merged dest : Dataset B) (name : Str) : Option (Dataset B × Dataset B) := do
  let content ← merged.images.lookup name
  let merged : Dataset B := { merged with images := merged.images.erase name }
  let dest : Dataset B := { dest with images := dest.images.insert name content }
  match merged.labels.lookup (lblName (stem name)) with
  | none => return (merged, dest)
  | some text =>
    return ({ merged with labels := merged.labels.erase (lblName (stem name)) },
      { dest with labels := dest.labels.insert (lblName (stem name)) text })

/-- The loop over the images of one part. -/
def moveAll : List Str → Dataset B → Dataset B → Option (Dataset B × Dataset B)
  | [], merged, dest => some (merged, dest)
  | name :: names, merged, dest => do
    let (merged, dest) ← moveImage merged dest name
    moveAll names merged dest

/-- The place of `xs[:n]` and `xs[n:]`. -/
def sliceAt (xs : List A) (n : Int) : Nat :=
  if n < 0 then (xs.length + n).toNat else n.toNat

/-- The output directory. -/
structure Split (B : Type) where
  train : Dataset B
  val : Dataset B

/-- The images of the merged directory, in the order of `sorted`. -/
def mergedImages (merged : Dataset B) : List Str :=
  (merged.images.keys.mergeSort fun a b => a ≤ b).filter fun name => IsImage name

/-- `split_train_val`, into an empty directory; it returns the numbers of images.  `trunc`
is `int`, and `shuffle` is `random.shuffle` after `random.seed`. -/
def splitTrainVal [NatCast K] [Mul K] (trunc : K → Int) (shuffle : S → List Str → List Str)
    (merged : Dataset B) (valRatio : K) (seed : S) : Option (Split B × Nat × Nat) := do
  let images := shuffle seed (mergedImages merged)
  let valCount := trunc (images.length * valRatio)
  let valImages := images.take (sliceAt images valCount)
  let trainImages := images.drop (sliceAt images valCount)
  let (merged, train) ← moveAll trainImages merged .empty
  let (_, val) ← moveAll valImages merged .empty
  return (⟨train, val⟩, trainImages.length, valImages.length)

/-! ## Runs -/

/-- A call that adds a source to the merged directory. -/
inductive Call (K B : Type)
  | supervisely (src : List (AnnDir K B)) (classMap : ClassMap)
  | yolo (src : YoloSource B) (classMap : ClassMap) (srcClassNames : Option (List Str))

section
variable [Add K] [Sub K] [Div K] [OfScientific K] [LT K] [DecidableLT K] [DecidableEq K]
  (fixed6 : K → Str) (readText : B → Option Str)

def Merged.call (s : Merged B) : Call K B → Option (Merged B)
  | .supervisely src classMap => convertSuperviselyToYolo fixed6 src classMap s
  | .yolo src classMap srcClassNames => ingestYoloDataset readText src classMap srcClassNames s

/-- Calls into a directory that is empty at first. -/
def mergeAll (calls : List (Call K B)) : Option (Merged B) :=
  calls.foldlM (fun s call => s.call fixed6 readText call) ⟨.empty, []⟩

end

end KartStack.PrepareDataset
