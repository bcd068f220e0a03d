import KartStack.BoxMatching
import KartStack.SdfWorld

/-! # What the perception is scored against

`evaluate_perception.py`.  The cones are read from the world file, with the expressions of
the perception node, and projected into the image by a pinhole camera at the pose of the kart:
the box around four corners of a cone, cut off at the edges of the image.

Every text is read as the node reads it (`parse_agrees`): a name that the expressions
capture begins with a colour, so that the classes the two would give to other names do not
come up.  The boxes are proper, and two proper boxes overlap in full only if they are the
same; so a detector is exact in every frame where it is without a fault at the threshold one,
and an exact detector is without a fault at every threshold up to one, in whatever order and
with whatever confidences it reports (`exact_detector`).  The greedy matching does not go
wrong there: at its turn a prediction has its own box free, or one like it.
-/
namespace KartStack.EvaluatePerception
open KartStack.Python KartStack.Regex
open SdfWorld (SdfCone inlinePat includePat conePat classFromName)

/-! ## Reading the world -/

/-- `_make_cone`. -/
def makeCone (name : Str) (pose : List Str) : Option SdfCone := do
  let x ← readFloat (← pose[0]?)
  let y ← readFloat (← pose[1]?)
  let z ← readFloat (← pose[2]?)
  let cls :=
    if "blue".toList <+: name then "blue_cone".toList
    else if "yellow".toList <+: name then "yellow_cone".toList
    else if "orange".toList <+: name then "orange_cone".toList
    else "unknown".toList
  return ⟨name, x, y, z, cls⟩

/-- One pass of either loop. -/
def readMatch (cones : List SdfCone) (groups : List (Nat × Str)) : Option (List SdfCone) := do
  let name ← groups.lookup 1
  let pose := words (strip (← groups.lookup 2))
  return cones ++ [← makeCone name pose]

/-- `parse_cones_from_sdf`, of what the file holds; the two expressions are those of the
perception node. -/
def parseConesFromSdf (alnum : Char → Bool) (content : Str) : Option (List SdfCone) := do
  let cones ← (findAll (inlinePat alnum) content).foldlM readMatch []
  (findAll (includePat alnum) content).foldlM readMatch cones

/-- A name that is captured begins with a colour. -/
def Coloured (i : Nat) (name : Str) : Prop :=
  i = 1 → "blue".toList <+: name ∨ "yellow".toList <+: name ∨ "orange".toList <+: name

section
variable (alnum : Char → Bool)

theorem conePat_coloured {s : Str} {f : Found Char} (hf : f ∈ (conePat alnum).finds s) :
    Coloured 1 f.text := by
  intro _
  obtain ⟨g, hg, hmap⟩ := List.mem_flatMap.mp hf
  obtain ⟨g', -, rfl⟩ := List.mem_map.mp hmap
  have hword : ∀ w : Str, g ∈ (Pattern.word w).finds s → w <+: (g.andThen g').text := by
    intro w hw
    rw [Pattern.finds] at hw
    split at hw
    · obtain rfl := List.mem_singleton.mp hw
      exact List.prefix_append w g'.text
    · cases hw
  rcases List.mem_append.mp hg with hblue | hg
  · exact Or.inl (hword _ hblue)
  · rcases List.mem_append.mp hg with hyellow | horange
    · exact Or.inr (Or.inl (hword _ hyellow))
    · exact Or.inr (Or.inr (hword _ horange))

theorem inlinePat_captures : (inlinePat alnum).Captures Coloured := by
  simp only [inlinePat, Pattern.Captures, Pattern.plus, true_and, and_true]
  exact ⟨⟨by simp [conePat, Pattern.Captures, Pattern.plus],
    fun s f hf => conePat_coloured alnum hf⟩, fun s f _ h => by cases h⟩

theorem includePat_captures : (includePat alnum).Captures Coloured := by
  simp only [includePat, Pattern.Captures, Pattern.plus, true_and, and_true]
  exact ⟨⟨by simp [conePat, Pattern.Captures, Pattern.plus],
    fun s f hf => conePat_coloured alnum hf⟩, fun s f _ h => by cases h⟩

end

/-- A name that begins with a colour has a class, and the same one for both. -/
theorem makeCone_eq {name : Str} (h : Coloured 1 name) :
    (∀ pose, makeCone name pose = (do
      let x ← readFloat (← pose[0]?)
      let y ← readFloat (← pose[1]?)
      let z ← readFloat (← pose[2]?)
      return ⟨name, x, y, z, classFromName name⟩)) ∧ classFromName name ≠ [] := by
  unfold makeCone classFromName
  split_ifs with hblue hyellow horange
  · exact ⟨fun _ => rfl, by decide⟩
  · exact ⟨fun _ => rfl, by decide⟩
  · exact ⟨fun _ => rfl, by decide⟩
  · rcases h rfl with hc | hc | hc
    · exact absurd hc hblue
    · exact absurd hc hyellow
    · exact absurd hc horange

/-- The two loops do the same with a name that begins with a colour. -/
theorem readMatch_eq {groups : List (Nat × Str)} (h : ∀ g ∈ groups, Coloured g.1 g.2)
    (cones : List SdfCone) : readMatch cones groups = SdfWorld.readMatch cones groups := by
  unfold readMatch SdfWorld.readMatch
  cases hname : groups.lookup 1 with
  | none => rfl
  | some name =>
    obtain ⟨l₁, l₂, rfl, -⟩ := List.lookup_eq_some_iff.mp hname
    obtain ⟨hmake, hclass⟩ :=
      makeCone_eq (h (1, name) (List.mem_append_right _ List.mem_cons_self))
    simp only [Option.bind_eq_bind, Option.bind_some, hmake, if_neg hclass, Option.bind_assoc,
      Option.pure_def]

theorem foldlM_congr_mem {A B : Type} {f g : B → A → Option B} {as : List A}
    (h : ∀ a ∈ as, ∀ b, f b a = g b a) (b : B) : as.foldlM f b = as.foldlM g b := by
  induction as generalizing b with
  | nil => rfl
  | cons a as ih =>
    obtain ⟨ha, has⟩ := List.forall_mem_cons.mp h
    rw [List.foldlM_cons, List.foldlM_cons, ha]
    exact congrArg _ (funext (ih has))

/-- **Every world is read as the perception node reads it.** -/
theorem parse_agrees (alnum : Char → Bool) (content : Str) :
    parseConesFromSdf alnum content = SdfWorld.parseConesFromSdf alnum content := by
  have hinline : ∀ groups ∈ findAll (inlinePat alnum) content, ∀ cones,
      readMatch cones groups = SdfWorld.readMatch cones groups := fun groups hgroups =>
    readMatch_eq ((inlinePat_captures alnum).of_findAll groups hgroups)
  have hinclude : ∀ groups ∈ findAll (includePat alnum) content, ∀ cones,
      readMatch cones groups = SdfWorld.readMatch cones groups := fun groups hgroups =>
    readMatch_eq ((includePat_captures alnum).of_findAll groups hgroups)
  rw [parseConesFromSdf, SdfWorld.parseConesFromSdf, foldlM_congr_mem hinline]
  exact congrArg _ (funext (foldlM_congr_mem hinclude))

/-! ## The boxes in the image -/

/-- Where the kart is: an entry of `odom_poses`. -/
structure Pose (K : Type) where
  x : K
  y : K
  yaw : K

section
variable {K : Type} [Field K] [LinearOrder K] (m : MathLib K) (tan : K → K)

/-- `IMG_W`. -/
def imgW : K := 640.0

/-- `IMG_H`. -/
def imgH : K := 360.0

/-- `FX`, and `FY`. -/
def fx : K := imgW / (2.0 * tan (1.396 / 2.0))

/-- `CAM_X_OFFSET`. -/
def camXOffset : K := 0.55

/-- `CAM_Z_OFFSET`. -/
def camZOffset : K := 0.30

/-- `CONE_RADIUS`. -/
def coneRadius : K := 0.114

/-- `CONE_HEIGHT_BIG` or `CONE_HEIGHT_SMALL`, by the name of the model. -/
def coneHeight (name : Str) : K :=
  if "big".toList <:+: name ∨ "sf".toList <:+: name then 0.505 else 0.325

/-- `points_2d`. -/
def points2d (height camFwd camLeft : K) : List (K × K) :=
  [0, height].flatMap fun cz => [-coneRadius, coneRadius].filterMap fun offset =>
    let optX := -camLeft + offset
    let optY := -(cz - camZOffset)
    if camFwd ≤ 0 then none
    else some (fx tan * optX / camFwd + imgW / 2.0, fx tan * optY / camFwd + imgH / 2.0)

/-- `project_cone_to_bbox`. -/
def projectConeToBbox (cone : SdfCone) (kart : Pose K) : Option (GtBox Str K) :=
  let cosYaw := m.cos kart.yaw
  let sinYaw := m.sin kart.yaw
  let dx := cone.x - (kart.x + camXOffset * cosYaw)
  let dy := cone.y - (kart.y + camXOffset * sinYaw)
  let camFwd := dx * cosYaw + dy * sinYaw
  let camLeft := -dx * sinYaw + dy * cosYaw
  -- behind the camera, or too close
  if camFwd < 0.5 then none
  else
    match points2d tan (coneHeight cone.name) camFwd camLeft with
    | p :: q :: rest =>
      let us := (q :: rest).map Prod.fst
      let vs := (q :: rest).map Prod.snd
      let x1 := Python.max 0 (us.foldl Python.min p.1)
      let y1 := Python.max 0 (vs.foldl Python.min p.2)
      let x2 := Python.min imgW (us.foldl Python.max p.1)
      let y2 := Python.min imgH (vs.foldl Python.max p.2)
      if x2 - x1 < 3.0 ∨ y2 - y1 < 3.0 then none else some ⟨⟨x1, y1, x2, y2⟩, cone.classId⟩
    | _ => none

/-- `gt_boxes` of a frame. -/
def gtBoxes (cones : List SdfCone) (kart : Pose K) : List (GtBox Str K) :=
  cones.filterMap fun cone => projectConeToBbox m tan cone kart

/-- The pose at a frame: that of the odometry where it has one, or the one given. -/
def poseAt (odomPoses : Option (List (Pose K))) (kart : Pose K) (i : Nat) : Pose K :=
  ((odomPoses.bind fun poses => poses[i]?).getD kart)

/-- The frames, given what the model detects in each; none where its image cannot be read. -/
def frameBoxes (cones : List SdfCone) (odomPoses : Option (List (Pose K))) (kart : Pose K)
    (detections : List (Option (List (PredBox Str K)))) : List (FrameBoxes Str K) :=
  detections.zipIdx.map fun (preds, i) => (gtBoxes m tan cones (poseAt odomPoses kart i), preds)

/-- `detection_rate`. -/
def Totals.detectionRate (t : Totals Str K) : K :=
  if 0 < t.totalGt then (t.totalTp : K) / t.totalGt else 0

/-- What `run_evaluation` counts, and what it returns. -/
def evaluate (alnum : Char → Bool) (world : Str) (odomPoses : Option (List (Pose K)))
    (kart : Pose K) (iouThreshold : K) (detections : List (Option (List (PredBox Str K)))) :
    Option (Totals Str K × Bool) := do
  let cones ← parseConesFromSdf alnum world
  let t ← runEvaluation iouThreshold (frameBoxes m tan cones odomPoses kart detections)
  return (t, decide (0.8 < t.detectionRate))

end

/-! ## How far boxes overlap -/

section
variable {K : Type} [Field K] [LinearOrder K]

/-- The length that two intervals have in common. -/
def overlap (p q r s : K) : K := max 0 (min q s - max p r)

/-- A box that is not empty. -/
structure Box.Proper (b : Box K) : Prop where
  x : b.x1 < b.x2
  y : b.y1 < b.y2

theorem iou_eq (a b : Box K) :
    iou a b =
      if 0 < (a.x2 - a.x1) * (a.y2 - a.y1) + (b.x2 - b.x1) * (b.y2 - b.y1) -
          overlap a.x1 a.x2 b.x1 b.x2 * overlap a.y1 a.y2 b.y1 b.y2 then
        overlap a.x1 a.x2 b.x1 b.x2 * overlap a.y1 a.y2 b.y1 b.y2 /
          ((a.x2 - a.x1) * (a.y2 - a.y1) + (b.x2 - b.x1) * (b.y2 - b.y1) -
            overlap a.x1 a.x2 b.x1 b.x2 * overlap a.y1 a.y2 b.y1 b.y2)
      else 0 := rfl

variable {p q r s : K}

theorem overlap_nonneg : 0 ≤ overlap p q r s := le_max_left 0 _

variable [IsStrictOrderedRing K]

theorem lt_of_overlap_pos (h : 0 < overlap p q r s) : p < q ∧ r < s := by
  have hpos : 0 < min q s - max p r := (lt_max_iff.mp h).resolve_left (lt_irrefl 0)
  have hlt : max p r < min q s := sub_pos.mp hpos
  exact ⟨(le_max_left p r).trans_lt (hlt.trans_le (min_le_left q s)),
    (le_max_right p r).trans_lt (hlt.trans_le (min_le_right q s))⟩

theorem overlap_le (hpq : p < q) (hrs : r < s) :
    overlap p q r s ≤ q - p ∧ overlap p q r s ≤ s - r :=
  ⟨max_le (sub_nonneg.mpr hpq.le) (sub_le_sub (min_le_left q s) (le_max_left p r)),
    max_le (sub_nonneg.mpr hrs.le) (sub_le_sub (min_le_right q s) (le_max_right p r))⟩

theorem overlap_self (hpq : p < q) : overlap p q p q = q - p := by
  rw [overlap, min_self, max_self, max_eq_right (sub_nonneg.mpr hpq.le)]

/-- Intervals that have all of both in common are the same. -/
theorem eq_of_overlap (hpq : p < q) (h : overlap p q r s = q - p) (h' : overlap p q r s = s - r) :
    p = r ∧ q = s := by
  have hcommon : overlap p q r s = min q s - max p r :=
    max_eq_right (le_of_not_ge fun hneg => by
      rw [overlap, max_eq_left hneg] at h
      linarith)
  have hq := min_le_left q s
  have hs := min_le_right q s
  have hp := le_max_left p r
  have hr := le_max_right p r
  rw [hcommon] at h h'
  constructor <;> linarith

/-- A rectangle that has no less area than one inside it is that one. -/
theorem eq_of_area_le {w h u v : K} (hu : 0 < u) (hv : 0 < v) (huw : u ≤ w) (hvh : v ≤ h)
    (harea : w * h ≤ u * v) : u = w ∧ v = h := by
  have hw : w * h ≤ u * h := harea.trans (mul_le_mul_of_nonneg_left hvh hu.le)
  have hh : w * h ≤ w * v := harea.trans (mul_le_mul_of_nonneg_right huw hv.le)
  exact ⟨huw.antisymm (le_of_mul_le_mul_right hw (hv.trans_le hvh)),
    hvh.antisymm (le_of_mul_le_mul_left hh (hu.trans_le huw))⟩

/-- **Boxes that overlap in full** are the same. -/
theorem one_le_iou_iff {a b : Box K} (hb : b.Proper) : 1 ≤ iou a b ↔ a = b := by
  constructor
  · intro h
    rw [iou_eq] at h
    split_ifs at h with hunion
    · rw [one_le_div hunion] at h
      have hinter := hunion.trans_le h
      have hx := (pos_and_pos_or_neg_and_neg_of_mul_pos hinter).resolve_right fun hneg =>
        absurd overlap_nonneg (not_le.mpr hneg.1)
      obtain ⟨hax, -⟩ := lt_of_overlap_pos hx.1
      obtain ⟨hay, -⟩ := lt_of_overlap_pos hx.2
      obtain ⟨hwa, hwb⟩ := overlap_le hax hb.x
      obtain ⟨hha, hhb⟩ := overlap_le hay hb.y
      have hina := mul_le_mul hwa hha hx.2.le (sub_pos.mpr hax).le
      have hinb := mul_le_mul hwb hhb hx.2.le (sub_pos.mpr hb.x).le
      obtain ⟨hwa, hha⟩ := eq_of_area_le hx.1 hx.2 hwa hha (by linarith)
      obtain ⟨hwb, hhb⟩ := eq_of_area_le hx.1 hx.2 hwb hhb (by linarith)
      obtain ⟨hx1, hx2⟩ := eq_of_overlap hax hwa hwb
      obtain ⟨hy1, hy2⟩ := eq_of_overlap hay hha hhb
      cases a
      cases b
      exact Box.mk.injEq _ _ _ _ _ _ _ _ ▸ ⟨hx1, hy1, hx2, hy2⟩
    · exact absurd h (not_le.mpr one_pos)
  · rintro rfl
    have harea := mul_pos (sub_pos.mpr hb.x) (sub_pos.mpr hb.y)
    rw [iou_eq, overlap_self hb.x, overlap_self hb.y, add_sub_cancel_right, if_pos harea,
      div_self harea.ne']

end

/-! ## The matching of an exact detector -/

theorem map_get_finRange {A B : Type} (f : A → B) (as : List A) :
    (List.finRange as.length).map (fun i => f (as.get i)) = as.map f :=
  List.ext_get (by simp) (by simp)

section
variable {C K : Type} [DecidableEq C] [Field K] [LinearOrder K]

/-- What is compared of a box. -/
def GtBox.key (g : GtBox C K) : Box K × C := (g.box, g.cls)

@[inherit_doc GtBox.key]
def PredBox.key (p : PredBox C K) : Box K × C := (p.box, p.cls)

/-- A detector that reports the boxes that there are, in some order. -/
def Exact (gts : List (GtBox C K)) (preds : List (PredBox C K)) : Prop :=
  (preds.map PredBox.key).Perm (gts.map GtBox.key)

variable {gts : List (GtBox C K)} {preds : List (PredBox C K)} {iouThreshold : K}

/-- The boxes that are not marked. -/
def free (s : Marks preds.length gts.length) : List (Fin gts.length) :=
  (List.finRange gts.length).filter fun gi => !s.gtMatched gi

omit [DecidableEq C] [Field K] [LinearOrder K] in
theorem mem_free {s : Marks preds.length gts.length} {gi : Fin gts.length} :
    gi ∈ free s ↔ s.gtMatched gi = false := by
  simp [free]

omit [DecidableEq C] [Field K] [LinearOrder K] in
theorem free_mark {s : Marks preds.length gts.length} {gi : Fin gts.length}
    (h : s.gtMatched gi = false) (pi : Fin preds.length) :
    (free s).Perm (gi :: free (s.mark pi gi)) := by
  have hnodup : ∀ s : Marks preds.length gts.length, (free s).Nodup :=
    fun s => (List.nodup_finRange _).filter _
  have hmarked : gi ∉ free (s.mark pi gi) := by
    rw [mem_free, (mark_gtMatched_iff s pi gi gi).mpr (Or.inl rfl)]
    exact Bool.noConfusion
  refine (List.perm_ext_iff_of_nodup (hnodup s) (List.nodup_cons.mpr ⟨hmarked, hnodup _⟩)).mpr
    fun gj => ?_
  rw [List.mem_cons, mem_free, mem_free, ← Bool.not_eq_true, ← Bool.not_eq_true,
    mark_gtMatched_iff, not_or]
  by_cases hj : gj = gi
  · simp [hj, h]
  · simp [hj]

/-- The box that is chosen overlaps no less than another that is free. -/
theorem chosen_best {s : Marks preds.length gts.length} {pi : Fin preds.length}
    {gi : Fin gts.length} (h : chosen gts preds iouThreshold s pi = some gi) {gj : Fin gts.length}
    (hfree : s.gtMatched gj = false) (hcls : (preds.get pi).cls = (gts.get gj).cls) :
    iou (preds.get pi).box (gts.get gj).box ≤ iou (preds.get pi).box (gts.get gi).box := by
  obtain ⟨hfound, -, hall⟩ :=
    best_spec (preds.get pi) s.gtMatched (List.finRange gts.length) (0, none)
  have hmost := hall gj (List.mem_finRange gj) hfree hcls
  rcases hfound with hnone | ⟨gk, -, -, hgk⟩
  · rw [chosen, hnone] at h
    dsimp only at h
    split_ifs at h
  · rw [chosen, hgk] at h
    rw [hgk] at hmost
    dsimp only at h
    split_ifs at h
    obtain rfl := Option.some.inj h
    exact hmost

variable [IsStrictOrderedRing K]

/-- **One turn of an exact detector**: a box like the prediction is marked, and what is left of
the predictions is what is left of the boxes. -/
theorem exact_turn (hpos : 0 < iouThreshold) (hone : iouThreshold ≤ 1)
    (hproper : ∀ g ∈ gts, g.box.Proper) {s : Marks preds.length gts.length}
    {pi : Fin preds.length} {order : List (Fin preds.length)}
    (h : (((pi :: order).map fun i => (preds.get i).key)).Perm
      ((free s).map fun i => (gts.get i).key)) :
    ((order.map fun i => (preds.get i).key)).Perm
      ((free (turn gts preds iouThreshold s pi)).map fun i => (gts.get i).key) := by
  obtain ⟨gj, hgj, hkey⟩ := List.mem_map.mp (h.mem_iff.mp List.mem_cons_self)
  have hfree : s.gtMatched gj = false := mem_free.mp hgj
  obtain ⟨hbox, hcls⟩ := Prod.mk.inj hkey
  have hfull : 1 ≤ iou (preds.get pi).box (gts.get gj).box :=
    (one_le_iou_iff (hproper _ (List.get_mem gts gj))).mpr hbox.symm
  rcases chosen_cases hpos s pi with ⟨gi, hchosen, hgi, hfits, -⟩ | ⟨-, hnone⟩
  · -- the one that is chosen overlaps in full as well
    have hsame := (one_le_iou_iff (hproper _ (List.get_mem gts gi))).mp
      (hfull.trans (chosen_best hchosen hfree hcls.symm))
    have hlike : (preds.get pi).key = (gts.get gi).key := Prod.ext hsame hfits
    rw [turn_of_some hchosen]
    have hleft := h.trans ((free_mark hgi pi).map _)
    rw [List.map_cons, List.map_cons, hlike] at hleft
    exact hleft.cons_inv
  · exact absurd ⟨hcls.symm, hone.trans hfull⟩ (hnone gj hfree)

/-- **Every turn.** -/
theorem exact_loop (hpos : 0 < iouThreshold) (hone : iouThreshold ≤ 1)
    (hproper : ∀ g ∈ gts, g.box.Proper) {order : List (Fin preds.length)}
    {s : Marks preds.length gts.length}
    (h : (order.map fun i => (preds.get i).key).Perm ((free s).map fun i => (gts.get i).key)) :
    free (order.foldl (turn gts preds iouThreshold) s) = [] := by
  induction order generalizing s with
  | nil => exact List.map_eq_nil_iff.mp (List.nil_perm.mp h)
  | cons pi order ih => exact ih (exact_turn hpos hone hproper h)

/-- No prediction and no box is left over. -/
theorem exact_frame (hpos : 0 < iouThreshold) (hone : iouThreshold ≤ 1)
    (hproper : ∀ g ∈ gts, g.box.Proper) (h : Exact gts preds) :
    (matchBoxes gts preds iouThreshold).fp = 0 ∧ (matchBoxes gts preds iouThreshold).fn = 0 := by
  have hkeys : ((predSorted preds).map fun i => (preds.get i).key).Perm
      ((free (Marks.start : Marks preds.length gts.length)).map fun i => (gts.get i).key) := by
    have hpreds := ((List.mergeSort_perm (List.finRange preds.length) _).map
      fun i => (preds.get i).key : ((predSorted preds).map fun i => (preds.get i).key).Perm _)
    have hfree : free (Marks.start : Marks preds.length gts.length) = List.finRange gts.length := by
      simp [free, Marks.start]
    rw [hfree]
    refine hpreds.trans ?_
    rw [map_get_finRange, map_get_finRange]
    exact h
  have hfn : (matchBoxes gts preds iouThreshold).fn = 0 := by
    rw [Marks.fn, List.countP_eq_length_filter, List.length_eq_zero_iff]
    exact exact_loop hpos hone hproper hkeys
  have hmatching := matchBoxes_proper gts preds hpos
  have htp := hmatching.tp_add_fn
  have hfp := hmatching.tp_add_fp
  have hlength := h.length_eq
  rw [List.length_map, List.length_map] at hlength
  exact ⟨by omega, hfn⟩

/-- At the threshold one no other detector does that. -/
theorem exact_of_frame (hproper : ∀ g ∈ gts, g.box.Proper)
    (hfp : (matchBoxes gts preds 1).fp = 0) (hfn : (matchBoxes gts preds 1).fn = 0) :
    Exact gts preds := by
  have hm := matchBoxes_proper gts preds (one_pos : (0 : K) < 1)
  have hpreds : (List.finRange preds.length).Perm ((pairs gts preds 1).map Prod.fst) := by
    refine (List.perm_ext_iff_of_nodup (List.nodup_finRange _) hm.predOnce).mpr fun pi =>
      ⟨fun hpi => ?_, fun _ => List.mem_finRange pi⟩
    have hmatched := List.countP_eq_zero.mp hfp pi hpi
    obtain ⟨gi, hmem⟩ := (hm.predMatched pi).mp (by simpa using hmatched)
    exact List.mem_map_of_mem hmem
  have hgts : (List.finRange gts.length).Perm ((pairs gts preds 1).map Prod.snd) := by
    refine (List.perm_ext_iff_of_nodup (List.nodup_finRange _) hm.gtOnce).mpr fun gi =>
      ⟨fun hgi => ?_, fun _ => List.mem_finRange gi⟩
    have hmatched := List.countP_eq_zero.mp hfn gi hgi
    obtain ⟨pi, hmem⟩ := (hm.gtMatched gi).mp (by simpa using hmatched)
    exact List.mem_map_of_mem hmem
  have hkeys : (pairs gts preds 1).map (fun p => (preds.get p.1).key) =
      (pairs gts preds 1).map fun p => (gts.get p.2).key := by
    refine List.map_congr_left fun p hp => ?_
    obtain ⟨hcls, hfull⟩ := hm.fits p hp
    exact Prod.ext ((one_le_iou_iff (hproper _ (List.get_mem gts p.2))).mp hfull) hcls
  have hleft := hpreds.map fun i => (preds.get i).key
  have hright := hgts.map fun i => (gts.get i).key
  rw [map_get_finRange, List.map_map] at hleft hright
  exact hleft.trans ((List.Perm.of_eq hkeys).trans hright.symm)

end

/-! ## The evaluation of an exact detector -/

section
variable {K : Type} [Field K] [LinearOrder K] {m : MathLib K} {tan : K → K}

theorem projected_proper [IsStrictOrderedRing K] {cone : SdfCone} {kart : Pose K}
    {g : GtBox Str K} (h : projectConeToBbox m tan cone kart = some g) : g.box.Proper := by
  simp only [projectConeToBbox] at h
  split_ifs at h
  split at h
  · split_ifs at h with hsmall
    obtain rfl := Option.some.inj h
    rw [not_or, not_lt, not_lt] at hsmall
    have hthree : (0 : K) < 3.0 := by norm_num
    exact ⟨sub_pos.mp (hthree.trans_le hsmall.1), sub_pos.mp (hthree.trans_le hsmall.2)⟩
  · cases h

/-- A detector that is exact in each frame that can be read. -/
def ExactIn (frames : List (FrameBoxes Str K)) : Prop :=
  ∀ frame ∈ frames, ∀ preds ∈ frame.2, Exact frame.1 preds

/-- Nothing is held against the detector. -/
def Totals.Faultless (t : Totals Str K) : Prop := t.totalFp = 0 ∧ t.totalFn = 0

/-- How many boxes there are in the frames that can be read. -/
def boxesSeen (frames : List (FrameBoxes Str K)) : Nat :=
  overReadable (fun gts _ => gts.length) frames

omit [Field K] [LinearOrder K] in
theorem overReadable_eq_zero_iff {count : List (GtBox Str K) → List (PredBox Str K) → Nat}
    {frames : List (FrameBoxes Str K)} :
    overReadable count frames = 0 ↔
      ∀ frame ∈ frames, ∀ preds ∈ frame.2, count frame.1 preds = 0 := by
  rw [overReadable, List.sum_eq_zero_iff, List.forall_mem_map]
  refine forall₂_congr fun frame _ => ?_
  obtain ⟨gts, preds⟩ := frame
  cases preds <;> simp

/-- No fault in all is none in any frame. -/
theorem faultless_iff {iouThreshold : K} (hpos : 0 < iouThreshold)
    (frames : List (FrameBoxes Str K)) :
    ∃ t, runEvaluation iouThreshold frames = some t ∧ AddsUp iouThreshold frames t ∧
      (t.Faultless ↔ ∀ frame ∈ frames, ∀ preds ∈ frame.2,
        (matchBoxes frame.1 preds iouThreshold).fp = 0 ∧
          (matchBoxes frame.1 preds iouThreshold).fn = 0) := by
  obtain ⟨t, ht, hcounts⟩ := counts_frames hpos .start frames
  refine ⟨t, ht, hcounts.addsUp hpos, ?_⟩
  rw [Totals.Faultless, hcounts.fp, hcounts.fn, Totals.start, Nat.zero_add, Nat.zero_add,
    overReadable_eq_zero_iff, overReadable_eq_zero_iff, ← forall₂_and]
  exact forall₂_congr fun frame _ => forall₂_and.symm

variable [IsStrictOrderedRing K]

/-- All cones are found, and none that is not there. -/
theorem detectionRate_of_faultless {iouThreshold : K} {frames : List (FrameBoxes Str K)}
    {t : Totals Str K} (ht : AddsUp iouThreshold frames t) (h : t.Faultless) :
    decide (0.8 < t.detectionRate) = decide (0 < t.totalGt) := by
  have htp : t.totalTp = t.totalGt := by
    have hfn := h.2
    have hboxes := ht.boxes
    have hgt := ht.totalGt
    omega
  rw [Totals.detectionRate, htp]
  by_cases hgt : 0 < t.totalGt
  · have hne : (t.totalGt : K) ≠ 0 := Nat.cast_ne_zero.mpr hgt.ne'
    rw [if_pos hgt, div_self hne, decide_eq_true hgt, decide_eq_true_iff]
    norm_num
  · rw [if_neg hgt, decide_eq_false hgt, decide_eq_false_iff_not]
    norm_num

theorem mem_frameBoxes_proper {cones : List SdfCone} {odomPoses : Option (List (Pose K))}
    {kart : Pose K} {detections : List (Option (List (PredBox Str K)))}
    {frame : FrameBoxes Str K} (h : frame ∈ frameBoxes m tan cones odomPoses kart detections) :
    ∀ g ∈ frame.1, g.box.Proper := by
  obtain ⟨d, -, rfl⟩ := List.mem_map.mp h
  intro g hg
  obtain ⟨cone, -, hcone⟩ := List.mem_filterMap.mp hg
  exact projected_proper hcone

/-- **An exact detector is without a fault**, in every run: whatever the order and the
confidences it reports the boxes with, up to a threshold of one no prediction and no box is
left over, and it passes if a box can be seen in a frame that can be read.  At the threshold
of one nothing else is without a fault. -/
theorem exact_detector {alnum : Char → Bool} {world : Str} {cones : List SdfCone}
    (hcones : parseConesFromSdf alnum world = some cones) (odomPoses : Option (List (Pose K)))
    (kart : Pose K) (detections : List (Option (List (PredBox Str K)))) :
    (∀ iouThreshold, 0 < iouThreshold → iouThreshold ≤ 1 →
      ExactIn (frameBoxes m tan cones odomPoses kart detections) →
      ∃ t, evaluate m tan alnum world odomPoses kart iouThreshold detections =
          some (t, decide (0 < boxesSeen (frameBoxes m tan cones odomPoses kart detections))) ∧
        t.totalGt = boxesSeen (frameBoxes m tan cones odomPoses kart detections) ∧
        t.Faultless) ∧
    ∃ t passed, evaluate m tan alnum world odomPoses kart 1 detections = some (t, passed) ∧
      t.totalGt = boxesSeen (frameBoxes m tan cones odomPoses kart detections) ∧
      (t.Faultless ↔ ExactIn (frameBoxes m tan cones odomPoses kart detections)) := by
  constructor
  · intro iouThreshold hpos hone hexact
    obtain ⟨t, ht, hadds, hiff⟩ :=
      faultless_iff hpos (frameBoxes m tan cones odomPoses kart detections)
    have hfaultless : t.Faultless := hiff.mpr fun frame hframe preds hpreds =>
      exact_frame hpos hone (mem_frameBoxes_proper hframe) (hexact frame hframe preds hpreds)
    have hgt : t.totalGt = boxesSeen (frameBoxes m tan cones odomPoses kart detections) :=
      hadds.totalGt
    refine ⟨t, ?_, hgt, hfaultless⟩
    rw [← hgt, ← detectionRate_of_faultless hadds hfaultless, evaluate, hcones]
    simp only [Option.bind_eq_bind, Option.bind_some, ht, Option.pure_def]
  · obtain ⟨t, ht, hadds, hiff⟩ :=
      faultless_iff one_pos (frameBoxes m tan cones odomPoses kart detections)
    refine ⟨t, decide (0.8 < t.detectionRate), ?_, hadds.totalGt,
      hiff.trans ⟨fun h frame hframe preds hpreds => ?_, fun h frame hframe preds hpreds => ?_⟩⟩
    · rw [evaluate, hcones]
      simp only [Option.bind_eq_bind, Option.bind_some, ht, Option.pure_def]
    · obtain ⟨hfp, hfn⟩ := h frame hframe preds hpreds
      exact exact_of_frame (mem_frameBoxes_proper hframe) hfp hfn
    · exact exact_frame one_pos le_rfl (mem_frameBoxes_proper hframe) (h frame hframe preds hpreds)

end

/-- A world with two cones. -/
def twoConeWorld : Str :=
  "<model name=\"blue_0\"><pose>5 1 0</pose><model name=\"yellow_0\"><pose>5 -1 0</pose>".toList

@[inherit_doc twoConeWorld]
def twoCones : List SdfCone :=
  [⟨"blue_0".toList, 5, 1, 0, "blue_cone".toList⟩,
    ⟨"yellow_0".toList, 5, -1, 0, "yellow_cone".toList⟩]

/-- `math`, where the kart looks along the x axis. -/
def straightMath : MathLib ℚ where
  pi := 3.14
  cos _ := 1
  sin _ := 0
  sqrt := id
  tanh := id
  exp := id
  hypot x _ := x
  atan2 y _ := y

/-- `tan` at the half of `HFOV_RAD`. -/
def tanHalf (_ : ℚ) : ℚ := 0.839

/-- Both are reported, the last first, and the second image cannot be read. -/
def lastFirst : List (Option (List (PredBox Str ℚ))) :=
  [some ((gtBoxes straightMath tanHalf twoCones ⟨0, 0, 0⟩).reverse.map fun g =>
    ⟨g.box, g.cls, 0.5⟩), none]

/-- At the threshold the script takes if none is given. -/
theorem exact_detector_lastFirst :
    (gtBoxes straightMath tanHalf twoCones ⟨0, 0, 0⟩).length = 2 ∧
    ∃ t, evaluate straightMath tanHalf (fun _ => false) twoConeWorld none ⟨0, 0, 0⟩ (1 / 2)
        lastFirst = some (t, decide (0 < boxesSeen
          (frameBoxes straightMath tanHalf twoCones none ⟨0, 0, 0⟩ lastFirst))) ∧
      t.totalGt = boxesSeen (frameBoxes straightMath tanHalf twoCones none ⟨0, 0, 0⟩ lastFirst) ∧
      t.Faultless := by
  have hcones : parseConesFromSdf (fun _ => false) twoConeWorld = some twoCones := by
    decide +kernel
  refine ⟨by decide +kernel, (exact_detector hcones none ⟨0, 0, 0⟩ lastFirst).1 (1 / 2)
    (by norm_num) (by norm_num) fun frame hframe preds hpreds => ?_⟩
  rcases List.mem_pair.mp hframe with rfl | rfl
  · obtain rfl := Option.mem_some.mp hpreds
    rw [Exact, List.map_map]
    exact (List.reverse_perm _).map GtBox.key
  · cases hpreds

end KartStack.EvaluatePerception
