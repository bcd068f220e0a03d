import KartStack.ConeFollower
import KartStack.RandomTrack
import Mathlib.Analysis.SpecialFunctions.Trigonometric.Arctan

/-! # Cones from a depth image

`ConeDepthLocalizerNode` puts the cones that were found in an image into space.  For the middle
of a box it takes the median of the depths around that pixel, and goes so far along the ray
through it.  The camera is that of the first message.

What is published, of each detection near whose pixel anything is measured, is therefore on the
ray of its pixel, and *at* the median: the depth is read as a distance from the camera
(`localized_spec`).  Where an image holds distances along the axis of the camera instead, a cone
is put too near, unless it is on the axis (`localized_shrinks`).
-/
namespace KartStack.Sim2d

/-! ## The median -/

section
variable {K : Type} [LinearOrder K] {xs : List K} {a : K}

/-- Below an entry of a sorted list nothing comes after it. -/
theorem countP_le_of_lt (hs : xs.Pairwise (· ≤ ·)) {i : Nat} (hi : i < xs.length)
    (h : xs[i] < a) {P : K → Bool} (hP : ∀ x, P x = true → a ≤ x) :
    xs.countP P + (i + 1) ≤ xs.length := by
  have hnone : (xs.take (i + 1)).countP P = 0 := by
    rw [List.countP_eq_zero]
    intro x hx hPx
    obtain ⟨j, hj, rfl⟩ := List.mem_iff_getElem.mp hx
    rw [List.getElem_take] at hPx
    have hji : j ≤ i := by
      rw [List.length_take] at hj
      omega
    have hle : xs[j] ≤ xs[i] := by
      rcases hji.eq_or_lt with rfl | hlt
      · exact le_rfl
      · exact List.pairwise_iff_getElem.mp hs j i _ hi hlt
    exact absurd (hP _ hPx) (not_le.mpr (hle.trans_lt h))
  have hsplit : (xs.take (i + 1) ++ xs.drop (i + 1)).countP P =
      (xs.take (i + 1)).countP P + (xs.drop (i + 1)).countP P := List.countP_append
  rw [List.take_append_drop, hnone, Nat.zero_add] at hsplit
  have hle : (xs.drop (i + 1)).countP P ≤ (xs.drop (i + 1)).length := List.countP_le_length
  rw [List.length_drop] at hle
  omega

/-- Above an entry of a sorted list nothing comes before it. -/
theorem countP_le_of_gt (hs : xs.Pairwise (· ≤ ·)) {i : Nat} (hi : i < xs.length)
    (h : a < xs[i]) {P : K → Bool} (hP : ∀ x, P x = true → x ≤ a) :
    xs.countP P ≤ i := by
  have hnone : (xs.drop i).countP P = 0 := by
    rw [List.countP_eq_zero]
    intro x hx hPx
    obtain ⟨j, hj, rfl⟩ := List.mem_iff_getElem.mp hx
    rw [List.getElem_drop] at hPx
    have hlen : i + j < xs.length := by
      rw [List.length_drop] at hj
      omega
    have hle : xs[i] ≤ xs[i + j] := by
      rcases (Nat.le_add_right i j).eq_or_lt with heq | hlt
      · exact le_of_eq (by congr 1)
      · exact List.pairwise_iff_getElem.mp hs i (i + j) hi hlen hlt
    exact absurd (hP _ hPx) (not_le.mpr (h.trans_le hle))
  have hsplit : (xs.take i ++ xs.drop i).countP P =
      (xs.take i).countP P + (xs.drop i).countP P := List.countP_append
  rw [List.take_append_drop, hnone, Nat.add_zero] at hsplit
  rw [hsplit]
  exact List.countP_le_length.trans (by rw [List.length_take]; omega)

end

section
variable {K : Type} [Field K] [LinearOrder K] [IsStrictOrderedRing K]

/-- **The median is where the majority is.** -/
theorem median_of_majority {xs : List K} {d a b : K} (h : median xs = some d)
    (hmajority : xs.length < 2 * xs.countP fun x => decide (a ≤ x ∧ x ≤ b)) : a ≤ d ∧ d ≤ b := by
  have hperm := List.mergeSort_perm xs fun a b => decide (a ≤ b)
  have hsorted : (xs.mergeSort fun a b => decide (a ≤ b)).Pairwise (· ≤ ·) :=
    List.pairwise_mergeSort' _ _
  rw [← hperm.length_eq, ← hperm.countP_eq] at hmajority
  unfold median at h
  generalize xs.mergeSort (fun a b => decide (a ≤ b)) = sorted at h hmajority hsorted
  have hP : ∀ x, decide (a ≤ x ∧ x ≤ b) = true → a ≤ x ∧ x ≤ b := fun x hx => of_decide_eq_true hx
  have hlow : ∀ {i : Nat} (hi : i < sorted.length), sorted.length ≤ 2 * (i + 1) →
      a ≤ sorted[i] := by
    intro i hi hmid
    by_contra hlt
    have := countP_le_of_lt hsorted hi (not_le.mp hlt) fun x hx => (hP x hx).1
    omega
  have hhigh : ∀ {i : Nat} (hi : i < sorted.length), 2 * i ≤ sorted.length → sorted[i] ≤ b := by
    intro i hi hmid
    by_contra hlt
    have := countP_le_of_gt hsorted hi (not_le.mp hlt) fun x hx => (hP x hx).2
    omega
  dsimp only at h
  split at h
  · obtain ⟨hi, rfl⟩ := List.getElem?_eq_some_iff.mp h
    exact ⟨hlow hi (by omega), hhigh hi (by omega)⟩
  · simp only [Option.bind_eq_bind, Option.bind_eq_some_iff] at h
    obtain ⟨x, hx, y, hy, hd⟩ := h
    obtain ⟨hi, rfl⟩ := List.getElem?_eq_some_iff.mp hx
    obtain ⟨hj, rfl⟩ := List.getElem?_eq_some_iff.mp hy
    obtain rfl := Option.some.inj hd
    -- the two in the middle
    have hxa := hlow hi (by omega)
    have hyb := hhigh hj (by omega)
    have hxy : sorted[sorted.length / 2 - 1] ≤ sorted[sorted.length / 2] :=
      List.pairwise_iff_getElem.mp hsorted _ _ hi hj (by omega)
    have htwo : (2.0 : K) = 2 := by norm_num
    rw [htwo, le_div_iff₀ two_pos, div_le_iff₀ two_pos]
    constructor <;> linarith

/-- The median is between two of the numbers. -/
theorem median_between {xs : List K} {d : K} (h : median xs = some d) :
    ∃ x ∈ xs, ∃ y ∈ xs, x ≤ d ∧ d ≤ y := by
  have hperm := List.mergeSort_perm xs fun a b => decide (a ≤ b)
  have hsorted : (xs.mergeSort fun a b => decide (a ≤ b)).Pairwise (· ≤ ·) :=
    List.pairwise_mergeSort' _ _
  unfold median at h
  dsimp only at h
  split at h
  · have hmem := hperm.mem_iff.mp (List.mem_of_getElem? h)
    exact ⟨d, hmem, d, hmem, le_rfl, le_rfl⟩
  · simp only [Option.bind_eq_bind, Option.bind_eq_some_iff] at h
    obtain ⟨x, hx, y, hy, hd⟩ := h
    refine ⟨x, hperm.mem_iff.mp (List.mem_of_getElem? hx), y,
      hperm.mem_iff.mp (List.mem_of_getElem? hy), ?_⟩
    obtain ⟨hi, rfl⟩ := List.getElem?_eq_some_iff.mp hx
    obtain ⟨hj, rfl⟩ := List.getElem?_eq_some_iff.mp hy
    obtain rfl := Option.some.inj hd
    have hxy := List.pairwise_iff_getElem.mp hsorted _ _ hi hj
    have htwo : (2.0 : K) = 2 := by norm_num
    rw [htwo, le_div_iff₀ two_pos, div_le_iff₀ two_pos]
    have hle := hxy (by omega)
    constructor <;> linarith

end

end KartStack.Sim2d

namespace KartStack.ConeLocalizer
open KartStack.Python ConeFollower

/-! ## The node -/

/-- `Detection2D`: classes and scores of its hypotheses, and the middle of its box. -/
structure Detection2D (K : Type) where
  results : List (String × K)
  centerX : K
  centerY : K
  deriving DecidableEq, Repr

/-- A depth image.  What is not finite in it is `none`. -/
structure DepthImage (K : Type) where
  encoding : String
  height : Nat
  width : Nat
  rows : List (List (Option K))
  shape : rows.length = height ∧ ∀ row ∈ rows, row.length = width

/-- The three messages of one call of `_on_synced`. -/
structure Synced (Info K : Type) where
  detections : List (Detection2D K)
  depth : DepthImage K
  info : Info

/-- `ConeDepthLocalizerNode`; the camera model is filled from the first `CameraInfo`. -/
structure LocalizerNode (Info K : Type) where
  depthRoiPx : Nat
  minDepthM : K
  maxDepthM : K
  defaultBoxSizeM : K
  cameraModel : Option Info
  deriving DecidableEq, Repr

/-- `PinholeCameraModel`: `fromCameraInfo` and `projectPixelTo3dRay`. -/
abbrev PinholeCameraModel (Info K : Type) := Info → K → K → Position K

section
variable {Info K : Type}

/-- The node with its declared parameters. -/
def LocalizerNode.declared [OfScientific K] : LocalizerNode Info K := ⟨5, 0.3, 40.0, 0.25, none⟩

/-- `_update_camera_model`. -/
def LocalizerNode.updateCameraModel (self : LocalizerNode Info K) (info : Info) :
    LocalizerNode Info K :=
  { self with cameraModel := some (self.cameraModel.getD info) }

variable [Field K] [LinearOrder K]

/-- `_depth_to_meters`. -/
def depthToMeters (encoding : String) (x : Option K) : Option K :=
  if encoding = "16UC1" ∨ encoding = "mono16" then x.map (· * 0.001) else x

/-- The depths around a pixel that `_median_depth` takes the median of. -/
def LocalizerNode.valid (self : LocalizerNode Info K) (image : DepthImage K) (u v radius : Nat) :
    List K :=
  let u0 := u - radius
  let u1 := min (image.width - 1) (u + radius)
  let v0 := v - radius
  let v1 := min (image.height - 1) (v + radius)
  let roi := (slice image.rows v0 (v1 + 1)).flatMap fun row => slice row u0 (u1 + 1)
  (roi.filterMap (depthToMeters image.encoding)).filter fun d =>
    decide (self.minDepthM < d ∧ d < self.maxDepthM)

/-- `_median_depth`. -/
def LocalizerNode.medianDepth (self : LocalizerNode Info K) (image : DepthImage K)
    (u v radius : Nat) : Option K :=
  Sim2d.median (self.valid image u v radius)

/-- `round(x)`: to the nearest integer, and from the middle to the even one. -/
def roundEven [FloorRing K] (x : K) : Int :=
  let n := ⌊x⌋
  if x - n < 0.5 then n
  else if 0.5 < x - n then n + 1
  else if n % 2 = 0 then n else n + 1

/-- `_project`. -/
def project (ray : K → K → Position K) (u v depth : K) : Position K :=
  let r := ray u v
  ⟨r.x * depth, r.y * depth, r.z * depth⟩

/-- `_make_detection3d`. -/
def LocalizerNode.makeDetection3d (self : LocalizerNode Info K) (classId : String) (score : K)
    (xyz : Position K) : Detection K :=
  ⟨[⟨classId, score, xyz⟩], xyz, ⟨self.defaultBoxSizeM, self.defaultBoxSizeM, self.defaultBoxSizeM⟩⟩

/-- One pass of the loop of `_on_synced`. -/
def LocalizerNode.detection [FloorRing K] (ray : K → K → Position K) (self : LocalizerNode Info K)
    (image : DepthImage K) (det : Detection2D K) : Option (Detection K) :=
  match det.results with
  | [] => none
  | (classId, score) :: _ =>
    let u := roundEven det.centerX
    let v := roundEven det.centerY
    if u < 0 ∨ v < 0 then none
    else if image.height ≤ v ∨ image.width ≤ u then none
    else (self.medianDepth image u.toNat v.toNat self.depthRoiPx).map fun depth =>
      self.makeDetection3d classId score (project ray u v depth)

/-- `_on_synced`: the detections published. -/
def LocalizerNode.onSynced [FloorRing K] (model : PinholeCameraModel Info K)
    (self : LocalizerNode Info K) (msg : Synced Info K) :
    List (Detection K) × LocalizerNode Info K :=
  let camera := self.cameraModel.getD msg.info
  (msg.detections.filterMap (self.detection (model camera) msg.depth),
    self.updateCameraModel msg.info)

/-- What is published for one message after the other. -/
def published [FloorRing K] (model : PinholeCameraModel Info K) :
    LocalizerNode Info K → List (Synced Info K) → List (List (Detection K))
  | _, [] => []
  | self, msg :: msgs =>
    let r := self.onSynced model msg
    r.1 :: published model r.2 msgs

end

/-! ## The camera -/

/-- Focal lengths and the middle of the image. -/
structure Intrinsics where
  fx : ℝ
  fy : ℝ
  cx : ℝ
  cy : ℝ

/-- `project3dToPixel`. -/
noncomputable def Intrinsics.project3dToPixel (c : Intrinsics) (p : Position ℝ) : ℝ × ℝ :=
  (c.fx * p.x / p.z + c.cx, c.fy * p.y / p.z + c.cy)

/-- How far a place is from the camera. -/
noncomputable def range (p : Position ℝ) : ℝ := √(p.x ^ 2 + p.y ^ 2 + p.z ^ 2)

/-- What is known of `projectPixelTo3dRay`: the inverse of `project3dToPixel`, by a unit vector
that points ahead. -/
structure Unprojects (c : Intrinsics) (ray : ℝ → ℝ → Position ℝ) : Prop where
  unit : ∀ u v, (ray u v).x ^ 2 + (ray u v).y ^ 2 + (ray u v).z ^ 2 = 1
  ahead : ∀ u v, 0 < (ray u v).z
  inverse : ∀ u v, c.project3dToPixel (ray u v) = (u, v)

section
variable {c : Intrinsics} {ray : ℝ → ℝ → Position ℝ} {u v d : ℝ}

theorem Unprojects.fx_ne_zero (h : Unprojects c ray) : c.fx ≠ 0 := by
  intro hzero
  have hone := congrArg Prod.fst (h.inverse (c.cx + 1) 0)
  simp [Intrinsics.project3dToPixel, hzero] at hone

theorem Unprojects.fy_ne_zero (h : Unprojects c ray) : c.fy ≠ 0 := by
  intro hzero
  have hone := congrArg Prod.snd (h.inverse 0 (c.cy + 1))
  simp [Intrinsics.project3dToPixel, hzero] at hone

/-- A place on the ray is seen at its pixel. -/
theorem project3dToPixel_project (h : Unprojects c ray) (hd : 0 < d) :
    c.project3dToPixel (project ray u v d) = (u, v) := by
  have hz := (h.ahead u v).ne'
  rw [← h.inverse u v]
  simp only [Intrinsics.project3dToPixel, project]
  rw [← mul_assoc, ← mul_assoc, mul_div_mul_right _ _ hd.ne', mul_div_mul_right _ _ hd.ne']

/-- It is as far away as was asked. -/
theorem range_project (h : Unprojects c ray) (hd : 0 < d) : range (project ray u v d) = d := by
  have hsq : (project ray u v d).x ^ 2 + (project ray u v d).y ^ 2 + (project ray u v d).z ^ 2 =
      d ^ 2 := by
    simp only [project]
    linear_combination d ^ 2 * h.unit u v
  rw [range, hsq, Real.sqrt_sq hd.le]

/-- The angle under which a pixel is seen, to the left. -/
theorem arg_project (h : Unprojects c ray) (hd : 0 < d) :
    Complex.arg ⟨(project ray u v d).z, -(project ray u v d).x⟩ =
      -Real.arctan ((u - c.cx) / c.fx) := by
  have hz : 0 < (project ray u v d).z := mul_pos (h.ahead u v) hd
  have hslope : (project ray u v d).x / (project ray u v d).z = (u - c.cx) / c.fx := by
    have hu := congrArg Prod.fst (project3dToPixel_project (u := u) (v := v) h hd)
    simp only [Intrinsics.project3dToPixel] at hu
    rw [eq_div_iff h.fx_ne_zero, div_mul_eq_mul_div, mul_comm]
    linarith
  obtain ⟨hlow, hhigh⟩ := abs_lt.mp (Complex.abs_arg_lt_pi_div_two_iff.mpr
    (Or.inl hz : 0 < (⟨(project ray u v d).z, -(project ray u v d).x⟩ : ℂ).re ∨ _))
  rw [← Real.arctan_tan hlow hhigh, Complex.tan_arg, neg_div, hslope, Real.arctan_neg]

/-- A place is on the ray of the pixel it is seen at. -/
theorem project_of_seen (h : Unprojects c ray) {p : Position ℝ} (hp : 0 < p.z)
    (hseen : c.project3dToPixel p = (u, v)) : project ray u v (range p) = p := by
  have hz := h.ahead u v
  obtain ⟨hx, hy⟩ := Prod.mk.inj (hseen.trans (h.inverse u v).symm)
  have hx' : p.x / p.z = (ray u v).x / (ray u v).z := by
    rw [mul_div_assoc, mul_div_assoc] at hx
    exact mul_left_cancel₀ h.fx_ne_zero (add_right_cancel hx)
  have hy' : p.y / p.z = (ray u v).y / (ray u v).z := by
    rw [mul_div_assoc, mul_div_assoc] at hy
    exact mul_left_cancel₀ h.fy_ne_zero (add_right_cancel hy)
  have hscale : project ray u v (p.z / (ray u v).z) = p := by
    obtain ⟨x, y, z⟩ := p
    simp only at hp hx' hy'
    rw [div_eq_iff hp.ne'] at hx' hy'
    simp only [project, Position.mk.injEq]
    refine ⟨?_, ?_, ?_⟩
    · rw [hx']
      ring
    · rw [hy']
      ring
    · exact mul_div_cancel₀ z hz.ne'
  have hrange := range_project (u := u) (v := v) h (div_pos hp hz)
  rw [hscale] at hrange
  rw [hrange, hscale]

end

/-! ## What is published -/

/-- What is measured at a pixel, in metres. -/
noncomputable def DepthImage.metersAt (image : DepthImage ℝ) (x y : Nat) : Option ℝ :=
  (image.rows[y]?.bind fun row => row[x]?).bind (depthToMeters image.encoding)

/-- A detection that can be put into space: it has a hypothesis, the middle of its box is a
pixel of the image, and some depth near that pixel is in the range. -/
def LocalizerNode.Locates {Info : Type} (self : LocalizerNode Info ℝ) (image : DepthImage ℝ)
    (det : Detection2D ℝ) : Prop :=
  det.results ≠ [] ∧ ∃ u v : Nat,
    (roundEven det.centerX = u ∧ roundEven det.centerY = v) ∧
    (u < image.width ∧ v < image.height) ∧
    ∃ x y d, (u ≤ x + self.depthRoiPx ∧ x ≤ u + self.depthRoiPx) ∧
      (v ≤ y + self.depthRoiPx ∧ y ≤ v + self.depthRoiPx) ∧
      image.metersAt x y = some d ∧ self.minDepthM < d ∧ d < self.maxDepthM

/-- A detection put into space: `det` in the image becomes `out`. -/
structure Localized {Info : Type} (c : Intrinsics) (self : LocalizerNode Info ℝ)
    (image : DepthImage ℝ) (det : Detection2D ℝ) (out : Detection ℝ) (classId : String)
    (score : ℝ) (u v : Nat) (p : Position ℝ) : Prop where
  hypothesis : det.results.head? = some (classId, score)
  results : out.results = [⟨classId, score, p⟩]
  center : out.center = p
  pixel : roundEven det.centerX = u ∧ roundEven det.centerY = v
  inImage : u < image.width ∧ v < image.height
  /-- It is seen at the pixel again. -/
  projects : c.project3dToPixel p = ((u : ℝ), (v : ℝ))
  inRange : self.minDepthM < range p ∧ range p < self.maxDepthM
  /-- It is as far away as most of the valid depths say. -/
  majority : ∀ a b, (self.valid image u v self.depthRoiPx).length <
    2 * (self.valid image u v self.depthRoiPx).countP (fun x => decide (a ≤ x ∧ x ≤ b)) →
      a ≤ range p ∧ range p ≤ b
  /-- The cone follower steers for it under the angle of the pixel. -/
  follower : ∀ cone, detectedCone MathLib.real out = some cone → cone.classId = classId ∧
    Complex.arg ⟨cone.fwd, cone.left⟩ = -Real.arctan ((u - c.cx) / c.fx)

section
variable {Info : Type} {c : Intrinsics} {ray : ℝ → ℝ → Position ℝ}
  {self : LocalizerNode Info ℝ} {image : DepthImage ℝ} {det : Detection2D ℝ} {out : Detection ℝ}

/-- What a pass of the loop makes of a detection. -/
theorem detection_eq_some (h : self.detection ray image det = some out) :
    ∃ classId score rest u v d, det.results = (classId, score) :: rest ∧
      (roundEven det.centerX = (u : Nat) ∧ roundEven det.centerY = (v : Nat)) ∧
      (u < image.width ∧ v < image.height) ∧
      self.medianDepth image u v self.depthRoiPx = some d ∧
      out = self.makeDetection3d classId score (project ray u v d) := by
  unfold LocalizerNode.detection at h
  split at h
  · cases h
  · rename_i classId score rest hresults
    simp only at h
    split_ifs at h with hneg hout
    rw [not_or, not_lt, not_lt] at hneg
    obtain ⟨u, hu⟩ := Int.eq_ofNat_of_zero_le hneg.1
    obtain ⟨v, hv⟩ := Int.eq_ofNat_of_zero_le hneg.2
    obtain ⟨d, hd, rfl⟩ := Option.map_eq_some_iff.mp h
    rw [hu, hv] at hout hd
    rw [hu, hv]
    exact ⟨classId, score, rest, u, v, d, hresults, ⟨rfl, rfl⟩, by omega, hd, by push_cast; rfl⟩

/-- **One detection.** -/
theorem localized_of_detection (hray : Unprojects c ray) (hmin : 0 ≤ self.minDepthM)
    (h : self.detection ray image det = some out) :
    ∃ classId score u v p, Localized c self image det out classId score u v p := by
  obtain ⟨classId, score, rest, u, v, d, hresults, hpixel, hin, hd, rfl⟩ := detection_eq_some h
  obtain ⟨x, hx, y, hy, hxd, hdy⟩ := Sim2d.median_between hd
  have hx' := of_decide_eq_true (List.mem_filter.mp hx).2
  have hy' := of_decide_eq_true (List.mem_filter.mp hy).2
  have hpos : 0 < d := hmin.trans_lt (hx'.1.trans_le hxd)
  have hrange : range (project ray u v d) = d := range_project hray hpos
  refine ⟨classId, score, u, v, project ray u v d, by rw [hresults]; rfl, rfl, rfl, hpixel, hin,
    project3dToPixel_project hray hpos, ?_, fun a b hmajority => ?_, fun cone hcone => ?_⟩
  · rw [hrange]
    exact ⟨hx'.1.trans_le hxd, hdy.trans_lt hy'.2⟩
  · rw [hrange]
    exact Sim2d.median_of_majority hd hmajority
  · simp only [detectedCone, LocalizerNode.makeDetection3d] at hcone
    split_ifs at hcone
    obtain rfl := Option.some.inj hcone
    exact ⟨rfl, arg_project hray hpos⟩

/-- The valid depths around a pixel. -/
theorem mem_valid {u v radius : Nat} (hu : u < image.width) (hv : v < image.height) {d : ℝ} :
    d ∈ self.valid image u v radius ↔
      ∃ x y, (u ≤ x + radius ∧ x ≤ u + radius) ∧ (v ≤ y + radius ∧ y ≤ v + radius) ∧
        image.metersAt x y = some d ∧ self.minDepthM < d ∧ d < self.maxDepthM := by
  simp only [LocalizerNode.valid, List.mem_filter, List.mem_filterMap, List.mem_flatMap, mem_slice,
    decide_eq_true_eq, DepthImage.metersAt, Option.bind_eq_some_iff]
  constructor
  · rintro ⟨⟨raw, ⟨row, ⟨y, hy, hy', hrow⟩, x, hx, hx', hraw⟩, hmeters⟩, hrange⟩
    exact ⟨x, y, by omega, by omega, ⟨raw, ⟨row, hrow, hraw⟩, hmeters⟩, hrange⟩
  · rintro ⟨x, y, hx, hy, ⟨raw, ⟨row, hrow, hraw⟩, hmeters⟩, hrange⟩
    -- the pixel is in the image
    obtain ⟨hylt, hget⟩ := List.getElem?_eq_some_iff.mp hrow
    obtain ⟨hxlt, -⟩ := List.getElem?_eq_some_iff.mp hraw
    have hrows := image.shape.1
    have hcols := image.shape.2 row (List.mem_of_getElem? hrow)
    exact ⟨⟨raw, ⟨row, ⟨y, by omega, by omega, hrow⟩, x, by omega, by omega, hraw⟩, hmeters⟩,
      hrange⟩

/-- Which detections become a cone. -/
theorem locates_iff : self.Locates image det ↔ (self.detection ray image det).isSome := by
  constructor
  · rintro ⟨hresults, u, v, ⟨hu, hv⟩, hin, hnear⟩
    obtain ⟨⟨classId, score⟩, rest, hcons⟩ := List.exists_cons_of_ne_nil hresults
    obtain ⟨x, y, d, hx, hy, hmeters, hrange⟩ := hnear
    have hmem := (mem_valid hin.1 hin.2).mpr ⟨x, y, hx, hy, hmeters, hrange⟩
    obtain ⟨depth, hdepth⟩ := Sim2d.exists_median (List.ne_nil_of_mem hmem)
    have hmedian : self.medianDepth image u v self.depthRoiPx = some depth := hdepth
    rw [LocalizerNode.detection, hcons]
    simp only [hu, hv]
    rw [if_neg (by omega), if_neg (by omega), Int.toNat_natCast, Int.toNat_natCast, hmedian]
    rfl
  · intro hsome
    obtain ⟨out, hout⟩ := Option.isSome_iff_exists.mp hsome
    obtain ⟨classId, score, rest, u, v, d, hresults, hpixel, hin, hd, -⟩ := detection_eq_some hout
    obtain ⟨x, hx, -⟩ := Sim2d.median_between hd
    obtain ⟨px, py, hnear⟩ := (mem_valid hin.1 hin.2).mp hx
    refine ⟨?_, u, v, hpixel, hin, px, py, x, hnear⟩
    rw [hresults]
    exact List.cons_ne_nil _ _

/-- What a list of detections becomes, in order. -/
theorem filterMap_forall₂ {A B : Type} {f : A → Option B} {P : A → Prop} [DecidablePred P]
    {R : A → B → Prop} (hP : ∀ a, P a ↔ (f a).isSome) (h : ∀ a b, f a = some b → R a b)
    (as : List A) : List.Forall₂ R (as.filter P) (as.filterMap f) := by
  induction as with
  | nil => exact .nil
  | cons a as ih =>
    cases hfa : f a with
    | none =>
      have hout : ¬ P a := by rw [hP, hfa]; exact Bool.false_ne_true
      rw [List.filterMap_cons_none hfa, List.filter_cons_of_neg (by simpa using hout)]
      exact ih
    | some b =>
      have hin : P a := by rw [hP, hfa]; rfl
      rw [List.filterMap_cons_some hfa, List.filter_cons_of_pos (by simpa using hin)]
      exact .cons (h a b hfa) ih

theorem published_eq (model : PinholeCameraModel Info ℝ) (info : Info)
    (hinfo : self.cameraModel = some info) (msgs : List (Synced Info ℝ)) :
    published model self msgs =
      msgs.map fun msg => msg.detections.filterMap (self.detection (model info) msg.depth) := by
  induction msgs generalizing self with
  | nil => rfl
  | cons msg msgs ih =>
    have hnext : (self.updateCameraModel msg.info).cameraModel = some info := by
      rw [LocalizerNode.updateCameraModel, hinfo, Option.getD_some]
    rw [published, LocalizerNode.onSynced, List.map_cons, ih hnext, hinfo, Option.getD_some]
    rfl

open Classical in
/-- **What the node publishes**, whatever messages come: for each just the detections that have
a hypothesis, are in the image and have a valid depth near them, in order, with class and score
of their first hypothesis, on the ray of their pixel by the camera of the first message, and as
far away as the median. -/
theorem localized_spec {model : PinholeCameraModel Info ℝ} {c : Info → Intrinsics}
    (hmodel : ∀ info, Unprojects (c info) (model info)) (hfresh : self.cameraModel = none)
    (hmin : 0 ≤ self.minDepthM) (first : Synced Info ℝ) (msgs : List (Synced Info ℝ)) :
    List.Forall₂ (fun msg outs =>
        List.Forall₂ (fun det out => ∃ classId score u v p,
          Localized (c first.info) self msg.depth det out classId score u v p)
          (msg.detections.filter fun det => decide (self.Locates msg.depth det)) outs)
      (first :: msgs) (published model self (first :: msgs)) := by
  have hpublished : published model self (first :: msgs) = (first :: msgs).map fun msg =>
      msg.detections.filterMap (self.detection (model first.info) msg.depth) := by
    have hnext : (self.updateCameraModel first.info).cameraModel = some first.info := by
      rw [LocalizerNode.updateCameraModel, hfresh, Option.getD_none]
    rw [published, LocalizerNode.onSynced, List.map_cons, published_eq model first.info hnext,
      hfresh, Option.getD_none]
    rfl
  rw [hpublished, List.forall₂_map_right_iff]
  exact List.forall₂_same.mpr fun msg _ => filterMap_forall₂ (fun _ => locates_iff)
    (fun _ _ => localized_of_detection (hmodel first.info) hmin) msg.detections

/-- A place moved along its ray. -/
def scale (k : ℝ) (p : Position ℝ) : Position ℝ := ⟨k * p.x, k * p.y, k * p.z⟩

theorem range_pos {p : Position ℝ} (hp : 0 < p.z) : 0 < range p := Real.sqrt_pos.mpr (by positivity)

theorem z_le_range (p : Position ℝ) : p.z ≤ range p :=
  Real.le_sqrt_of_sq_le (by nlinarith [sq_nonneg p.x, sq_nonneg p.y])

/-- Distance and depth of a place on the axis are the same, and of no other place. -/
theorem range_eq_z_iff {p : Position ℝ} (hp : 0 < p.z) : range p = p.z ↔ p.x = 0 ∧ p.y = 0 := by
  rw [range, Real.sqrt_eq_iff_mul_self_eq (by positivity) hp.le]
  constructor
  · intro h
    have hsum : p.x ^ 2 + p.y ^ 2 = 0 := by linarith
    exact ⟨by nlinarith [sq_nonneg p.x, sq_nonneg p.y], by nlinarith [sq_nonneg p.x, sq_nonneg p.y]⟩
  · rintro ⟨hx, hy⟩
    rw [hx, hy]
    ring

/-- **How a cone is moved.**  A cone in sight is published on its ray, and as far away as most of
the valid depths around its pixel say.  That is its place if they are its distance; if they are
how far it is ahead, it is put too near, unless it is on the axis of the camera. -/
theorem localized_shrinks (hray : Unprojects c ray) {p : Position ℝ} (hp : 0 < p.z) {u v : Nat}
    (hseen : c.project3dToPixel p = ((u : ℝ), (v : ℝ)))
    (hpixel : roundEven det.centerX = u ∧ roundEven det.centerY = v) {δ : ℝ}
    (hmajority : (self.valid image u v self.depthRoiPx).length <
      2 * (self.valid image u v self.depthRoiPx).countP (fun x => decide (δ ≤ x ∧ x ≤ δ)))
    (h : self.detection ray image det = some out) :
    out.center = scale (δ / range p) p ∧
      (δ = range p → out.center = p) ∧
      (δ = p.z → out.center.z ≤ p.z ∧ (out.center = p ↔ p.x = 0 ∧ p.y = 0)) := by
  have hr := range_pos hp
  have hmoved : out.center = scale (δ / range p) p := by
    obtain ⟨classId, score, rest, u', v', d, -, ⟨hu, hv⟩, -, hd, rfl⟩ := detection_eq_some h
    obtain rfl : u = u' := by exact_mod_cast hpixel.1.symm.trans hu
    obtain rfl : v = v' := by exact_mod_cast hpixel.2.symm.trans hv
    obtain ⟨hlow, hhigh⟩ := Sim2d.median_of_majority hd hmajority
    obtain rfl := le_antisymm hlow hhigh
    -- the ray of the pixel is the ray of the cone
    have hon := project_of_seen hray hp hseen
    have hx : p.x = (ray u v).x * range p := (congrArg Position.x hon).symm
    have hy : p.y = (ray u v).y * range p := (congrArg Position.y hon).symm
    have hz : p.z = (ray u v).z * range p := (congrArg Position.z hon).symm
    show project ray u v δ = _
    simp only [project, scale, Position.mk.injEq]
    generalize range p = r at hx hy hz hr
    rw [hx, hy, hz]
    refine ⟨?_, ?_, ?_⟩ <;> field_simp
  refine ⟨hmoved, fun hδ => ?_, fun hδ => ⟨?_, ?_⟩⟩
  · rw [hmoved, hδ, div_self hr.ne']
    simp [scale]
  · rw [hmoved, hδ]
    show p.z / range p * p.z ≤ p.z
    exact mul_le_of_le_one_left hp.le ((div_le_one hr).mpr (z_le_range p))
  · rw [hmoved, hδ, ← range_eq_z_iff hp]
    constructor
    · intro heq
      have hz : p.z / range p * p.z = p.z := congrArg Position.z heq
      have hone : p.z / range p = 1 := mul_right_cancel₀ hp.ne' (hz.trans (one_mul p.z).symm)
      exact ((div_eq_one_iff_eq hr.ne').mp hone).symm
    · intro heq
      rw [heq, div_self hp.ne']
      simp [scale]

end

/-! ## A camera -/

/-- `projectPixelTo3dRay` of a camera. -/
noncomputable def pinholeRay (c : Intrinsics) (u v : ℝ) : Position ℝ :=
  let x := (u - c.cx) / c.fx
  let y := (v - c.cy) / c.fy
  let n := √(x ^ 2 + y ^ 2 + 1)
  ⟨x / n, y / n, 1 / n⟩

theorem unprojects_pinholeRay {c : Intrinsics} (hfx : c.fx ≠ 0) (hfy : c.fy ≠ 0) :
    Unprojects c (pinholeRay c) := by
  have hn : ∀ x y : ℝ, 0 < √(x ^ 2 + y ^ 2 + 1) := fun x y => Real.sqrt_pos.mpr (by positivity)
  refine ⟨fun u v => ?_, fun u v => one_div_pos.mpr (hn _ _), fun u v => ?_⟩
  · have hsq := Real.sq_sqrt
      (by positivity : 0 ≤ ((u - c.cx) / c.fx) ^ 2 + ((v - c.cy) / c.fy) ^ 2 + 1)
    have hpos := hn ((u - c.cx) / c.fx) ((v - c.cy) / c.fy)
    simp only [pinholeRay]
    generalize (u - c.cx) / c.fx = x at hsq hpos ⊢
    generalize (v - c.cy) / c.fy = y at hsq hpos ⊢
    rw [div_pow, div_pow, div_pow, ← add_div, ← add_div, div_eq_one_iff_eq (by positivity), hsq]
    ring
  · have hpos := hn ((u - c.cx) / c.fx) ((v - c.cy) / c.fy)
    simp only [pinholeRay, Intrinsics.project3dToPixel]
    generalize √(((u - c.cx) / c.fx) ^ 2 + ((v - c.cy) / c.fy) ^ 2 + 1) = n at hpos
    refine Prod.ext ?_ ?_
    · show c.fx * ((u - c.cx) / c.fx / n) / (1 / n) + c.cx = u
      field_simp
      ring
    · show c.fy * ((v - c.cy) / c.fy / n) / (1 / n) + c.cy = v
      field_simp
      ring

/-- A camera whose first pixel is half a right angle off its axis. -/
noncomputable def cornerCamera : Intrinsics := ⟨1, 1, 1, 0⟩

/-- Two metres on the left and four in the middle, with an outlier between them, and no depth
in the range on the right. -/
noncomputable def twoDepths : DepthImage ℝ :=
  ⟨"32FC1", 2, 5,
    [[some 2.0, some 2.0, some 4.0, none, none], [some 2.0, some 9.0, some 4.0, none, some 0.1]],
    by simp⟩

/-- A cone on the left. -/
noncomputable def leftCone : Detection2D ℝ := ⟨[("blue_cone", 1)], 0, 0⟩

/-- A cone in the middle. -/
noncomputable def middleCone : Detection2D ℝ := ⟨[("yellow_cone", 1), ("blue_cone", 0)], 2.0, 1⟩

/-- Nothing is measured near this one. -/
noncomputable def rightCone : Detection2D ℝ := ⟨[("blue_cone", 1)], 4.0, 0⟩

/-- This one is not in the image. -/
noncomputable def outsideCone : Detection2D ℝ := ⟨[("blue_cone", 1)], 7.0, 0⟩

/-- This one has no hypothesis. -/
noncomputable def namelessCone : Detection2D ℝ := ⟨[], 0, 0⟩

/-- The node as declared, but for the size of the patch. -/
noncomputable def closeNode : LocalizerNode Unit ℝ :=
  { LocalizerNode.declared with depthRoiPx := 1 }

theorem roundEven_of_eq {x : ℝ} {n : Nat} (h : x = n) : roundEven x = n := by
  subst h
  norm_num [roundEven]

theorem locates_leftCone : closeNode.Locates twoDepths leftCone := by
  have hzero : roundEven (0 : ℝ) = (0 : Nat) := roundEven_of_eq Nat.cast_zero.symm
  refine ⟨List.cons_ne_nil _ _, 0, 0, ⟨hzero, hzero⟩, by decide, 0, 0, 2.0, by decide, by decide,
    by simp [DepthImage.metersAt, twoDepths, depthToMeters], ?_⟩
  norm_num [closeNode, LocalizerNode.declared]

theorem locates_middleCone : closeNode.Locates twoDepths middleCone := by
  refine ⟨List.cons_ne_nil _ _, 2, 1, ⟨roundEven_of_eq (by norm_num [middleCone]),
    roundEven_of_eq (by norm_num [middleCone])⟩, by decide, 2, 1, 4.0, by decide, by decide,
    by simp [DepthImage.metersAt, twoDepths, depthToMeters], ?_⟩
  norm_num [closeNode, LocalizerNode.declared]

theorem not_locates_rightCone : ¬ closeNode.Locates twoDepths rightCone := by
  rintro ⟨-, u, v, ⟨hu, hv⟩, -, x, y, d, hx, hy, hmeters, hmin, -⟩
  have hu' : roundEven rightCone.centerX = (4 : Nat) := roundEven_of_eq (by norm_num [rightCone])
  have hv' : roundEven rightCone.centerY = (0 : Nat) := roundEven_of_eq Nat.cast_zero.symm
  obtain rfl : 4 = u := Nat.cast_injective (hu'.symm.trans hu)
  obtain rfl : 0 = v := Nat.cast_injective (hv'.symm.trans hv)
  have hroi : closeNode.depthRoiPx = 1 := rfl
  rw [hroi] at hx hy
  have hxs : x = 3 ∨ x = 4 ∨ x = 5 := by omega
  have hys : y = 0 ∨ y = 1 := by omega
  rcases hxs with rfl | rfl | rfl <;> rcases hys with rfl | rfl <;>
    simp [DepthImage.metersAt, twoDepths, depthToMeters] at hmeters
  -- what is left is the depth that is too small
  rw [← hmeters] at hmin
  norm_num [closeNode, LocalizerNode.declared] at hmin

theorem not_locates_outsideCone : ¬ closeNode.Locates twoDepths outsideCone := by
  rintro ⟨-, u, v, ⟨hu, -⟩, ⟨hin, -⟩, -⟩
  have hu' : roundEven outsideCone.centerX = (7 : Nat) :=
    roundEven_of_eq (by norm_num [outsideCone])
  obtain rfl : 7 = u := Nat.cast_injective (hu'.symm.trans hu)
  exact absurd hin (by decide)

theorem unprojects_cornerCamera : Unprojects cornerCamera (pinholeRay cornerCamera) :=
  unprojects_pinholeRay one_ne_zero one_ne_zero

/-- One message: of its five detections two are published. -/
theorem localized_spec_corner :
    ∃ outs, published (fun _ => pinholeRay cornerCamera) closeNode
        [⟨[leftCone, outsideCone, middleCone, namelessCone, rightCone], twoDepths, ()⟩] = [outs] ∧
      List.Forall₂ (fun det out => ∃ classId score u v p,
          Localized cornerCamera closeNode twoDepths det out classId score u v p)
        [leftCone, middleCone] outs := by
  have hmin : (0 : ℝ) ≤ closeNode.minDepthM := by norm_num [closeNode, LocalizerNode.declared]
  have hfresh : closeNode.cameraModel = none := rfl
  have hspec := localized_spec (c := fun _ => cornerCamera) (fun _ => unprojects_cornerCamera)
    hfresh hmin ⟨[leftCone, outsideCone, middleCone, namelessCone, rightCone], twoDepths, ()⟩ []
  obtain ⟨outs, rest, hall, hrest, hpublished⟩ := List.forall₂_cons_left_iff.mp hspec
  obtain rfl := List.forall₂_nil_left_iff.mp hrest
  have hnameless : ¬ closeNode.Locates twoDepths namelessCone := fun h => h.1 rfl
  refine ⟨outs, hpublished, ?_⟩
  simpa [locates_leftCone, locates_middleCone, not_locates_rightCone, not_locates_outsideCone,
    hnameless] using hall

/-- The cone on the left is two metres ahead and two to the left, and is published too near. -/
theorem localized_shrinks_corner :
    ∃ out, closeNode.detection (pinholeRay cornerCamera) twoDepths leftCone = some out ∧
      out.center = scale (2 / range ⟨-2, 0, 2⟩) ⟨-2, 0, 2⟩ ∧
      ((2 : ℝ) = range ⟨-2, 0, 2⟩ → out.center = ⟨-2, 0, 2⟩) ∧
      ((2 : ℝ) = 2 →
        out.center.z ≤ 2 ∧ (out.center = ⟨-2, 0, 2⟩ ↔ (-2 : ℝ) = 0 ∧ (0 : ℝ) = 0)) := by
  have hzero : roundEven (0 : ℝ) = (0 : Nat) := roundEven_of_eq Nat.cast_zero.symm
  have hvalid : closeNode.valid twoDepths 0 0 closeNode.depthRoiPx = [2, 2, 2, 9] := by
    have hmeters : List.filterMap (depthToMeters "32FC1") [some (2 : ℝ), some 2, some 2, some 9] =
        [2, 2, 2, 9] := by simp [depthToMeters]
    simp only [LocalizerNode.valid, LocalizerNode.declared, closeNode, twoDepths]
    norm_num [slice]
    rw [hmeters]
    norm_num
  have hsome : (closeNode.detection (pinholeRay cornerCamera) twoDepths leftCone).isSome :=
    locates_iff.mp locates_leftCone
  obtain ⟨out, hout⟩ := Option.isSome_iff_exists.mp hsome
  refine ⟨out, hout, localized_shrinks unprojects_cornerCamera (p := ⟨-2, 0, 2⟩) (by norm_num)
    (by norm_num [Intrinsics.project3dToPixel, cornerCamera]) ⟨hzero, hzero⟩ ?_ hout⟩
  rw [hvalid]
  norm_num

end KartStack.ConeLocalizer
