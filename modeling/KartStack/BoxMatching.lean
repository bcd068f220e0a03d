import KartStack.PythonDict
import Mathlib.Algebra.Field.Rat
import Mathlib.Algebra.Order.Ring.Unbundled.Rat
import Mathlib.Data.List.FinRange
import Mathlib.Data.List.Sort
import Mathlib.Logic.Function.Basic
import Mathlib.Tactic.NormNum

/-! # The matching behind the perception scores

`evaluate_perception.py`.  The boxes a detector predicts for a frame are matched to the boxes
projected from the map: the most confident prediction first, each to the free box of its
class that overlaps it most, where they overlap enough.  What is left over on either side
counts against the detector, in all and for each class.

A prediction's turn marks one free box or none, and none only where no free box of its class
overlaps enough (`turn_cases`).  A box once marked stays marked, so a prediction without a
box and a box without a prediction, at the end, did not go together at the prediction's turn
either.
-/
namespace KartStack.EvaluatePerception
open KartStack.Python

/-- `(x1, y1, x2, y2)`. -/
structure Box (K : Type) where
  x1 : K
  y1 : K
  x2 : K
  y2 : K
  deriving DecidableEq

/-- An entry of `gt_boxes`. -/
structure GtBox (C K : Type) where
  box : Box K
  cls : C
  deriving DecidableEq

/-- An entry of `pred_boxes`. -/
structure PredBox (C K : Type) where
  box : Box K
  cls : C
  conf : K
  deriving DecidableEq

/-- An entry of `class_stats`. -/
structure ClassStats where
  gt : Nat
  tp : Nat
  fp : Nat
  deriving DecidableEq

/-- `gt_matched`, `pred_matched` and `tp`, for `m` predictions and `n` boxes. -/
structure Marks (m n : Nat) where
  gtMatched : Fin n → Bool
  predMatched : Fin m → Bool
  tp : Nat

/-- Both marked, and counted. -/
def Marks.mark {m n : Nat} (s : Marks m n) (pi : Fin m) (gi : Fin n) : Marks m n where
  gtMatched := Function.update s.gtMatched gi true
  predMatched := Function.update s.predMatched pi true
  tp := s.tp + 1

/-- Nothing matched yet. -/
def Marks.start {m n : Nat} : Marks m n := ⟨fun _ => false, fun _ => false, 0⟩

section
variable {C K : Type} [DecidableEq C] [Field K] [LinearOrder K]

/-- `iou`. -/
def iou (a b : Box K) : K :=
  let xa := max a.x1 b.x1
  let ya := max a.y1 b.y1
  let xb := min a.x2 b.x2
  let yb := min a.y2 b.y2
  let inter := max 0 (xb - xa) * max 0 (yb - ya)
  let areaA := (a.x2 - a.x1) * (a.y2 - a.y1)
  let areaB := (b.x2 - b.x1) * (b.y2 - b.y1)
  let union := areaA + areaB - inter
  if 0 < union then inter / union else 0

variable (gts : List (GtBox C K)) (preds : List (PredBox C K)) (iouThreshold : K)

/-- `best_iou` and `best_gi` after the inner loop, -1 being `none`. -/
def best (pred : PredBox C K) (gtMatched : Fin gts.length → Bool) :
    List (Fin gts.length) → K × Option (Fin gts.length) → K × Option (Fin gts.length)
  | [], found => found
  | gi :: rest, (bestIou, bestGi) =>
    if gtMatched gi then best pred gtMatched rest (bestIou, bestGi)
    -- class must match
    else if pred.cls ≠ (gts.get gi).cls then best pred gtMatched rest (bestIou, bestGi)
    else
      let curIou := iou pred.box (gts.get gi).box
      if bestIou < curIou then best pred gtMatched rest (curIou, some gi)
      else best pred gtMatched rest (bestIou, bestGi)

/-- The box a prediction gets at its turn, if any. -/
def chosen (s : Marks preds.length gts.length) (pi : Fin preds.length) :
    Option (Fin gts.length) :=
  let (bestIou, bestGi) :=
    best gts (preds.get pi) s.gtMatched (List.finRange gts.length) (0, none)
  if iouThreshold ≤ bestIou then bestGi else none

/-- The turn of one prediction. -/
def turn (s : Marks preds.length gts.length) (pi : Fin preds.length) :
    Marks preds.length gts.length :=
  match chosen gts preds iouThreshold s pi with
  | some bestGi => s.mark pi bestGi
  | none => s

/-- `pred_sorted`: the highest confidence first, equal ones as they came. -/
def predSorted : List (Fin preds.length) :=
  (List.finRange preds.length).mergeSort fun i j =>
    decide ((preds.get j).conf ≤ (preds.get i).conf)

/-- The marks after the loop over the predictions. -/
def matchBoxes : Marks preds.length gts.length :=
  (predSorted preds).foldl (turn gts preds iouThreshold) Marks.start

/-- What is marked together, turn by turn. -/
def marked : List (Fin preds.length) → Marks preds.length gts.length →
    List (Fin preds.length × Fin gts.length)
  | [], _ => []
  | pi :: order, s =>
    match chosen gts preds iouThreshold s pi with
    | some gi => (pi, gi) :: marked order (s.mark pi gi)
    | none => marked order s

/-- The pairs that the loop over the predictions marks. -/
def pairs : List (Fin preds.length × Fin gts.length) :=
  marked gts preds iouThreshold (predSorted preds) Marks.start

/-- `fp`. -/
def Marks.fp {m n : Nat} (s : Marks m n) : Nat :=
  (List.finRange m).countP fun pi => !s.predMatched pi

/-- `fn`. -/
def Marks.fn {m n : Nat} (s : Marks m n) : Nat :=
  (List.finRange n).countP fun gi => !s.gtMatched gi

end

/-! ## The frames -/

/-- What is counted over the frames. -/
structure Totals (C K : Type) where
  totalGt : Nat
  totalTp : Nat
  totalFp : Nat
  totalFn : Nat
  classStats : List (C × ClassStats)
  allConfidences : List K

/-- The totals before the first frame. -/
def Totals.start {C K : Type} : Totals C K := ⟨0, 0, 0, 0, [], []⟩

/-- The counts of a class that was not seen yet. -/
def ClassStats.unseen : ClassStats := ⟨0, 0, 0⟩

section
variable {C K : Type} [DecidableEq C] [Field K] [LinearOrder K]

/-- The boxes of a frame, and the predictions where its image could be read. -/
abbrev FrameBoxes (C K : Type) := List (GtBox C K) × Option (List (PredBox C K))

/-- `class_stats` after a frame; a class without an entry is a `KeyError` in the second loop. -/
def countClasses (gts : List (GtBox C K)) (preds : List (PredBox C K))
    (s : Marks preds.length gts.length) (classStats : List (C × ClassStats)) :
    Option (List (C × ClassStats)) := do
  let classStats ← (List.finRange gts.length).foldlM (fun d gi =>
    updated (fun c => { c with gt := c.gt + 1 }) (gts.get gi).cls
      (ensured d (gts.get gi).cls .unseen)) classStats
  let classStats ← ((List.finRange gts.length).filter s.gtMatched).foldlM (fun d gi =>
    updated (fun c => { c with tp := c.tp + 1 }) (gts.get gi).cls d) classStats
  ((List.finRange preds.length).filter fun pi => !s.predMatched pi).foldlM (fun d pi =>
    updated (fun c => { c with fp := c.fp + 1 }) (preds.get pi).cls
      (ensured d (preds.get pi).cls .unseen)) classStats

/-- One frame of `run_evaluation`: a frame that cannot be read is left out. -/
def evaluateFrame (iouThreshold : K) (t : Totals C K) (frame : FrameBoxes C K) :
    Option (Totals C K) :=
  match frame.2 with
  | none => some t
  | some preds => do
    let s := matchBoxes frame.1 preds iouThreshold
    let classStats ← countClasses frame.1 preds s t.classStats
    return { totalGt := t.totalGt + frame.1.length
             totalTp := t.totalTp + s.tp
             totalFp := t.totalFp + s.fp
             totalFn := t.totalFn + s.fn
             classStats
             allConfidences := t.allConfidences ++ preds.map (·.conf) }

/-- The loop over the frames. -/
def runEvaluation (iouThreshold : K) (frames : List (FrameBoxes C K)) : Option (Totals C K) :=
  frames.foldlM (evaluateFrame iouThreshold) .start

/-- What is counted in the frames that can be read, taken together. -/
def overReadable (count : List (GtBox C K) → List (PredBox C K) → Nat)
    (frames : List (FrameBoxes C K)) : Nat :=
  (frames.map fun frame => (frame.2.map (count frame.1)).getD 0).sum

end

/-! ## A prediction's turn -/

section
variable {C K : Type} [DecidableEq C] [Field K] [LinearOrder K]
variable {gts : List (GtBox C K)} {preds : List (PredBox C K)} {iouThreshold : K}

/-- They are of one class, and overlap enough. -/
def Fits (gts : List (GtBox C K)) (preds : List (PredBox C K)) (iouThreshold : K)
    (pi : Fin preds.length) (gi : Fin gts.length) : Prop :=
  (preds.get pi).cls = (gts.get gi).cls ∧
    iouThreshold ≤ iou (preds.get pi).box (gts.get gi).box

theorem best_cons (pred : PredBox C K) (gtMatched : Fin gts.length → Bool)
    (gi : Fin gts.length) (rest : List (Fin gts.length)) (found : K × Option (Fin gts.length)) :
    best gts pred gtMatched (gi :: rest) found = best gts pred gtMatched rest
      (if gtMatched gi = false ∧ pred.cls = (gts.get gi).cls ∧
          found.1 < iou pred.box (gts.get gi).box
        then (iou pred.box (gts.get gi).box, some gi) else found) := by
  rw [best]
  cases hfree : gtMatched gi with
  | true => rw [if_pos rfl, if_neg fun h => Bool.noConfusion h.1]
  | false =>
    rw [if_neg Bool.false_ne_true]
    by_cases hcls : pred.cls = (gts.get gi).cls
    · rw [if_neg (not_not.mpr hcls)]
      by_cases hlt : found.1 < iou pred.box (gts.get gi).box
      · simp only [hcls, hlt, and_self, if_true]
      · simp only [hlt, and_false, if_false]
    · simp only [if_pos hcls, hcls, false_and, and_false, if_false]

/-- What the inner loop finds is what it began with or a free box of the class, and no free
box of the class overlaps more. -/
theorem best_spec (pred : PredBox C K) (gtMatched : Fin gts.length → Bool)
    (gis : List (Fin gts.length)) (found : K × Option (Fin gts.length)) :
    (best gts pred gtMatched gis found = found ∨ ∃ gi, gtMatched gi = false ∧
      pred.cls = (gts.get gi).cls ∧
      best gts pred gtMatched gis found = (iou pred.box (gts.get gi).box, some gi)) ∧
    found.1 ≤ (best gts pred gtMatched gis found).1 ∧
    ∀ gi ∈ gis, gtMatched gi = false → pred.cls = (gts.get gi).cls →
      iou pred.box (gts.get gi).box ≤ (best gts pred gtMatched gis found).1 := by
  induction gis generalizing found with
  | nil => exact ⟨.inl rfl, le_refl _, fun _ hgi => (List.not_mem_nil hgi).elim⟩
  | cons gi gis ih =>
    rw [best_cons]
    by_cases hnew : gtMatched gi = false ∧ pred.cls = (gts.get gi).cls ∧
        found.1 < iou pred.box (gts.get gi).box
    · rw [if_pos hnew]
      obtain ⟨hfound, hle, hall⟩ := ih (iou pred.box (gts.get gi).box, some gi)
      obtain ⟨hfree, hcls, hlt⟩ := hnew
      refine ⟨.inr ?_, hlt.le.trans hle, fun gj hgj hgjfree hgjcls => ?_⟩
      · rcases hfound with hsame | hother
        · exact ⟨gi, hfree, hcls, hsame⟩
        · exact hother
      · rcases List.mem_cons.mp hgj with rfl | hgj
        · exact hle
        · exact hall gj hgj hgjfree hgjcls
    · rw [if_neg hnew]
      obtain ⟨hfound, hle, hall⟩ := ih found
      refine ⟨hfound, hle, fun gj hgj hgjfree hgjcls => ?_⟩
      rcases List.mem_cons.mp hgj with rfl | hgj
      · exact (not_lt.mp fun hlt => hnew ⟨hgjfree, hgjcls, hlt⟩).trans hle
      · exact hall gj hgj hgjfree hgjcls

/-- **A prediction's turn.**  It gets a free box that it fits, or it fits no free box. -/
theorem chosen_cases (hthreshold : 0 < iouThreshold) (s : Marks preds.length gts.length)
    (pi : Fin preds.length) :
    (∃ gi, chosen gts preds iouThreshold s pi = some gi ∧ s.gtMatched gi = false ∧
      Fits gts preds iouThreshold pi gi) ∨
    (chosen gts preds iouThreshold s pi = none ∧
      ∀ gi, s.gtMatched gi = false → ¬ Fits gts preds iouThreshold pi gi) := by
  obtain ⟨hfound, -, hall⟩ :=
    best_spec (preds.get pi) s.gtMatched (List.finRange gts.length) (0, none)
  rw [chosen]
  by_cases henough : iouThreshold ≤ (best gts (preds.get pi) s.gtMatched
      (List.finRange gts.length) (0, none)).1
  · rcases hfound with hnone | ⟨gi, hfree, hcls, hgi⟩
    · -- a threshold above zero is not met by the zero the search begins with
      rw [hnone] at henough
      exact absurd hthreshold (not_lt.mpr henough)
    · rw [hgi] at henough
      refine .inl ⟨gi, ?_, hfree, hcls, henough⟩
      rw [hgi]
      exact if_pos henough
  · refine .inr ⟨if_neg henough, fun gi hfree hfits => henough ?_⟩
    exact hfits.2.trans (hall gi (List.mem_finRange gi) hfree hfits.1)

theorem turn_of_some {s : Marks preds.length gts.length} {pi : Fin preds.length}
    {gi : Fin gts.length} (h : chosen gts preds iouThreshold s pi = some gi) :
    turn gts preds iouThreshold s pi = s.mark pi gi := by
  rw [turn, h]

theorem turn_of_none {s : Marks preds.length gts.length} {pi : Fin preds.length}
    (h : chosen gts preds iouThreshold s pi = none) : turn gts preds iouThreshold s pi = s := by
  rw [turn, h]

/-! ## The loop -/

theorem mark_gtMatched_iff {m n : Nat} (s : Marks m n) (pi : Fin m) (gi gj : Fin n) :
    (s.mark pi gi).gtMatched gj = true ↔ gj = gi ∨ s.gtMatched gj = true := by
  simp only [Marks.mark, Function.update_apply]
  by_cases heq : gj = gi <;> simp [heq]

theorem mark_predMatched_iff {m n : Nat} (s : Marks m n) (pi pj : Fin m) (gi : Fin n) :
    (s.mark pi gi).predMatched pj = true ↔ pj = pi ∨ s.predMatched pj = true := by
  simp only [Marks.mark, Function.update_apply]
  by_cases heq : pj = pi <;> simp [heq]

/-- What the loop over the predictions does from some marks on. -/
structure Run (gts : List (GtBox C K)) (preds : List (PredBox C K)) (iouThreshold : K)
    (order : List (Fin preds.length)) (s final : Marks preds.length gts.length)
    (pairs : List (Fin preds.length × Fin gts.length)) : Prop where
  gt : ∀ gi, final.gtMatched gi = true ↔ s.gtMatched gi = true ∨ gi ∈ pairs.map Prod.snd
  pred : ∀ pi, final.predMatched pi = true ↔ s.predMatched pi = true ∨ pi ∈ pairs.map Prod.fst
  tp : final.tp = s.tp + pairs.length
  fits : ∀ p ∈ pairs, p.1 ∈ order ∧ s.gtMatched p.2 = false ∧
    Fits gts preds iouThreshold p.1 p.2
  once : (pairs.map Prod.snd).Nodup
  each : order.Nodup → (pairs.map Prod.fst).Nodup
  maximal : ∀ pi ∈ order, ∀ gi, final.predMatched pi = false → final.gtMatched gi = false →
    ¬ Fits gts preds iouThreshold pi gi

omit [DecidableEq C] in
theorem Run.nil (s : Marks preds.length gts.length) : Run gts preds iouThreshold [] s s [] where
  gt := by simp
  pred := by simp
  tp := rfl
  fits := by simp
  once := List.nodup_nil
  each := fun _ => List.nodup_nil
  maximal := by simp

omit [DecidableEq C] in
theorem Run.marks {pi : Fin preds.length} {order : List (Fin preds.length)}
    {s final : Marks preds.length gts.length} {gi : Fin gts.length}
    {pairs : List (Fin preds.length × Fin gts.length)} (hfree : s.gtMatched gi = false)
    (hfits : Fits gts preds iouThreshold pi gi)
    (h : Run gts preds iouThreshold order (s.mark pi gi) final pairs) :
    Run gts preds iouThreshold (pi :: order) s final ((pi, gi) :: pairs) where
  gt gj := by
    rw [h.gt, mark_gtMatched_iff, List.map_cons, List.mem_cons]
    tauto
  pred pj := by
    rw [h.pred, mark_predMatched_iff, List.map_cons, List.mem_cons]
    tauto
  tp := by
    have hmark : (s.mark pi gi).tp = s.tp + 1 := rfl
    rw [h.tp, hmark, List.length_cons]
    omega
  fits p hp := by
    rcases List.mem_cons.mp hp with rfl | hp
    · exact ⟨List.mem_cons_self, hfree, hfits⟩
    · obtain ⟨horder, hpfree, hpfits⟩ := h.fits p hp
      refine ⟨List.mem_cons_of_mem pi horder, ?_, hpfits⟩
      rw [← Bool.not_eq_true, mark_gtMatched_iff, not_or, Bool.not_eq_true] at hpfree
      exact hpfree.2
  once := by
    refine List.nodup_cons.mpr ⟨fun hmem => ?_, h.once⟩
    -- the box is no longer free when the others choose
    obtain ⟨p, hp, heq⟩ := List.mem_map.mp hmem
    have hpfree := (h.fits p hp).2.1
    rw [heq, (mark_gtMatched_iff s pi gi gi).mpr (.inl rfl)] at hpfree
    cases hpfree
  each horder := by
    obtain ⟨hnot, horder⟩ := List.nodup_cons.mp horder
    refine List.nodup_cons.mpr ⟨fun hmem => hnot ?_, h.each horder⟩
    obtain ⟨p, hp, heq⟩ := List.mem_map.mp hmem
    have horder := (h.fits p hp).1
    rw [heq] at horder
    exact horder
  maximal pj hpj gj hpred hgt := by
    rcases List.mem_cons.mp hpj with rfl | hpj
    · have hmatched := (h.pred pj).mpr (.inl ((mark_predMatched_iff s pj pj gi).mpr (.inl rfl)))
      rw [hpred] at hmatched
      cases hmatched
    · exact h.maximal pj hpj gj hpred hgt

omit [DecidableEq C] in
theorem Run.skips {pi : Fin preds.length} {order : List (Fin preds.length)}
    {s final : Marks preds.length gts.length}
    {pairs : List (Fin preds.length × Fin gts.length)}
    (hnone : ∀ gi, s.gtMatched gi = false → ¬ Fits gts preds iouThreshold pi gi)
    (h : Run gts preds iouThreshold order s final pairs) :
    Run gts preds iouThreshold (pi :: order) s final pairs where
  gt := h.gt
  pred := h.pred
  tp := h.tp
  fits p hp := by
    obtain ⟨horder, hrest⟩ := h.fits p hp
    exact ⟨List.mem_cons_of_mem pi horder, hrest⟩
  once := h.once
  each horder := h.each (List.nodup_cons.mp horder).2
  maximal pj hpj gj hpred hgt := by
    rcases List.mem_cons.mp hpj with rfl | hpj
    · -- what is free at the end was free at this turn
      refine hnone gj ?_
      rw [← Bool.not_eq_true, h.gt, not_or, Bool.not_eq_true] at hgt
      exact hgt.1
    · exact h.maximal pj hpj gj hpred hgt

theorem run_loop (hthreshold : 0 < iouThreshold) (order : List (Fin preds.length))
    (s : Marks preds.length gts.length) :
    Run gts preds iouThreshold order s (order.foldl (turn gts preds iouThreshold) s)
      (marked gts preds iouThreshold order s) := by
  induction order generalizing s with
  | nil => exact Run.nil s
  | cons pi order ih =>
    rw [List.foldl_cons, marked]
    rcases chosen_cases hthreshold s pi with ⟨gi, hchosen, hfree, hfits⟩ | ⟨hchosen, hnone⟩
    · rw [turn_of_some hchosen, hchosen]
      exact Run.marks hfree hfits (ih _)
    · rw [turn_of_none hchosen, hchosen]
      exact Run.skips hnone (ih s)

/-- A proper matching of the predictions of a frame to its boxes. -/
structure ProperMatching (gts : List (GtBox C K)) (preds : List (PredBox C K))
    (iouThreshold : K) (final : Marks preds.length gts.length)
    (pairs : List (Fin preds.length × Fin gts.length)) : Prop where
  predOnce : (pairs.map Prod.fst).Nodup
  gtOnce : (pairs.map Prod.snd).Nodup
  fits : ∀ p ∈ pairs, Fits gts preds iouThreshold p.1 p.2
  predMatched : ∀ pi, final.predMatched pi = true ↔ ∃ gi, (pi, gi) ∈ pairs
  gtMatched : ∀ gi, final.gtMatched gi = true ↔ ∃ pi, (pi, gi) ∈ pairs
  tp : final.tp = pairs.length
  maximal : ∀ pi gi, final.predMatched pi = false → final.gtMatched gi = false →
    (preds.get pi).cls = (gts.get gi).cls →
    iou (preds.get pi).box (gts.get gi).box < iouThreshold

variable (gts preds) in
theorem matchBoxes_proper (hthreshold : 0 < iouThreshold) :
    ProperMatching gts preds iouThreshold (matchBoxes gts preds iouThreshold)
      (pairs gts preds iouThreshold) := by
  have hperm : (predSorted preds).Perm (List.finRange preds.length) := List.mergeSort_perm _ _
  have hrun := run_loop hthreshold (predSorted preds) (Marks.start : Marks preds.length gts.length)
  refine ⟨hrun.each (hperm.nodup_iff.mpr (List.nodup_finRange _)), hrun.once,
    fun p hp => (hrun.fits p hp).2.2, fun pi => ?_, fun gi => ?_, ?_,
    fun pi gi hpred hgt hcls => ?_⟩
  · rw [matchBoxes, hrun.pred, pairs]
    simp [Marks.start]
  · rw [matchBoxes, hrun.gt, pairs]
    simp [Marks.start]
  · rw [matchBoxes, hrun.tp, pairs, Marks.start, Nat.zero_add]
  · refine not_le.mp fun hle => hrun.maximal pi ?_ gi hpred hgt ⟨hcls, hle⟩
    exact hperm.mem_iff.mpr (List.mem_finRange pi)

/-! ## The counts -/

/-- How many a list without repetition marks. -/
theorem countP_marked {n : Nat} {marked : Fin n → Bool} {is : List (Fin n)} (hnodup : is.Nodup)
    (hmarked : ∀ i, marked i = true ↔ i ∈ is) : (List.finRange n).countP marked = is.length := by
  rw [List.countP_eq_length_filter]
  refine List.Perm.length_eq ?_
  refine (List.perm_ext_iff_of_nodup ((List.nodup_finRange n).filter _) hnodup).mpr fun i => ?_
  rw [List.mem_filter, hmarked]
  exact ⟨fun hi => hi.2, fun hi => ⟨List.mem_finRange i, hi⟩⟩

theorem countP_add_countP_not {n : Nat} (marked : Fin n → Bool) :
    (List.finRange n).countP marked + (List.finRange n).countP (fun i => !marked i) = n := by
  have hcount := List.length_eq_countP_add_countP marked (l := List.finRange n)
  have hnot : (fun i => !marked i) = fun i => decide ¬ marked i = true := by
    funext i
    cases marked i <;> rfl
  rw [hnot]
  exact hcount.symm.trans List.length_finRange

namespace ProperMatching
variable {final : Marks preds.length gts.length}
  {pairs : List (Fin preds.length × Fin gts.length)}

omit [DecidableEq C] in
theorem countP_predMatched (h : ProperMatching gts preds iouThreshold final pairs) :
    (List.finRange preds.length).countP final.predMatched = final.tp := by
  rw [h.tp, ← List.length_map (f := Prod.fst)]
  refine countP_marked h.predOnce fun pi => ?_
  rw [h.predMatched]
  simp

omit [DecidableEq C] in
theorem countP_gtMatched (h : ProperMatching gts preds iouThreshold final pairs) :
    (List.finRange gts.length).countP final.gtMatched = final.tp := by
  rw [h.tp, ← List.length_map (f := Prod.snd)]
  refine countP_marked h.gtOnce fun gi => ?_
  rw [h.gtMatched]
  simp

omit [DecidableEq C] in
theorem tp_add_fp (h : ProperMatching gts preds iouThreshold final pairs) :
    final.tp + final.fp = preds.length := by
  rw [← h.countP_predMatched]
  exact countP_add_countP_not final.predMatched

omit [DecidableEq C] in
theorem tp_add_fn (h : ProperMatching gts preds iouThreshold final pairs) :
    final.tp + final.fn = gts.length := by
  rw [← h.countP_gtMatched]
  exact countP_add_countP_not final.gtMatched

end ProperMatching

/-! ## The classes -/

omit [Field K] [LinearOrder K] in
/-- What a frame adds to the counts of the classes. -/
theorem exists_countClasses (gts : List (GtBox C K)) (preds : List (PredBox C K))
    (s : Marks preds.length gts.length) (d : List (C × ClassStats)) :
    ∃ d', countClasses gts preds s d = some d' ∧
      sumOf ClassStats.gt d' = sumOf ClassStats.gt d + gts.length ∧
      sumOf ClassStats.tp d' =
        sumOf ClassStats.tp d + (List.finRange gts.length).countP s.gtMatched ∧
      sumOf ClassStats.fp d' = sumOf ClassStats.fp d + s.fp := by
  obtain ⟨d₁, hd₁, -, hkeys₁, hsum₁⟩ := exists_foldlM_ensured (fun gi => (gts.get gi).cls)
    (fun c : ClassStats => { c with gt := c.gt + 1 }) .unseen (List.finRange gts.length) d
  -- the first loop has made an entry for the class of every box
  have hseen : ∀ gi ∈ (List.finRange gts.length).filter s.gtMatched,
      (gts.get gi).cls ∈ d₁.map Prod.fst := fun gi _ => hkeys₁ gi (List.mem_finRange gi)
  obtain ⟨d₂, hd₂, -, hsum₂⟩ := exists_foldlM_updated (fun gi => (gts.get gi).cls)
    (fun c : ClassStats => { c with tp := c.tp + 1 }) hseen
  obtain ⟨d₃, hd₃, -, -, hsum₃⟩ := exists_foldlM_ensured (fun pi => (preds.get pi).cls)
    (fun c : ClassStats => { c with fp := c.fp + 1 }) .unseen
    ((List.finRange preds.length).filter fun pi => !s.predMatched pi) d₂
  refine ⟨d₃, ?_, ?_, ?_, ?_⟩
  · rw [countClasses, hd₁]
    simp only [Option.bind_eq_bind, Option.bind_some, hd₂, hd₃]
  · rw [hsum₃ ClassStats.gt 0 rfl fun _ => rfl, hsum₂ ClassStats.gt 0 fun _ => rfl,
      hsum₁ ClassStats.gt 1 rfl fun _ => rfl, List.length_finRange]
    omega
  · rw [hsum₃ ClassStats.tp 0 rfl fun _ => rfl, hsum₂ ClassStats.tp 1 fun _ => rfl,
      hsum₁ ClassStats.tp 0 rfl fun _ => rfl, List.countP_eq_length_filter]
    omega
  · rw [hsum₃ ClassStats.fp 1 rfl fun _ => rfl, hsum₂ ClassStats.fp 0 fun _ => rfl,
      hsum₁ ClassStats.fp 0 rfl fun _ => rfl, Marks.fp, List.countP_eq_length_filter]
    omega

/-- The counts of the classes add up to the totals. -/
structure Balanced (t : Totals C K) : Prop where
  gt : sumOf ClassStats.gt t.classStats = t.totalGt
  tp : sumOf ClassStats.tp t.classStats = t.totalTp
  fp : sumOf ClassStats.fp t.classStats = t.totalFp

/-! ## All frames -/

section
variable (count count' : List (GtBox C K) → List (PredBox C K) → Nat)
  (frames : List (FrameBoxes C K))

omit [DecidableEq C] [Field K] [LinearOrder K] in
theorem overReadable_cons (frame : FrameBoxes C K) :
    overReadable count (frame :: frames) =
      (frame.2.map (count frame.1)).getD 0 + overReadable count frames := rfl

omit [DecidableEq C] [Field K] [LinearOrder K] in
theorem overReadable_add :
    overReadable count frames + overReadable count' frames =
      overReadable (fun gts preds => count gts preds + count' gts preds) frames := by
  induction frames with
  | nil => rfl
  | cons frame frames ih =>
    rw [overReadable_cons, overReadable_cons, overReadable_cons, ← ih]
    cases frame.2 with
    | none => simp
    | some preds =>
      simp only [Option.map_some, Option.getD_some]
      omega

end

/-- What the frames do to the totals. -/
structure Counts (iouThreshold : K) (frames : List (FrameBoxes C K)) (t t' : Totals C K) :
    Prop where
  gt : t'.totalGt = t.totalGt + overReadable (fun gts _ => gts.length) frames
  tp : t'.totalTp = t.totalTp +
    overReadable (fun gts preds => (matchBoxes gts preds iouThreshold).tp) frames
  fp : t'.totalFp = t.totalFp +
    overReadable (fun gts preds => (matchBoxes gts preds iouThreshold).fp) frames
  fn : t'.totalFn = t.totalFn +
    overReadable (fun gts preds => (matchBoxes gts preds iouThreshold).fn) frames
  balanced : Balanced t → Balanced t'

/-- One frame. -/
theorem counts_frame (hthreshold : 0 < iouThreshold) (t : Totals C K) (frame : FrameBoxes C K) :
    ∃ t', evaluateFrame iouThreshold t frame = some t' ∧ Counts iouThreshold [frame] t t' := by
  obtain ⟨gts, preds⟩ := frame
  cases preds with
  | none => exact ⟨t, rfl, rfl, rfl, rfl, rfl, id⟩
  | some preds =>
    have hproper := matchBoxes_proper gts preds hthreshold
    obtain ⟨d', hd', hgt, htp, hfp⟩ :=
      exists_countClasses gts preds (matchBoxes gts preds iouThreshold) t.classStats
    rw [hproper.countP_gtMatched] at htp
    simp only [evaluateFrame, hd']
    refine ⟨_, rfl, rfl, rfl, rfl, rfl, fun ht => ⟨?_, ?_, ?_⟩⟩
    · exact hgt.trans (congrArg (· + _) ht.gt)
    · exact htp.trans (congrArg (· + _) ht.tp)
    · exact hfp.trans (congrArg (· + _) ht.fp)

/-- **Every frame.** -/
theorem counts_frames (hthreshold : 0 < iouThreshold) (t : Totals C K)
    (frames : List (FrameBoxes C K)) :
    ∃ t', frames.foldlM (evaluateFrame iouThreshold) t = some t' ∧
      Counts iouThreshold frames t t' := by
  induction frames generalizing t with
  | nil => exact ⟨t, rfl, rfl, rfl, rfl, rfl, id⟩
  | cons frame frames ih =>
    obtain ⟨t₁, ht₁, hframe⟩ := counts_frame hthreshold t frame
    obtain ⟨t', ht', hrest⟩ := ih t₁
    refine ⟨t', ?_, ?_, ?_, ?_, ?_, fun ht => hrest.balanced (hframe.balanced ht)⟩
    · rw [List.foldlM_cons, ht₁]
      exact ht'
    · rw [hrest.gt, hframe.gt, overReadable_cons, overReadable_cons]
      exact add_assoc ..
    · rw [hrest.tp, hframe.tp, overReadable_cons, overReadable_cons]
      exact add_assoc ..
    · rw [hrest.fp, hframe.fp, overReadable_cons, overReadable_cons]
      exact add_assoc ..
    · rw [hrest.fn, hframe.fn, overReadable_cons, overReadable_cons]
      exact add_assoc ..

/-- The totals of some frames: what was matched in those that can be read, and nothing is
left out, neither of the predictions nor of the boxes nor for a class. -/
structure AddsUp (iouThreshold : K) (frames : List (FrameBoxes C K)) (t : Totals C K) : Prop
    extends Balanced t where
  totalGt : t.totalGt = overReadable (fun gts _ => gts.length) frames
  totalTp : t.totalTp =
    overReadable (fun gts preds => (pairs gts preds iouThreshold).length) frames
  predictions : t.totalTp + t.totalFp = overReadable (fun _ preds => preds.length) frames
  boxes : t.totalTp + t.totalFn = overReadable (fun gts _ => gts.length) frames

theorem Counts.addsUp (hthreshold : 0 < iouThreshold) {frames : List (FrameBoxes C K)}
    {t : Totals C K} (h : Counts iouThreshold frames .start t) : AddsUp iouThreshold frames t := by
  have hgt := h.gt
  have htp := h.tp
  have hfp := h.fp
  have hfn := h.fn
  simp only [Totals.start, Nat.zero_add] at hgt htp hfp hfn
  refine ⟨h.balanced ⟨rfl, rfl, rfl⟩, hgt, ?_, ?_, ?_⟩
  · simp only [htp, (matchBoxes_proper _ _ hthreshold).tp]
  · simp only [htp, hfp, overReadable_add, (matchBoxes_proper _ _ hthreshold).tp_add_fp]
  · simp only [htp, hfn, overReadable_add, (matchBoxes_proper _ _ hthreshold).tp_add_fn]

/-- **The scores come from a proper maximal matching.**  The loop over the predictions of a
frame pairs them with boxes of their class that overlap enough, each with one at most, and
leaves no two that go together; nothing is lost in the counts of a frame, nor over all frames,
nor in those of the classes. -/
theorem runEvaluation_proper (hthreshold : 0 < iouThreshold) :
    (∀ (gts : List (GtBox C K)) (preds : List (PredBox C K)),
      ProperMatching gts preds iouThreshold (matchBoxes gts preds iouThreshold)
        (pairs gts preds iouThreshold) ∧
      (matchBoxes gts preds iouThreshold).tp + (matchBoxes gts preds iouThreshold).fp =
        preds.length ∧
      (matchBoxes gts preds iouThreshold).tp + (matchBoxes gts preds iouThreshold).fn =
        gts.length) ∧
    ∀ frames : List (FrameBoxes C K), ∃ t, runEvaluation iouThreshold frames = some t ∧
      AddsUp iouThreshold frames t := by
  refine ⟨fun gts preds => ?_, fun frames => ?_⟩
  · have hproper := matchBoxes_proper gts preds hthreshold
    exact ⟨hproper, hproper.tp_add_fp, hproper.tp_add_fn⟩
  · obtain ⟨t, ht, hcounts⟩ := counts_frames hthreshold .start frames
    exact ⟨t, ht, hcounts.addsUp hthreshold⟩

end

/-- A cone on the map, and two predictions of it. -/
def oneCone : List (GtBox String Rat) := [⟨⟨0, 0, 10, 10⟩, "blue_cone"⟩]

@[inherit_doc oneCone]
def twoPredictions : List (PredBox String Rat) :=
  [⟨⟨0, 0, 10, 9⟩, "blue_cone", 1 / 2⟩, ⟨⟨0, 0, 10, 8⟩, "blue_cone", 3 / 4⟩]

/-- At the threshold the script takes if none is given. -/
theorem runEvaluation_proper_half :
    (0 : Rat) < 1 / 2 ∧
    ProperMatching oneCone twoPredictions (1 / 2) (matchBoxes oneCone twoPredictions (1 / 2))
      (pairs oneCone twoPredictions (1 / 2)) ∧
    ∃ t, runEvaluation (1 / 2) [(oneCone, some twoPredictions), (oneCone, none)] = some t ∧
      AddsUp (1 / 2) [(oneCone, some twoPredictions), (oneCone, none)] t :=
  have hhalf : (0 : Rat) < 1 / 2 := by norm_num
  ⟨hhalf, ((runEvaluation_proper hhalf).1 oneCone twoPredictions).1,
    (runEvaluation_proper hhalf).2 [(oneCone, some twoPredictions), (oneCone, none)]⟩

end KartStack.EvaluatePerception
