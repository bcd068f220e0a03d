import KartStack.SteeringSensor
import Mathlib.Algebra.BigOperators.Group.List.Basic
import Mathlib.Data.Int.ModEq
import Mathlib.Tactic.Ring

/-! # Steering calibration

`cal_main.c` drives the steering to its left limit and to its right limit, averages twenty
raw samples of the encoder at each, and saves the middle of the shorter way between the two
averages, and how long that way is.

The way between the averages may lead over the zero of the encoder: `app_main` sees to
that.  The samples of one limit may lie on both sides of the zero as well, and their average
is then the plain one of small and large numbers.  So a calibration turns with the encoder if
all samples pass the zero, or none does; if some do, what is saved follows only where the
errors of the two averages happen to make up for each other (`calibrate_rotate_iff`).
-/
namespace KartStack.CalMain

/-- What is saved. -/
structure Saved where
  leftRaw : UInt16
  rightRaw : UInt16
  center : UInt16
  travel : UInt16
  deriving DecidableEq

/-- `n`, the number of samples of each limit. -/
def n : Nat := 20

/-- `sum / n`, of the values that `KM_SDIR_ReadRaw` returns. -/
def average (samples : List UInt16) : UInt16 :=
  (samples.foldl (fun sum raw => sum + raw.toUInt32) 0 / UInt32.ofNat n).toUInt16

/-- The center and the travel, "handling wraparound". -/
def centerTravel (leftRaw rightRaw : UInt16) : UInt16 × UInt16 :=
  if rightRaw ≥ leftRaw then
    let travel := rightRaw - leftRaw
    if travel ≤ 2048 then (leftRaw + travel / 2, travel)
    else
      let travel := 4096 - travel
      ((rightRaw + travel / 2) % 4096, travel)
  else
    let travel := leftRaw - rightRaw
    if travel ≤ 2048 then (rightRaw + travel / 2, travel)
    else
      let travel := 4096 - travel
      ((leftRaw + travel / 2) % 4096, travel)

/-- What `app_main` saves, by the samples of the left limit and of the right one. -/
def calibrate (left right : List UInt16) : Saved :=
  let leftRaw := average left
  let rightRaw := average right
  let (center, travel) := centerTravel leftRaw rightRaw
  ⟨leftRaw, rightRaw, center, travel⟩

/-! ## In natural numbers -/

/-- The samples of one limit, as the encoder gives them. -/
structure Sampled (samples : List UInt16) : Prop where
  length : samples.length = n
  counts : ∀ raw ∈ samples, raw.toNat < 4096

/-- The sum of the samples. -/
def total (samples : List UInt16) : Nat := (samples.map UInt16.toNat).sum

theorem foldl_toNat (samples : List UInt16) (sum : UInt32)
    (h : sum.toNat + total samples < 2 ^ 32) :
    (samples.foldl (fun sum raw => sum + raw.toUInt32) sum).toNat =
      sum.toNat + total samples := by
  induction samples generalizing sum with
  | nil => rfl
  | cons raw samples ih =>
    have htotal : total (raw :: samples) = raw.toNat + total samples := List.sum_cons
    have hstep : (sum + raw.toUInt32).toNat = sum.toNat + raw.toNat := by
      rw [UInt32.toNat_add, UInt16.toNat_toUInt32]
      exact Nat.mod_eq_of_lt (by omega)
    rw [List.foldl_cons, ih _ (by omega), hstep, htotal, Nat.add_assoc]

theorem total_le {samples : List UInt16} (h : ∀ raw ∈ samples, raw.toNat < 4096) :
    total samples ≤ 4095 * samples.length := by
  induction samples with
  | nil => exact Nat.le_refl 0
  | cons raw samples ih =>
    have hraw := h raw (List.mem_cons_self ..)
    have hrest := ih fun x hx => h x (List.mem_cons_of_mem _ hx)
    have htotal : total (raw :: samples) = raw.toNat + total samples := List.sum_cons
    rw [List.length_cons]
    omega

theorem average_toNat {samples : List UInt16} (h : Sampled samples) :
    (average samples).toNat = total samples / 20 ∧ total samples / 20 < 4096 := by
  have hle := total_le h.counts
  rw [h.length, n] at hle
  have hsum := foldl_toNat samples 0 (by rw [UInt32.toNat_zero]; omega)
  rw [UInt32.toNat_zero, Nat.zero_add] at hsum
  have hlt : total samples / 20 < 4096 := by omega
  refine ⟨?_, hlt⟩
  rw [average, UInt32.toNat_toUInt16, UInt32.toNat_div, hsum]
  exact Nat.mod_eq_of_lt (by change total samples / 20 < 2 ^ 16; omega)

/-- How far apart two numbers are. -/
def apart (l r : Nat) : Nat := max l r - min l r

theorem apart_comm (l r : Nat) : apart l r = apart r l := by
  rw [apart, apart, Nat.max_comm, Nat.min_comm]

theorem apart_of_le {l r : Nat} (h : l ≤ r) : apart l r = r - l := by
  rw [apart, Nat.max_eq_right h, Nat.min_eq_left h]

theorem apart_lt {l r : Nat} (hl : l < 4096) (hr : r < 4096) : apart l r < 4096 := by
  rw [apart]
  omega

/-- The middle of the shorter way between `l` and `r`: the plain middle is on it, or
opposite. -/
def centerOf (l r : Nat) : Nat :=
  ((l + r) / 2 + if apart l r ≤ 2048 then 0 else 2048) % 4096

theorem centerOf_comm (l r : Nat) : centerOf l r = centerOf r l := by
  rw [centerOf, centerOf, Nat.add_comm l r, apart_comm]

/-- The middle of the way up from `l` to `r`. -/
theorem middle_toNat {l r : UInt16} (hr : r.toNat < 4096) (hle : l ≤ r) :
    (l + (r - l) / 2).toNat = (l.toNat + r.toNat) / 2 := by
  have hsub := UInt16.toNat_sub_of_le r l hle
  have htwo : (2 : UInt16).toNat = 2 := rfl
  rw [UInt16.le_iff_toNat_le] at hle
  rw [UInt16.toNat_add, UInt16.toNat_div, hsub, htwo]
  omega

/-- The middle of the way up from `r` over the zero to `l`. -/
theorem over_toNat {l r : UInt16} (hr : r.toNat < 4096) (hle : l ≤ r) :
    ((r + (4096 - (r - l)) / 2) % 4096).toNat = ((l.toNat + r.toNat) / 2 + 2048) % 4096 ∧
      (4096 - (r - l)).toNat = 4096 - (r.toNat - l.toNat) := by
  have hsub := UInt16.toNat_sub_of_le r l hle
  have htwo : (2 : UInt16).toNat = 2 := rfl
  have hturn : (4096 : UInt16).toNat = 4096 := rfl
  have hway : (4096 - (r - l)).toNat = 4096 - (r.toNat - l.toNat) := by
    have hle' : r - l ≤ 4096 := by
      rw [UInt16.le_iff_toNat_le, hsub, hturn]
      omega
    rw [UInt16.toNat_sub_of_le 4096 (r - l) hle', hsub, hturn]
  refine ⟨?_, hway⟩
  rw [UInt16.le_iff_toNat_le] at hle
  rw [UInt16.toNat_mod, UInt16.toNat_add, UInt16.toNat_div, hway, hturn, htwo]
  omega

/-- The two ways that begin at the lower average. -/
theorem shorter_toNat {l r : UInt16} (hr : r.toNat < 4096) (hle : l ≤ r) :
    let saved := if r - l ≤ 2048 then (l + (r - l) / 2, r - l)
      else ((r + (4096 - (r - l)) / 2) % 4096, 4096 - (r - l))
    saved.1.toNat = centerOf l.toNat r.toNat ∧
      saved.2.toNat = min (apart l.toNat r.toNat) (4096 - apart l.toNat r.toNat) := by
  have hsub := UInt16.toNat_sub_of_le r l hle
  have hhalf : r - l ≤ 2048 ↔ r.toNat - l.toNat ≤ 2048 := by
    rw [UInt16.le_iff_toNat_le, hsub]
    rfl
  have hle' := UInt16.le_iff_toNat_le.mp hle
  rw [centerOf, apart_of_le hle']
  by_cases h : r.toNat - l.toNat ≤ 2048
  · rw [if_pos (hhalf.mpr h), if_pos h]
    refine ⟨?_, ?_⟩
    · rw [middle_toNat hr hle]
      omega
    · rw [hsub]
      omega
  · rw [if_neg (mt hhalf.mp h), if_neg h]
    obtain ⟨hcenter, hway⟩ := over_toNat hr hle
    refine ⟨hcenter, ?_⟩
    rw [hway]
    omega

/-- What is saved of the averages. -/
theorem centerTravel_toNat {l r : UInt16} (hl : l.toNat < 4096) (hr : r.toNat < 4096) :
    (centerTravel l r).1.toNat = centerOf l.toNat r.toNat ∧
      (centerTravel l r).2.toNat =
        min (apart l.toNat r.toNat) (4096 - apart l.toNat r.toNat) := by
  unfold centerTravel
  by_cases hle : r ≥ l
  · rw [if_pos hle]
    exact shorter_toNat hr hle
  · have hge : r ≤ l := by
      rw [UInt16.le_iff_toNat_le]
      rw [ge_iff_le, UInt16.le_iff_toNat_le] at hle
      omega
    rw [if_neg hle, centerOf_comm, apart_comm]
    exact shorter_toNat hl hge

/-! ## The encoder turned -/

/-- A sample after the encoder was turned by `d` counts. -/
def rotate (d : Nat) (raw : UInt16) : UInt16 := UInt16.ofNat ((raw.toNat + d) % 4096)

/-- How many samples pass the zero as the encoder turns. -/
def passes (d : Nat) (samples : List UInt16) : Nat :=
  samples.countP fun raw => decide (4096 ≤ raw.toNat + d % 4096)

theorem rotate_toNat (d : Nat) (raw : UInt16) :
    (rotate d raw).toNat = (raw.toNat + d) % 4096 := by
  rw [rotate, UInt16.toNat_ofNat']
  exact Nat.mod_eq_of_lt ((Nat.mod_lt _ (by decide)).trans (by decide))

theorem sampled_rotate {samples : List UInt16} (h : Sampled samples) (d : Nat) :
    Sampled (samples.map (rotate d)) := by
  refine ⟨by rw [List.length_map, h.length], fun raw hraw => ?_⟩
  obtain ⟨x, -, rfl⟩ := List.mem_map.mp hraw
  rw [rotate_toNat]
  exact Nat.mod_lt _ (by decide)

/-- Each sample that passes the zero loses a turn. -/
theorem total_rotate {samples : List UInt16} (h : ∀ raw ∈ samples, raw.toNat < 4096) (d : Nat) :
    total (samples.map (rotate d)) + 4096 * passes d samples =
      total samples + d % 4096 * samples.length := by
  induction samples with
  | nil => rfl
  | cons raw samples ih =>
    have hraw := h raw (List.mem_cons_self ..)
    have hrest := ih fun x hx => h x (List.mem_cons_of_mem _ hx)
    have htotal : total (raw :: samples) = raw.toNat + total samples := List.sum_cons
    have hrotated : total ((raw :: samples).map (rotate d)) =
        (raw.toNat + d) % 4096 + total (samples.map (rotate d)) := by
      rw [← rotate_toNat]
      exact List.sum_cons
    have hpasses : passes d (raw :: samples) =
        passes d samples + if 4096 ≤ raw.toNat + d % 4096 then 1 else 0 := by
      rw [passes, List.countP_cons, passes]
      simp only [decide_eq_true_eq]
    rw [htotal, hrotated, hpasses, List.length_cons, Nat.mul_succ]
    split <;> omega

/-- Two calibrations agree up to a turn of the encoder by `d`, and up to one count. -/
def Follows (d : Nat) (saved saved' : Saved) : Prop :=
  (∃ e : Int, -1 ≤ e ∧ e ≤ 1 ∧
    (saved'.center.toNat : Int) ≡ saved.center.toNat + d + e [ZMOD 4096]) ∧
  saved'.travel.toNat ≤ saved.travel.toNat + 1 ∧ saved.travel.toNat ≤ saved'.travel.toNat + 1

/-- The distance of the plain averages. -/
def spread (left right : List UInt16) : Nat := apart (total left / n) (total right / n)

/-- The averages are as far apart after the turn the other way around, up to one count. -/
def Opposite (s s' : Nat) : Prop :=
  (s ≤ 2048 ∧ 2048 < s' ∨ s' ≤ 2048 ∧ 2048 < s) ∧ 4095 ≤ s + s' ∧ s + s' ≤ 4097

theorem passes_le (d : Nat) (samples : List UInt16) : passes d samples ≤ samples.length :=
  List.countP_le_length

/-- The sum of the averages, after a turn by `k` in which `w` samples pass the zero. -/
structure Turned (k w l r l' r' : Nat) : Prop where
  upper : 20 * (l' + r') + 4096 * w ≤ 20 * (l + r) + 40 * k + 38
  lower : 20 * (l + r) + 40 * k ≤ 20 * (l' + r') + 4096 * w + 38

/-- Only if no group is torn, or the errors sum up to a turn, can the center follow. -/
theorem turns_of_center {d w l r l' r' : Nat} {e : Int} (h : Turned (d % 4096) w l r l' r')
    (hw : w ≤ 40) (he : -1 ≤ e ∧ e ≤ 1)
    (hcenter : (centerOf l' r' : Int) ≡ centerOf l r + d + e [ZMOD 4096]) :
    w = 0 ∨ w = 20 ∨ w = 40 := by
  obtain ⟨hupper, hlower⟩ := h
  have hmiddle : ∃ t : Int, -3 ≤ (l' + r' : Int) - (l + r) - 2 * (d % 4096 : Nat) - 4096 * t ∧
      (l' + r' : Int) - (l + r) - 2 * (d % 4096 : Nat) - 4096 * t ≤ 3 := by
    obtain ⟨j, hj⟩ := hcenter.dvd
    rw [centerOf, centerOf] at hj
    split_ifs at hj
    · simp only [Nat.add_zero] at hj
      exact ⟨2 * (d / 4096 - j + ((l' + r') / 2 : Nat) / 4096 - ((l + r) / 2 : Nat) / 4096),
        by omega, by omega⟩
    · simp only [Nat.add_zero] at hj
      exact ⟨2 * (d / 4096 - j + ((l' + r') / 2 + 2048 : Nat) / 4096 -
        ((l + r) / 2 : Nat) / 4096) - 1, by omega, by omega⟩
    · simp only [Nat.add_zero] at hj
      exact ⟨2 * (d / 4096 - j + ((l' + r') / 2 : Nat) / 4096 -
        ((l + r) / 2 + 2048 : Nat) / 4096) + 1, by omega, by omega⟩
    · exact ⟨2 * (d / 4096 - j + ((l' + r') / 2 + 2048 : Nat) / 4096 -
        ((l + r) / 2 + 2048 : Nat) / 4096), by omega, by omega⟩
  obtain ⟨t, hlow, hhigh⟩ := hmiddle
  have hzero : 20 * t + w = 0 := by omega
  omega

/-- Where the errors sum up to a turn, the center follows if the plain middle comes to be
opposite, or is so no more. -/
theorem center_of_turn {d l r l' r' : Nat} (h : Turned (d % 4096) 20 l r l' r') :
    (∃ e : Int, -1 ≤ e ∧ e ≤ 1 ∧ (centerOf l' r' : Int) ≡ centerOf l r + d + e [ZMOD 4096]) ↔
      ¬ (apart l r ≤ 2048 ↔ apart l' r' ≤ 2048) := by
  obtain ⟨hupper, hlower⟩ := h
  constructor
  · rintro ⟨e, hlow, hhigh, hcenter⟩ hsame
    rw [Int.ModEq, centerOf, centerOf] at hcenter
    by_cases hs : apart l r ≤ 2048
    · rw [if_pos hs, if_pos (hsame.mp hs)] at hcenter
      omega
    · rw [if_neg hs, if_neg (mt hsame.mpr hs)] at hcenter
      omega
  · intro hdiff
    refine ⟨((l' + r' : Nat) / 2 : Int) - (l + r : Nat) / 2 - (d % 4096 : Nat) + 2048,
      by omega, by omega, ?_⟩
    rw [Int.ModEq, centerOf, centerOf]
    by_cases hs : apart l r ≤ 2048
    · rw [if_pos hs, if_neg fun hs' => hdiff (iff_of_true hs hs')]
      omega
    · rw [if_neg hs, if_pos (by tauto)]
      omega

/-- Averages that turn with the encoder, both over the zero or neither. -/
theorem center_of_whole {d c l r l' r' : Nat} (hl : l' + 4096 * c = l + d % 4096)
    (hr : r' + 4096 * c = r + d % 4096) : apart l' r' = apart l r ∧
      (centerOf l' r' : Int) ≡ centerOf l r + d + 0 [ZMOD 4096] := by
  have hsame : apart l' r' = apart l r := by
    rw [apart, apart]
    omega
  refine ⟨hsame, ?_⟩
  rw [Int.ModEq, centerOf, centerOf, hsame]
  split_ifs <;> omega

/-- **When the calibration turns with the encoder.** -/
theorem calibrate_rotate_iff {left right : List UInt16} (hleft : Sampled left)
    (hright : Sampled right) (d : Nat) :
    Follows d (calibrate left right)
        (calibrate (left.map (rotate d)) (right.map (rotate d))) ↔
      passes d left + passes d right = 0 ∨ passes d left + passes d right = 2 * n ∨
        passes d left + passes d right = n ∧ Opposite (spread left right)
          (spread (left.map (rotate d)) (right.map (rotate d))) := by
  have hleft' := sampled_rotate hleft d
  have hright' := sampled_rotate hright d
  obtain ⟨hl, hl4096⟩ := average_toNat hleft
  obtain ⟨hr, hr4096⟩ := average_toNat hright
  obtain ⟨hl', hl4096'⟩ := average_toNat hleft'
  obtain ⟨hr', hr4096'⟩ := average_toNat hright'
  obtain ⟨hcenter, htravel⟩ := centerTravel_toNat (hl ▸ hl4096) (hr ▸ hr4096)
  obtain ⟨hcenter', htravel'⟩ := centerTravel_toNat (hl' ▸ hl4096') (hr' ▸ hr4096')
  have hltotal := total_rotate hleft.counts d
  have hrtotal := total_rotate hright.counts d
  have hlpasses := passes_le d left
  have hrpasses := passes_le d right
  rw [hleft.length, n] at hltotal hlpasses
  rw [hright.length, n] at hrtotal hrpasses
  rw [hl, hr] at hcenter htravel
  rw [hl', hr'] at hcenter' htravel'
  simp only [Follows, calibrate, hcenter, htravel, hcenter', htravel', Opposite, spread, n]
  generalize total left = L at *
  generalize total right = R at *
  generalize total (left.map (rotate d)) = L' at *
  generalize total (right.map (rotate d)) = R' at *
  generalize passes d left = wl at *
  generalize passes d right = wr at *
  have hturned : Turned (d % 4096) (wl + wr) (L / 20) (R / 20) (L' / 20) (R' / 20) := by
    constructor <;> omega
  have hspread := apart_lt hl4096 hr4096
  have hspread' := apart_lt hl4096' hr4096'
  constructor
  · rintro ⟨⟨e, hlow, hhigh, hcenter⟩, htravels⟩
    rcases turns_of_center hturned (by omega) ⟨hlow, hhigh⟩ hcenter with hw | hw | hw
    · exact Or.inl hw
    · have hdiff := (center_of_turn (hw ▸ hturned)).mp ⟨e, hlow, hhigh, hcenter⟩
      refine Or.inr (Or.inr ⟨hw, ?_⟩)
      omega
    · exact Or.inr (Or.inl hw)
  · rintro (hw | hw | ⟨hw, hopposite⟩)
    · have hlwhole : L' / 20 + 4096 * 0 = L / 20 + d % 4096 := by omega
      have hrwhole : R' / 20 + 4096 * 0 = R / 20 + d % 4096 := by omega
      obtain ⟨hsame, hcenter⟩ := center_of_whole hlwhole hrwhole
      rw [hsame]
      exact ⟨⟨0, by decide, by decide, hcenter⟩, Nat.le_succ _, Nat.le_succ _⟩
    · have hlwhole : L' / 20 + 4096 * 1 = L / 20 + d % 4096 := by omega
      have hrwhole : R' / 20 + 4096 * 1 = R / 20 + d % 4096 := by omega
      obtain ⟨hsame, hcenter⟩ := center_of_whole hlwhole hrwhole
      rw [hsame]
      exact ⟨⟨0, by decide, by decide, hcenter⟩, Nat.le_succ _, Nat.le_succ _⟩
    · have hdiff : ¬ (apart (L / 20) (R / 20) ≤ 2048 ↔ apart (L' / 20) (R' / 20) ≤ 2048) := by
        omega
      refine ⟨(center_of_turn (hw ▸ hturned)).mpr hdiff, ?_⟩
      omega

/-- Samples of one limit lie within an arc of at most a hundred counts. -/
def WithinArc (samples : List UInt16) : Prop :=
  ∃ start, ∀ raw ∈ samples, (raw.toNat + 4096 - start) % 4096 ≤ 100

/-- No sample of the one limit is further than `1900` counts from one of the other. -/
def WithinReach (left right : List UInt16) : Prop :=
  ∀ l ∈ left, ∀ r ∈ right,
    min (apart l.toNat r.toNat) (4096 - apart l.toNat r.toNat) ≤ 1900

theorem sampled_replicate {raw : UInt16} (h : raw.toNat < 4096) :
    Sampled (List.replicate n raw) := by
  refine ⟨List.length_replicate, fun x hx => ?_⟩
  rwa [List.eq_of_mem_replicate hx]

theorem calibrate_rotate_steady :
    Follows 100 (calibrate (List.replicate n 1000) (List.replicate n 2500))
        (calibrate ((List.replicate n 1000).map (rotate 100))
          ((List.replicate n 2500).map (rotate 100))) ↔
      passes 100 (List.replicate n 1000) + passes 100 (List.replicate n 2500) = 0 ∨
        passes 100 (List.replicate n 1000) + passes 100 (List.replicate n 2500) = 2 * n ∨
        passes 100 (List.replicate n 1000) + passes 100 (List.replicate n 2500) = n ∧
          Opposite (spread (List.replicate n 1000) (List.replicate n 2500))
            (spread ((List.replicate n 1000).map (rotate 100))
              ((List.replicate n 2500).map (rotate 100))) :=
  calibrate_rotate_iff (sampled_replicate (by decide)) (sampled_replicate (by decide)) 100

/-- At the left limit the encoder is between `4095` and `0`; a turn by one count is worth
almost fifty. -/
theorem not_follows_torn :
    let left := List.replicate 10 4095 ++ List.replicate 10 0
    let right := List.replicate 20 1000
    Sampled left ∧ Sampled right ∧ WithinArc left ∧ WithinArc right ∧ WithinReach left right ∧
      ¬ Follows 1 (calibrate left right)
        (calibrate (left.map (rotate 1)) (right.map (rotate 1))) := by
  have htorn : ∀ raw ∈ List.replicate 10 (4095 : UInt16) ++ List.replicate 10 0,
      raw = 4095 ∨ raw = 0 := by
    intro raw hraw
    rcases List.mem_append.mp hraw with h | h
    · exact Or.inl (List.eq_of_mem_replicate h)
    · exact Or.inr (List.eq_of_mem_replicate h)
  have hsteady : ∀ raw ∈ List.replicate 20 (1000 : UInt16), raw = 1000 := fun raw hraw =>
    List.eq_of_mem_replicate hraw
  refine ⟨⟨rfl, fun raw hraw => ?_⟩, sampled_replicate (by decide),
    ⟨4095, fun raw hraw => ?_⟩, ⟨1000, fun raw hraw => ?_⟩, fun l hl r hr => ?_, fun hfollows => ?_⟩
  · obtain rfl | rfl := htorn raw hraw <;> decide
  · obtain rfl | rfl := htorn raw hraw <;> decide
  · obtain rfl := hsteady raw hraw
    decide
  · obtain rfl := hsteady r hr
    obtain rfl | rfl := htorn l hl <;> decide
  · exact absurd hfollows.2.2 (by decide)

/-- Where the samples of one limit pass the zero, and those of the other do not, the averages
must not be half a turn apart. -/
theorem opposite_iff {left right : List UInt16} (hleft : Sampled left) (hright : Sampled right)
    {d : Nat} (hl : passes d left = n) (hr : passes d right = 0) :
    Opposite (spread left right) (spread (left.map (rotate d)) (right.map (rotate d))) ↔
      spread left right ≠ 2048 := by
  have hltotal := total_rotate hleft.counts d
  have hrtotal := total_rotate hright.counts d
  have hlaverage := (average_toNat hleft).2
  have hraverage := (average_toNat (sampled_rotate hright d)).2
  rw [hleft.length, hl, n] at hltotal
  rw [hright.length, hr, n] at hrtotal
  rw [Opposite, spread, spread, apart, apart, n]
  omega

end KartStack.CalMain
