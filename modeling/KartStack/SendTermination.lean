import KartStack.MicroSendTruth
import Mathlib.Data.Nat.Count

/-! # When the sender's loop ends

An iteration of the send loop either moves bytes or finds the UART full, and the
fifth full UART ends the loop.  What counts as full is a write that took less than
`len - total_sent` bytes, four bytes short of what is left: with exactly `len`
bytes sent, a write that takes nothing is neither progress nor an attempt.  Such
idle writes are all that keeps the loop running, so it ends within a bound that
depends on the length exactly if they are bounded.
-/
namespace KartStack.KmComs

/-- Every result lies between 0 and the number of bytes offered. -/
def WithinRequest (uart : Nat → Nat → Int) : Prop := ∀ k n, 0 ≤ uart k n ∧ uart k n ≤ n

variable (uart : Nat → Nat → Int)

/-- The bytes taken by the first `k` writes of a frame with `len` payload bytes, each
being offered the rest of the frame. -/
def taken (len : Nat) : Nat → Nat
  | 0 => 0
  | k + 1 => taken len k + (uart k (len + 4 - taken len k)).toNat

/-- The `k`-th write counts as an attempt. -/
def FullAt (len k : Nat) : Prop :=
  CountsAsFull len (taken uart len k) (uart k (len + 4 - taken uart len k))

instance (len : Nat) : DecidablePred (FullAt uart len) := fun _ =>
  inferInstanceAs (Decidable (CountsAsFull ..))

/-- The `k`-th write takes nothing when exactly the length of the payload is sent,
and fewer than five attempts were counted. -/
def IdleAt (len k : Nat) : Prop :=
  taken uart len k = len ∧ uart k 4 = 0 ∧ Nat.count (FullAt uart len) k < 5

instance (len : Nat) : DecidablePred (IdleAt uart len) := fun _ =>
  inferInstanceAs (Decidable (_ ∧ _ ∧ _))

/-- The `k`-th write is made. -/
def RunsAt (len k : Nat) : Prop :=
  taken uart len k < len + 4 ∧ Nat.count (FullAt uart len) k < 5

/-- The state of the send loop after `k` iterations. -/
def stateAt (frame : List UInt8) (len : UInt8) : Nat → SendState
  | 0 => .start
  | k + 1 =>
    sendStep frame len (stateAt frame len k) (uart k (requested len (stateAt frame len k)))

variable {uart}

theorem taken_mono {len : Nat} : Monotone (taken uart len) :=
  monotone_nat_of_le_succ fun _ => Nat.le_add_right ..

theorem RunsAt.earlier {len k i : Nat} (h : RunsAt uart len k) (hi : i ≤ k) :
    RunsAt uart len i :=
  ⟨Nat.lt_of_le_of_lt (taken_mono hi) h.1, Nat.lt_of_le_of_lt (Nat.count_monotone _ hi) h.2⟩

theorem IdleAt.runs {len k : Nat} (h : IdleAt uart len k) : RunsAt uart len k := by
  obtain ⟨htaken, -, hfull⟩ := h
  exact ⟨by omega, hfull⟩

/-- A write that takes nothing and does not count as an attempt is idle. -/
theorem idleAt_of_stuck {len k : Nat} (hruns : RunsAt uart len k)
    (hzero : uart k (len + 4 - taken uart len k) = 0) (hfull : ¬ FullAt uart len k) :
    IdleAt uart len k := by
  unfold FullAt CountsAsFull at hfull
  rw [hzero] at hfull
  have htaken : taken uart len k = len := by omega
  rw [htaken, Nat.add_sub_cancel_left] at hzero
  exact ⟨htaken, hzero, hruns.2⟩

/-- **The measure.**  Each iteration moves a byte, counts as an attempt or is idle. -/
theorem le_taken_add_counts (h : WithinRequest uart) {len k : Nat}
    (hruns : ∀ i < k, RunsAt uart len i) :
    k ≤ taken uart len k + Nat.count (FullAt uart len) k + Nat.count (IdleAt uart len) k := by
  induction k with
  | zero => exact Nat.zero_le _
  | succ k ih =>
    have hbefore := ih fun i hi => hruns i (Nat.lt_succ_of_lt hi)
    have hk := hruns k (Nat.lt_succ_self k)
    have hpos := (h k (len + 4 - taken uart len k)).1
    rw [taken, Nat.count_succ, Nat.count_succ]
    by_cases hfull : FullAt uart len k
    · rw [if_pos hfull]
      omega
    · by_cases hzero : uart k (len + 4 - taken uart len k) = 0
      · rw [if_pos (idleAt_of_stuck hk hzero hfull)]
        omega
      · omega

/-! ## The loop -/

/-- As long as the loop runs, the total is the number of bytes taken and the attempts
are the writes that count as such. -/
theorem stateAt_eq (h : WithinRequest uart) {frame : List UInt8} {len : UInt8}
    (hframe : frame.length = len.toNat + 4) {k : Nat} (hruns : ∀ i < k, RunsAt uart len.toNat i) :
    (stateAt uart frame len k).totalSent = taken uart len.toNat k ∧
      (stateAt uart frame len k).attempts = Nat.count (FullAt uart len.toNat) k := by
  induction k with
  | zero => exact ⟨rfl, rfl⟩
  | succ k ih =>
    obtain ⟨htotal, hatt⟩ := ih fun i hi => hruns i (Nat.lt_succ_of_lt hi)
    obtain ⟨htaken, hfull⟩ := hruns k (Nat.lt_succ_self k)
    have hsend : sending len (stateAt uart frame len k) = true :=
      sending_iff.mpr ⟨htotal ▸ htaken, hatt ▸ hfull⟩
    have hreq : requested len (stateAt uart frame len k) =
        len.toNat + 4 - taken uart len.toNat k := by
      rw [requested_eq (htotal ▸ htaken), htotal]
    obtain ⟨hpos, hle⟩ := h k (len.toNat + 4 - taken uart len.toNat k)
    have hlen := len.toNat_lt
    rw [stateAt, hreq, sendStep_eq hframe hsend (by omega) (by rw [hreq]; exact hle)]
    refine ⟨?_, ?_⟩
    · show u32 ((stateAt uart frame len k).totalSent + _) = _
      rw [taken, u32, htotal]
      omega
    · rw [Nat.count_succ, hatt, htotal]
      rfl

/-- The loop is still running after the first `k` iterations exactly if each of these
writes and the next is made. -/
theorem sending_stateAt (h : WithinRequest uart) {frame : List UInt8} {len : UInt8}
    (hframe : frame.length = len.toNat + 4) {k : Nat}
    (hruns : ∀ i < k, RunsAt uart len.toNat i) :
    sending len (stateAt uart frame len k) = true ↔ RunsAt uart len.toNat k := by
  obtain ⟨htotal, hatt⟩ := stateAt_eq h hframe hruns
  rw [sending_iff, htotal, hatt, RunsAt]

/-- The loop outlasts `fuel` iterations exactly if the writes up to there are made. -/
theorem sendLoop_eq_none (h : WithinRequest uart) {frame : List UInt8} {len : UInt8}
    (hframe : frame.length = len.toNat + 4) (fuel : Nat) {k : Nat}
    (hruns : ∀ i < k, RunsAt uart len.toNat i) :
    sendLoop uart frame len fuel k (stateAt uart frame len k) = none ↔
      ∀ i < k + fuel, RunsAt uart len.toNat i := by
  induction fuel generalizing k with
  | zero => simpa [sendLoop] using hruns
  | succ fuel ih =>
    have hsend := sending_stateAt h hframe hruns
    rw [sendLoop]
    by_cases hk : RunsAt uart len.toNat k
    · rw [if_pos (hsend.mpr hk)]
      have hnext : ∀ i < k + 1, RunsAt uart len.toNat i := fun i hi =>
        (Nat.lt_succ_iff_lt_or_eq.mp hi).elim (hruns i) fun heq => heq ▸ hk
      have hrest := ih hnext
      rw [stateAt] at hrest
      rw [hrest, Nat.add_right_comm, Nat.add_assoc]
    · rw [if_neg fun hs => hk (hsend.mp hs)]
      refine iff_of_false (by simp) fun hall => hk (hall k (by omega))

/-- A call is still in the loop exactly if all the writes so far are made. -/
theorem sendMsg_running_iff (h : WithinRequest uart) (fuel : Nat) (m : Message) :
    sendMsg uart fuel m.type m.payload (UInt8.ofNat m.payload.length) = .running ↔
      ∀ i < fuel, RunsAt uart m.payload.length i := by
  have hlen := Message.len_toNat m
  have hshort := m.short
  have hloop := sendLoop_eq_none h (sendFrame_length m) fuel (k := 0)
    fun i hi => absurd hi (Nat.not_lt_zero i)
  change sendLoop uart _ _ fuel 0 ⟨0, 0, []⟩ = none ↔ _ at hloop
  rw [hlen, Nat.zero_add] at hloop
  rw [← hloop, sendMsg, hlen, if_neg (by omega), if_neg (by omega)]
  cases sendLoop uart (sendFrame m.type m.payload (UInt8.ofNat m.payload.length))
      (UInt8.ofNat m.payload.length) fuel 0 ⟨0, 0, []⟩ with
  | none => exact iff_of_true rfl rfl
  | some st =>
    refine iff_of_false ?_ (by simp)
    dsimp only
    split <;> simp

/-! ## The bound -/

/-- With at most `idle` idle writes, the call is over after `len + idle + 8`
iterations. -/
theorem sendMsg_ne_running (h : WithinRequest uart) (m : Message) {idle : Nat}
    (hidle : ∀ k, Nat.count (IdleAt uart m.payload.length) k ≤ idle) :
    sendMsg uart (m.payload.length + idle + 9) m.type m.payload
      (UInt8.ofNat m.payload.length) ≠ .running := by
  intro hrunning
  have hruns := (sendMsg_running_iff h _ m).mp hrunning
  obtain ⟨htaken, hfull⟩ := hruns (m.payload.length + idle + 8) (by omega)
  have hmeasure := le_taken_add_counts h (k := m.payload.length + idle + 8)
    fun i hi => hruns i (by omega)
  have := hidle (m.payload.length + idle + 8)
  omega

/-- A call that ends within `fuel` iterations has at most `fuel` idle writes. -/
theorem count_idleAt_le (h : WithinRequest uart) {m : Message} {fuel : Nat}
    (hstop : sendMsg uart fuel m.type m.payload (UInt8.ofNat m.payload.length) ≠ .running)
    (k : Nat) : Nat.count (IdleAt uart m.payload.length) k ≤ fuel := by
  rw [Nat.count_eq_card_filter_range]
  refine le_of_le_of_eq (Finset.card_le_card fun i hi => ?_) (Finset.card_range fuel)
  obtain ⟨-, hidle⟩ := Finset.mem_filter.mp hi
  refine Finset.mem_range.mpr (Nat.lt_of_not_le fun hle => hstop ?_)
  exact (sendMsg_running_iff h fuel m).mpr fun j hj => hidle.runs.earlier (by omega)

/-- **The calls of a set of runs end within a common number of iterations**, whatever
is sent, exactly if their idle writes are bounded. -/
theorem sendMsg_terminates_iff {len : Nat} (hlen : len ≤ 251) {runs : Set (Nat → Nat → Int)}
    (hruns : ∀ uart ∈ runs, WithinRequest uart) :
    (∃ bound, ∀ (m : Message), m.payload.length = len → ∀ uart ∈ runs,
      sendMsg uart bound m.type m.payload (UInt8.ofNat m.payload.length) ≠ .running) ↔
    ∃ idle, ∀ uart ∈ runs, ∀ k, Nat.count (IdleAt uart len) k ≤ idle := by
  constructor
  · rintro ⟨bound, hbound⟩
    have hm : (List.replicate len (0 : UInt8)).length = len := List.length_replicate ..
    refine ⟨bound, fun uart huart k => ?_⟩
    have hstop := hbound ⟨⟨0, List.replicate len 0⟩, by rw [hm]; exact hlen⟩ hm uart huart
    have hcount := count_idleAt_le (hruns uart huart) hstop k
    rwa [hm] at hcount
  · rintro ⟨idle, hidle⟩
    refine ⟨len + idle + 9, fun m hm uart huart => ?_⟩
    subst hm
    exact sendMsg_ne_running (hruns uart huart) m (hidle uart huart)

/-- A UART that takes all it is offered. -/
theorem sendMsg_terminates_acceptsAll :
    (∃ bound, ∀ (m : Message), m.payload.length = 3 → ∀ uart ∈ {uart | AcceptsAll uart},
      sendMsg uart bound m.type m.payload (UInt8.ofNat m.payload.length) ≠ .running) ↔
    ∃ idle, ∀ uart ∈ {uart | AcceptsAll uart}, ∀ k, Nat.count (IdleAt uart 3) k ≤ idle :=
  sendMsg_terminates_iff (by decide) fun uart huart k n => by
    have h : uart k n = n := huart k n
    omega

/-- The first write of a frame with one payload byte takes one byte, and no other write
takes anything: the call never ends. -/
theorem sendMsg_never_ends : ¬ ∀ len ≤ 251, ∃ bound, ∀ (m : Message), m.payload.length = len →
    ∀ uart, WithinRequest uart →
      sendMsg uart bound m.type m.payload (UInt8.ofNat m.payload.length) ≠ .running := by
  intro hall
  obtain ⟨bound, hbound⟩ := hall 1 (by decide)
  let uart : Nat → Nat → Int := fun k n => if k = 0 then min 1 n else 0
  have hwithin : WithinRequest uart := fun k n => by
    show 0 ≤ (if k = 0 then min 1 (n : Int) else 0) ∧ (if k = 0 then min 1 (n : Int) else 0) ≤ n
    split <;> omega
  have hstate : ∀ k, taken uart 1 (k + 1) = 1 ∧ Nat.count (FullAt uart 1) (k + 1) = 0 := by
    intro k
    induction k with
    | zero => decide
    | succ k ih =>
      obtain ⟨htaken, hcount⟩ := ih
      have hfull : ¬ FullAt uart 1 (k + 1) := by
        unfold FullAt
        rw [htaken]
        show ¬ CountsAsFull 1 1 0
        decide
      rw [taken, htaken, Nat.count_succ, hcount, if_neg hfull]
      exact ⟨rfl, rfl⟩
  refine hbound ⟨⟨1, [7]⟩, by decide⟩ rfl uart hwithin ?_
  refine (sendMsg_running_iff hwithin bound _).mpr fun i _ => ?_
  cases i with
  | zero => exact ⟨by decide, by decide⟩
  | succ k =>
    obtain ⟨htaken, hcount⟩ := hstate k
    refine ⟨?_, ?_⟩
    · show taken uart 1 (k + 1) < _
      rw [htaken]
      decide
    · show Nat.count (FullAt uart 1) (k + 1) < 5
      rw [hcount]
      decide

end KartStack.KmComs
