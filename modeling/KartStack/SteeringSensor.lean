import KartStack.ActuatorOutput

/-! # Whether the steering sensor is connected

`KM_SDIR_Begin` installs the I2C driver and probes the sensor, and sets its flag
`connected` to what the probe found.  But `KM_GPIO_Init` has installed the driver
before, so the installation fails and the sensor is never probed; and a read that
succeeds does not set the flag.  Only the probe of a bus reset does, after
`max_error_count` reads in a row have failed.

So the flag says 0 after a successful read unless the last probe, if there was any,
found the sensor (`follows_iff`).  That it says 0 when the sensor is gone is right
in every run.
-/
namespace KartStack.KmSdir
open KmAct

/-- `sensor_struct`. -/
structure SensorStruct extends Sensor where
  connected : UInt8
  lastReadTime : UInt64

/-- The sensor and the bus: whether the I2C driver is installed. -/
structure Bus where
  installed : Bool
  sensor : SensorStruct

/-- `i2c_driver_install`, which fails if the driver is installed, and whether it
succeeded. -/
def driverInstall (installed : Bool) : Bool × Bool := (true, !installed)

/-- `KM_GPIO_Init`, of which only the driver is seen here: `configured` is whether all
that comes before its installation succeeds. -/
def gpioInit (installed configured : Bool) : Bool :=
  if configured then (driverInstall installed).1 else installed

/-- `KM_SDIR_Init`. -/
def init (maxErrorCount : UInt8) : SensorStruct :=
  { toSensor := .init maxErrorCount, connected := 0, lastReadTime := 0 }

/-- The result of `KM_SDIR_ReadRegisters`. -/
def readRegisters (succeeds : Bool) : UInt8 := if succeeds then 1 else 0

/-- `KM_SDIR_Begin`, given whether its probe would succeed; the result is returned. -/
def begin (bus : Bus) (probe : Bool) : Bus × UInt8 :=
  match driverInstall bus.installed with
  | (installed, false) => ({ bus with installed := installed }, 0)
  | (installed, true) =>
    ({ installed := installed, sensor := { bus.sensor with connected := readRegisters probe } },
      readRegisters probe)

/-- `KM_SDIR_ResetI2C`: the driver is deleted and installed again, and the sensor is
probed. -/
def resetI2C (bus : Bus) (probe : Bool) : Bus × UInt8 := begin { bus with installed := false } probe

/-- What a call of `KM_SDIR_ReadRaw` meets: what the two angle registers hold, or `none`
where the bus fails, whether a probe would succeed, and the time. -/
structure Read where
  registers : Option UInt16
  probe : Bool
  now : UInt64

/-- `KM_SDIR_ReadRaw`. -/
def readRaw (bus : Bus) (read : Read) : Bus × UInt16 :=
  match read.registers with
  | some raw =>
    ({ bus with
        sensor := { bus.sensor with
          lastRawValue := raw, lastReadTime := read.now, errorCount := 0 } },
      raw)
  | none =>
    let bus := { bus with sensor.errorCount := bus.sensor.errorCount + 1 }
    if bus.sensor.errorCount ≥ bus.sensor.maxErrorCount then
      let bus := (resetI2C bus read.probe).1
      ({ bus with sensor.errorCount := 0 }, bus.sensor.lastRawValue)
    else (bus, bus.sensor.lastRawValue)

/-- `KM_SDIR_isConnected`. -/
def isConnected (sensor : SensorStruct) : Int8 :=
  if sensor.connected ≠ 0 ∧ sensor.errorCount < sensor.maxErrorCount then 1 else 0

/-- The calls of `system_init`: nothing is installed before them. -/
def systemInit (configured : Bool) (maxErrorCount : UInt8) (probe : Bool) : Bus :=
  (begin ⟨gpioInit false configured, init maxErrorCount⟩ probe).1

/-! ## Runs -/

/-- The bus, and how many reads in a row have failed since a read or a probe succeeded
last, which no function reads. -/
structure Watched where
  bus : Bus
  failures : Nat

/-- Whether a call of `KM_SDIR_ReadRaw` resets the bus. -/
def Resets (bus : Bus) (read : Read) : Prop :=
  read.registers = none ∧ bus.sensor.maxErrorCount ≤ bus.sensor.errorCount + 1

instance (bus : Bus) (read : Read) : Decidable (Resets bus read) :=
  inferInstanceAs (Decidable (_ ∧ _))

/-- The failures in a row after a call. -/
def failuresAfter (s : Watched) (read : Read) : Nat :=
  if read.registers ≠ none ∨ (Resets s.bus read ∧ read.probe = true) then 0 else s.failures + 1

/-- One call of `KM_SDIR_ReadRaw`. -/
def step (s : Watched) (read : Read) : Option Watched :=
  some ⟨(readRaw s.bus read).1, failuresAfter s read⟩

/-- After `system_init`. -/
def Watched.start (configured : Bool) (maxErrorCount : UInt8) (probe : Bool) : Watched :=
  ⟨systemInit configured maxErrorCount probe, 0⟩

/-- The flag follows the sensor: it is up after a successful read, with no error
counted, and down once `max_error_count` reads in a row have failed, and the probe
with them. -/
structure Follows (s : Watched) (read : Read) : Prop where
  up : read.registers ≠ none →
    isConnected (readRaw s.bus read).1.sensor = 1 ∧ (readRaw s.bus read).1.sensor.errorCount = 0
  down : s.bus.sensor.maxErrorCount.toNat ≤ failuresAfter s read →
    isConnected (readRaw s.bus read).1.sensor = 0

/-! ## What the probes found -/

/-- What the last probe found, if there was one, and how many reads have failed since the
bus was reset or a read succeeded: told from what the calls meet, not from what they
keep. -/
structure Probes where
  last : Option Bool
  failed : Nat

/-- The probe of `system_init`: there is none where the driver was installed before. -/
def Probes.start (configured probe : Bool) : Probes := ⟨if configured then none else some probe, 0⟩

/-- One read.  At `max_error_count` failures the bus is reset and probed. -/
def Probes.after (maxErrorCount : UInt8) (p : Probes) (read : Read) : Probes :=
  if read.registers ≠ none then { p with failed := 0 }
  else if maxErrorCount.toNat ≤ p.failed + 1 then ⟨some read.probe, 0⟩
  else { p with failed := p.failed + 1 }

/-- Whenever a read succeeds there has been a probe, and the last one found the sensor; and
the threshold is not 0. -/
def FoundBefore (maxErrorCount : UInt8) (p : Probes) (reads : List Read) : Prop :=
  ∀ before read after, reads = before ++ read :: after → read.registers ≠ none →
    (before.foldl (Probes.after maxErrorCount) p).last = some true ∧ maxErrorCount ≠ 0

/-! ## One call -/

/-- **What a call does to the sensor**: a success clears the error count, a failure
counts, and at the threshold the count starts again and the probe sets the flag. -/
theorem readRaw_sensor (bus : Bus) (read : Read) :
    (read.registers ≠ none ∧ (readRaw bus read).1.sensor.errorCount = 0 ∧
      (readRaw bus read).1.sensor.connected = bus.sensor.connected) ∨
    (Resets bus read ∧ (readRaw bus read).1.sensor.errorCount = 0 ∧
      (readRaw bus read).1.sensor.connected = readRegisters read.probe) ∨
    (read.registers = none ∧ ¬ Resets bus read ∧
      (readRaw bus read).1.sensor.errorCount = bus.sensor.errorCount + 1 ∧
      (readRaw bus read).1.sensor.connected = bus.sensor.connected) := by
  unfold readRaw
  cases hread : read.registers with
  | some raw => exact .inl ⟨by simp, rfl, rfl⟩
  | none =>
    right
    by_cases hreset : bus.sensor.maxErrorCount ≤ bus.sensor.errorCount + 1
    · left
      dsimp only
      rw [if_pos hreset]
      exact ⟨⟨hread, hreset⟩, rfl, rfl⟩
    · right
      dsimp only
      rw [if_neg hreset]
      exact ⟨rfl, fun h => hreset h.2, rfl, rfl⟩

/-- No call changes the threshold. -/
theorem readRaw_maxErrorCount (bus : Bus) (read : Read) :
    (readRaw bus read).1.sensor.maxErrorCount = bus.sensor.maxErrorCount := by
  unfold readRaw
  cases read.registers with
  | some raw => rfl
  | none =>
    dsimp only
    split <;> rfl

/-- The flag and the errors are not read by the control task: what it sees of the
sensor is `Sensor.readRaw`. -/
theorem readRaw_toSensor (bus : Bus) (read : Read) :
    ((readRaw bus read).1.sensor.toSensor, (readRaw bus read).2) =
      bus.sensor.toSensor.readRaw read.registers := by
  unfold readRaw Sensor.readRaw
  cases read.registers with
  | some raw => rfl
  | none =>
    dsimp only
    split <;> rfl

/-- The errors counted are below the threshold; while the flag is up, they are the
failures in a row. -/
structure Counted (s : Watched) : Prop where
  below : s.bus.sensor.maxErrorCount ≠ 0 → s.bus.sensor.errorCount < s.bus.sensor.maxErrorCount
  failures : s.bus.sensor.maxErrorCount ≠ 0 → s.bus.sensor.connected ≠ 0 →
    s.failures = s.bus.sensor.errorCount.toNat

theorem start_counted (configured : Bool) (maxErrorCount : UInt8) (probe : Bool) :
    Counted (.start configured maxErrorCount probe) := by
  have hbelow : ∀ connected : UInt8, maxErrorCount ≠ 0 →
      ({ init maxErrorCount with connected := connected } : SensorStruct).errorCount <
        maxErrorCount := fun _ hmax => UInt8.pos_iff_ne_zero.mpr hmax
  cases configured with
  | true => exact ⟨hbelow 0, fun _ _ => rfl⟩
  | false => exact ⟨hbelow (readRegisters probe), fun _ _ => rfl⟩

/-- Below the threshold a count does not wrap. -/
theorem errorCount_succ {bus : Bus} {read : Read} (hfail : read.registers = none)
    (h : ¬ Resets bus read) :
    bus.sensor.errorCount + 1 < bus.sensor.maxErrorCount :=
  UInt8.not_le.mp fun hle => h ⟨hfail, hle⟩

/-- A call keeps the count. -/
theorem step_counted {s s' : Watched} {read : Read} (h : Counted s)
    (hstep : step s read = some s') : Counted s' := by
  obtain rfl := Option.some.inj hstep
  have hmax := readRaw_maxErrorCount s.bus read
  rcases readRaw_sensor s.bus read with ⟨hread, herr, -⟩ | ⟨hreset, herr, hconn⟩ |
    ⟨hfail, hno, herr, hconn⟩
  · refine ⟨fun h0 => ?_, fun _ _ => ?_⟩
    · dsimp only at h0 ⊢
      rw [herr]
      exact UInt8.pos_iff_ne_zero.mpr h0
    · show failuresAfter s read = _
      rw [failuresAfter, if_pos (Or.inl hread), herr]
      rfl
  · refine ⟨fun h0 => ?_, fun _ hup => ?_⟩
    · dsimp only at h0 ⊢
      rw [herr]
      exact UInt8.pos_iff_ne_zero.mpr h0
    · have hprobe : read.probe = true := by
        by_contra hne
        dsimp only at hup
        rw [hconn, readRegisters, if_neg hne] at hup
        exact hup rfl
      show failuresAfter s read = _
      rw [failuresAfter, if_pos (Or.inr ⟨hreset, hprobe⟩), herr]
      rfl
  · have hlt := errorCount_succ hfail hno
    refine ⟨fun _ => ?_, fun h0 hup => ?_⟩
    · dsimp only
      rw [herr, hmax]
      exact hlt
    · dsimp only at h0 hup
      rw [hmax] at h0
      rw [hconn] at hup
      have hbefore := h.failures h0 hup
      have hbelow := h.below h0
      show failuresAfter s read = _
      rw [failuresAfter, if_neg, herr, hbefore]
      · rw [UInt8.toNat_add]
        have := UInt8.lt_iff_toNat_lt.mp hbelow
        have := s.bus.sensor.maxErrorCount.toNat_lt
        have h1 : (1 : UInt8).toNat = 1 := rfl
        omega
      · rintro (hne | ⟨hreset, -⟩)
        · exact hne hfail
        · exact hno hreset

/-- **The flag follows the sensor in one call** exactly if a successful read finds it
up, and a threshold that is not 0. -/
theorem follows_iff_flag {s : Watched} (h : Counted s) (read : Read) :
    Follows s read ↔ (read.registers ≠ none →
      s.bus.sensor.connected ≠ 0 ∧ s.bus.sensor.maxErrorCount ≠ 0) := by
  have hmax := readRaw_maxErrorCount s.bus read
  constructor
  · intro hf hread
    obtain ⟨hup, herr⟩ := hf.up hread
    rcases readRaw_sensor s.bus read with ⟨-, -, hconn⟩ | ⟨⟨hnone, -⟩, -⟩ | ⟨hnone, -⟩
    · unfold isConnected at hup
      rw [hconn, herr, hmax] at hup
      by_cases hboth : s.bus.sensor.connected ≠ 0 ∧ 0 < s.bus.sensor.maxErrorCount
      · exact ⟨hboth.1, UInt8.pos_iff_ne_zero.mp hboth.2⟩
      · rw [if_neg hboth] at hup
        cases hup
    · exact absurd hnone hread
    · exact absurd hnone hread
  · intro hp
    refine ⟨fun hread => ?_, fun hfailures => ?_⟩
    · obtain ⟨hconn, h0⟩ := hp hread
      rcases readRaw_sensor s.bus read with ⟨-, herr, hsame⟩ | ⟨⟨hnone, -⟩, -⟩ | ⟨hnone, -⟩
      · refine ⟨?_, herr⟩
        rw [isConnected, hsame, herr, hmax, if_pos ⟨hconn, UInt8.pos_iff_ne_zero.mpr h0⟩]
      · exact absurd hnone hread
      · exact absurd hnone hread
    · -- with the flag up the errors are the failures, and below the threshold
      obtain ⟨hbelow, hcount⟩ := step_counted h (rfl : step s read = some _)
      rw [isConnected, if_neg]
      rintro ⟨hup, hlt⟩
      have h0 : (readRaw s.bus read).1.sensor.maxErrorCount ≠ 0 := fun h0 => by
        rw [h0] at hlt
        exact UInt8.not_lt_zero hlt
      have hequal := hcount h0 hup
      have hlt' := UInt8.lt_iff_toNat_lt.mp hlt
      rw [hmax] at hlt'
      dsimp only at hequal
      omega

/-! ## Every call -/

/-- The flag is what the last probe found, and the errors are the failures since. -/
structure Records (p : Probes) (s : Watched) : Prop where
  flag : s.bus.sensor.connected ≠ 0 ↔ p.last = some true
  errors : s.bus.sensor.maxErrorCount ≠ 0 → s.bus.sensor.errorCount.toNat = p.failed

theorem readRegisters_ne_zero_iff (probe : Bool) : readRegisters probe ≠ 0 ↔ probe = true := by
  cases probe <;> decide

theorem start_records (configured : Bool) (maxErrorCount : UInt8) (probe : Bool) :
    Records (.start configured probe) (.start configured maxErrorCount probe) := by
  refine ⟨?_, fun _ => by cases configured <;> rfl⟩
  cases configured with
  | true => exact iff_of_false (fun h => h rfl) (fun h => by cases h)
  | false => exact (readRegisters_ne_zero_iff probe).trans (by simp [Probes.start])

/-- The bus is reset where the failures say so. -/
theorem Records.resets_iff {p : Probes} {s : Watched} (h : Records p s) (hc : Counted s)
    {read : Read} (hfail : read.registers = none) :
    Resets s.bus read ↔ s.bus.sensor.maxErrorCount.toNat ≤ p.failed + 1 := by
  rw [Resets, and_iff_right hfail, UInt8.le_iff_toNat_le]
  by_cases h0 : s.bus.sensor.maxErrorCount = 0
  · rw [h0]
    exact iff_of_true (Nat.zero_le _) (Nat.zero_le _)
  · -- below the threshold the count does not wrap
    have hlt := UInt8.lt_iff_toNat_lt.mp (hc.below h0)
    have hmax := s.bus.sensor.maxErrorCount.toNat_lt
    have hone : (1 : UInt8).toNat = 1 := rfl
    rw [UInt8.toNat_add, hone, h.errors h0, Nat.mod_eq_of_lt]
    rw [← h.errors h0]
    omega

/-- A call keeps the record. -/
theorem Records.step {p : Probes} {s s' : Watched} (h : Records p s) (hc : Counted s) {read : Read}
    (hstep : step s read = some s') :
    Records (p.after s.bus.sensor.maxErrorCount read) s' := by
  obtain rfl := Option.some.inj hstep
  have hmax := readRaw_maxErrorCount s.bus read
  rcases readRaw_sensor s.bus read with ⟨hread, herr, hconn⟩ | ⟨hreset, herr, hconn⟩ |
    ⟨hfail, hno, herr, hconn⟩
  · rw [Probes.after, if_pos hread]
    refine ⟨?_, fun _ => ?_⟩
    · dsimp only
      rw [hconn]
      exact h.flag
    · dsimp only
      rw [herr]
      rfl
  · rw [Probes.after, if_neg (not_not.mpr hreset.1), if_pos ((h.resets_iff hc hreset.1).mp hreset)]
    refine ⟨?_, fun _ => ?_⟩
    · dsimp only
      rw [hconn, readRegisters_ne_zero_iff, Option.some_inj]
    · dsimp only
      rw [herr]
      rfl
  · rw [Probes.after, if_neg (not_not.mpr hfail), if_neg (mt (h.resets_iff hc hfail).mpr hno)]
    refine ⟨?_, fun h0 => ?_⟩
    · dsimp only
      rw [hconn]
      exact h.flag
    · dsimp only at h0 ⊢
      rw [hmax] at h0
      have hlt := UInt8.lt_iff_toNat_lt.mp (errorCount_succ hfail hno)
      have hbelow := UInt8.lt_iff_toNat_lt.mp (hc.below h0)
      have hsize := s.bus.sensor.maxErrorCount.toNat_lt
      have hone : (1 : UInt8).toNat = 1 := rfl
      rw [herr, UInt8.toNat_add, hone, ← h.errors h0]
      exact Nat.mod_eq_of_lt (by omega)

theorem foundBefore_cons (maxErrorCount : UInt8) (p : Probes) (read : Read) (reads : List Read) :
    FoundBefore maxErrorCount p (read :: reads) ↔
      (read.registers ≠ none → p.last = some true ∧ maxErrorCount ≠ 0) ∧
        FoundBefore maxErrorCount (p.after maxErrorCount read) reads := by
  constructor
  · intro h
    refine ⟨h [] read reads rfl, fun before r after hreads => ?_⟩
    exact h (read :: before) r after (congrArg (read :: ·) hreads)
  · rintro ⟨hfirst, hrest⟩ before r after hreads
    cases before with
    | nil =>
      obtain ⟨rfl, -⟩ := List.cons.inj hreads
      exact hfirst
    | cons read' before =>
      obtain ⟨rfl, htail⟩ := List.cons.inj hreads
      exact hrest before r after htail

/-- From any state that the probes are known of. -/
theorem along_follows_iff {p : Probes} {s : Watched} (hc : Counted s) (h : Records p s)
    (reads : List Read) :
    Transitions.Along step Follows s reads ↔
      FoundBefore s.bus.sensor.maxErrorCount p reads := by
  induction reads generalizing p s with
  | nil => exact iff_of_true trivial fun before r after hreads => by simp at hreads
  | cons read reads ih =>
    have hmax : (readRaw s.bus read).1.sensor.maxErrorCount = s.bus.sensor.maxErrorCount :=
      readRaw_maxErrorCount s.bus read
    have hrest := ih (step_counted hc (rfl : step s read = some _)) (h.step hc rfl)
    rw [hmax] at hrest
    rw [foundBefore_cons, ← hrest, Transitions.Along, follows_iff_flag hc, h.flag]
    exact and_congr_right fun _ => ⟨fun hall => hall _ rfl, fun hall s' hs' =>
      Option.some.inj hs' ▸ hall⟩

/-- **The flag follows the sensor along a run exactly if whenever a read succeeds the last
probe, by `KM_SDIR_Begin` or by a reset, has found it**, with a threshold that is not 0. -/
theorem follows_iff (configured : Bool) (maxErrorCount : UInt8) (probe : Bool)
    (reads : List Read) :
    Transitions.Along step Follows (.start configured maxErrorCount probe) reads ↔
      FoundBefore maxErrorCount (.start configured probe) reads := by
  have hmax : (Watched.start configured maxErrorCount probe).bus.sensor.maxErrorCount =
      maxErrorCount := by
    cases configured <;> rfl
  have hiff := along_follows_iff (start_counted configured maxErrorCount probe)
    (start_records configured maxErrorCount probe) reads
  rwa [hmax] at hiff

/-- **The sensor answers, and is reported missing.** -/
theorem firstRead_not_follows : ¬ ∀ (configured : Bool) (maxErrorCount : UInt8) (probe : Bool)
    (reads : List Read),
    Transitions.Along step Follows (.start configured maxErrorCount probe) reads := by
  intro hall
  obtain ⟨hfollows, -⟩ := hall true 10 true [⟨some 2048, true, 50000⟩]
  obtain ⟨hup, -⟩ := hfollows.up (by simp)
  exact absurd hup (by decide)

end KartStack.KmSdir
