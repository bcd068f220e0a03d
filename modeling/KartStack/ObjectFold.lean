import KartStack.MicroRuns
import KartStack.ObjectTable
import KartStack.Transitions

/-! # The object table as a fold

What a valid frame says is a list of values, one for each object of its type
(`values`, `ownObjects`), or nothing where it cannot be decoded.  The object table
after any run of the receiver's interface is the table before, updated by the
accepted frames one after the other (`table_eq_fold`): the walk over the buffer,
the reset on overflow and the semaphore decide which frames are accepted, and
nothing else reaches the table.
-/
namespace KartStack.KmComs

/-! ## What a frame says -/

/-- The objects a message type is about. -/
def ownObjects (type : UInt8) : List Object :=
  if type = orinTargThrottle then [.targetThrottle]
  else if type = orinTargBraking then [.targetBraking]
  else if type = orinTargSteering then [.targetSteering]
  else if type = orinMision then [.misionOrin]
  else if type = orinMachineState then [.machineStateOrin]
  else if type = orinHeartbeat then []
  else if type = orinShutdown then [.shutdownOrin]
  else if type = orinComplete then
    [.targetThrottle, .targetBraking, .targetSteering, .misionOrin, .machineStateOrin,
      .shutdownOrin]
  else []

/-- The values a frame carries for them: nothing for an unknown type, for a payload
that does not decode, and for an empty payload where a byte is expected. -/
def values (pb : PbDecode) (f : Frame UInt8) : Option (List CFloat) :=
  if f.type = orinTargThrottle then (pb.targThrottle f.payload).map fun v => [v]
  else if f.type = orinTargBraking then (pb.targBraking f.payload).map fun v => [v]
  else if f.type = orinTargSteering then (pb.targSteering f.payload).map fun v => [v]
  else if f.type = orinMision then f.payload.head?.map fun b => [(b.toNat : CFloat)]
  else if f.type = orinMachineState then f.payload.head?.map fun b => [(b.toNat : CFloat)]
  else if f.type = orinHeartbeat then none
  else if f.type = orinShutdown then f.payload.head?.map fun b => [if b ≠ 0 then 1 else 0]
  else if f.type = orinComplete then
    (pb.orinComplete f.payload).map fun m =>
      [m.throttle, m.braking, m.steeringRad, (m.mission.toNat : CFloat),
        (m.machineState.toNat : CFloat), if m.shutdown then 1 else 0]
  else none

/-- Objects set one after the other. -/
def setAll (objects : Objects) : List Object → List CFloat → Objects
  | o :: os, v :: vs => setAll (objects.setObjectValue o v) os vs
  | _, _ => objects

/-- Objects set to what a frame carries for them, if it does. -/
def setCarried (objects : Objects) (os : List Object) : Option (List CFloat) → Objects
  | some vs => setAll objects os vs
  | none => objects

/-- What a frame does to the table. -/
def update (pb : PbDecode) (objects : Objects) (f : Frame UInt8) : Objects :=
  setCarried objects (ownObjects f.type) (values pb f)

theorem setAll_of_notMem {o : Object} {os : List Object} (h : o ∉ os) (objects : Objects)
    (vs : List CFloat) : (setAll objects os vs).getObjectValue o = objects.getObjectValue o := by
  induction os generalizing objects vs with
  | nil => rfl
  | cons p os ih =>
    rw [List.mem_cons, not_or] at h
    obtain ⟨hne, hos⟩ := h
    cases vs with
    | nil => rfl
    | cons v vs =>
      rw [setAll, ih hos]
      exact objects.get_set_of_ne hne v

/-- Distinct objects end up with the values they are given. -/
theorem setAll_map {os : List Object} (hos : os.Nodup) {vs : List CFloat}
    (hlen : vs.length = os.length) (objects : Objects) :
    os.map (setAll objects os vs).getObjectValue = vs := by
  induction os generalizing objects vs with
  | nil => exact (List.length_eq_zero_iff.mp hlen).symm
  | cons o os ih =>
    obtain ⟨ho, hos⟩ := List.nodup_cons.mp hos
    cases vs with
    | nil => cases hlen
    | cons v vs =>
      rw [setAll, List.map_cons, setAll_of_notMem ho, Objects.get_set_self,
        ih hos (Nat.succ.inj hlen)]

theorem ownObjects_nodup (type : UInt8) : (ownObjects type).Nodup := by
  unfold ownObjects
  repeat' split
  all_goals decide

/-- A frame carries one value for each object. -/
theorem values_length {pb : PbDecode} {f : Frame UInt8} {vs : List CFloat}
    (h : values pb f = some vs) : vs.length = (ownObjects f.type).length := by
  unfold values at h
  unfold ownObjects
  repeat' split at h
  all_goals first
    | cases h
    | (obtain ⟨v, -, rfl⟩ := Option.map_eq_some_iff.mp h
       simp only [*, if_true]
       rfl)

/-- **A frame changes its own objects only**, all of them or none. -/
theorem update_own (pb : PbDecode) (objects : Objects) (f : Frame UInt8) :
    (∀ o, o ∉ ownObjects f.type →
      (update pb objects f).getObjectValue o = objects.getObjectValue o) ∧
    (values pb f = none → update pb objects f = objects) ∧
    ∀ vs, values pb f = some vs →
      (ownObjects f.type).map (update pb objects f).getObjectValue = vs := by
  refine ⟨?_, ?_, ?_⟩
  · intro o ho
    unfold update
    cases values pb f with
    | none => rfl
    | some vs => exact setAll_of_notMem ho objects vs
  · intro h
    rw [update, h]
    rfl
  · intro vs h
    rw [update, h]
    exact setAll_map (ownObjects_nodup f.type) (values_length h) objects

/-- A decoded target, as an update of one object. -/
theorem setDecoded_eq (objects : Objects) (object : Object) (decoded : Option CFloat) :
    setDecoded objects object decoded = setCarried objects [object] (decoded.map fun v => [v]) := by
  cases decoded <;> rfl

/-- A payload byte, as an update of one object. -/
theorem setByte_eq (objects : Objects) (object : Object) {msg : Msg}
    (hlen : msg.payload.length = msg.len.toNat) (value : UInt8 → CFloat) :
    setByte objects object msg value =
      setCarried objects [object] (msg.payload.head?.map fun b => [value b]) := by
  unfold setByte
  have hge : msg.len ≥ 1 ↔ 1 ≤ msg.payload.length := by
    rw [hlen]
    exact UInt8.le_iff_toNat_le
  cases hp : msg.payload with
  | nil =>
    rw [hp] at hge
    simp [hge, setCarried]
  | cons b p =>
    rw [hp] at hge
    simp [hge, setCarried, setAll]

/-- `KM_COMS_ProccessPayload` does what the frame says, if the length byte is the
length of the payload. -/
theorem proccessPayload_eq_update (pb : PbDecode) (objects : Objects) {msg : Msg}
    (hlen : msg.payload.length = msg.len.toNat) :
    proccessPayload pb objects msg = update pb objects msg.frame := by
  have hstream : msg.payload.take msg.len.toNat = msg.payload := by
    rw [← hlen, List.take_length]
  show proccessPayload pb objects msg = update pb objects ⟨msg.type, msg.payload⟩
  simp only [proccessPayload, update, values, ownObjects, hstream]
  -- the three chains of tests on the type are one
  by_cases hthrottle : msg.type = orinTargThrottle
  · rw [if_pos hthrottle, if_pos hthrottle, if_pos hthrottle]
    exact setDecoded_eq ..
  rw [if_neg hthrottle, if_neg hthrottle, if_neg hthrottle]
  by_cases hbraking : msg.type = orinTargBraking
  · rw [if_pos hbraking, if_pos hbraking, if_pos hbraking]
    exact setDecoded_eq ..
  rw [if_neg hbraking, if_neg hbraking, if_neg hbraking]
  by_cases hsteering : msg.type = orinTargSteering
  · rw [if_pos hsteering, if_pos hsteering, if_pos hsteering]
    exact setDecoded_eq ..
  rw [if_neg hsteering, if_neg hsteering, if_neg hsteering]
  by_cases hmision : msg.type = orinMision
  · rw [if_pos hmision, if_pos hmision, if_pos hmision]
    exact setByte_eq _ _ hlen _
  rw [if_neg hmision, if_neg hmision, if_neg hmision]
  by_cases hmachine : msg.type = orinMachineState
  · rw [if_pos hmachine, if_pos hmachine, if_pos hmachine]
    exact setByte_eq _ _ hlen _
  rw [if_neg hmachine, if_neg hmachine, if_neg hmachine]
  by_cases hheartbeat : msg.type = orinHeartbeat
  · rw [if_pos hheartbeat, if_pos hheartbeat, if_pos hheartbeat]
    exact rfl
  rw [if_neg hheartbeat, if_neg hheartbeat, if_neg hheartbeat]
  by_cases hshutdown : msg.type = orinShutdown
  · rw [if_pos hshutdown, if_pos hshutdown, if_pos hshutdown]
    exact setByte_eq _ _ hlen _
  rw [if_neg hshutdown, if_neg hshutdown, if_neg hshutdown]
  by_cases hcomplete : msg.type = orinComplete
  · rw [if_pos hcomplete, if_pos hcomplete, if_pos hcomplete]
    cases pb.orinComplete msg.payload <;> rfl
  · rw [if_neg hcomplete, if_neg hcomplete, if_neg hcomplete]
    rfl

/-- The messages of packets that were read off a buffer update the table as their
frames do. -/
theorem foldl_proccessPayload (pb : PbDecode) {segs : List (Segment UInt8)}
    (hsegs : ∀ s ∈ segs, wire.Scanned s) (objects : Objects) :
    (msgs segs).foldl (proccessPayload pb) objects =
      (wire.frames segs).foldl (update pb) objects := by
  induction segs generalizing objects with
  | nil => rfl
  | cons s segs ih =>
    have hrest := ih fun u hu => hsegs u (List.mem_cons_of_mem _ hu)
    rw [msgs_cons, List.foldl_append, hrest, wire.frames_cons, List.foldl_append]
    congr 1
    cases s with
    | packet l t p c =>
      have hp : p.length = l.toNat := hsegs _ (List.mem_cons_self ..)
      by_cases hc : crc8 l t p = c
      · have hframe : wire.frame? (.packet l t p c) = some ⟨t, p⟩ := by
          simp [FrameFormat.frame?, wire, ← crc8_agree, hc]
        rw [hframe, msg?, if_pos hc]
        exact proccessPayload_eq_update pb objects hp
      · have hframe : wire.frame? (.packet l t p c) = none := by
          simp [FrameFormat.frame?, wire, ← crc8_agree, hc]
        rw [hframe, msg?, if_neg hc]
        rfl
    | junk b => rfl
    | lost bs => rfl

/-! ## Runs -/

/-- A call of the receiver's interface; `mutex` tells whether it obtains the
semaphore. -/
inductive TableCall where
  | receive (mutex : Bool) (uart : UartRx)
  | proccess (mutex : Bool)

/-- One call, on the buffer and the object table. -/
def tableStep (pb : PbDecode) (st : RxState × Objects) : TableCall → Option (RxState × Objects)
  | .receive mutex uart => (receiveMsg mutex uart st.1).map fun s => (s, st.2)
  | .proccess mutex => some (proccessMsgs (proccessPayload pb) mutex st.1 st.2)

/-- One call, on the bytes in use: what stays there, and the frames accepted.
Copying a count of -1 is undefined. -/
def accept (content : List UInt8) : TableCall → Option (List UInt8 × List (Frame UInt8))
  | .receive mutex uart =>
    if mutex then uart.chunk.map fun chunk => (store content chunk, []) else some (content, [])
  | .proccess mutex =>
    if mutex then some ((wire.scan 4 content).2, wire.frames (wire.scan 4 content).1)
    else some (content, [])

/-- The frames a run accepts, and the bytes it leaves. -/
def accepted : List UInt8 → List TableCall → Option (List UInt8 × List (Frame UInt8))
  | content, [] => some (content, [])
  | content, call :: calls =>
    (accept content call).bind fun r =>
      (accepted r.1 calls).map fun q => (q.1, r.2 ++ q.2)

/-- Without the semaphore the bytes read are dropped. -/
theorem receiveMsg_busy (uart : UartRx) (s : RxState) : receiveMsg false uart s = some s := by
  rw [receiveMsg]
  split
  · rfl
  split
  · rfl
  split <;> rfl

/-- Copying a count of -1 is undefined. -/
theorem receiveMsg_undefined {uart : UartRx} (h : uart.chunk = none) (s : RxState) :
    receiveMsg true uart s = none := by
  rw [UartRx.chunk] at h
  rw [receiveMsg]
  split at h
  · cases h
  · rename_i h0
    rw [if_neg h0]
    split
    · rfl
    · rename_i chunk hr
      rw [hr] at h
      cases h

/-- **One call updates the table by the frames it accepts.** -/
theorem tableStep_accept (pb : PbDecode) (s : RxState) (objects : Objects) (call : TableCall) :
    ((tableStep pb (s, objects) call).map fun st => (st.1.content, st.2)) =
      (accept s.content call).map fun r => (r.1, r.2.foldl (update pb) objects) := by
  cases call with
  | receive mutex uart =>
    cases mutex with
    | false =>
      rw [tableStep, receiveMsg_busy]
      rfl
    | true =>
      cases hchunk : uart.chunk with
      | none =>
        rw [tableStep, receiveMsg_undefined hchunk, accept, if_pos rfl, hchunk]
        rfl
      | some chunk =>
        obtain ⟨s', hs', hc⟩ := receiveMsg_content hchunk s
        rw [tableStep, hs', accept, if_pos rfl, hchunk]
        show some (s'.content, objects) = some (store s.content chunk, objects)
        rw [hc]
  | proccess mutex =>
    cases mutex with
    | false => rfl
    | true =>
      have happ := proccessMsgs_app (proccessPayload pb) s objects
      have hcontent := proccessMsgs_content (proccessPayload pb) s objects
      rw [foldl_proccessPayload pb (wire.scan_scanned 4 s.content)] at happ
      rw [tableStep, accept, if_pos rfl, Option.map_some, Option.map_some, happ, hcontent]

/-- **The table is the fold of the accepted frames**, over every run from every
buffer; and each of these changes its own objects only, all of them or none. -/
theorem table_eq_fold (pb : PbDecode) (s : RxState) (objects : Objects) (calls : List TableCall) :
    (((Transitions.run (tableStep pb) (s, objects) calls).map fun st => (st.1.content, st.2)) =
      (accepted s.content calls).map fun r => (r.1, r.2.foldl (update pb) objects)) ∧
    ∀ (before : Objects) (f : Frame UInt8),
      (∀ o, o ∉ ownObjects f.type →
        (update pb before f).getObjectValue o = before.getObjectValue o) ∧
      (values pb f = none → update pb before f = before) ∧
      ∀ vs, values pb f = some vs →
        (ownObjects f.type).map (update pb before f).getObjectValue = vs := by
  refine ⟨?_, fun before f => update_own pb before f⟩
  induction calls generalizing s objects with
  | nil => rfl
  | cons call calls ih =>
    have hstep := tableStep_accept pb s objects call
    rw [accepted]
    cases hs : tableStep pb (s, objects) call with
    | none =>
      rw [hs] at hstep
      have hnone : accept s.content call = none := Option.map_eq_none_iff.mp hstep.symm
      rw [Transitions.run, hs, hnone]
      rfl
    | some st =>
      obtain ⟨s₁, objects₁⟩ := st
      rw [hs] at hstep
      obtain ⟨r, hr, heq⟩ := Option.map_eq_some_iff.mp hstep.symm
      have hcontent : r.1 = s₁.content := congrArg Prod.fst heq
      have hobjects : r.2.foldl (update pb) objects = objects₁ := congrArg Prod.snd heq
      rw [Transitions.run_cons _ hs, ih s₁ objects₁, hr, ← hcontent, ← hobjects]
      rw [Option.bind_some]
      cases accepted r.1 calls with
      | none => rfl
      | some q => simp only [Option.map_some, List.foldl_append]

end KartStack.KmComs
