import KartStack.KartMessages
import KartStack.LinkLossless
import KartStack.TopicOrder

/-! # Telemetry, from the tasks to the dashboard

Three tasks of the ESP32 report: `control_task` the steering, `heartbeat_task` that
the kart is alive, `health_task` how it is.  A report is encoded into a buffer of the
size the generated header gives, framed, sent, read in whatever portions `read()`
returns, published on the topic of its type, and delivered to the callbacks of the
dashboard: in order on each topic, in any order across topics, and where the
dashboard is slow not every one.

No callback raises on the way, and at the end the dashboard shows what was reported
last by each task, and nothing else (`dashboard_shows_reports`).
-/
namespace KartStack
open KmComs Nanopb KbDashboard SerialDriver Transitions TopicOrder

/-! ## The tasks -/

/-- `ESP_ACT_STEERING`. -/
def espActSteering : UInt8 := 0x04
/-- `ESP_HEARTBEAT`. -/
def espHeartbeat : UInt8 := 0x08
/-- `ESP_HEALTH_STATUS`. -/
def espHealthStatus : UInt8 := 0x0B

/-- `kart_Heartbeat`. -/
structure Heartbeat where
  uptimeMs : UInt32
  deriving DecidableEq

/-- Its memory. -/
def heartbeatLayout : Layout kartHeartbeat Heartbeat ⟨0⟩ where
  memory
    | m, ⟨0, _⟩ => m.uptimeMs
  load m := ⟨m ⟨0, by decide⟩⟩
  load_memory _ := rfl
  memory_zero := by decide

/-- `KM_SDIR_ReadStatusAGC`, given what the two registers hold, or `none` where the
bus fails: the result, the status and the gain. -/
def readStatusAGC (status agc : Option UInt8) : Bool × UInt8 × UInt8 :=
  (status.isSome && agc.isSome, status.getD 0, agc.getD 0)

/-- What a round of `health_task` looks at. -/
structure HealthSample where
  status : Option UInt8
  agc : Option UInt8
  /-- `esp_get_free_heap_size()`. -/
  freeHeap : UInt32
  /-- The sensor's. -/
  errorCount : UInt8
  /-- `uxTaskGetStackHighWaterMark` of a task by its name, if there is one. -/
  stackComms : Option UInt32
  stackControl : Option UInt32
  stackHeartbeat : Option UInt32
  stackHealth : UInt32

/-- `HEALTH_HEAP_MIN_BYTES`. -/
def healthHeapMinBytes : UInt32 := 4096
/-- `AGC_MIN`. -/
def agcMin : UInt8 := 20
/-- `AGC_MAX`. -/
def agcMax : UInt8 := 235

/-- The `kart_HealthStatus` of a round; a `StackType_t` is a byte. -/
def HealthSample.healthStatus (s : HealthSample) : HealthStatus :=
  let (i2cOk, _, agc) := readStatusAGC s.status s.agc
  let heapKb : UInt16 := (s.freeHeap / 1024).toUInt16
  { magnetOk := agc ≥ agcMin && agc ≤ agcMax && i2cOk
    i2cOk := i2cOk
    heapOk := s.freeHeap ≥ healthHeapMinBytes
    agc := agc.toUInt32
    heapKb := heapKb.toUInt32
    i2cErrors := s.errorCount.toUInt32
    stackComms := s.stackComms.getD 0
    stackControl := s.stackControl.getD 0
    stackHeartbeat := s.stackHeartbeat.getD 0
    stackHealth := s.stackHealth }

/-- A report, by what its task looks at. -/
inductive Report where
  /-- `control_task`: the 32 bits of `ACTUAL_STEERING`, and `lastRawValue`. -/
  | steering (actualRad : UInt32) (rawVal : UInt16)
  /-- `heartbeat_task`: `xTaskGetTickCount()`; a tick is a millisecond. -/
  | heartbeat (tickCount : UInt32)
  /-- `health_task`. -/
  | health (sample : HealthSample)

namespace Report

/-- The type of its frame. -/
def type : Report → UInt8
  | .steering _ _ => espActSteering
  | .heartbeat _ => espHeartbeat
  | .health _ => espHealthStatus

/-- What its task encodes, into a buffer of the size of the message. -/
def encoded : Report → Except Error OStream
  | .steering actualRad rawVal =>
    encode (actSteeringLayout.memory ⟨actualRad, rawVal.toUInt32⟩) (.fromBuffer 11)
  | .heartbeat tickCount => encode (heartbeatLayout.memory ⟨tickCount⟩) (.fromBuffer 6)
  | .health sample => encode (healthStatusLayout.memory sample.healthStatus) (.fromBuffer 48)

/-- The bytes of its message. -/
def payload : Report → List UInt8
  | .steering actualRad rawVal => (actSteeringLayout.memory ⟨actualRad, rawVal.toUInt32⟩).bytes
  | .heartbeat tickCount => (heartbeatLayout.memory ⟨tickCount⟩).bytes
  | .health sample => (healthStatusLayout.memory sample.healthStatus).bytes

/-- Its buffer. -/
def size : Report → Nat
  | .steering _ _ => 11
  | .heartbeat _ => 6
  | .health _ => 48

/-- **The buffers are large enough.** -/
theorem encoded_eq (r : Report) : r.encoded = .ok ⟨r.payload, r.size⟩ ∧ r.payload.length ≤ r.size := by
  have hsize : ∀ {d : MsgDesc} {size : Nat}, (d, size) ∈ kartMessages → ∀ m : Struct d,
      encode m (.fromBuffer size) = .ok ⟨m.bytes, size⟩ ∧ m.bytes.length ≤ size := by
    intro d size hmem m
    have htotal := totalSize_kartMessages hmem
    have hle := length_bytes_le m
    rw [htotal] at hle
    exact ⟨encode_fromBuffer m (Nat.le_of_eq htotal), hle⟩
  cases r with
  | steering actualRad rawVal => exact hsize (by simp [kartMessages]) _
  | heartbeat tickCount => exact hsize (by simp [kartMessages]) _
  | health sample => exact hsize (by simp [kartMessages]) _

/-- Its message. -/
def message (r : Report) : Message where
  type := r.type
  payload := r.payload
  short := by
    have h := r.encoded_eq.2
    have hsize : r.size ≤ 48 := by cases r <;> simp [size]
    omega

end Report

/-- The tasks report one after the other: each encodes, and calls `KM_COMS_SendMsg` on
the bytes written.  The bytes on the wire; neither result is looked at. -/
def sendReports (uart : Nat → Nat → Int) (fuel : Nat) : List Report → Option (List UInt8)
  | [] => some []
  | r :: rs =>
    match r.encoded with
    | .error _ => none
    | .ok stream =>
      match sendMsg uart fuel r.type stream.written (UInt8.ofNat stream.written.length) with
      | .returned _ written => (sendReports uart fuel rs).map (written ++ ·)
      | _ => none

/-- The frames of reports. -/
def frames (rs : List Report) : List (Frame UInt8) := Message.frames (rs.map Report.message)

theorem sendReports_eq {uart : Nat → Nat → Int} (h : AcceptsAll uart) (fuel : Nat)
    (rs : List Report) :
    sendReports uart (fuel + 2) rs = sendAll uart (fuel + 2) (rs.map Report.message) := by
  induction rs with
  | nil => rfl
  | cons r rs ih =>
    have hsend := sendMsg_acceptsAll h fuel r.message
    rw [List.map_cons, sendAll, hsend, ← ih]
    change sendMsg uart (fuel + 2) r.type r.payload (UInt8.ofNat r.payload.length) = _ at hsend
    rw [sendReports, r.encoded_eq.1]
    dsimp only
    rw [hsend]
    rfl

/-- The Orin's callback gets the frames sent, however `read()` splits their bytes. -/
theorem rxLoop_frames {rs : List Report} {reads : List (List RxByte)}
    (hbytes : reads.flatten.map RxByte.byte = wire.encodeAll (frames rs))
    (hreads : ∀ data ∈ reads, data ≠ []) (p : Parser) : (rxLoop p reads).2 = frames rs := by
  have hreset : Holds (resetParser p) [] := rfl
  have hfeed := feed_scan hreset reads.flatten
  have hscan := wire.scan_encodeAll (Nat.zero_le 4) (Message.fits (rs.map Report.message)) []
  have hnil : wire.next 0 [] = none := by simp [FrameFormat.next]
  rw [List.append_nil, wire.scan_none hnil, List.append_nil] at hscan
  rw [List.nil_append, hbytes, frames, hscan, ← rxIterations_eq_feed (resetParser p) hreads] at hfeed
  rw [rxLoop, hfeed.delivered_eq, wire.frames_map_packetOf]
  rfl

/-! ## The topics -/

/-- The topics of the ESP32. -/
inductive EspTopic where
  | speed
  | acceleration
  | braking
  | steering
  | mision
  | machineState
  | shutdown
  | heartbeat
  | health
  deriving DecidableEq, Repr

/-- `kb_coms_RXcallback`: the topic the frame is published on.  An `ESP_COMPLETE` is
copied and dropped. -/
def rxTopic (type : UInt8) : Option EspTopic :=
  if type = 0x01 then some .speed
  else if type = 0x02 then some .acceleration
  else if type = 0x03 then some .braking
  else if type = 0x04 then some .steering
  else if type = 0x05 then some .mision
  else if type = 0x06 then some .machineState
  else if type = 0x07 then some .shutdown
  else if type = 0x08 then some .heartbeat
  else if type = 0x0B then some .health
  else none

/-- What is published for some frames. -/
def rxPublished (fs : List (Frame UInt8)) : List (EspTopic × List UInt8) :=
  fs.filterMap fun f => (rxTopic f.type).map fun topic => (topic, f.payload)

/-- A callback of the dashboard runs: the message, and the clocks. -/
structure Arrival where
  msg : EspTopic × List UInt8
  /-- `get_clock().now().nanoseconds`. -/
  nanoseconds : Int
  /-- `time.time()`. -/
  time : CFloat

/-- The callback of the topic, where there is one. -/
def onArrival (pb : Protobuf) (node : DashboardNode) (a : Arrival) : Option DashboardNode :=
  match a.msg.1 with
  | .heartbeat => some { node with state := node.state.heartbeat a.time }
  | .steering => onEspSteering pb a.nanoseconds a.msg.2 node
  | .speed => onEspSpeed pb a.msg.2 node
  | .acceleration => onEspAccel pb a.msg.2 node
  | .braking => onEspBraking pb a.msg.2 node
  | .health => onEspHealth pb a.msg.2 node
  | .mision | .machineState | .shutdown => some node

/-! ## What is shown -/

namespace Report

/-- The topic of its frame. -/
def topic : Report → EspTopic
  | .steering _ _ => .steering
  | .heartbeat _ => .heartbeat
  | .health _ => .health

/-- What the dashboard makes of it.  The encoder value 0 is taken for absent. -/
def shows : Report → List (String × PyValue)
  | .steering actualRad rawVal =>
    ("esp32_steering_rad", .float (ofBits actualRad)) ::
      if rawVal = 0 then [] else [("esp32_steering_raw", .int rawVal.toNat)]
  | .heartbeat _ => [("esp32_heartbeat", .bool true)]
  | .health sample => healthFields sample.healthStatus

/-- It as it is published. -/
def published (r : Report) : EspTopic × List UInt8 := (r.topic, r.payload)

end Report

theorem rxPublished_frames (rs : List Report) :
    rxPublished (frames rs) = rs.map Report.published := by
  induction rs with
  | nil => rfl
  | cons r rs ih =>
    have htopic : rxTopic r.message.type = some r.topic := by
      cases r <;> rfl
    have hcons : frames (r :: rs) = r.message.toFrame :: frames rs := rfl
    rw [hcons, rxPublished, List.filterMap_cons, htopic]
    exact congrArg _ ih

theorem stored_steering (actualRad : UInt32) (rawVal : UInt16) :
    (Telemetry.steering actualRad rawVal.toUInt32).stored = (Report.steering actualRad rawVal).shows := by
  have hzero : rawVal.toUInt32 = 0 ↔ rawVal = 0 := by
    rw [← UInt32.toNat_inj, ← UInt16.toNat_inj, UInt16.toNat_toUInt32]
    rfl
  rw [Telemetry.stored, Report.shows]
  by_cases h : rawVal = 0
  · rw [if_pos h, if_pos (hzero.mpr h)]
  · rw [if_neg h, if_neg (mt hzero.mp h), Telemetry.fields, UInt16.toNat_toUInt32]

/-- The callback for the steering, on a report of it. -/
theorem onEspSteering_payload (now : Int) (actualRad : UInt32) (rawVal : UInt16)
    (node : DashboardNode) :
    ∃ node', onEspSteering nanopbRuntime now (Report.steering actualRad rawVal).payload node =
        some node' ∧
      node'.state = (node.updateAll (Report.steering actualRad rawVal).shows).state := by
  obtain ⟨node', hreceive, hstate⟩ :=
    receive_eq nanopbRuntime now node (.steering actualRad rawVal.toUInt32)
  rw [stored_steering] at hstate
  exact ⟨node', hreceive, hstate⟩

/-- That for the health. -/
theorem onEspHealth_payload (sample : HealthSample) (node : DashboardNode) :
    onEspHealth nanopbRuntime (Report.health sample).payload node =
      some (node.updateAll (Report.health sample).shows) := by
  have hparse : nanopbRuntime.healthStatus.parse (Report.health sample).payload =
      some sample.healthStatus := healthStatusLayout.codec.parse_serialize _
  rw [onEspHealth, decodeHealth, hparse]
  rfl

theorem shows_nodup (r : Report) : (r.shows.map Prod.fst).Nodup := by
  cases r with
  | steering actualRad rawVal => by_cases h : rawVal = 0 <;> simp [Report.shows, h]
  | heartbeat tickCount => simp [Report.shows]
  | health sample => simp [Report.shows, healthFields]

/-- **The callback on a report** raises nothing, and stores what the report shows. -/
theorem onArrival_report {a : Arrival} {r : Report} (h : a.msg = r.published)
    (node : DashboardNode) :
    ∃ node', onArrival nanopbRuntime node a = some node' ∧
      ∀ key, node'.state.data key = (r.shows.lookup key).or (node.state.data key) := by
  have hstores : ∀ {node' : DashboardNode}, node'.state = (node.updateAll r.shows).state →
      ∀ key, node'.state.data key = (r.shows.lookup key).or (node.state.data key) := by
    intro node' hstate key
    rw [hstate, updateAll_data (shows_nodup r)]
  rw [onArrival, h]
  cases r with
  | steering actualRad rawVal =>
    obtain ⟨node', hnode', hstate⟩ := onEspSteering_payload a.nanoseconds actualRad rawVal node
    exact ⟨node', hnode', hstores hstate⟩
  | heartbeat tickCount =>
    refine ⟨_, rfl, fun key => ?_⟩
    rw [Report.shows, lookup_singleton]
    by_cases hkey : key = "esp32_heartbeat"
    · rw [if_pos hkey, hkey]
      exact DashboardState.data_update_self node.state "esp32_heartbeat" (.bool true)
    · rw [if_neg hkey]
      exact DashboardState.data_heartbeat_of_ne hkey ..
  | health sample => exact ⟨_, onEspHealth_payload sample node, hstores rfl⟩

/-- The keys of a topic's reports. -/
def EspTopic.keys : EspTopic → List String
  | .steering => ["esp32_steering_rad", "esp32_steering_raw"]
  | .heartbeat => ["esp32_heartbeat"]
  | .health =>
    ["health_magnet_ok", "health_i2c_ok", "health_heap_ok", "health_agc", "health_heap_kb",
      "health_i2c_errors", "stack_comms", "stack_control", "stack_heartbeat", "stack_health"]
  | _ => []

theorem mem_keys_of_shows {r : Report} {key : String} {value : PyValue}
    (h : r.shows.lookup key = some value) : key ∈ r.topic.keys := by
  have hmem : key ∈ r.shows.map Prod.fst := by
    by_contra hnot
    rw [List.lookup_eq_none_iff.mpr] at h
    · cases h
    · intro field hfield
      have hne : key ≠ field.1 := by
        rintro rfl
        exact hnot (List.mem_map.mpr ⟨field, hfield, rfl⟩)
      simpa using hne
  cases r with
  | steering actualRad rawVal =>
    by_cases hraw : rawVal = 0
    · rw [Report.shows, if_pos hraw] at hmem
      exact List.mem_cons.mpr (.inl (List.mem_singleton.mp hmem))
    · rwa [Report.shows, if_neg hraw] at hmem
  | heartbeat tickCount => exact hmem
  | health sample => exact hmem

/-- Reports on different topics show different things. -/
theorem shows_disjoint {r r' : Report} (h : r'.topic ≠ r.topic) {key : String} {value : PyValue}
    (hkey : r.shows.lookup key = some value) : r'.shows.lookup key = none := by
  by_contra hsome
  obtain ⟨value', hvalue'⟩ := Option.ne_none_iff_exists'.mp hsome
  have hmem := mem_keys_of_shows hkey
  have hmem' := mem_keys_of_shows hvalue'
  generalize r.topic = t at *
  generalize r'.topic = t' at *
  have hdisjoint : ∀ t t' : EspTopic, t' ≠ t → ∀ key ∈ t.keys, key ∉ t'.keys := by
    intro t t' hne
    cases t <;> cases t' <;> first | exact absurd rfl hne | decide
  exact hdisjoint t t' h key hmem hmem'

/-- A run of the callbacks on reports raises nothing, and leaves alone what no report
shows. -/
theorem run_reports {rs : List Report} {as : List Arrival}
    (h : ∀ a ∈ as, ∃ r ∈ rs, a.msg = r.published) (node : DashboardNode) :
    ∃ node', run (onArrival nanopbRuntime) node as = some node' ∧
      ∀ key, (∀ r ∈ rs, r.shows.lookup key = none) →
        node'.state.data key = node.state.data key := by
  induction as generalizing node with
  | nil => exact ⟨node, rfl, fun _ _ => rfl⟩
  | cons a as ih =>
    obtain ⟨r, hr, hmsg⟩ := h a (List.mem_cons_self ..)
    obtain ⟨node₁, hstep, hdata⟩ := onArrival_report hmsg node
    obtain ⟨node', hrun, hrest⟩ := ih (fun b hb => h b (List.mem_cons_of_mem _ hb)) node₁
    refine ⟨node', (run_cons _ hstep as).trans hrun, fun key hkey => ?_⟩
    rw [hrest key hkey, hdata, hkey r hr]
    rfl

/-- **The dashboard shows what was reported.**  Whatever the tasks report, in any order,
however `read()` splits the bytes and however the topics' messages are interleaved
and thinned out, no callback raises; what the last report of a task shows is then on
the dashboard, and what no report shows is as it was before. -/
theorem dashboard_shows_reports {uart : Nat → Nat → Int} (h : AcceptsAll uart) (fuel : Nat)
    (rs : List Report) :
    ∃ bytes, sendReports uart (fuel + 2) rs = some bytes ∧
      ∀ reads : List (List RxByte), reads.flatten.map RxByte.byte = bytes →
        (∀ data ∈ reads, data ≠ []) → ∀ (p : Parser) (as : List Arrival),
          Delivered Prod.fst (rxPublished (rxLoop p reads).2) (as.map Arrival.msg) →
            ∀ node : DashboardNode, ∃ node', run (onArrival nanopbRuntime) node as = some node' ∧
              (∀ r, lastOn Report.topic r.topic rs = some r → ∀ key value,
                r.shows.lookup key = some value → node'.state.data key = some value) ∧
              ∀ key, (∀ r ∈ rs, r.shows.lookup key = none) →
                node'.state.data key = node.state.data key := by
  have hsend := sendAll_acceptsAll h fuel (rs.map Report.message)
  refine ⟨_, (sendReports_eq h fuel rs).trans hsend, ?_⟩
  intro reads hbytes hreads p as hdelivered node
  have hpublished : rxPublished (rxLoop p reads).2 = rs.map Report.published := by
    rw [rxLoop_frames hbytes hreads p]
    exact rxPublished_frames rs
  rw [hpublished] at hdelivered
  have hreport : ∀ a ∈ as, ∃ r ∈ rs, a.msg = r.published := by
    intro a ha
    obtain ⟨r, hr, heq⟩ := List.mem_map.mp (hdelivered.mem (List.mem_map_of_mem ha))
    exact ⟨r, hr, heq.symm⟩
  obtain ⟨node', hrun, hrest⟩ := run_reports hreport node
  refine ⟨node', hrun, ?_, hrest⟩
  intro r hlast
  -- the last arrival on the topic is the last report on it
  have hlast' := (hdelivered r.topic).2
  rw [lastOn_map, lastOn_map] at hlast'
  have htopic : (fun r : Report => r.published.1) = Report.topic := rfl
  rw [htopic, hlast] at hlast'
  obtain ⟨a, ha, hmsg⟩ := Option.map_eq_some_iff.mp hlast'
  have hat : a.msg.1 = r.topic := congrArg Prod.fst hmsg
  rw [← hat] at ha
  refine @holds_of_last EspTopic Arrival _ (fun a => a.msg.1) DashboardNode _
    (fun a node => ∀ r : Report, a.msg = r.published → ∀ key value,
      r.shows.lookup key = some value → node.state.data key = some value)
    node node' as ?_ ?_ hrun a ha r hmsg
  · intro s a s' hstep r hr key value hvalue
    obtain ⟨s₁, hs₁, hdata⟩ := onArrival_report hr s
    obtain rfl := Option.some.inj (hs₁.symm.trans hstep)
    rw [hdata, hvalue]
    rfl
  · intro s a s' a' ha' hne hbefore hstep r hr key value hvalue
    obtain ⟨r', -, hr'⟩ := hreport a' ha'
    obtain ⟨s₁, hs₁, hdata⟩ := onArrival_report hr' s
    obtain rfl := Option.some.inj (hs₁.symm.trans hstep)
    rw [hr, hr'] at hne
    rw [hdata, shows_disjoint hne hvalue]
    exact hbefore r hr key value hvalue

/-- A report of the steering, read in two portions. -/
theorem dashboard_shows_reports_steering :
    let reads : List (List RxByte) :=
      [[⟨0xAA, 0⟩, ⟨2, 0⟩, ⟨4, 0⟩], [⟨0x10, 1⟩, ⟨5, 1⟩, ⟨0xCB, 1⟩]]
    let arrival : Arrival := ⟨(.steering, [0x10, 5]), 0, .fin 0⟩
    sendReports (fun _ n => n) 2 [.steering 0 5] = some (reads.flatten.map RxByte.byte) ∧
      ∃ node, run (onArrival nanopbRuntime) .init [arrival] = some node ∧
        node.state.data "esp32_steering_raw" = some (.int 5) ∧
        node.state.data "esp32_throttle" = some (.float (.fin 0)) := by
  intro reads arrival
  have hsent : sendReports (fun _ n => n) 2 [.steering 0 5] =
      some (reads.flatten.map RxByte.byte) := by decide +kernel
  have hread : rxPublished (rxLoop {} reads).2 = [arrival.msg] := by decide +kernel
  have haccepts : AcceptsAll fun _ n => n := fun _ _ => rfl
  obtain ⟨bytes, hbytes, hall⟩ := dashboard_shows_reports haccepts 0 [.steering 0 5]
  have hreads : reads.flatten.map RxByte.byte = bytes := Option.some.inj (hsent.symm.trans hbytes)
  obtain ⟨node, hrun, hlast, hrest⟩ := hall reads hreads (by decide) {} [arrival]
    (by rw [hread]; exact Delivered.refl _ _) .init
  refine ⟨hsent, node, hrun, hlast (.steering 0 5) rfl _ _ rfl, hrest _ ?_⟩
  intro r hr
  rw [List.mem_singleton.mp hr]
  rfl

end KartStack
