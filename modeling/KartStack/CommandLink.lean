import KartStack.KartMessages
import KartStack.LinkLossless
import KartStack.ObjectFold

/-! # Commands, from the Orin to the object table

A command says which objects are to have which values (`Command.sets`).  On its way
it is a protobuf payload or a single byte, inside a frame with a checksum, on a
stream that is cut wherever the UART happens to be read, in the ESP32's buffer, and
in nanopb's hands.  At the end the object table is what the commands say, one after
the other (`commands_reach_table`): whatever writing of the payloads the encoder
chose, and wherever the stream was cut.
-/
namespace KartStack
open KmComs Nanopb KbDashboard

/-- What the Orin tells the ESP32; a `float` is given by its 32 bits. -/
inductive Command where
  | throttle (effort : UInt32)
  | braking (effort : UInt32)
  | steering (angleRad : UInt32)
  | mission (value : UInt8)
  | machineState (value : UInt8)
  | heartbeat
  | shutdown (value : UInt8)
  | complete (effort brake angleRad mis state : UInt32) (stop : Bool)

namespace Command

/-- The objects a command is about, and their values. -/
def sets : Command → List (Object × CFloat)
  | .throttle effort => [(.targetThrottle, ofBits effort)]
  | .braking effort => [(.targetBraking, ofBits effort)]
  | .steering angleRad => [(.targetSteering, ofBits angleRad)]
  | .mission value => [(.misionOrin, (value.toNat : CFloat))]
  | .machineState value => [(.machineStateOrin, (value.toNat : CFloat))]
  | .heartbeat => []
  | .shutdown value => [(.shutdownOrin, if value ≠ 0 then 1 else 0)]
  | .complete effort brake angleRad mis state stop =>
    [(.targetThrottle, ofBits effort), (.targetBraking, ofBits brake),
      (.targetSteering, ofBits angleRad), (.misionOrin, (mis.toNat : CFloat)),
      (.machineStateOrin, (state.toNat : CFloat)), (.shutdownOrin, if stop then 1 else 0)]

/-- The table a command leaves. -/
def apply (objects : Objects) (c : Command) : Objects :=
  c.sets.foldl (fun objects p => objects.setObjectValue p.1 p.2) objects

/-- The type of its frame. -/
def type : Command → UInt8
  | .throttle _ => orinTargThrottle
  | .braking _ => orinTargBraking
  | .steering _ => orinTargSteering
  | .mission _ => orinMision
  | .machineState _ => orinMachineState
  | .heartbeat => orinHeartbeat
  | .shutdown _ => orinShutdown
  | .complete _ _ _ _ _ _ => orinComplete

/-- Some bytes are a writing of a message of which `load` is `v`: records in any
order, of which the last of each field counts. -/
def Says (d : MsgDesc) {V : Type} (load : Struct d → V) (v : V) (payload : List UInt8) : Prop :=
  ∃ records : List (Record d), Payload WritesWord records payload ∧
    load (merge Struct.zero records) = v

/-- The payloads that say a command. -/
def Payload : Command → List UInt8 → Prop
  | .throttle effort, payload => Says kartTargThrottle throttleEffort effort payload
  | .braking effort, payload => Says kartTargBraking brakingEffort effort payload
  | .steering angleRad, payload => Says kartTargSteering steeringAngleRad angleRad payload
  | .mission value, payload => payload.head? = some value
  | .machineState value, payload => payload.head? = some value
  | .heartbeat, _ => True
  | .shutdown value, payload => payload.head? = some value
  | .complete effort brake angleRad mis state stop, payload =>
    Says kartOrinComplete orinCompleteFields (effort, brake, angleRad, mis, state, stop) payload

/-- A message carries a command. -/
def CarriedBy (c : Command) (m : Message) : Prop := m.type = c.type ∧ c.Payload m.payload

end Command

/-- The one field a payload says is what the ESP32 decodes. -/
theorem decodeFloat_of_says {d : MsgDesc} {value : Struct d → UInt32} {v : UInt32}
    {payload : List UInt8} (h : Command.Says d value v payload) :
    decodeFloat d value payload = some (ofBits v) := by
  obtain ⟨records, hrecords, rfl⟩ := h
  rw [decodeFloat, decode_of_records hrecords]
  rfl

/-- **A frame that carries a command does to the table what it says.** -/
theorem update_of_carriedBy {c : Command} {m : Message} (h : c.CarriedBy m) (objects : Objects) :
    update nanopbDecode objects m.toFrame = c.apply objects := by
  obtain ⟨htype, hpayload⟩ := h
  have hframe : m.toFrame = ⟨c.type, m.payload⟩ := by rw [← htype]
  rw [hframe]
  -- which values the type calls for
  have hupdate : ∀ {type : UInt8} {vs : List CFloat},
      values nanopbDecode ⟨type, m.payload⟩ = some vs →
      update nanopbDecode objects ⟨type, m.payload⟩ = setAll objects (ownObjects type) vs := by
    intro type vs hvs
    rw [update, hvs]
    rfl
  cases c with
  | throttle effort =>
    have hdecode : nanopbDecode.targThrottle m.payload = _ := decodeFloat_of_says hpayload
    refine @hupdate orinTargThrottle [ofBits effort] ?_
    simp [values, hdecode]
  | braking effort =>
    have hdecode : nanopbDecode.targBraking m.payload = _ := decodeFloat_of_says hpayload
    refine @hupdate orinTargBraking [ofBits effort] ?_
    simp [values, hdecode, orinTargThrottle, orinTargBraking]
  | steering angleRad =>
    have hdecode : nanopbDecode.targSteering m.payload = _ := decodeFloat_of_says hpayload
    refine @hupdate orinTargSteering [ofBits angleRad] ?_
    simp [values, hdecode, orinTargThrottle, orinTargBraking, orinTargSteering]
  | mission value =>
    have hhead : m.payload.head? = some value := hpayload
    refine @hupdate orinMision [(value.toNat : CFloat)] ?_
    simp [values, hhead, orinTargThrottle, orinTargBraking, orinTargSteering, orinMision]
  | machineState value =>
    have hhead : m.payload.head? = some value := hpayload
    refine @hupdate orinMachineState [(value.toNat : CFloat)] ?_
    simp [values, hhead, orinTargThrottle, orinTargBraking, orinTargSteering, orinMision,
      orinMachineState]
  | heartbeat => rfl
  | shutdown value =>
    have hhead : m.payload.head? = some value := hpayload
    refine @hupdate orinShutdown [if value ≠ 0 then 1 else 0] ?_
    simp [values, hhead, orinTargThrottle, orinTargBraking, orinTargSteering, orinMision,
      orinMachineState, orinHeartbeat, orinShutdown]
  | complete effort brake angleRad mis state stop =>
    obtain ⟨records, hrecords, hload⟩ := hpayload
    cases hload
    have hdecode : nanopbDecode.orinComplete m.payload =
        some (loadOrinComplete (merge Struct.zero records)) := by
      simp only [nanopbDecode, decode_of_records hrecords]
      rfl
    generalize hv : loadOrinComplete (merge Struct.zero records) = v at hdecode
    have hset := @hupdate orinComplete [v.throttle, v.braking, v.steeringRad,
      (v.mission.toNat : CFloat), (v.machineState.toNat : CFloat), if v.shutdown then 1 else 0]
      (by simp [values, hdecode, orinTargThrottle, orinTargBraking, orinTargSteering, orinMision,
        orinMachineState, orinHeartbeat, orinShutdown, orinComplete])
    subst hv
    exact hset

/-! ## The way -/

/-- `comms_task` gets the pieces of the stream one after the other, and processes what
it has after each. -/
def commsTask (pieces : List (List UInt8)) : List TableCall :=
  pieces.flatMap fun piece => [.receive true (UartRx.holding piece), .proccess true]

/-- A call that accepts frames updates the table by them. -/
theorem exists_tableStep {pb : PbDecode} {s : RxState} {call : TableCall}
    {r : List UInt8 × List (Frame UInt8)} (h : accept s.content call = some r) (objects : Objects) :
    ∃ s', tableStep pb (s, objects) call = some (s', r.2.foldl (update pb) objects) ∧
      s'.content = r.1 := by
  have hstep := tableStep_accept pb s objects call
  rw [h, Option.map_some] at hstep
  obtain ⟨⟨s', objects'⟩, hs', heq⟩ := Option.map_eq_some_iff.mp hstep
  obtain ⟨hcontent, hobjects⟩ := Prod.ext_iff.mp heq
  refine ⟨s', ?_, hcontent⟩
  rw [hs']
  exact congrArg some (Prod.ext rfl hobjects)

/-- `comms_task` updates the table by the frames the pieces pump out. -/
theorem run_pieces {pieces : List (List UInt8)} (hle : ∀ piece ∈ pieces, piece.length ≤ rxChunk)
    (s : RxState) (objects : Objects) :
    ∃ s', Transitions.run (tableStep nanopbDecode) (s, objects) (commsTask pieces) =
      some (s', (pump s.content pieces).1.foldl (update nanopbDecode) objects) := by
  induction pieces generalizing s objects with
  | nil => exact ⟨s, rfl⟩
  | cons piece pieces ih =>
    have hchunk := UartRx.chunk_holding (hle piece (List.mem_cons_self ..))
    have hreceive : accept s.content (.receive true (UartRx.holding piece)) =
        some (store s.content piece, []) := by
      rw [accept, if_pos rfl, hchunk, Option.map_some]
    obtain ⟨s₁, hs₁, hcontent₁⟩ := exists_tableStep hreceive objects
    have hproccess : accept s₁.content (.proccess true) =
        some ((wire.scan 4 (store s.content piece)).2,
          wire.frames (wire.scan 4 (store s.content piece)).1) := by
      rw [accept, if_pos rfl, hcontent₁]
    obtain ⟨s₂, hs₂, hcontent₂⟩ := exists_tableStep hproccess objects
    obtain ⟨s', hs'⟩ := ih (fun p hp => hle p (List.mem_cons_of_mem _ hp)) s₂ _
    rw [hcontent₂] at hs'
    refine ⟨s', ?_⟩
    rw [pump, List.foldl_append]
    exact (Transitions.run_cons _ hs₁ _).trans ((Transitions.run_cons _ hs₂ _).trans hs')

theorem foldl_update {cmds : List Command} {ms : List Message}
    (h : List.Forall₂ Command.CarriedBy cmds ms) (objects : Objects) :
    (Message.frames ms).foldl (update nanopbDecode) objects = cmds.foldl Command.apply objects := by
  induction h generalizing objects with
  | nil => rfl
  | cons hc _ ih =>
    change List.foldl _ (update nanopbDecode objects _) _ = _
    rw [update_of_carriedBy hc]
    exact ih _

/-- The messages sent reach the table, each once and in order, wherever the stream of
their frames is cut. -/
theorem run_commsTask {ms : List Message} (hshort : ∀ m ∈ ms, m.payload.length ≤ 188)
    (cut : Cut rxChunk (sentBytes ms)) {s : RxState} (hs : s.rxBufferLen = 0) (objects : Objects) :
    ∃ s', Transitions.run (tableStep nanopbDecode) (s, objects) (commsTask cut.pieces) =
      some (s', (Message.frames ms).foldl (update nanopbDecode) objects) := by
  have hframes : ∀ f ∈ Message.frames ms, f.payload.length ≤ 188 := by
    intro f hf
    obtain ⟨m, hm, rfl⟩ := List.mem_map.mp hf
    exact hshort m hm
  have hcut : cut.pieces.flatten = wire.encodeAll (Message.frames ms) := by
    rw [cut.flatten_eq, sentBytes_eq]
  have hpump := pump_of_roomy (Message.fits ms) hcut (roomy_of_short hframes cut.le 0)
  rw [← hpump, ← content_eq_nil hs]
  exact run_pieces cut.le s objects

/-- **The commands reach the table.**  Whatever payloads say them, and wherever the
stream of their frames is cut, the object table ends up as the commands say, one
after the other. -/
theorem commands_reach_table {cmds : List Command} {ms : List Message}
    (hcarried : List.Forall₂ Command.CarriedBy cmds ms) (hshort : ∀ m ∈ ms, m.payload.length ≤ 188)
    (cut : Cut rxChunk (sentBytes ms)) {s : RxState} (hs : s.rxBufferLen = 0) (objects : Objects) :
    ∃ s', Transitions.run (tableStep nanopbDecode) (s, objects) (commsTask cut.pieces) =
      some (s', cmds.foldl Command.apply objects) := by
  obtain ⟨s', hrun⟩ := run_commsTask hshort cut hs objects
  rw [foldl_update hcarried] at hrun
  exact ⟨s', hrun⟩

/-- Half throttle, said after a field the ESP32 does not know. -/
def halfThrottle : Message :=
  ⟨⟨orinTargThrottle, [0x10, 0x05, 0x0D, 0x00, 0x00, 0x00, 0x3F]⟩, by decide⟩

theorem halfThrottle_says :
    Command.Says kartTargThrottle throttleEffort 0x3F000000 halfThrottle.payload := by
  have hbyte : ∀ b : UInt8, b.toNat < 128 → WritesWord [b] b.toUInt32 := by
    intro b hb
    refine ⟨hb, by simp, ?_⟩
    simp only [Base128.value_cons, Base128.value_nil, UInt8.toNat_toUInt32]
    omega
  have hunknown : Record.WrittenBy WritesWord kartTargThrottle .unknown ([0x10] ++ [0x05]) :=
    .unknown (hbyte 0x10 (by decide)) (by decide) (by decide)
      (Or.inl ⟨by decide, Base128.isVarint_singleton.mpr (by decide)⟩)
  have hknown : Record.WrittenBy WritesWord kartTargThrottle
      (.known ⟨0, by decide⟩ (0x3F000000 : UInt32)) ([0x0D] ++ [0x00, 0x00, 0x00, 0x3F]) :=
    .known (hbyte 0x0D (by decide)) (by decide) (by decide) ⟨rfl, by decide⟩
  exact ⟨_, .cons hunknown (.cons hknown .nil), rfl⟩

/-- It reaches the table, and a heartbeat behind it. -/
theorem commands_reach_table_half :
    ∃ s', Transitions.run (tableStep nanopbDecode) (RxState.init, Objects.init)
      (commsTask (Cut.greedy rxChunk (by decide) (sentBytes [halfThrottle, heartbeat])).pieces) =
        some (s', [Command.throttle 0x3F000000, .heartbeat].foldl Command.apply .init) := by
  have hcarried : List.Forall₂ Command.CarriedBy [.throttle 0x3F000000, .heartbeat]
      [halfThrottle, heartbeat] :=
    .cons ⟨rfl, halfThrottle_says⟩ (.cons ⟨rfl, trivial⟩ .nil)
  exact commands_reach_table hcarried (by decide) _ rfl _

end KartStack
