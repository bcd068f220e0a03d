import KartStack.Transitions
import KartStack.WebSocketServer

/-! # Missions from many clients

Every client has a `handle_ws` of its own; they run on one event loop and give it
up only in `readexactly`, so a command is carried out as a whole.  What a client
sends is up to it, down to the bytes, and whatever it is, `handle_command` either
stores and publishes a mission or does neither: a message that is no dict, or a
mission that cannot be hashed, raises before anything is written.

So in every state the server can get into the mission is a known one, the state too,
and the missions published are those of the accepted commands (`lawful_of_run`).
-/
namespace KartStack.KbDashboard
open Transitions

/-- The keys of `MISSIONS`. -/
def missions : List PyStr :=
  ["manual", "acceleration", "skidpad", "autocross", "trackdrive", "ebs_test", "inspection"].map str

/-- What `set_state` accepts. -/
def states : List PyStr := ["idle", "running", "ebs"].map str

/-- The arguments of `publish_manual_control`. -/
structure ManualControl where
  steer : CFloat
  steerType : PyValue
  throttle : CFloat
  brake : CFloat

/-- The calls of the node's methods. -/
structure NodeCalls where
  publishMission : List PyStr
  publishManualControl : List ManualControl
  info : List PyStr

/-- What the environment decides. -/
structure Env where
  json : JsonModule
  /-- `float(x)`, or `none` where it raises. -/
  float : PyValue → Option CFloat
  /-- `hasattr(node, "publish_manual_control")`. -/
  hasManualControl : Bool

/-- `state` and `node`. -/
structure Dashboard where
  state : DashboardState
  node : NodeCalls

/-- Before the first command. -/
def Dashboard.init : Dashboard := ⟨.init, ⟨[], [], []⟩⟩

/-- `cmd.get(key, default)`. -/
def get (entries : List (PyStr × PyValue)) (key : String) (default : PyValue) : PyValue :=
  (entries.lookup (str key)).getD default

/-- The branch `set_mission`. -/
def setMission (entries : List (PyStr × PyValue)) (d : Dashboard) : Option Dashboard :=
  match get entries "mission" (.str (str "manual")) with
  | .str mission =>
    if mission ∈ missions then
      some ⟨d.state.update "mission" (.str mission),
        { d.node with publishMission := d.node.publishMission ++ [mission] }⟩
    else some d
  -- `in MISSIONS` raises for what has no hash
  | .list _ | .dict _ => none
  | _ => some d

/-- The branch `set_state`. -/
def setState (entries : List (PyStr × PyValue)) (d : Dashboard) : Option Dashboard :=
  match get entries "state" (.str (str "idle")) with
  | .str newState =>
    if newState ∈ states then
      some ⟨d.state.update "state" (.str newState),
        { d.node with info := d.node.info ++ [str "State set: " ++ newState] }⟩
    else some d
  | _ => some d

/-- The branch `manual_control`. -/
def manualControl (env : Env) (entries : List (PyStr × PyValue)) (d : Dashboard) :
    Option Dashboard :=
  if env.hasManualControl then do
    let steer ← env.float (get entries "steering" (.float (.fin 0)))
    let throttle ← env.float (get entries "throttle" (.float (.fin 0)))
    let brake ← env.float (get entries "brake" (.float (.fin 0)))
    let control := ⟨steer, get entries "steer_type" (.str (str "angle")), throttle, brake⟩
    some { d with
      node := { d.node with publishManualControl := d.node.publishManualControl ++ [control] } }
  else some d

/-- `handle_command`, or `none` where it raises. -/
def handleCommand (env : Env) (cmd : PyValue) (d : Dashboard) : Option Dashboard :=
  match cmd with
  | .dict entries =>
    match get entries "action" .null with
    | .str action =>
      if action = str "set_mission" then setMission entries d
      else if action = str "set_state" then setState entries d
      else if action = str "manual_control" then manualControl env entries d
      else some d
    | _ => some d
  -- only a dict has `get`
  | _ => none

/-! ## Clients -/

/-- A client: where its `handle_ws` waits — `none` when it has been left — what has
arrived and is not read, whether the stream has ended, and what it was sent. -/
structure Client where
  wait : Option Wait
  buffer : List UInt8
  eof : Bool
  sent : List UInt8

/-- A new connection. -/
def Client.init : Client := ⟨some .header, [], false, []⟩

/-- The dashboard, its clients, and the commands so far in the order of the calls of
`handle_command`. -/
structure Server where
  dashboard : Dashboard
  clients : Nat → Option Client
  commands : List PyValue

/-- Nobody is connected. -/
def Server.init : Server := ⟨.init, fun _ => none, []⟩

/-- What happens next. -/
inductive ServerAct where
  | connect (client : Nat)
  | arrive (client : Nat) (bytes : List UInt8)
  | eof (client : Nat)
  /-- The connection breaks, or the task is cancelled. -/
  | abort (client : Nat)
  /-- A `handle_ws` runs from one `readexactly` to the next. -/
  | resume (client : Nat)
  /-- Telemetry under another key. -/
  | telemetry (key : String) (value : PyValue)
  | heartbeat (now : CFloat)

/-- A client changes. -/
def Server.setClient (s : Server) (client : Nat) (c : Client) : Server :=
  { s with clients := Function.update s.clients client (some c) }

/-- The body of `try`, with `except Exception: pass`. -/
def Server.handle (env : Env) (s : Server) (cmd : PyValue) : Server :=
  { s with
    dashboard := (handleCommand env cmd s.dashboard).getD s.dashboard
    commands := s.commands ++ [cmd] }

/-- What an event makes of the server. -/
def Server.onEvent (env : Env) (s : Server) (e : Event) : Server :=
  match env.json.command e with
  | some cmd => s.handle env cmd
  | none => s

/-- The bytes an event sends to the client. -/
def Event.reply : Event → List UInt8
  | .pong bytes => bytes
  | .frame _ _ => []

/-- One act; `none` where it is not possible. -/
def serverStep (env : Env) (s : Server) : ServerAct → Option Server
  | .connect client =>
    match s.clients client with
    | none => some (s.setClient client .init)
    | some _ => none
  | .arrive client bytes =>
    (s.clients client).map fun c => s.setClient client { c with buffer := c.buffer ++ bytes }
  | .eof client => (s.clients client).map fun c => s.setClient client { c with eof := true }
  | .abort client => (s.clients client).map fun c => s.setClient client { c with wait := none }
  | .resume client =>
    match s.clients client with
    | some ⟨some w, buffer, eof, sent⟩ =>
      if w.size ≤ buffer.length then
        let r := resume w (buffer.take w.size)
        let c : Client :=
          ⟨r.1, buffer.drop w.size, eof, sent ++ (r.2.map Event.reply).getD []⟩
        some ((r.2.elim s (s.onEvent env)).setClient client c)
      -- `IncompleteReadError`
      else if eof then some (s.setClient client ⟨none, [], eof, sent⟩)
      else none
    | _ => none
  | .telemetry key value =>
    if key ≠ "mission" ∧ key ≠ "state" then
      some { s with dashboard := { s.dashboard with state := s.dashboard.state.update key value } }
    else none
  | .heartbeat now =>
    some { s with dashboard := { s.dashboard with state := s.dashboard.state.heartbeat now } }

/-! ## What should hold -/

/-- The mission of an accepted `set_mission` command. -/
def accepted : PyValue → Option PyStr
  | .dict entries =>
    match get entries "action" .null, get entries "mission" (.str (str "manual")) with
    | .str action, .str mission =>
      if action = str "set_mission" ∧ mission ∈ missions then some mission else none
    | _, _ => none
  | _ => none

/-- Mission and state are known ones, and the missions published are those of the
accepted commands, of which the last is stored. -/
structure Server.Lawful (s : Server) : Prop where
  mission : ∃ mission ∈ missions, s.dashboard.state.data "mission" = some (.str mission)
  state : ∃ state ∈ states, s.dashboard.state.data "state" = some (.str state)
  published : s.dashboard.node.publishMission = s.commands.filterMap accepted
  last : s.dashboard.state.data "mission" =
    some (.str (s.dashboard.node.publishMission.getLast?.getD (str "manual")))

/-! ## One command -/

/-- A command that publishes nothing: the state is stored or nothing is. -/
def Dashboard.Quiet (d d' : Dashboard) : Prop :=
  d'.node.publishMission = d.node.publishMission ∧
    (d'.state = d.state ∨ ∃ state ∈ states, d'.state = d.state.update "state" (.str state))

theorem Dashboard.Quiet.refl (d : Dashboard) : d.Quiet d := ⟨rfl, .inl rfl⟩

theorem Dashboard.Quiet.mission {d d' : Dashboard} (h : d.Quiet d') :
    d'.state.data "mission" = d.state.data "mission" := by
  rcases h.2 with heq | ⟨state, -, heq⟩ <;> rw [heq]
  exact DashboardState.data_update_of_ne (by decide) ..

theorem Dashboard.Quiet.state {d d' : Dashboard} (h : d.Quiet d')
    (hd : ∃ state ∈ states, d.state.data "state" = some (.str state)) :
    ∃ state ∈ states, d'.state.data "state" = some (.str state) := by
  rcases h.2 with heq | ⟨state, hmem, heq⟩ <;> rw [heq]
  · exact hd
  · exact ⟨state, hmem, DashboardState.data_update_self ..⟩

theorem setState_quiet (entries : List (PyStr × PyValue)) (d : Dashboard) :
    d.Quiet ((setState entries d).getD d) := by
  unfold setState
  rcases get entries "state" _ with _ | _ | _ | _ | newState | _ | _
  case str =>
    by_cases h : newState ∈ states
    · simp only [if_pos h]
      exact ⟨rfl, .inr ⟨newState, h, rfl⟩⟩
    · simp only [if_neg h]
      exact .refl d
  all_goals exact .refl d

theorem manualControl_quiet (env : Env) (entries : List (PyStr × PyValue)) (d : Dashboard) :
    d.Quiet ((manualControl env entries d).getD d) := by
  unfold manualControl
  by_cases h : env.hasManualControl = true
  · rw [if_pos h]
    -- nothing is published unless all three numbers are
    rcases env.float (get entries "steering" _) with _ | steer
    · exact .refl d
    rcases env.float (get entries "throttle" _) with _ | throttle
    · exact .refl d
    rcases env.float (get entries "brake" _) with _ | brake
    · exact .refl d
    exact ⟨rfl, .inl rfl⟩
  · rw [if_neg h]
    exact .refl d

theorem accepted_eq_some {cmd : PyValue} {mission : PyStr} (h : accepted cmd = some mission) :
    mission ∈ missions := by
  unfold accepted at h
  split at h
  · split at h
    · split at h
      · rename_i hmission
        obtain rfl := Option.some.inj h
        exact hmission.2
      · cases h
    · cases h
  · cases h

theorem accepted_of_action_ne {entries : List (PyStr × PyValue)}
    (h : ∀ action, get entries "action" .null = .str action → action ≠ str "set_mission") :
    accepted (.dict entries) = none := by
  unfold accepted
  simp only
  split
  · rename_i action mission haction _
    exact if_neg fun hand => h action haction hand.1
  · rfl

/-- The branch `set_mission` publishes and stores what is accepted. -/
theorem setMission_spec {entries : List (PyStr × PyValue)}
    (haction : get entries "action" .null = .str (str "set_mission")) (d : Dashboard) :
    (∃ mission, accepted (.dict entries) = some mission ∧ (setMission entries d).getD d =
      ⟨d.state.update "mission" (.str mission),
        { d.node with publishMission := d.node.publishMission ++ [mission] }⟩) ∨
    (accepted (.dict entries) = none ∧ (setMission entries d).getD d = d) := by
  unfold setMission accepted
  simp only [haction]
  rcases get entries "mission" _ with _ | _ | _ | _ | mission | _ | _
  case str =>
    by_cases h : mission ∈ missions
    · refine .inl ⟨mission, if_pos ⟨rfl, h⟩, ?_⟩
      simp only [if_pos h]
      rfl
    · refine .inr ⟨if_neg fun hand => h hand.2, ?_⟩
      simp only [if_neg h]
      rfl
  all_goals exact .inr ⟨rfl, rfl⟩

/-- **Both or neither.**  An accepted mission is stored and published; any other
command does neither. -/
theorem handleCommand_spec (env : Env) (cmd : PyValue) (d : Dashboard) :
    (∃ mission, accepted cmd = some mission ∧ (handleCommand env cmd d).getD d =
      ⟨d.state.update "mission" (.str mission),
        { d.node with publishMission := d.node.publishMission ++ [mission] }⟩) ∨
    (accepted cmd = none ∧ d.Quiet ((handleCommand env cmd d).getD d)) := by
  rcases cmd with _ | _ | _ | _ | _ | _ | entries
  case dict =>
    unfold handleCommand
    simp only
    cases haction : get entries "action" .null with
    | str action =>
      by_cases hmission : action = str "set_mission"
      · subst hmission
        simp only [if_pos]
        rcases setMission_spec haction d with h | ⟨hnone, hd⟩
        · exact .inl h
        · exact .inr ⟨hnone, by rw [hd]; exact .refl d⟩
      · have hnone : accepted (.dict entries) = none := by
          refine accepted_of_action_ne fun action' haction' => ?_
          rw [haction] at haction'
          obtain rfl := PyValue.str.inj haction'
          exact hmission
        refine .inr ⟨hnone, ?_⟩
        simp only [if_neg hmission]
        by_cases hstate : action = str "set_state"
        · simp only [if_pos hstate]
          exact setState_quiet entries d
        · simp only [if_neg hstate]
          by_cases hmanual : action = str "manual_control"
          · simp only [if_pos hmanual]
            exact manualControl_quiet env entries d
          · simp only [if_neg hmanual]
            exact .refl d
    | _ =>
      refine .inr ⟨accepted_of_action_ne fun action h => ?_, .refl d⟩
      rw [haction] at h
      cases h
  all_goals exact .inr ⟨rfl, .refl d⟩

/-! ## Runs -/

theorem lawful_init : Server.init.Lawful where
  mission := ⟨str "manual", List.mem_cons_self .., rfl⟩
  state := ⟨str "idle", List.mem_cons_self .., rfl⟩
  published := rfl
  last := rfl

/-- A state with the same dashboard and commands. -/
theorem Server.Lawful.congr {s s' : Server} (hs : s.Lawful) (hd : s'.dashboard = s.dashboard)
    (hc : s'.commands = s.commands) : s'.Lawful where
  mission := hd ▸ hs.mission
  state := hd ▸ hs.state
  published := by rw [hd, hc]; exact hs.published
  last := hd ▸ hs.last

/-- **A command** of any client. -/
theorem Server.Lawful.handle {s : Server} (hs : s.Lawful) (env : Env) (cmd : PyValue) :
    (s.handle env cmd).Lawful := by
  rcases handleCommand_spec env cmd s.dashboard with ⟨mission, hacc, hd⟩ | ⟨hacc, hquiet⟩
  · have hdashboard : (s.handle env cmd).dashboard = _ := hd
    refine ⟨⟨mission, accepted_eq_some hacc, ?_⟩, ?_, ?_, ?_⟩ <;> rw [hdashboard]
    · exact DashboardState.data_update_self ..
    · obtain ⟨state, hstate, hdata⟩ := hs.state
      refine ⟨state, hstate, ?_⟩
      exact (DashboardState.data_update_of_ne (by decide) ..).trans hdata
    · rw [Server.handle, List.filterMap_append, ← hs.published]
      simp [hacc]
    · rw [List.getLast?_concat]
      exact DashboardState.data_update_self ..
  · have hquiet : s.dashboard.Quiet (s.handle env cmd).dashboard := hquiet
    refine ⟨?_, hquiet.state hs.state, ?_, ?_⟩
    · rw [hquiet.mission]
      exact hs.mission
    · rw [hquiet.1, Server.handle, List.filterMap_append, ← hs.published]
      simp [hacc]
    · rw [hquiet.mission, hquiet.1]
      exact hs.last

theorem Server.Lawful.onEvent {s : Server} (hs : s.Lawful) (env : Env) (e : Event) :
    (s.onEvent env e).Lawful := by
  unfold Server.onEvent
  cases env.json.command e with
  | none => exact hs
  | some cmd => exact hs.handle env cmd

/-- Telemetry under other keys. -/
theorem Server.Lawful.telemetry {s : Server} (hs : s.Lawful) {state : DashboardState}
    (hmission : state.data "mission" = s.dashboard.state.data "mission")
    (hstate : state.data "state" = s.dashboard.state.data "state") :
    Server.Lawful { s with dashboard := { s.dashboard with state := state } } where
  mission := hmission ▸ hs.mission
  state := hstate ▸ hs.state
  published := hs.published
  last := hmission.trans hs.last

/-- A `handle_ws` that runs to its next `readexactly`. -/
theorem lawful_resume {env : Env} {s s' : Server} {client : Nat} (hs : s.Lawful)
    (h : serverStep env s (.resume client) = some s') : s'.Lawful := by
  simp only [serverStep] at h
  rcases hc : s.clients client with _ | ⟨_ | w, buffer, eof, sent⟩ <;> rw [hc] at h
  · cases h
  · cases h
  · simp only at h
    by_cases hsize : w.size ≤ buffer.length
    · rw [if_pos hsize] at h
      obtain rfl := Option.some.inj h
      have hbase : ((resume w (buffer.take w.size)).2.elim s (s.onEvent env)).Lawful := by
        rcases (resume w (buffer.take w.size)).2 with _ | e
        · exact hs
        · exact hs.onEvent env e
      exact hbase.congr rfl rfl
    · rw [if_neg hsize] at h
      by_cases heof : eof = true
      · rw [if_pos heof] at h
        obtain rfl := Option.some.inj h
        exact hs.congr rfl rfl
      · rw [if_neg heof] at h
        cases h

/-- **One act.** -/
theorem lawful_step {env : Env} {s s' : Server} {a : ServerAct} (hs : s.Lawful)
    (h : serverStep env s a = some s') : s'.Lawful := by
  cases a with
  | connect client =>
    simp only [serverStep] at h
    cases hc : s.clients client with
    | none =>
      rw [hc] at h
      obtain rfl := Option.some.inj h
      exact hs.congr rfl rfl
    | some c =>
      rw [hc] at h
      cases h
  | arrive client bytes =>
    obtain ⟨c, -, rfl⟩ := Option.map_eq_some_iff.mp h
    exact hs.congr rfl rfl
  | eof client =>
    obtain ⟨c, -, rfl⟩ := Option.map_eq_some_iff.mp h
    exact hs.congr rfl rfl
  | abort client =>
    obtain ⟨c, -, rfl⟩ := Option.map_eq_some_iff.mp h
    exact hs.congr rfl rfl
  | resume client => exact lawful_resume hs h
  | telemetry key value =>
    simp only [serverStep] at h
    by_cases hkey : key ≠ "mission" ∧ key ≠ "state"
    · rw [if_pos hkey] at h
      obtain rfl := Option.some.inj h
      exact hs.telemetry (DashboardState.data_update_of_ne hkey.1.symm ..)
        (DashboardState.data_update_of_ne hkey.2.symm ..)
    · rw [if_neg hkey] at h
      cases h
  | heartbeat now =>
    obtain rfl := Option.some.inj h
    exact hs.telemetry (DashboardState.data_heartbeat_of_ne (by decide) ..)
      (DashboardState.data_heartbeat_of_ne (by decide) ..)

/-- **Mission and state are lawful** in every state the server gets into, whatever
its clients send and in whatever order their commands are read. -/
theorem lawful_of_run (env : Env) (acts : List ServerAct) (s : Server)
    (hrun : run (serverStep env) .init acts = some s) : s.Lawful :=
  Reachable.inv ⟨acts, hrun⟩ lawful_init fun _ _ _ hs h => lawful_step hs h

/-- `{"action": "set_mission", "mission": "skidpad"}`. -/
def skidpadCommand : PyValue :=
  .dict [(str "action", .str (str "set_mission")), (str "mission", .str (str "skidpad"))]

/-- The same as it is sent. -/
def skidpadBytes : List UInt8 :=
  "\x7b\"action\": \"set_mission\", \"mission\": \"skidpad\"\x7d".toUTF8.toList

/-- An environment that knows this command. -/
def skidpadEnv : Env where
  json := {
    loads := fun data =>
      if data = [0x7B, 0x7D] then some (.dict [])
      else if data = [0x5B, 0x5D] then some (.list [])
      else if data = skidpadBytes then some skidpadCommand else none
    loads_dict := rfl
    loads_list := rfl }
  float _ := none
  hasManualControl := true

/-- Two clients: the first asks for the skidpad, the second sends an empty list. -/
def twoClients : List ServerAct :=
  [.connect 0, .connect 1, .arrive 1 [0x81, 0x02, 0x5B, 0x5D], .resume 1,
    .arrive 0 ([0x81, UInt8.ofNat skidpadBytes.length] ++ skidpadBytes), .heartbeat (.fin 1),
    .resume 0, .resume 0, .resume 1, .eof 1, .resume 1]

theorem twoClients_lawful : ∃ s, run (serverStep skidpadEnv) .init twoClients = some s ∧
    s.dashboard.node.publishMission = [str "skidpad"] ∧ s.Lawful := by
  obtain ⟨s, hs⟩ : ∃ s, run (serverStep skidpadEnv) .init twoClients = some s :=
    Option.isSome_iff_exists.mp (by decide +kernel)
  have hpublished : ∀ s ∈ run (serverStep skidpadEnv) .init twoClients,
      s.dashboard.node.publishMission = [str "skidpad"] := by decide +kernel
  exact ⟨s, hs, hpublished s hs, lawful_of_run skidpadEnv twoClients s hs⟩

end KartStack.KbDashboard
