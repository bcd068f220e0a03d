import KartStack.BroadcastLoop
import Mathlib.Data.List.Nodup

/-! # The connections of the broadcast

Every run of the server is, for each of its connections, a run of the machine of
`Connection.Move`.  The loop's act is up to three of its moves, one after the other: a
pass ends and clients are discarded, the next one begins, its first frame is sent.
-/
namespace KartStack.KbDashboard
open Transitions

/-! ## What a connection is -/

/-- Where its `handle_ws` is. -/
def Server.phase (s : Server) (w : Nat) : Phase :=
  match s.clients w with
  | none => .fresh
  | some c => if c.wait.isSome then .running else .left

/-- What it was sent. -/
def Server.sentTo (s : Server) (w : Nat) : List UInt8 := ((s.clients w).map Client.sent).getD []

/-- A frame, if it is still to go to a client. -/
def owed (f : UInt8 × List UInt8) (todo : List Nat) (w : Nat) : Option (UInt8 × List UInt8) :=
  if w ∈ todo then some f else none

namespace LoopWait

/-- The clients the frame still has to go to. -/
def todo : LoopWait → List Nat
  | .sleep => []
  | .telemetry _ _ todo _ => todo
  | .hud _ _ todo => todo

/-- What is still to be sent to a client. -/
def pending : LoopWait → Nat → Option (UInt8 × List UInt8)
  | .sleep, _ => none
  | .telemetry snapshot _ todo _, w => owed (0x1, snapshot) todo w
  | .hud jpeg _ todo, w => owed (0x2, jpeg) todo w

end LoopWait

/-- The frames of the passes over a client. -/
def Broadcaster.due (b : Broadcaster) (w : Nat) : List (UInt8 × List UInt8) :=
  b.passes.filterMap fun p => owed (p.opcode, p.data) p.order w

/-- A connection, when something is still to be sent. -/
def Broadcaster.view (b : Broadcaster) (w : Nat) (pending : Option (UInt8 × List UInt8)) :
    Connection :=
  ⟨b.server.phase w, decide (w ∈ b.clients), b.server.sentTo w, b.due w, pending⟩

/-- A connection as it is. -/
def Broadcaster.connection (b : Broadcaster) (w : Nat) : Connection :=
  b.view w (b.wait.pending w)

/-- No client is in `clients` twice or unknown, and so it is with those the frame still
has to go to. -/
structure Broadcaster.Valid (b : Broadcaster) (todo : List Nat) : Prop where
  nodup : b.clients.Nodup
  known : ∀ w ∈ b.clients, b.server.clients w ≠ none
  todo_nodup : todo.Nodup
  todo_known : ∀ w ∈ todo, b.server.clients w ≠ none

/-! ## `handle_ws` -/

theorem Server.setClient_of_ne (s : Server) {w w' : Nat} (h : w' ≠ w) (c : Client) :
    (s.setClient w c).clients w' = s.clients w' := Function.update_of_ne h ..

@[simp] theorem Server.setClient_self (s : Server) (w : Nat) (c : Client) :
    (s.setClient w c).clients w = some c := Function.update_self ..

theorem Server.phase_congr {s s' : Server} {w : Nat} (h : s'.clients w = s.clients w) :
    s'.phase w = s.phase w ∧ s'.sentTo w = s.sentTo w := by
  rw [Server.phase, Server.sentTo, h]
  exact ⟨rfl, rfl⟩

theorem onEvent_clients (env : Env) (s : Server) (e : Event) :
    (s.onEvent env e).clients = s.clients := by
  unfold Server.onEvent
  split <;> rfl

/-- Only a header is answered, and then the next one is awaited. -/
theorem resume_pong {w : Wait} {bytes : List UInt8} {wait : Option Wait} {frame : List UInt8}
    (h : resume w bytes = (wait, some (.pong frame))) :
    wait = some .header ∧ frame = wsSend [] 0xA := by
  unfold resume at h
  split at h
  case h_1 =>
    dsimp only at h
    split at h
    · cases h
    · split at h
      · cases h
        exact ⟨rfl, rfl⟩
      · split at h
        · cases h
        · split at h <;> cases h
  all_goals cases h

/-- A client whose `wait` and `sent` are known. -/
theorem Server.phase_of_some {s : Server} {w : Nat} {c : Client} (h : s.clients w = some c) :
    s.phase w = (if c.wait.isSome then .running else .left) ∧ s.sentTo w = c.sent := by
  rw [Server.phase, Server.sentTo, h]
  exact ⟨rfl, rfl⟩

/-- What an act leaves of the client it is about. -/
theorem serverStep_client {env : Env} {s s' : Server} {act : ServerAct} {client : Nat}
    (h : serverStep env s act = some s') (hact : act.client? = some client)
    (hconnect : act ≠ .connect client) :
    ∃ c c', s.clients client = some c ∧
      s'.clients = Function.update s.clients client (some c') ∧
      (c'.wait.isSome = c.wait.isSome ∧ c'.sent = c.sent ∨
        c.wait.isSome ∧ c'.wait.isSome ∧ c'.sent = c.sent ++ wsSend [] 0xA ∨
        c'.wait = none ∧ c'.sent = c.sent) := by
  cases act with
  | connect _ =>
    cases hact
    exact absurd rfl hconnect
  | arrive _ bytes =>
    cases hact
    obtain ⟨c, hc, rfl⟩ := Option.map_eq_some_iff.mp h
    exact ⟨c, _, hc, rfl, Or.inl ⟨rfl, rfl⟩⟩
  | eof _ =>
    cases hact
    obtain ⟨c, hc, rfl⟩ := Option.map_eq_some_iff.mp h
    exact ⟨c, _, hc, rfl, Or.inl ⟨rfl, rfl⟩⟩
  | abort _ =>
    cases hact
    obtain ⟨c, hc, rfl⟩ := Option.map_eq_some_iff.mp h
    exact ⟨c, _, hc, rfl, Or.inr (Or.inr ⟨rfl, rfl⟩)⟩
  | resume _ =>
    cases hact
    simp only [serverStep] at h
    rcases hc : s.clients client with _ | ⟨_ | wait, buffer, eof, sent⟩ <;> rw [hc] at h
    · cases h
    · cases h
    · simp only at h
      split at h
      · obtain rfl := Option.some.inj h
        rcases hr : resume wait (buffer.take wait.size) with ⟨wait', event⟩
        have hclients : (event.elim s (s.onEvent env)).clients = s.clients := by
          cases event with
          | none => rfl
          | some e => exact onEvent_clients env s e
        refine ⟨_, ⟨wait', buffer.drop wait.size, eof, sent ++ (event.map Event.reply).getD []⟩,
          rfl, congrArg (fun cs => Function.update cs client _) hclients, ?_⟩
        rcases event with _ | ⟨frame⟩ | ⟨opcode, data⟩
        · rcases wait' with _ | wait'
          · exact Or.inr (Or.inr ⟨rfl, List.append_nil _⟩)
          · exact Or.inl ⟨rfl, List.append_nil _⟩
        · obtain ⟨rfl, rfl⟩ := resume_pong hr
          exact Or.inr (Or.inl ⟨rfl, rfl, rfl⟩)
        · rcases wait' with _ | wait'
          · exact Or.inr (Or.inr ⟨rfl, List.append_nil _⟩)
          · exact Or.inl ⟨rfl, List.append_nil _⟩
      · split at h
        · obtain rfl := Option.some.inj h
          exact ⟨_, _, rfl, rfl, Or.inr (Or.inr ⟨rfl, rfl⟩)⟩
        · cases h
  | telemetry _ _ => cases hact
  | heartbeat _ => cases hact

/-- Acts about no client. -/
theorem serverStep_clients {env : Env} {s s' : Server} {act : ServerAct}
    (h : serverStep env s act = some s') (hact : act.client? = none) : s'.clients = s.clients := by
  cases act with
  | telemetry key value =>
    simp only [serverStep] at h
    split at h
    · cases h
      rfl
    · cases h
  | heartbeat now =>
    cases h
    rfl
  | _ => cases hact

/-! ## One act -/

/-- Clients are discarded at most. -/
theorem moves_discard (b b' : Broadcaster) {w : Nat}
    (hserver : b'.server.phase w = b.server.phase w ∧ b'.server.sentTo w = b.server.sentTo w)
    (hdue : b'.due w = b.due w) (hclients : w ∈ b'.clients → w ∈ b.clients)
    (pending : Option (UInt8 × List UInt8)) :
    Connection.Moves (b.view w pending) (b'.view w pending) := by
  simp only [Broadcaster.view, hserver.1, hserver.2, hdue]
  by_cases hmem : w ∈ b'.clients
  · rw [decide_eq_true hmem, decide_eq_true (hclients hmem)]
  · rw [decide_eq_false hmem]
    exact (Connection.Move.discard _).moves

theorem moves_afterHandler {env : Env} {b : Broadcaster} {todo : List Nat} (hb : b.Valid todo)
    {act : ServerAct} {server : Server} (h : serverStep env b.server act = some server)
    (hconnect : ∀ client, act ≠ .connect client) (w : Nat)
    (pending : Option (UInt8 × List UInt8)) :
    Connection.Moves (b.view w pending) ((b.afterHandler act server).view w pending) := by
  cases hact : act.client? with
  | none =>
    have hclients : (b.afterHandler act server).clients = b.clients := by
      rw [Broadcaster.afterHandler, hact]
      rfl
    have hsub : w ∈ (b.afterHandler act server).clients → w ∈ b.clients := by
      rw [hclients]
      exact id
    refine moves_discard b (b.afterHandler act server) ?_ rfl hsub pending
    exact Server.phase_congr (congrFun (serverStep_clients h hact) w)
  | some client =>
    obtain ⟨c, c', hc, hserver, hcases⟩ := serverStep_client h hact (hconnect client)
    have hclients : (b.afterHandler act server).clients =
        if server.running client then b.clients else b.clients.erase client := by
      rw [Broadcaster.afterHandler, hact]
      rfl
    have hsub : w ∈ (b.afterHandler act server).clients → w ∈ b.clients := by
      rw [hclients]
      split
      · exact id
      · exact List.mem_of_mem_erase
    by_cases hw : w = client
    · subst hw
      have hc' : server.clients w = some c' := by
        rw [hserver]
        exact Function.update_self ..
      obtain ⟨hphase, hsent⟩ := Server.phase_of_some hc
      obtain ⟨hphase', hsent'⟩ := Server.phase_of_some hc'
      have hrunning : server.running w = c'.wait.isSome := by
        rw [Server.running, hc']
        rfl
      rcases hcases with ⟨hwait, hsame⟩ | ⟨hwait, hwait', hpong⟩ | ⟨hwait, hsame⟩
      · refine moves_discard b (b.afterHandler act server) ⟨?_, ?_⟩ rfl hsub pending
        · exact hphase'.trans (hwait ▸ hphase.symm)
        · exact hsent'.trans (hsame.trans hsent.symm)
      · have hview : (b.afterHandler act server).view w pending =
            { b.view w pending with sent := (b.view w pending).sent ++ wsSend [] 0xA } := by
          rw [if_pos hwait] at hphase
          rw [if_pos hwait'] at hphase'
          have hphases : server.phase w = b.server.phase w := hphase'.trans hphase.symm
          have hbytes : server.sentTo w = b.server.sentTo w ++ wsSend [] 0xA := by
            rw [hsent', hpong, hsent]
          rw [hrunning, hwait', if_pos rfl] at hclients
          simp only [Broadcaster.view, hclients]
          exact congrArg₂ (fun x y => Connection.mk x _ y _ _) hphases hbytes
        rw [if_pos hwait] at hphase
        rw [hview]
        exact (Connection.Move.pong (b.view w pending) hphase).moves
      · have hview : (b.afterHandler act server).view w pending =
            { b.view w pending with phase := .left, member := false } := by
          rw [hwait] at hphase' hrunning
          have hbytes : server.sentTo w = b.server.sentTo w := by
            rw [hsent', hsame, hsent]
          rw [hrunning, Option.isSome_none, if_neg Bool.false_ne_true] at hclients
          have hgone : w ∉ (b.afterHandler act server).clients := by
            rw [hclients]
            exact hb.nodup.not_mem_erase
          simp only [Broadcaster.view, decide_eq_false hgone]
          exact congrArg₂ (fun x y => Connection.mk x _ y _ _) hphase' hbytes
        have hnotFresh : (b.view w pending).phase ≠ .fresh := by
          change b.server.phase w ≠ .fresh
          rw [hphase]
          split <;> decide
        rw [hview]
        exact (Connection.Move.leave _ hnotFresh).moves
    · refine moves_discard b (b.afterHandler act server) (Server.phase_congr ?_) rfl hsub pending
      change server.clients w = b.server.clients w
      rw [hserver]
      exact Function.update_of_ne hw ..

/-- One client is sent its frame. -/
theorem moves_send {b : Broadcaster} {f : UInt8 × List UInt8} {client : Nat} {todo : List Nat}
    (hb : b.Valid (client :: todo)) (raises : Bool) (w : Nat) :
    Connection.Moves (b.view w (owed f (client :: todo) w))
      ((b.send client f.2 f.1 raises).view w (owed f todo w)) := by
  have hnodup := List.nodup_cons.mp hb.todo_nodup
  by_cases hw : w = client
  · subst hw
    have hpending : owed f (w :: todo) w = some f := if_pos (List.mem_cons_self ..)
    have hdone : owed f todo w = none := if_neg hnodup.1
    rw [hpending, hdone]
    cases raises with
    | true =>
      have hgone : w ∉ b.clients.erase w := hb.nodup.not_mem_erase
      have hview : (b.send w f.2 f.1 true).view w none =
          { b.view w (some f) with member := false, pending := none } := by
        simp only [Broadcaster.send, Broadcaster.view, if_true, decide_eq_false hgone]
        rfl
      rw [hview]
      exact (Connection.Move.lose (b.view w (some f)) f rfl).moves
    | false =>
      obtain ⟨c, hc⟩ := Option.ne_none_iff_exists'.mp (hb.todo_known w (List.mem_cons_self ..))
      have hwrite : (b.server.write w (wsSend f.2 f.1)).clients w =
          some { c with sent := c.sent ++ wsSend f.2 f.1 } := by
        rw [Server.write, hc]
        exact Server.setClient_self ..
      obtain ⟨hphase, hsent⟩ := Server.phase_of_some hc
      obtain ⟨hphase', hsent'⟩ := Server.phase_of_some hwrite
      have hview : (b.send w f.2 f.1 false).view w none =
          { b.view w (some f) with
            sent := (b.view w (some f)).sent ++ wsSend f.2 f.1, pending := none } := by
        have hphases := hphase'.trans hphase.symm
        rw [← hsent] at hsent'
        exact congrArg₂ (fun x y => Connection.mk x _ y _ _) hphases hsent'
      rw [hview]
      exact (Connection.Move.send (b.view w (some f)) f rfl).moves
  · have hpending : owed f (client :: todo) w = owed f todo w := by
      simp only [owed, List.mem_cons, hw, false_or]
    rw [hpending]
    cases raises with
    | true =>
      exact moves_discard b (b.send client f.2 f.1 true) ⟨rfl, rfl⟩ rfl List.mem_of_mem_erase _
    | false =>
      refine moves_discard b (b.send client f.2 f.1 false) (Server.phase_congr ?_) rfl id _
      change (b.server.write client _).clients w = b.server.clients w
      unfold Server.write
      cases b.server.clients client with
      | none => rfl
      | some c => exact Server.setClient_of_ne _ hw _

/-- A pass begins. -/
theorem moves_beginPass {b : Broadcaster} {p : Pass} (hkind : p.opcode = 0x1 ∨ p.opcode = 0x2)
    (horder : p.order.Perm b.clients) (w : Nat) :
    Connection.Moves (b.view w none)
      ((b.beginPass p).view w (owed (p.opcode, p.data) p.order w)) := by
  have hdue : (b.beginPass p).due w =
      b.due w ++ (owed (p.opcode, p.data) p.order w).toList := by
    simp only [Broadcaster.due, Broadcaster.beginPass, List.filterMap_append]
    cases h : owed (p.opcode, p.data) p.order w <;> simp [h]
  by_cases hw : w ∈ p.order
  · have howed : owed (p.opcode, p.data) p.order w = some (p.opcode, p.data) := if_pos hw
    rw [howed] at hdue ⊢
    have hmember : (b.view w none).member = true := decide_eq_true (horder.mem_iff.mp hw)
    have hmove := Connection.Move.owe (b.view w none) (p.opcode, p.data) hmember rfl hkind
    have hview : (b.beginPass p).view w (some (p.opcode, p.data)) =
        { b.view w none with
          due := (b.view w none).due ++ [(p.opcode, p.data)]
          pending := some (p.opcode, p.data) } :=
      congrArg (fun due => Connection.mk _ _ _ due _) hdue
    rw [hview]
    exact hmove.moves
  · have howed : owed (p.opcode, p.data) p.order w = none := if_neg hw
    rw [howed] at hdue ⊢
    rw [Option.toList_none, List.append_nil] at hdue
    exact moves_discard b (b.beginPass p) ⟨rfl, rfl⟩ hdue id none

/-! ## The loop -/

theorem Broadcaster.Valid.send {b : Broadcaster} {client : Nat} {todo : List Nat}
    (hb : b.Valid (client :: todo)) (data : List UInt8) (opcode : UInt8) (raises : Bool) :
    (b.send client data opcode raises).Valid todo := by
  have htodo := (List.nodup_cons.mp hb.todo_nodup).2
  have hknown : ∀ w ∈ todo, b.server.clients w ≠ none :=
    fun w hw => hb.todo_known w (List.mem_cons_of_mem _ hw)
  cases raises with
  | true =>
    exact ⟨hb.nodup.erase _, fun w hw => hb.known w (List.mem_of_mem_erase hw), htodo, hknown⟩
  | false =>
    have hmono : ∀ w, b.server.clients w ≠ none →
        (b.server.write client (wsSend data opcode)).clients w ≠ none := by
      intro w hw
      unfold Server.write
      cases hc : b.server.clients client with
      | none => exact hw
      | some c =>
        by_cases hwc : w = client
        · rw [hwc]
          exact Option.some_ne_none _ ∘ (Server.setClient_self ..).symm.trans
        · rw [Option.elim_some, Server.setClient_of_ne _ hwc]
          exact hw
    exact ⟨hb.nodup, fun w hw => hmono w (hb.known w hw), htodo, fun w hw => hmono w (hknown w hw)⟩

/-- From a state in which something is still to be sent: the connections move, and the
sets stay as they should be. -/
def Broadcaster.Refines (b : Broadcaster) (pending : Nat → Option (UInt8 × List UInt8))
    (b' : Broadcaster) : Prop :=
  b'.Valid b'.wait.todo ∧ ∀ w, Connection.Moves (b.view w (pending w)) (b'.connection w)

theorem Broadcaster.Refines.trans {b b₁ b' : Broadcaster}
    {pending pending₁ : Nat → Option (UInt8 × List UInt8)}
    (hmoves : ∀ w, Connection.Moves (b.view w (pending w)) (b₁.view w (pending₁ w)))
    (h : b₁.Refines pending₁ b') : b.Refines pending b' :=
  ⟨h.1, fun w => (hmoves w).trans (h.2 w)⟩

theorem owed_nil (f : UInt8 × List UInt8) (w : Nat) : owed f [] w = none :=
  if_neg List.not_mem_nil

theorem telemetryFrom_refines {b : Broadcaster} {client : Nat} {todo : List Nat}
    (hb : b.Valid (client :: todo)) (snapshot : List UInt8) (dead : List Nat) (raises : Bool) :
    b.Refines (owed (0x1, snapshot) (client :: todo))
      (b.telemetryFrom snapshot dead raises client todo) := by
  have hvalid := hb.send snapshot 0x1 raises
  exact ⟨⟨hvalid.nodup, hvalid.known, hvalid.todo_nodup, hvalid.todo_known⟩,
    fun w => moves_send (f := (0x1, snapshot)) hb raises w⟩

theorem hudFrom_refines {b : Broadcaster} {todo : List Nat} (hb : b.Valid todo)
    (jpeg : List UInt8) (raises : Bool) :
    b.Refines (owed (0x2, jpeg) todo) (b.hudFrom jpeg raises todo) := by
  cases todo with
  | nil =>
    refine ⟨⟨hb.nodup, hb.known, hb.todo_nodup, hb.todo_known⟩, fun w => ?_⟩
    rw [owed_nil]
    exact .refl
  | cons client todo =>
    have hvalid := hb.send jpeg 0x2 raises
    exact ⟨⟨hvalid.nodup, hvalid.known, hvalid.todo_nodup, hvalid.todo_known⟩,
      fun w => moves_send (f := (0x2, jpeg)) hb raises w⟩

theorem Broadcaster.Valid.beginPass {b : Broadcaster} {todo : List Nat} (hb : b.Valid todo)
    {p : Pass} (horder : p.order.Perm b.clients) : (b.beginPass p).Valid p.order :=
  ⟨hb.nodup, hb.known, horder.symm.nodup hb.nodup, fun w hw => hb.known w (horder.mem_iff.mp hw)⟩

theorem Broadcaster.Valid.sublist {b b' : Broadcaster} {todo : List Nat} (hb : b.Valid todo)
    (hserver : ∀ w, b.server.clients w ≠ none → b'.server.clients w ≠ none)
    (hclients : List.Sublist b'.clients b.clients) : b'.Valid todo :=
  ⟨hb.nodup.sublist hclients, fun w hw => hserver w (hb.known w (hclients.subset hw)),
    hb.todo_nodup, fun w hw => hserver w (hb.todo_known w hw)⟩

theorem afterTelemetry_refines {b b' : Broadcaster} (hb : b.Valid []) {dead : List Nat}
    {jpeg : Option (List UInt8)} {order : List Nat} {raises : Bool}
    (h : b.afterTelemetry dead jpeg order raises = some b') : b.Refines (fun _ => none) b' := by
  rw [Broadcaster.afterTelemetry] at h
  generalize hb₁ : ({ b with
    clients := b.clients.filter fun client => client ∉ dead
    frameCounter := b.frameCounter + 1 } : Broadcaster) = b₁ at h
  have hsub : List.Sublist b₁.clients b.clients := by
    rw [← hb₁]
    exact List.filter_sublist
  have hvalid : b₁.Valid [] := hb.sublist (by rw [← hb₁]; exact fun _ hw => hw) hsub
  have hmoves : ∀ w, Connection.Moves (b.view w none) (b₁.view w none) := by
    intro w
    refine moves_discard b b₁ ?_ ?_ (fun hw => hsub.subset hw) none
    · rw [← hb₁]
      exact ⟨rfl, rfl⟩
    · rw [← hb₁]
      rfl
  split at h
  · split at h
    · rename_i horder
      obtain rfl := Option.some.inj h
      refine .trans (fun w => (hmoves w).trans ?_)
        (hudFrom_refines (hvalid.beginPass (p := ⟨0x2, jpeg.getD [], order⟩) horder) _ raises)
      exact moves_beginPass (p := ⟨0x2, jpeg.getD [], order⟩) (Or.inr rfl) horder w
    · cases h
  · obtain rfl := Option.some.inj h
    exact ⟨⟨hvalid.nodup, hvalid.known, hvalid.todo_nodup, hvalid.todo_known⟩, hmoves⟩

/-! ## `ws_accept` and `handle_ws` -/

theorem serverStep_known {env : Env} {s s' : Server} {act : ServerAct}
    (h : serverStep env s act = some s') (hconnect : ∀ client, act ≠ .connect client) {w : Nat}
    (hw : s.clients w ≠ none) : s'.clients w ≠ none := by
  cases hact : act.client? with
  | none => rwa [serverStep_clients h hact]
  | some client =>
    obtain ⟨c, c', -, hs', -⟩ := serverStep_client h hact (hconnect client)
    rw [hs']
    by_cases hwc : w = client
    · rw [hwc, Function.update_self]
      exact Option.some_ne_none c'
    · rwa [Function.update_of_ne hwc]

theorem broadcastStep_handler {env : Env} {dumps : (String → Option PyValue) → List UInt8}
    {b b' : Broadcaster} {act : ServerAct}
    (h : broadcastStep env dumps b (.handler act) = some b') :
    (∀ client, act ≠ .connect client) ∧
      ∃ server, serverStep env b.server act = some server ∧ b' = b.afterHandler act server := by
  by_cases hconnect : ∃ client, act = .connect client
  · obtain ⟨client, rfl⟩ := hconnect
    cases h
  · have hne : ∀ client, act ≠ .connect client := fun client heq => hconnect ⟨client, heq⟩
    have hstep : (serverStep env b.server act).map (b.afterHandler act) = some b' := by
      cases act with
      | connect client => exact absurd rfl (hne client)
      | _ => exact h
    obtain ⟨server, hserver, rfl⟩ := Option.map_eq_some_iff.mp hstep
    exact ⟨hne, server, hserver, rfl⟩

theorem afterHandler_refines {env : Env} {b : Broadcaster} (hb : b.Valid b.wait.todo)
    {act : ServerAct} {server : Server} (h : serverStep env b.server act = some server)
    (hconnect : ∀ client, act ≠ .connect client) :
    b.Refines b.wait.pending (b.afterHandler act server) := by
  refine ⟨hb.sublist (fun w => serverStep_known h hconnect) ?_,
    fun w => moves_afterHandler hb h hconnect w _⟩
  rw [Broadcaster.afterHandler]
  cases act.client? with
  | none => exact List.Sublist.refl _
  | some client =>
    rw [Option.elim_some]
    split
    · exact List.Sublist.refl _
    · exact List.erase_sublist

theorem enter_refines {env : Env} {b : Broadcaster} (hb : b.Valid b.wait.todo) {client : Nat}
    {server : Server} (h : serverStep env b.server (.connect client) = some server) :
    b.Refines b.wait.pending
      { b with
        server := server
        upgraded := b.upgraded.erase client
        clients := b.clients.insert client } := by
  simp only [serverStep] at h
  cases hc : b.server.clients client with
  | some c =>
    rw [hc] at h
    cases h
  | none =>
    rw [hc] at h
    obtain rfl := Option.some.inj h
    have hmono : ∀ w, b.server.clients w ≠ none →
        (b.server.setClient client .init).clients w ≠ none := by
      intro w hw
      have hne : w ≠ client := by
        rintro rfl
        exact hw hc
      rwa [Server.setClient_of_ne _ hne]
    refine ⟨⟨hb.nodup.insert, fun w hw => ?_, hb.todo_nodup,
      fun w hw => hmono w (hb.todo_known w hw)⟩, fun w => ?_⟩
    · rcases List.mem_insert_iff.mp hw with rfl | hw
      · exact Option.some_ne_none _ ∘ (Server.setClient_self ..).symm.trans
      · exact hmono w (hb.known w hw)
    · by_cases hw : w = client
      · subst hw
        obtain ⟨hphase, hsent⟩ := Server.phase_of_some (Server.setClient_self b.server w .init)
        have hfresh : b.server.phase w = .fresh := by
          rw [Server.phase, hc]
        have hnothing : b.server.sentTo w = [] := by
          rw [Server.sentTo, hc]
          rfl
        have hmem : w ∈ b.clients.insert w := List.mem_insert_self ..
        have hview : Broadcaster.connection
            { b with
              server := b.server.setClient w .init
              upgraded := b.upgraded.erase w
              clients := b.clients.insert w } w =
            { b.connection w with phase := .running, member := true } := by
          simp only [Broadcaster.connection, Broadcaster.view, decide_eq_true hmem]
          exact congrArg₂ (fun x y => Connection.mk x _ y _ _) hphase (hsent.trans hnothing.symm)
        rw [hview]
        exact (Connection.Move.enter (b.connection w) hfresh).moves
      · refine moves_discard b { b with
          server := b.server.setClient client .init
          upgraded := b.upgraded.erase client
          clients := b.clients.insert client } ?_ rfl ?_ _
        · exact Server.phase_congr (Server.setClient_of_ne _ hw _)
        · exact fun hmem => (List.mem_insert_iff.mp hmem).resolve_left hw

theorem pongRaises_refines {b : Broadcaster} (hb : b.Valid b.wait.todo) {client : Nat}
    {c c' : Client} (hc : b.server.clients client = some c)
    (hwait : c'.wait.isSome = c.wait.isSome) (hsent : c'.sent = c.sent) :
    b.Refines b.wait.pending
      { b with
        server := b.server.setClient client c'
        clients := b.clients.erase client } := by
  refine ⟨hb.sublist (fun w hw => ?_) List.erase_sublist, fun w => ?_⟩
  · by_cases hwc : w = client
    · rw [hwc]
      exact Option.some_ne_none _ ∘ (Server.setClient_self ..).symm.trans
    · change (b.server.setClient client c').clients w ≠ none
      rwa [Server.setClient_of_ne _ hwc]
  · refine moves_discard b { b with
      server := b.server.setClient client c'
      clients := b.clients.erase client } ?_ rfl List.mem_of_mem_erase _
    by_cases hwc : w = client
    · subst hwc
      obtain ⟨hphase, hbytes⟩ := Server.phase_of_some hc
      obtain ⟨hphase', hbytes'⟩ := Server.phase_of_some (Server.setClient_self b.server w c')
      exact ⟨hphase'.trans (hwait ▸ hphase.symm), hbytes'.trans (hsent.trans hbytes.symm)⟩
    · exact Server.phase_congr (Server.setClient_of_ne _ hwc _)

/-! ## A run -/

/-- **Every act** is some moves of every connection. -/
theorem refines_of_step {env : Env} {dumps : (String → Option PyValue) → List UInt8}
    {b b' : Broadcaster} (hb : b.Valid b.wait.todo) {act : BroadcastAct}
    (h : broadcastStep env dumps b act = some b') : b.Refines b.wait.pending b' := by
  cases act with
  | upgrade client =>
    simp only [broadcastStep] at h
    split at h
    · obtain rfl := Option.some.inj h
      exact ⟨hb.sublist (fun _ hw => hw) (List.Sublist.refl _), fun w => .refl⟩
    · cases h
  | refuse client =>
    simp only [broadcastStep] at h
    split at h
    · obtain rfl := Option.some.inj h
      exact ⟨hb.sublist (fun _ hw => hw) (List.Sublist.refl _), fun w => .refl⟩
    · cases h
  | enter client =>
    simp only [broadcastStep] at h
    split at h
    · obtain ⟨server, hserver, rfl⟩ := Option.map_eq_some_iff.mp h
      exact enter_refines hb hserver
    · cases h
  | handler act =>
    obtain ⟨hne, server, hserver, rfl⟩ := broadcastStep_handler h
    exact afterHandler_refines hb hserver hne
  | pongRaises client =>
    simp only [broadcastStep] at h
    rcases hc : b.server.clients client with _ | ⟨_ | wait, buffer, eof, sent⟩ <;> rw [hc] at h
    · cases h
    · cases h
    · simp only at h
      split at h
      · rcases hr : resume wait (buffer.take wait.size) with ⟨wait', _ | ⟨frame⟩ | _⟩ <;>
          rw [hr] at h
        · cases h
        · obtain rfl := Option.some.inj h
          obtain ⟨rfl, -⟩ := resume_pong hr
          exact pongRaises_refines hb hc rfl rfl
        · cases h
      · cases h
  | wake now order raises =>
    simp only [broadcastStep] at h
    cases hwait : b.wait with
    | sleep =>
      rw [hwait] at h hb
      simp only at h
      split at h
      · rename_i horder
        cases order with
        | nil =>
          obtain rfl := Option.some.inj h
          have hconnection : ∀ w, b.connection w = b.view w none := by
            intro w
            rw [Broadcaster.connection, hwait]
            rfl
          refine ⟨hwait ▸ hb, fun w => ?_⟩
          rw [hconnection]
          exact .refl
        | cons client todo =>
          obtain rfl := Option.some.inj h
          generalize dumps (b.server.dashboard.state.snapshot now) = snapshot
          refine .trans (fun w => ?_) (telemetryFrom_refines
            (hb.beginPass (p := ⟨0x1, snapshot, client :: todo⟩) horder) snapshot [] raises)
          exact moves_beginPass (p := ⟨0x1, snapshot, client :: todo⟩) (Or.inl rfl) horder w
      · cases h
    | telemetry _ _ _ _ =>
      rw [hwait] at h
      cases h
    | hud _ _ _ =>
      rw [hwait] at h
      cases h
  | drained ok jpeg order raises =>
    simp only [broadcastStep] at h
    cases hwait : b.wait with
    | sleep =>
      rw [hwait] at h
      cases h
    | telemetry snapshot draining todo dead =>
      rw [hwait] at h hb
      cases todo with
      | nil =>
        refine .trans (fun w => ?_) (afterTelemetry_refines hb h)
        rw [LoopWait.pending, owed_nil]
      | cons client todo =>
        obtain rfl := Option.some.inj h
        exact telemetryFrom_refines hb snapshot _ raises
    | hud picture draining todo =>
      rw [hwait] at h hb
      obtain rfl := Option.some.inj h
      cases ok with
      | true => exact hudFrom_refines hb picture raises
      | false =>
        let b₁ := { b with clients := b.clients.erase draining, wait := .hud picture draining todo }
        have hvalid : b₁.Valid todo := hb.sublist (fun _ hw => hw) List.erase_sublist
        refine .trans (fun w => ?_) (hudFrom_refines hvalid picture raises)
        exact moves_discard b b₁ ⟨rfl, rfl⟩ rfl List.mem_of_mem_erase _

theorem refines_of_run {env : Env} {dumps : (String → Option PyValue) → List UInt8}
    {b b' : Broadcaster} (hb : b.Valid b.wait.todo) {acts : List BroadcastAct}
    (hrun : run (broadcastStep env dumps) b acts = some b') : b.Refines b.wait.pending b' := by
  induction acts generalizing b with
  | nil =>
    obtain rfl := Option.some.inj hrun
    exact ⟨hb, fun w => .refl⟩
  | cons act acts ih =>
    obtain ⟨b₁, hstep, hrun⟩ := run_cons_eq_some _ hrun
    have hfirst := refines_of_step hb hstep
    exact .trans hfirst.2 (ih hfirst.1 hrun)

theorem valid_init : Broadcaster.init.Valid [] :=
  ⟨List.nodup_nil, (fun _ hw => by cases hw), List.nodup_nil, (fun _ hw => by cases hw)⟩

/-- What every connection is like after a run. -/
theorem sound_of_run {env : Env} {dumps : (String → Option PyValue) → List UInt8}
    {acts : List BroadcastAct} {b : Broadcaster}
    (hrun : run (broadcastStep env dumps) .init acts = some b) (w : Nat) :
    (b.connection w).Sound := by
  have hmoves := (refines_of_run valid_init hrun).2 w
  have hinit : Broadcaster.init.view w none = .init := rfl
  change Connection.Moves (Broadcaster.init.view w none) _ at hmoves
  rw [hinit] at hmoves
  exact Connection.sound_init.moves hmoves

/-- Telemetry with a known mission and a known state. -/
def Tells (dumps : (String → Option PyValue) → List UInt8) (data : List UInt8) : Prop :=
  ∃ snapshot, data = dumps snapshot ∧
    (∃ mission ∈ missions, snapshot "mission" = some (.str mission)) ∧
    ∃ state ∈ states, snapshot "state" = some (.str state)

/-- The server is lawful, and so is what has been told. -/
structure Broadcaster.Lawful (dumps : (String → Option PyValue) → List UInt8) (b : Broadcaster) :
    Prop where
  server : b.server.Lawful
  passes : ∀ p ∈ b.passes, p.opcode = 0x2 ∨ p.opcode = 0x1 ∧ Tells dumps p.data

section Lawful
variable {dumps : (String → Option PyValue) → List UInt8}

theorem Broadcaster.Lawful.congr {b b' : Broadcaster} (hb : b.Lawful dumps)
    (hserver : b'.server.Lawful) (hpasses : b'.passes = b.passes) : b'.Lawful dumps :=
  ⟨hserver, hpasses ▸ hb.passes⟩

theorem Server.Lawful.write {s : Server} (hs : s.Lawful) (w : Nat) (bytes : List UInt8) :
    (s.write w bytes).Lawful := by
  unfold Server.write
  cases s.clients w with
  | none => exact hs
  | some c => exact hs.congr rfl rfl

theorem Broadcaster.Lawful.send {b : Broadcaster} (hb : b.Lawful dumps) (w : Nat)
    (data : List UInt8) (opcode : UInt8) (raises : Bool) :
    (b.send w data opcode raises).Lawful dumps := by
  unfold Broadcaster.send
  split
  · exact hb.congr hb.server rfl
  · exact hb.congr (hb.server.write w _) rfl

theorem Broadcaster.Lawful.hudFrom {b : Broadcaster} (hb : b.Lawful dumps) (jpeg : List UInt8)
    (raises : Bool) (todo : List Nat) : (b.hudFrom jpeg raises todo).Lawful dumps := by
  cases todo with
  | nil => exact hb.congr hb.server rfl
  | cons client todo =>
    have hsend := hb.send client jpeg 0x2 raises
    exact ⟨hsend.server, hsend.passes⟩

theorem Broadcaster.Lawful.telemetryFrom {b : Broadcaster} (hb : b.Lawful dumps)
    (snapshot : List UInt8) (dead : List Nat) (raises : Bool) (client : Nat) (todo : List Nat) :
    (b.telemetryFrom snapshot dead raises client todo).Lawful dumps := by
  have hsend := hb.send client snapshot 0x1 raises
  exact ⟨hsend.server, hsend.passes⟩

theorem Broadcaster.Lawful.beginPass {b : Broadcaster} (hb : b.Lawful dumps) {p : Pass}
    (hp : p.opcode = 0x2 ∨ p.opcode = 0x1 ∧ Tells dumps p.data) : (b.beginPass p).Lawful dumps := by
  refine ⟨hb.server, fun q hq => ?_⟩
  rcases List.mem_append.mp hq with hq | hq
  · exact hb.passes q hq
  · rwa [List.mem_singleton.mp hq]

/-- A snapshot of a lawful server tells what it should. -/
theorem tells_snapshot {b : Broadcaster} (hb : b.Lawful dumps) (now : CFloat) :
    Tells dumps (dumps (b.server.dashboard.state.snapshot now)) := by
  refine ⟨_, rfl, ?_, ?_⟩
  · rw [DashboardState.snapshot_eq_data (by decide) (by decide)]
    exact hb.server.mission
  · rw [DashboardState.snapshot_eq_data (by decide) (by decide)]
    exact hb.server.state

theorem Broadcaster.Lawful.afterTelemetry {b b' : Broadcaster} (hb : b.Lawful dumps)
    {dead : List Nat} {jpeg : Option (List UInt8)} {order : List Nat} {raises : Bool}
    (h : b.afterTelemetry dead jpeg order raises = some b') : b'.Lawful dumps := by
  rw [Broadcaster.afterTelemetry] at h
  generalize hb₁ : ({ b with
    clients := b.clients.filter fun client => client ∉ dead
    frameCounter := b.frameCounter + 1 } : Broadcaster) = b₁ at h
  have hlawful : b₁.Lawful dumps := by
    rw [← hb₁]
    exact hb.congr hb.server rfl
  split at h
  · split at h
    · obtain rfl := Option.some.inj h
      exact (hlawful.beginPass (Or.inl rfl)).hudFrom ..
    · cases h
  · obtain rfl := Option.some.inj h
    exact hlawful.congr hlawful.server rfl

theorem Broadcaster.Lawful.step {env : Env} {b b' : Broadcaster} (hb : b.Lawful dumps)
    {act : BroadcastAct} (h : broadcastStep env dumps b act = some b') : b'.Lawful dumps := by
  cases act with
  | upgrade client =>
    simp only [broadcastStep] at h
    split at h
    · obtain rfl := Option.some.inj h
      exact hb.congr hb.server rfl
    · cases h
  | refuse client =>
    simp only [broadcastStep] at h
    split at h
    · obtain rfl := Option.some.inj h
      exact hb.congr hb.server rfl
    · cases h
  | enter client =>
    simp only [broadcastStep] at h
    split at h
    · obtain ⟨server, hserver, rfl⟩ := Option.map_eq_some_iff.mp h
      exact hb.congr (lawful_step hb.server hserver) rfl
    · cases h
  | handler act =>
    obtain ⟨-, server, hserver, rfl⟩ := broadcastStep_handler h
    exact hb.congr (lawful_step hb.server hserver) rfl
  | pongRaises client =>
    simp only [broadcastStep] at h
    rcases hc : b.server.clients client with _ | ⟨_ | wait, buffer, eof, sent⟩ <;> rw [hc] at h
    · cases h
    · cases h
    · simp only at h
      split at h
      · split at h
        · obtain rfl := Option.some.inj h
          exact hb.congr (hb.server.congr rfl rfl) rfl
        · cases h
      · cases h
  | wake now order raises =>
    simp only [broadcastStep] at h
    split at h
    · split at h
      · cases order with
        | nil =>
          obtain rfl := Option.some.inj h
          exact hb
        | cons client todo =>
          obtain rfl := Option.some.inj h
          exact (hb.beginPass (Or.inr ⟨rfl, tells_snapshot hb now⟩)).telemetryFrom ..
      · cases h
    · cases h
  | drained ok jpeg order raises =>
    simp only [broadcastStep] at h
    split at h
    · cases h
    · rename_i snapshot draining todo dead _
      cases todo with
      | nil =>
        exact hb.afterTelemetry h
      | cons client todo =>
        obtain rfl := Option.some.inj h
        exact hb.telemetryFrom ..
    · rename_i draining _ _
      obtain rfl := Option.some.inj h
      cases ok with
      | true => exact hb.hudFrom ..
      | false =>
        let b₁ : Broadcaster := { b with clients := b.clients.erase draining }
        have hdiscard : b₁.Lawful dumps := hb.congr hb.server rfl
        exact hdiscard.hudFrom ..

theorem lawful_of_broadcast {env : Env} {acts : List BroadcastAct} {b : Broadcaster}
    (hrun : run (broadcastStep env dumps) .init acts = some b) : b.Lawful dumps :=
  Reachable.inv ⟨acts, hrun⟩ ⟨lawful_init, fun _ hp => by cases hp⟩ fun _ _ _ hb h => hb.step h

theorem tells_due {b : Broadcaster} (hb : b.Lawful dumps) {w : Nat} {f : UInt8 × List UInt8}
    (hf : f ∈ b.due w) : f.1 = 0x2 ∨ f.1 = 0x1 ∧ Tells dumps f.2 := by
  obtain ⟨p, hp, howed⟩ := List.mem_filterMap.mp hf
  rw [owed] at howed
  split at howed
  · obtain rfl := Option.some.inj howed
    exact hb.passes p hp
  · cases howed

end Lawful

/-- **The broadcast is in order.**  What a client was sent are whole frames: answers to
its pings, pictures, and telemetry with a known mission and state.  Those of the
broadcast are the frames of the passes begun while it was in `clients`, in order and
each once; the last one is missing while it is still to be sent, or because
`writer.write` raised, and then the client has been discarded.  And `clients` has only
those whose `handle_ws` runs. -/
theorem broadcast_in_order {env : Env} {dumps : (String → Option PyValue) → List UInt8}
    {acts : List BroadcastAct} {b : Broadcaster}
    (hrun : run (broadcastStep env dumps) .init acts = some b) {w : Nat} {c : Client}
    (hc : b.server.clients w = some c) :
    (∃ frames, c.sent = Connection.bytes frames ∧
      (∀ f ∈ frames, f = (0xA, []) ∨ f.1 = 0x2 ∨ f.1 = 0x1 ∧ Tells dumps f.2) ∧
      (Connection.broadcasts frames ++ (b.wait.pending w).toList = b.due w ∨
        (w ∉ b.clients ∧ b.wait.pending w = none ∧
          ∃ lost, Connection.broadcasts frames ++ [lost] = b.due w))) ∧
    (w ∈ b.clients → c.wait.isSome) := by
  have hsound := sound_of_run hrun w
  have hlawful := lawful_of_broadcast hrun
  obtain ⟨hphase, hsent⟩ := Server.phase_of_some hc
  obtain ⟨frames, hbytes, hkinds, haccount⟩ := hsound.account
  refine ⟨⟨frames, hsent.symm.trans hbytes, fun f hf => ?_, ?_⟩, fun hmem => ?_⟩
  · exact (hkinds f hf).imp_right (tells_due hlawful)
  · exact haccount.imp_right fun hlost => ⟨of_decide_eq_false hlost.1, hlost.2⟩
  · have hrunning : b.server.phase w = .running := hsound.running (decide_eq_true hmem)
    rw [hphase] at hrunning
    split at hrunning
    · assumption
    · cases hrunning

/-- Two clients, of which the second leaves while the first is drained. -/
def twoWatchers : List BroadcastAct :=
  [.upgrade 0, .enter 0, .upgrade 1, .enter 1, .wake (.fin 1) [0, 1] false, .handler (.abort 1)]

/-- The first one is sent two frames. -/
theorem broadcast_in_order_two :
    ∃ b c, run (broadcastStep skidpadEnv fun _ => [0x7B, 0x7D]) .init
        (twoWatchers ++ [.drained true none [] false, .drained true none [] false,
          .wake (.fin 2) [0] false, .drained true none [] false]) = some b ∧
      b.server.clients 0 = some c ∧
      c.sent = wsSend [0x7B, 0x7D] 0x1 ++ wsSend [0x7B, 0x7D] 0x1 ∧
      (∃ frames, c.sent = Connection.bytes frames ∧
        (∀ f ∈ frames, f = (0xA, []) ∨ f.1 = 0x2 ∨ f.1 = 0x1 ∧ Tells (fun _ => [0x7B, 0x7D]) f.2) ∧
        (Connection.broadcasts frames ++ (b.wait.pending 0).toList = b.due 0 ∨
          (0 ∉ b.clients ∧ b.wait.pending 0 = none ∧
            ∃ lost, Connection.broadcasts frames ++ [lost] = b.due 0))) ∧
      (0 ∈ b.clients → c.wait.isSome) := by
  obtain ⟨b, hb⟩ : ∃ b, run (broadcastStep skidpadEnv fun _ => [0x7B, 0x7D]) .init
      (twoWatchers ++ [.drained true none [] false, .drained true none [] false,
        .wake (.fin 2) [0] false, .drained true none [] false]) = some b :=
    Option.isSome_iff_exists.mp (by decide +kernel)
  have hsent : ∀ b ∈ run (broadcastStep skidpadEnv fun _ => [0x7B, 0x7D]) .init
      (twoWatchers ++ [.drained true none [] false, .drained true none [] false,
        .wake (.fin 2) [0] false, .drained true none [] false]),
      (b.server.clients 0).map Client.sent =
        some (wsSend [0x7B, 0x7D] 0x1 ++ wsSend [0x7B, 0x7D] 0x1) := by decide +kernel
  obtain ⟨c, hc, hbytes⟩ := Option.map_eq_some_iff.mp (hsent b hb)
  exact ⟨b, c, hb, hc, hbytes, broadcast_in_order hb hc⟩

/-- **Silence.**  However the server runs on, a client whose `handle_ws` has been left is
sent no frame but the one that was still to go to it then. -/
theorem silent_after_leaving {env : Env} {dumps : (String → Option PyValue) → List UInt8}
    {acts acts' : List BroadcastAct} {b b' : Broadcaster}
    (hrun : run (broadcastStep env dumps) .init acts = some b)
    (hrun' : run (broadcastStep env dumps) b acts' = some b') {w : Nat} {c : Client}
    (hc : b.server.clients w = some c) (hleft : c.wait = none) :
    ∃ c', b'.server.clients w = some c' ∧ c'.wait = none ∧ w ∉ b'.clients ∧
      (c'.sent = c.sent ∨
        ∃ f, b.wait.pending w = some f ∧ c'.sent = c.sent ++ wsSend f.2 f.1) := by
  have hsound := sound_of_run hrun w
  have hvalid := (refines_of_run valid_init hrun).1
  obtain ⟨hphase, hsent⟩ := Server.phase_of_some hc
  rw [hleft] at hphase
  have hmember : (b.connection w).member = false := by
    by_contra hmem
    have hrunning := hsound.running (Bool.eq_true_of_not_eq_false hmem)
    exact absurd (hphase.symm.trans hrunning) (by decide)
  have hstart : Connection.Silent (b.connection w) (b.connection w) :=
    ⟨hphase, hmember, [], (List.append_nil _).symm, Or.inl rfl⟩
  obtain ⟨hphase', hmember', frames, hbytes, haccount⟩ :=
    hstart.moves ((refines_of_run hvalid hrun').2 w)
  change b'.server.phase w = .left at hphase'
  have hnone : b'.server.clients w ≠ none := by
    intro hnone
    rw [Server.phase, hnone] at hphase'
    cases hphase'
  obtain ⟨c', hc'⟩ := Option.ne_none_iff_exists'.mp hnone
  obtain ⟨hwait', hsent'⟩ := Server.phase_of_some hc'
  rw [hphase'] at hwait'
  refine ⟨c', hc', ?_, of_decide_eq_false hmember', ?_⟩
  · by_contra hsome
    rw [if_pos (Option.isSome_iff_ne_none.mpr hsome)] at hwait'
    cases hwait'
  · change b'.server.sentTo w = b.server.sentTo w ++ _ at hbytes
    change frames ++ _ = (b.wait.pending w).toList ∨ _ at haccount
    rw [hsent, hsent'] at hbytes
    cases frames with
    | nil => exact Or.inl (hbytes.trans (List.append_nil _))
    | cons f rest =>
      right
      rcases haccount with hrest | ⟨hnil, -⟩
      · cases hpending : b.wait.pending w with
        | none =>
          rw [hpending] at hrest
          cases hrest
        | some g =>
          rw [hpending] at hrest
          obtain ⟨rfl, htail⟩ := List.cons.inj (hrest : f :: (rest ++ _) = [g])
          obtain ⟨rfl, -⟩ := List.append_eq_nil_iff.mp htail
          exact ⟨f, rfl, hbytes.trans (congrArg (c.sent ++ ·) (List.append_nil _))⟩
      · cases hnil

/-- The second client is sent what was on its way, and no more. -/
theorem silent_after_leaving_two :
    ∃ b b' c c', run (broadcastStep skidpadEnv fun _ => [0x7B, 0x7D]) .init twoWatchers = some b ∧
      run (broadcastStep skidpadEnv fun _ => [0x7B, 0x7D]) b
        [.drained true none [] false, .drained true none [] false] = some b' ∧
      b.server.clients 1 = some c ∧ b'.server.clients 1 = some c' ∧ c'.wait = none ∧
      1 ∉ b'.clients ∧
      (c'.sent = c.sent ∨ ∃ f, b.wait.pending 1 = some f ∧ c'.sent = c.sent ++ wsSend f.2 f.1) := by
  have hrest : ∀ b ∈ run (broadcastStep skidpadEnv fun _ => [0x7B, 0x7D]) .init twoWatchers,
      (run (broadcastStep skidpadEnv fun _ => [0x7B, 0x7D]) b
        [.drained true none [] false, .drained true none [] false]).isSome := by decide +kernel
  have hleft : ∀ b ∈ run (broadcastStep skidpadEnv fun _ => [0x7B, 0x7D]) .init twoWatchers,
      (b.server.clients 1).map Client.wait = some none := by decide +kernel
  obtain ⟨b, hb⟩ : ∃ b,
      run (broadcastStep skidpadEnv fun _ => [0x7B, 0x7D]) .init twoWatchers = some b :=
    Option.isSome_iff_exists.mp (by decide +kernel)
  obtain ⟨b', hb'⟩ := Option.isSome_iff_exists.mp (hrest b hb)
  obtain ⟨c, hc, hwait⟩ := Option.map_eq_some_iff.mp (hleft b hb)
  obtain ⟨c', hc', hafter⟩ := silent_after_leaving hb hb' hc hwait
  exact ⟨b, b', c, c', hb, hb', hc, hc', hafter⟩

end KartStack.KbDashboard
