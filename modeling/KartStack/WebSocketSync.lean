import KartStack.WebSocketServer
import Mathlib.Data.List.TakeWhile

/-! # Frames on a WebSocket stream

A client sends unfragmented frames, each masked with a key of its own choice.  What
the server should make of them can be said without bytes (`expected`): the commands
of the text frames up to the first close frame.

Text, binary and pong frames are read as they were sent, in each of the three forms
of a length (`loop_frame`).  A ping is not: `handle_ws` answers it and goes back to
reading a header, which it finds in the masking key of the ping (`loop_ping`).  The
key can be a command.  So the server is in step with every client exactly as long
as none sends a ping (`inSync_iff`).
-/
namespace KartStack.KbDashboard

/-- The frames of a client. -/
inductive Kind where
  | text
  | binary
  | close
  | ping
  | pong
  deriving DecidableEq, Repr

/-- The opcode on the wire. -/
def Kind.opcode : Kind → UInt8
  | .text => 0x1
  | .binary => 0x2
  | .close => 0x8
  | .ping => 0x9
  | .pong => 0xA

/-- Control frames have an opcode with the high bit set. -/
def Kind.control (kind : Kind) : Bool := kind.opcode ≥ 0x8

/-- The three forms of a length. -/
inductive LengthForm where
  | short
  | medium
  | long
  deriving DecidableEq, Repr

namespace LengthForm

/-- Lengths below it fit. -/
def bound : LengthForm → Nat
  | .short => 126
  | .medium => 65536
  | .long => 2 ^ 63

/-- The seven bits of the header. -/
def field : LengthForm → Nat → Nat
  | .short, n => n
  | .medium, _ => 126
  | .long, _ => 127

/-- The extended length. -/
def extension : LengthForm → Nat → List UInt8
  | .short, _ => []
  | .medium, n => toBytes 2 n
  | .long, n => toBytes 8 n

/-- What `handle_ws` reads after a header with that field. -/
def after (opcode : UInt8) : LengthForm → Nat → Wait
  | .short, n => .mask opcode n
  | .medium, _ => .length16 opcode true
  | .long, _ => .length64 opcode true

theorem field_lt {form : LengthForm} {n : Nat} (h : n < form.bound) : form.field n < 128 := by
  rcases form with _ | _ | _
  · exact Nat.lt_trans h (by decide)
  · exact Nat.lt_of_sub_eq_succ rfl
  · exact Nat.lt_of_sub_eq_succ rfl

end LengthForm

/-- An unfragmented frame.  Of the forms its length fits in a client has to take the
shortest, but the server reads them all. -/
structure ClientFrame where
  kind : Kind
  payload : List UInt8
  form : LengthForm
  fits : payload.length < form.bound
  control_short : kind.control = true → form = .short

/-- A masking key. -/
structure MaskKey where
  bytes : List UInt8
  length_bytes : bytes.length = 4

namespace ClientFrame

/-- The frame on the wire. -/
def bytes (f : ClientFrame) (key : MaskKey) : List UInt8 :=
  [0x80 ||| f.kind.opcode, 0x80 ||| UInt8.ofNat (f.form.field f.payload.length)] ++
    f.form.extension f.payload.length ++ key.bytes ++ unmask key.bytes f.payload

end ClientFrame

/-- Frames and their keys as one byte stream. -/
def streamBytes (sent : List (ClientFrame × MaskKey)) : List UInt8 :=
  sent.flatMap fun p => p.1.bytes p.2

/-- The frames up to the first close frame. -/
def beforeClose (frames : List ClientFrame) : List ClientFrame :=
  frames.takeWhile fun f => f.kind ≠ .close

/-- The commands the frames are meant to give. -/
def expected (json : JsonModule) (frames : List ClientFrame) : List PyValue :=
  ((beforeClose frames).filter fun f => f.kind = .text).filterMap fun f => json.loads f.payload

/-- The frames give these commands, whatever the masking keys. -/
def InSync (json : JsonModule) (frames : List ClientFrame) : Prop :=
  ∀ sent : List (ClientFrame × MaskKey), sent.map Prod.fst = frames →
    json.calls (streamBytes sent) = expected json frames

/-! ## One frame -/

theorem opcode_and (kind : Kind) : (0x80 ||| kind.opcode) &&& 0x0F = kind.opcode := by
  rcases kind with _ | _ | _ | _ | _ <;> decide

theorem field_and : ∀ n : Fin 128, (0x80 ||| UInt8.ofNat n) &&& 0x80 ≠ 0 ∧
    ((0x80 ||| UInt8.ofNat n) &&& 0x7F).toNat = n := by decide +kernel

/-- The header of a frame that is no close and no ping. -/
theorem resume_header {f : ClientFrame} (hclose : f.kind ≠ .close) (hping : f.kind ≠ .ping) :
    resume .header
        [0x80 ||| f.kind.opcode, 0x80 ||| UInt8.ofNat (f.form.field f.payload.length)] =
      (some (f.form.after f.kind.opcode f.payload.length), none) := by
  have h8 : f.kind.opcode ≠ 0x8 := by
    rcases hkind : f.kind with _ | _ | _ | _ | _ <;> trivial
  have h9 : f.kind.opcode ≠ 0x9 := by
    rcases hkind : f.kind with _ | _ | _ | _ | _ <;> trivial
  have hfield := field_and ⟨_, LengthForm.field_lt f.fits⟩
  simp only [resume, List.getD_cons_zero, List.getD_cons_succ, opcode_and, if_neg h8, if_neg h9,
    hfield.1, hfield.2, Wait.payload, ne_eq, not_false_eq_true, decide_true, if_true]
  have hfits := f.fits
  rcases hform : f.form with _ | _ | _ <;> rw [hform] at hfits
  · -- below 126 the field is the length
    have h126 : LengthForm.short.field f.payload.length ≠ 126 := Nat.ne_of_lt hfits
    have h127 : LengthForm.short.field f.payload.length ≠ 127 :=
      Nat.ne_of_lt (Nat.lt_trans hfits (by decide))
    rw [if_neg h126, if_neg h127]
    rfl
  · rfl
  · rfl

/-- From the masking key to the next header. -/
theorem loop_mask (opcode : UInt8) (key : MaskKey) (payload rest : List UInt8) :
    loop (.mask opcode payload.length) (key.bytes ++ (unmask key.bytes payload ++ rest)) =
      .frame opcode payload :: loop .header rest := by
  rw [loop_more key.length_bytes rfl, loop_more (length_unmask _ _) rfl, unmask_unmask]
  rfl

/-- **A frame that is no close and no ping is read as it was sent.** -/
theorem loop_frame {f : ClientFrame} (hclose : f.kind ≠ .close) (hping : f.kind ≠ .ping)
    (key : MaskKey) (rest : List UInt8) :
    loop .header (f.bytes key ++ rest) = .frame f.kind.opcode f.payload :: loop .header rest := by
  have hfits := f.fits
  simp only [ClientFrame.bytes, List.append_assoc]
  rw [loop_more (w := .header) rfl (resume_header hclose hping)]
  rcases hform : f.form with _ | _ | _ <;> rw [hform] at hfits
  · exact loop_mask _ key _ rest
  · have hlen : f.payload.length < 256 ^ 2 := hfits
    show loop (.length16 _ true) (toBytes 2 _ ++ _) = _
    rw [loop_more (length_toBytes 2 _) rfl, fromBytes_toBytes hlen]
    exact loop_mask _ key _ rest
  · have hlen : f.payload.length < 256 ^ 8 := Nat.lt_trans hfits (by decide)
    show loop (.length64 _ true) (toBytes 8 _ ++ _) = _
    rw [loop_more (length_toBytes 8 _) rfl, fromBytes_toBytes hlen]
    exact loop_mask _ key _ rest

/-- A close frame ends the loop. -/
theorem loop_close {f : ClientFrame} (hclose : f.kind = .close) (key : MaskKey)
    (rest : List UInt8) : loop .header (f.bytes key ++ rest) = [] := by
  have hheader : ∀ b, resume .header [0x80 ||| f.kind.opcode, b] = (none, none) := by
    intro b
    have hopcode : (0x80 ||| f.kind.opcode) &&& 0x0F = 0x8 :=
      (opcode_and f.kind).trans (by rw [hclose]; rfl)
    simp only [resume, List.getD_cons_zero, hopcode, if_true]
  simp only [ClientFrame.bytes, List.append_assoc]
  rw [loop_left (w := .header) rfl (hheader _)]
  rfl

/-- **A ping leaves its key and its payload on the stream.** -/
theorem loop_ping {f : ClientFrame} (hping : f.kind = .ping) (key : MaskKey) (rest : List UInt8) :
    loop .header (f.bytes key ++ rest) = .pong (wsSend [] 0xA) ::
      loop .header (key.bytes ++ (unmask key.bytes f.payload ++ rest)) := by
  have hform : f.form = .short := f.control_short (by rw [hping]; decide)
  have hheader : ∀ b, resume .header [0x80 ||| f.kind.opcode, b] =
      (some .header, some (.pong (wsSend [] 0xA))) := by
    intro b
    have hopcode : (0x80 ||| f.kind.opcode) &&& 0x0F = 0x9 :=
      (opcode_and f.kind).trans (by rw [hping]; rfl)
    have hne : ¬ (0x9 : UInt8) = 0x8 := by decide
    simp only [resume, List.getD_cons_zero, hopcode, if_neg hne, if_true]
  simp only [ClientFrame.bytes, List.append_assoc, hform, LengthForm.extension, List.nil_append]
  rw [loop_more (w := .header) rfl (hheader _)]
  rfl

/-! ## Streams of frames -/

theorem calls_frame (json : JsonModule) {f : ClientFrame} (hclose : f.kind ≠ .close)
    (hping : f.kind ≠ .ping) (key : MaskKey) (rest : List UInt8) :
    json.calls (f.bytes key ++ rest) =
      (if f.kind = .text then (json.loads f.payload).toList else []) ++ json.calls rest := by
  have htext : f.kind.opcode = 0x1 ↔ f.kind = .text := by
    rcases f.kind with _ | _ | _ | _ | _ <;> decide
  rw [JsonModule.calls, loop_frame hclose hping, List.filterMap_cons]
  by_cases ht : f.kind = .text
  · rw [if_pos ht]
    simp only [JsonModule.command, if_pos (htext.mpr ht)]
    cases json.loads f.payload <;> rfl
  · rw [if_neg ht]
    simp only [JsonModule.command, if_neg (mt htext.mp ht)]
    rfl

theorem beforeClose_cons {f : ClientFrame} (hclose : f.kind ≠ .close)
    (frames : List ClientFrame) : beforeClose (f :: frames) = f :: beforeClose frames := by
  simp [beforeClose, hclose]

theorem beforeClose_close {f : ClientFrame} (hclose : f.kind = .close)
    (frames : List ClientFrame) : beforeClose (f :: frames) = [] := by
  simp [beforeClose, hclose]

theorem expected_frame (json : JsonModule) {f : ClientFrame} (hclose : f.kind ≠ .close)
    (frames : List ClientFrame) :
    expected json (f :: frames) =
      (if f.kind = .text then (json.loads f.payload).toList else []) ++ expected json frames := by
  rw [expected, beforeClose_cons hclose, List.filter_cons]
  by_cases ht : f.kind = .text
  · simp only [ht, decide_true, if_true, List.filterMap_cons]
    cases json.loads f.payload <;> rfl
  · simp only [ht, decide_false, Bool.false_eq_true, if_false]
    rfl

theorem expected_close (json : JsonModule) {f : ClientFrame} (hclose : f.kind = .close)
    (frames : List ClientFrame) : expected json (f :: frames) = [] := by
  rw [expected, beforeClose_close hclose]
  rfl

/-- Frames that are read as they were sent come first. -/
theorem calls_append (json : JsonModule) (sent : List (ClientFrame × MaskKey))
    (h : ∀ p ∈ sent, p.1.kind ≠ .close ∧ p.1.kind ≠ .ping) (rest : List UInt8) :
    json.calls (streamBytes sent ++ rest) =
      expected json (sent.map Prod.fst) ++ json.calls rest := by
  induction sent with
  | nil => rfl
  | cons p sent ih =>
    obtain ⟨f, key⟩ := p
    obtain ⟨⟨hclose, hping⟩, hsent⟩ := List.forall_mem_cons.mp h
    have hbytes : streamBytes ((f, key) :: sent) ++ rest =
        f.bytes key ++ (streamBytes sent ++ rest) := List.append_assoc ..
    rw [hbytes, calls_frame json hclose hping, ih hsent, List.map_cons,
      expected_frame json hclose, List.append_assoc]

theorem expected_append (json : JsonModule) {frames : List ClientFrame}
    (h : ∀ f ∈ frames, f.kind ≠ .close) (frames' : List ClientFrame) :
    expected json (frames ++ frames') = expected json frames ++ expected json frames' := by
  induction frames with
  | nil => rfl
  | cons f frames ih =>
    obtain ⟨hclose, hframes⟩ := List.forall_mem_cons.mp h
    rw [List.cons_append, expected_frame json hclose, expected_frame json hclose, ih hframes,
      List.append_assoc]

theorem streamBytes_append (sent sent' : List (ClientFrame × MaskKey)) :
    streamBytes (sent ++ sent') = streamBytes sent ++ streamBytes sent' :=
  List.flatMap_append

/-- **A stream without pings** before its first close frame is read as it was sent. -/
theorem calls_streamBytes (json : JsonModule) (sent : List (ClientFrame × MaskKey))
    (h : ∀ f ∈ beforeClose (sent.map Prod.fst), f.kind ≠ .ping) :
    json.calls (streamBytes sent) = expected json (sent.map Prod.fst) := by
  induction sent with
  | nil =>
    rw [JsonModule.calls, streamBytes, List.flatMap_nil, loop_stuck (by decide)]
    rfl
  | cons p sent ih =>
    obtain ⟨f, key⟩ := p
    show json.calls (f.bytes key ++ streamBytes sent) = expected json (f :: sent.map Prod.fst)
    by_cases hclose : f.kind = .close
    · rw [expected_close json hclose, JsonModule.calls, loop_close hclose]
      rfl
    · rw [List.map_cons, beforeClose_cons hclose, List.forall_mem_cons] at h
      rw [calls_frame json hclose h.1, expected_frame json hclose, ih h.2]

/-- The key that is an unmasked text frame with a payload of two bytes. -/
def textKey (a b : UInt8) : MaskKey := ⟨[0x81, 0x02, a, b], rfl⟩

/-- A ping with such a key is a command. -/
theorem calls_ping (json : JsonModule) {f : ClientFrame} (hping : f.kind = .ping) {a b : UInt8}
    {cmd : PyValue} (hcmd : json.loads [a, b] = some cmd) (rest : List UInt8) :
    ∃ cmds, json.calls (f.bytes (textKey a b) ++ rest) = cmd :: cmds := by
  have hheader : resume .header [0x81, 0x02] = (some (.data 0x1 2), none) := rfl
  refine ⟨json.calls (unmask (textKey a b).bytes f.payload ++ rest), ?_⟩
  rw [JsonModule.calls, loop_ping hping]
  show List.filterMap json.command (_ :: loop .header ([0x81, 0x02] ++ ([a, b] ++ _))) = _
  have hsize : [a, b].length = (Wait.data 0x1 2).size := rfl
  rw [loop_more (w := .header) rfl hheader, loop_more hsize rfl]
  have hcommand : json.command (.frame 0x1 [a, b]) = some cmd := hcmd
  rw [List.filterMap_cons_none rfl]
  exact List.filterMap_cons_some hcommand

/-- The first ping, if one precedes the first close frame. -/
theorem exists_first_ping {frames : List ClientFrame}
    (h : ¬ ∀ f ∈ beforeClose frames, f.kind ≠ .ping) :
    ∃ before ping after, frames = before ++ ping :: after ∧ ping.kind = .ping ∧
      ∀ f ∈ before, f.kind ≠ .close ∧ f.kind ≠ .ping := by
  induction frames with
  | nil => exact absurd (List.forall_mem_nil _) h
  | cons f frames ih =>
    by_cases hclose : f.kind = .close
    · rw [beforeClose_close hclose] at h
      exact absurd (List.forall_mem_nil _) h
    · rw [beforeClose_cons hclose, List.forall_mem_cons] at h
      by_cases hping : f.kind = .ping
      · exact ⟨[], f, frames, rfl, hping, List.forall_mem_nil _⟩
      · obtain ⟨before, ping, after, rfl, hkind, hbefore⟩ := ih fun hno => h ⟨hping, hno⟩
        refine ⟨f :: before, ping, after, rfl, hkind, ?_⟩
        exact List.forall_mem_cons.mpr ⟨⟨hclose, hping⟩, hbefore⟩

/-- The key of zeros. -/
def zeroKey : MaskKey := ⟨[0, 0, 0, 0], rfl⟩

/-- **The first ping can be made a command.** -/
theorem calls_first_ping (json : JsonModule) {before after : List ClientFrame}
    {ping : ClientFrame} (hbefore : ∀ f ∈ before, f.kind ≠ .close ∧ f.kind ≠ .ping)
    (hping : ping.kind = .ping) (hsync : InSync json (before ++ ping :: after)) {a b : UInt8}
    {cmd : PyValue} (hcmd : json.loads [a, b] = some cmd) :
    ∃ cmds, expected json (ping :: after) = cmd :: cmds := by
  obtain ⟨cmds, hcmds⟩ := calls_ping json hping hcmd (streamBytes (after.map (·, zeroKey)))
  have hfst : ∀ frames : List ClientFrame, (frames.map (·, zeroKey)).map Prod.fst = frames := by
    intro frames
    rw [List.map_map]
    exact List.map_id _
  have hcalls := hsync (before.map (·, zeroKey) ++ (ping, textKey a b) :: after.map (·, zeroKey))
    (by rw [List.map_append, List.map_cons, hfst, hfst])
  have hkinds : ∀ p ∈ before.map (·, zeroKey), p.1.kind ≠ .close ∧ p.1.kind ≠ .ping := by
    intro p hp
    obtain ⟨f, hf, rfl⟩ := List.mem_map.mp hp
    exact hbefore f hf
  rw [expected_append json fun f hf => (hbefore f hf).1, streamBytes_append,
    calls_append json _ hkinds, hfst] at hcalls
  have happend : expected json before ++ expected json (ping :: after) =
      expected json before ++ cmd :: cmds := by
    rw [← hcalls, ← hcmds]
    rfl
  exact ⟨cmds, List.append_cancel_left happend⟩

/-- **The server is in step** with a client, whatever its keys, exactly if no ping
precedes the first close frame. -/
theorem inSync_iff (json : JsonModule) (frames : List ClientFrame) :
    InSync json frames ↔ ∀ f ∈ beforeClose frames, f.kind ≠ .ping := by
  constructor
  · intro hsync
    by_contra hsome
    obtain ⟨before, ping, after, rfl, hping, hbefore⟩ := exists_first_ping hsome
    -- the commands meant do not depend on the key, the commands read do
    obtain ⟨_, hdict⟩ := calls_first_ping json hbefore hping hsync json.loads_dict
    obtain ⟨_, hlist⟩ := calls_first_ping json hbefore hping hsync json.loads_list
    rw [hdict] at hlist
    cases hlist
  · rintro h sent rfl
    exact calls_streamBytes json sent h

/-- A decoder of the two empty containers. -/
def containers : JsonModule where
  loads data := if data = [0x7B, 0x7D] then some (.dict [])
    else if data = [0x5B, 0x5D] then some (.list []) else none
  loads_dict := rfl
  loads_list := rfl

/-- A ping without payload. -/
def emptyPing : ClientFrame := ⟨.ping, [], .short, by decide, fun _ => rfl⟩

/-- A single ping is not in step: its key `81 02 7B 7D` is read as the command `{}`. -/
theorem emptyPing_not_inSync :
    ¬ ∀ (json : JsonModule) (frames : List ClientFrame), InSync json frames := by
  intro hall
  have hcalls := hall containers [emptyPing] [(emptyPing, textKey 0x7B 0x7D)] rfl
  obtain ⟨cmds, hcmds⟩ := calls_ping containers (f := emptyPing) rfl containers.loads_dict []
  have hstream : streamBytes [(emptyPing, textKey 0x7B 0x7D)] =
      emptyPing.bytes (textKey 0x7B 0x7D) ++ [] := rfl
  rw [hstream, hcmds] at hcalls
  cases hcalls

end KartStack.KbDashboard
