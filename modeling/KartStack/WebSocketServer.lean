import KartStack.DashboardState
import Mathlib.Data.Nat.Basic

/-! # The WebSocket server of the dashboard

`handle_ws` is a coroutine.  It waits in `readexactly` for the next few bytes of
the client, and what it does until it waits again depends on which call it is in:
the two bytes of the header, two or eight bytes of an extended length, the masking
key, the payload.  So it is an automaton of `Wait`s, each with the number of bytes
it asks for and what follows from them.

`loop` runs it on a byte stream.  It ends where the stream does: `IncompleteReadError`
ends the loop in the header and leaves `handle_ws` anywhere else.
-/
namespace KartStack.KbDashboard

/-- `n.to_bytes(width, "big")`. -/
def toBytes : Nat → Nat → List UInt8
  | 0, _ => []
  | width + 1, n => toBytes width (n / 256) ++ [UInt8.ofNat (n % 256)]

/-- `int.from_bytes(bytes, "big")`. -/
def fromBytes (bytes : List UInt8) : Nat := bytes.foldl (fun n b => n * 256 + b.toNat) 0

/-- `bytes(b ^ mask[i % 4] for i, b in enumerate(raw))`. -/
def unmask (mask raw : List UInt8) : List UInt8 := raw.mapIdx fun i b => b ^^^ mask.getD (i % 4) 0

/-- The frame `ws_send` writes. -/
def wsSend (data : List UInt8) (opcode : UInt8) : List UInt8 :=
  let length :=
    if data.length < 126 then [UInt8.ofNat data.length]
    else if data.length < 65536 then 126 :: toBytes 2 data.length
    else 127 :: toBytes 8 data.length
  (0x80 ||| opcode) :: (length ++ data)

/-- Which `readexactly` of `handle_ws` is awaited, and the locals it needs then. -/
inductive Wait where
  | header
  | length16 (opcode : UInt8) (masked : Bool)
  | length64 (opcode : UInt8) (masked : Bool)
  | mask (opcode : UInt8) (length : Nat)
  | raw (opcode : UInt8) (length : Nat) (mask : List UInt8)
  | data (opcode : UInt8) (length : Nat)
  deriving DecidableEq, Repr

/-- What a client's frame makes `handle_ws` do. -/
inductive Event where
  /-- `ws_send(writer, frame)` of a pong. -/
  | pong (frame : List UInt8)
  /-- The payload is there. -/
  | frame (opcode : UInt8) (data : List UInt8)
  deriving DecidableEq, Repr

/-- The number of bytes asked for. -/
def Wait.size : Wait → Nat
  | .header => 2
  | .length16 _ _ => 2
  | .length64 _ _ => 8
  | .mask _ _ => 4
  | .raw _ length _ => length
  | .data _ length => length

/-- The test `if masked`. -/
def Wait.payload (opcode : UInt8) (masked : Bool) (length : Nat) : Wait :=
  if masked then .mask opcode length else .data opcode length

/-- From the bytes asked for to the next `readexactly`; `none` where the loop is left. -/
def resume : Wait → List UInt8 → Option Wait × Option Event
  | .header, header =>
    let opcode := header.getD 0 0 &&& 0x0F
    if opcode = 0x8 then (none, none)
    else if opcode = 0x9 then
      -- back to the header at once: length, key and payload of the ping are not read
      (some .header, some (.pong (wsSend [] 0xA)))
    else
      let masked := decide (header.getD 1 0 &&& 0x80 ≠ 0)
      let length := (header.getD 1 0 &&& 0x7F).toNat
      if length = 126 then (some (.length16 opcode masked), none)
      else if length = 127 then (some (.length64 opcode masked), none)
      else (some (.payload opcode masked length), none)
  | .length16 opcode masked, bytes => (some (.payload opcode masked (fromBytes bytes)), none)
  | .length64 opcode masked, bytes => (some (.payload opcode masked (fromBytes bytes)), none)
  | .mask opcode length, mask => (some (.raw opcode length mask), none)
  | .raw opcode _ mask, raw => (some .header, some (.frame opcode (unmask mask raw)))
  | .data opcode _, data => (some .header, some (.frame opcode data))

/-- Only a payload may be empty, and after it comes a header. -/
def Wait.rank : Wait → Nat
  | .raw _ _ _ | .data _ _ => 1
  | _ => 0

theorem Wait.rank_lt_or_size_pos {w w' : Wait} {bytes : List UInt8} {e : Option Event}
    (h : resume w bytes = (some w', e)) : 0 < w.size ∨ w'.rank < w.rank := by
  rcases w with _ | _ | _ | _ | _ | _
  case raw | data =>
    obtain ⟨hw, -⟩ := Prod.mk.inj h
    obtain rfl := Option.some.inj hw
    exact .inr Nat.zero_lt_one
  all_goals exact .inl (Nat.succ_pos _)

/-- Every `readexactly` takes bytes, or the wait after it is of a lower rank. -/
theorem Wait.resume_lt {w w' : Wait} {stream : List UInt8} {e : Option Event}
    (hsize : w.size ≤ stream.length) (h : resume w (stream.take w.size) = (some w', e)) :
    Prod.Lex (· < ·) (· < ·) ((stream.drop w.size).length, w'.rank) (stream.length, w.rank) := by
  rw [List.length_drop]
  rcases Wait.rank_lt_or_size_pos h with hpos | hrank
  · exact .left _ _ (by omega)
  · by_cases hzero : w.size = 0
    · rw [hzero]
      exact .right _ hrank
    · exact .left _ _ (by omega)

/-- The loop of `handle_ws`, waiting in `w`, on what the client still sends. -/
def loop (w : Wait) (stream : List UInt8) : List Event :=
  if _hsize : w.size ≤ stream.length then
    match _hr : resume w (stream.take w.size) with
    | (none, e) => e.toList
    | (some w', e) => e.toList ++ loop w' (stream.drop w.size)
  else []
termination_by (stream.length, w.rank)
decreasing_by exact Wait.resume_lt _hsize _hr

/-- The decoder of the commands: `json.loads(data.decode())`, or `none` where one of
the two raises. -/
structure JsonModule where
  loads : List UInt8 → Option PyValue
  loads_dict : loads [0x7B, 0x7D] = some (.dict [])
  loads_list : loads [0x5B, 0x5D] = some (.list [])

/-- The argument of `handle_command`, if an event leads to a call. -/
def JsonModule.command (json : JsonModule) : Event → Option PyValue
  | .pong _ => none
  | .frame opcode data => if opcode = 0x1 then json.loads data else none

/-- The calls of `handle_command` for a stream. -/
def JsonModule.calls (json : JsonModule) (stream : List UInt8) : List PyValue :=
  (loop .header stream).filterMap json.command

/-! ## The loop on a stream that has what is asked for -/

theorem loop_left {w : Wait} {bytes : List UInt8} (hsize : bytes.length = w.size)
    {e : Option Event} (h : resume w bytes = (none, e)) (rest : List UInt8) :
    loop w (bytes ++ rest) = e.toList := by
  rw [loop, dif_pos (by rw [List.length_append]; omega), ← hsize, List.take_left]
  split <;> rename_i heq <;> rw [h] at heq <;> cases heq
  rfl

theorem loop_more {w w' : Wait} {bytes : List UInt8} (hsize : bytes.length = w.size)
    {e : Option Event} (h : resume w bytes = (some w', e)) (rest : List UInt8) :
    loop w (bytes ++ rest) = e.toList ++ loop w' rest := by
  rw [loop, dif_pos (by rw [List.length_append]; omega), ← hsize, List.take_left, List.drop_left]
  split <;> rename_i heq <;> rw [h] at heq <;> cases heq
  rfl

theorem loop_stuck {w : Wait} {stream : List UInt8} (h : stream.length < w.size) :
    loop w stream = [] := by
  rw [loop, dif_neg (by omega)]

/-! ## Numbers and masks -/

@[simp] theorem length_toBytes (width n : Nat) : (toBytes width n).length = width := by
  induction width generalizing n with
  | zero => rfl
  | succ width ih => rw [toBytes, List.length_append, ih, List.length_singleton]

/-- **Lengths are read as they are written.** -/
theorem fromBytes_toBytes {width n : Nat} (h : n < 256 ^ width) :
    fromBytes (toBytes width n) = n := by
  induction width generalizing n with
  | zero =>
    have hn : n = 0 := by simpa using h
    rw [hn]
    rfl
  | succ width ih =>
    have hdiv : n / 256 < 256 ^ width := by
      rw [Nat.pow_succ] at h
      omega
    have hsnoc : fromBytes (toBytes (width + 1) n) =
        fromBytes (toBytes width (n / 256)) * 256 + (UInt8.ofNat (n % 256)).toNat := by
      rw [toBytes, fromBytes, List.foldl_append]
      rfl
    rw [hsnoc, ih hdiv, UInt8.toNat_ofNat']
    omega

@[simp] theorem length_unmask (mask raw : List UInt8) : (unmask mask raw).length = raw.length :=
  List.length_mapIdx

/-- **Masking twice** gives the payload back. -/
theorem unmask_unmask (mask raw : List UInt8) : unmask mask (unmask mask raw) = raw := by
  refine List.ext_getElem (by simp) fun i h _ => ?_
  simp only [unmask, List.getElem_mapIdx, UInt8.xor_assoc, UInt8.xor_self, UInt8.xor_zero]

end KartStack.KbDashboard
