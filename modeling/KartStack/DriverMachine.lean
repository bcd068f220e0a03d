import KartStack.SerialParser
import KartStack.Transitions

/-! # The threads of the serial driver

A `SerialDriver` runs three threads of its own — the supervisor, `rx_loop` and
`tx_loop` — and its owner calls `start`, `stop` and `send`.  They share the
descriptor `fd_`, the flag `running_`, the transmit queue with its mutex and
condition variable, and the three `std::thread` handles.

Here each thread has a program counter, one point for each access to shared state,
and each action lets one thread do its next access, or the environment something:
bytes arrive, a blocked `read` fails, the condition variable wakes up spuriously.
`write`, `read` and `open` answer as the action says.

Some steps are one action though the source spells them out: `send`, the creation
of a thread with the assignment of its handle, and what `close_port` and `open_port`
do to the descriptor.  `tx_mutex_` is held by `tx_loop` at the points `TxPc.locked`
lists and by nobody else between actions.
-/
namespace KartStack.SerialDriver

/-- Which disjunct of the wait predicate was true. -/
inductive Disjunct where
  | queued
  | stopped
  | closed
  deriving DecidableEq, Repr

/-- Where `tx_loop` is. -/
inductive TxPc where
  | notStarted
  /-- `while (running_)`. -/
  | testRun
  /-- Taking `tx_mutex_`. -/
  | lock
  /-- `!tx_queue_.empty()`. -/
  | predQueue
  /-- `!running_`. -/
  | predRun
  /-- `fd_ < 0`. -/
  | predFd
  /-- About to block in `tx_cv_.wait`, which releases the mutex. -/
  | enterWait
  | waiting
  /-- Notified, taking the mutex again. -/
  | woken
  /-- `if (!running_) return`, the wait having ended by a disjunct. -/
  | checkRun (why : Disjunct)
  /-- `tx_queue_.front()`, `tx_queue_.pop()` and the unlock. -/
  | pop
  /-- `if (fd_ >= 0)`, holding the frame popped. -/
  | checkFd (frame : List UInt8)
  | write (frame : List UInt8)
  /-- In `close_port`. -/
  | closing
  | returned
  /-- The queue was empty at `front()` and `pop()`: undefined behaviour. -/
  | undefined
  deriving DecidableEq, Repr

namespace TxPc

/-- `tx_loop` holds `tx_mutex_`. -/
def locked : TxPc → Bool
  | .predQueue | .predRun | .predFd | .enterWait | .checkRun _ | .pop => true
  | _ => false

/-- What a notification does to `tx_loop`. -/
def notified : TxPc → TxPc
  | .waiting => .woken
  | pc => pc

/-- The frame popped and not written yet. -/
def inHand : TxPc → List (List UInt8)
  | .checkFd frame | .write frame => [frame]
  | _ => []

/-- `tx_loop` is not running. -/
def Idle (pc : TxPc) : Prop := pc = .notStarted ∨ pc = .returned

end TxPc

/-- Where `rx_loop` is. -/
inductive RxPc where
  | notStarted
  /-- Resetting the parser. -/
  | entry
  /-- `while (running_ && …)`. -/
  | testRun
  /-- `while (… && fd_ >= 0)`. -/
  | testFd
  /-- Calling `read(fd_, …)`. -/
  | callRead
  /-- In `read`, which blocks until a byte is there. -/
  | inRead
  /-- In `close_port`. -/
  | closing
  | returned
  deriving DecidableEq, Repr

/-- `rx_loop` is not running. -/
def RxPc.Idle (pc : RxPc) : Prop := pc = .notStarted ∨ pc = .returned

/-- Where `supervisor_loop` is. -/
inductive SupPc where
  | notStarted
  /-- `while (running_)`. -/
  | testRun
  /-- `fd_ < 0`. -/
  | guardFd
  /-- `!rx_thread_.joinable()`. -/
  | guardRx
  /-- `!tx_thread_.joinable()`. -/
  | guardTx
  | openPort
  | spawnRx
  | spawnTx
  | sleep
  | returned
  deriving DecidableEq, Repr

/-- Where a call of `stop` is. -/
inductive StopPc where
  | idle
  /-- `running_` is cleared, `tx_cv_.notify_all()` is next. -/
  | notify
  | testRx
  | joinRx
  | testTx
  | joinTx
  | testSup
  | joinSup
  | closePort
  | returned
  deriving DecidableEq, Repr

/-- No call of `stop` is under way. -/
def StopPc.Quiet (pc : StopPc) : Prop := pc = .idle ∨ pc = .returned

instance : DecidablePred StopPc.Quiet := fun _ => inferInstanceAs (Decidable (_ ∨ _))

/-- A `SerialDriver`, its threads, and what has happened to it. -/
structure Driver where
  fd : Int := -1
  running : Bool := false
  txQueue : List (List UInt8) := []
  rxJoinable : Bool := false
  txJoinable : Bool := false
  supJoinable : Bool := false
  parser : Parser := {}
  rx : RxPc := .notStarted
  tx : TxPc := .notStarted
  sup : SupPc := .notStarted
  stop : StopPc := .idle
  /-- The bytes the port holds for the next `read`. -/
  pending : List RxByte := []
  /-- The frames handed to the callback. -/
  delivered : List (Frame UInt8) := []
  /-- The frames `send` has queued. -/
  queued : List (List UInt8) := []
  /-- The bytes `write` has accepted. -/
  written : List UInt8 := []
  /-- The calls of `open_port`. -/
  openCalls : Nat := 0
  /-- The completed iterations of the supervisor. -/
  iterations : Nat := 0
  deriving DecidableEq

/-- An action: what happens next, and what the environment answers. -/
inductive Action where
  /-- The owner calls `start`. -/
  | start
  /-- The owner calls `stop`, which clears `running_`. -/
  | stopCall
  /-- Somebody calls `send`. -/
  | send (type : UInt8) (payload : List UInt8)
  /-- Bytes arrive on the port. -/
  | arrive (bytes : List RxByte)
  /-- A blocked `read` fails. -/
  | readFail
  /-- `tx_cv_.wait` wakes up without a notification. -/
  | spurious
  /-- A step of `rx_loop`; `read` returns `count` bytes. -/
  | rx (count : Nat)
  /-- A step of `tx_loop`; `write` returns `result`. -/
  | tx (result : Int)
  /-- A step of the supervisor; `open_port` gets the descriptor `opened`, or fails. -/
  | sup (opened : Option Nat)
  /-- A step of `stop`. -/
  | stop

/-- A step of the driver's own threads or of `stop`. -/
def Action.Own : Action → Prop
  | .rx _ | .tx _ | .sup _ | .stop => True
  | _ => False

namespace Driver

/-- `close_port`. -/
def closePort (s : Driver) : Driver :=
  if s.fd ≥ 0 then { s with fd := -1, pending := [] } else s

/-- `rx_loop`.  Its buffer is empty at every `read` (`rxIteration_eq`). -/
def rxStep (s : Driver) (count : Nat) : Option Driver :=
  match s.rx with
  | .notStarted | .returned => none
  | .entry => some { s with parser := resetParser s.parser, rx := .testRun }
  | .testRun => some { s with rx := if s.running then .testFd else .returned }
  | .testFd => some { s with rx := if s.fd ≥ 0 then .callRead else .returned }
  -- reading from descriptor -1 fails at once
  | .callRead => some { s with rx := if s.fd < 0 then .closing else .inRead }
  | .inRead =>
    if 0 < count ∧ count ≤ s.pending.length ∧ count ≤ 256 then
      let r := rxIteration s.parser [] (s.pending.take count)
      some { s with
        parser := r.1
        delivered := s.delivered ++ r.2.1
        pending := s.pending.drop count
        rx := .testRun }
    else none
  | .closing => some { s.closePort with rx := .returned }

/-- `tx_loop`. -/
def txStep (s : Driver) (result : Int) : Option Driver :=
  match s.tx with
  | .notStarted | .waiting | .returned | .undefined => none
  | .testRun => some { s with tx := if s.running then .lock else .returned }
  | .lock => some { s with tx := .predQueue }
  | .predQueue => some { s with tx := if s.txQueue ≠ [] then .checkRun .queued else .predRun }
  | .predRun => some { s with tx := if s.running then .predFd else .checkRun .stopped }
  | .predFd => some { s with tx := if s.fd < 0 then .checkRun .closed else .enterWait }
  | .enterWait => some { s with tx := .waiting }
  | .woken => some { s with tx := .predQueue }
  | .checkRun _ => some { s with tx := if s.running then .pop else .returned }
  | .pop =>
    match s.txQueue with
    | [] => some { s with tx := .undefined }
    | frame :: txQueue => some { s with txQueue := txQueue, tx := .checkFd frame }
  | .checkFd frame => some { s with tx := if s.fd ≥ 0 then .write frame else .testRun }
  | .write frame =>
    -- writing to descriptor -1 fails
    if -1 ≤ result ∧ result ≤ frame.length ∧ (s.fd < 0 → result = -1) then
      if result < 0 then some { s with tx := .closing }
      else some { s with written := s.written ++ frame.take result.toNat, tx := .testRun }
    else none
  | .closing => some { s.closePort with tx := .returned }

/-- `supervisor_loop`.  Assigning to a joinable `std::thread` would end the program. -/
def supStep (s : Driver) (opened : Option Nat) : Option Driver :=
  match s.sup with
  | .notStarted | .returned => none
  | .testRun => some { s with sup := if s.running then .guardFd else .returned }
  | .guardFd => some { s with sup := if s.fd < 0 then .guardRx else .sleep }
  | .guardRx => some { s with sup := if s.rxJoinable then .sleep else .guardTx }
  | .guardTx => some { s with sup := if s.txJoinable then .sleep else .openPort }
  | .openPort =>
    match opened with
    | none => some { s with fd := -1, sup := .sleep, openCalls := s.openCalls + 1 }
    | some fd =>
      some { s with fd := fd, pending := [], sup := .spawnRx, openCalls := s.openCalls + 1 }
  | .spawnRx =>
    if s.rxJoinable then none else some { s with rx := .entry, rxJoinable := true, sup := .spawnTx }
  | .spawnTx =>
    if s.txJoinable then none else some { s with tx := .testRun, txJoinable := true, sup := .sleep }
  | .sleep => some { s with sup := .testRun, iterations := s.iterations + 1 }

/-- `stop`, once `running_` is cleared. -/
def stopStep (s : Driver) : Option Driver :=
  match s.stop with
  | .idle | .returned => none
  | .notify => some { s with tx := s.tx.notified, stop := .testRx }
  | .testRx => some { s with stop := if s.rxJoinable then .joinRx else .testTx }
  | .joinRx =>
    if s.rx = .returned then some { s with rxJoinable := false, stop := .testTx } else none
  | .testTx => some { s with stop := if s.txJoinable then .joinTx else .testSup }
  | .joinTx =>
    if s.tx = .returned then some { s with txJoinable := false, stop := .testSup } else none
  | .testSup => some { s with stop := if s.supJoinable then .joinSup else .closePort }
  | .joinSup =>
    if s.sup = .returned then some { s with supJoinable := false, stop := .closePort } else none
  | .closePort => some { s.closePort with stop := .returned }

/-- One action.  `start` is called once, and not while `stop` is under way. -/
def step (s : Driver) : Action → Option Driver
  | .start =>
    if s.sup = .notStarted ∧ s.stop.Quiet then
      some { s with running := true, sup := .testRun, supJoinable := true }
    else none
  | .stopCall => if s.stop.Quiet then some { s with running := false, stop := .notify } else none
  | .send type payload =>
    if s.tx.locked then none
    else if payload.length > 251 then some s
    else
      some { s with
        txQueue := enqueue s.txQueue type payload
        queued := enqueue s.queued type payload
        tx := s.tx.notified }
  | .arrive bytes => some { s with pending := s.pending ++ bytes }
  | .readFail => if s.rx = .inRead then some { s with rx := .closing } else none
  | .spurious => if s.tx = .waiting then some { s with tx := .woken } else none
  | .rx count => s.rxStep count
  | .tx result => s.txStep result
  | .sup opened => s.supStep opened
  | .stop => s.stopStep

/-- The driver as constructed. -/
def init : Driver := {}

/-- A state some interleaving leads to. -/
abbrev Reachable (s : Driver) : Prop := Transitions.Reachable step init s

end Driver
end KartStack.SerialDriver
