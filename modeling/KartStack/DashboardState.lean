import KartStack.FloatArithmetic
import Mathlib.Logic.Function.Basic

/-! # What the dashboard knows

`DashboardState` is a dict of telemetry values and the time of the last heartbeat.
The ROS callbacks and the commands of the clients write single keys; what the
clients are shown is `snapshot()`, a copy in which the two heartbeat entries are
computed from the clock.
-/
namespace KartStack.KbDashboard

/-- A string: its code points, lone surrogates among them. -/
abbrev PyStr := List Nat

/-- A string literal. -/
def str (s : String) : PyStr := s.toList.map Char.toNat

/-- The values of the telemetry, and those `json.loads` returns. -/
inductive PyValue where
  | null
  | bool (b : Bool)
  | int (n : Int)
  | float (x : CFloat)
  | str (s : PyStr)
  | list (items : List PyValue)
  | dict (entries : List (PyStr × PyValue))

/-- The entries `DashboardState.__init__` makes. -/
def initialData : List (String × PyValue) :=
  [("esp32_heartbeat", .bool false), ("esp32_heartbeat_age", .float (.fin (-1))),
    ("esp32_steering_rad", .float (.fin 0)), ("esp32_speed", .float (.fin 0)),
    ("esp32_accel_lat", .float (.fin 0)), ("esp32_accel_lon", .float (.fin 0)),
    ("esp32_throttle", .float (.fin 0)), ("esp32_braking", .float (.fin 0)),
    ("orin_cmd_throttle", .float (.fin 0)), ("orin_cmd_brake", .float (.fin 0)),
    ("esp32_steering_raw", .int 0), ("orin_cmd_steering_rad", .float (.fin 0)),
    ("health_magnet_ok", .bool false), ("health_i2c_ok", .bool false),
    ("health_heap_ok", .bool false), ("health_agc", .int 0), ("health_heap_kb", .int 0),
    ("health_i2c_errors", .int 0), ("yolo_fps", .float (.fin 0)),
    ("mission", .str (str "manual")), ("state", .str (str "idle"))]

/-- `round(x, 1)` of a finite value, half to even. -/
def roundTenth (x : ℚ) : ℚ :=
  let down := ⌊x * 10⌋
  let rest := x * 10 - down
  if rest < 1 / 2 ∨ (rest = 1 / 2 ∧ down % 2 = 0) then down / 10 else (down + 1) / 10

/-- `round(x, 1)`. -/
def round1 : CFloat → CFloat
  | .fin x => .fin (roundTenth x)
  | x => x

/-- `DashboardState`. -/
structure DashboardState where
  data : String → Option PyValue
  heartbeatTime : CFloat

namespace DashboardState

/-- `DashboardState()`. -/
def init : DashboardState := ⟨fun key => initialData.lookup key, .fin 0⟩

/-- `update(key, value)`. -/
def update (s : DashboardState) (key : String) (value : PyValue) : DashboardState :=
  { s with data := Function.update s.data key (some value) }

/-- `heartbeat()` at time `now`. -/
def heartbeat (s : DashboardState) (now : CFloat) : DashboardState :=
  { s.update "esp32_heartbeat" (.bool true) with heartbeatTime := now }

/-- `snapshot()` at time `now`. -/
def snapshot (s : DashboardState) (now : CFloat) : String → Option PyValue :=
  if .fin 0 < s.heartbeatTime then
    let age := round1 (now - s.heartbeatTime)
    Function.update (Function.update s.data "esp32_heartbeat_age" (some (.float age)))
      "esp32_heartbeat" (some (.bool (decide (age < .fin 3))))
  else s.data

@[simp] theorem data_update_self (s : DashboardState) (key : String) (value : PyValue) :
    (s.update key value).data key = some value :=
  Function.update_self ..

theorem data_update_of_ne {key key' : String} (h : key' ≠ key) (s : DashboardState)
    (value : PyValue) : (s.update key value).data key' = s.data key' :=
  Function.update_of_ne h ..

theorem data_heartbeat_of_ne {key : String} (h : key ≠ "esp32_heartbeat") (s : DashboardState)
    (now : CFloat) : (s.heartbeat now).data key = s.data key :=
  data_update_of_ne h s _

/-- A snapshot shows what is stored, but for the heartbeat. -/
theorem snapshot_eq_data {key : String} (hbeat : key ≠ "esp32_heartbeat")
    (hage : key ≠ "esp32_heartbeat_age") (s : DashboardState) (now : CFloat) :
    s.snapshot now key = s.data key := by
  unfold snapshot
  by_cases hpos : CFloat.fin 0 < s.heartbeatTime
  · rw [if_pos hpos]
    show Function.update (Function.update s.data _ _) _ _ key = s.data key
    rw [Function.update_of_ne hbeat, Function.update_of_ne hage]
  · rw [if_neg hpos]

end DashboardState
end KartStack.KbDashboard
