/-!
# FloodMesh.Clock.Ticker

Regular ticks. A ticker falls due one resolution after it was started and every resolution from
then on. Time that passes in one leap makes all ticks fall due that lie in it, and none is skipped.
Times are in milliseconds.
-/

namespace FloodMesh

structure Ticker where
  /-- Time between two ticks, at least one millisecond. -/
  resolution : Nat
  /-- When the next tick is due. -/
  due : Nat
  running : Bool := true
  deriving DecidableEq, Repr

namespace Ticker

/-- A ticker started now. -/
def start (now resolution : Nat) : Ticker :=
  let resolution := max 1 resolution
  { resolution, due := now + resolution }

/-- How many ticks are due by now. -/
def overdue (t : Ticker) (now : Nat) : Nat :=
  if t.running ∧ t.due ≤ now then (now - t.due) / t.resolution + 1 else 0

/-- The ticker after so many ticks. -/
def advance (t : Ticker) (ticks : Nat) : Ticker := { t with due := t.due + ticks * t.resolution }

/-- A ticker that stands still for good. -/
def stop (t : Ticker) : Ticker := { t with running := false }

end Ticker
end FloodMesh
