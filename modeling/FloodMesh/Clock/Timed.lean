import FloodMesh.Clock.Ticker

/-!
# FloodMesh.Clock.Timed

A state that lives on a clock. Every tick of its ticker changes it; without a running ticker, time
passes and nothing happens.
-/

namespace FloodMesh

structure Timed (σ : Type) where
  state : σ
  now : Nat := 0
  ticker : Option Ticker := none

namespace Timed

variable {σ : Type}

/-- Change the state between ticks. -/
def change (f : σ → σ) (t : Timed σ) : Timed σ := { t with state := f t.state }

/-- Start a ticker now, in place of the one there is. -/
def start (resolution : Nat) (t : Timed σ) : Timed σ :=
  { t with ticker := some (.start t.now resolution) }

/-- Stop the ticker and keep it. -/
def stop (t : Timed σ) : Timed σ := { t with ticker := t.ticker.map Ticker.stop }

/-- Give up the ticker. -/
def drop (t : Timed σ) : Timed σ := { t with ticker := none }

/-- Let time pass: the ticks that fall due change the state one after another. -/
def pass (tick : σ → σ) (time : Nat) (t : Timed σ) : Timed σ :=
  let now := t.now + time
  match t.ticker with
  | none => { t with now }
  | some ticker =>
    let ticks := ticker.overdue now
    { state := ticks.repeat tick t.state, now, ticker := some (ticker.advance ticks) }

end Timed
end FloodMesh
