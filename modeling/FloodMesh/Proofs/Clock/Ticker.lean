import FloodMesh.Clock.Timed

/-!
# FloodMesh.Proofs.Clock.Ticker

Ticks that wait. Between the moment at which a tick falls due and the moment at which it passes,
other ticks may fall due behind it. `overdue_advance` says that letting some of them pass leaves the
others; so it makes no difference to a state on a clock how the time is cut up that passes, as long
as all ticks that are due have passed in the end: `pass_pass`, `pass_catchUp`.
-/

namespace FloodMesh

namespace Ticker

variable {t : Ticker} {now : Nat}

theorem lt_due_of_overdue (hrunning : t.running = true) (h : t.overdue now = 0) : now < t.due := by
  rw [overdue] at h
  split at h
  · cases h
  · rename_i hdue
    simp only [hrunning, true_and] at hdue
    omega

theorem overdue_before (h : now < t.due) : t.overdue now = 0 := by
  rw [overdue, if_neg fun hdue => Nat.lt_irrefl _ (Nat.lt_of_lt_of_le h hdue.2)]

theorem overdue_due (hrunning : t.running = true) : t.overdue t.due = 1 := by
  simp [overdue, hrunning]

/-- A ticker that never lags behind is due for one tick or none. -/
theorem overdue_cases (hrunning : t.running = true) (hnow : now ≤ t.due) :
    t.overdue now = 0 ∨ (now = t.due ∧ t.overdue now = 1) := by
  rcases Nat.lt_or_eq_of_le hnow with hlt | rfl
  · exact .inl (overdue_before hlt)
  · exact .inr ⟨rfl, overdue_due hrunning⟩

@[simp] theorem advance_zero (t : Ticker) : t.advance 0 = t := by simp [advance]

theorem due_le_of_overdue (h : t.overdue now ≠ 0) : t.due ≤ now :=
  Nat.le_of_not_lt fun hlater => h (overdue_before hlater)

theorem overdue_of_stopped (hstopped : t.running = false) (now : Nat) : t.overdue now = 0 := by
  simp [overdue, hstopped]

/-- More time, more ticks. -/
theorem overdue_mono {later : Nat} (h : now ≤ later) : t.overdue now ≤ t.overdue later := by
  simp only [overdue]
  split
  · rename_i hdue
    rw [if_pos ⟨hdue.1, Nat.le_trans hdue.2 h⟩]
    have hdiv : (now - t.due) / t.resolution ≤ (later - t.due) / t.resolution :=
      Nat.div_le_div_right (Nat.sub_le_sub_right h _)
    omega
  · exact Nat.zero_le _

/-- Ticks that pass are no longer due, and all others are. -/
theorem overdue_advance (hpos : 0 < t.resolution) {n : Nat} (hn : n ≤ t.overdue now) :
    (t.advance n).overdue now = t.overdue now - n := by
  by_cases hdue : t.running = true ∧ t.due ≤ now
  · have hoverdue : t.overdue now = (now - t.due) / t.resolution + 1 := if_pos hdue
    have hadvance : (t.advance n).overdue now =
        if t.due + n * t.resolution ≤ now then
          (now - (t.due + n * t.resolution)) / t.resolution + 1 else 0 := by
      simp only [overdue, advance, hdue.1, true_and]
    -- The last of the ticks that are due falls due at the latest now.
    have hlast : t.due + n * t.resolution ≤ now ↔ n ≤ (now - t.due) / t.resolution := by
      rw [Nat.le_div_iff_mul_le hpos]
      omega
    rw [hadvance, hoverdue]
    by_cases hle : n ≤ (now - t.due) / t.resolution
    · rw [if_pos (hlast.mpr hle), Nat.sub_add_eq, Nat.mul_comm, Nat.sub_mul_div]
      omega
    · rw [if_neg (mt hlast.mp hle)]
      omega
  · have hzero : t.overdue now = 0 := if_neg hdue
    rw [hzero, Nat.le_zero] at hn
    rw [hn, advance_zero, hzero]

@[simp] theorem advance_advance (t : Ticker) (m n : Nat) :
    (t.advance m).advance n = t.advance (m + n) := by
  simp only [advance, Nat.add_mul, Nat.add_assoc]

end Ticker

namespace Timed

variable {σ : Type} {tick : σ → σ}

/-- How many ticks are due and have not passed. -/
def overdue (t : Timed σ) : Nat :=
  match t.ticker with
  | none => 0
  | some k => k.overdue t.now

/-- The clock moves on, and ticks that fall due wait. -/
def elapse (time : Nat) (t : Timed σ) : Timed σ := { t with now := t.now + time }

/-- Of the ticks that are due, one passes. -/
def catchUp (tick : σ → σ) (t : Timed σ) : Timed σ :=
  match t.ticker with
  | none => t
  | some k =>
    if k.overdue t.now = 0 then t
    else { t with state := tick t.state, ticker := some (k.advance 1) }

/-- Ticks take time. -/
def Regular (t : Timed σ) : Prop := ∀ k ∈ t.ticker, 0 < k.resolution

theorem regular_start (resolution : Nat) (t : Timed σ) : (t.start resolution).Regular := by
  rintro k hk
  cases Option.mem_some.mp hk
  exact Nat.lt_of_lt_of_le Nat.zero_lt_one (Nat.le_max_left 1 resolution)

theorem repeat_add (f : σ → σ) (m n : Nat) (s : σ) :
    (m + n).repeat f s = m.repeat f (n.repeat f s) := by
  induction m with
  | zero => rw [Nat.zero_add]; rfl
  | succ m ih => rw [Nat.succ_add, Nat.repeat, ih]; rfl

variable {t : Timed σ}

theorem pass_of_overdue (h : t.overdue = 0) : t.pass tick 0 = t := by
  obtain ⟨state, now, ticker⟩ := t
  cases ticker with
  | none => rfl
  | some k =>
    have hnone : k.overdue (now + 0) = 0 := h
    simp only [pass, hnone, Ticker.advance_zero]
    rfl

/-- The state and the ticker after some of the ticks that fall due in a time have passed, and then
the others. -/
theorem pass_advanced {k : Ticker} (hclock : t.ticker = some k) (hpos : 0 < k.resolution)
    {n time : Nat} (hn : n ≤ k.overdue (t.now + time)) :
    ({ t with state := n.repeat tick t.state, ticker := some (k.advance n) } : Timed σ).pass tick
      time = t.pass tick time := by
  have hrest := Ticker.overdue_advance hpos hn
  have hsum : k.overdue (t.now + time) - n + n = k.overdue (t.now + time) := by omega
  have hstate : (k.overdue (t.now + time) - n).repeat tick (n.repeat tick t.state) =
      (k.overdue (t.now + time)).repeat tick t.state := by
    rw [← repeat_add, hsum]
  simp only [pass, hclock, hrest, hstate, Ticker.advance_advance, Nat.add_comm n, hsum]

theorem pass_elapse (t : Timed σ) (a b : Nat) : (t.elapse a).pass tick b = t.pass tick (a + b) := by
  simp only [pass, elapse, Nat.add_assoc]

/-- A tick that passes early makes no difference later. -/
theorem pass_catchUp (hregular : t.Regular) (time : Nat) :
    (t.catchUp tick).pass tick time = t.pass tick time := by
  cases hclock : t.ticker with
  | none => simp only [catchUp, hclock]
  | some k =>
    by_cases hnone : k.overdue t.now = 0
    · simp only [catchUp, hclock, hnone, if_true]
    · have hone : 1 ≤ k.overdue (t.now + time) :=
        Nat.le_trans (Nat.one_le_iff_ne_zero.mpr hnone) (Ticker.overdue_mono (Nat.le_add_right ..))
      rw [← pass_advanced hclock (hregular k hclock) hone]
      simp only [catchUp, hclock, hnone, if_false]
      rfl

theorem pass_pass (hregular : t.Regular) (a b : Nat) :
    (t.pass tick a).pass tick b = t.pass tick (a + b) := by
  cases hclock : t.ticker with
  | none => simp only [pass, hclock, Nat.add_assoc]
  | some k =>
    have hclock' : (t.elapse a).ticker = some k := hclock
    have hle : k.overdue (t.now + a) ≤ k.overdue ((t.elapse a).now + b) :=
      Ticker.overdue_mono (Nat.le_add_right ..)
    rw [← pass_elapse, ← pass_advanced hclock' (hregular k hclock) hle]
    simp only [pass, hclock, elapse]

theorem overdue_catchUp (hregular : t.Regular) : (t.catchUp tick).overdue = t.overdue - 1 := by
  cases hclock : t.ticker with
  | none => simp only [catchUp, overdue, hclock]
  | some k =>
    by_cases hnone : k.overdue t.now = 0
    · simp only [catchUp, overdue, hclock, hnone, if_true]
    · simp only [catchUp, overdue, hclock, hnone, if_false]
      exact Ticker.overdue_advance (hregular k hclock) (Nat.one_le_iff_ne_zero.mpr hnone)

theorem Regular.elapse (h : t.Regular) (time : Nat) : (t.elapse time).Regular := h

theorem Regular.catchUp (h : t.Regular) (tick : σ → σ) : (t.catchUp tick).Regular := by
  rw [Timed.catchUp]
  split
  · exact h
  · rename_i k hclock
    split
    · exact h
    · intro k' hk'
      cases Option.mem_some.mp hk'
      exact h k hclock

end Timed
end FloodMesh
