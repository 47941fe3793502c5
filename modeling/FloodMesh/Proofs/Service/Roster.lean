import FloodMesh.Address.Basic
import Mathlib.Data.List.Count
import Mathlib.Data.List.Dedup
import Mathlib.Tactic.MkIffOfInductiveProp

/-!
# FloodMesh.Proofs.Service.Roster

What a table of peers hears, and who should then be in it: an endpoint whose last signal was to
connect, if fewer ticks than it lives have passed since. `roster` lists these endpoints, those that
connected last behind, each with its ticks.

A roster is read off the whole history at once, from the front. Its lemmas say what one more signal
at the end of the history changes.
-/

namespace FloodMesh

inductive Signal
  | connect (e : Endpoint)
  | disconnect (e : Endpoint)
  | tick
  deriving DecidableEq

/-- What came after an endpoint connected is no other signal of its own, and fewer ticks than it
lives. -/
@[mk_iff]
structure Lasts (ttl : Nat) (e : Endpoint) (later : List Signal) : Prop where
  connect : .connect e ∉ later
  disconnect : .disconnect e ∉ later
  ticks : later.count .tick < ttl

def Standing (ttl : Nat) (signals : List Signal) (e : Endpoint) : Prop :=
  ∃ before later, signals = before ++ .connect e :: later ∧ Lasts ttl e later

/-- The last connection of one endpoint came before the last one of the other. -/
def ConnectedBefore (signals : List Signal) (a b : Endpoint) : Prop :=
  ∃ before between later, signals = before ++ .connect a :: (between ++ .connect b :: later) ∧
    .connect a ∉ between ++ .connect b :: later ∧ .connect b ∉ later

variable {ttl : Nat} {signals later : List Signal} {e : Endpoint}

instance : Decidable (Lasts ttl e later) := decidable_of_iff' _ (lasts_iff ttl e later)

/-- The endpoints that stand, in the order of their last connections, with the ticks since. -/
def roster (ttl : Nat) : List Signal → List (Endpoint × Nat)
  | [] => []
  | .connect e :: later =>
    if Lasts ttl e later then (e, later.count .tick) :: roster ttl later else roster ttl later
  | _ :: later => roster ttl later

/-! ## Who is listed -/

theorem mem_roster {x : Endpoint × Nat} : x ∈ roster ttl signals ↔
    ∃ before later, signals = before ++ .connect x.1 :: later ∧ Lasts ttl x.1 later ∧
      x.2 = later.count .tick := by
  induction signals with
  | nil => simp [roster]
  | cons s signals ih =>
    have htail : (∃ before later, s :: signals = before ++ .connect x.1 :: later ∧
          Lasts ttl x.1 later ∧ x.2 = later.count .tick) ↔
        (s = .connect x.1 ∧ Lasts ttl x.1 signals ∧ x.2 = signals.count .tick) ∨
          x ∈ roster ttl signals := by
      rw [ih]
      constructor
      · rintro ⟨before, later, heq, hrest⟩
        cases before with
        | nil =>
          cases heq
          exact .inl ⟨rfl, hrest⟩
        | cons s' before =>
          cases heq
          exact .inr ⟨before, later, rfl, hrest⟩
      · rintro (⟨rfl, hrest⟩ | ⟨before, later, rfl, hrest⟩)
        · exact ⟨[], signals, rfl, hrest⟩
        · exact ⟨s :: before, later, rfl, hrest⟩
    rw [htail]
    cases s with
    | disconnect e => simp [roster]
    | tick => simp [roster]
    | connect e =>
      rw [roster]
      split <;> rename_i hlasts
      · rw [List.mem_cons, Prod.ext_iff]
        constructor
        · rintro (⟨hfst, hsnd⟩ | hx)
          · exact .inl ⟨by rw [hfst], hfst ▸ hlasts, hsnd⟩
          · exact .inr hx
        · rintro (⟨hs, _, hsnd⟩ | hx)
          · cases hs
            exact .inl ⟨rfl, hsnd⟩
          · exact .inr hx
      · constructor
        · exact .inr
        · rintro (⟨hs, hlasts', _⟩ | hx)
          · cases hs
            exact absurd hlasts' hlasts
          · exact hx

theorem mem_roster_endpoints : e ∈ (roster ttl signals).map (·.1) ↔ Standing ttl signals e := by
  rw [List.mem_map]
  constructor
  · rintro ⟨x, hx, rfl⟩
    obtain ⟨before, later, heq, hlasts, _⟩ := mem_roster.mp hx
    exact ⟨before, later, heq, hlasts⟩
  · rintro ⟨before, later, heq, hlasts⟩
    exact ⟨(e, later.count .tick), mem_roster.mpr ⟨before, later, heq, hlasts, rfl⟩, rfl⟩

theorem ticks_lt_of_mem_roster {x : Endpoint × Nat} (h : x ∈ roster ttl signals) : x.2 < ttl := by
  obtain ⟨_, later, _, hlasts, hticks⟩ := mem_roster.mp h
  rw [hticks]
  exact hlasts.ticks

theorem roster_ordered :
    (roster ttl signals).Pairwise fun a b => ConnectedBefore signals a.1 b.1 := by
  induction signals with
  | nil => exact List.Pairwise.nil
  | cons s signals ih =>
    have htail : (roster ttl signals).Pairwise fun a b =>
        ConnectedBefore (s :: signals) a.1 b.1 := by
      refine ih.imp ?_
      rintro a b ⟨before, between, later, rfl, hrest⟩
      exact ⟨s :: before, between, later, rfl, hrest⟩
    cases s with
    | disconnect e => exact htail
    | tick => exact htail
    | connect e =>
      rw [roster]
      split <;> rename_i hlasts
      · refine List.Pairwise.cons (fun x hx => ?_) htail
        obtain ⟨between, later, rfl, hlasts', _⟩ := mem_roster.mp hx
        exact ⟨[], between, later, rfl, hlasts.connect, hlasts'.connect⟩
      · exact htail

/-- An endpoint that connects again goes behind the others and has its whole time before it. -/
example :
    let a : Endpoint := { ip := .unspecified, port := 1 }
    let b : Endpoint := { ip := .unspecified, port := 2 }
    roster 2 [.connect a, .connect b, .tick, .connect a] = [(b, 1), (a, 0)] ∧
      roster 2 [.connect a, .connect b, .tick, .connect a, .tick] = [(a, 1)] := by
  decide

theorem ConnectedBefore.ne {a b : Endpoint} (h : ConnectedBefore signals a b) : a ≠ b := by
  rintro rfl
  obtain ⟨_, between, later, _, hnot, _⟩ := h
  exact hnot (by simp)

theorem roster_distinct : (roster ttl signals).Pairwise fun a b => a.1 ≠ b.1 :=
  roster_ordered.imp fun h => h.ne

/-- Of distinct endpoints, one is taken out by leaving out all that are equal to it. -/
theorem eraseP_of_distinct {entries : List (Endpoint × Nat)}
    (h : entries.Pairwise fun a b => a.1 ≠ b.1) (e : Endpoint) :
    entries.eraseP (fun x => x.1 == e) = entries.filter fun x => x.1 != e := by
  induction h with
  | nil => rfl
  | @cons x rest hx _ ih =>
    by_cases he : x.1 = e
    · have hrest : rest.filter (fun y => y.1 != e) = rest :=
        List.filter_eq_self.mpr fun y hy => by simpa [← he] using (hx y hy).symm
      simp [he, hrest]
    · simp [he, ih]

/-! ## One more signal -/

theorem lasts_tick :
    Lasts ttl e (later ++ [.tick]) ↔ Lasts ttl e later ∧ later.count .tick + 1 < ttl := by
  constructor
  · intro ⟨hconnect, hdisconnect, hticks⟩
    simp only [List.mem_append, not_or, List.count_append, List.count_singleton_self] at *
    exact ⟨⟨hconnect.1, hdisconnect.1, by omega⟩, hticks⟩
  · intro ⟨h, hticks⟩
    exact ⟨by simp [h.connect], by simp [h.disconnect], by simpa using hticks⟩

theorem lasts_disconnect {e' : Endpoint} :
    Lasts ttl e (later ++ [.disconnect e']) ↔ Lasts ttl e later ∧ e ≠ e' := by
  constructor
  · intro ⟨hconnect, hdisconnect, hticks⟩
    simp only [List.mem_append, not_or, List.count_append, List.mem_singleton] at *
    exact ⟨⟨hconnect.1, hdisconnect.1, by omega⟩, fun he => hdisconnect.2 (by rw [he])⟩
  · intro ⟨h, he⟩
    exact ⟨by simp [h.connect], by simp [h.disconnect, he], by simpa using h.ticks⟩

theorem lasts_connect {e' : Endpoint} :
    Lasts ttl e (later ++ [.connect e']) ↔ Lasts ttl e later ∧ e ≠ e' := by
  constructor
  · intro ⟨hconnect, hdisconnect, hticks⟩
    simp only [List.mem_append, not_or, List.count_append, List.mem_singleton] at *
    exact ⟨⟨hconnect.1, hdisconnect.1, by omega⟩, fun he => hconnect.2 (by rw [he])⟩
  · intro ⟨h, he⟩
    exact ⟨by simp [h.connect, he], by simp [h.disconnect], by simpa using h.ticks⟩

theorem roster_tick : roster ttl (signals ++ [.tick]) =
    ((roster ttl signals).filter fun x => x.2 + 1 < ttl).map fun x => (x.1, x.2 + 1) := by
  induction signals with
  | nil => rfl
  | cons s signals ih =>
    cases s with
    | disconnect e => exact ih
    | tick => exact ih
    | connect e =>
      rw [List.cons_append, roster, roster, ih]
      by_cases hlasts : Lasts ttl e signals
      · by_cases hticks : signals.count .tick + 1 < ttl <;> simp [lasts_tick, hlasts, hticks]
      · simp [lasts_tick, hlasts]

theorem roster_disconnect : roster ttl (signals ++ [.disconnect e]) =
    (roster ttl signals).filter fun x => x.1 != e := by
  induction signals with
  | nil => rfl
  | cons s signals ih =>
    cases s with
    | disconnect e => exact ih
    | tick => exact ih
    | connect e' =>
      rw [List.cons_append, roster, roster, ih]
      by_cases hlasts : Lasts ttl e' signals
      · rw [if_pos hlasts]
        by_cases he : e' = e <;> simp [lasts_disconnect, hlasts, he]
      · simp [lasts_disconnect, hlasts]

theorem roster_connect (httl : 0 < ttl) : roster ttl (signals ++ [.connect e]) =
    ((roster ttl signals).filter fun x => x.1 != e) ++ [(e, 0)] := by
  induction signals with
  | nil =>
    have hlasts : Lasts ttl e [] := ⟨by simp, by simp, httl⟩
    simp [roster, hlasts]
  | cons s signals ih =>
    cases s with
    | disconnect e => exact ih
    | tick => exact ih
    | connect e' =>
      rw [List.cons_append, roster, roster, ih]
      by_cases hlasts : Lasts ttl e' signals
      · rw [if_pos hlasts]
        by_cases he : e' = e <;> simp [lasts_connect, hlasts, he]
      · simp [lasts_connect, hlasts]

theorem mem_roster_connect (httl : 0 < ttl) : (e, 0) ∈ roster ttl (signals ++ [.connect e]) := by
  rw [roster_connect httl]
  exact List.mem_append_right _ (List.mem_singleton_self _)

theorem mem_roster_tick {ticks : Nat} (h : (e, ticks) ∈ roster ttl signals)
    (hticks : ticks + 1 < ttl) : (e, ticks + 1) ∈ roster ttl (signals ++ [.tick]) := by
  rw [roster_tick]
  exact List.mem_map.mpr ⟨_, List.mem_filter.mpr ⟨h, decide_eq_true hticks⟩, rfl⟩

/-- No signal but a tick or its own disconnection takes any time from an endpoint. -/
theorem mem_roster_snoc {ticks : Nat} (h : (e, ticks) ∈ roster ttl signals) {s : Signal}
    (htick : s ≠ .tick) (hstay : s ≠ .disconnect e) :
    ∃ ticks' ≤ ticks, (e, ticks') ∈ roster ttl (signals ++ [s]) := by
  have httl : 0 < ttl := Nat.zero_lt_of_lt (ticks_lt_of_mem_roster h)
  have hkeep : ∀ e', e ≠ e' → (e, ticks) ∈ (roster ttl signals).filter fun x => x.1 != e' :=
    fun e' he => List.mem_filter.mpr ⟨h, bne_iff_ne.mpr he⟩
  cases s with
  | tick => exact absurd rfl htick
  | disconnect e' =>
    rw [roster_disconnect]
    exact ⟨ticks, Nat.le_refl _, hkeep e' fun he => hstay (by rw [he])⟩
  | connect e' =>
    by_cases he : e = e'
    · subst he
      exact ⟨0, Nat.zero_le _, mem_roster_connect httl⟩
    · rw [roster_connect httl]
      exact ⟨ticks, Nat.le_refl _, List.mem_append_left _ (hkeep e' he)⟩

/-- Endpoints that connect at once and are left alone stand for as long as they live, in the order of
their last connections. -/
theorem roster_connects (es : List Endpoint) (n : Nat) :
    roster ttl (es.map .connect ++ List.replicate n .tick) =
      if n < ttl then es.dedup.map fun e => (e, n) else [] := by
  induction es with
  | nil =>
    have hticks : ∀ n, roster ttl (List.replicate n .tick) = [] := by
      intro n
      induction n with
      | zero => rfl
      | succ n ih => exact ih
    simp [hticks]
  | cons e es ih =>
    have hcount : (es.map Signal.connect ++ List.replicate n Signal.tick).count .tick = n := by
      have hnone : (es.map Signal.connect).count .tick = 0 :=
        List.count_eq_zero.mpr fun h => by simp at h
      rw [List.count_append, hnone, List.count_replicate_self, Nat.zero_add]
    have hlasts : Lasts ttl e (es.map .connect ++ List.replicate n .tick) ↔ e ∉ es ∧ n < ttl := by
      rw [lasts_iff, hcount]
      simp
    rw [List.map_cons, List.cons_append, roster, hcount, ih]
    by_cases hlive : n < ttl
    · by_cases hmem : e ∈ es
      · simp [hlasts, hlive, hmem]
      · simp [hlasts, hlive, hmem]
    · simp [hlasts, hlive]

/-- Nobody is left of whom as many ticks as an endpoint lives have passed. -/
theorem roster_lapsed (e : Endpoint) :
    roster ttl (.connect e :: List.replicate ttl .tick) = [] := by
  have hone := @roster_connects ttl [e] ttl
  rwa [if_neg (Nat.lt_irrefl ttl)] at hone

end FloodMesh
