import FloodMesh.Proofs.Clock.Ticker
import FloodMesh.Proofs.Lease.Custody

/-!
# FloodMesh.Proofs.Clock.Lifetime

How long an entry lives by the clock. The table counts ticks, a ticker that was started with the
table lets one pass for each resolution of time, and ticks that fall due may wait. An entry is
present as long as fewer ticks have fallen due since its insertion than it lives, whatever moments
the ticks pass at: `lives_by_the_clock`.

* `Dated`: the invariant. The ledger's clock is the number of ticks that have passed, and the lease
  under a key is due a whole number of ticks after the tick before its last insertion.
* `pass_of_quiet`: however time is cut into sleeps and jumps, the same time does the same.
* `Halted.after`: without a running ticker nothing expires.
-/

namespace FloodMesh

variable {κ ν : Type}

/-- A table with all that it has done on its own. -/
structure Chronicle (κ ν : Type) where
  table : LeaseTable κ ν
  events : List (LeaseEvent κ ν) := []

namespace Chronicle

variable [BEq κ] [Hashable κ]

/-- Carry out an operation and add what the table does. -/
def perform (c : Chronicle κ ν) (op : LeaseOp κ ν) : Chronicle κ ν :=
  let s := c.table.perform op
  { table := s.table, events := c.events ++ s.events }

def tick (c : Chronicle κ ν) : Chronicle κ ν := c.perform .tick

end Chronicle

/-- What happens to a table on a clock. In a sleep, ticks pass between times that elapse; after a
jump, they pass one upon another. -/
inductive ClockEvent (κ ν : Type)
  | elapse (time : Nat)
  | tick
  | insert (key : κ) (value : ν)

namespace ClockEvent

def time : ClockEvent κ ν → Nat
  | elapse time => time
  | _ => 0

def isInsert : ClockEvent κ ν → Bool
  | insert _ _ => true
  | _ => false

end ClockEvent

/-- How much time elapses. -/
def elapsed (evs : List (ClockEvent κ ν)) : Nat := (evs.map (·.time)).sum

@[simp] theorem elapsed_snoc (evs : List (ClockEvent κ ν)) (ev : ClockEvent κ ν) :
    elapsed (evs ++ [ev]) = elapsed evs + ev.time := by
  simp [elapsed]

/-! ## Insertions under a key -/

section Keyed

variable [BEq κ]

/-- The last insertion under an equal key: its value and its time. -/
def LastInserted (evs : List (ClockEvent κ ν)) (key : κ) (value : ν) (time : Nat) : Prop :=
  ∃ before k later, evs = before ++ .insert k value :: later ∧ (k == key) = true ∧
    (∀ k' v, .insert k' v ∈ later → (k' == key) = false) ∧ time = elapsed before

/-- Nothing was inserted under an equal key. -/
def Unused (evs : List (ClockEvent κ ν)) (key : κ) : Prop :=
  ∀ k v, .insert k v ∈ evs → (k == key) = false

variable {evs : List (ClockEvent κ ν)} {ev : ClockEvent κ ν} {key : κ} {value : ν} {time : Nat}

/-- One more event is the last insertion itself, or it leaves the one before the last. -/
theorem LastInserted.snoc_cases (h : LastInserted (evs ++ [ev]) key value time) :
    (∃ k, ev = .insert k value ∧ (k == key) = true ∧ time = elapsed evs) ∨
      ((∀ k v, ev = .insert k v → (k == key) = false) ∧ LastInserted evs key value time) := by
  obtain ⟨before, k, later, hsplit, hkey, hothers, rfl⟩ := h
  rcases List.eq_nil_or_concat' later with rfl | ⟨later, last, rfl⟩
  · obtain ⟨rfl, hlast⟩ := List.append_inj' hsplit rfl
    exact .inl ⟨k, List.singleton_inj.mp hlast, hkey, rfl⟩
  · rw [← List.cons_append, ← List.append_assoc] at hsplit
    obtain ⟨hevs, hlast⟩ := List.append_inj' hsplit rfl
    obtain rfl := List.singleton_inj.mp hlast
    refine .inr ⟨fun k' v hins => ?_, before, k, later, hevs, hkey, fun k' v hmem => ?_, rfl⟩
    · exact hothers k' v (List.mem_append_right _ (hins ▸ List.mem_cons_self))
    · exact hothers k' v (List.mem_append_left _ hmem)

theorem Unused.of_snoc (h : Unused (evs ++ [ev]) key) :
    (∀ k v, ev = .insert k v → (k == key) = false) ∧ Unused evs key :=
  ⟨fun k v hins => h k v (List.mem_append_right _ (hins ▸ List.mem_cons_self)),
    fun k v hmem => h k v (List.mem_append_left _ hmem)⟩

theorem unused_append {evs evs' : List (ClockEvent κ ν)} {key : κ} :
    Unused (evs ++ evs') key ↔ Unused evs key ∧ Unused evs' key := by
  simp only [Unused, List.mem_append, or_imp, forall_and]

end Keyed

/-! ## What a table takes in -/

namespace Chronicle

variable [BEq κ] [Hashable κ]

/-- Nothing has expired in the course of events: the table has what it had and what they insert. -/
structure Accrues (c : Chronicle κ ν) (evs : List (ClockEvent κ ν)) (c' : Chronicle κ ν) :
    Prop where
  events : ∃ given, c'.events = c.events ++ given ∧ ∀ key value, .expired key value ∉ given
  contains : ∀ key, c'.table.contains key = true ↔
    c.table.contains key = true ∨ ¬ Unused evs key

namespace Accrues

variable {c c' c'' : Chronicle κ ν} {evs evs' : List (ClockEvent κ ν)}

theorem nothing (c : Chronicle κ ν) : c.Accrues [] c where
  events := ⟨[], (List.append_nil _).symm, fun _ _ => List.not_mem_nil⟩
  contains key := by
    have hunused : Unused ([] : List (ClockEvent κ ν)) key := fun _ _ hmem => nomatch hmem
    simp [hunused]

theorem of_quiet {ev : ClockEvent κ ν} (hev : ev.isInsert = false) : c.Accrues [ev] c where
  events := (nothing c).events
  contains key := by
    have hunused : Unused [ev] key := by
      intro k v hmem
      rw [← List.mem_singleton.mp hmem] at hev
      cases hev
    simp [hunused]

theorem append (h : c.Accrues evs c') (h' : c'.Accrues evs' c'') :
    c.Accrues (evs ++ evs') c'' where
  events := by
    obtain ⟨given, hevents, hnone⟩ := h.events
    obtain ⟨given', hevents', hnone'⟩ := h'.events
    refine ⟨given ++ given', by rw [hevents', hevents, List.append_assoc], fun key value hmem => ?_⟩
    exact (List.mem_append.mp hmem).elim (hnone key value) (hnone' key value)
  contains key := by
    rw [h'.contains, h.contains, unused_append, not_and_or, or_assoc]

end Accrues

theorem accrues_insert [EquivBEq κ] [LawfulHashable κ] {c : Chronicle κ ν} {l : Ledger κ ν}
    (h : Tracks c.table l) (k : κ) (v : ν) :
    c.Accrues [.insert k v] (c.perform (.insert k v)) where
  events := by
    refine ⟨(c.table.perform (.insert k v)).events, rfl, fun key value hmem => ?_⟩
    rw [(h.perform (.insert k v)).2.1] at hmem
    obtain ⟨x, _, hreleased⟩ := List.mem_map.mp hmem
    cases hreleased
  contains key := by
    have hafter := (h.perform (.insert k v)).2.2.agrees.contains key
    have hbefore := h.agrees.contains key
    have hunused : Unused [ClockEvent.insert k v] key ↔ (k == key) = false := by
      constructor
      · exact fun hun => hun k v List.mem_cons_self
      · rintro hkey k' v' hmem
        cases List.mem_singleton.mp hmem
        exact hkey
    have hfind : (l.perform (.insert k v)).ledger.find? key =
        if k == key then some ⟨k, v, l.clock + l.ttl⟩ else l.find? key :=
      h.find?_renewed (k, v) key
    show (c.table.perform (.insert k v)).table.contains key = true ↔ _
    rw [hafter, hbefore, hfind, hunused]
    cases k == key <;> simp

end Chronicle

/-! ## A table on a clock -/

namespace Timed

variable [BEq κ] [Hashable κ]

/-- A table without entries, and a ticker started at time zero. -/
def outset (ttl buckets resolution : Nat) : Timed (Chronicle κ ν) :=
  Timed.start resolution { state := { table := .empty ttl buckets } }

def step (t : Timed (Chronicle κ ν)) : ClockEvent κ ν → Timed (Chronicle κ ν)
  | .elapse time => t.elapse time
  | .tick => t.catchUp Chronicle.tick
  | .insert k v => t.change (·.perform (.insert k v))

def after (t : Timed (Chronicle κ ν)) (evs : List (ClockEvent κ ν)) : Timed (Chronicle κ ν) :=
  evs.foldl step t

/-- Insertions are made when no tick is due. -/
def Punctual (t : Timed (Chronicle κ ν)) : List (ClockEvent κ ν) → Prop
  | [] => True
  | ev :: evs => (ev.isInsert = true → t.overdue = 0) ∧ Punctual (t.step ev) evs

theorem after_snoc (t : Timed (Chronicle κ ν)) (evs : List (ClockEvent κ ν))
    (ev : ClockEvent κ ν) : t.after (evs ++ [ev]) = (t.after evs).step ev := by
  rw [after, List.foldl_append]
  rfl

theorem Punctual.of_snoc {t : Timed (Chronicle κ ν)} {evs : List (ClockEvent κ ν)}
    {ev : ClockEvent κ ν} (h : t.Punctual (evs ++ [ev])) :
    t.Punctual evs ∧ (ev.isInsert = true → (t.after evs).overdue = 0) := by
  induction evs generalizing t with
  | nil => exact ⟨trivial, h.1⟩
  | cons first evs ih =>
    obtain ⟨hevs, hlast⟩ := ih h.2
    exact ⟨⟨h.1, hevs⟩, hlast⟩

variable {t : Timed (Chronicle κ ν)}

/-! ## Time cut up -/

theorem Regular.step (h : t.Regular) (ev : ClockEvent κ ν) : (t.step ev).Regular := by
  cases ev with
  | elapse time => exact h.elapse time
  | tick => exact h.catchUp Chronicle.tick
  | insert k v => exact h

theorem Regular.after (h : t.Regular) (evs : List (ClockEvent κ ν)) : (t.after evs).Regular := by
  induction evs generalizing t with
  | nil => exact h
  | cons ev evs ih => exact ih (h.step ev)

/-- What happens without insertions until nothing is due is that so much time passes. -/
theorem pass_of_quiet (h : t.Regular) {quiet : List (ClockEvent κ ν)}
    (hquiet : ∀ ev ∈ quiet, ev.isInsert = false) (hcaught : (t.after quiet).overdue = 0) :
    t.after quiet = t.pass Chronicle.tick (elapsed quiet) := by
  -- Whatever waits would pass if no more time did.
  suffices hpass : ∀ quiet : List (ClockEvent κ ν), (∀ ev ∈ quiet, ev.isInsert = false) →
      (t.after quiet).pass Chronicle.tick 0 = t.pass Chronicle.tick (elapsed quiet) by
    rw [← hpass quiet hquiet, pass_of_overdue hcaught]
  clear hquiet hcaught quiet
  intro quiet hquiet
  induction quiet generalizing t with
  | nil => rfl
  | cons ev quiet ih =>
    have hrest := ih (h.step ev) fun ev' hev' => hquiet ev' (List.mem_cons_of_mem ev hev')
    have hsum : elapsed (ev :: quiet) = ev.time + elapsed quiet := rfl
    refine hrest.trans ?_
    rw [hsum]
    cases ev with
    | elapse time => exact t.pass_elapse time _
    | tick =>
      show _ = t.pass Chronicle.tick (0 + elapsed quiet)
      rw [Nat.zero_add]
      exact pass_catchUp h _
    | insert k v => exact absurd (hquiet _ List.mem_cons_self) (by simp [ClockEvent.isInsert])

/-- A jump over a time: all of it elapses at once, and then pass all ticks that have fallen due. -/
def jump (t : Timed (Chronicle κ ν)) (time : Nat) : List (ClockEvent κ ν) :=
  .elapse time :: List.replicate (t.elapse time).overdue .tick

/-- After a jump nothing is due. -/
theorem overdue_jump (h : t.Regular) (time : Nat) : (t.after (t.jump time)).overdue = 0 := by
  have hticks : ∀ (n : Nat) (u : Timed (Chronicle κ ν)), u.Regular → u.overdue = n →
      (u.after (List.replicate n .tick)).overdue = 0 := by
    intro n
    induction n with
    | zero => exact fun u _ hnone => hnone
    | succ n ih =>
      intro u hu hdue
      refine ih (u.catchUp Chronicle.tick) (hu.catchUp _) ?_
      rw [overdue_catchUp hu, hdue, Nat.add_sub_cancel]
  exact hticks _ (t.elapse time) (h.elapse time) rfl

theorem after_jump (h : t.Regular) (time : Nat) :
    t.after (t.jump time) = t.pass Chronicle.tick time := by
  have hquiet : ∀ ev ∈ t.jump time, ev.isInsert = false := by
    intro ev hev
    rcases List.mem_cons.mp hev with rfl | hev
    · rfl
    · rw [(List.mem_replicate.mp hev).2]
      rfl
  have helapsed : elapsed (t.jump time) = time := by
    simp [elapsed, jump, ClockEvent.time]
  rw [pass_of_quiet h hquiet (overdue_jump h time), helapsed]

/-- Small sleeps one after another are one jump over all of them. -/
theorem pass_sum (h : t.Regular) (hcaught : t.overdue = 0) (times : List Nat) :
    times.foldl (fun u time => u.pass Chronicle.tick time) t =
      t.pass Chronicle.tick times.sum := by
  induction times using List.reverseRecOn with
  | nil => exact (pass_of_overdue hcaught).symm
  | append_singleton times time ih =>
    rw [List.foldl_append, ih, List.foldl_cons, List.foldl_nil, pass_pass h, List.sum_append,
      List.sum_singleton]

/-! ## Ticks and dates -/

section Lawful

variable [EquivBEq κ] [LawfulHashable κ]

omit [LawfulHashable κ] in
/-- A tick leaves the lease under a key unless it is due then. -/
theorem find?_tick {table : LeaseTable κ ν} {l : Ledger κ ν} (h : Tracks table l) (key : κ) :
    (l.perform .tick).ledger.find? key =
      (l.find? key).filter fun x => l.clock + 1 < x.due := by
  have hleases : ∀ leases : List (Lease κ ν),
      leases.Pairwise (fun x y => (x.key == y.key) = false) →
      (leases.filter fun x => l.clock + 1 < x.due).find? (·.key == key) =
        (leases.find? (·.key == key)).filter fun x => l.clock + 1 < x.due := by
    intro leases hdistinct
    induction leases with
    | nil => rfl
    | cons x rest ih =>
      obtain ⟨hx, hrest⟩ := List.pairwise_cons.mp hdistinct
      by_cases hkey : (x.key == key) = true
      · by_cases hdue : l.clock + 1 < x.due
        · simp [hkey, hdue, Option.filter]
        · have hnone : ∀ y ∈ rest, (y.key == key) = false := by
            intro y hy
            by_contra hequal
            have hequal : (y.key == key) = true := by simpa using hequal
            have hsame : (x.key == y.key) = true := BEq.trans hkey (BEq.symm hequal)
            rw [hx y hy] at hsame
            cases hsame
          have hgone : (rest.filter fun x => l.clock + 1 < x.due).find? (·.key == key) = none :=
            List.find?_eq_none.mpr fun y hy => by simp [hnone y (List.mem_of_mem_filter hy)]
          simp [hkey, hdue, hgone, Option.filter]
      · by_cases hdue : l.clock + 1 < x.due <;> simp [hkey, hdue, ih hrest]
  exact hleases l.leases h.distinct

/-- The ledger that the table follows has the number of ticks that have passed on its clock. The
lease under a key is the one of its last insertion, and lives so many ticks from the one before
it. -/
structure Dated (r ttl : Nat) (evs : List (ClockEvent κ ν)) (t : Timed (Chronicle κ ν))
    (l : Ledger κ ν) : Prop where
  tracks : Tracks t.state.table l
  ttl_eq : l.ttl = ttl
  now_eq : t.now = elapsed evs
  ticker : t.ticker = some { resolution := r, due := (l.clock + 1) * r }
  passed : l.clock * r ≤ t.now
  found : ∀ key value time, LastInserted evs key value time →
    (l.find? key).map (fun x => (x.value, x.due)) =
      if l.clock < time / r + ttl then some (value, time / r + ttl) else none
  absent : ∀ key, Unused evs key → l.find? key = none

namespace Dated

variable {r ttl : Nat} {evs : List (ClockEvent κ ν)} {l : Ledger κ ν}

omit [EquivBEq κ] [LawfulHashable κ] in
theorem outset (ttl buckets resolution : Nat) :
    Dated (max 1 resolution) (max ttl 1) [] (outset ttl buckets resolution : Timed (Chronicle κ ν))
      (.empty ttl) where
  tracks := tracks_empty ttl buckets
  ttl_eq := rfl
  now_eq := rfl
  ticker := by
    show some (Ticker.start 0 resolution) = _
    rw [Ticker.start, Ledger.empty, Nat.zero_add, Nat.zero_add, Nat.one_mul]
  passed := by
    rw [Ledger.empty, Nat.zero_mul]
    exact Nat.zero_le _
  found := by
    rintro key value time ⟨before, k, later, hsplit, _⟩
    simp at hsplit
  absent _ _ := rfl

omit [EquivBEq κ] [LawfulHashable κ] in
/-- When nothing is due, so many ticks have passed as resolutions. -/
theorem clock_eq (h : Dated r ttl evs t l) (hcaught : t.overdue = 0) : l.clock = t.now / r := by
  have hnext : t.now < (l.clock + 1) * r := by
    rw [overdue, h.ticker] at hcaught
    exact Ticker.lt_due_of_overdue rfl hcaught
  exact (Nat.div_eq_of_lt_le h.passed hnext).symm

omit [EquivBEq κ] [LawfulHashable κ] in
theorem elapse (h : Dated r ttl evs t l) (time : Nat) :
    Dated r ttl (evs ++ [.elapse time]) (t.elapse time) l where
  tracks := h.tracks
  ttl_eq := h.ttl_eq
  now_eq := by
    rw [elapsed_snoc, ← h.now_eq]
    rfl
  ticker := h.ticker
  passed := Nat.le_trans h.passed (Nat.le_add_right ..)
  found key value at_ hlast := by
    rcases hlast.snoc_cases with ⟨_, hins, _⟩ | ⟨_, hbefore⟩
    · cases hins
    · exact h.found key value at_ hbefore
  absent key hunused := h.absent key hunused.of_snoc.2

theorem tick (h : Dated r ttl evs t l) :
    ∃ l', Dated r ttl (evs ++ [.tick]) (t.catchUp Chronicle.tick) l' := by
  have hunchanged : ∀ key value time, LastInserted (evs ++ [.tick]) key value time →
      LastInserted evs key value time := by
    intro key value time hlast
    rcases hlast.snoc_cases with ⟨_, hins, _⟩ | ⟨_, hbefore⟩
    · cases hins
    · exact hbefore
  by_cases hnone : ({ resolution := r, due := (l.clock + 1) * r } : Ticker).overdue t.now = 0
  · have hsame : t.catchUp Chronicle.tick = t := by
      simp only [catchUp, h.ticker, hnone, if_true]
    rw [hsame]
    exact ⟨l, { h with
      now_eq := by rw [elapsed_snoc]; exact h.now_eq
      found := fun key value time hlast => h.found key value time (hunchanged _ _ _ hlast)
      absent := fun key hunused => h.absent key hunused.of_snoc.2 }⟩
  · have hcaught : t.catchUp Chronicle.tick = { t with
        state := t.state.tick
        ticker := some { resolution := r, due := (l.clock + 1) * r + 1 * r } } := by
      simp only [catchUp, h.ticker, hnone, if_false, Ticker.advance]
    rw [hcaught]
    refine ⟨(l.perform .tick).ledger, (h.tracks.perform .tick).2.2, h.ttl_eq, ?_, ?_,
      Ticker.due_le_of_overdue hnone, ?_, ?_⟩
    · rw [elapsed_snoc]
      exact h.now_eq
    · rw [← Nat.add_mul]
      rfl
    · intro key value time hlast
      have hfound := h.found key value time (hunchanged _ _ _ hlast)
      rw [find?_tick h.tracks]
      show _ = if l.clock + 1 < time / r + ttl then _ else _
      cases hfind : l.find? key with
      | none =>
        rw [hfind] at hfound
        have hpast : ¬ l.clock < time / r + ttl := by
          intro hlives
          rw [if_pos hlives] at hfound
          cases hfound
        rw [if_neg (by omega)]
        rfl
      | some x =>
        rw [hfind, Option.map_some] at hfound
        split at hfound
        · obtain ⟨hvalue, hdue⟩ := Prod.mk.inj (Option.some.inj hfound)
          by_cases hlater : l.clock + 1 < time / r + ttl
          · simp [hvalue, hdue, hlater, Option.filter]
          · simp [hdue, hlater, Option.filter]
        · cases hfound
    · intro key hunused
      rw [find?_tick h.tracks, h.absent key hunused.of_snoc.2]
      rfl

theorem insert (h : Dated r ttl evs t l) (hpos : 0 < ttl) (hcaught : t.overdue = 0) (k : κ)
    (v : ν) :
    Dated r ttl (evs ++ [.insert k v]) (t.change (·.perform (.insert k v)))
      ((l.erase k).push k v) where
  tracks := (h.tracks.perform (.insert k v)).2.2
  ttl_eq := h.ttl_eq
  now_eq := by
    rw [elapsed_snoc]
    exact h.now_eq
  ticker := h.ticker
  passed := h.passed
  found key value time hlast := by
    show _ = if l.clock < time / r + ttl then _ else _
    rw [h.tracks.find?_renewed (k, v) key]
    rcases hlast.snoc_cases with ⟨_, hins, hkey, rfl⟩ | ⟨hother, hbefore⟩
    · cases hins
      have hclock : l.clock = elapsed evs / r := by rw [h.clock_eq hcaught, h.now_eq]
      rw [if_pos hkey, ← hclock, if_pos (Nat.lt_add_of_pos_right hpos), h.ttl_eq]
      rfl
    · rw [if_neg (by rw [hother k v rfl]; exact Bool.false_ne_true)]
      exact h.found key value time hbefore
  absent key hunused := by
    obtain ⟨hother, hbefore⟩ := hunused.of_snoc
    rw [h.tracks.find?_renewed (k, v) key,
      if_neg (by rw [hother k v rfl]; exact Bool.false_ne_true)]
    exact h.absent key hbefore

/-- When nothing is due, a table holds what was inserted last under a key as long as fewer ticks lie
between its insertion and now than it lives. -/
theorem contains_iff (h : Dated r ttl evs t l) (hcaught : t.overdue = 0) {key : κ} {value : ν}
    {time : Nat} (hlast : LastInserted evs key value time) :
    t.state.table.contains key = true ↔ t.now / r < time / r + ttl := by
  rw [h.tracks.agrees.contains, ← Option.isSome_map (f := fun x => (x.value, x.due)),
    h.found key value time hlast, h.clock_eq hcaught]
  by_cases hlives : t.now / r < time / r + ttl <;> simp [hlives]

theorem get?_eq (h : Dated r ttl evs t l) {key : κ} {value : ν} {time : Nat}
    (hlast : LastInserted evs key value time) (hcontains : t.state.table.contains key = true) :
    t.state.table.get? key = some value := by
  have hfound := h.found key value time hlast
  rw [h.tracks.agrees.contains] at hcontains
  obtain ⟨x, hx⟩ := Option.isSome_iff_exists.mp hcontains
  rw [hx, Option.map_some] at hfound
  split at hfound
  · rw [h.tracks.agrees.get?, hx, Option.map_some, (Prod.mk.inj (Option.some.inj hfound)).1]
  · cases hfound

end Dated

theorem dated_after (ttl buckets resolution : Nat) {evs : List (ClockEvent κ ν)}
    (hpunctual : (outset ttl buckets resolution).Punctual evs) :
    ∃ l, Dated (max 1 resolution) (max ttl 1) evs
      ((outset ttl buckets resolution).after evs) l := by
  induction evs using List.reverseRecOn with
  | nil => exact ⟨_, .outset ttl buckets resolution⟩
  | append_singleton evs ev ih =>
    obtain ⟨hbefore, hinsert⟩ := hpunctual.of_snoc
    obtain ⟨l, hdated⟩ := ih hbefore
    rw [after_snoc]
    cases ev with
    | elapse time => exact ⟨l, hdated.elapse time⟩
    | tick => exact hdated.tick
    | insert k v => exact ⟨_, hdated.insert (by omega) (hinsert rfl) k v⟩

/-! ## Without a ticker -/

/-- There is no ticker, or it stands still. -/
def Halted (t : Timed (Chronicle κ ν)) : Prop := ∀ k ∈ t.ticker, k.running = false

omit [BEq κ] [Hashable κ] [EquivBEq κ] [LawfulHashable κ] in
theorem halted_stop (t : Timed (Chronicle κ ν)) : t.stop.Halted := by
  intro k hk
  obtain ⟨k', _, rfl⟩ := Option.map_eq_some_iff.mp hk
  rfl

omit [BEq κ] [Hashable κ] [EquivBEq κ] [LawfulHashable κ] in
theorem halted_drop (t : Timed (Chronicle κ ν)) : t.drop.Halted := fun _ hk => nomatch hk

omit [EquivBEq κ] [LawfulHashable κ] in
theorem Halted.tick (h : t.Halted) : t.catchUp Chronicle.tick = t := by
  cases hclock : t.ticker with
  | none => simp only [catchUp, hclock]
  | some k =>
    simp only [catchUp, hclock, Ticker.overdue_of_stopped (h k hclock), if_true]

/-- One event without a ticker. -/
theorem Halted.step (h : t.Halted) (htable : ∃ l, Tracks t.state.table l) (ev : ClockEvent κ ν) :
    (t.step ev).Halted ∧ (∃ l, Tracks (t.step ev).state.table l) ∧
      t.state.Accrues [ev] (t.step ev).state := by
  cases ev with
  | elapse time => exact ⟨h, htable, .of_quiet rfl⟩
  | tick =>
    have hsame : t.step .tick = t := h.tick
    rw [hsame]
    exact ⟨h, htable, .of_quiet rfl⟩
  | insert k v =>
    obtain ⟨l, hl⟩ := htable
    exact ⟨h, ⟨_, (hl.perform (.insert k v)).2.2⟩, Chronicle.accrues_insert hl k v⟩

/-- The table keeps what it has and takes what is inserted, and nothing expires. -/
theorem Halted.after (h : t.Halted) (htable : ∃ l, Tracks t.state.table l)
    (more : List (ClockEvent κ ν)) : t.state.Accrues more (t.after more).state := by
  induction more generalizing t with
  | nil => exact .nothing t.state
  | cons ev more ih =>
    obtain ⟨hhalted, htracks, hstep⟩ := h.step htable ev
    exact hstep.append (ih hhalted htracks)

/-! ## Lifetimes -/

/-- Less than `n` ticks lie between two times if `n - 1` resolutions do, and not if `n` do. -/
theorem ticks_between {r : Nat} (hr : 0 < r) {n : Nat} (hn : 0 < n) (time now : Nat) :
    (now / r < time / r + n ↔ now / r - time / r < n) ∧
      (now ≤ time + (n - 1) * r → now / r < time / r + n) ∧
      (now / r < time / r + n → now < time + n * r) := by
  have hleaves : now / r < time / r + n ↔ now < (time / r + n) * r := Nat.div_lt_iff_lt_mul hr
  have hmod := Nat.div_add_mod time r
  have hpart := Nat.mod_lt time hr
  have hproduct : (time / r + n) * r = r * (time / r) + n * r := by rw [Nat.add_mul, Nat.mul_comm]
  have hless : (n - 1) * r + r = n * r := by
    rw [← Nat.succ_mul, Nat.succ_eq_add_one, Nat.sub_add_cancel hn]
  rw [hleaves, hproduct]
  refine ⟨?_, fun hearly => by omega, fun hlives => by omega⟩
  rw [← hproduct, ← hleaves]
  omega

/-- A table for whose entries insertions are made when no tick is due. Whenever all ticks that have
fallen due have passed, what was inserted last under a key is present exactly as long as fewer
ticks lie between its insertion and now than it lives; that is for more than all its ticks but one,
and for all of them at most. However a time is cut up, it ends as a jump over it does: the same is
left, and the same was given up in the same order. Once the ticker is stopped or given up, nothing
expires. -/
theorem lives_by_the_clock (ttl buckets resolution : Nat) {evs : List (ClockEvent κ ν)}
    (hpunctual : (outset ttl buckets resolution).Punctual evs) :
    let r := max 1 resolution
    let n := max ttl 1
    let t := (outset ttl buckets resolution).after evs
    (t.overdue = 0 → ∀ key,
      (Unused evs key → t.state.table.contains key = false) ∧
      ∀ value time, LastInserted evs key value time →
        (t.state.table.contains key = true ↔ t.now / r - time / r < n) ∧
        (t.state.table.contains key = true → t.state.table.get? key = some value) ∧
        (t.now ≤ time + (n - 1) * r → t.state.table.contains key = true) ∧
        (time + n * r ≤ t.now → t.state.table.contains key = false)) ∧
    (∀ time, t.after (t.jump time) = t.pass Chronicle.tick time ∧
      (t.after (t.jump time)).overdue = 0 ∧
      ∀ quiet, (∀ ev ∈ quiet, ev.isInsert = false) → elapsed quiet = time →
        (t.after quiet).overdue = 0 → t.after quiet = t.after (t.jump time)) ∧
    (t.overdue = 0 → ∀ times : List Nat, times.foldl (fun u time => u.pass Chronicle.tick time) t =
      t.pass Chronicle.tick times.sum) ∧
    ∀ more, t.state.Accrues more (t.stop.after more).state ∧
      t.state.Accrues more (t.drop.after more).state := by
  intro r n t
  obtain ⟨l, hdated⟩ : ∃ l, Dated r n evs t l := dated_after ttl buckets resolution hpunctual
  have hregular : t.Regular := (regular_start resolution _).after evs
  have htable : ∃ l, Tracks t.state.table l := ⟨l, hdated.tracks⟩
  have hr : 0 < r := Nat.lt_of_lt_of_le Nat.zero_lt_one (Nat.le_max_left 1 resolution)
  have hn : 0 < n := Nat.lt_of_lt_of_le Nat.zero_lt_one (Nat.le_max_right ttl 1)
  refine ⟨fun hcaught key => ⟨fun hunused => ?_, fun value time hlast => ?_⟩, fun time => ?_,
    fun hcaught times => pass_sum hregular hcaught times,
    fun more => ⟨t.halted_stop.after htable more, t.halted_drop.after htable more⟩⟩
  · rw [hdated.tracks.agrees.contains, hdated.absent key hunused]
    rfl
  · have hpresent := hdated.contains_iff hcaught hlast
    obtain ⟨hcount, hearly, hlate⟩ := ticks_between hr hn time t.now
    refine ⟨hpresent.trans hcount, hdated.get?_eq hlast, fun h => hpresent.mpr (hearly h), fun h => ?_⟩
    rw [Bool.eq_false_iff]
    intro hcontains
    exact Nat.not_lt.mpr h (hlate (hpresent.mp hcontains))
  · refine ⟨after_jump hregular time, overdue_jump hregular time, ?_⟩
    rintro quiet hquiet rfl hcaught
    rw [after_jump hregular, pass_of_quiet hregular hquiet hcaught]

/-- Two names, one of them inserted again in other letters at two and a half seconds. At four
seconds one has run out, and the other is still there ten seconds after the ticker was stopped. -/
theorem lives_by_the_clock_caseless :
    let evs : List (ClockEvent Caseless Nat) :=
      [.insert ⟨['a']⟩ 1, .insert ⟨['b']⟩ 2, .elapse 2500, .tick, .tick, .insert ⟨['B']⟩ 3,
        .elapse 1500, .tick, .tick]
    let t := (outset 3 1 1000).after evs
    EquivBEq Caseless ∧ LawfulHashable Caseless ∧ (outset 3 1 1000).Punctual evs ∧
      t.overdue = 0 ∧ t.now = 4000 ∧
      t.state.table.contains ⟨['a']⟩ = false ∧ t.state.table.get? ⟨['b']⟩ = some 3 ∧
      (t.stop.after [.elapse 10000]).state.table.contains ⟨['b']⟩ = true := by
  intro evs t
  have hpunctual : (outset 3 1 1000).Punctual evs := by
    simp only [evs, Punctual, ClockEvent.isInsert, Bool.false_eq_true, false_implies, true_implies,
      and_true, true_and]
    exact ⟨rfl, rfl, rfl⟩
  have hcaught : t.overdue = 0 := rfl
  have hnow : t.now = 4000 := rfl
  have hfirst : LastInserted evs ⟨['a']⟩ 1 0 := by
    refine ⟨[], _, _, rfl, rfl, fun k v hmem => ?_, rfl⟩
    simp only [List.mem_cons, ClockEvent.insert.injEq, List.not_mem_nil, reduceCtorEq, or_false,
      false_or] at hmem
    rcases hmem with ⟨rfl, _⟩ | ⟨rfl, _⟩ <;> rfl
  have hagain : LastInserted evs ⟨['b']⟩ 3 2500 := by
    refine ⟨[.insert ⟨['a']⟩ 1, .insert ⟨['b']⟩ 2, .elapse 2500, .tick, .tick], _, _, rfl, rfl,
      fun k v hmem => ?_, rfl⟩
    simp only [List.mem_cons, List.not_mem_nil, reduceCtorEq, or_false] at hmem
  obtain ⟨hlives, _, _, hhalted⟩ := lives_by_the_clock 3 1 1000 hpunctual
  obtain ⟨hgone, _⟩ := (hlives hcaught ⟨['a']⟩).2 1 0 hfirst
  obtain ⟨hhere, hvalue, _⟩ := (hlives hcaught ⟨['b']⟩).2 3 2500 hagain
  have hb : t.state.table.contains ⟨['b']⟩ = true := hhere.mpr (by rw [hnow]; decide)
  refine ⟨inferInstance, inferInstance, hpunctual, hcaught, hnow, ?_, hvalue hb,
    ((hhalted [.elapse 10000]).1.contains _).mpr (.inl hb)⟩
  rw [Bool.eq_false_iff]
  intro ha
  exact absurd (hgone.mp ha) (by rw [hnow]; decide)

end Lawful

end Timed
end FloodMesh
