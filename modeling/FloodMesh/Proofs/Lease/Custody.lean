import FloodMesh.Proofs.Lease.Refinement
import Mathlib.Data.List.Pairwise

/-!
# FloodMesh.Proofs.Lease.Custody

Who holds an entry. Over any history, with an expiry hook that may put a new value under each key
that runs out, what a table took in is what it holds, what it released and what it handed back, each
entry once: `custody_accounted`. The same theorem tells the events of the next operation and how
long a value lives that a hook put in.
-/

namespace FloodMesh

/-- An operation, and what the expiry hook puts back while it is carried out. Keys that run out in
one tick differ, so that this also covers a hook that decides anew each time it is called. -/
structure Turn (κ ν : Type) where
  op : LeaseOp κ ν
  renewal : κ → ν → Option ν := fun _ _ => none

/-- What came into a table and what left it. -/
structure Account (κ ν : Type) where
  accepted : List (κ × ν) := []
  released : List (κ × ν) := []
  /-- Handed back to the caller. -/
  returned : List (κ × ν) := []
  deriving DecidableEq, Repr

namespace Account

variable {κ ν : Type}

instance : Append (Account κ ν) where
  append a b :=
    { accepted := a.accepted ++ b.accepted, released := a.released ++ b.released
      returned := a.returned ++ b.returned }

/-- What was there and what came is what is there and what left. -/
def Balances (before after : List (κ × ν)) (a : Account κ ν) : Prop :=
  (before ++ a.accepted).Perm (after ++ a.released ++ a.returned)

theorem balances_refl (held : List (κ × ν)) : ({} : Account κ ν).Balances held held := by
  simp [Balances]

theorem Balances.append {x y z : List (κ × ν)} {a b : Account κ ν} (ha : a.Balances x y)
    (hb : b.Balances y z) : (a ++ b).Balances x z := by
  classical
  refine List.perm_iff_count.mpr fun e => ?_
  have hx := List.perm_iff_count.mp ha e
  have hy := List.perm_iff_count.mp hb e
  simp only [List.count_append] at hx hy
  show List.count e (x ++ (a.accepted ++ b.accepted)) =
    List.count e (z ++ (a.released ++ b.released) ++ (a.returned ++ b.returned))
  simp only [List.count_append]
  omega

end Account

/-- The entries that a hook puts in at the expiries among some events. -/
def renewed {κ ν : Type} (renewal : κ → ν → Option ν) (events : List (LeaseEvent κ ν)) :
    List (κ × ν) :=
  events.filterMap fun
    | .expired k v => (renewal k v).map fun w => (k, w)
    | .released .. => none

/-- The entries that are released in some events. -/
def givenUp {κ ν : Type} (events : List (LeaseEvent κ ν)) : List (κ × ν) :=
  events.filterMap fun
    | .released k v => some (k, v)
    | .expired .. => none

section Turns

variable {κ ν : Type} [BEq κ]

/-- The account of one turn, from what was held before it, its answer and its events. -/
def Turn.account (s : Turn κ ν) (held : List (κ × ν)) (answer : LeaseAnswer κ ν)
    (events : List (LeaseEvent κ ν)) : Account κ ν where
  accepted :=
    match s.op with
    | .insert k v => [(k, v)]
    | .insertIfAbsent k v => match answer with | .flag true => [(k, v)] | _ => []
    | .replace entries => entries
    | .tick => renewed s.renewal events
    | _ => []
  released := givenUp events
  returned :=
    match s.op with
    | .remove k => (held.find? (·.1 == k)).toList
    | _ => []

namespace LeaseTable

variable [Hashable κ]

/-- Carry out an operation with a hook. -/
def enact (t : LeaseTable κ ν) (s : Turn κ ν) : LeaseStep κ ν (LeaseAnswer κ ν) :=
  ({ t with renewal := s.renewal } : LeaseTable κ ν).perform s.op

/-- The table after turns, one after another. -/
def after (t : LeaseTable κ ν) (turns : List (Turn κ ν)) : LeaseTable κ ν :=
  turns.foldl (fun t s => (t.enact s).table) t

/-- The account of all turns. -/
def account (t : LeaseTable κ ν) : List (Turn κ ν) → Account κ ν
  | [] => {}
  | s :: turns =>
    let step := t.enact s
    s.account t.toList step.answer step.events ++ step.table.account turns

end LeaseTable

/-- New entries that make room for a later one of an equal key, in the order of those later ones;
`seen` are the entries so far, the last one in front. -/
def superseded (seen : List (κ × ν)) : List (κ × ν) → List (κ × ν)
  | [] => []
  | e :: rest => (seen.find? (·.1 == e.1)).toList ++ superseded (e :: seen) rest

namespace LeaseOp

/-- The events of an operation on a table that holds some entries, some of which run out in the
next tick. -/
def events (held : List (κ × ν)) (gone : List (Lease κ ν)) :
    LeaseOp κ ν → List (LeaseEvent κ ν)
  | tick => Ledger.expiries gone
  | insert k _ => LeaseTable.releases (held.find? (·.1 == k)).toList
  | clear => LeaseTable.releases held
  | replace entries => LeaseTable.releases (held ++ superseded [] entries)
  | _ => []

/-- Whether an operation leaves the entry of a key alone, if its time does not run out. -/
def spares (key : κ) : LeaseOp κ ν → Bool
  | insert k _ | remove k => !(key == k)
  | clear | replace _ => false
  | _ => true

def isTick : LeaseOp κ ν → Bool
  | tick => true
  | _ => false

end LeaseOp

namespace Ledger

/-- The leases that run out in the next tick. -/
def gone (l : Ledger κ ν) : List (Lease κ ν) := l.leases.filter fun x => x.due ≤ l.clock + 1

/-- The leases that last beyond the next tick. -/
def kept (l : Ledger κ ν) : List (Lease κ ν) := l.leases.filter fun x => l.clock + 1 < x.due

/-- What a hook puts back in place of leases. -/
def renewals (due : Nat) (renewal : κ → ν → Option ν) (leases : List (Lease κ ν)) :
    List (Lease κ ν) :=
  leases.filterMap fun x => (renewal x.key x.value).map fun w => ⟨x.key, w, due⟩

/-- Carry out an operation with a hook. What it puts back stands behind all other leases and has
all its time before it. -/
def enact (l : Ledger κ ν) (s : Turn κ ν) : LedgerStep κ ν :=
  match s.op with
  | .tick =>
    let clock := l.clock + 1
    { ledger := { l with clock, leases := l.kept ++ renewals (clock + l.ttl) s.renewal l.gone }
      answer := .count l.gone.length, events := expiries l.gone }
  | op => l.perform op

/-- The ledger after turns, one after another. -/
def after (l : Ledger κ ν) (turns : List (Turn κ ν)) : Ledger κ ν :=
  turns.foldl (fun l s => (l.enact s).ledger) l

end Ledger
end Turns

/-! ## The account of a ledger -/

section Events

variable {κ ν : Type}

theorem givenUp_releases (leases : List (Lease κ ν)) :
    givenUp (Ledger.releases leases) = leases.map fun x => (x.key, x.value) := by
  induction leases with
  | nil => rfl
  | cons x rest ih => exact congrArg ((x.key, x.value) :: ·) ih

theorem givenUp_expiries (leases : List (Lease κ ν)) :
    givenUp (Ledger.expiries leases) = leases.map fun x => (x.key, x.value) := by
  induction leases with
  | nil => rfl
  | cons x rest ih => exact congrArg ((x.key, x.value) :: ·) ih

/-- Each expiry is one call of the hook. -/
theorem renewed_expiries (due : Nat) (renewal : κ → ν → Option ν) (leases : List (Lease κ ν)) :
    renewed renewal (Ledger.expiries leases) =
      (Ledger.renewals due renewal leases).map fun x => (x.key, x.value) := by
  induction leases with
  | nil => rfl
  | cons x rest ih =>
    have hcons : renewed renewal (Ledger.expiries (x :: rest)) =
        ((renewal x.key x.value).map fun w => (x.key, w)).toList ++
          renewed renewal (Ledger.expiries rest) := by
      cases h : renewal x.key x.value <;> simp [renewed, Ledger.expiries, h]
    rw [hcons, ih]
    cases h : renewal x.key x.value <;> simp [Ledger.renewals, h]

end Events

theorem perm_append_swap {α : Type} (a b c : List α) : (a ++ b ++ c).Perm (a ++ c ++ b) := by
  rw [List.append_assoc, List.append_assoc]
  exact List.perm_append_comm.append_left a

namespace Ledger

variable {κ ν : Type} [BEq κ] (l : Ledger κ ν)

theorem find?_pairs (key : κ) :
    l.pairs.find? (·.1 == key) = (l.find? key).map fun x => (x.key, x.value) :=
  List.find?_map

theorem toList_find? (key : κ) : (l.find? key).toList.map (fun x => (x.key, x.value)) =
    (l.pairs.find? (·.1 == key)).toList := by
  rw [find?_pairs, Option.toList_map]

theorem erase_perm (key : κ) :
    l.pairs.Perm ((l.erase key).pairs ++ (l.pairs.find? (·.1 == key)).toList) := by
  have hleases : ∀ leases : List (Lease κ ν), leases.Perm
      (leases.eraseP (·.key == key) ++ (leases.find? (·.key == key)).toList) := by
    intro leases
    induction leases with
    | nil => rfl
    | cons x rest ih =>
      cases h : x.key == key
      · simpa [h] using ih
      · simpa [h] using (List.perm_append_singleton x rest).symm
  have hpairs := (hleases l.leases).map fun x => (x.key, x.value)
  rw [List.map_append] at hpairs
  rwa [← toList_find?]

omit [BEq κ] in
theorem pairs_push (key : κ) (value : ν) :
    (l.push key value).pairs = l.pairs ++ [(key, value)] := by
  simp [push, pairs]

theorem insert_perm (key : κ) (value : ν) :
    (l.pairs ++ [(key, value)]).Perm
      (((l.erase key).push key value).pairs ++ (l.pairs.find? (·.1 == key)).toList) := by
  rw [pairs_push]
  exact ((l.erase_perm key).append_right _).trans (perm_append_swap _ _ _)

open scoped List in
theorem insertAll_perm (entries : List (κ × ν)) :
    (l.pairs ++ entries).Perm
      ((l.insertAll entries).1.pairs ++
        (l.insertAll entries).2.map fun x => (x.key, x.value)) := by
  induction entries generalizing l with
  | nil => simp [insertAll]
  | cons e rest ih =>
    let l' := (l.erase e.1).push e.1 e.2
    let found := (l.pairs.find? (·.1 == e.1)).toList
    let displaced := (l'.insertAll rest).2.map fun x => (x.key, x.value)
    calc l.pairs ++ (e :: rest)
        = l.pairs ++ [e] ++ rest := by simp
      _ ~ l'.pairs ++ found ++ rest := (l.insert_perm e.1 e.2).append_right rest
      _ ~ l'.pairs ++ rest ++ found := perm_append_swap _ _ _
      _ ~ (l'.insertAll rest).1.pairs ++ displaced ++ found := (ih l').append_right found
      _ ~ (l'.insertAll rest).1.pairs ++ (found ++ displaced) := by
        rw [← List.append_assoc]
        exact perm_append_swap _ _ _
      _ = (l.insertAll (e :: rest)).1.pairs ++
          (l.insertAll (e :: rest)).2.map fun x => (x.key, x.value) := by
        rw [insertAll, List.map_append, toList_find?]

omit [BEq κ] in
theorem tick_perm : l.pairs.Perm (l.kept.map (fun x => (x.key, x.value)) ++
    l.gone.map fun x => (x.key, x.value)) := by
  have hgone : l.gone = l.leases.filter fun x => !decide (l.clock + 1 < x.due) := by
    refine List.filter_congr fun x _ => ?_
    rw [← decide_not, decide_eq_decide]
    exact Nat.not_lt.symm
  rw [← List.map_append, hgone]
  exact ((List.filter_append_perm _ l.leases).map _).symm

theorem enact_insertIfAbsent (key : κ) (value : ν) (renewal : κ → ν → Option ν) :
    l.enact ⟨.insertIfAbsent key value, renewal⟩ = { ledger := l, answer := .flag false } ∨
      l.enact ⟨.insertIfAbsent key value, renewal⟩ =
        { ledger := l.push key value, answer := .flag true } := by
  cases h : (l.find? key).isSome
  · exact .inr (by simp [enact, perform, h])
  · exact .inl (by simp [enact, perform, h])

/-- One turn: no entry is lost, and none leaves twice. -/
theorem enact_balances (s : Turn κ ν) :
    (s.account l.pairs (l.enact s).answer (l.enact s).events).Balances l.pairs
      (l.enact s).ledger.pairs := by
  obtain ⟨op, renewal⟩ := s
  cases op with
  | insert k v =>
    simpa [Account.Balances, Turn.account, enact, perform, givenUp_releases, toList_find?]
      using l.insert_perm k v
  | insertIfAbsent k v =>
    rcases l.enact_insertIfAbsent k v renewal with h | h
    · simp [Account.Balances, Turn.account, h, givenUp]
    · simp [Account.Balances, Turn.account, h, pairs_push, givenUp]
  | remove k =>
    simpa [Account.Balances, Turn.account, enact, perform, givenUp] using l.erase_perm k
  | tick =>
    let back := (renewals (l.clock + 1 + l.ttl) renewal l.gone).map fun x => (x.key, x.value)
    have hback : renewed renewal (expiries l.gone) = back := renewed_expiries _ renewal l.gone
    have hperm := (l.tick_perm.append_right back).trans (perm_append_swap _ _ _)
    simpa [Account.Balances, Turn.account, enact, hback, givenUp_expiries, pairs] using hperm
  | clear =>
    simp [Account.Balances, Turn.account, enact, perform, givenUp_releases, pairs]
  | replace entries =>
    let l' := ({ l with leases := [] } : Ledger κ ν).insertAll entries
    have hnew : entries.Perm (l'.1.pairs ++ l'.2.map fun x => (x.key, x.value)) :=
      insertAll_perm { l with leases := [] } entries
    have hperm := (hnew.append_left l.pairs).trans (List.perm_append_comm_assoc _ _ _)
    simpa [Account.Balances, Turn.account, enact, perform, givenUp_releases, pairs] using hperm
  | _ => exact Account.balances_refl l.pairs

end Ledger

/-! ## A table with a hook -/

section Hooks

variable {κ ν : Type} [BEq κ] [Hashable κ]

/-- The table without its hook. -/
def LeaseTable.hookless (t : LeaseTable κ ν) : LeaseTable κ ν :=
  { t with renewal := fun _ _ => none }

/-- The hook is called in ticks only. -/
theorem enact_hookless (t : LeaseTable κ ν) {s : Turn κ ν} (hop : s.op ≠ .tick) :
    (t.enact s).answer = (t.hookless.perform s.op).answer ∧
      (t.enact s).events = (t.hookless.perform s.op).events ∧
      (t.enact s).table.hookless = (t.hookless.perform s.op).table := by
  obtain ⟨op, renewal⟩ := s
  cases op with
  | tick => exact absurd rfl hop
  | insertIfAbsent k v =>
    have hcontains : ∀ t' : LeaseTable κ ν, t'.timeline = t.timeline →
        t'.contains k = t.contains k := fun t' h => congrArg (·.contains k) h
    cases h : t.contains k <;>
      simp [LeaseTable.enact, LeaseTable.perform, LeaseTable.insertIfAbsent, LeaseTable.hookless,
        LeaseStep.map, hcontains, h]
  | _ => exact ⟨rfl, rfl, rfl⟩

variable [EquivBEq κ] [LawfulHashable κ] {t : LeaseTable κ ν} {l : Ledger κ ν}

/-- A hook puts its value under a key that has just left, so that it displaces nothing, and each
expiry is followed by the release of the same entry. -/
theorem Tracks.expire (h : Tracks t.hookless l) {gone : List (Lease κ ν)}
    (hgone : gone.Pairwise fun x y => (x.key == y.key) = false)
    (habsent : ∀ x ∈ gone, l.find? x.key = none) :
    (t.expire (gone.map fun x => (x.key, x.value))).2 = Ledger.expiries gone ∧
      Tracks (t.expire (gone.map fun x => (x.key, x.value))).1.hookless
        { l with leases := l.leases ++ Ledger.renewals (l.clock + l.ttl) t.renewal gone } := by
  induction gone generalizing t l with
  | nil => exact ⟨rfl, by simpa [Ledger.renewals, LeaseTable.expire] using h⟩
  | cons x rest ih =>
    obtain ⟨hx, hrest⟩ := List.pairwise_cons.mp hgone
    have habsent' : ∀ y ∈ rest, l.find? y.key = none :=
      fun y hy => habsent y (List.mem_cons_of_mem x hy)
    cases hrenewal : t.renewal x.key x.value with
    | none =>
      obtain ⟨hevents, htracks⟩ := ih h hrest habsent'
      simp only [List.map_cons, LeaseTable.expire, hrenewal]
      refine ⟨by rw [hevents]; rfl, ?_⟩
      simpa [Ledger.renewals, hrenewal] using htracks
    | some w =>
      obtain ⟨hreplaced, hinsert⟩ := h.insert x.key w
      have hnone : l.find? x.key = none := habsent x List.mem_cons_self
      rw [hnone] at hreplaced
      rw [Ledger.erase_eq_self hnone] at hinsert
      have hpushed : ∀ y ∈ rest, (l.push x.key w).find? y.key = none := by
        intro y hy
        have hother := habsent' y hy
        rw [Ledger.find?] at hother
        simp [Ledger.find?, Ledger.push, hother, hx y hy]
      let t' : LeaseTable κ ν := { t with timeline := (t.timeline.insert x.key w).1 }
      have hput : t.insert x.key w = { table := t', answer := false } := by
        have hreplaced : (t.timeline.insert x.key w).2 = none := hreplaced
        simp [LeaseTable.insert, hreplaced, LeaseTable.releases, t']
      obtain ⟨hevents, htracks⟩ := ih (t := t') hinsert hrest hpushed
      simp only [List.map_cons, LeaseTable.expire, hrenewal, hput]
      refine ⟨by rw [hevents]; rfl, ?_⟩
      simpa [Ledger.renewals, Ledger.push, hrenewal] using htracks

omit [LawfulHashable κ] in
/-- What runs out and what lasts have no key in common. -/
theorem Tracks.gone_absent (h : Tracks t l) {x : Lease κ ν} (hx : x ∈ l.gone) :
    ({ l with leases := l.kept } : Ledger κ ν).find? x.key = none := by
  refine List.find?_eq_none.mpr fun y hy => ?_
  obtain ⟨hxl, hxdue⟩ := List.mem_filter.mp hx
  obtain ⟨hyl, hydue⟩ := List.mem_filter.mp hy
  have hne : y ≠ x := by
    rintro rfl
    exact Nat.not_lt.mpr (of_decide_eq_true hxdue) (of_decide_eq_true hydue)
  have hsymm : Std.Symm fun a b : Lease κ ν => (a.key == b.key) = false :=
    ⟨fun a b hab => BEq.comm.trans hab⟩
  simp [h.distinct.forall hyl hxl hne]

theorem Tracks.enact_tick (h : Tracks t.hookless l) (renewal : κ → ν → Option ν) :
    (t.enact ⟨.tick, renewal⟩).answer = .count l.gone.length ∧
      (t.enact ⟨.tick, renewal⟩).events = Ledger.expiries l.gone ∧
      Tracks (t.enact ⟨.tick, renewal⟩).table.hookless (l.enact ⟨.tick, renewal⟩).ledger := by
  obtain ⟨hexpired, htick⟩ := h.tick
  have hexpired : t.timeline.tick.2 = l.gone.map fun x => (x.key, x.value) := hexpired
  let t' : LeaseTable κ ν := ⟨t.timeline.tick.1, renewal⟩
  obtain ⟨hevents, htracks⟩ := Tracks.expire (t := t') htick (h.distinct.filter _)
    fun x hx => h.gone_absent hx
  refine ⟨?_, ?_, ?_⟩
  · show LeaseAnswer.count t.timeline.tick.2.length = .count l.gone.length
    rw [hexpired, List.length_map]
  · show (t'.expire t.timeline.tick.2).2 = _
    rw [hexpired]
    exact hevents
  · show Tracks (t'.expire t.timeline.tick.2).1.hookless _
    rw [hexpired]
    exact htracks

/-- One turn: the same answer, the same events, and the ledger holds what the table holds. -/
theorem Tracks.enact (h : Tracks t.hookless l) (s : Turn κ ν) :
    (t.enact s).answer = (l.enact s).answer ∧ (t.enact s).events = (l.enact s).events ∧
      Tracks (t.enact s).table.hookless (l.enact s).ledger := by
  obtain ⟨op, renewal⟩ := s
  by_cases hop : op = .tick
  · subst hop
    exact h.enact_tick renewal
  · have hledger : l.enact ⟨op, renewal⟩ = l.perform op := by
      cases op <;> first | rfl | exact absurd rfl hop
    obtain ⟨hanswer, hevents, htable⟩ := enact_hookless t (s := ⟨op, renewal⟩) hop
    rw [hanswer, hevents, htable, hledger]
    exact h.perform op

theorem Tracks.after (h : Tracks t.hookless l) (turns : List (Turn κ ν)) :
    Tracks (t.after turns).hookless (l.after turns) := by
  induction turns generalizing t l with
  | nil => exact h
  | cons s turns ih => exact ih (h.enact s).2.2

theorem Tracks.account_balances (h : Tracks t.hookless l) (turns : List (Turn κ ν)) :
    (t.account turns).Balances t.toList (t.after turns).toList := by
  induction turns generalizing t l with
  | nil => exact Account.balances_refl t.toList
  | cons s turns ih =>
    obtain ⟨hanswer, hevents, htracks⟩ := h.enact s
    have hheld : t.toList = l.pairs := h.toList_eq
    have hthen : (t.enact s).table.toList = (l.enact s).ledger.pairs := htracks.toList_eq
    have hstep := l.enact_balances s
    rw [← hanswer, ← hevents, ← hheld, ← hthen] at hstep
    exact hstep.append (ih htracks)

/-! ## What the next operation does -/

omit [Hashable κ] [LawfulHashable κ] in
theorem Ledger.find?_erase {key other : κ} (h : (key == other) = false) (l : Ledger κ ν) :
    (l.erase key).find? other = l.find? other := by
  have hleases : ∀ leases : List (Lease κ ν),
      (leases.eraseP (·.key == key)).find? (·.key == other) =
        leases.find? (·.key == other) := by
    intro leases
    induction leases with
    | nil => rfl
    | cons x rest ih =>
      cases hx : x.key == key
      · simp [hx, List.find?_cons, ih]
      · have hother : (x.key == other) = false := by
          rw [BEq.congr_left hx, h]
        simp [hx, hother]
  exact hleases l.leases

/-- After an insertion its lease is found, and otherwise what was found before. -/
theorem Tracks.find?_renewed (h : Tracks t l) (e : κ × ν) (key : κ) :
    ((l.erase e.1).push e.1 e.2).find? key =
      if e.1 == key then some ⟨e.1, e.2, l.clock + l.ttl⟩ else l.find? key := by
  have hleases : ((l.erase e.1).push e.1 e.2).leases =
      (l.erase e.1).leases ++ [⟨e.1, e.2, l.clock + l.ttl⟩] := rfl
  rw [Ledger.find?, hleases, List.find?_append]
  cases hkey : e.1 == key
  · rw [← Ledger.find?_erase hkey l]
    simp [Ledger.find?, hkey]
  · have habsent : (l.erase e.1).find? key = none := by
      obtain ⟨_, _, _, _, hnone⟩ := h.lookup e.1
      refine List.find?_eq_none.mpr fun x hx => ?_
      rw [← BEq.congr_right hkey]
      exact List.find?_eq_none.mp hnone x hx
    rw [Ledger.find?] at habsent
    simp [habsent, hkey]

theorem Tracks.find?_refresh (h : Tracks t l) (e : κ × ν) (key : κ) :
    ((l.erase e.1).push e.1 e.2).pairs.find? (·.1 == key) =
      if e.1 == key then some e else l.pairs.find? (·.1 == key) := by
  rw [Ledger.find?_pairs, Ledger.find?_pairs, h.find?_renewed]
  cases e.1 == key <;> rfl

/-- Among new entries, the latest of an equal key is the one that makes room. -/
theorem Tracks.insertAll_superseded (h : Tracks t l) {seen : List (κ × ν)}
    (hseen : ∀ key, l.pairs.find? (·.1 == key) = seen.find? (·.1 == key))
    (entries : List (κ × ν)) :
    (l.insertAll entries).2.map (fun x => (x.key, x.value)) = superseded seen entries := by
  induction entries generalizing t l seen with
  | nil => rfl
  | cons e rest ih =>
    obtain ⟨_, hinsert⟩ := h.insert e.1 e.2
    have hthen : ∀ key, ((l.erase e.1).push e.1 e.2).pairs.find? (·.1 == key) =
        (e :: seen).find? (·.1 == key) := by
      intro key
      rw [h.find?_refresh, hseen, List.find?_cons]
      cases e.1 == key <;> rfl
    have hrest := ih hinsert hthen
    rw [superseded, ← hseen, ← hrest, ← Ledger.toList_find?]
    exact List.map_append

theorem Tracks.enact_events (h : Tracks t.hookless l) (s : Turn κ ν) :
    (t.enact s).events = s.op.events t.toList l.gone := by
  obtain ⟨op, renewal⟩ := s
  have hheld : t.toList = l.pairs := h.toList_eq
  rw [(h.enact ⟨op, renewal⟩).2.1, hheld]
  cases op with
  | insert k v =>
    show Ledger.releases (l.find? k).toList = LeaseTable.releases _
    rw [← Ledger.toList_find?, LeaseTable.releases_map]
  | insertIfAbsent k v =>
    rcases l.enact_insertIfAbsent k v renewal with h | h
    · rw [h]
      rfl
    · rw [h]
      rfl
  | clear => exact (LeaseTable.releases_map l.leases).symm
  | replace entries =>
    have hnone : ∀ key, ({ l with leases := [] } : Ledger κ ν).pairs.find? (·.1 == key) =
        ([] : List (κ × ν)).find? (·.1 == key) := fun _ => rfl
    have hdisplaced := h.clear.2.insertAll_superseded hnone entries
    show Ledger.releases (l.leases ++ _) = LeaseTable.releases (l.pairs ++ superseded [] entries)
    rw [← hdisplaced, Ledger.pairs, ← List.map_append, LeaseTable.releases_map]
  | _ => rfl

end Hooks

namespace Ledger

variable {κ ν : Type} [BEq κ] {l : Ledger κ ν} {x : Lease κ ν}

theorem mem_erase_of_spares {key : κ} (hx : x ∈ l.leases) (hspare : (!(x.key == key)) = true) :
    x ∈ (l.erase key).leases := by
  have hkey : ¬ (x.key == key) = true := by simpa using hspare
  exact (List.mem_eraseP_of_neg (p := (·.key == key)) hkey).mpr hx

theorem enact_spared (hx : x ∈ l.leases) {s : Turn κ ν} (hspare : s.op.spares x.key = true) :
    let clock := l.clock + if s.op.isTick then 1 else 0
    (l.enact s).ledger.clock = clock ∧ (clock < x.due → x ∈ (l.enact s).ledger.leases) := by
  obtain ⟨op, renewal⟩ := s
  cases op with
  | insert k v => exact ⟨rfl, fun _ => List.mem_append_left _ (mem_erase_of_spares hx hspare)⟩
  | insertIfAbsent k v =>
    rcases l.enact_insertIfAbsent k v renewal with h | h
    · rw [h]
      exact ⟨rfl, fun _ => hx⟩
    · rw [h]
      exact ⟨rfl, fun _ => List.mem_append_left _ hx⟩
  | remove k => exact ⟨rfl, fun _ => mem_erase_of_spares hx hspare⟩
  | tick =>
    exact ⟨rfl, fun hdue => List.mem_append_left _ (List.mem_filter.mpr ⟨hx, decide_eq_true hdue⟩)⟩
  | clear => cases hspare
  | replace entries => cases hspare
  | _ => exact ⟨rfl, fun _ => hx⟩

/-- A lease lasts through any turns that leave its key alone until its time has run out. -/
theorem after_spared (hx : x ∈ l.leases) {turns : List (Turn κ ν)}
    (hspare : ∀ s ∈ turns, s.op.spares x.key = true)
    (hdue : l.clock + turns.countP (·.op.isTick) < x.due) :
    x ∈ (l.after turns).leases ∧
      (l.after turns).clock = l.clock + turns.countP (·.op.isTick) := by
  induction turns generalizing l with
  | nil => exact ⟨hx, rfl⟩
  | cons s turns ih =>
    obtain ⟨hclock, hlasts⟩ := enact_spared hx (hspare s List.mem_cons_self)
    rw [List.countP_cons] at hdue ⊢
    have hmem := hlasts (by omega)
    obtain ⟨hmem', hclock'⟩ := ih hmem (fun s' hs => hspare s' (List.mem_cons_of_mem s hs))
      (by omega)
    exact ⟨hmem', by rw [after, List.foldl_cons, ← after, hclock', hclock]; omega⟩

theorem insertAll_ttl (l : Ledger κ ν) (entries : List (κ × ν)) :
    (l.insertAll entries).1.ttl = l.ttl := by
  induction entries generalizing l with
  | nil => rfl
  | cons e rest ih => exact ih ((l.erase e.1).push e.1 e.2)

theorem enact_ttl (l : Ledger κ ν) (s : Turn κ ν) : (l.enact s).ledger.ttl = l.ttl := by
  obtain ⟨op, renewal⟩ := s
  cases op with
  | insertIfAbsent k v =>
    rcases l.enact_insertIfAbsent k v renewal with h | h
    · rw [h]
    · rw [h]
      rfl
  | replace entries => exact insertAll_ttl { l with leases := [] } entries
  | _ => rfl

theorem after_ttl (l : Ledger κ ν) (turns : List (Turn κ ν)) : (l.after turns).ttl = l.ttl := by
  induction turns generalizing l with
  | nil => rfl
  | cons s turns ih => exact (ih (l.enact s).ledger).trans (l.enact_ttl s)

end Ledger

section Accounted

variable {κ ν : Type} [BEq κ] [Hashable κ] [EquivBEq κ] [LawfulHashable κ]
variable {t : LeaseTable κ ν} {l : Ledger κ ν}

/-- A value that a hook puts in lives as long as any other one. -/
theorem Tracks.renewal_lasts (h : Tracks t.hookless l) {renewal : κ → ν → Option ν}
    {x : Lease κ ν} (hx : x ∈ l.gone) {w : ν} (hw : renewal x.key x.value = some w)
    {more : List (Turn κ ν)} (hspare : ∀ s ∈ more, s.op.spares x.key = true) :
    let t' := (t.enact ⟨.tick, renewal⟩).table.after more
    (more.countP (·.op.isTick) < t.ttl → (x.key, w) ∈ t'.toList) ∧
      (more.countP (·.op.isTick) + 1 = t.ttl →
        ∀ next, .expired x.key w ∈ (t'.enact ⟨.tick, next⟩).events) := by
  intro t'
  let l' := (l.enact ⟨.tick, renewal⟩).ledger
  let y : Lease κ ν := ⟨x.key, w, l.clock + 1 + l.ttl⟩
  have htracks : Tracks t'.hookless (l'.after more) := (h.enact ⟨.tick, renewal⟩).2.2.after more
  have hheld : t'.toList = (l'.after more).pairs := htracks.toList_eq
  have httl : t.ttl = l.ttl := h.ttl
  have hy : y ∈ l'.leases :=
    List.mem_append_right _ (List.mem_filterMap.mpr ⟨x, hx, congrArg (Option.map _) hw⟩)
  have hlasts : more.countP (·.op.isTick) < t.ttl → y ∈ (l'.after more).leases ∧
      (l'.after more).clock = l.clock + 1 + more.countP (·.op.isTick) := by
    intro hticks
    refine Ledger.after_spared hy hspare ?_
    show l.clock + 1 + _ < l.clock + 1 + l.ttl
    omega
  constructor
  · intro hticks
    rw [hheld]
    exact List.mem_map.mpr ⟨y, (hlasts hticks).1, rfl⟩
  · intro hticks next
    obtain ⟨hmem, hclock⟩ := hlasts (by omega)
    have hgone : y ∈ (l'.after more).gone := by
      refine List.mem_filter.mpr ⟨hmem, decide_eq_true ?_⟩
      show l.clock + 1 + l.ttl ≤ (l'.after more).clock + 1
      omega
    rw [htracks.enact_events]
    exact List.mem_flatMap.mpr ⟨y, hgone, List.mem_cons_self⟩

/-- After any turns, what a table took in is what it holds, what it released and what it handed
back, each entry as often as it came. It shows what a ledger shows that went through the same turns.
The next operation fires the events that its contents tell, in that order: in a tick those leases
that run out expire, each once and released before the next one expires. They alone are counted.
A value that the hook puts in stays, unless its key is touched, through as many more ticks as any
other one, and expires in the last of them. -/
theorem custody_accounted (ttl buckets : Nat) (turns : List (Turn κ ν)) :
    let start : LeaseTable κ ν := .empty ttl buckets
    let t := start.after turns
    let a := start.account turns
    let l := (Ledger.empty ttl).after turns
    a.accepted.Perm (t.toList ++ a.released ++ a.returned) ∧
    Agrees t l ∧ t.ttl = max ttl 1 ∧
    (∀ s, (t.enact s).events = s.op.events t.toList l.gone) ∧
    (∀ k renewal, (t.enact ⟨.remove k, renewal⟩).answer =
      .value ((t.toList.find? (·.1 == k)).map (·.2))) ∧
    ∀ renewal, (t.enact ⟨.tick, renewal⟩).answer = .count l.gone.length ∧
      ∀ x ∈ l.gone, ∀ w, renewal x.key x.value = some w →
        ∀ more : List (Turn κ ν), (∀ s ∈ more, s.op.spares x.key = true) →
          let t' := (t.enact ⟨.tick, renewal⟩).table.after more
          (more.countP (·.op.isTick) < t.ttl → (x.key, w) ∈ t'.toList) ∧
            (more.countP (·.op.isTick) + 1 = t.ttl →
              ∀ next, .expired x.key w ∈ (t'.enact ⟨.tick, next⟩).events) := by
  intro start t a l
  have hstart : Tracks start.hookless (Ledger.empty ttl) := tracks_empty ttl buckets
  have h : Tracks t.hookless l := hstart.after turns
  have hbalance : a.Balances [] t.toList := by
    have hheld : start.toList = [] := hstart.toList_eq
    rw [← hheld]
    exact hstart.account_balances turns
  have hagrees : Agrees t l :=
    let h := h.agrees
    ⟨h.toList, h.get?, h.contains, h.size, h.isEmpty, h.pending, h.ttl⟩
  have httl : t.ttl = max ttl 1 := hagrees.ttl.trans (Ledger.after_ttl _ turns)
  have hreturned : ∀ k renewal, (t.enact ⟨.remove k, renewal⟩).answer =
      .value ((t.toList.find? (·.1 == k)).map (·.2)) := by
    intro k renewal
    rw [(h.enact ⟨.remove k, renewal⟩).1, hagrees.toList, Ledger.find?_pairs, Option.map_map]
    rfl
  exact ⟨hbalance, hagrees, httl, h.enact_events, hreturned, fun renewal =>
    ⟨(h.enact_tick renewal).1, fun x hx w hw more hspare => h.renewal_lasts hx hw hspare⟩⟩

/-- A name given twice and then renewed by the hook, two names of which the later takes the place of
the earlier, and one taken back. -/
theorem custody_accounted_caseless :
    let first : List (Turn Caseless Nat) :=
      [{ op := .insert ⟨['A', 'b']⟩ 1 }, { op := .insert ⟨['a', 'B']⟩ 2 }]
    let tick : Turn Caseless Nat := { op := .tick, renewal := fun _ v => some (v + 1) }
    let turns := first ++ [tick, { op := .replace [(⟨['c']⟩, 4), (⟨['C']⟩, 5), (⟨['d']⟩, 6)] },
      { op := .remove ⟨['D']⟩ }]
    let start : LeaseTable Caseless Nat := .empty 1 0
    let a := start.account turns
    let t := ((start.after first).enact tick).table
    EquivBEq Caseless ∧ LawfulHashable Caseless ∧
      a.accepted.map (·.2) = [1, 2, 3, 4, 5, 6] ∧ a.released.map (·.2) = [1, 2, 3, 4] ∧
      a.returned.map (·.2) = [6] ∧ (start.after turns).toList.map (·.2) = [5] ∧
      a.accepted.Perm ((start.after turns).toList ++ a.released ++ a.returned) ∧
      (⟨['a', 'B']⟩, 3) ∈ t.toList ∧
      ∀ next, .expired ⟨['a', 'B']⟩ 3 ∈ (t.enact ⟨.tick, next⟩).events := by
  intro first tick turns start a t
  have hgone : ⟨⟨['a', 'B']⟩, 2, 1⟩ ∈ ((Ledger.empty 1).after first).gone := List.mem_cons_self
  obtain ⟨_, _, _, _, _, hticks⟩ := custody_accounted 1 0 first
  obtain ⟨hstays, hexpires⟩ := (hticks tick.renewal).2 _ hgone 3 rfl [] (by simp)
  exact ⟨inferInstance, inferInstance, by decide +kernel, by decide +kernel, by decide +kernel,
    by decide +kernel, (custody_accounted 1 0 turns).1, hstays (by decide +kernel),
    hexpires (by decide +kernel)⟩

end Accounted
end FloodMesh
