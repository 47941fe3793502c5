import FloodMesh.Lease.Operation
import Mathlib.Data.List.Infix

/-!
# FloodMesh.Proofs.Lease.Ledger

What a lease table is to its users, without slots, links, buckets or gaps: a clock and a list of
entries, each with the tick at which it expires.
-/

namespace FloodMesh

/-- An entry with the tick at which it expires. -/
structure Lease (κ ν : Type) where
  key : κ
  value : ν
  due : Nat
  deriving DecidableEq, Repr

/-- Leases on a clock, those that expire first in front. -/
structure Ledger (κ ν : Type) where
  clock : Nat := 0
  ttl : Nat
  leases : List (Lease κ ν) := []

/-- A ledger after an operation, with the answer and the events in their order. -/
structure LedgerStep (κ ν : Type) where
  ledger : Ledger κ ν
  answer : LeaseAnswer κ ν
  events : List (LeaseEvent κ ν) := []

/-- The keys and values that an operation brings along. -/
def LeaseOp.supplies {κ ν : Type} : LeaseOp κ ν → List (κ × ν)
  | insert k v | insertIfAbsent k v => [(k, v)]
  | replace entries => entries
  | _ => []

namespace Ledger

variable {κ ν : Type}

/-- A ledger without leases. A lease lives at least one tick. -/
def empty (ttl : Nat) : Ledger κ ν := { ttl := max ttl 1 }

/-- Keys and values, those that expire first in front. -/
def pairs (l : Ledger κ ν) : List (κ × ν) := l.leases.map fun x => (x.key, x.value)

/-- Ticks until the last lease expires. -/
def pending (l : Ledger κ ν) : Nat := (l.leases.getLast?.map fun x => x.due - l.clock).getD 0

/-- The events of giving up leases. -/
def releases (leases : List (Lease κ ν)) : List (LeaseEvent κ ν) :=
  leases.map fun x => .released x.key x.value

/-- The events of leases that run out. -/
def expiries (leases : List (Lease κ ν)) : List (LeaseEvent κ ν) :=
  leases.flatMap fun x => [.expired x.key x.value, .released x.key x.value]

variable [BEq κ]

def find? (l : Ledger κ ν) (key : κ) : Option (Lease κ ν) := l.leases.find? fun x => x.key == key

def erase (l : Ledger κ ν) (key : κ) : Ledger κ ν :=
  { l with leases := l.leases.eraseP fun x => x.key == key }

theorem erase_eq_self {l : Ledger κ ν} {key : κ} (h : l.find? key = none) : l.erase key = l := by
  rw [erase, List.eraseP_of_forall_not (List.find?_eq_none.mp h)]

/-- Add a lease that has all its time before it. -/
def push (l : Ledger κ ν) (key : κ) (value : ν) : Ledger κ ν :=
  { l with leases := l.leases ++ [⟨key, value, l.clock + l.ttl⟩] }

/-- Add leases in their order, each in place of one of an equal key; those go into the list. -/
def insertAll (l : Ledger κ ν) : List (κ × ν) → Ledger κ ν × List (Lease κ ν)
  | [] => (l, [])
  | (k, v) :: rest =>
    let (l', displaced) := ((l.erase k).push k v).insertAll rest
    (l', (l.find? k).toList ++ displaced)

def perform (l : Ledger κ ν) : LeaseOp κ ν → LedgerStep κ ν
  | .insert k v =>
    { ledger := (l.erase k).push k v, answer := .flag (l.find? k).isSome
      events := releases (l.find? k).toList }
  | .insertIfAbsent k v =>
    if (l.find? k).isSome then { ledger := l, answer := .flag false }
    else { ledger := l.push k v, answer := .flag true }
  | .get k => { ledger := l, answer := .value ((l.find? k).map (·.value)) }
  | .contains k => { ledger := l, answer := .flag (l.find? k).isSome }
  | .remove k => { ledger := l.erase k, answer := .value ((l.find? k).map (·.value)) }
  | .tick =>
    let clock := l.clock + 1
    let gone := l.leases.filter fun x => x.due ≤ clock
    { ledger := { l with clock, leases := l.leases.filter fun x => clock < x.due }
      answer := .count gone.length, events := expiries gone }
  | .clear => { ledger := { l with leases := [] }, answer := .done, events := releases l.leases }
  | .replace entries =>
    let (l', displaced) := ({ l with leases := [] } : Ledger κ ν).insertAll entries
    { ledger := l', answer := .done, events := releases (l.leases ++ displaced) }
  -- A visitor sees the shortest prefix, of one entry at least, that is enough for it.
  | .visit enough =>
    { ledger := l, answer := .seen ((l.pairs.inits.tail.find? enough).getD l.pairs) }

def performAll (l : Ledger κ ν) :
    List (LeaseOp κ ν) → Ledger κ ν × List (LeaseAnswer κ ν × List (LeaseEvent κ ν))
  | [] => (l, [])
  | op :: ops =>
    let s := l.perform op
    let (l', rest) := s.ledger.performAll ops
    (l', (s.answer, s.events) :: rest)

/-! ## What gets into a ledger -/

variable {l : Ledger κ ν} {P : κ → ν → Prop}

theorem forall_erase (h : ∀ x ∈ l.leases, P x.key x.value) (key : κ) :
    ∀ x ∈ (l.erase key).leases, P x.key x.value :=
  fun x hx => h x (List.mem_of_mem_eraseP hx)

omit [BEq κ] in
theorem forall_push (h : ∀ x ∈ l.leases, P x.key x.value) {key : κ} {value : ν}
    (hnew : P key value) : ∀ x ∈ (l.push key value).leases, P x.key x.value := by
  intro x hx
  rcases List.mem_append.mp hx with hx | hx
  · exact h x hx
  · cases List.mem_singleton.mp hx
    exact hnew

theorem forall_insertAll (h : ∀ x ∈ l.leases, P x.key x.value) {entries : List (κ × ν)}
    (hnew : ∀ y ∈ entries, P y.1 y.2) :
    ∀ x ∈ (l.insertAll entries).1.leases, P x.key x.value := by
  induction entries generalizing l with
  | nil => exact h
  | cons y rest ih =>
    exact ih (forall_push (forall_erase h y.1) (hnew y List.mem_cons_self))
      fun z hz => hnew z (List.mem_cons_of_mem _ hz)

/-- Nothing gets into a ledger but what operations supply. -/
theorem forall_perform (h : ∀ x ∈ l.leases, P x.key x.value) {op : LeaseOp κ ν}
    (hnew : ∀ y ∈ op.supplies, P y.1 y.2) :
    ∀ x ∈ (l.perform op).ledger.leases, P x.key x.value := by
  cases op with
  | insert k v => exact forall_push (forall_erase h k) (hnew (k, v) List.mem_cons_self)
  | insertIfAbsent k v =>
    rw [perform]
    split
    · exact h
    · exact forall_push h (hnew (k, v) List.mem_cons_self)
  | remove k => exact forall_erase h k
  | tick => exact fun x hx => h x (List.mem_of_mem_filter hx)
  | clear => exact fun x hx => nomatch hx
  | replace entries => exact forall_insertAll (fun x hx => nomatch hx) hnew
  | _ => exact h

end Ledger

end FloodMesh
