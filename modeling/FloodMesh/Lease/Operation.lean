import FloodMesh.Lease.Table

/-!
# FloodMesh.Lease.Operation

The operations of a lease table as values, so that whole histories can be run and spoken about.
-/

namespace FloodMesh

/-- An operation on a lease table. A visitor stops once it has seen enough. -/
inductive LeaseOp (κ ν : Type)
  | insert (key : κ) (value : ν)
  | insertIfAbsent (key : κ) (value : ν)
  | get (key : κ)
  | contains (key : κ)
  | remove (key : κ)
  | tick
  | clear
  | replace (entries : List (κ × ν))
  | visit (enough : List (κ × ν) → Bool)

/-- What an operation answers. -/
inductive LeaseAnswer (κ ν : Type)
  | done
  | flag (b : Bool)
  | value (v : Option ν)
  | count (n : Nat)
  | seen (entries : List (κ × ν))
  deriving DecidableEq, Repr

namespace LeaseStep

variable {κ ν α β : Type}

/-- The step with its answer put another way. -/
def map (f : α → β) (s : LeaseStep κ ν α) : LeaseStep κ ν β :=
  { table := s.table, answer := f s.answer, events := s.events }

end LeaseStep

namespace LeaseTable

variable {κ ν : Type} [BEq κ] [Hashable κ]

/-- Carry out an operation. -/
def perform (t : LeaseTable κ ν) : LeaseOp κ ν → LeaseStep κ ν (LeaseAnswer κ ν)
  | .insert k v => (t.insert k v).map .flag
  | .insertIfAbsent k v => (t.insertIfAbsent k v).map .flag
  | .get k => { table := t, answer := .value (t.get? k) }
  | .contains k => { table := t, answer := .flag (t.contains k) }
  | .remove k => (t.remove k).map .value
  | .tick => t.tick.map .count
  | .clear => t.clear.map fun _ => .done
  | .replace entries => (t.replace entries).map fun _ => .done
  | .visit enough => { table := t, answer := .seen (t.timeline.visit enough) }

/-- Carry out operations one after another. -/
def performAll (t : LeaseTable κ ν) :
    List (LeaseOp κ ν) → LeaseTable κ ν × List (LeaseAnswer κ ν × List (LeaseEvent κ ν))
  | [] => (t, [])
  | op :: ops =>
    let s := t.perform op
    let (t, rest) := s.table.performAll ops
    (t, (s.answer, s.events) :: rest)

end LeaseTable
end FloodMesh
