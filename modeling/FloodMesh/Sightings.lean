import FloodMesh.Lease.Table

/-!
# FloodMesh.Sightings

Ids of messages seen lately. A message reaches a router over several paths; its id is remembered for
a fixed number of ticks after the first copy, so that later copies are recognised. A copy does not
prolong the memory of its id.
-/

namespace FloodMesh

structure Sightings where
  leases : LeaseTable String Unit

namespace Sightings

/-- Nothing seen. Ids are remembered for `ttl` ticks. -/
def empty (ttl buckets : Nat) : Sightings := { leases := .empty ttl buckets }

/-- What it is called in logs. -/
def label : String := "messages"

def size (s : Sightings) : Nat := s.leases.size

def isEmpty (s : Sightings) : Bool := s.leases.isEmpty

/-- The ids remembered, oldest first. -/
def ids (s : Sightings) : List String := s.leases.toList.map (·.1)

/-- Remember an id. The answer says whether it was remembered already. -/
def see (s : Sightings) (id : String) : Sightings × Bool :=
  if s.leases.contains id then (s, true)
  else
    let step := s.leases.insertIfAbsent id ()
    ({ leases := step.table }, !step.answer)

/-- Forget everything. -/
def clear (s : Sightings) : Sightings := { leases := s.leases.clear.table }

/-- Let one tick pass. The answer is the number of ids forgotten. -/
def tick (s : Sightings) : Sightings × Nat :=
  let step := s.leases.tick
  ({ leases := step.table }, step.answer)

/-- Let several ticks pass. -/
def ticks (s : Sightings) (n : Nat) : Sightings × List Nat :=
  let step := s.leases.ticks n
  ({ leases := step.table }, step.answer)

end Sightings
end FloodMesh
