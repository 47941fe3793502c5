import FloodMesh.Lease.Timeline

/-!
# FloodMesh.Lease.Table

Tables of leases: a value stays under its key for a fixed number of ticks after it was last
inserted. What a table does to its values on its own shows as events: an entry that runs out
*expires*, and every value the table gives up is *released*, except one that `remove` hands back.

An expiry hook may put a new value under the key that just expired; `renewal` says which, if any.
-/

namespace FloodMesh

/-- What a table does to its values on its own. -/
inductive LeaseEvent (κ ν : Type)
  | expired (key : κ) (value : ν)
  | released (key : κ) (value : ν)
  deriving DecidableEq, Repr

structure LeaseTable (κ ν : Type) where
  timeline : Timeline κ ν
  /-- What the expiry hook inserts again under an expired key. -/
  renewal : κ → ν → Option ν := fun _ _ => none

/-- A table after an operation, with the answer and the events in their order. -/
structure LeaseStep (κ ν α : Type) where
  table : LeaseTable κ ν
  answer : α
  events : List (LeaseEvent κ ν) := []

namespace LeaseTable

variable {κ ν : Type}

/-- A table whose entries live `ttl` ticks. Both numbers count as at least one. -/
def empty (ttl buckets : Nat) : LeaseTable κ ν := { timeline := .empty ttl buckets }

def size (t : LeaseTable κ ν) : Nat := t.timeline.size

def isEmpty (t : LeaseTable κ ν) : Bool := t.size == 0

/-- Ticks that an entry lives. -/
def ttl (t : LeaseTable κ ν) : Nat := t.timeline.ttl

/-- Ticks until the entry inserted last expires. -/
def pending (t : LeaseTable κ ν) : Nat := t.timeline.pending

/-- Keys and values, those that expire first in front. -/
def toList (t : LeaseTable κ ν) : List (κ × ν) := t.timeline.toList

/-- The events of giving up entries. -/
def releases (entries : List (κ × ν)) : List (LeaseEvent κ ν) :=
  entries.map fun (k, v) => .released k v

/-- Give up every entry. -/
def clear (t : LeaseTable κ ν) : LeaseStep κ ν Unit :=
  let (timeline, drained) := t.timeline.drain
  { table := { t with timeline }, answer := (), events := releases drained }

variable [BEq κ] [Hashable κ]

def get? (t : LeaseTable κ ν) (key : κ) : Option ν := t.timeline.get? key

def contains (t : LeaseTable κ ν) (key : κ) : Bool := t.timeline.contains key

/-- Insert or refresh an entry. The answer says whether one with an equal key was replaced. -/
def insert (t : LeaseTable κ ν) (key : κ) (value : ν) : LeaseStep κ ν Bool :=
  let (timeline, replaced) := t.timeline.insert key value
  { table := { t with timeline }, answer := replaced.isSome, events := releases replaced.toList }

/-- Insert an entry unless an equal key is present. The answer says whether it was inserted. -/
def insertIfAbsent (t : LeaseTable κ ν) (key : κ) (value : ν) : LeaseStep κ ν Bool :=
  if t.contains key then { table := t, answer := false }
  else { table := { t with timeline := (t.timeline.insert key value).1 }, answer := true }

/-- Remove an entry and hand its value back. -/
def remove (t : LeaseTable κ ν) (key : κ) : LeaseStep κ ν (Option ν) :=
  let (timeline, removed) := t.timeline.remove key
  { table := { t with timeline }, answer := removed.map (·.2) }

/-- One expired entry after another: it expires, the hook may renew its key, it is released. -/
def expire (t : LeaseTable κ ν) : List (κ × ν) → LeaseTable κ ν × List (LeaseEvent κ ν)
  | [] => (t, [])
  | (k, v) :: rest =>
    let renewed : LeaseStep κ ν Bool :=
      match t.renewal k v with
      | none => { table := t, answer := false }
      | some w => t.insert k w
    let (t, events) := renewed.table.expire rest
    (t, .expired k v :: renewed.events ++ .released k v :: events)

/-- Let one tick pass. The answer is the number of entries that expired. -/
def tick (t : LeaseTable κ ν) : LeaseStep κ ν Nat :=
  let (timeline, expired) := t.timeline.tick
  let (table, events) := { t with timeline }.expire expired
  { table, answer := expired.length, events }

/-- Insert entries in their order, collecting what they displace. -/
def insertAll (timeline : Timeline κ ν) : List (κ × ν) → Timeline κ ν × List (κ × ν)
  | [] => (timeline, [])
  | (k, v) :: rest =>
    let (timeline, replaced) := timeline.insert k v
    let (timeline, displaced) := insertAll timeline rest
    (timeline, replaced.toList ++ displaced)

/-- Swap the whole contents for new entries, all with a full time to live. -/
def replace (t : LeaseTable κ ν) (entries : List (κ × ν)) : LeaseStep κ ν Unit :=
  let (timeline, drained) := t.timeline.drain
  let (timeline, displaced) := insertAll timeline entries
  { table := { t with timeline }, answer := (), events := releases (drained ++ displaced) }

/-- Let several ticks pass. -/
def ticks (t : LeaseTable κ ν) : Nat → LeaseStep κ ν (List Nat)
  | 0 => { table := t, answer := [] }
  | n + 1 =>
    let one := t.tick
    let more := one.table.ticks n
    { table := more.table, answer := one.answer :: more.answer
      events := one.events ++ more.events }

end LeaseTable
end FloodMesh
