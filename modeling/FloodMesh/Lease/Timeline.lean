import Std.Data.HashMap

/-!
# FloodMesh.Lease.Timeline

The store behind a lease table. Entries live in an arena of slots and are linked by slot number,
twice: along the chain of their hash bucket, to be found by key, and along a timeline in the order
of expiry. A timeline entry holds the gap, in ticks, between the expiry of the entry before it and
its own; `pending` is the sum of all gaps. Every entry gets the same time to live when it is
inserted, at the tail, so the timeline needs no sorting and a tick looks at the head alone.

Emptied slots are reused, the last one emptied first. Walks are bounded by the number of slots.
-/

namespace FloodMesh

/-- An occupied slot. -/
structure Entry (κ ν : Type) where
  key : κ
  value : ν
  /-- Ticks after the expiry of the entry before. -/
  gap : Nat
  /-- Next slot in the chain of the bucket. -/
  chain : Option Nat
  prev : Option Nat
  next : Option Nat
  deriving Repr

structure Timeline (κ ν : Type) where
  /-- Number of buckets. -/
  buckets : Nat
  /-- First slots of the chains of buckets that have any. -/
  firsts : Std.HashMap Nat Nat
  slots : Array (Option (Entry κ ν))
  /-- Empty slots, the next one to use first. -/
  free : List Nat
  head : Option Nat
  tail : Option Nat
  /-- Ticks until the entry at the tail expires. -/
  pending : Nat
  /-- Ticks that an entry lives. -/
  ttl : Nat
  /-- Number of entries. -/
  size : Nat
  deriving Repr

namespace Timeline

variable {κ ν : Type}

/-- Bytes that are set aside for a bucket. -/
def bucketSize : Nat := 16

/-- The most buckets that a timeline can have: together they are less than half of what 64 bits
address. -/
def maxBuckets : Nat := UInt64.size / 2 / bucketSize - 1

/-- A timeline without entries. There is at least one bucket, and entries live at least one
tick. -/
def empty (ttl buckets : Nat) : Timeline κ ν :=
  { buckets := max buckets 1, firsts := ∅, slots := #[], free := []
    head := none, tail := none, pending := 0, ttl := max ttl 1, size := 0 }

/-- The entry in a slot. -/
def entry? (t : Timeline κ ν) (slot : Nat) : Option (Entry κ ν) := t.slots[slot]?.join

/-- The first slot of a bucket's chain. -/
def first? (t : Timeline κ ν) (bucket : Nat) : Option Nat := t.firsts[bucket]?

/-- Change the entry in a slot. -/
def adjust (t : Timeline κ ν) (slot : Nat) (f : Entry κ ν → Entry κ ν) : Timeline κ ν :=
  { t with slots := t.slots.modify slot (·.map f) }

/-- Let a bucket's chain begin at a slot, or have none. -/
def setFirst (t : Timeline κ ν) (bucket : Nat) (slot : Option Nat) : Timeline κ ν :=
  match slot with
  | some s => { t with firsts := t.firsts.insert bucket s }
  | none => { t with firsts := t.firsts.erase bucket }

/-- The entries from a slot on, in the order of expiry, with their slots. -/
def walk (t : Timeline κ ν) : Nat → Option Nat → List (Nat × Entry κ ν)
  | 0, _ => []
  | _ + 1, none => []
  | n + 1, some slot =>
    match t.entry? slot with
    | none => []
    | some e => (slot, e) :: walk t n e.next

/-- Keys and values in the order of expiry. -/
def toList (t : Timeline κ ν) : List (κ × ν) :=
  (t.walk t.slots.size t.head).map fun (_, e) => (e.key, e.value)

/-- Visit entries in the order of expiry until the visitor has seen enough; it is asked after each
entry, with all it has seen. -/
def visit (t : Timeline κ ν) (enough : List (κ × ν) → Bool) : List (κ × ν) :=
  go [] t.toList
where
  go (seen : List (κ × ν)) : List (κ × ν) → List (κ × ν)
    | [] => seen
    | e :: rest => let seen := seen ++ [e]; if enough seen then seen else go seen rest

/-- Remove everything. The slots are given up as well. -/
def drain (t : Timeline κ ν) : Timeline κ ν × List (κ × ν) :=
  ({ t with firsts := ∅, slots := #[], free := []
            head := none, tail := none, pending := 0, size := 0 },
   t.toList)

section Keyed

variable [BEq κ] [Hashable κ]

/-- The bucket of a key. -/
def bucketOf (t : Timeline κ ν) (key : κ) : Nat := (hash key).toNat % t.buckets

/-- Follow a chain from a slot to the entry with an equal key: its slot, and the slot before it on
the chain. -/
def seek (t : Timeline κ ν) (key : κ) : Nat → Option Nat → Option Nat → Option (Nat × Option Nat)
  | 0, _, _ => none
  | _ + 1, _, none => none
  | n + 1, before, some slot =>
    match t.entry? slot with
    | none => none
    | some e => if e.key == key then some (slot, before) else seek t key n (some slot) e.chain

/-- The slot of the entry with an equal key, and the slot before it on its chain. -/
def find? (t : Timeline κ ν) (key : κ) : Option (Nat × Option Nat) :=
  t.seek key t.slots.size none (t.first? (t.bucketOf key))

/-- The slot before a given one on a bucket's chain. -/
def chainBefore (t : Timeline κ ν) (target : Nat) : Nat → Option Nat → Option Nat → Option Nat
  | 0, _, _ => none
  | _ + 1, _, none => none
  | n + 1, before, some slot =>
    if slot = target then before
    else
      match t.entry? slot with
      | none => none
      | some e => chainBefore t target n (some slot) e.chain

def get? (t : Timeline κ ν) (key : κ) : Option ν :=
  (t.find? key).bind fun (slot, _) => (t.entry? slot).map (·.value)

def contains (t : Timeline κ ν) (key : κ) : Bool := (t.find? key).isSome

/-- Take an entry off its chain and off the timeline and empty its slot. The entry after it
inherits the gap, so that it expires when it would have; there is none after the tail, and then the
timeline is shorter by the gap. -/
def detach (t : Timeline κ ν) (slot bucket : Nat) (before : Option Nat) :
    Timeline κ ν × Option (κ × ν) :=
  match t.entry? slot with
  | none => (t, none)
  | some e =>
    let t := { t with slots := t.slots.setIfInBounds slot none }
    let t :=
      match before with
      | some p => t.adjust p fun x => { x with chain := e.chain }
      | none => t.setFirst bucket e.chain
    let t :=
      match e.next with
      | some n => t.adjust n fun x => { x with gap := x.gap + e.gap, prev := e.prev }
      | none => { t with pending := t.pending - e.gap, tail := e.prev }
    let t :=
      match e.prev with
      | some p => t.adjust p fun x => { x with next := e.next }
      | none => { t with head := e.next }
    ({ t with free := slot :: t.free, size := t.size - 1 }, some (e.key, e.value))

/-- Remove the entry with an equal key. -/
def remove (t : Timeline κ ν) (key : κ) : Timeline κ ν × Option (κ × ν) :=
  match t.find? key with
  | none => (t, none)
  | some (slot, before) => t.detach slot (t.bucketOf key) before

/-- Store an entry in the next free slot, or in a new one. -/
def place (t : Timeline κ ν) (e : Entry κ ν) : Timeline κ ν × Nat :=
  match t.free with
  | slot :: free => ({ t with slots := t.slots.setIfInBounds slot (some e), free }, slot)
  | [] => ({ t with slots := t.slots.push (some e) }, t.slots.size)

/-- Append an entry whose key is not present, with a full time to live. -/
def append (t : Timeline κ ν) (key : κ) (value : ν) : Timeline κ ν :=
  let bucket := t.bucketOf key
  let gap := if t.head.isNone then t.ttl else t.ttl - t.pending
  let (t', slot) := t.place
    { key, value, gap, chain := t.first? bucket, prev := t.tail, next := none }
  let t' := t'.setFirst bucket (some slot)
  let t' :=
    match t.tail with
    | some tail => t'.adjust tail fun x => { x with next := some slot }
    | none => { t' with head := some slot }
  { t' with tail := some slot, pending := t.ttl, size := t.size + 1 }

/-- Insert an entry with a full time to live. One with an equal key is removed first and
returned. -/
def insert (t : Timeline κ ν) (key : κ) (value : ν) : Timeline κ ν × Option (κ × ν) :=
  let (t, replaced) := t.remove key
  (t.append key value, replaced)

/-- Take entries off the head while their gap is zero. -/
def evict (t : Timeline κ ν) : Nat → Timeline κ ν × List (κ × ν)
  | 0 => (t, [])
  | n + 1 =>
    match t.head with
    | none => (t, [])
    | some slot =>
      match t.entry? slot with
      | none => (t, [])
      | some e =>
        if e.gap ≠ 0 then (t, [])
        else
          let bucket := t.bucketOf e.key
          let before := t.chainBefore slot t.slots.size none (t.first? bucket)
          let (t, _) := t.detach slot bucket before
          let (t, rest) := evict t n
          (t, (e.key, e.value) :: rest)

/-- Let one tick pass: the entries that expire, oldest first. -/
def tick (t : Timeline κ ν) : Timeline κ ν × List (κ × ν) :=
  match t.head with
  | none => (t, [])
  | some slot =>
    let t := { t with pending := t.pending - 1 }
    let t := t.adjust slot fun e => { e with gap := e.gap - 1 }
    t.evict t.slots.size

end Keyed

end Timeline
end FloodMesh
