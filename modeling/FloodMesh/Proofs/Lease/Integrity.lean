import FloodMesh.Proofs.Lease.Guarded
import FloodMesh.Proofs.Lease.Refinement

/-!
# FloodMesh.Proofs.Lease.Integrity

Histories of a store. Whatever entries are put in, taken out, left to run out or dropped all at
once, for every hash function the store is threaded afterwards, its head is not due, and the next
operation meets no fault: `links_intact`.
-/

namespace FloodMesh
namespace Timeline

variable {κ ν : Type}

/-- What is done to a store. -/
inductive Op (κ ν : Type)
  | insert (key : κ) (value : ν)
  | remove (key : κ)
  | tick
  | drain

variable [BEq κ] [Hashable κ]

/-- Carry out an operation: the store afterwards, and the entries that left it. -/
def apply (t : Timeline κ ν) : Op κ ν → Timeline κ ν × List (κ × ν)
  | .insert k v => let (t, replaced) := t.insert k v; (t, replaced.toList)
  | .remove k => let (t, removed) := t.remove k; (t, removed.toList)
  | .tick => t.tick
  | .drain => t.drain

def applyGuarded (t : Timeline κ ν) : Op κ ν → Except Fault (Timeline κ ν × List (κ × ν))
  | .insert k v => do
    let (t, replaced) ← t.insertGuarded k v
    return (t, replaced.toList)
  | .remove k => do
    let (t, removed) ← t.removeGuarded k
    return (t, removed.toList)
  | .tick => t.tickGuarded
  | .drain => t.drainGuarded

/-- The store after operations, one after another. -/
def after (t : Timeline κ ν) (ops : List (Op κ ν)) : Timeline κ ν :=
  ops.foldl (fun t op => (t.apply op).1) t

variable [EquivBEq κ] [LawfulHashable κ] {t : Timeline κ ν}

/-! ## One operation -/

theorem Holds.apply {l : List (κ × ν × Nat)} (h : t.Holds l) (op : Op κ ν) :
    ∃ l', (t.apply op).1.Holds l' ∧ (t.apply op).1.ttl = t.ttl := by
  cases op with
  | insert k v =>
    obtain ⟨l', hholds, habsent, httl⟩ := h.remove k
    obtain ⟨happended, httl'⟩ := hholds.append v habsent
    exact ⟨_, happended, httl'.trans httl⟩
  | remove k =>
    obtain ⟨l', hholds, _, httl⟩ := h.remove k
    exact ⟨l', hholds, httl⟩
  | tick =>
    cases l with
    | nil => exact ⟨[], by rwa [Timeline.apply, h.tick_nil], by rw [Timeline.apply, h.tick_nil]⟩
    | cons c rest =>
      obtain ⟨hholds, _, httl⟩ := h.tick_cons
      exact ⟨_, hholds, httl⟩
  | drain =>
    obtain ⟨hholds, _, httl⟩ := h.drain
    exact ⟨[], hholds, httl⟩

theorem Holds.applyGuarded {l : List (κ × ν × Nat)} (h : t.Holds l) (hword : t.ttl < UInt64.size)
    (op : Op κ ν) : t.applyGuarded op = .ok (t.apply op) := by
  cases op with
  | insert k v =>
    rw [Timeline.applyGuarded, h.insertGuarded hword]
    rfl
  | remove k =>
    rw [Timeline.applyGuarded, h.removeGuarded hword]
    rfl
  | tick => exact h.tickGuarded hword
  | drain => exact h.drainGuarded

omit [EquivBEq κ] [LawfulHashable κ] in
theorem Holds.head_gap {l : List (κ × ν × Nat)} (h : t.Holds l) {s : Nat} {e : Entry κ ν}
    (hs : t.head = some s) (he : t.entry? s = some e) : 1 ≤ e.gap := by
  obtain ⟨order, chains, ht, rfl, hdue⟩ := h
  obtain ⟨rest, rfl⟩ := List.head?_eq_some_iff.mp (ht.next.start_eq.symm.trans hs)
  exact hdue (content e) (by rw [contents_cons he, List.head?_cons]; rfl)

/-! ## Whole histories -/

theorem Holds.after {l : List (κ × ν × Nat)} (h : t.Holds l) (ops : List (Op κ ν)) :
    ∃ l', (t.after ops).Holds l' ∧ (t.after ops).ttl = t.ttl := by
  induction ops generalizing t l with
  | nil => exact ⟨l, h, rfl⟩
  | cons op ops ih =>
    obtain ⟨l', hholds, httl⟩ := h.apply op
    obtain ⟨l'', hholds', httl'⟩ := ih hholds
    exact ⟨l'', hholds', httl'.trans httl⟩

/-- After any history the store is threaded: the timeline leads through all occupied slots from the
head to the tail and back, each slot is on the chain of its bucket, no key is there twice, and the
counters agree. Its head is not due. Every operation and every walk that comes next ends without a
fault, and does what the plain one does. -/
theorem links_intact {ttl : Nat} (hword : ttl < UInt64.size) (buckets : Nat)
    (ops : List (Op κ ν)) :
    let t := (empty ttl buckets : Timeline κ ν).after ops
    (∃ order chains, t.Threaded order chains ∧ t.tail = order.getLast? ∧
      ∀ s e, t.head = some s → t.entry? s = some e → 1 ≤ e.gap) ∧
    (∀ op, t.applyGuarded op = .ok (t.apply op)) ∧
    (∀ key, t.findGuarded key = .ok (t.find? key) ∧ t.getGuarded key = .ok (t.get? key)) ∧
    t.walkGuarded t.slots.size t.head = .ok (t.walk t.slots.size t.head) := by
  intro t
  obtain ⟨l, hholds, httl⟩ := (holds_empty (κ := κ) (ν := ν) ttl buckets).after ops
  have hword : t.ttl < UInt64.size := by
    rw [httl]
    exact Nat.max_lt.mpr ⟨hword, by decide⟩
  have hgap : ∀ s e, t.head = some s → t.entry? s = some e → 1 ≤ e.gap :=
    fun s e hs he => hholds.head_gap hs he
  refine ⟨?_, hholds.applyGuarded hword, fun key => ⟨hholds.findGuarded key, hholds.getGuarded key⟩,
    hholds.walkGuarded⟩
  obtain ⟨order, chains, ht, _⟩ := hholds
  exact ⟨order, chains, ht, ht.tail_eq, hgap⟩

/-- Names that differ in case only, all in one bucket; slots are emptied and taken again. -/
theorem links_intact_caseless :
    let ops : List (Op Caseless Nat) :=
      [.insert ⟨['A', 'b']⟩ 1, .insert ⟨['c']⟩ 2, .tick, .insert ⟨['a', 'B']⟩ 3, .remove ⟨['C']⟩]
    EquivBEq Caseless ∧ LawfulHashable Caseless ∧ 2 < UInt64.size ∧
      (∃ order chains, ((empty 2 0).after ops).Threaded order chains) ∧
      ((empty 2 0).after ops).applyGuarded .tick = .ok (((empty 2 0).after ops).apply .tick) := by
  intro ops
  have hword : 2 < UInt64.size := by decide
  obtain ⟨⟨order, chains, hthreaded, _⟩, hguarded, _⟩ := links_intact hword 0 ops
  exact ⟨inferInstance, inferInstance, hword, ⟨order, chains, hthreaded⟩, hguarded .tick⟩

end Timeline
end FloodMesh
