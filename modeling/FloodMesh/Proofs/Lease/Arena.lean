import FloodMesh.Proofs.Lease.Integrity
import Mathlib.Order.Bounds.Basic

/-!
# FloodMesh.Proofs.Lease.Arena

The slots of a store over its life. Each is either occupied or free, and nothing leads to a free
one. A new slot is made only when there is none to use again, so a store has exactly as many slots
as it had entries when it was fullest, counted from when it was last drained: `slots_recycled`.

* `Threaded.linked_iff`: what is led to is what is occupied.
* `Holds.slots_apply`: no operation but draining changes the number of slots, unless the store gets
  fuller than it had slots.
* `Holds.fullest`: the history, from that.
-/

namespace FloodMesh
namespace Timeline

variable {κ ν : Type} {t : Timeline κ ν}

/-! ## What leads to a slot -/

/-- An end of the timeline, a bucket or an entry leads to the slot. -/
def Linked (t : Timeline κ ν) (s : Nat) : Prop :=
  t.head = some s ∨ t.tail = some s ∨ (∃ b, t.first? b = some s) ∨
    ∃ x e, t.entry? x = some e ∧ (e.next = some s ∨ e.prev = some s ∨ e.chain = some s)

namespace Trail

variable {link : Entry κ ν → Option Nat} {start : Option Nat} {l : List Nat} {s : Nat}

theorem mem_of_start (h : Trail t link start l none) (hs : start = some s) : s ∈ l :=
  List.mem_of_head? (h.start_eq ▸ hs)

theorem mem_of_link (h : Trail t link start l none) {x : Nat} {e : Entry κ ν} (hx : x ∈ l)
    (he : t.entry? x = some e) (hs : link e = some s) : s ∈ l := by
  obtain ⟨pre, post, rfl⟩ := List.append_of_mem hx
  obtain ⟨_, _, _, e', he', htail⟩ := Trail.append.mp h
  cases he.symm.trans he'
  exact List.mem_append_right pre (List.mem_cons_of_mem x (htail.mem_of_start hs))

end Trail

section Keyed

variable [BEq κ] [Hashable κ]

namespace Threaded

variable {order : List Nat} {chains : Nat → List Nat}

theorem mem_order_of_chained (h : t.Threaded order chains) {b s : Nat} (hs : s ∈ chains b) :
    s ∈ order := by
  obtain ⟨e, he, _⟩ := (h.hashed b s).mp hs
  exact h.mem_order he

/-- What something leads to is occupied, and an occupied slot has something that leads to it. -/
theorem linked_iff (h : t.Threaded order chains) (s : Nat) :
    t.Linked s ↔ (t.entry? s).isSome := by
  rw [← h.occupied s]
  constructor
  · rintro (hhead | htail | ⟨b, hfirst⟩ | ⟨x, e, he, hnext | hprev | hchain⟩)
    · exact h.next.mem_of_start hhead
    · exact List.mem_reverse.mp (h.prev.mem_of_start htail)
    · exact h.mem_order_of_chained ((h.chain b).mem_of_start hfirst)
    · exact h.next.mem_of_link (h.mem_order he) he hnext
    · exact List.mem_reverse.mp
        (h.prev.mem_of_link (List.mem_reverse.mpr (h.mem_order he)) he hprev)
    · exact h.mem_order_of_chained ((h.chain _).mem_of_link (h.mem_chain he) he hchain)
  · intro hs
    obtain ⟨pre, post, rfl⟩ := List.append_of_mem hs
    rcases List.eq_nil_or_concat' pre with rfl | ⟨pre, x, rfl⟩
    · exact .inl h.next.start_eq
    · -- The slot before it on the timeline leads to it.
      rw [List.append_assoc, List.singleton_append] at h
      obtain ⟨e, he⟩ := h.entry (s := x) (by simp)
      exact .inr (.inr (.inr ⟨x, e, he, .inl (h.next_eq he)⟩))

/-- Each slot is occupied or free. -/
theorem slots_eq (h : t.Threaded order chains) : t.slots.size = t.size + t.free.length := by
  have hnodup : (order ++ t.free).Nodup := by
    refine List.nodup_append.mpr ⟨h.order_nodup, h.free_nodup, fun x hx y hy heq => ?_⟩
    have hoccupied := (h.occupied x).mp hx
    rw [heq, ((h.free y).mp hy).2] at hoccupied
    cases hoccupied
  have hmem : ∀ s, s ∈ order ++ t.free ↔ s ∈ List.range t.slots.size := by
    intro s
    rw [List.mem_append, List.mem_range, h.free s]
    constructor
    · rintro (hs | hs)
      · exact h.lt_size hs
      · exact hs.1
    · intro hs
      cases he : t.entry? s with
      | none => exact .inr ⟨hs, rfl⟩
      | some e => exact .inl (h.mem_order he)
  have hperm := (List.perm_ext_iff_of_nodup hnodup List.nodup_range).mpr hmem
  rw [h.size_eq, ← List.length_append, hperm.length_eq, List.length_range]

/-- The slot that the next entry goes into is led to by nothing. -/
theorem not_linked_place (h : t.Threaded order chains) (e : Entry κ ν) :
    ¬ t.Linked (t.place e).2 := by
  rw [h.linked_iff]
  intro hoccupied
  rcases place_cases t e with ⟨hfree, _⟩ | ⟨_, _, hnew, _⟩
  · have hempty := ((h.free (t.place e).2).mp (by rw [hfree]; exact List.mem_cons_self)).2
    rw [hempty] at hoccupied
    cases hoccupied
  · have hlt := lt_of_entry? hoccupied
    exact absurd hlt (by rw [hnew]; exact Nat.lt_irrefl _)

end Threaded

/-! ## The number of slots -/

omit [BEq κ] [Hashable κ] in
theorem slots_detach (t : Timeline κ ν) (slot bucket : Nat) (before : Option Nat) :
    (t.detach slot bucket before).1.slots.size = t.slots.size := by
  cases he : t.entry? slot with
  | none => rw [detach, he]
  | some e => exact (detached bucket before he).slots

theorem slots_remove (t : Timeline κ ν) (key : κ) :
    (t.remove key).1.slots.size = t.slots.size := by
  rw [remove]
  split
  · rfl
  · exact t.slots_detach _ _ _

omit [BEq κ] in
theorem slots_evict (t : Timeline κ ν) (n : Nat) : (t.evict n).1.slots.size = t.slots.size := by
  induction n generalizing t with
  | zero => rfl
  | succ n ih =>
    rw [evict]
    split
    · rfl
    · split
      · rfl
      · split
        · rfl
        · exact (ih _).trans (t.slots_detach _ _ _)

theorem slots_tick (t : Timeline κ ν) : t.tick.1.slots.size = t.slots.size := by
  cases hhead : t.head with
  | none => rw [tick, hhead]
  | some slot =>
    rw [tick_of_head hhead, slots_evict]
    simp [Timeline.nearer, adjust]

variable {l : List (κ × ν × Nat)}

theorem Holds.slots_eq (h : t.Holds l) : t.slots.size = t.size + t.free.length := by
  obtain ⟨_, _, ht, _, _⟩ := h
  exact ht.slots_eq

/-- A new slot is made for an entry only if all slots are occupied. -/
theorem Holds.slots_append (h : t.Holds l) (key : κ) (value : ν) :
    (t.append key value).slots.size = max t.slots.size (t.append key value).size := by
  have hslots := h.slots_eq
  obtain ⟨_, _, ht, _, _⟩ := h
  obtain ⟨slot, _, ha⟩ := ht.appended key value
  have hsize := ha.size
  rcases ha.place with ⟨hfree, hsame⟩ | ⟨hfree, _, _, hnew⟩
  · rw [hfree, List.length_cons] at hslots
    omega
  · rw [hfree, List.length_nil] at hslots
    omega

variable [EquivBEq κ] [LawfulHashable κ]

theorem Holds.slots_apply (h : t.Holds l) {op : Op κ ν} (hop : op ≠ .drain) :
    (t.apply op).1.slots.size = max t.slots.size (t.apply op).1.size := by
  have hkept : (t.apply op).1.slots.size = t.slots.size →
      (t.apply op).1.slots.size = max t.slots.size (t.apply op).1.size := by
    intro hsame
    obtain ⟨l', hholds, _⟩ := h.apply op
    have hslots := hholds.slots_eq
    omega
  cases op with
  | insert k v =>
    obtain ⟨l', hholds, _⟩ := h.remove k
    have happend := hholds.slots_append k v
    rw [slots_remove] at happend
    exact happend
  | remove k => exact hkept (t.slots_remove k)
  | tick => exact hkept t.slots_tick
  | drain => exact absurd rfl hop

/-! ## Whole histories -/

omit [EquivBEq κ] [LawfulHashable κ] in
theorem after_snoc (t : Timeline κ ν) (ops : List (Op κ ν)) (op : Op κ ν) :
    t.after (ops ++ [op]) = ((t.after ops).apply op).1 := by
  rw [after, List.foldl_append]
  rfl

/-- The sizes that a store has in the course of operations, from when it is drained last on. -/
def recentSizes (t : Timeline κ ν) (ops : List (Op κ ν)) : Set Nat :=
  {n | ∃ past recent, ops = past ++ recent ∧ .drain ∉ recent ∧ n = (t.after past).size}

omit [EquivBEq κ] [LawfulHashable κ] in
theorem recentSizes_snoc (t : Timeline κ ν) (ops : List (Op κ ν)) {op : Op κ ν}
    (hop : op ≠ .drain) :
    t.recentSizes (ops ++ [op]) = {(t.after (ops ++ [op])).size} ∪ t.recentSizes ops := by
  ext n
  rw [Set.mem_union, Set.mem_singleton_iff]
  constructor
  · rintro ⟨past, recent, hsplit, hdrain, rfl⟩
    rcases List.eq_nil_or_concat' recent with rfl | ⟨recent, last, rfl⟩
    · rw [List.append_nil] at hsplit
      exact .inl (by rw [hsplit])
    · rw [← List.append_assoc] at hsplit
      obtain ⟨hsplit, _⟩ := List.append_inj' hsplit rfl
      exact .inr ⟨past, recent, hsplit, fun h => hdrain (List.mem_append_left _ h), rfl⟩
  · rintro (rfl | ⟨past, recent, rfl, hdrain, rfl⟩)
    · exact ⟨ops ++ [op], [], (List.append_nil _).symm, List.not_mem_nil, rfl⟩
    · refine ⟨past, recent ++ [op], List.append_assoc .., fun h => ?_, rfl⟩
      rcases List.mem_append.mp h with h | h
      · exact hdrain h
      · exact hop (List.mem_singleton.mp h).symm

omit [EquivBEq κ] [LawfulHashable κ] in
theorem recentSizes_drain (t : Timeline κ ν) (ops : List (Op κ ν)) :
    t.recentSizes (ops ++ [.drain]) = {0} := by
  ext n
  rw [Set.mem_singleton_iff]
  constructor
  · rintro ⟨past, recent, hsplit, hdrain, rfl⟩
    rcases List.eq_nil_or_concat' recent with rfl | ⟨recent, last, rfl⟩
    · rw [List.append_nil] at hsplit
      rw [← hsplit, after_snoc]
      rfl
    · rw [← List.append_assoc] at hsplit
      obtain ⟨_, hlast⟩ := List.append_inj' hsplit rfl
      cases hlast
      exact absurd (List.mem_append_right _ List.mem_cons_self) hdrain
  · rintro rfl
    exact ⟨ops ++ [.drain], [], (List.append_nil _).symm, List.not_mem_nil, by
      rw [after_snoc]; rfl⟩

/-- A store without free slots, after any history, has as many slots as it had entries when it was
fullest. -/
theorem Holds.fullest (h : t.Holds l) (hfull : t.free = []) (ops : List (Op κ ν)) :
    IsGreatest (t.recentSizes ops) (t.after ops).slots.size := by
  induction ops using List.reverseRecOn with
  | nil =>
    have hslots := h.slots_eq
    rw [hfull] at hslots
    have hsizes : t.recentSizes [] = {t.slots.size} := by
      ext n
      rw [Set.mem_singleton_iff, hslots]
      constructor
      · rintro ⟨past, recent, hsplit, _, rfl⟩
        obtain ⟨rfl, _⟩ := List.append_eq_nil_iff.mp hsplit.symm
        rfl
      · rintro rfl
        exact ⟨[], [], rfl, List.not_mem_nil, rfl⟩
    rw [hsizes]
    exact isGreatest_singleton
  | append_singleton ops op ih =>
    by_cases hop : op = .drain
    · subst hop
      rw [recentSizes_drain, after_snoc]
      exact isGreatest_singleton
    · obtain ⟨l', hholds, _⟩ := h.after ops
      rw [recentSizes_snoc t ops hop, after_snoc, hholds.slots_apply hop, Nat.max_comm]
      exact isGreatest_singleton.union ih

/-- After any history the free list has exactly the empty slots, each once. Slots are occupied or
free, and there are as many as there were entries when the store was fullest since it was drained
last; so one that never has more than `n` entries never has more than `n` slots. Exactly the
occupied slots are led to by anything, so that nothing leads to a free slot, and nothing to the slot
that an insertion takes, once the entry that it replaces is gone. -/
theorem slots_recycled (ttl buckets : Nat) (ops : List (Op κ ν)) :
    let t₀ : Timeline κ ν := empty ttl buckets
    let t := t₀.after ops
    t.free.Nodup ∧ (∀ s, s ∈ t.free ↔ s < t.slots.size ∧ t.entry? s = none) ∧
    t.slots.size = t.size + t.free.length ∧
    IsGreatest (t₀.recentSizes ops) t.slots.size ∧
    (∀ n, (∀ past, past <+: ops → (t₀.after past).size ≤ n) → t.slots.size ≤ n) ∧
    (∀ s, t.Linked s ↔ (t.entry? s).isSome) ∧
    ∀ key e, ¬ (t.remove key).1.Linked ((t.remove key).1.place e).2 := by
  intro t₀ t
  have hempty : t₀.Holds [] := holds_empty ttl buckets
  have hfullest := hempty.fullest rfl ops
  obtain ⟨l, hholds, _⟩ := hempty.after ops
  have hplace : ∀ key e, ¬ (t.remove key).1.Linked ((t.remove key).1.place e).2 := by
    intro key e
    obtain ⟨_, ⟨_, _, hremoved, _⟩, _⟩ := hholds.remove key
    exact hremoved.not_linked_place e
  have hbounded : ∀ n, (∀ past, past <+: ops → (t₀.after past).size ≤ n) → t.slots.size ≤ n := by
    intro n hsizes
    obtain ⟨past, recent, hsplit, _, hsize⟩ := hfullest.1
    exact hsize.trans_le (hsizes past ⟨recent, hsplit.symm⟩)
  obtain ⟨order, chains, hthreaded, _⟩ := hholds
  exact ⟨hthreaded.free_nodup, hthreaded.free, hthreaded.slots_eq, hfullest, hbounded,
    hthreaded.linked_iff, hplace⟩

/-- Names that differ in case only, all in one bucket. A slot is freed on each way and used again,
and the store is drained in between. -/
theorem slots_recycled_caseless :
    let ops : List (Op Caseless Nat) :=
      [.insert ⟨['x']⟩ 0, .drain, .insert ⟨['A', 'b']⟩ 1, .insert ⟨['c']⟩ 2, .insert ⟨['a', 'B']⟩ 3,
        .remove ⟨['C']⟩, .tick, .insert ⟨['d']⟩ 4, .tick]
    let t := (empty 2 0).after ops
    EquivBEq Caseless ∧ LawfulHashable Caseless ∧ t.free.Nodup ∧
      t.slots.size = t.size + t.free.length ∧
      IsGreatest ((empty 2 0).recentSizes ops) t.slots.size ∧
      ∀ e, ¬ (t.remove ⟨['D']⟩).1.Linked ((t.remove ⟨['D']⟩).1.place e).2 := by
  intro ops t
  obtain ⟨hnodup, _, hslots, hfullest, _, _, hplace⟩ := slots_recycled 2 0 ops
  exact ⟨inferInstance, inferInstance, hnodup, hslots, hfullest, hplace ⟨['D']⟩⟩

end Keyed

end Timeline
end FloodMesh
