import FloodMesh.Proofs.Lease.Trail
import Mathlib.Algebra.GroupWithZero.Nat
import Mathlib.Data.List.Nodup
import Mathlib.Data.List.Perm.Subperm

/-!
# FloodMesh.Proofs.Lease.Threads

The representation invariant of the store. `Threaded` says that the links, the buckets, the free
list and the counters all speak of the same occupied slots: `order` lists them along the timeline
and `chains` lists those of each bucket. `Holds` gives what a store is to its users, keys, values
and gaps in the order of expiry, and adds what holds between operations only, that no entry at the
head is already due.
-/

namespace FloodMesh
namespace Timeline

variable {κ ν : Type}

/-! ## Slots and buckets after a change -/

@[simp] theorem entry?_adjust (t : Timeline κ ν) (s : Nat) (f : Entry κ ν → Entry κ ν) (x : Nat) :
    Timeline.entry? (t.adjust s f) x = if s = x then (t.entry? x).map f else t.entry? x := by
  simp only [Timeline.entry?, adjust, Array.getElem?_modify]
  split
  · rcases t.slots[x]? with _ | _ | _ <;> rfl
  · rfl

@[simp] theorem entry?_setFirst (t : Timeline κ ν) (b : Nat) (o : Option Nat) (x : Nat) :
    Timeline.entry? (t.setFirst b o) x = t.entry? x := by
  cases o <;> rfl

@[simp] theorem first?_setFirst (t : Timeline κ ν) (b : Nat) (o : Option Nat) (c : Nat) :
    (t.setFirst b o).first? c = if b = c then o else t.first? c := by
  cases o with
  | none => simp [setFirst, first?, Std.HashMap.getElem?_erase]
  | some s => simp [setFirst, first?, Std.HashMap.getElem?_insert]

theorem lt_of_entry? {t : Timeline κ ν} {s : Nat} (h : (t.entry? s).isSome) :
    s < t.slots.size := by
  by_contra hs
  simp [Timeline.entry?, Array.getElem?_eq_none (Nat.le_of_not_lt hs)] at h

/-! ## Contents -/

/-- Key, value and gap of an entry: what it is without its links. -/
def content (e : Entry κ ν) : κ × ν × Nat := (e.key, e.value, e.gap)

def contents (t : Timeline κ ν) (l : List Nat) : List (κ × ν × Nat) :=
  l.filterMap fun s => (t.entry? s).map content

def span (l : List (κ × ν × Nat)) : Nat := (l.map (·.2.2)).sum

@[simp] theorem span_nil : span ([] : List (κ × ν × Nat)) = 0 := rfl

@[simp] theorem span_cons (c : κ × ν × Nat) (l : List (κ × ν × Nat)) :
    span (c :: l) = c.2.2 + span l := by simp [span]

@[simp] theorem span_append (l r : List (κ × ν × Nat)) : span (l ++ r) = span l + span r := by
  simp [span]

@[simp] theorem contents_nil (t : Timeline κ ν) : t.contents [] = [] := rfl

@[simp] theorem contents_append (t : Timeline κ ν) (l r : List Nat) :
    t.contents (l ++ r) = t.contents l ++ t.contents r := by simp [contents]

theorem contents_cons {t : Timeline κ ν} {s : Nat} {e : Entry κ ν} (he : t.entry? s = some e)
    (l : List Nat) : t.contents (s :: l) = content e :: t.contents l := by
  simp [contents, he]

theorem contents_congr {t t' : Timeline κ ν} {l : List Nat}
    (h : ∀ s ∈ l, (t'.entry? s).map content = (t.entry? s).map content) :
    t'.contents l = t.contents l := by
  unfold contents
  induction l with
  | nil => rfl
  | cons s rest ih =>
    simp only [List.filterMap_cons, h s List.mem_cons_self,
      ih fun x hx => h x (List.mem_cons_of_mem s hx)]

theorem mem_contents {t : Timeline κ ν} {l : List Nat} {c : κ × ν × Nat}
    (h : c ∈ t.contents l) : ∃ s ∈ l, ∃ e, t.entry? s = some e ∧ content e = c := by
  obtain ⟨s, hs, hc⟩ := List.mem_filterMap.mp h
  obtain ⟨e, he, hc⟩ := Option.map_eq_some_iff.mp hc
  exact ⟨s, hs, e, he, hc⟩

theorem mem_contents_of_entry? {t : Timeline κ ν} {order : List Nat} {s : Nat} {e : Entry κ ν}
    (hs : s ∈ order) (he : t.entry? s = some e) : content e ∈ t.contents order :=
  List.mem_filterMap.mpr ⟨s, hs, by simp [he]⟩

/-! ## The invariant -/

section Keyed

variable [BEq κ] [Hashable κ]

/-- The three kinds of links, the buckets, the free list and the counters agree on which slots are
occupied and in which order. -/
structure Threaded (t : Timeline κ ν) (order : List Nat) (chains : Nat → List Nat) : Prop where
  /-- Forward from the head, the timeline visits the slots of `order`. -/
  next : t.Trail (·.next) t.head order none
  /-- Backward from the tail, it visits them in reverse. -/
  prev : t.Trail (·.prev) t.tail order.reverse none
  chain : ∀ b, t.Trail (·.chain) (t.first? b) (chains b) none
  order_nodup : order.Nodup
  chains_nodup : ∀ b, (chains b).Nodup
  occupied : ∀ s, s ∈ order ↔ (t.entry? s).isSome
  /-- A slot is on the chain of its key's bucket and on no other. -/
  hashed : ∀ b s, s ∈ chains b ↔ ∃ e, t.entry? s = some e ∧ t.bucketOf e.key = b
  distinct : ∀ s s' e e', t.entry? s = some e → t.entry? s' = some e' →
    (e.key == e'.key) = true → s = s'
  pending_eq : t.pending = span (t.contents order)
  pending_le : t.pending ≤ t.ttl
  size_eq : t.size = order.length
  free_nodup : t.free.Nodup
  free : ∀ s, s ∈ t.free ↔ s < t.slots.size ∧ t.entry? s = none
  ttl_pos : 0 < t.ttl
  buckets_pos : 0 < t.buckets

/-- A store between operations and what it holds: it is threaded, and the entry at the head is not
due yet. -/
def Holds (t : Timeline κ ν) (l : List (κ × ν × Nat)) : Prop :=
  ∃ order chains, t.Threaded order chains ∧ t.contents order = l ∧ ∀ c ∈ l.head?, 0 < c.2.2

def Sound (t : Timeline κ ν) : Prop := ∃ l, t.Holds l

namespace Threaded

variable {t : Timeline κ ν} {order : List Nat} {chains : Nat → List Nat}

theorem lt_size (h : t.Threaded order chains) {s : Nat} (hs : s ∈ order) : s < t.slots.size :=
  lt_of_entry? ((h.occupied s).mp hs)

theorem entry (h : t.Threaded order chains) {s : Nat} (hs : s ∈ order) :
    ∃ e, t.entry? s = some e :=
  Option.isSome_iff_exists.mp ((h.occupied s).mp hs)

theorem mem_order (h : t.Threaded order chains) {s : Nat} {e : Entry κ ν}
    (he : t.entry? s = some e) : s ∈ order :=
  (h.occupied s).mpr (by simp [he])

theorem mem_chain (h : t.Threaded order chains) {s : Nat} {e : Entry κ ν}
    (he : t.entry? s = some e) : s ∈ chains (t.bucketOf e.key) :=
  (h.hashed _ s).mpr ⟨e, he, rfl⟩

theorem length_le (h : t.Threaded order chains) : order.length ≤ t.slots.size := by
  have hsub : order ⊆ List.range t.slots.size := fun s hs => List.mem_range.mpr (h.lt_size hs)
  simpa using (h.order_nodup.subperm hsub).length_le

theorem chain_length_le (h : t.Threaded order chains) (b : Nat) :
    (chains b).length ≤ t.slots.size := by
  have hsub : chains b ⊆ List.range t.slots.size := by
    intro s hs
    obtain ⟨e, he, _⟩ := (h.hashed b s).mp hs
    exact List.mem_range.mpr (h.lt_size (h.mem_order he))
  simpa using ((h.chains_nodup b).subperm hsub).length_le

theorem contents_length (h : t.Threaded order chains) :
    (t.contents order).length = order.length := by
  have hall : ∀ l : List Nat, (∀ s ∈ l, s ∈ order) → (t.contents l).length = l.length := by
    intro l
    induction l with
    | nil => intro _; rfl
    | cons s rest ih =>
      intro hl
      obtain ⟨e, he⟩ := h.entry (hl s List.mem_cons_self)
      rw [contents_cons he, List.length_cons, ih fun x hx => hl x (List.mem_cons_of_mem s hx),
        List.length_cons]
  exact hall order fun _ hs => hs

theorem toList_eq (h : t.Threaded order chains) :
    t.toList = (t.contents order).map fun c => (c.1, c.2.1) := by
  rw [toList, walk_eq_of_trail h.next h.length_le, contents, List.map_filterMap,
    List.map_filterMap]
  congr 1
  funext s
  cases t.entry? s <;> rfl

section Split

variable {pre post : List Nat} {s : Nat} {e : Entry κ ν}

theorem next_eq (h : t.Threaded (pre ++ s :: post) chains) (he : t.entry? s = some e) :
    e.next = post.head? := by
  obtain ⟨_, _, _, e', he', htail⟩ := Trail.append.mp h.next
  cases he.symm.trans he'
  exact htail.start_eq

theorem prev_eq (h : t.Threaded (pre ++ s :: post) chains) (he : t.entry? s = some e) :
    e.prev = pre.getLast? := by
  have hprev := h.prev
  rw [List.reverse_append, List.reverse_cons, List.append_assoc, List.singleton_append] at hprev
  obtain ⟨_, _, _, e', he', htail⟩ := Trail.append.mp hprev
  cases he.symm.trans he'
  exact htail.start_eq.trans List.head?_reverse

theorem tail_eq (h : t.Threaded order chains) : t.tail = order.getLast? := by
  rw [h.prev.start_eq, List.head?_reverse]

end Split

end Threaded

theorem threaded_empty (ttl buckets : Nat) :
    (empty ttl buckets : Timeline κ ν).Threaded [] fun _ => [] where
  next := rfl
  prev := rfl
  chain b := by simp [Trail, empty, first?]
  order_nodup := List.nodup_nil
  chains_nodup _ := List.nodup_nil
  occupied s := by simp [empty, entry?]
  hashed b s := by simp [empty, entry?]
  distinct s s' e e' he := by simp [empty, entry?] at he
  pending_eq := rfl
  pending_le := Nat.zero_le _
  size_eq := rfl
  free_nodup := List.nodup_nil
  free s := by simp [empty]
  ttl_pos := by simp only [empty]; omega
  buckets_pos := by simp only [empty]; omega

theorem holds_empty (ttl buckets : Nat) : (empty ttl buckets : Timeline κ ν).Holds [] :=
  ⟨[], fun _ => [], threaded_empty ttl buckets, rfl, by simp⟩

end Keyed

end Timeline
end FloodMesh
