import FloodMesh.Proofs.Lease.Detach

/-!
# FloodMesh.Proofs.Lease.Append

Putting an entry in. It takes the free slot to use next, or a new one, and goes behind the tail and
in front of its bucket's chain; its gap reaches from the last expiry to a full time to live.
`Threaded.append` says that the store is threaded again and what it then holds.
-/

namespace FloodMesh
namespace Timeline

variable {κ ν : Type} {t : Timeline κ ν}

/-! ## Appending -/

/-- Let a slot follow the tail, or be the head if there is none. -/
def follow (t : Timeline κ ν) (tail : Option Nat) (slot : Nat) : Timeline κ ν :=
  match tail with
  | some s => t.adjust s fun x => { x with next := some slot }
  | none => { t with head := some slot }

theorem entry?_follow (tail : Option Nat) (slot x : Nat) :
    Timeline.entry? (t.follow tail slot) x =
      if tail = some x then (t.entry? x).map fun y => { y with next := some slot }
      else t.entry? x := by
  cases tail with
  | none => simp [follow]; rfl
  | some s => simp [follow]

theorem entry?_place (hfree : ∀ s ∈ t.free, s < t.slots.size) (e : Entry κ ν) (x : Nat) :
    Timeline.entry? (t.place e).1 x = if (t.place e).2 = x then some e else t.entry? x := by
  unfold place
  rcases hf : t.free with _ | ⟨slot, free⟩
  · simp only [Timeline.entry?, Array.getElem?_push]
    by_cases hx : t.slots.size = x
    · simp [hx]
    · simp [hx, Ne.symm hx]
  · have hlt : slot < t.slots.size := hfree slot (by simp [hf])
    simp only [Timeline.entry?, Array.getElem?_setIfInBounds]
    by_cases hx : slot = x
    · subst hx
      simp [hlt]
    · simp [hx]

theorem place_cases (t : Timeline κ ν) (e : Entry κ ν) :
    t.free = (t.place e).2 :: (t.place e).1.free ∧ (t.place e).1.slots.size = t.slots.size ∨
    t.free = [] ∧ (t.place e).1.free = [] ∧ (t.place e).2 = t.slots.size ∧
      (t.place e).1.slots.size = t.slots.size + 1 := by
  unfold place
  rcases hf : t.free with _ | ⟨slot, free⟩
  · right
    simp
  · left
    simp

theorem place_frame (t : Timeline κ ν) (e : Entry κ ν) :
    (t.place e).1.head = t.head ∧ (t.place e).1.ttl = t.ttl ∧
      (t.place e).1.buckets = t.buckets ∧ ∀ b, (t.place e).1.first? b = t.first? b := by
  unfold place
  cases t.free <;> exact ⟨rfl, rfl, rfl, fun _ => rfl⟩

/-- `t'` is `t` with the entry `e` put into the empty slot `slot`, behind the tail and in front of
its chain. -/
structure Appended [Hashable κ] (t t' : Timeline κ ν) (slot : Nat) (e : Entry κ ν) : Prop where
  entry? : ∀ x, t'.entry? x = if slot = x then some e else
    (t.entry? x).map fun y => { y with next := if t.tail = some x then some slot else y.next }
  first? : ∀ b, t'.first? b = if t.bucketOf e.key = b then some slot else t.first? b
  head : t'.head = if t.tail = none then some slot else t.head
  tail : t'.tail = some slot
  pending : t'.pending = t.ttl
  size : t'.size = t.size + 1
  ttl : t'.ttl = t.ttl
  buckets : t'.buckets = t.buckets
  /-- The slot is the free one to use next, or a new one if there is none. -/
  place : t.free = slot :: t'.free ∧ t'.slots.size = t.slots.size ∨
    t.free = [] ∧ t'.free = [] ∧ slot = t.slots.size ∧ t'.slots.size = t.slots.size + 1

def entryFor [Hashable κ] (t : Timeline κ ν) (key : κ) (value : ν) : Entry κ ν :=
  { key, value, gap := if t.head.isNone then t.ttl else t.ttl - t.pending
    chain := t.first? (t.bucketOf key), prev := t.tail, next := none }

theorem append_eq [Hashable κ] (key : κ) (value : ν) :
    t.append key value =
      let placed := t.place (t.entryFor key value)
      { (placed.1.setFirst (t.bucketOf key) (some placed.2)).follow t.tail placed.2 with
        tail := some placed.2, pending := t.ttl, size := t.size + 1 } := rfl

namespace Appended

variable [Hashable κ] {t' : Timeline κ ν} {slot : Nat} {e : Entry κ ν} (a : Appended t t' slot e)

include a

theorem map_entry? {α : Type} {f : Entry κ ν → α} {x : Nat} (hx : slot ≠ x)
    (hf : ∀ y, f { y with next := if t.tail = some x then some slot else y.next } = f y) :
    (t'.entry? x).map f = (t.entry? x).map f := by
  rw [a.entry?, if_neg hx, Option.map_map]
  congr 1
  funext y
  exact hf y

theorem entry?_self : t'.entry? slot = some e := by
  rw [a.entry?, if_pos rfl]

theorem bucketOf (key : κ) : t'.bucketOf key = t.bucketOf key := by
  rw [Timeline.bucketOf, Timeline.bucketOf, a.buckets]

theorem entry?_cases {x : Nat} {y : Entry κ ν} (hy : t'.entry? x = some y) :
    slot = x ∧ y = e ∨ slot ≠ x ∧ ∃ z, t.entry? x = some z ∧ z.key = y.key := by
  rw [a.entry?] at hy
  by_cases hx : slot = x
  · rw [if_pos hx] at hy
    exact .inl ⟨hx, (Option.some.inj hy).symm⟩
  · rw [if_neg hx] at hy
    obtain ⟨z, hz, rfl⟩ := Option.map_eq_some_iff.mp hy
    exact .inr ⟨hx, z, hz, rfl⟩

end Appended

section Keyed

variable [BEq κ] [Hashable κ]

namespace Threaded

variable {order : List Nat} {chains : Nat → List Nat}

theorem appended (h : t.Threaded order chains) (key : κ) (value : ν) :
    ∃ slot, t.entry? slot = none ∧
      Appended t (t.append key value) slot (t.entryFor key value) := by
  have hfree : ∀ s ∈ t.free, s < t.slots.size := fun s hs => ((h.free s).mp hs).1
  obtain ⟨hhead, httl, hbuckets, hfirst⟩ := place_frame t (t.entryFor key value)
  have hplace := place_cases t (t.entryFor key value)
  have hentry := entry?_place hfree (t.entryFor key value)
  rw [append_eq]
  generalize t.place (t.entryFor key value) = placed at *
  obtain ⟨t₁, slot⟩ := placed
  simp only at hhead httl hbuckets hfirst hplace hentry
  have hempty : t.entry? slot = none := by
    rcases hplace with ⟨hcons, _⟩ | ⟨_, _, hslot, _⟩
    · exact ((h.free slot).mp (by simp [hcons])).2
    · simp [hslot, Timeline.entry?]
  have htail : t.tail ≠ some slot := by
    intro heq
    have hmem := List.mem_of_getLast? (h.tail_eq ▸ heq)
    simpa [hempty] using (h.occupied slot).mp hmem
  refine ⟨slot, hempty, ⟨fun x => ?_, fun b => ?_, ?_, rfl, rfl, rfl, ?_, ?_, ?_⟩⟩
  · show Timeline.entry? ((t₁.setFirst (t.bucketOf key) (some slot)).follow t.tail slot) x = _
    rw [entry?_follow, entry?_setFirst, hentry]
    by_cases hx : slot = x
    · subst hx
      simp [htail]
    · rcases t.entry? x with _ | y
      · simp [hx]
      · by_cases ht : t.tail = some x <;> simp [hx, ht]
  · rw [← hfirst b]
    show ((t₁.setFirst (t.bucketOf key) (some slot)).follow t.tail slot).first? b = _
    rw [← first?_setFirst]
    cases t.tail <;> rfl
  · cases t.tail <;> simp [follow, adjust, setFirst, hhead]
  · cases t.tail <;> simp [follow, adjust, setFirst, httl]
  · cases t.tail <;> simp [follow, adjust, setFirst, hbuckets]
  · cases t.tail <;> simpa [follow, adjust, setFirst] using hplace

variable {t' : Timeline κ ν} {slot : Nat} {key : κ} {value : ν}

theorem ne_of_empty (h : t.Threaded order chains) (hempty : t.entry? slot = none) {x : Nat}
    (hx : x ∈ order) : slot ≠ x := by
  rintro rfl
  simpa [hempty] using (h.occupied slot).mp hx

theorem ne_of_chained (h : t.Threaded order chains) (hempty : t.entry? slot = none) {b x : Nat}
    (hx : x ∈ chains b) : slot ≠ x := by
  obtain ⟨y, hy, _⟩ := (h.hashed b x).mp hx
  exact h.ne_of_empty hempty (h.mem_order hy)

theorem contents_appended (h : t.Threaded order chains) (hempty : t.entry? slot = none)
    (a : Appended t t' slot (t.entryFor key value)) :
    t'.contents (order ++ [slot]) = t.contents order ++ [(key, value, t.ttl - t.pending)] := by
  have hgap : (t.entryFor key value).gap = t.ttl - t.pending := by
    simp only [entryFor]
    rw [h.next.start_eq]
    cases order with
    | nil => simp [h.pending_eq]
    | cons s rest => simp
  rw [contents_append, contents_cons a.entry?_self, contents_nil]
  congr 1
  · exact contents_congr fun x hx => a.map_entry? (h.ne_of_empty hempty hx) fun _ => rfl
  · simp only [content, hgap]
    rfl

theorem next_appended (h : t.Threaded order chains) (hempty : t.entry? slot = none)
    (a : Appended t t' slot (t.entryFor key value)) :
    t'.Trail (·.next) t'.head (order ++ [slot]) none := by
  have hhead : t'.head = if order = [] then some slot else t.head := by
    rw [a.head, h.tail_eq]
    simp
  rw [hhead]
  refine h.next.extend h.order_nodup a.entry?_self rfl fun x hx => ?_
  have hx' : slot ≠ x := h.ne_of_empty hempty hx
  obtain ⟨y, hy⟩ := h.entry hx
  rw [a.entry?, if_neg hx', hy, ← h.tail_eq]
  simp only [Option.map_some]
  split <;> rfl

theorem prev_appended (h : t.Threaded order chains) (hempty : t.entry? slot = none)
    (a : Appended t t' slot (t.entryFor key value)) :
    t'.Trail (·.prev) t'.tail (order ++ [slot]).reverse none := by
  rw [a.tail, List.reverse_append, List.reverse_singleton, List.singleton_append]
  refine ⟨rfl, _, a.entry?_self, h.prev.congr fun x hx => a.map_entry? ?_ fun _ => rfl⟩
  exact h.ne_of_empty hempty (List.mem_reverse.mp hx)

theorem chain_appended (h : t.Threaded order chains) (hempty : t.entry? slot = none)
    (a : Appended t t' slot (t.entryFor key value)) (b : Nat) :
    t'.Trail (·.chain) (t'.first? b)
      (Function.update chains (t.bucketOf key) (slot :: chains (t.bucketOf key)) b) none := by
  have hold : t'.Trail (·.chain) (t.first? b) (chains b) none :=
    (h.chain b).congr fun x hx => a.map_entry? (h.ne_of_chained hempty hx) fun _ => rfl
  have hfirst : t'.first? b = if t.bucketOf key = b then some slot else t.first? b := a.first? b
  rw [hfirst]
  by_cases hb : b = t.bucketOf key
  · subst hb
    rw [Function.update_self, if_pos rfl]
    exact ⟨rfl, _, a.entry?_self, hold⟩
  · rw [Function.update_of_ne hb, if_neg (Ne.symm hb)]
    exact hold

theorem hashed_appended (h : t.Threaded order chains) (hempty : t.entry? slot = none)
    (a : Appended t t' slot (t.entryFor key value)) (b x : Nat) :
    x ∈ Function.update chains (t.bucketOf key) (slot :: chains (t.bucketOf key)) b ↔
      ∃ y, t'.entry? x = some y ∧ t'.bucketOf y.key = b := by
  have hmem : x ∈ Function.update chains (t.bucketOf key) (slot :: chains (t.bucketOf key)) b ↔
      b = t.bucketOf key ∧ slot = x ∨ x ∈ chains b := by
    by_cases hb : b = t.bucketOf key
    · subst hb
      rw [Function.update_self, List.mem_cons]
      simp [eq_comm]
    · rw [Function.update_of_ne hb]
      simp [hb]
  rw [hmem, h.hashed b x]
  constructor
  · rintro (⟨rfl, rfl⟩ | ⟨y, hy, hyb⟩)
    · exact ⟨_, a.entry?_self, a.bucketOf key⟩
    · have hx : slot ≠ x := h.ne_of_empty hempty (h.mem_order hy)
      refine ⟨{ y with next := if t.tail = some x then some slot else y.next }, ?_,
        (a.bucketOf y.key).trans hyb⟩
      rw [a.entry?, if_neg hx, hy, Option.map_some]
  · rintro ⟨y, hy, hyb⟩
    rw [a.bucketOf] at hyb
    rcases a.entry?_cases hy with ⟨hx, rfl⟩ | ⟨_, z, hz, hkey⟩
    · exact .inl ⟨hyb.symm, hx⟩
    · exact .inr ⟨z, hz, hkey ▸ hyb⟩

theorem distinct_appended (h : t.Threaded order chains)
    (habsent : ∀ s e, t.entry? s = some e → (e.key == key) = false ∧ (key == e.key) = false)
    (a : Appended t t' slot (t.entryFor key value)) (s s' : Nat) (y y' : Entry κ ν)
    (hs : t'.entry? s = some y) (hs' : t'.entry? s' = some y') (hk : (y.key == y'.key) = true) :
    s = s' := by
  rcases a.entry?_cases hs with ⟨rfl, rfl⟩ | ⟨_, z, hz, hkey⟩ <;>
    rcases a.entry?_cases hs' with ⟨rfl, rfl⟩ | ⟨_, z', hz', hkey'⟩
  · rfl
  · have hk : (key == y'.key) = true := hk
    rw [← hkey', (habsent s' z' hz').2] at hk
    cases hk
  · have hk : (y.key == key) = true := hk
    rw [← hkey, (habsent s z hz).1] at hk
    cases hk
  · exact h.distinct s s' z z' hz hz' (by rw [hkey, hkey', hk])

theorem free_appended (h : t.Threaded order chains)
    (a : Appended t t' slot (t.entryFor key value)) (x : Nat) :
    x ∈ t'.free ↔ x < t'.slots.size ∧ t'.entry? x = none := by
  have hfree := h.free x
  have hnd := h.free_nodup
  rw [a.entry?]
  rcases a.place with ⟨hcons, hsize⟩ | ⟨hold, hnil, hslot, hsize⟩
  · rw [hcons] at hfree hnd
    have hnotin := (List.nodup_cons.mp hnd).1
    rw [hsize]
    by_cases hx : slot = x
    · subst hx
      simpa using hnotin
    · simpa [hx, Ne.symm hx] using hfree
  · rw [hold] at hfree
    rw [hnil, hsize]
    by_cases hx : slot = x
    · simp [hx]
    · have hlt : x < t.slots.size + 1 ↔ x < t.slots.size := by omega
      simpa [hx, hlt] using hfree

/-- A threaded store into which an entry with a new key has been put is threaded. -/
theorem appended_threaded (h : t.Threaded order chains) (hempty : t.entry? slot = none)
    (habsent : ∀ s e, t.entry? s = some e → (e.key == key) = false ∧ (key == e.key) = false)
    (a : Appended t t' slot (t.entryFor key value)) :
    t'.Threaded (order ++ [slot])
      (Function.update chains (t.bucketOf key) (slot :: chains (t.bucketOf key))) where
  next := h.next_appended hempty a
  prev := h.prev_appended hempty a
  chain := h.chain_appended hempty a
  order_nodup := by
    rw [List.nodup_append]
    refine ⟨h.order_nodup, List.nodup_singleton slot, fun x hx y hy => ?_⟩
    rw [List.mem_singleton.mp hy]
    exact (h.ne_of_empty hempty hx).symm
  chains_nodup b := by
    by_cases hb : b = t.bucketOf key
    · subst hb
      rw [Function.update_self]
      exact List.nodup_cons.mpr ⟨fun hs => h.ne_of_chained hempty hs rfl, h.chains_nodup _⟩
    · rw [Function.update_of_ne hb]
      exact h.chains_nodup b
  occupied x := by
    rw [a.entry?, List.mem_append, List.mem_singleton, h.occupied x]
    by_cases hx : slot = x
    · simp [hx]
    · simp [hx, Ne.symm hx]
  hashed := h.hashed_appended hempty a
  distinct := h.distinct_appended habsent a
  pending_eq := by
    have hle := h.pending_le
    rw [h.contents_appended hempty a, a.pending, span_append, ← h.pending_eq]
    simp only [span_cons, span_nil]
    omega
  pending_le := Nat.le_of_eq (by rw [a.pending, a.ttl])
  size_eq := by
    rw [a.size, h.size_eq]
    simp
  free_nodup := by
    have hnd := h.free_nodup
    rcases a.place with ⟨hcons, _⟩ | ⟨_, hnil, _, _⟩
    · rw [hcons] at hnd
      exact (List.nodup_cons.mp hnd).2
    · rw [hnil]
      exact List.nodup_nil
  free := h.free_appended a
  ttl_pos := a.ttl ▸ h.ttl_pos
  buckets_pos := a.buckets ▸ h.buckets_pos

end Threaded

end Keyed

end Timeline
end FloodMesh
