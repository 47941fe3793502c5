import FloodMesh.Proofs.Lease.Search
import Mathlib.Logic.Function.Basic

/-!
# FloodMesh.Proofs.Lease.Detach

Taking an entry out. The entry leaves both of its trails and the free list takes its slot; the entry
after it inherits the gap. `Threaded.detach` says that the store is threaded again and
`contents_detach` what it then holds.
-/

namespace FloodMesh
namespace Timeline

variable {κ ν : Type} {t : Timeline κ ν} {slot bucket : Nat} {before : Option Nat} {e : Entry κ ν}

/-! ## The steps -/

def vacate (t : Timeline κ ν) (slot : Nat) : Timeline κ ν :=
  { t with slots := t.slots.setIfInBounds slot none }

/-- Let a chain pass an entry by, from the slot before it or from the bucket. -/
def passChain (t : Timeline κ ν) (bucket : Nat) (before : Option Nat) (e : Entry κ ν) :
    Timeline κ ν :=
  match before with
  | some p => t.adjust p fun x => { x with chain := e.chain }
  | none => t.setFirst bucket e.chain

/-- Let the entry after it take over an entry's gap and what was before it. -/
def passNext (t : Timeline κ ν) (e : Entry κ ν) : Timeline κ ν :=
  match e.next with
  | some n => t.adjust n fun x => { x with gap := x.gap + e.gap, prev := e.prev }
  | none => { t with pending := t.pending - e.gap, tail := e.prev }

/-- Let the entry before it take over what was after an entry. -/
def passPrev (t : Timeline κ ν) (e : Entry κ ν) : Timeline κ ν :=
  match e.prev with
  | some p => t.adjust p fun x => { x with next := e.next }
  | none => { t with head := e.next }

theorem entry?_vacate (x : Nat) :
    Timeline.entry? (t.vacate slot) x = if slot = x then none else t.entry? x := by
  simp only [Timeline.entry?, vacate, Array.getElem?_setIfInBounds]
  by_cases h : slot = x
  · subst h
    by_cases hs : slot < t.slots.size <;> simp [hs]
  · simp [h]

theorem entry?_passChain (x : Nat) :
    Timeline.entry? (t.passChain bucket before e) x =
      if before = some x then (t.entry? x).map fun y => { y with chain := e.chain }
      else t.entry? x := by
  cases before <;> simp [passChain]

theorem entry?_passNext (x : Nat) :
    Timeline.entry? (t.passNext e) x =
      if e.next = some x then
        (t.entry? x).map fun y => { y with gap := y.gap + e.gap, prev := e.prev }
      else t.entry? x := by
  unfold passNext
  cases e.next with
  | none => simp; rfl
  | some n => simp

theorem entry?_passPrev (x : Nat) :
    Timeline.entry? (t.passPrev e) x =
      if e.prev = some x then (t.entry? x).map fun y => { y with next := e.next }
      else t.entry? x := by
  unfold passPrev
  cases e.prev with
  | none => simp; rfl
  | some p => simp

theorem detach_eq (he : t.entry? slot = some e) :
    t.detach slot bucket before =
      ({ (((t.vacate slot).passChain bucket before e).passNext e).passPrev e with
          free := slot :: t.free, size := t.size - 1 }, some (e.key, e.value)) := by
  simp only [detach, he]
  rcases before with _ | _ <;> rcases hn : e.next with _ | _ <;> rcases hp : e.prev with _ | _ <;>
    rcases hc : e.chain with _ | _ <;>
    simp only [passPrev, passNext, passChain, hn, hp, hc] <;> rfl

/-! ## The store afterwards -/

/-- What taking `e` out makes of the entry `y` in slot `x`. -/
def patched (e : Entry κ ν) (before : Option Nat) (x : Nat) (y : Entry κ ν) : Entry κ ν :=
  { y with
    chain := if before = some x then e.chain else y.chain
    gap := if e.next = some x then y.gap + e.gap else y.gap
    prev := if e.next = some x then e.prev else y.prev
    next := if e.prev = some x then e.next else y.next }

/-- `t'` is `t` with the entry `e` taken out of its slot. -/
structure Detached (t t' : Timeline κ ν) (slot bucket : Nat) (before : Option Nat)
    (e : Entry κ ν) : Prop where
  entry? : ∀ x, t'.entry? x = if slot = x then none else (t.entry? x).map (patched e before x)
  first? : ∀ b, t'.first? b = if before = none ∧ bucket = b then e.chain else t.first? b
  head : t'.head = if e.prev = none then e.next else t.head
  tail : t'.tail = if e.next = none then e.prev else t.tail
  pending : t'.pending = if e.next = none then t.pending - e.gap else t.pending
  free : t'.free = slot :: t.free
  size : t'.size = t.size - 1
  ttl : t'.ttl = t.ttl
  buckets : t'.buckets = t.buckets
  slots : t'.slots.size = t.slots.size

theorem entry?_detach (he : t.entry? slot = some e) (x : Nat) :
    Timeline.entry? (t.detach slot bucket before).1 x =
      if slot = x then none else (t.entry? x).map (patched e before x) := by
  rw [detach_eq he]
  show Timeline.entry? ((((t.vacate slot).passChain bucket before e).passNext e).passPrev e) x = _
  simp only [entry?_passPrev, entry?_passNext, entry?_passChain, entry?_vacate]
  by_cases hs : slot = x
  · simp [hs]
  · rcases t.entry? x with _ | y
    · simp [hs]
    · simp only [hs, if_false, Option.map_some, patched]
      split <;> split <;> split <;> simp

theorem first?_detach (he : t.entry? slot = some e) (b : Nat) :
    (t.detach slot bucket before).1.first? b =
      if before = none ∧ bucket = b then e.chain else t.first? b := by
  rw [detach_eq he]
  have hchain : ((t.vacate slot).passChain bucket before e).first? b =
      if before = none ∧ bucket = b then e.chain else t.first? b := by
    cases before with
    | none => simp [passChain]; rfl
    | some p => simp [passChain]; rfl
  rw [← hchain]
  rcases hn : e.next with _ | _ <;> rcases hp : e.prev with _ | _ <;>
    simp [passPrev, passNext, hn, hp, first?, adjust]

/-- Taking out does what it says, whichever neighbours the entry has. -/
theorem detached (bucket : Nat) (before : Option Nat) (he : t.entry? slot = some e) :
    Detached t (t.detach slot bucket before).1 slot bucket before e := by
  suffices h : ∀ t', t' = (t.detach slot bucket before).1 →
      t'.head = (if e.prev = none then e.next else t.head) ∧
      t'.tail = (if e.next = none then e.prev else t.tail) ∧
      t'.pending = (if e.next = none then t.pending - e.gap else t.pending) ∧
      t'.free = slot :: t.free ∧ t'.size = t.size - 1 ∧ t'.ttl = t.ttl ∧
      t'.buckets = t.buckets ∧ t'.slots.size = t.slots.size by
    obtain ⟨hhead, htail, hpending, hfree, hsize, httl, hbuckets, hslots⟩ := h _ rfl
    exact ⟨entry?_detach he, first?_detach he, hhead, htail, hpending, hfree, hsize, httl,
      hbuckets, hslots⟩
  rintro t' rfl
  rw [detach_eq he]
  rcases before with _ | _ <;> rcases hn : e.next with _ | _ <;> rcases hp : e.prev with _ | _ <;>
    rcases hc : e.chain with _ | _ <;>
    simp [passPrev, passNext, passChain, hn, hp, hc, adjust, setFirst, vacate]

/-! ## The invariant afterwards -/

/-- The first of some contents with a longer gap. -/
def defer (gap : Nat) : List (κ × ν × Nat) → List (κ × ν × Nat)
  | [] => []
  | c :: rest => (c.1, c.2.1, c.2.2 + gap) :: rest

theorem span_defer (gap : Nat) (l : List (κ × ν × Nat)) :
    span (defer gap l) = if l = [] then 0 else span l + gap := by
  cases l with
  | nil => rfl
  | cons c rest => simp [defer]; omega

/-- Deferring leaves the keys as they are. -/
theorem forall_defer {P : κ → Prop} {A B : List (κ × ν × Nat)} (h : ∀ c ∈ A ++ B, P c.1)
    (gap : Nat) : ∀ c ∈ A ++ defer gap B, P c.1 := by
  cases B with
  | nil => exact h
  | cons b rest =>
    simp only [List.forall_mem_append, List.forall_mem_cons] at h
    simpa only [defer, List.forall_mem_append, List.forall_mem_cons] using h

theorem head_pos_defer {A B : List (κ × ν × Nat)} {c : κ × ν × Nat}
    (h : ∀ x ∈ (A ++ c :: B).head?, 0 < x.2.2) : ∀ x ∈ (A ++ defer c.2.2 B).head?, 0 < x.2.2 := by
  intro x hx
  cases A with
  | cons a rest => exact h x (by simpa using hx)
  | nil =>
    have hpos := h c rfl
    cases B with
    | nil => simp [defer] at hx
    | cons b rest =>
      simp only [defer, List.nil_append, List.head?_cons, Option.mem_def, Option.some.injEq] at hx
      subst hx
      show 0 < b.2.2 + c.2.2
      omega

namespace Detached

variable {t' : Timeline κ ν} (d : Detached t t' slot bucket before e)

include d

theorem map_entry? {α : Type} {f : Entry κ ν → α} {x : Nat} (hx : slot ≠ x)
    (hf : ∀ y, f (patched e before x y) = f y) :
    (t'.entry? x).map f = (t.entry? x).map f := by
  rw [d.entry?, if_neg hx, Option.map_map]
  congr 1
  funext y
  exact hf y

theorem entry?_eq_some {x : Nat} {y : Entry κ ν} :
    t'.entry? x = some y ↔ slot ≠ x ∧ ∃ y', t.entry? x = some y' ∧ patched e before x y' = y := by
  rw [d.entry?]
  by_cases hx : slot = x <;> simp [hx]

/-- A kind of link passes the entry by if the slot that led to it, or else the start, takes the
entry's own link over. -/
theorem skip {link : Entry κ ν → Option Nat} {mark start stop : Option Nat} {pre post : List Nat}
    (h : t.Trail link start (pre ++ slot :: post) stop) (hnd : (pre ++ slot :: post).Nodup)
    (he : t.entry? slot = some e) (hmark : mark = pre.getLast?)
    (hlink : ∀ x y, link (patched e before x y) = if mark = some x then link e else link y) :
    t'.Trail link (if mark = none then link e else start) (pre ++ post) stop := by
  have hnotin := (List.nodup_cons.mp (List.nodup_middle.mp hnd)).1
  have hempty : mark = none ↔ pre = [] := by rw [hmark, List.getLast?_eq_none_iff]
  simp only [hempty]
  refine h.skip (List.nodup_append.mp hnd).1 he (fun x hx => ?_) fun x hx => ?_
  · have hx' : slot ≠ x := fun heq => hnotin (heq ▸ List.mem_append_left _ hx)
    obtain ⟨y, hy⟩ := Option.isSome_iff_exists.mp (h.occupied x (List.mem_append_left _ hx))
    rw [d.entry?, if_neg hx', hy, ← hmark]
    simp only [Option.map_some, hlink]
    split <;> rfl
  · have hx' : slot ≠ x := fun heq => hnotin (heq ▸ List.mem_append_right _ hx)
    have hlast : mark ≠ some x := fun heq =>
      (List.nodup_append.mp hnd).2.2 x (List.mem_of_getLast? (hmark ▸ heq)) x
        (List.mem_cons_of_mem _ hx) rfl
    exact d.map_entry? hx' fun y => by rw [hlink, if_neg hlast]

/-- The entry after the one taken out inherits its gap, and nothing else changes. -/
theorem contents_eq {pre post : List Nat} (hnext : e.next = post.head?)
    (hnd : (pre ++ slot :: post).Nodup) (hocc : ∀ x ∈ post, (t.entry? x).isSome) :
    t'.contents (pre ++ post) = t.contents pre ++ defer e.gap (t.contents post) := by
  have hmem : ∀ x ∈ pre ++ post, slot ≠ x := by
    intro x hx heq
    subst heq
    exact (List.nodup_middle.mp hnd |> List.nodup_cons.mp).1 hx
  have hcongr : ∀ l : List Nat, (∀ x ∈ l, slot ≠ x ∧ e.next ≠ some x) →
      t'.contents l = t.contents l := fun l hl =>
    contents_congr fun x hx => d.map_entry? (hl x hx).1 fun y => by
      simp [content, patched, (hl x hx).2]
  have hdisj := (List.nodup_append.mp hnd).2.2
  rw [contents_append, hcongr pre fun x hx => ⟨hmem x (List.mem_append_left _ hx), ?_⟩]
  · congr 1
    cases post with
    | nil => rfl
    | cons n rest =>
      obtain ⟨y, hy⟩ := Option.isSome_iff_exists.mp (hocc n List.mem_cons_self)
      have hn : t'.entry? n = some (patched e before n y) :=
        d.entry?_eq_some.mpr ⟨hmem n (by simp), y, hy, rfl⟩
      have hnrest : n ∉ rest := by
        have := (List.nodup_append.mp hnd).2.1
        simp only [List.nodup_cons, List.mem_cons, not_or] at this
        exact this.2.1
      rw [contents_cons hn, contents_cons hy, hcongr rest fun x hx => ⟨hmem x (by simp [hx]), ?_⟩]
      · simp [content, patched, defer, hnext]
      · rw [hnext, List.head?_cons]
        intro heq
        exact hnrest (Option.some.inj heq ▸ hx)
  · rw [hnext]
    intro heq
    exact hdisj x hx x (List.mem_cons_of_mem _ (List.mem_of_head? heq)) rfl

end Detached

theorem Detached.bucketOf [Hashable κ] {t' : Timeline κ ν}
    (d : Detached t t' slot bucket before e) (key : κ) : t'.bucketOf key = t.bucketOf key := by
  rw [Timeline.bucketOf, Timeline.bucketOf, d.buckets]

section Keyed

variable [BEq κ] [Hashable κ] {t' : Timeline κ ν} {pre post cpre cpost : List Nat}
  {chains : Nat → List Nat}

namespace Threaded

theorem next_detached (h : t.Threaded (pre ++ slot :: post) chains) (he : t.entry? slot = some e)
    (d : Detached t t' slot bucket before e) :
    t'.Trail (·.next) t'.head (pre ++ post) none := by
  rw [d.head]
  exact d.skip h.next h.order_nodup he (h.prev_eq he) fun _ _ => rfl

theorem prev_detached (h : t.Threaded (pre ++ slot :: post) chains) (he : t.entry? slot = some e)
    (d : Detached t t' slot bucket before e) :
    t'.Trail (·.prev) t'.tail (pre ++ post).reverse none := by
  have htrail := h.prev
  have hnd := List.nodup_reverse.mpr h.order_nodup
  rw [List.reverse_append, List.reverse_cons, List.append_assoc, List.singleton_append]
    at htrail hnd
  rw [d.tail, List.reverse_append]
  exact d.skip htrail hnd he (by rw [h.next_eq he, List.getLast?_reverse]) fun _ _ => rfl

theorem chain_detached {order : List Nat} (h : t.Threaded order chains)
    (he : t.entry? slot = some e) (hchain : chains bucket = cpre ++ slot :: cpost)
    (d : Detached t t' slot bucket cpre.getLast? e) (b : Nat) :
    t'.Trail (·.chain) (t'.first? b) (Function.update chains bucket (cpre ++ cpost) b) none := by
  rw [d.first?]
  by_cases hb : b = bucket
  · subst hb
    have htrail := h.chain b
    have hnd := h.chains_nodup b
    rw [hchain] at htrail hnd
    simpa using d.skip htrail hnd he rfl fun _ _ => rfl
  · -- No slot of another chain is touched: a slot is on one chain only.
    have honly : ∀ x ∈ chains b, x ∉ chains bucket := by
      intro x hx hx'
      obtain ⟨y, hy, hyb⟩ := (h.hashed b x).mp hx
      obtain ⟨y', hy', hyb'⟩ := (h.hashed bucket x).mp hx'
      cases hy.symm.trans hy'
      exact hb (hyb.symm.trans hyb')
    rw [Function.update_of_ne hb, if_neg fun hand => hb hand.2.symm]
    refine (h.chain b).congr fun x hx => ?_
    have hx' : slot ≠ x := fun heq => honly x hx (hchain ▸ by simp [heq])
    have hlast : cpre.getLast? ≠ some x := fun heq =>
      honly x hx (hchain ▸ List.mem_append_left _ (List.mem_of_getLast? heq))
    exact d.map_entry? hx' fun y => by simp [patched, hlast]

theorem contents_detached (pre : List Nat) (h : t.Threaded (pre ++ slot :: post) chains)
    (he : t.entry? slot = some e) (d : Detached t t' slot bucket before e) :
    t'.contents (pre ++ post) = t.contents pre ++ defer e.gap (t.contents post) :=
  d.contents_eq (h.next_eq he) h.order_nodup fun x hx => by
    obtain ⟨y, hy⟩ := h.entry (List.mem_append_right pre (List.mem_cons_of_mem slot hx))
    simp [hy]

theorem hashed_detached {order : List Nat} (h : t.Threaded order chains)
    (he : t.entry? slot = some e) (hchain : chains (t.bucketOf e.key) = cpre ++ slot :: cpost)
    (d : Detached t t' slot (t.bucketOf e.key) before e) (b x : Nat) :
    x ∈ Function.update chains (t.bucketOf e.key) (cpre ++ cpost) b ↔
      ∃ y, t'.entry? x = some y ∧ t'.bucketOf y.key = b := by
  have hnd := h.chains_nodup (t.bucketOf e.key)
  rw [hchain] at hnd
  have hnotin := (List.nodup_cons.mp (List.nodup_middle.mp hnd)).1
  have hmem : x ∈ Function.update chains (t.bucketOf e.key) (cpre ++ cpost) b ↔
      slot ≠ x ∧ x ∈ chains b := by
    by_cases hb : b = t.bucketOf e.key
    · subst hb
      rw [Function.update_self, hchain]
      by_cases hx : slot = x
      · subst hx
        simpa using hnotin
      · simp [hx, Ne.symm hx]
    · rw [Function.update_of_ne hb]
      refine ⟨fun hx => ⟨?_, hx⟩, And.right⟩
      rintro rfl
      obtain ⟨y, hy, hyb⟩ := (h.hashed b slot).mp hx
      cases he.symm.trans hy
      exact hb hyb.symm
  rw [hmem, h.hashed b x]
  constructor
  · rintro ⟨hx, y, hy, hyb⟩
    exact ⟨_, d.entry?_eq_some.mpr ⟨hx, y, hy, rfl⟩, (d.bucketOf y.key).trans hyb⟩
  · rintro ⟨y, hy, hyb⟩
    obtain ⟨hx, z, hz, rfl⟩ := d.entry?_eq_some.mp hy
    exact ⟨hx, z, hz, (d.bucketOf z.key).symm.trans hyb⟩

theorem pending_detached (pre : List Nat) (h : t.Threaded (pre ++ slot :: post) chains)
    (he : t.entry? slot = some e) (d : Detached t t' slot bucket before e) :
    t'.pending = span (t'.contents (pre ++ post)) := by
  have hold := h.pending_eq
  rw [contents_append, contents_cons he, span_append, span_cons] at hold
  rw [h.contents_detached pre he d, span_append, span_defer, d.pending, h.next_eq he, hold]
  have hpost : post.head? = none ↔ t.contents post = [] := by
    cases post with
    | nil => simp
    | cons n rest =>
      obtain ⟨y, hy⟩ := h.entry (s := n) (by simp)
      simp [contents_cons hy]
  by_cases hnil : t.contents post = []
  · simp [hpost.mpr hnil, hnil, content]
  · simp only [hpost, hnil, if_false, content]
    omega

/-- A threaded store from which an entry has been taken out is threaded. -/
theorem detached (pre : List Nat) (h : t.Threaded (pre ++ slot :: post) chains)
    (he : t.entry? slot = some e)
    (hchain : chains (t.bucketOf e.key) = cpre ++ slot :: cpost)
    (d : Detached t t' slot (t.bucketOf e.key) cpre.getLast? e) :
    t'.Threaded (pre ++ post)
      (Function.update chains (t.bucketOf e.key) (cpre ++ cpost)) where
  next := h.next_detached he d
  prev := h.prev_detached he d
  chain := h.chain_detached he hchain d
  order_nodup := (List.nodup_cons.mp (List.nodup_middle.mp h.order_nodup)).2
  chains_nodup b := by
    have hnd := h.chains_nodup (t.bucketOf e.key)
    rw [hchain] at hnd
    by_cases hb : b = t.bucketOf e.key
    · rw [hb, Function.update_self]
      exact (List.nodup_cons.mp (List.nodup_middle.mp hnd)).2
    · rw [Function.update_of_ne hb]
      exact h.chains_nodup b
  occupied x := by
    have hnotin := (List.nodup_cons.mp (List.nodup_middle.mp h.order_nodup)).1
    rw [d.entry?]
    by_cases hx : slot = x
    · subst hx
      simpa using hnotin
    · rw [if_neg hx, Option.isSome_map, ← h.occupied x]
      simp [Ne.symm hx]
  hashed := h.hashed_detached he hchain d
  distinct s s' y y' hs hs' hk := by
    obtain ⟨_, z, hz, rfl⟩ := d.entry?_eq_some.mp hs
    obtain ⟨_, z', hz', rfl⟩ := d.entry?_eq_some.mp hs'
    exact h.distinct s s' z z' hz hz' hk
  pending_eq := h.pending_detached pre he d
  pending_le := by
    rw [d.pending, d.ttl]
    have := h.pending_le
    split <;> omega
  size_eq := by
    rw [d.size, h.size_eq]
    simp
  free_nodup := by
    rw [d.free, List.nodup_cons]
    refine ⟨fun hfree => ?_, h.free_nodup⟩
    simp [((h.free slot).mp hfree).2] at he
  free x := by
    rw [d.free, d.slots, d.entry?, List.mem_cons, h.free x]
    by_cases hx : slot = x
    · subst hx
      have hlt : slot < t.slots.size := lt_of_entry? (by simp [he])
      simp [hlt]
    · simp [hx, Ne.symm hx]
  ttl_pos := d.ttl ▸ h.ttl_pos
  buckets_pos := d.buckets ▸ h.buckets_pos

end Threaded

end Keyed

end Timeline
end FloodMesh
