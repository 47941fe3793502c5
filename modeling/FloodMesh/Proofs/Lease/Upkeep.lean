import FloodMesh.Proofs.Lease.Append

/-!
# FloodMesh.Proofs.Lease.Upkeep

The operations of the store, each as what it does to the contents that a store holds. Nothing
outside this module has to look at links, slots or buckets again.
-/

namespace FloodMesh
namespace Timeline

variable {κ ν : Type} {t : Timeline κ ν}

theorem defer_zero (l : List (κ × ν × Nat)) : defer 0 l = l := by
  cases l <;> rfl

/-- The store after the head has come one tick nearer. -/
def nearer (t : Timeline κ ν) (slot : Nat) : Timeline κ ν :=
  ({ t with pending := t.pending - 1 } : Timeline κ ν).adjust slot fun e =>
    { e with gap := e.gap - 1 }

theorem entry?_nearer (slot x : Nat) :
    Timeline.entry? (t.nearer slot) x =
      if slot = x then (t.entry? x).map fun e => { e with gap := e.gap - 1 } else t.entry? x :=
  entry?_adjust _ _ _ _

theorem tick_of_head [BEq κ] [Hashable κ] {slot : Nat} (hhead : t.head = some slot) :
    t.tick = (t.nearer slot).evict (t.nearer slot).slots.size := by
  simp only [tick, Timeline.nearer, hhead]

theorem map_entry?_nearer {α : Type} (f : Entry κ ν → α) (slot : Nat)
    (hf : ∀ y gap, f { y with gap } = f y) (x : Nat) :
    (Timeline.entry? (t.nearer slot) x).map f = (t.entry? x).map f := by
  rw [entry?_nearer]
  split
  · rw [Option.map_map]
    congr 1
    funext y
    exact hf y _
  · rfl

theorem entry?_nearer_some {slot x : Nat} {y : Entry κ ν}
    (hy : Timeline.entry? (t.nearer slot) x = some y) :
    ∃ z, t.entry? x = some z ∧ z.key = y.key := by
  have hkey := map_entry?_nearer Entry.key (t := t) slot (fun _ _ => rfl) x
  rw [hy] at hkey
  exact Option.map_eq_some_iff.mp hkey.symm

section Keyed

variable [BEq κ] [Hashable κ] {l : List (κ × ν × Nat)}

namespace Holds

theorem toList_eq (h : t.Holds l) : t.toList = l.map fun c => (c.1, c.2.1) := by
  obtain ⟨order, chains, ht, rfl, _⟩ := h
  exact ht.toList_eq

theorem size_eq (h : t.Holds l) : t.size = l.length := by
  obtain ⟨order, chains, ht, rfl, _⟩ := h
  rw [ht.size_eq, ht.contents_length]

theorem pending_eq (h : t.Holds l) : t.pending = span l := by
  obtain ⟨order, chains, ht, rfl, _⟩ := h
  exact ht.pending_eq

theorem span_le (h : t.Holds l) : span l ≤ t.ttl := by
  obtain ⟨order, chains, ht, rfl, _⟩ := h
  exact ht.pending_eq ▸ ht.pending_le

theorem distinct (h : t.Holds l) : l.Pairwise fun a b => (a.1 == b.1) = false := by
  obtain ⟨order, chains, ht, rfl, _⟩ := h
  refine List.pairwise_filterMap.mpr (ht.order_nodup.imp fun {s s'} hne a ha b hb => ?_)
  obtain ⟨e, he, rfl⟩ := Option.map_eq_some_iff.mp ha
  obtain ⟨e', he', rfl⟩ := Option.map_eq_some_iff.mp hb
  by_contra hkey
  exact hne (ht.distinct s s' e e' he he' (by simpa [content] using hkey))

theorem head_pos {c : κ × ν × Nat} {rest : List (κ × ν × Nat)} (h : t.Holds (c :: rest)) :
    0 < c.2.2 := by
  obtain ⟨_, _, _, _, hhead⟩ := h
  exact hhead c rfl

theorem ttl_pos (h : t.Holds l) : 0 < t.ttl := by
  obtain ⟨_, _, ht, _⟩ := h
  exact ht.ttl_pos

end Holds

/-! ## Looking up and removing -/

section Lawful

variable [EquivBEq κ] [LawfulHashable κ]

/-- Looking a key up and removing it: either no key is equal, or exactly one is, and its entry is
found and goes. The entry after it then takes over its gap. -/
theorem Holds.lookup_cases (h : t.Holds l) (key : κ) :
    ((∀ c ∈ l, (c.1 == key) = false) ∧ t.get? key = none ∧ t.contains key = false ∧
      t.remove key = (t, none)) ∨
    ∃ A c B, l = A ++ c :: B ∧ (c.1 == key) = true ∧ (∀ a ∈ A ++ B, (a.1 == key) = false) ∧
      t.get? key = some c.2.1 ∧ t.contains key = true ∧
      (t.remove key).2 = some (c.1, c.2.1) ∧ (t.remove key).1.Holds (A ++ defer c.2.2 B) ∧
      (t.remove key).1.ttl = t.ttl := by
  obtain ⟨order, chains, ht, rfl, hhead⟩ := h
  rcases ht.find?_cases key with ⟨hnone, hall⟩ | ⟨s, e, cpre, cpost, he, hk, hchain, hfind⟩
  · left
    refine ⟨fun c hc => ?_, by simp [get?, hnone], by simp [contains, hnone], by
      simp [remove, hnone]⟩
    obtain ⟨s, _, e, he, rfl⟩ := mem_contents hc
    exact hall s e he
  · right
    obtain ⟨pre, post, rfl⟩ := List.append_of_mem (ht.mem_order he)
    have hbucket : t.bucketOf key = t.bucketOf e.key := (bucketOf_congr t hk).symm
    rw [hbucket] at hchain
    have hd := detached (t.bucketOf e.key) cpre.getLast? he
    have hremove : t.remove key = t.detach s (t.bucketOf e.key) cpre.getLast? := by
      simp [remove, hfind, hbucket]
    have hnd := List.nodup_cons.mp (List.nodup_middle.mp ht.order_nodup)
    refine ⟨t.contents pre, content e, t.contents post, ?_, hk, fun a ha => ?_, ?_, ?_, ?_, ?_, ?_⟩
    · rw [contents_append, contents_cons he]
    · rw [← contents_append] at ha
      obtain ⟨x, hx, y, hy, rfl⟩ := mem_contents ha
      -- Another slot with an equal key would be this one, which is on the timeline once.
      by_contra hyk
      have hyk : (y.key == key) = true := by simpa [content] using hyk
      have hxs := ht.distinct x s y e hy he (BEq.trans hyk (BEq.symm hk))
      exact hnd.1 (hxs ▸ hx)
    · simp [get?, hfind, he, content]
    · simp [contains, hfind]
    · rw [hremove, detach_eq he]
      rfl
    · rw [hremove]
      rw [contents_append, contents_cons he] at hhead
      exact ⟨_, _, ht.detached pre he hchain hd, ht.contents_detached pre he hd,
        head_pos_defer hhead⟩
    · rw [hremove, hd.ttl]

theorem Holds.remove (h : t.Holds l) (key : κ) :
    ∃ l', (t.remove key).1.Holds l' ∧ (∀ c ∈ l', (c.1 == key) = false) ∧
      (t.remove key).1.ttl = t.ttl := by
  rcases h.lookup_cases key with ⟨hnone, _, _, hremove⟩ |
    ⟨A, c, B, rfl, _, hother, _, _, _, hholds, httl⟩
  · rw [hremove]
    exact ⟨l, h, hnone, rfl⟩
  · exact ⟨_, hholds, forall_defer (P := fun k => (k == key) = false) hother c.2.2, httl⟩

end Lawful

/-! ## Inserting -/

theorem Holds.append [EquivBEq κ] (h : t.Holds l) {key : κ} (value : ν)
    (habsent : ∀ c ∈ l, (c.1 == key) = false) :
    (t.append key value).Holds (l ++ [(key, value, t.ttl - span l)]) ∧
      (t.append key value).ttl = t.ttl := by
  have hspan := h.pending_eq
  obtain ⟨order, chains, ht, rfl, hhead⟩ := h
  obtain ⟨slot, hempty, ha⟩ := ht.appended key value
  have hdiffer : ∀ s e, t.entry? s = some e → (e.key == key) = false ∧ (key == e.key) = false := by
    intro s e he
    have hk := habsent _ (Timeline.mem_contents_of_entry? (ht.mem_order he) he)
    exact ⟨hk, BEq.symm_false hk⟩
  refine ⟨⟨_, _, ht.appended_threaded hempty hdiffer ha, ?_, fun c hc => ?_⟩, ha.ttl⟩
  · rw [ht.contents_appended hempty ha, hspan]
  · cases hl : t.contents order with
    | nil =>
      rw [hl] at hc
      simp only [List.nil_append, List.head?_cons, Option.mem_def, Option.some.injEq] at hc
      subst hc
      simpa using ht.ttl_pos
    | cons a rest =>
      rw [hl] at hhead hc
      exact hhead c (by simpa using hc)

/-! ## Ticking -/

namespace Threaded

variable {slot : Nat} {rest order : List Nat} {chains : Nat → List Nat} {e : Entry κ ν}

theorem contents_nearer (h : t.Threaded (slot :: rest) chains) (he : t.entry? slot = some e) :
    (t.nearer slot).contents (slot :: rest) = (e.key, e.value, e.gap - 1) :: t.contents rest := by
  have hself : Timeline.entry? (t.nearer slot) slot = some { e with gap := e.gap - 1 } := by
    simp [entry?_nearer, he]
  rw [contents_cons hself]
  congr 1
  refine contents_congr fun x hx => ?_
  have hx : slot ≠ x := fun heq => (List.nodup_cons.mp h.order_nodup).1 (heq ▸ hx)
  simp [entry?_nearer, hx]

theorem hashed_nearer (h : t.Threaded order chains) (slot b x : Nat) :
    x ∈ chains b ↔
      ∃ y, Timeline.entry? (t.nearer slot) x = some y ∧ (t.nearer slot).bucketOf y.key = b := by
  have hbucket : ∀ y : Entry κ ν, (t.nearer slot).bucketOf y.key = t.bucketOf y.key :=
    fun _ => rfl
  simp only [h.hashed b x, hbucket]
  constructor
  · rintro ⟨y, hy, hyb⟩
    have hkey := map_entry?_nearer Entry.key (t := t) slot (fun _ _ => rfl) x
    rw [hy] at hkey
    obtain ⟨z, hz, hzk⟩ := Option.map_eq_some_iff.mp hkey
    exact ⟨z, hz, hzk ▸ hyb⟩
  · rintro ⟨y, hy, hyb⟩
    obtain ⟨z, hz, hzk⟩ := entry?_nearer_some hy
    exact ⟨z, hz, hzk ▸ hyb⟩

theorem nearer (h : t.Threaded (slot :: rest) chains) (he : t.entry? slot = some e)
    (hpos : 0 < e.gap) : (t.nearer slot).Threaded (slot :: rest) chains where
  next := h.next.congr fun x _ => map_entry?_nearer _ _ (fun _ _ => rfl) x
  prev := h.prev.congr fun x _ => map_entry?_nearer _ _ (fun _ _ => rfl) x
  chain := fun b => (h.chain b).congr fun x _ => map_entry?_nearer _ _ (fun _ _ => rfl) x
  order_nodup := h.order_nodup
  chains_nodup := h.chains_nodup
  occupied := fun x => by
    rw [h.occupied x, entry?_nearer]
    split <;> simp
  hashed := h.hashed_nearer slot
  distinct := fun s s' y y' hs hs' hk => by
    obtain ⟨z, hz, hkey⟩ := entry?_nearer_some hs
    obtain ⟨z', hz', hkey'⟩ := entry?_nearer_some hs'
    exact h.distinct s s' z z' hz hz' (by rw [hkey, hkey', hk])
  pending_eq := by
    have hpending := h.pending_eq
    rw [contents_cons he, span_cons] at hpending
    rw [h.contents_nearer he, span_cons]
    show t.pending - 1 = e.gap - 1 + span (t.contents rest)
    simp only [content] at hpending
    omega
  pending_le := Nat.le_trans (Nat.sub_le _ _) h.pending_le
  size_eq := h.size_eq
  free_nodup := h.free_nodup
  free := fun x => by
    have hsize : (t.nearer slot).slots.size = t.slots.size := by
      simp [Timeline.nearer, adjust]
    rw [hsize, entry?_nearer]
    refine (h.free x).trans ?_
    split <;> simp
  ttl_pos := h.ttl_pos
  buckets_pos := h.buckets_pos

end Threaded

/-- Evicting takes the entries off whose gap is zero, up to the first with a longer one. -/
theorem evict_threaded {n : Nat} {order : List Nat} {chains : Nat → List Nat}
    (h : t.Threaded order chains) (hn : order.length ≤ n) :
    (t.evict n).1.Holds ((t.contents order).dropWhile (·.2.2 == 0)) ∧
      (t.evict n).2 = ((t.contents order).takeWhile (·.2.2 == 0)).map (fun c => (c.1, c.2.1)) ∧
      (t.evict n).1.ttl = t.ttl := by
  induction n generalizing t order chains with
  | zero =>
    obtain rfl : order = [] := List.length_eq_zero_iff.mp (Nat.le_zero.mp hn)
    exact ⟨⟨[], chains, h, rfl, by simp⟩, rfl, rfl⟩
  | succ n ih =>
    have hhead := h.next.start_eq
    cases order with
    | nil =>
      rw [evict, hhead]
      exact ⟨⟨[], chains, h, rfl, by simp⟩, rfl, rfl⟩
    | cons s rest =>
      obtain ⟨e, he⟩ := h.entry List.mem_cons_self
      rw [contents_cons he]
      by_cases hgap : e.gap = 0
      · -- The head is due. Its gap is zero, so the next entry inherits nothing and may be due too.
        obtain ⟨cpre, cpost, hchain, hbefore⟩ := h.chainBefore_head he
        have hd := detached (t.bucketOf e.key) cpre.getLast? he
        have hrest := h.detached [] he hchain hd
        have hcontents := h.contents_detached [] he hd
        obtain ⟨hholds, hevicted, httl⟩ := ih hrest (by simpa using hn)
        have hstep : t.evict (n + 1) =
            ((evict (t.detach s (t.bucketOf e.key) cpre.getLast?).1 n).1,
              (e.key, e.value) ::
                (evict (t.detach s (t.bucketOf e.key) cpre.getLast?).1 n).2) := by
          rw [evict, hhead]
          simp [he, hgap, hbefore]
        rw [List.nil_append, contents_nil, List.nil_append, hgap, defer_zero] at hcontents
        rw [List.nil_append, hcontents] at hholds hevicted
        rw [hstep]
        refine ⟨?_, ?_, ?_⟩
        · simpa [content, hgap] using hholds
        · simp [content, hgap, hevicted]
        · rw [httl, hd.ttl]
      · have hstep : t.evict (n + 1) = (t, []) := by
          rw [evict, hhead]
          simp [he, hgap]
        rw [hstep]
        refine ⟨⟨s :: rest, chains, h, ?_, ?_⟩, ?_, rfl⟩
        · simp [contents_cons he, content, hgap]
        · simp [content, hgap]
          omega
        · simp [content, hgap]

/-- One tick brings the head nearer and takes off what is due then. -/
theorem Holds.tick_cons {c : κ × ν × Nat} (h : t.Holds (c :: l)) :
    t.tick.1.Holds (((c.1, c.2.1, c.2.2 - 1) :: l).dropWhile (·.2.2 == 0)) ∧
      t.tick.2 =
        (((c.1, c.2.1, c.2.2 - 1) :: l).takeWhile (·.2.2 == 0)).map (fun c => (c.1, c.2.1)) ∧
      t.tick.1.ttl = t.ttl := by
  have hpos := h.head_pos
  obtain ⟨order, chains, ht, hl, _⟩ := h
  cases order with
  | nil => cases hl
  | cons s rest =>
    obtain ⟨e, he⟩ := ht.entry List.mem_cons_self
    rw [contents_cons he] at hl
    obtain ⟨rfl, rfl⟩ := List.cons.inj hl
    have hnear := ht.nearer he hpos
    have hcontents := ht.contents_nearer he
    rw [tick_of_head ht.next.start_eq]
    have hevict := evict_threaded hnear hnear.length_le
    rw [hcontents] at hevict
    exact hevict

theorem Holds.tick_nil (h : t.Holds []) : t.tick = (t, []) := by
  obtain ⟨order, chains, ht, hl, _⟩ := h
  have hlen := ht.contents_length
  rw [hl] at hlen
  obtain rfl : order = [] := List.length_eq_zero_iff.mp hlen.symm
  rw [tick, ht.next.start_eq]
  rfl

/-! ## Draining -/

theorem Holds.drain (h : t.Holds l) :
    t.drain.1.Holds [] ∧ t.drain.2 = l.map (fun c => (c.1, c.2.1)) ∧ t.drain.1.ttl = t.ttl := by
  have hlist := h.toList_eq
  obtain ⟨order, chains, ht, _, _⟩ := h
  have hempty : t.drain.1 = empty t.ttl t.buckets := by
    simp [Timeline.drain, empty, Nat.max_eq_left ht.ttl_pos, Nat.max_eq_left ht.buckets_pos]
  exact ⟨hempty ▸ holds_empty t.ttl t.buckets, hlist, rfl⟩

end Keyed

end Timeline
end FloodMesh
