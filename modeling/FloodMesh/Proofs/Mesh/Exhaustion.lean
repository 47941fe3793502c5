import FloodMesh.Proofs.Mesh.Budget
import FloodMesh.Proofs.Mesh.Carriage
import Mathlib.Algebra.Ring.GeomSum
import Mathlib.Data.Set.Card

/-!
# FloodMesh.Proofs.Mesh.Exhaustion

Hops alone stop every flood. A copy has one hop more than the envelope it was made of, and at the
limit no more copies are made; so a datagram in flight is worth so many deliveries and no more, even
if the relays forget at once what they have seen.

* `Bounded.perform`: a delivery takes one from what the datagrams in flight are worth, and nothing
  adds to it.
* `flood_exhausts`: the same for whole schedules, finite or not.
-/

namespace FloodMesh

/-- Nothing new enters the mesh: no envelope, no second copy of a datagram, no peer. -/
def MeshEvent.Closed : MeshEvent → Prop
  | .originate _ _ => False
  | .deliver _ => True
  | .lose _ => True
  | .duplicate _ => False
  | .tick _ _ => True
  | .forget _ => True
  | .rewire _ _ _ => False

/-! ## What a datagram is worth -/

/-- Deliveries that `hops` hops leave to a broadcast: its own, one of each copy, one of each copy of
a copy, and so on up to the limit. -/
def cascade (limit degree hops : Nat) : Nat :=
  if hops < limit then ∑ k ∈ Finset.range (limit - hops + 1), degree ^ k else 1

theorem cascade_below {limit degree hops : Nat} (h : hops < limit) :
    cascade limit degree hops = 1 + degree * cascade limit degree (hops + 1) := by
  have hstep : limit - hops + 1 = (limit - (hops + 1) + 1) + 1 := by omega
  rw [cascade, if_pos h, hstep, geom_sum_succ, Nat.add_comm, cascade]
  by_cases hnext : hops + 1 < limit
  · rw [if_pos hnext]
  · have hzero : limit - (hops + 1) = 0 := by omega
    rw [if_neg hnext, hzero]
    simp

theorem cascade_pos (limit degree hops : Nat) : 1 ≤ cascade limit degree hops := by
  by_cases h : hops < limit
  · rw [cascade_below h]
    omega
  · rw [cascade, if_neg h]

/-- What a datagram is worth; one that is no broadcast is worth its own delivery. -/
def Datagram.worth (limit degree : Nat) (d : Datagram) : Nat :=
  match Request.parse d.payload with
  | .ok (.broadcast e) => cascade limit degree e.hops
  | _ => 1

namespace Datagram

variable {limit degree : Nat} {d : Datagram}

theorem worth_broadcast {e : Envelope} (h : Request.parse d.payload = .ok (.broadcast e)) :
    d.worth limit degree = cascade limit degree e.hops := by
  rw [worth, h]

theorem one_le_worth (limit degree : Nat) (d : Datagram) : 1 ≤ d.worth limit degree := by
  rw [worth]
  split
  · exact cascade_pos limit degree _
  · exact Nat.le_refl 1

end Datagram

/-! ## One relay -/

namespace Relay

variable {r r' : Relay} {limit degree : Nat}

/-- The relay is sound, lets no envelope go beyond `limit` hops and has `degree` peers at most. -/
structure Bounded (r : Relay) (limit degree : Nat) : Prop where
  sound : r.Sound
  hopLimit : r.hopLimit ≤ limit
  peers : r.routers.size + r.clients.size ≤ degree

namespace Bounded

theorem change (h : r.Bounded limit degree) {place : Nat} {ev : MeshEvent} (hclosed : ev.Closed)
    (hchange : r.Change place ev r') : r'.Bounded limit degree := by
  cases hchange with
  | none => exact h
  | remember _ id => exact ⟨h.sound.remember id, h.hopLimit, h.peers⟩
  | tick table =>
    exact ⟨h.sound.tick table, (r.hopLimit_tick table).trans_le h.hopLimit,
      (h.sound.peers_tick_le table).trans h.peers⟩
  | forget =>
    obtain ⟨hmessages, hrouters, hclients⟩ := h.sound
    exact ⟨⟨hmessages.clear, hrouters, hclients⟩, h.hopLimit, h.peers⟩
  | rewire => exact hclosed.elim

/-- What is sent is worth one less than what it was made of, whatever the relay remembers. -/
theorem worth_sent (h : r.Bounded limit degree) {bytes : Bytes} {e : Envelope}
    {source : Option IpAddress} {sent : List Datagram} {outcome : FloodOutcome}
    (hparse : Request.parse bytes = .ok (.broadcast e))
    (hverdict : r.Verdict e source r' sent outcome) :
    1 + (sent.map (Datagram.worth limit degree)).sum ≤ cascade limit degree e.hops := by
  have hpos := cascade_pos limit degree e.hops
  cases hverdict with
  | hopLimitReached => simpa using hpos
  | duplicate => simpa using hpos
  | tooLarge => simpa using hpos
  | forwarded hhops =>
    have hlt : e.hops < limit := Nat.lt_of_lt_of_le hhops h.hopLimit
    have hdigit := Envelope.hops_le_of_parse hparse
    have hbound : (r.stamp e).hops < UInt64.size := by
      show e.hops + 1 < UInt64.size
      exact Nat.lt_of_le_of_lt (Nat.succ_le_succ hdigit) (by decide)
    have hcopy : ∀ w ∈ (r.copies e source).map (Datagram.worth limit degree),
        w ≤ cascade limit degree (e.hops + 1) := by
      intro w hw
      obtain ⟨d, hd, rfl⟩ := List.mem_map.mp hw
      obtain ⟨t, _, rfl⟩ := List.mem_map.mp hd
      rw [Datagram.worth]
      split
      · rename_i e' hread
        have hfree := Envelope.unreserved_of_parse hparse
        rw [Envelope.hops_of_parse_encode (e := r.stamp e) hfree hbound hread]
        exact Nat.le_refl _
      · exact cascade_pos limit degree _
    have hsum := List.sum_le_card_nsmul _ _ hcopy
    rw [List.length_map, Nat.nsmul_eq_mul] at hsum
    have hcount := (h.sound.length_copies e source).trans h.peers
    have hproduct := Nat.mul_le_mul_right (cascade limit degree (e.hops + 1)) hcount
    rw [cascade_below hlt]
    omega

end Bounded

end Relay

/-! ## Runs -/

namespace Mesh

variable {m : Mesh} {limit degree : Nat}

def Bounded (m : Mesh) (limit degree : Nat) : Prop := ∀ r ∈ m.relays, r.Bounded limit degree

/-- What all datagrams in flight are worth. -/
def worth (m : Mesh) (limit degree : Nat) : Nat :=
  (m.network.queue.map (Datagram.worth limit degree)).sum

theorem worth_eraseIdx (limit degree : Nat) {queue : List Datagram} {n : Nat} {d : Datagram}
    (h : queue[n]? = some d) :
    ((queue.eraseIdx n).map (Datagram.worth limit degree)).sum + d.worth limit degree =
      (queue.map (Datagram.worth limit degree)).sum := by
  obtain ⟨hlt, rfl⟩ := List.getElem?_eq_some_iff.mp h
  have hperm := (List.getElem_cons_eraseIdx_perm hlt).map (Datagram.worth limit degree)
  rw [← hperm.sum_eq, List.map_cons, List.sum_cons, Nat.add_comm]

namespace Bounded

theorem step (h : m.Bounded limit degree) {ev : MeshEvent} (hclosed : ev.Closed) :
    (m.perform ev).mesh.Bounded limit degree := by
  intro r' hr'
  obtain ⟨i, hi⟩ := List.mem_iff_getElem?.mp hr'
  obtain ⟨r, hr, hchange⟩ := change_of_perform hi
  exact (h r (List.mem_of_getElem? hr)).change hclosed hchange

/-- A delivery takes one at least from what is in flight; no other event adds to it. -/
theorem perform (h : m.Bounded limit degree) {ev : MeshEvent} (hclosed : ev.Closed) :
    (m.perform ev).delivered.toList.length + (m.perform ev).mesh.worth limit degree ≤
      m.worth limit degree := by
  cases ev with
  | originate => exact hclosed.elim
  | duplicate => exact hclosed.elim
  | rewire => exact hclosed.elim
  | tick => exact Nat.le_of_eq (Nat.zero_add _)
  | forget => exact Nat.le_of_eq (Nat.zero_add _)
  | lose n =>
    show 0 + ((m.network.queue.eraseIdx n).map (Datagram.worth limit degree)).sum ≤ _
    cases hd : m.network.queue[n]? with
    | none =>
      rw [List.eraseIdx_of_length_le (List.getElem?_eq_none_iff.mp hd), Nat.zero_add]
      exact Nat.le_refl _
    | some d =>
      have hworth := worth_eraseIdx limit degree hd
      rw [worth]
      omega
  | deliver n =>
    cases hd : m.network.queue[n]? with
    | none =>
      simp only [Mesh.perform, hd]
      exact Nat.le_of_eq (Nat.zero_add _)
    | some d =>
      have hworth := worth_eraseIdx limit degree hd
      rcases m.perform_deliver hd with ⟨_, hperform⟩ |
        ⟨i, e, r, r', sent, outcome, _, hparse, hr, hverdict, hperform⟩
      · have hone := d.one_le_worth limit degree
        rw [hperform]
        show 1 + ((m.network.queue.eraseIdx n).map (Datagram.worth limit degree)).sum ≤ _
        rw [worth]
        omega
      · have hsent := (h r (List.mem_of_getElem? hr)).worth_sent hparse hverdict
        rw [← Datagram.worth_broadcast hparse] at hsent
        rw [hperform]
        show 1 + ((m.network.queue.eraseIdx n ++ sent).map (Datagram.worth limit degree)).sum ≤ _
        rw [List.map_append, List.sum_append, worth]
        omega

theorem deliveries_le (h : m.Bounded limit degree) {evs : List MeshEvent}
    (hclosed : ∀ ev ∈ evs, ev.Closed) :
    (m.deliveries evs).length + (m.after evs).worth limit degree ≤ m.worth limit degree := by
  induction evs generalizing m with
  | nil => exact Nat.le_of_eq (Nat.zero_add _)
  | cons ev evs ih =>
    have hnow := hclosed ev List.mem_cons_self
    have hstep := h.perform hnow
    have hrest := ih (h.step hnow) fun ev' hev => hclosed ev' (List.mem_cons_of_mem ev hev)
    rw [deliveries_cons, List.length_append, after]
    omega

end Bounded

/-! ## Schedules without an end -/

/-- The mesh when the `n`-th event of a schedule comes. -/
def upTo (m : Mesh) (schedule : Nat → MeshEvent) (n : Nat) : Mesh :=
  m.after ((List.range n).map schedule)

def DeliversAt (m : Mesh) (schedule : Nat → MeshEvent) (n : Nat) : Prop :=
  ((m.upTo schedule n).perform (schedule n)).delivered ≠ none

/-- Points of a schedule at which something is delivered are no more than its deliveries. -/
theorem card_le_deliveries (m : Mesh) (schedule : Nat → MeshEvent) (n : Nat) {points : Finset Nat}
    (hbelow : ∀ k ∈ points, k < n) (hpoints : ∀ k ∈ points, m.DeliversAt schedule k) :
    points.card ≤ (m.deliveries ((List.range n).map schedule)).length := by
  induction n generalizing points with
  | zero =>
    have hempty : points = ∅ :=
      Finset.eq_empty_of_forall_notMem fun k hk => Nat.not_lt_zero k (hbelow k hk)
    simp [hempty]
  | succ n ih =>
    have hless : ∀ k ∈ points.erase n, k < n := by
      intro k hk
      have hlt := hbelow k (Finset.mem_of_mem_erase hk)
      have hne := Finset.ne_of_mem_erase hk
      omega
    have hrest := ih hless fun k hk => hpoints k (Finset.mem_of_mem_erase hk)
    rw [List.range_succ, List.map_append, List.map_singleton, deliveries_snoc, List.length_append]
    by_cases hn : n ∈ points
    · have hdelivers := hpoints n hn
      rw [DeliversAt, upTo] at hdelivers
      obtain ⟨d, hd⟩ := Option.ne_none_iff_exists'.mp hdelivers
      have hcard := Finset.card_erase_add_one hn
      rw [hd, Option.toList_some, List.length_singleton]
      omega
    · rw [Finset.erase_eq_of_notMem hn] at hrest
      omega

theorem finite_of_card_le {s : Set Nat} {bound : Nat}
    (h : ∀ points : Finset Nat, (∀ k ∈ points, k ∈ s) → points.card ≤ bound) :
    s.Finite ∧ s.ncard ≤ bound := by
  have hfinite : s.Finite := by
    by_contra hinfinite
    obtain ⟨points, hpoints, hcard⟩ := Set.Infinite.exists_subset_card_eq hinfinite (bound + 1)
    have hle := h points fun k hk => hpoints hk
    omega
  refine ⟨hfinite, ?_⟩
  rw [Set.ncard_eq_toFinset_card s hfinite]
  exact h _ fun k hk => hfinite.mem_toFinset.mp hk

/-- Whatever is in flight, and in whatever order it is delivered, lost or mixed with ticks and
cleared memories: if nothing new enters the mesh, there are no more deliveries than the datagrams
in flight are worth at the start. -/
theorem flood_exhausts (hsound : m.Sound) (hlimit : ∀ r ∈ m.relays, r.hopLimit ≤ limit)
    (hpeers : ∀ r ∈ m.relays, r.routers.size + r.clients.size ≤ degree) :
    (∀ evs : List MeshEvent, (∀ ev ∈ evs, ev.Closed) →
      (m.deliveries evs).length ≤ (m.network.queue.map (Datagram.worth limit degree)).sum) ∧
    ∀ schedule : Nat → MeshEvent, (∀ n, (schedule n).Closed) →
      {n | m.DeliversAt schedule n}.Finite ∧ {n | m.DeliversAt schedule n}.ncard ≤
        (m.network.queue.map (Datagram.worth limit degree)).sum := by
  have hbounded : m.Bounded limit degree := fun r hr => ⟨hsound r hr, hlimit r hr, hpeers r hr⟩
  have hfinite : ∀ evs : List MeshEvent, (∀ ev ∈ evs, ev.Closed) →
      (m.deliveries evs).length ≤ m.worth limit degree := by
    intro evs hclosed
    have hle := hbounded.deliveries_le hclosed
    omega
  refine ⟨hfinite, fun schedule hclosed => finite_of_card_le fun points hpoints => ?_⟩
  have hbelow : ∀ k ∈ points, k < points.sup id + 1 := fun k hk =>
    Nat.lt_succ_of_le (Finset.le_sup (f := id) hk)
  refine (m.card_le_deliveries schedule _ hbelow hpoints).trans (hfinite _ fun ev hev => ?_)
  obtain ⟨k, _, rfl⟩ := List.mem_map.mp hev
  exact hclosed k

theorem flood_exhausts_pair :
    let flying (payload : Bytes) : Datagram :=
      { source := (station 1).outlet.address, target := (station 2).outlet.address, payload }
    let m : Mesh := { pair with network := ⟨[flying hello.encode, flying [0x7b]]⟩ }
    let evs := [.deliver 1, .forget 1, .deliver 0, .tick 0 .routers, .deliver 0]
    m.Sound ∧ (∀ r ∈ m.relays, r.hopLimit ≤ 3) ∧
      (∀ r ∈ m.relays, r.routers.size + r.clients.size ≤ 1) ∧ (∀ ev ∈ evs, ev.Closed) ∧
      (m.network.queue.map (Datagram.worth 3 1)).sum = 5 ∧ (m.deliveries evs).length ≤ 5 ∧
      {n | m.DeliversAt (fun _ => .deliver 0) n}.ncard ≤ 5 := by
  intro flying m evs
  have hlimit : ∀ r ∈ m.relays, r.hopLimit ≤ 3 := by
    intro r hr
    rcases List.mem_cons.mp hr with rfl | hr
    · decide
    · rw [List.mem_singleton.mp hr]
      decide
  have hsize : ∀ e : Endpoint, ((PeerTable.empty "routers" 9 4).register e).1.size = 1 := by
    intro e
    obtain ⟨hsound, hendpoints⟩ := (PeerTable.sound_empty "routers" 9 4).register e
    rw [← hsound.length_endpoints, hendpoints]
    rfl
  have hpeers : ∀ r ∈ m.relays, r.routers.size + r.clients.size ≤ 1 := by
    intro r hr
    rcases List.mem_cons.mp hr with rfl | hr
    · exact Nat.le_of_eq (hsize (station 2).outlet.address)
    · rw [List.mem_singleton.mp hr]
      exact Nat.le_of_eq (hsize (station 1).outlet.address)
  have hclosed : ∀ ev ∈ evs, ev.Closed := by
    intro ev hev
    simp only [evs, List.mem_cons, List.not_mem_nil, or_false] at hev
    rcases hev with rfl | rfl | rfl | rfl | rfl <;> trivial
  have hworth : (m.network.queue.map (Datagram.worth 3 1)).sum = 5 := by
    have hhello := (fresh_hello.encode rfl rfl (Nat.zero_le 9)).2
    have hjunk : Request.parse [0x7b] = .error (.malformed .notJson) := by rfl
    show Datagram.worth 3 1 (flying hello.encode) + (Datagram.worth 3 1 (flying [0x7b]) + 0) = 5
    rw [Datagram.worth_broadcast hhello, Datagram.worth, hjunk]
    decide
  obtain ⟨hfinite, hendless⟩ := flood_exhausts (m := m) sound_pair hlimit hpeers
  rw [hworth] at hfinite hendless
  exact ⟨sound_pair, hlimit, hpeers, hclosed, hworth, hfinite evs hclosed,
    (hendless (fun _ => .deliver 0) fun _ => trivial).2⟩

end Mesh

end FloodMesh
