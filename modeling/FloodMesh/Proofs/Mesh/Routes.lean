import FloodMesh.Proofs.Mesh.Budget
import FloodMesh.Proofs.Mesh.Carriage
import Mathlib.Data.Nat.Find

/-!
# FloodMesh.Proofs.Mesh.Routes

The graph that the tables of routers span, and distances in it; and the meshes in which nothing
stands in the way of a message except the hop limit.
-/

namespace FloodMesh

def Datagram.hops (d : Datagram) : Nat :=
  match Request.parse d.payload with
  | .ok (.broadcast e) => e.hops
  | _ => 0

theorem Datagram.hops_eq {d : Datagram} {e : Envelope}
    (h : Request.parse d.payload = .ok (.broadcast e)) : d.hops = e.hops := by
  rw [hops, h]

namespace Mesh

/-- The relay at one place lists the relay at another among its routers. -/
def Lists (m : Mesh) (i j : Nat) : Prop :=
  ∃ r s, m.relays[i]? = some r ∧ m.relays[j]? = some s ∧ s.outlet.address ∈ r.routers.endpoints

/-- A route of so many hops from one place to another, along the tables of routers. -/
inductive Route (m : Mesh) (o : Nat) : Nat → Nat → Prop
  | start : Route m o 0 o
  | onward {n i j : Nat} (h : Route m o n i) (hlists : m.Lists i j) : Route m o (n + 1) j

structure Distance (m : Mesh) (o n j : Nat) : Prop where
  route : m.Route o n j
  least : ∀ k, m.Route o k j → n ≤ k

variable {m : Mesh} {o i j n k : Nat}

theorem distance_start (m : Mesh) (o : Nat) : m.Distance o 0 o := ⟨.start, fun k _ => Nat.zero_le k⟩

theorem Distance.unique (h : m.Distance o n j) (h' : m.Distance o k j) : n = k :=
  Nat.le_antisymm (h.least k h'.route) (h'.least n h.route)

theorem Distance.eq_of_zero (h : m.Distance o 0 j) : j = o := by
  cases h.route with
  | start => rfl

theorem Distance.ne_start (h : m.Distance o n j) (hpos : 1 ≤ n) : j ≠ o := by
  rintro rfl
  have hzero := h.unique (distance_start m j)
  omega

theorem Route.distance (h : m.Route o k j) : ∃ n ≤ k, m.Distance o n j := by
  classical
  have hsome : ∃ n, m.Route o n j := ⟨k, h⟩
  exact ⟨Nat.find hsome, Nat.find_min' hsome h, Nat.find_spec hsome,
    fun n hn => Nat.find_min' hsome hn⟩

/-- Before the end of a shortest route comes the end of a shortest route. -/
theorem Distance.before (h : m.Distance o (n + 1) j) : ∃ i, m.Distance o n i ∧ m.Lists i j := by
  cases h.route with
  | onward hroute hlists =>
    refine ⟨_, ⟨hroute, fun k hk => ?_⟩, hlists⟩
    have hle := h.least (k + 1) (hk.onward hlists)
    omega

/-! ## Meshes without obstacles -/

/-- All relays stand on addresses of their own and have the same hop limit, no target is blocked,
and no relay is listed as a client. -/
structure Clear (m : Mesh) (limit : Nat) : Prop where
  sound : m.Sound
  hopLimit : ∀ r ∈ m.relays, r.hopLimit = limit
  apart : m.relays.Pairwise fun r s => r.outlet.address.ip ≠ s.outlet.address.ip
  unblocked : ∀ r ∈ m.relays, r.outlet.blocked = []
  clients : ∀ r ∈ m.relays, ∀ s ∈ m.relays, s.outlet.address ∉ r.clients.endpoints

namespace Clear

variable {limit : Nat} {r s : Relay}

theorem place_unique (h : m.Clear limit) (hr : m.relays[i]? = some r) (hs : m.relays[j]? = some s)
    (hip : r.outlet.address.ip = s.outlet.address.ip) : i = j := by
  obtain ⟨hi, rfl⟩ := List.getElem?_eq_some_iff.mp hr
  obtain ⟨hj, rfl⟩ := List.getElem?_eq_some_iff.mp hs
  have hapart := List.pairwise_iff_getElem.mp h.apart
  rcases Nat.lt_trichotomy i j with hlt | heq | hlt
  · exact absurd hip (hapart i j hi hj hlt)
  · exact heq
  · exact absurd hip.symm (hapart j i hj hi hlt)

theorem indexOf?_address (h : m.Clear limit) (hr : m.relays[i]? = some r) :
    m.indexOf? r.outlet.address = some i := by
  cases hi : m.indexOf? r.outlet.address with
  | none =>
    have hnone := List.findIdx?_eq_none_iff.mp hi r (List.mem_of_getElem? hr)
    simp at hnone
  | some j =>
    obtain ⟨s, hs, haddress⟩ := indexOf?_eq_some hi
    rw [h.place_unique hs hr (congrArg Endpoint.ip haddress)]

/-- A relay that gets a datagram is listed among the sender's routers, not among its clients. -/
theorem lists (h : m.Clear limit) (hr : m.relays[i]? = some r) {t : Endpoint}
    (ht : t ∈ r.routers.endpoints ∨ t ∈ r.clients.endpoints) (hj : m.indexOf? t = some j) :
    m.Lists i j := by
  obtain ⟨s, hs, rfl⟩ := indexOf?_eq_some hj
  rcases ht with ht | ht
  · exact ⟨r, s, hr, hs, ht⟩
  · exact absurd ht (h.clients r (List.mem_of_getElem? hr) s (List.mem_of_getElem? hs))

/-- Each listed relay gets a copy, unless it is on the address that the envelope came from. -/
theorem mem_copies (h : m.Clear limit) (hr : m.relays[i]? = some r) (hlists : m.Lists i j)
    (e : Envelope) {source : Option IpAddress}
    (hsource : ∀ s, m.relays[j]? = some s → source ≠ some s.outlet.address.ip) :
    ∃ d ∈ r.copies e source, m.indexOf? d.target = some j := by
  obtain ⟨r', s, hr', hs, hlisted⟩ := hlists
  rw [hr] at hr'
  cases hr'
  refine ⟨_, List.mem_map.mpr ⟨s.outlet.address, ?_, rfl⟩, h.indexOf?_address hs⟩
  rw [h.unblocked r (List.mem_of_getElem? hr)]
  have hkept : s.outlet.address ∈ r.routers.endpointsExcluding source := by
    refine List.mem_filter.mpr ⟨hlisted, ?_⟩
    simpa [bne_iff_ne] using (hsource s hs).symm
  exact List.mem_filter.mpr ⟨List.mem_append_left _ hkept, rfl⟩

end Clear

end Mesh

end FloodMesh
