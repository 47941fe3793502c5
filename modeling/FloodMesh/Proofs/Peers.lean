import FloodMesh.Peers
import FloodMesh.Proofs.Lease.Refinement

/-!
# FloodMesh.Proofs.Peers

Tables of peers through what they list: the endpoints, each once, as many as the table's size.
-/

namespace FloodMesh
namespace PeerTable

/-- A table for which a ledger accounts. Empty ones are sound, and every operation keeps them so. -/
def Sound (t : PeerTable) : Prop := ∃ l : Ledger Endpoint Peer, Tracks t.leases l

theorem sound_empty (name : String) (ttl buckets : Nat) : Sound (empty name ttl buckets) :=
  ⟨_, tracks_empty ttl buckets⟩

@[simp] theorem endpoints_empty (name : String) (ttl buckets : Nat) :
    (empty name ttl buckets).endpoints = [] := rfl

variable {t : PeerTable}

theorem endpoints_eq {l : Ledger Endpoint Peer} (h : Tracks t.leases l) :
    t.endpoints = l.leases.map (·.key) := by
  rw [endpoints, h.toList_eq, Ledger.pairs, List.map_map]
  rfl

/-- Where registrations are for endpoints without a zone, what is listed are these endpoints. -/
theorem map_endpoint_list {es : List Endpoint}
    (h : t.leases.toList = es.map fun e => (e, .ofEndpoint e)) (hzone : ∀ e ∈ es, e.zone = 0)
    (limit : Nat) (exclude : Option Endpoint) :
    (t.list limit exclude).map Peer.endpoint = (es.filter fun e => some e != exclude).take limit := by
  have hback : ∀ e ∈ es.filter fun e => some e != exclude,
      (Peer.ofEndpoint e).endpoint = id e := by
    intro e he
    obtain ⟨ip, port, zone⟩ := e
    have hnone : zone = 0 := hzone _ (List.mem_of_mem_filter he)
    subst hnone
    rfl
  rw [list, h, List.filter_map, List.map_map, List.map_take, List.map_map]
  exact congrArg (List.take limit) ((List.map_congr_left hback).trans (List.map_id _))

theorem tracks_replace {l : Ledger Endpoint Peer} (h : Tracks t.leases l)
    (endpoints : List Endpoint) :
    Tracks (t.replace endpoints).leases
      (l.perform (.replace (endpoints.map fun e => (e, .ofEndpoint e)))).ledger :=
  (h.perform (.replace (endpoints.map fun e => (e, .ofEndpoint e)))).2.2

theorem unregister_eq {l : Ledger Endpoint Peer} (h : Tracks t.leases l) (e : Endpoint) :
    t.unregister e =
      match l.find? e with
      | none => .error (.peerNotFound e)
      | some x => .ok ({ t with leases := (t.leases.remove e).table }, x.value) := by
  have hanswer : (t.leases.remove e).answer = (l.find? e).map (·.value) := by
    obtain ⟨_, _, hremoved, _⟩ := h.lookup e
    show (t.leases.timeline.remove e).2.map (·.2) = _
    rw [hremoved, Option.map_map]
    rfl
  simp only [unregister, hanswer]
  cases l.find? e <;> rfl

namespace Sound

theorem length_endpoints (h : Sound t) : t.endpoints.length = t.size := by
  obtain ⟨l, hl⟩ := h
  rw [endpoints_eq hl, List.length_map]
  exact hl.agrees.size.symm

/-- What a table holds is what it lists. -/
theorem contains (h : Sound t) (e : Endpoint) : t.contains e = true ↔ e ∈ t.endpoints := by
  obtain ⟨l, hl⟩ := h
  have hfind : t.contains e = (l.find? e).isSome := hl.agrees.contains e
  rw [hfind, endpoints_eq hl, Ledger.find?, List.find?_isSome, List.mem_map]
  simp

theorem register (h : Sound t) (e : Endpoint) :
    Sound (t.register e).1 ∧ (t.register e).1.endpoints = t.endpoints.erase e ++ [e] := by
  obtain ⟨l, hl⟩ := h
  have hinsert : Tracks (t.register e).1.leases ((l.erase e).push e (.ofEndpoint e)) :=
    (hl.insert e (.ofEndpoint e)).2
  refine ⟨⟨_, hinsert⟩, ?_⟩
  have herase :
      (l.leases.eraseP fun x => x.key == e).map (·.key) = (l.leases.map (·.key)).erase e := by
    rw [List.erase_eq_eraseP', List.eraseP_map]
    rfl
  rw [endpoints_eq hinsert, endpoints_eq hl, Ledger.push, List.map_append, Ledger.erase, herase]
  rfl

theorem unregister (h : Sound t) {e : Endpoint} {t' : PeerTable} {p : Peer}
    (hok : t.unregister e = .ok (t', p)) : Sound t' := by
  obtain ⟨l, hl⟩ := h
  rw [unregister_eq hl] at hok
  split at hok
  · cases hok
  · cases hok
    exact ⟨_, (hl.perform (.remove e)).2.2⟩

theorem replace (h : Sound t) (endpoints : List Endpoint) : Sound (t.replace endpoints) := by
  obtain ⟨l, hl⟩ := h
  exact ⟨_, tracks_replace hl endpoints⟩

/-- A tick keeps a table sound and takes nothing but endpoints off it. -/
theorem tick (h : Sound t) : Sound t.tick.1 ∧ t.tick.1.endpoints.Sublist t.endpoints := by
  obtain ⟨l, hl⟩ := h
  have hstep : Tracks t.tick.1.leases (l.perform .tick).ledger := (hl.perform .tick).2.2
  refine ⟨⟨_, hstep⟩, ?_⟩
  rw [endpoints_eq hstep, endpoints_eq hl]
  exact List.Sublist.map _ List.filter_sublist

theorem size_tick_le (h : Sound t) : t.tick.1.size ≤ t.size := by
  obtain ⟨htick, hsub⟩ := h.tick
  rw [← htick.length_endpoints, ← h.length_endpoints]
  exact hsub.length_le

end Sound

/-! ## Tables that can come about -/

/-- Every peer is registered under its own endpoint. -/
def Keyed (t : PeerTable) : Prop :=
  ∃ l : Ledger Endpoint Peer, Tracks t.leases l ∧ ∀ x ∈ l.leases, x.value = .ofEndpoint x.key

namespace Keyed

theorem sound (h : Keyed t) : Sound t := by
  obtain ⟨l, hl, _⟩ := h
  exact ⟨l, hl⟩

theorem toList (h : Keyed t) : t.leases.toList = t.endpoints.map fun e => (e, .ofEndpoint e) := by
  obtain ⟨l, hl, hvalues⟩ := h
  rw [endpoints_eq hl, hl.toList_eq, Ledger.pairs, List.map_map]
  exact List.map_congr_left fun x hx => congrArg (Prod.mk x.key) (hvalues x hx)

theorem listJson (h : Keyed t) (limit : Nat) (exclude : Option Endpoint) :
    t.listJson limit exclude =
      .array (((t.endpoints.filter fun e => some e != exclude).take limit).map
        fun e => (PeerRecord.ofEndpoint e).toJson) := by
  rw [PeerTable.listJson, list, h.toList, List.filter_map, List.map_map, ← List.map_take,
    List.map_map]
  rfl

theorem perform (h : Keyed t) (op : LeaseOp Endpoint Peer)
    (hop : ∀ y ∈ op.supplies, y.2 = .ofEndpoint y.1) {t' : PeerTable}
    (ht' : t'.leases = (t.leases.perform op).table) : Keyed t' := by
  obtain ⟨l, hl, hvalues⟩ := h
  have hvalues' : ∀ x ∈ (l.perform op).ledger.leases, x.value = .ofEndpoint x.key :=
    Ledger.forall_perform (P := fun key value => value = Peer.ofEndpoint key) hvalues hop
  refine ⟨(l.perform op).ledger, ?_, hvalues'⟩
  rw [ht']
  exact (hl.perform op).2.2

end Keyed

/-- The tables that operations make of an empty one. -/
inductive Arises : PeerTable → Prop
  | empty (name : String) (ttl buckets : Nat) : Arises (empty name ttl buckets)
  | register {t : PeerTable} (h : Arises t) (e : Endpoint) : Arises (t.register e).1
  | unregister {t t' : PeerTable} {e : Endpoint} {p : Peer} (h : Arises t)
      (hok : t.unregister e = .ok (t', p)) : Arises t'
  | replace {t : PeerTable} (h : Arises t) (endpoints : List Endpoint) :
      Arises (t.replace endpoints)
  | clear {t : PeerTable} (h : Arises t) : Arises t.clear
  | tick {t : PeerTable} (h : Arises t) : Arises t.tick.1

theorem Arises.keyed (h : Arises t) : Keyed t := by
  induction h with
  | empty name ttl buckets => exact ⟨_, tracks_empty ttl buckets, fun x hx => nomatch hx⟩
  | @register t h e ih =>
    refine ih.perform (.insert e (.ofEndpoint e)) ?_ rfl
    intro y hy
    cases List.mem_singleton.mp hy
    rfl
  | @unregister t t' e p h hok ih =>
    refine ih.perform (.remove e) (fun y hy => nomatch hy) ?_
    rw [PeerTable.unregister] at hok
    split at hok
    · cases hok
    · cases hok
      rfl
  | @replace t h endpoints ih =>
    refine ih.perform (.replace (endpoints.map fun e => (e, .ofEndpoint e))) ?_ rfl
    intro y hy
    obtain ⟨e, _, rfl⟩ := List.mem_map.mp hy
    rfl
  | clear h ih => exact ih.perform .clear (fun y hy => nomatch hy) rfl
  | tick h ih => exact ih.perform .tick (fun y hy => nomatch hy) rfl

end PeerTable
end FloodMesh
