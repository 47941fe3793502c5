import FloodMesh.Proofs.Peers.History
import FloodMesh.Proofs.Relay

/-!
# FloodMesh.Proofs.Relay.FanOut

Where a forwarded envelope goes, exactly: one datagram to each router that is not on the address it
came from and one to each client, in the order of their registrations, without those that cannot be
reached. Sending changes no table.
-/

namespace FloodMesh

theorem PeerTable.mem_endpointsExcluding {t : PeerTable} {source : Option IpAddress}
    {e : Endpoint} :
    e ∈ t.endpointsExcluding source ↔ e ∈ t.endpoints ∧ source ≠ some e.ip := by
  rw [endpointsExcluding, List.mem_filter, bne_iff_ne, ne_comm]

namespace Relay

variable {r r' : Relay} {n n' : Network} {e : Envelope} {source : Option IpAddress}
  {routers clients : Nat}

/-- A forwarded envelope with all that there is to tell about it. -/
theorem handle_forwarded (h : r.handle n e source = (r', n', .forwarded routers clients)) :
    r' = r.remember e.id ∧ n'.queue = n.queue ++ r.copies e source ∧
      routers = (r.outlet.reach (r.routers.endpointsExcluding source)).length ∧
      clients = (r.outlet.reach (r.clients.endpointsExcluding none)).length := by
  obtain ⟨r₁, sent, outcome, hhandle, hverdict⟩ := r.handle_verdict n e source
  cases hhandle.symm.trans h
  cases hverdict with
  | forwarded hhops hknows hsize =>
    cases (handle_fits n source hhops hknows hsize).symm.trans h
    exact ⟨rfl, rfl, rfl, rfl⟩

/-- Whatever targets cannot be reached, a forwarded envelope goes to every router known that is not
on the address it came from, and then to every client, the sender too. Either group is in the order
of the last registrations, and only those that cannot be reached are left out. The outcome counts
what went out, and the tables are as they were. -/
theorem fan_out_exact {ttl ttl' : Nat} {heard heard' : List Signal}
    (hrouters : r.routers.Follows ttl heard) (hclients : r.clients.Follows ttl' heard')
    (h : r.handle n e source = (r', n', .forwarded routers clients)) :
    ∃ toRouters toClients : List Endpoint,
      n'.queue = n.queue ++ (toRouters ++ toClients).map (fun t =>
        { source := r.outlet.address, target := t
          payload := Envelope.encode { e with hops := e.hops + 1, hopPort := r.listenPort } }) ∧
      (∀ t, t ∈ toRouters ↔
        r.routers.contains t = true ∧ source ≠ some t.ip ∧ t ∉ r.outlet.blocked) ∧
      (∀ t, t ∈ toClients ↔ r.clients.contains t = true ∧ t ∉ r.outlet.blocked) ∧
      toRouters.Pairwise (ConnectedBefore heard) ∧ toClients.Pairwise (ConnectedBefore heard') ∧
      routers = toRouters.length ∧ clients = toClients.length ∧
      r'.routers = r.routers ∧ r'.clients = r.clients := by
  obtain ⟨rfl, hqueue, hcountRouters, hcountClients⟩ := handle_forwarded h
  refine ⟨r.outlet.reach (r.routers.endpointsExcluding source),
    r.outlet.reach (r.clients.endpointsExcluding none), ?_, ?_, ?_, ?_, ?_, hcountRouters,
    hcountClients, rfl, rfl⟩
  · rw [hqueue, copies, targets, List.filter_append]
    rfl
  · intro t
    rw [Outlet.mem_reach, PeerTable.mem_endpointsExcluding, hrouters.contains, and_assoc]
  · intro t
    rw [Outlet.mem_reach, PeerTable.mem_endpointsExcluding, hclients.contains]
    simp
  · exact (hrouters.ordered.filter _).filter _
  · exact (hclients.ordered.filter _).filter _

def host (n : UInt8) : Endpoint := { ip := .v4 #v[192, 0, 2, n], port := 5555 }

def tenant : Endpoint := { host 3 with port := 4000 }

/-- One router is registered twice, one cannot be reached, and one shares its address with the
client. -/
def crossroads : Relay :=
  { listenPort := 5555, hopLimit := 4, messages := .empty 10 64
    routers := (PeerTable.empty "routers" 90 64).replace [host 2, host 3, host 4, host 5, host 2]
    clients := ((PeerTable.empty "clients" 10 64).register tenant).1
    outlet := { address := host 1, blocked := [host 4] } }

/-- What comes from the client goes to two of the four routers, the one registered again behind the
other, and back to the client. -/
theorem fan_out_exact_crossroads :
    let e : Envelope := { hops := 1, hopPort := 4000, id := "m1", payload := [] }
    let heard := [host 2, host 3, host 4, host 5, host 2].map Signal.connect
    crossroads.routers.Follows 90 heard ∧ crossroads.clients.Follows 10 [.connect tenant] ∧
      ∃ r' n' toRouters,
        crossroads.handle {} e (some tenant.ip) = (r', n', .forwarded 2 1) ∧
        n'.queue.map (·.target) = toRouters ++ [tenant] ∧ toRouters.length = 2 ∧
        toRouters.Pairwise (ConnectedBefore heard) ∧ host 5 ∈ toRouters ∧ host 2 ∈ toRouters := by
  intro e heard
  have hrouters : crossroads.routers.Follows 90 heard :=
    (PeerTable.sound_empty "routers" 90 64).follows_replace _
  have hclients : crossroads.clients.Follows 10 [.connect tenant] :=
    (PeerTable.follows_empty "clients" 10 64).heed (by decide) (.connect tenant)
  have hknown : crossroads.routers.endpoints = [host 3, host 4, host 5, host 2] := by
    rw [hrouters.endpoints]
    decide
  have hlocal : crossroads.clients.endpoints = [tenant] := by
    rw [hclients.endpoints]
    decide
  obtain ⟨r', sent, outcome, hhandle, hverdict⟩ :=
    crossroads.handle_verdict {} e (some tenant.ip)
  obtain ⟨_, _, routers, clients, rfl⟩ :=
    hverdict.is_forwarded (by decide) rfl (by decide +kernel)
  obtain ⟨toRouters, toClients, hqueue, hmemRouters, hmemClients, hordered, _, hcountRouters,
    hcountClients, _⟩ := fan_out_exact hrouters hclients hhandle
  obtain ⟨_, _, htwo, hone⟩ := handle_forwarded hhandle
  rw [PeerTable.endpointsExcluding, hknown] at htwo
  rw [PeerTable.endpointsExcluding, hlocal] at hone
  have htwo : routers = 2 := htwo.trans (by decide)
  have hone : clients = 1 := hone.trans (by decide)
  subst htwo hone
  have hclient : toClients = [tenant] := by
    obtain ⟨t, rfl⟩ := List.length_eq_one_iff.mp hcountClients.symm
    have hmem : tenant ∈ [t] := (hmemClients tenant).mpr
      ⟨(hclients.contains _).mpr (by rw [hlocal]; decide), by decide⟩
    rw [List.mem_singleton.mp hmem]
  refine ⟨hrouters, hclients, r', _, toRouters, hhandle, ?_, hcountRouters.symm, hordered, ?_, ?_⟩
  · rw [hqueue, hclient, List.map_append, List.map_map]
    exact List.map_id _
  · exact (hmemRouters _).mpr
      ⟨(hrouters.contains _).mpr (by rw [hknown]; decide), by decide, by decide⟩
  · exact (hmemRouters _).mpr
      ⟨(hrouters.contains _).mpr (by rw [hknown]; decide), by decide, by decide⟩

end Relay
end FloodMesh
