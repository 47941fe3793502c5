import FloodMesh.Discovery.Exchange
import FloodMesh.Proofs.Peers
import FloodMesh.Proofs.Stream.Replies
import FloodMesh.Proofs.Wire.Peer

/-!
# FloodMesh.Proofs.Discovery.Exchange

What comes back from a server that is asked: its reply, and, if that lists peers, the endpoints that
the server's table selected.
-/

namespace FloodMesh

/-- What a reply means to the one that asked. -/
def Response.outcome : Response → Except Failure (Option Bytes)
  | okay => .ok none
  | body bytes => .ok (some (bytes ++ delimiter))
  | error code => .error (.network (.remoteError code.code code.reason))

namespace Contact

open Connection (Delivers)

variable {c : Connection} {r : Response}

theorem receiveBody_told {rest : Bytes} (h : c.Delivers (r.tail ++ rest)) :
    (receiveBody c r.told).2 = r.outcome := by
  cases r with
  | okay => rfl
  | error code => rfl
  | body bytes =>
    obtain ⟨buffer, arrivals, hread, _⟩ := h.readExact
    rw [Response.tail, List.length_append] at hread
    simp only [receiveBody, Response.told, hread, Response.outcome]

/-- Whatever is asked, the reply decides what comes of it. -/
theorem exchange_reply {rest : Bytes} (h : c.Delivers (r.encode ++ rest)) (hsized : r.Sized)
    (hlimit : maxMessageSize ≤ c.limit) (hsink : c.sink.Unfailing) (q : Request) :
    (exchange c q).2 = r.outcome := by
  have hsent : Delivers { c with sink := c.sink.wrote q.encode } (r.encode ++ rest) :=
    ⟨h.segmented, h.content⟩
  obtain ⟨buffer, arrivals, hheader, htail⟩ := hsent.readHeader hsized hlimit
  rw [exchange, Connection.send_eq hsink]
  simp only [hheader, Response.parse_header hsized]
  exact receiveBody_told htail

section Request

variable {contact : Contact} {lookup : Lookup} {dial : Dial} {e : Endpoint}
  (hresolve : contact.resolve lookup = .ok e) (hdial : dial e = .ok c)
  (hlimit : maxMessageSize ≤ c.limit) (hsink : c.sink.Unfailing)

include hresolve hdial hlimit hsink

theorem request_reply {rest : Bytes} (h : c.Delivers (r.encode ++ rest)) (hsized : r.Sized)
    (q : Request) : contact.request lookup dial q = r.outcome := by
  have hexchange := exchange_reply h hsized hlimit hsink q
  simp only [request, hresolve, bind, Except.bind, hdial, hexchange]

theorem requestPeers_reply (t : PeerTable) (num : Nat) (exclude : Option Endpoint)
    (h : c.Delivers (Response.ofJson (t.listJson num exclude)).encode)
    (hsized : (Response.ofJson (t.listJson num exclude)).Sized) (q : Request) :
    contact.requestPeers lookup dial q = .ok ((t.list num exclude).map Peer.endpoint) := by
  rw [← List.append_nil (Response.encode _)] at h
  have hreply := request_reply hresolve hdial hlimit hsink h hsized q
  have hlist := PeerRecord.parseList_print ((t.list num exclude).map Peer.endpoint) <| by
    intro e he
    obtain ⟨p, _, rfl⟩ := List.mem_map.mp he
    rfl
  rw [List.map_map] at hlist
  have hbody : PeerRecord.parseList (trimBody ((t.listJson num exclude).print ++ delimiter)) =
      .ok ((t.list num exclude).map Peer.endpoint) := by
    rw [Response.trimBody_append]
    exact hlist
  rw [requestPeers, hreply]
  show (PeerRecord.parseList (trimBody ((t.listJson num exclude).print ++ delimiter))).mapError
    Failure.protocol = _
  rw [hbody]
  rfl

/-- The endpoints that come back are those of the peers that the table selected, in the same order,
however the reply is cut into reads: the registered endpoints without the excluded one, up to the
number asked for. The record of an endpoint is that endpoint again. -/
theorem peers_received (t : PeerTable) (num : Nat) (exclude : Option Endpoint)
    (h : c.Delivers (Response.ofJson (t.listJson num exclude)).encode)
    (hsized : (Response.ofJson (t.listJson num exclude)).Sized) :
    (∀ q, contact.requestPeers lookup dial q = .ok ((t.list num exclude).map Peer.endpoint)) ∧
      (∀ es : List Endpoint, t.leases.toList = es.map (fun e => (e, .ofEndpoint e)) →
        (∀ e ∈ es, e.zone = 0) →
          (t.list num exclude).map Peer.endpoint =
            (es.filter fun e => some e != exclude).take num) ∧
      ∀ e : Endpoint, e.zone = 0 → (PeerRecord.ofEndpoint e).endpoint = .ok e :=
  ⟨requestPeers_reply hresolve hdial hlimit hsink t num exclude h hsized,
    fun _ hes hzone => PeerTable.map_endpoint_list hes hzone num exclude,
    fun _ he => PeerRecord.endpoint_ofEndpoint he⟩

end Request

/-- An IPv4 address as IPv6 has it, and one with two runs of zeros of the same length. -/
def rare : List Endpoint :=
  [{ ip := .v4 #v[192, 0, 2, 1], port := 5555 },
   { ip := .v6 #v[0, 0, 0, 0, 0, 0xffff, 0xc000, 0x0202], port := 0 },
   { ip := .v6 #v[0x2001, 0x0db8, 0, 0, 1, 0, 0, 1], port := 65535 }]

def rareTable : PeerTable := (PeerTable.empty "routers" 90 64).replace rare

theorem toList_rareTable :
    rareTable.leases.toList = rare.map fun e => (e, .ofEndpoint e) := by
  have htracks := PeerTable.tracks_replace (t := .empty "routers" 90 64) (tracks_empty 90 64) rare
  exact htracks.toList_eq.trans (by decide +kernel)

/-- The reply arrives byte by byte. -/
theorem peers_received_rare :
    let contact : Contact := { host := "127.0.0.1", port := 6666 }
    let reply := Response.ofJson (rareTable.listJson 2 rare.head?)
    let c : Connection :=
      { peer := { ip := .v4 #v[127, 0, 0, 1], port := 6666 }
        arrivals := (reply.encode.map fun b => [b]).map .bytes }
    let dial : Dial := fun _ => .ok c
    contact.resolve .numeric = .ok c.peer ∧ c.Delivers reply.encode ∧ reply.Sized ∧
      maxMessageSize ≤ c.limit ∧ c.sink.Unfailing ∧
      contact.list .numeric dial 2 = .ok (rare.drop 1) := by
  intro contact reply c dial
  have hresolve : contact.resolve .numeric = .ok c.peer := by decide +kernel
  have hdelivers : c.Delivers reply.encode := Connection.delivers_bytes c.peer reply.encode
  have hsized : reply.Sized := by
    show (Response.ofJson (rareTable.listJson 2 rare.head?)).Sized
    rw [PeerTable.listJson, PeerTable.list, toList_rareTable]
    decide +kernel
  have hdial : dial c.peer = .ok c := rfl
  have hsink : c.sink.Unfailing := ⟨rfl, rfl⟩
  obtain ⟨hpeers, hselected, _⟩ := peers_received hresolve hdial (Nat.le_refl _) hsink rareTable 2
    rare.head? hdelivers hsized
  have hzone : ∀ e ∈ rare, e.zone = 0 := by decide +kernel
  refine ⟨hresolve, hdelivers, hsized, Nat.le_refl _, hsink, (hpeers (.list 2)).trans ?_⟩
  rw [hselected rare toList_rareTable hzone]
  rfl

end Contact
end FloodMesh
