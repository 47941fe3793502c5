import FloodMesh.Proofs.Service.Registration

/-!
# FloodMesh.Proofs.Service.Listing

What nodes answer when a caller discovers peers. A caller is to be told of others: the first of a
node's peers, as many as it asks for, among which it is not counted itself. A directory answers with
these. A router does not look at who calls and answers with the first of the routers it knows; these
are the right ones only as long as the caller is not one of them.
-/

namespace FloodMesh

namespace PeerTable

/-- The peers that a caller is to be told of. -/
def others (t : PeerTable) (num : Nat) (caller : Endpoint) : List Endpoint :=
  (t.endpoints.filter fun e => e ≠ caller).take num

theorem not_mem_others (t : PeerTable) (num : Nat) (caller : Endpoint) :
    caller ∉ t.others num caller := by
  intro h
  have hkept := List.of_mem_filter (List.mem_of_mem_take h)
  simp at hkept

/-- The caller takes no place if it is not among the first. -/
theorem take_filter_of_not_mem {es : List Endpoint} {num : Nat} {caller : Endpoint}
    (h : caller ∉ es.take num) : (es.filter fun e => e ≠ caller).take num = es.take num := by
  induction es generalizing num with
  | nil => rfl
  | cons e es ih =>
    cases num with
    | zero => rfl
    | succ num =>
      rw [List.take_succ_cons, List.mem_cons, not_or] at h
      have hkept : (e :: es).filter (fun e => e ≠ caller) = e :: es.filter fun e => e ≠ caller :=
        List.filter_cons_of_pos (decide_eq_true (Ne.symm h.1))
      rw [hkept, List.take_succ_cons, List.take_succ_cons, ih h.2]

theorem take_eq_others_iff (t : PeerTable) (num : Nat) (caller : Endpoint) :
    t.endpoints.take num = t.others num caller ↔ caller ∉ t.endpoints.take num := by
  constructor
  · intro h
    rw [h]
    exact t.not_mem_others num caller
  · intro h
    exact (take_filter_of_not_mem h).symm

end PeerTable

theorem Service.answerMessage_parsed {σ : Type} (s : Service σ) (state : σ) {bytes : Bytes}
    {q : Request} (h : Request.parse bytes = .ok q) (peer : Endpoint) :
    s.answerMessage state bytes peer = s.answer state q peer := by
  rw [answerMessage, h]

/-- Whoever knows routers tells of them in their order, whoever asks. -/
theorem Router.answer_discover {r : Router} (h : r.relay.routers.Keyed) {num : Nat}
    (hnum : 0 < num) (port : Option UInt16) (peer : Endpoint) :
    ∃ reply, r.answer (.discover num port) peer = (r, some reply) ∧
      reply.Lists (r.relay.routers.endpoints.take num) := by
  rw [answer, if_neg (Nat.ne_of_gt hnum)]
  exact ⟨_, rfl, h.lists_listJson num⟩

/-- A directory lists the first of its peers without the caller, a router the first of the routers
it knows with the caller. The two rules agree as long as the caller is not among these. -/
theorem discover_answered {d : Directory} {r : Router} (hd : d.peers.Arises)
    (hr : r.relay.routers.Arises) {bytes : Bytes} {num : Nat} {port : UInt16}
    (hbytes : Request.parse bytes = .ok (.discover num (some port))) (hnum : 0 < num)
    (peer : Endpoint) :
    let caller : Endpoint := { ip := peer.ip, port }
    (∃ reply, Directory.service.answerMessage d bytes peer = (d, some reply) ∧
      reply.Lists (d.peers.others num caller)) ∧
    (∃ reply, Router.service.answerMessage r bytes peer = (r, some reply) ∧
      reply.Lists (r.relay.routers.endpoints.take num)) ∧
    (r.relay.routers.endpoints.take num = r.relay.routers.others num caller ↔
      caller ∉ r.relay.routers.endpoints.take num) := by
  intro caller
  rw [Service.answerMessage_parsed _ _ hbytes, Service.answerMessage_parsed _ _ hbytes]
  exact ⟨(Directory.reports hd.keyed).discover num port peer,
    Router.answer_discover hr.keyed hnum (some port) peer,
    r.relay.routers.take_eq_others_iff num caller⟩

namespace Router

def caller : Endpoint := { ip := .v4 #v[10, 0, 0, 7], port := 5555 }

/-- A router that knows one other. -/
def acquainted : Router :=
  { relay :=
    { listenPort := 5555
      hopLimit := 4
      messages := .empty 10 8
      routers := ((PeerTable.empty "routers" 90 8).register caller).1
      clients := .empty "clients" 10 8
      outlet := { address := { ip := .v4 #v[10, 0, 0, 3], port := 5555 } } } }

theorem arises_acquainted : acquainted.relay.routers.Arises :=
  .register (.empty "routers" 90 8) caller

theorem endpoints_acquainted : acquainted.relay.routers.endpoints = [caller] :=
  ((PeerTable.sound_empty "routers" 90 8).register caller).2

theorem parse_discover : Request.parse (Request.discover 1 (some 5555)).encode =
    .ok (.discover 1 (some 5555)) :=
  Request.parse_encode (r := .discover 1 (some 5555)) (by decide : 1 < UInt64.size)
    (by decide +kernel)

end Router

/-- Another caller learns from both nodes of the one that they know. -/
theorem discover_answered_acquainted :
    let d : Directory := { peers := Router.acquainted.relay.routers }
    let bytes := (Request.discover 1 (some 5555)).encode
    let peer : Endpoint := { ip := .v4 #v[10, 0, 0, 8], port := 4000 }
    d.peers.Arises ∧ Router.acquainted.relay.routers.Arises ∧
      Request.parse bytes = .ok (.discover 1 (some 5555)) ∧ 0 < 1 ∧
      (∃ reply, Directory.service.answerMessage d bytes peer = (d, some reply) ∧
        reply.Lists [Router.caller]) ∧
      ∃ reply, Router.service.answerMessage Router.acquainted bytes peer =
        (Router.acquainted, some reply) ∧ reply.Lists [Router.caller] := by
  intro d bytes peer
  obtain ⟨hdirectory, hrouter, _⟩ := discover_answered (d := d) (r := Router.acquainted)
    Router.arises_acquainted Router.arises_acquainted Router.parse_discover (Nat.zero_lt_one) peer
  have hothers : d.peers.others 1 { ip := peer.ip, port := 5555 } = [Router.caller] := by
    rw [PeerTable.others, Router.endpoints_acquainted]
    decide
  have htake : Router.acquainted.relay.routers.endpoints.take 1 = [Router.caller] := by
    rw [Router.endpoints_acquainted]
    rfl
  rw [hothers] at hdirectory
  rw [htake] at hrouter
  exact ⟨Router.arises_acquainted, Router.arises_acquainted, Router.parse_discover,
    Nat.zero_lt_one, hdirectory, hrouter⟩

/-- The one router that a router knows is told of itself, where nothing is to be told. -/
theorem discover_lists_caller :
    let bytes := (Request.discover 1 (some 5555)).encode
    let peer : Endpoint := { ip := .v4 #v[10, 0, 0, 7], port := 4000 }
    let caller : Endpoint := { ip := peer.ip, port := 5555 }
    Router.acquainted.relay.routers.Arises ∧
      Request.parse bytes = .ok (.discover 1 (some 5555)) ∧
      ∃ reply, Router.service.answerMessage Router.acquainted bytes peer =
        (Router.acquainted, some reply) ∧
        reply.Lists [caller] ∧
        ¬ reply.Lists (Router.acquainted.relay.routers.others 1 caller) := by
  intro bytes peer caller
  obtain ⟨reply, hanswer, hlists⟩ := Router.answer_discover Router.arises_acquainted.keyed
    Nat.zero_lt_one (some 5555) peer
  rw [Router.endpoints_acquainted] at hlists
  refine ⟨Router.arises_acquainted, Router.parse_discover, reply, ?_, hlists, fun hothers => ?_⟩
  · rw [Service.answerMessage_parsed _ _ Router.parse_discover]
    exact hanswer
  · rw [PeerTable.others, Router.endpoints_acquainted] at hothers
    exact List.cons_ne_nil _ _ (hlists.unique hothers)

end FloodMesh
