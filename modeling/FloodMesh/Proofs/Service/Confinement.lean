import FloodMesh.Proofs.Relay.FanOut
import FloodMesh.Proofs.Wire.Request

/-!
# FloodMesh.Proofs.Service.Confinement

What strangers can make a router do. Whatever requests and datagrams come to it, from whomever, a
router sends to peers in its tables only, and one pong to the address that asked for it; nobody
changes the registrations of another address, and the table of routers not at all.

* `Router.Effect`: all that one event can do, with the datagrams it sends.
* `PeerTable.SameBeside`: tables that differ in the peers on one address only.
* `Router.strangers_confined`: every event of every run.
-/

namespace FloodMesh

/-! ## Peers on other addresses -/

/-- Ledgers on one clock that differ in the leases on one address only. -/
structure Ledger.Beside (ip : IpAddress) (l l' : Ledger Endpoint Peer) : Prop where
  clock : l'.clock = l.clock
  others : (l'.leases.filter fun x => some x.key.ip != some ip) =
    l.leases.filter fun x => some x.key.ip != some ip

namespace Ledger.Beside

variable {ip : IpAddress} {l l' : Ledger Endpoint Peer}

theorem filter_eraseP {α : Type} {p q : α → Bool} (hpq : ∀ x, q x = true → p x = false)
    (xs : List α) : (xs.eraseP q).filter p = xs.filter p := by
  induction xs with
  | nil => rfl
  | cons x xs ih =>
    cases hx : q x with
    | true => rw [List.eraseP_cons_of_pos hx, List.filter_cons_of_neg (by simp [hpq x hx])]
    | false => rw [List.eraseP_cons_of_neg (by simp [hx]), List.filter_cons, List.filter_cons, ih]

theorem erase (l : Ledger Endpoint Peer) (e : Endpoint) : Beside e.ip l (l.erase e) := by
  refine ⟨rfl, filter_eraseP (fun x hx => ?_) l.leases⟩
  rw [beq_iff_eq.mp hx]
  exact bne_self_eq_false _

theorem push (h : Beside ip l l') {e : Endpoint} (he : e.ip = ip) (value : Peer) :
    Beside ip l (l'.push e value) := by
  refine ⟨h.clock, ?_⟩
  rw [Ledger.push, List.filter_append, h.others, List.filter_cons_of_neg (by simp [he]),
    List.filter_nil, List.append_nil]

theorem tick (h : Beside ip l l') :
    Beside ip (l.perform .tick).ledger (l'.perform .tick).ledger := by
  refine ⟨congrArg (· + 1) h.clock, ?_⟩
  simp only [Ledger.perform, h.clock]
  rw [List.filter_comm, h.others, List.filter_comm]

end Ledger.Beside

namespace PeerTable

/-- The tables differ in the peers on one address only: they list the same others in the same order,
now and however many ticks pass. -/
def SameBeside (ip : IpAddress) (t t' : PeerTable) : Prop :=
  ∀ n, (t'.ticks n).1.endpointsExcluding (some ip) = (t.ticks n).1.endpointsExcluding (some ip)

variable {t t' : PeerTable} {ip : IpAddress}

theorem SameBeside.refl (ip : IpAddress) (t : PeerTable) : t.SameBeside ip t := fun _ => rfl

theorem sameBeside_of_beside {l l' : Ledger Endpoint Peer} (hl : Tracks t.leases l)
    (hl' : Tracks t'.leases l') (h : l.Beside ip l') : t.SameBeside ip t' := by
  intro n
  induction n generalizing t t' l l' with
  | zero =>
    show t'.endpointsExcluding (some ip) = t.endpointsExcluding (some ip)
    rw [endpointsExcluding, endpointsExcluding, endpoints_eq hl, endpoints_eq hl', List.filter_map,
      List.filter_map]
    exact congrArg (List.map _) h.others
  | succ n ih =>
    have htick : Tracks t.tick.1.leases (l.perform .tick).ledger := (hl.perform .tick).2.2
    have htick' : Tracks t'.tick.1.leases (l'.perform .tick).ledger := (hl'.perform .tick).2.2
    exact ih htick htick' h.tick

namespace Sound

/-- A signal of a peer leaves the peers on other addresses alone. -/
theorem heed_beside (h : t.Sound) {s : Signal}
    (hs : ∃ port, s = .connect { ip, port } ∨ s = .disconnect { ip, port }) :
    (t.heed s).Sound ∧ t.SameBeside ip (t.heed s) := by
  obtain ⟨l, hl⟩ := h
  obtain ⟨port, hs⟩ := hs
  have herase : l.Beside ip (l.erase { ip, port }) := Ledger.Beside.erase l { ip, port }
  rcases hs with rfl | rfl
  · have htracks : Tracks (t.heed (.connect { ip, port })).leases _ :=
      (hl.insert { ip, port } (.ofEndpoint { ip, port })).2
    exact ⟨⟨_, htracks⟩, sameBeside_of_beside hl htracks (herase.push rfl _)⟩
  · rw [PeerTable.heed, unregister_eq hl]
    cases l.find? { ip, port } with
    | none => exact ⟨⟨l, hl⟩, .refl ip t⟩
    | some x =>
      have htracks : Tracks (t.leases.remove { ip, port }).table (l.erase { ip, port }) :=
        (hl.perform (.remove { ip, port })).2.2
      exact ⟨⟨_, htracks⟩, sameBeside_of_beside hl htracks herase⟩

end Sound
end PeerTable

/-! ## What comes from peers -/

namespace ServiceEvent

variable {τ : Type}

/-- Who sent it. -/
def sender? : ServiceEvent τ → Option Endpoint
  | datagram _ peer | message _ peer => some peer
  | tick _ => none

/-- The request that it is. -/
def request? : ServiceEvent τ → Option Request
  | datagram bytes _ | message bytes _ => (Request.parse bytes).toOption
  | tick _ => none

/-- The request that it is, if it came in a datagram. -/
def notice? : ServiceEvent τ → Option Request
  | datagram bytes _ => (Request.parse bytes).toOption
  | message _ _ | tick _ => none

def Floods (ev : ServiceEvent τ) : Prop := ∃ e, ev.request? = some (.broadcast e)

/-- It asks for a pong at a port. -/
def Pings (ev : ServiceEvent τ) (port : UInt16) : Prop := ev.notice? = some (.ping (some port))

/-- It registers or removes a client. -/
def Registers (ev : ServiceEvent τ) : Prop :=
  ∃ text, ev.notice? = some (.connect text) ∨ ev.notice? = some (.disconnect text)

theorem request?_of_notice? {ev : ServiceEvent τ} {q : Request} (h : ev.notice? = some q) :
    ev.request? = some q := by
  cases ev with
  | datagram bytes peer => exact h
  | message bytes peer => cases h
  | tick which => cases h

/-- A broadcast asks for no pong. -/
theorem Pings.not_floods {ev : ServiceEvent τ} {port : UInt16} (h : ev.Pings port) :
    ¬ ev.Floods := by
  rintro ⟨e, he⟩
  cases (request?_of_notice? h).symm.trans he

end ServiceEvent

/-- A signal in a datagram registers or removes a client on the sender's address. -/
theorem Signal.of_ofDatagram {bytes : Bytes} {peer : Endpoint} {s : Signal}
    (h : ofDatagram bytes peer = some s) :
    (∃ text, Request.parse bytes = .ok (.connect text) ∨
      Request.parse bytes = .ok (.disconnect text)) ∧
    ∃ port, s = .connect { ip := peer.ip, port } ∨ s = .disconnect { ip := peer.ip, port } := by
  rw [ofDatagram] at h
  split at h
  · cases h
  rename_i q hparse
  cases q with
  | connect text =>
    obtain ⟨port, _, rfl⟩ := Option.map_eq_some_iff.mp h
    exact ⟨⟨text, .inl hparse⟩, port, .inl rfl⟩
  | disconnect text =>
    obtain ⟨port, _, rfl⟩ := Option.map_eq_some_iff.mp h
    exact ⟨⟨text, .inr hparse⟩, port, .inr rfl⟩
  | _ => cases h

namespace Router

/-- The datagrams that answer a ping: one, if its target can be reached. -/
def pongs (r : Router) (peer : Endpoint) (port : UInt16) : List Datagram :=
  if { ip := peer.ip, port } ∈ r.relay.outlet.blocked then []
  else [{ source := r.relay.outlet.address, target := { ip := peer.ip, port }
          payload := Request.pong.encode }]

/-- All that an event can do to a router: the state after it, and what it sends. -/
inductive Effect (r : Router) : ServiceEvent Relay.Table → Router → List Datagram → Prop
  | flood {ev : ServiceEvent Relay.Table} {e : Envelope} {peer : Endpoint} {relay : Relay}
      {sent : List Datagram} {outcome : FloodOutcome} (hsender : ev.sender? = some peer)
      (hrequest : ev.request? = some (.broadcast e))
      (hverdict : r.relay.Verdict e (some peer.ip) relay sent outcome) :
      Effect r ev { relay, network := ⟨r.network.queue ++ sent⟩ } sent
  | pong {bytes : Bytes} {peer : Endpoint} {port : UInt16}
      (hrequest : Request.parse bytes = .ok (.ping (some port))) :
      Effect r (.datagram bytes peer)
        { r with network := ⟨r.network.queue ++ r.pongs peer port⟩ } (r.pongs peer port)
  | signal {bytes : Bytes} {peer : Endpoint} {s : Signal}
      (hsignal : Signal.ofDatagram bytes peer = some s) :
      Effect r (.datagram bytes peer) (r.setClients (r.relay.clients.heed s)) []
  | tick (which : Relay.Table) : Effect r (.tick which) (r.tick which) []
  | idle {ev : ServiceEvent Relay.Table} (hflood : ¬ ev.Floods) (hping : ∀ port, ¬ ev.Pings port) :
      Effect r ev r []

theorem flood_effect (r : Router) {ev : ServiceEvent Relay.Table} {e : Envelope} {peer : Endpoint}
    (hsender : ev.sender? = some peer) (hrequest : ev.request? = some (.broadcast e)) :
    ∃ sent, Effect r ev (r.flood e (some peer.ip)).1 sent := by
  obtain ⟨relay, sent, outcome, hhandle, hverdict⟩ :=
    r.relay.handle_verdict r.network e (some peer.ip)
  rw [flood, hhandle]
  exact ⟨sent, .flood hsender hrequest hverdict⟩

theorem pong_eq (r : Router) (peer : Endpoint) (port : UInt16) :
    r.pong peer port = { r with network := ⟨r.network.queue ++ r.pongs peer port⟩ } := by
  rw [pong, Outlet.send, pongs]
  by_cases hblocked : { ip := peer.ip, port } ∈ r.relay.outlet.blocked
  · simp [hblocked]
  · simp [hblocked, Network.push]

theorem answer_effect (r : Router) {bytes : Bytes} {q : Request} (peer : Endpoint)
    (hparse : Request.parse bytes = .ok q) :
    ∃ sent, Effect r (.message bytes peer) (r.answer q peer).1 sent := by
  have hrequest : (ServiceEvent.message bytes peer : ServiceEvent Relay.Table).request? = some q := by
    rw [ServiceEvent.request?, hparse]
    rfl
  have hidle : (∀ e, q ≠ .broadcast e) → Effect r (.message bytes peer) r [] := by
    intro hq
    refine .idle ?_ fun port h => ?_
    · rintro ⟨e, he⟩
      exact hq e (Option.some.inj (hrequest.symm.trans he))
    · cases h
  cases q with
  | broadcast e => exact r.flood_effect rfl hrequest
  | discover num port =>
    refine ⟨[], ?_⟩
    rw [answer]
    split <;> exact hidle (by simp)
  | _ => exact ⟨[], hidle (by simp)⟩

theorem absorb_effect (r : Router) {bytes : Bytes} {q : Request} (peer : Endpoint)
    (hparse : Request.parse bytes = .ok q) :
    ∃ sent, Effect r (.datagram bytes peer) (r.absorb q peer) sent := by
  have hrequest : (ServiceEvent.datagram bytes peer : ServiceEvent Relay.Table).request? =
      some q := by
    rw [ServiceEvent.request?, hparse]
    rfl
  have hidle : (∀ e, q ≠ .broadcast e) → (∀ port, q ≠ .ping (some port)) →
      Effect r (.datagram bytes peer) r [] := by
    intro hbroadcast hping
    refine .idle ?_ fun port h => ?_
    · rintro ⟨e, he⟩
      exact hbroadcast e (Option.some.inj (hrequest.symm.trans he))
    · exact hping port (Option.some.inj (hrequest.symm.trans h))
  have hsignal : ∀ s, Signal.ofRequest q peer = some s →
      Effect r (.datagram bytes peer) (r.setClients (r.relay.clients.heed s)) [] := by
    intro s hs
    refine .signal ?_
    rw [Signal.ofDatagram, hparse]
    exact hs
  cases q with
  | broadcast e => exact r.flood_effect rfl hrequest
  | ping port =>
    cases port with
    | none => exact ⟨[], hidle (by simp) (by simp)⟩
    | some port =>
      rw [absorb, pong_eq]
      exact ⟨_, .pong hparse⟩
  | connect text =>
    refine ⟨[], ?_⟩
    rw [absorb, PeerTable.registerAt]
    cases hport : Text.port? text with
    | none => exact hidle (by simp) (by simp)
    | some port => exact hsignal _ (by rw [Signal.ofRequest, hport]; rfl)
  | disconnect text =>
    refine ⟨[], ?_⟩
    rw [absorb, PeerTable.unregisterAt]
    cases hport : Text.port? text with
    | none => exact hidle (by simp) (by simp)
    | some port =>
      have heffect := hsignal (.disconnect { ip := peer.ip, port }) (by
        rw [Signal.ofRequest, hport]
        rfl)
      rw [PeerTable.heed] at heffect
      dsimp only
      cases hfound : r.relay.clients.unregister { ip := peer.ip, port } with
      | error e => exact hidle (by simp) (by simp)
      | ok found =>
        rw [hfound] at heffect
        exact heffect
  | _ => exact ⟨[], hidle (by simp) (by simp)⟩

theorem step_effect (r : Router) (ev : ServiceEvent Relay.Table) :
    ∃ sent, Effect r ev (registrar.step r ev) sent := by
  cases ev with
  | datagram bytes peer =>
    rw [Registrar.step, Service.absorbMessage]
    cases hparse : Request.parse bytes with
    | ok q => exact r.absorb_effect peer hparse
    | error e =>
      have hnone : (ServiceEvent.datagram bytes peer : ServiceEvent Relay.Table).request? =
          none := by
        rw [ServiceEvent.request?, hparse]
        rfl
      refine ⟨[], .idle ?_ fun port h => ?_⟩
      · rintro ⟨e, he⟩
        cases hnone.symm.trans he
      · cases hnone.symm.trans h
  | message bytes peer =>
    rw [Registrar.step, Service.answerMessage]
    cases hparse : Request.parse bytes with
    | ok q => exact r.answer_effect peer hparse
    | error e =>
      refine ⟨[], .idle ?_ fun port h => ?_⟩
      · rintro ⟨e, he⟩
        rw [ServiceEvent.request?, hparse] at he
        cases he
      · cases h
  | tick which => exact ⟨[], .tick which⟩

/-! ## One event -/

/-- A router may send a datagram on what comes from a peer: a broadcast goes to peers in its tables,
and a pong to the address that asked for it. -/
def MaySend (r : Router) (ev : ServiceEvent Relay.Table) (peer : Endpoint) (d : Datagram) : Prop :=
  d.source = r.relay.outlet.address ∧
    ((ev.Floods ∧
        (r.relay.routers.contains d.target = true ∨ r.relay.clients.contains d.target = true)) ∨
      ∃ port, ev.Pings port ∧ d.target = { ip := peer.ip, port } ∧
        d.payload = Request.pong.encode)

/-- What comes from a peer has no effect on a router beyond what it may have. -/
structure Confined (r : Router) (ev : ServiceEvent Relay.Table) (peer : Endpoint) (r' : Router) :
    Prop where
  sends : ∃ sent, r'.network.queue = r.network.queue ++ sent ∧ ∀ d ∈ sent, r.MaySend ev peer d
  pong : ∀ port, ev.Pings port → r'.network.queue = r.network.queue ++ r.pongs peer port
  silent : ¬ ev.Floods → (∀ port, ¬ ev.Pings port) → r'.network = r.network
  routers : r'.relay.routers = r.relay.routers
  messages : ¬ ev.Floods → r'.relay.messages = r.relay.messages
  clients : ¬ ev.Registers → r'.relay.clients = r.relay.clients
  beside : r.relay.clients.SameBeside peer.ip r'.relay.clients

namespace Effect

variable {r r' : Router} {ev : ServiceEvent Relay.Table} {sent : List Datagram}

theorem sound (h : Effect r ev r' sent) (hsound : r.relay.Sound) : r'.relay.Sound := by
  cases h with
  | flood _ _ hverdict =>
    cases hverdict with
    | hopLimitReached => exact hsound
    | duplicate => exact hsound
    | tooLarge => exact hsound.remember _
    | forwarded => exact hsound.remember _
  | signal hsignal =>
    have hclients := (hsound.clients.heed_beside (Signal.of_ofDatagram hsignal).2).1
    exact ⟨hsound.messages, hsound.routers, hclients⟩
  | tick which => exact hsound.tick which
  | pong | idle => exact hsound

/-- Nothing is sent but by broadcasts and pings. -/
theorem sends (h : Effect r ev r' sent) (hsound : r.relay.Sound) :
    r'.network.queue = r.network.queue ++ sent ∧
      ∀ d ∈ sent, ∃ peer, ev.sender? = some peer ∧ r.MaySend ev peer d := by
  cases h with
  | @flood _ e peer _ _ _ hsender hrequest hverdict =>
    refine ⟨rfl, fun d hd => ⟨peer, hsender, ?_⟩⟩
    obtain ⟨_, t, ht, rfl⟩ := hverdict.of_mem_sent hd
    refine ⟨rfl, .inl ⟨⟨e, hrequest⟩, ?_⟩⟩
    exact (Relay.mem_targets ht).imp (hsound.routers.contains t).mpr (hsound.clients.contains t).mpr
  | @pong bytes peer port hrequest =>
    refine ⟨rfl, fun d hd => ⟨peer, rfl, ?_⟩⟩
    have hpings : (ServiceEvent.datagram bytes peer : ServiceEvent Relay.Table).Pings port := by
      rw [ServiceEvent.Pings, ServiceEvent.notice?, hrequest]
      rfl
    rw [pongs] at hd
    split at hd
    · cases hd
    · rw [List.mem_singleton.mp hd]
      exact ⟨rfl, .inr ⟨port, hpings, rfl, rfl⟩⟩
  | signal | tick | idle => exact ⟨(List.append_nil _).symm, fun d hd => nomatch hd⟩

/-- Nothing else happens on what comes from a peer. -/
theorem confined (h : Effect r ev r' sent) (hsound : r.relay.Sound) {peer : Endpoint}
    (hpeer : ev.sender? = some peer) : r.Confined ev peer r' := by
  have hsends : ∃ sent, r'.network.queue = r.network.queue ++ sent ∧
      ∀ d ∈ sent, r.MaySend ev peer d := by
    obtain ⟨hqueue, hmay⟩ := h.sends hsound
    refine ⟨sent, hqueue, fun d hd => ?_⟩
    obtain ⟨peer', hpeer', hd⟩ := hmay d hd
    rwa [Option.some.inj (hpeer.symm.trans hpeer')]
  cases h with
  | @flood _ e _ _ _ _ _ hrequest hverdict =>
    have hfloods : ev.Floods := ⟨e, hrequest⟩
    obtain ⟨hrouters, hclients⟩ := hverdict.peers
    refine ⟨hsends, fun port hpings => absurd hfloods hpings.not_floods,
      fun hno => absurd hfloods hno, hrouters, fun hno => absurd hfloods hno, fun _ => hclients, ?_⟩
    show r.relay.clients.SameBeside peer.ip _
    rw [hclients]
    exact .refl _ _
  | @pong bytes peer' port hrequest =>
    cases hpeer
    have hnotice : (ServiceEvent.datagram bytes peer : ServiceEvent Relay.Table).notice? =
        some (.ping (some port)) := by
      rw [ServiceEvent.notice?, hrequest]
      rfl
    refine ⟨hsends, fun port' hpings => ?_, fun _ hno => absurd hnotice (hno port), rfl, fun _ => rfl,
      fun _ => rfl, .refl _ _⟩
    cases hnotice.symm.trans hpings
    rfl
  | @signal bytes peer' s hsignal =>
    cases hpeer
    obtain ⟨⟨text, htext⟩, hown⟩ := Signal.of_ofDatagram hsignal
    have hregisters : (ServiceEvent.datagram bytes peer : ServiceEvent Relay.Table).Registers := by
      refine ⟨text, htext.imp ?_ ?_⟩ <;>
        · intro hrequest
          rw [ServiceEvent.notice?, hrequest]
          rfl
    refine ⟨hsends, fun port hpings => ?_, fun _ _ => rfl, rfl, fun _ => rfl,
      fun hno => absurd hregisters hno, (hsound.clients.heed_beside hown).2⟩
    obtain ⟨text', hconnect | hdisconnect⟩ := hregisters
    · cases hconnect.symm.trans hpings
    · cases hdisconnect.symm.trans hpings
  | tick which => cases hpeer
  | idle _ hping =>
    exact ⟨hsends, fun port hpings => absurd hpings (hping port), fun _ _ => rfl, rfl, fun _ => rfl,
      fun _ => rfl, .refl _ _⟩

end Effect

/-! ## Whole runs -/

theorem sound_after {r : Router} (h : r.relay.Sound) (evs : List (ServiceEvent Relay.Table)) :
    (registrar.after r evs).relay.Sound := by
  induction evs using List.reverseRecOn with
  | nil => exact h
  | append_singleton evs ev ih =>
    obtain ⟨sent, heffect⟩ := (registrar.after r evs).step_effect ev
    rw [Registrar.after_snoc]
    exact heffect.sound ih

/-- Everything that a run adds to the network was sent at some moment of it, as it might be then. -/
theorem sends_after {r : Router} (h : r.relay.Sound) (evs : List (ServiceEvent Relay.Table)) :
    ∃ sent, (registrar.after r evs).network.queue = r.network.queue ++ sent ∧
      ∀ d ∈ sent, ∃ before ev later peer, evs = before ++ ev :: later ∧ ev.sender? = some peer ∧
        (registrar.after r before).MaySend ev peer d := by
  induction evs using List.reverseRecOn with
  | nil => exact ⟨[], (List.append_nil _).symm, fun d hd => nomatch hd⟩
  | append_singleton evs ev ih =>
    obtain ⟨earlier, hqueue, hearlier⟩ := ih
    obtain ⟨sent, heffect⟩ := (registrar.after r evs).step_effect ev
    obtain ⟨hmore, hsent⟩ := heffect.sends (sound_after h evs)
    refine ⟨earlier ++ sent, ?_, fun d hd => ?_⟩
    · rw [Registrar.after_snoc, hmore, hqueue, List.append_assoc]
    · rcases List.mem_append.mp hd with hd | hd
      · obtain ⟨before, ev', later, peer, rfl, hpeer, hmay⟩ := hearlier d hd
        exact ⟨before, ev', later ++ [ev], peer, by simp, hpeer, hmay⟩
      · obtain ⟨peer, hpeer, hmay⟩ := hsent d hd
        exact ⟨evs, ev, [], peer, rfl, hpeer, hmay⟩

/-- A broadcast does the same whichever way it comes from an address, and gets no reply. -/
theorem broadcast_either_way (r : Router) {bytes : Bytes} {e : Envelope}
    (hparse : Request.parse bytes = .ok (.broadcast e)) {peer peer' : Endpoint}
    (hip : peer.ip = peer'.ip) : ∃ r', service.answerMessage r bytes peer = (r', none) ∧
      service.absorbMessage r bytes peer' = .ok r' := by
  refine ⟨(r.flood e (some peer.ip)).1, ?_, ?_⟩
  · rw [Service.answerMessage, hparse]
    rfl
  · rw [Service.absorbMessage, hparse, hip]
    rfl

/-- Whatever requests and datagrams come to a router, in any order, from anyone, and with any ticks
in between: what it sends goes to peers that its tables hold at that moment, for a broadcast, or is
the one pong that a ping in a datagram asks for, to the sender's own address. Nothing else sends
anything. The table of routers stays as it is, broadcasts alone change the memory of ids, and
connecting and disconnecting alone change the table of clients, on the sender's own address only. A
broadcast does the same over a stream as in a datagram, and gets no reply. -/
theorem strangers_confined (r : Router) (h : r.relay.Sound) (evs : List (ServiceEvent Relay.Table)) :
    (∃ sent, (registrar.after r evs).network.queue = r.network.queue ++ sent ∧
      ∀ d ∈ sent, ∃ before ev later peer, evs = before ++ ev :: later ∧ ev.sender? = some peer ∧
        (registrar.after r before).MaySend ev peer d) ∧
    (∀ before ev later peer, evs = before ++ ev :: later → ev.sender? = some peer →
      (registrar.after r before).Confined ev peer (registrar.after r (before ++ [ev]))) ∧
    ∀ bytes e peer peer', Request.parse bytes = .ok (.broadcast e) → peer.ip = peer'.ip →
      ∃ r', service.answerMessage (registrar.after r evs) bytes peer = (r', none) ∧
        service.absorbMessage (registrar.after r evs) bytes peer' = .ok r' := by
  refine ⟨sends_after h evs, ?_, fun _ _ _ _ hparse hip => broadcast_either_way _ hparse hip⟩
  rintro before ev later peer - hpeer
  obtain ⟨sent, heffect⟩ := (registrar.after r before).step_effect ev
  rw [Registrar.after_snoc]
  exact heffect.confined (sound_after h before) hpeer

def stranger : Endpoint := Relay.host 7

def strangerPings : ServiceEvent Relay.Table :=
  .datagram (Request.ping (some 9)).encode stranger

def strangerConnects : ServiceEvent Relay.Table :=
  .datagram (Request.connect "4000").encode stranger

/-- A stranger asks a router for a pong, and then registers at the port of a client on another
address. -/
theorem strangers_confined_crossroads :
    let r : Router := { relay := Relay.crossroads }
    let pinged := registrar.after r [strangerPings]
    let connected := registrar.after r [strangerPings, strangerConnects]
    r.relay.Sound ∧ pinged.network.queue =
        [{ source := Relay.host 1, target := { stranger with port := 9 }
           payload := Request.pong.encode }] ∧
      pinged.relay.clients = r.relay.clients ∧ connected.network = pinged.network ∧
      connected.relay.routers = pinged.relay.routers ∧
      connected.relay.messages = pinged.relay.messages ∧
      pinged.relay.clients.SameBeside stranger.ip connected.relay.clients := by
  intro r pinged connected
  have hsound : r.relay.Sound := by
    refine ⟨?_, (PeerTable.sound_empty "routers" 90 64).replace _,
      ((PeerTable.sound_empty "clients" 10 64).register Relay.tenant).1⟩
    exact Sightings.sound_empty 10 64
  have hparsePing : Request.parse (Request.ping (some 9)).encode = .ok (.ping (some 9)) :=
    Request.parse_encode (r := .ping (some 9)) trivial (by decide +kernel)
  have hparseConnect : Request.parse (Request.connect "4000").encode =
      .ok (.connect (Request.plainPort "4000")) :=
    Request.parse_encode (r := .connect "4000") trivial (by decide +kernel)
  have hping : strangerPings.notice? = some (.ping (some 9)) := by
    rw [strangerPings, ServiceEvent.notice?, hparsePing]
    rfl
  have hconnect : strangerConnects.notice? = some (.connect (Request.plainPort "4000")) := by
    rw [strangerConnects, ServiceEvent.notice?, hparseConnect]
    rfl
  obtain ⟨-, hconfined, -⟩ := strangers_confined r hsound [strangerPings, strangerConnects]
  have hfirst := hconfined [] strangerPings [strangerConnects] stranger rfl rfl
  have hsecond := hconfined [strangerPings] strangerConnects [] stranger rfl rfl
  have hquiet : ¬ strangerConnects.Floods := by
    rintro ⟨e, he⟩
    cases (ServiceEvent.request?_of_notice? hconnect).symm.trans he
  have hunregistered : ¬ strangerPings.Registers := by
    rintro ⟨text, h | h⟩ <;> cases hping.symm.trans h
  exact ⟨hsound, hfirst.pong 9 hping, hfirst.clients hunregistered,
    hsecond.silent hquiet fun port h => (nomatch hconnect.symm.trans h), hsecond.routers,
    hsecond.messages hquiet, hsecond.beside⟩

end Router
end FloodMesh
