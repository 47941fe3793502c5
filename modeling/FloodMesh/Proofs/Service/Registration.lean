import FloodMesh.Proofs.Peers
import FloodMesh.Proofs.Relay
import FloodMesh.Proofs.Service.Roster
import FloodMesh.Proofs.Wire.Body
import FloodMesh.Service.Directory
import FloodMesh.Service.Router

/-!
# FloodMesh.Proofs.Service.Registration

Directories and routers keep a table of peers each, and hear the same signals: datagrams that
connect or disconnect at a port, and ticks. After any run the table holds the roster of the signals
heard, whatever else arrived; whoever reads the directory's replies has it from them in its order.
-/

namespace FloodMesh

/-! ## Signals -/

namespace Signal

/-- What a request in a datagram tells a table, if its port is one. -/
def ofRequest (r : Request) (peer : Endpoint) : Option Signal :=
  match r with
  | .connect text => (Text.port? text).map fun port => connect { ip := peer.ip, port }
  | .disconnect text => (Text.port? text).map fun port => disconnect { ip := peer.ip, port }
  | _ => none

def ofDatagram (bytes : Bytes) (peer : Endpoint) : Option Signal :=
  match Request.parse bytes with
  | .error _ => none
  | .ok r => ofRequest r peer

theorem zone_of_ofDatagram {bytes : Bytes} {peer e : Endpoint}
    (h : ofDatagram bytes peer = some (.connect e)) : e.zone = 0 := by
  rw [ofDatagram] at h
  split at h
  · cases h
  · rename_i r _
    cases r with
    | connect text =>
      obtain ⟨_, _, hconnect⟩ := Option.map_eq_some_iff.mp h
      cases hconnect
      rfl
    | disconnect text =>
      obtain ⟨_, _, hdisconnect⟩ := Option.map_eq_some_iff.mp h
      cases hdisconnect
    | _ => cases h

end Signal

namespace PeerTable

def heed (t : PeerTable) : Signal → PeerTable
  | .connect e => (t.register e).1
  | .disconnect e =>
    match t.unregister e with
    | .ok (t, _) => t
    | .error _ => t
  | .tick => t.tick.1

/-- A registration, so many ticks after the peer connected. -/
def registration (clock ttl : Nat) (x : Endpoint × Nat) : Lease Endpoint Peer :=
  ⟨x.1, .ofEndpoint x.1, clock + ttl - x.2⟩

/-- The table holds the roster of some signals. -/
def Follows (t : PeerTable) (ttl : Nat) (signals : List Signal) : Prop :=
  ∃ l : Ledger Endpoint Peer, Tracks t.leases l ∧ l.ttl = ttl ∧
    l.leases = (roster ttl signals).map (registration l.clock ttl)

variable {t : PeerTable} {ttl : Nat} {signals : List Signal}

theorem follows_empty (name : String) (ttl buckets : Nat) :
    (empty name ttl buckets).Follows (max ttl 1) [] :=
  ⟨.empty ttl, tracks_empty ttl buckets, rfl, rfl⟩

namespace Follows

theorem sound (h : t.Follows ttl signals) : t.Sound := by
  obtain ⟨l, hl, _, _⟩ := h
  exact ⟨l, hl⟩

theorem endpoints (h : t.Follows ttl signals) : t.endpoints = (roster ttl signals).map (·.1) := by
  obtain ⟨l, hl, _, hleases⟩ := h
  rw [endpoints_eq hl, hleases, List.map_map]
  rfl

theorem keyed (h : t.Follows ttl signals) : t.Keyed := by
  obtain ⟨l, hl, _, hleases⟩ := h
  refine ⟨l, hl, fun x hx => ?_⟩
  rw [hleases] at hx
  obtain ⟨y, _, rfl⟩ := List.mem_map.mp hx
  rfl

theorem contains (h : t.Follows ttl signals) (e : Endpoint) :
    t.contains e = true ↔ e ∈ t.endpoints := h.sound.contains e

/-- An endpoint that is not listed cannot be removed. -/
theorem heed_disconnect_unknown (h : t.Follows ttl signals) {e : Endpoint}
    (hunknown : t.contains e = false) : t.heed (.disconnect e) = t := by
  obtain ⟨l, hl, _, _⟩ := h
  have hcontains : (l.find? e).isSome = false := (hl.agrees.contains e).symm.trans hunknown
  have hfind : l.find? e = none := by simpa using hcontains
  rw [PeerTable.heed, unregister_eq hl, hfind]

theorem heed (h : t.Follows ttl signals) (httl : 0 < ttl) (s : Signal) :
    (t.heed s).Follows ttl (signals ++ [s]) := by
  obtain ⟨l, hl, rfl, hleases⟩ := h
  have herase : ∀ e, (l.erase e).leases =
      ((roster l.ttl signals).filter fun x => x.1 != e).map (registration l.clock l.ttl) := by
    intro e
    rw [Ledger.erase, hleases, List.eraseP_map, ← eraseP_of_distinct roster_distinct]
    rfl
  cases s with
  | connect e =>
    refine ⟨(l.erase e).push e (.ofEndpoint e), (hl.insert e (.ofEndpoint e)).2, rfl, ?_⟩
    rw [Ledger.push, herase, roster_connect httl, List.map_append]
    rfl
  | disconnect e =>
    rw [PeerTable.heed, unregister_eq hl, Follows, roster_disconnect]
    cases hfind : l.find? e with
    | none =>
      refine ⟨l, hl, rfl, ?_⟩
      rw [← herase, Ledger.erase_eq_self hfind]
    | some x => exact ⟨l.erase e, (hl.perform (.remove e)).2.2, rfl, herase e⟩
  | tick =>
    refine ⟨_, (hl.perform .tick).2.2, rfl, ?_⟩
    show l.leases.filter (fun x => l.clock + 1 < x.due) = _
    rw [hleases, roster_tick, List.filter_map, List.map_map]
    have hdue : ∀ x ∈ roster l.ttl signals,
        (l.clock + 1 < l.clock + l.ttl - x.2 ↔ x.2 + 1 < l.ttl) := by
      intro x hx
      have hlt := ticks_lt_of_mem_roster hx
      omega
    have hkept : (roster l.ttl signals).filter
          ((fun x => decide (l.clock + 1 < x.due)) ∘ registration l.clock l.ttl) =
        (roster l.ttl signals).filter fun x => x.2 + 1 < l.ttl :=
      List.filter_congr fun x hx => decide_eq_decide.mpr (hdue x hx)
    rw [hkept]
    refine List.map_congr_left fun x _ => ?_
    show (⟨x.1, .ofEndpoint x.1, l.clock + l.ttl - x.2⟩ : Lease Endpoint Peer) =
      ⟨x.1, .ofEndpoint x.1, l.clock + 1 + l.ttl - (x.2 + 1)⟩
    have hsame : l.clock + l.ttl - x.2 = l.clock + 1 + l.ttl - (x.2 + 1) := by omega
    rw [hsame]

/-- A whole history of signals. -/
theorem hear (h : t.Follows ttl signals) (httl : 0 < ttl) (more : List Signal) :
    (more.foldl PeerTable.heed t).Follows ttl (signals ++ more) := by
  induction more generalizing t signals with
  | nil =>
    rw [List.append_nil]
    exact h
  | cons s more ih =>
    have hmore := ih (h.heed httl s)
    rw [List.append_assoc, List.singleton_append] at hmore
    exact hmore

end Follows

namespace Keyed

theorem lists_ofJson (h : t.Keyed) (num : Nat) (exclude : Option Endpoint) :
    (Response.ofJson (t.listJson num exclude)).Lists
      ((t.endpoints.filter fun e => some e != exclude).take num) := by
  rw [h.listJson]
  exact ⟨_, rfl, PeerRecord.parseList_print_unzoned _⟩

/-- A table's list is read as its endpoints. -/
theorem lists_listJson (h : t.Keyed) (num : Nat) :
    (Response.ofJson (t.listJson num none)).Lists (t.endpoints.take num) := by
  have hall : t.endpoints.filter (fun e => some e != none) = t.endpoints :=
    List.filter_eq_self.mpr fun e _ => rfl
  have hlists := h.lists_ofJson num none
  rwa [hall] at hlists

theorem lists_listJson_except (h : t.Keyed) (num : Nat) (caller : Endpoint) :
    (Response.ofJson (t.listJson num (some caller))).Lists
      ((t.endpoints.filter fun e => e ≠ caller).take num) := by
  have hothers : t.endpoints.filter (fun e => some e != some caller) =
      t.endpoints.filter fun e => e ≠ caller := by
    refine List.filter_congr fun e _ => ?_
    rw [Bool.eq_iff_iff]
    simp
  have hlists := h.lists_ofJson num (some caller)
  rwa [hothers] at hlists

end Keyed

end PeerTable

/-! ## Services that keep a table -/

/-- What comes to a service whose ticks are of several kinds: a datagram, a message on a stream, or
a tick. -/
inductive ServiceEvent (τ : Type)
  | datagram (bytes : Bytes) (peer : Endpoint)
  | message (bytes : Bytes) (peer : Endpoint)
  | tick (which : τ)

/-- A kind of node that keeps a table of peers. Only signals change the table. -/
structure Registrar (σ τ : Type) where
  service : Service σ
  tick : σ → τ → σ
  table : σ → PeerTable
  /-- Whether a tick is one of the table's. -/
  counts : τ → Bool
  table_answer : ∀ s r peer, table (service.answer s r peer).1 = table s
  table_absorb : ∀ s r peer,
    table (service.absorb s r peer) = (Signal.ofRequest r peer).elim (table s) (table s).heed
  table_tick : ∀ s which, table (tick s which) = if counts which then (table s).tick.1 else table s

namespace Registrar

variable {σ τ : Type}

def step (g : Registrar σ τ) (s : σ) : ServiceEvent τ → σ
  | .datagram bytes peer =>
    match g.service.absorbMessage s bytes peer with
    | .ok s => s
    | .error _ => s
  | .message bytes peer => (g.service.answerMessage s bytes peer).1
  | .tick which => g.tick s which

def after (g : Registrar σ τ) (s : σ) (evs : List (ServiceEvent τ)) : σ := evs.foldl g.step s

def signal? (g : Registrar σ τ) : ServiceEvent τ → Option Signal
  | .datagram bytes peer => Signal.ofDatagram bytes peer
  | .message _ _ => none
  | .tick which => if g.counts which then some .tick else none

def signals (g : Registrar σ τ) (evs : List (ServiceEvent τ)) : List Signal :=
  evs.filterMap g.signal?

variable (g : Registrar σ τ)

theorem table_step (s : σ) (ev : ServiceEvent τ) :
    g.table (g.step s ev) = (g.signal? ev).elim (g.table s) (g.table s).heed := by
  cases ev with
  | datagram bytes peer =>
    rw [step, signal?, Signal.ofDatagram, Service.absorbMessage]
    cases Request.parse bytes with
    | error e => rfl
    | ok r => exact g.table_absorb s r peer
  | message bytes peer =>
    rw [step, Service.answerMessage]
    cases Request.parse bytes with
    | error e => rfl
    | ok r => exact g.table_answer s r peer
  | tick which =>
    rw [step, g.table_tick, signal?]
    cases g.counts which <;> rfl

theorem after_snoc (s : σ) (evs : List (ServiceEvent τ)) (ev : ServiceEvent τ) :
    g.after s (evs ++ [ev]) = g.step (g.after s evs) ev := by
  rw [after, List.foldl_append]
  rfl

theorem table_after (s : σ) (evs : List (ServiceEvent τ)) :
    g.table (g.after s evs) = (g.signals evs).foldl PeerTable.heed (g.table s) := by
  induction evs generalizing s with
  | nil => rfl
  | cons ev evs ih =>
    rw [after, List.foldl_cons, ← after, ih, table_step]
    cases hsignal : g.signal? ev <;> simp [signals, hsignal]

/-- Only endpoints without a zone ever stand. -/
theorem zone_of_standing {ttl : Nat} {evs : List (ServiceEvent τ)} {e : Endpoint}
    (h : Standing ttl (g.signals evs) e) : e.zone = 0 := by
  obtain ⟨before, later, hsignals, _⟩ := h
  have hmem : .connect e ∈ g.signals evs := by
    rw [hsignals]
    exact List.mem_append_right _ List.mem_cons_self
  obtain ⟨ev, _, hsignal⟩ := List.mem_filterMap.mp hmem
  cases ev with
  | datagram bytes peer => exact Signal.zone_of_ofDatagram hsignal
  | message bytes peer => cases hsignal
  | tick which =>
    rw [signal?] at hsignal
    split at hsignal <;> cases hsignal

variable {s : σ} {name : String} {ttl buckets : Nat}

theorem follows_after (hempty : g.table s = .empty name ttl buckets)
    (evs : List (ServiceEvent τ)) :
    (g.table (g.after s evs)).Follows (max ttl 1) (g.signals evs) := by
  rw [table_after, hempty]
  exact (PeerTable.follows_empty name ttl buckets).hear (by omega) (g.signals evs)

/-- After a run, the table holds the endpoints that stand. Neither an event that is no signal nor
the disconnection of an endpoint that the table does not hold changes anything in it. -/
structure Keeps (ttl : Nat) (s : σ) (evs : List (ServiceEvent τ)) : Prop where
  contains : ∀ e, (g.table (g.after s evs)).contains e = true ↔
    Standing (max ttl 1) (g.signals evs) e
  unchanged : ∀ ev, g.signal? ev = none ∨ (∃ e, g.signal? ev = some (.disconnect e) ∧
    (g.table (g.after s evs)).contains e = false) →
      g.table (g.step (g.after s evs) ev) = g.table (g.after s evs)

theorem keeps (hempty : g.table s = .empty name ttl buckets) (evs : List (ServiceEvent τ)) :
    g.Keeps ttl s evs := by
  have hfollows := g.follows_after hempty evs
  constructor
  · intro e
    rw [hfollows.contains, hfollows.endpoints, mem_roster_endpoints]
  · rintro ev (hnone | ⟨e, hsignal, hunknown⟩)
    · rw [table_step, hnone]
      rfl
    · rw [table_step, hsignal]
      exact hfollows.heed_disconnect_unknown hunknown

end Registrar

namespace Directory

def registrar : Registrar Directory Unit where
  service := service
  tick d _ := d.tick
  table := peers
  counts _ := true
  table_answer := by
    intro d r peer
    cases r with
    | discover num port => cases port <;> rfl
    | _ => rfl
  table_absorb := by
    intro d r peer
    cases r with
    | connect text =>
      simp only [service, absorb, PeerTable.registerAt, Signal.ofRequest]
      cases Text.port? text <;> rfl
    | disconnect text =>
      simp only [service, absorb, PeerTable.unregisterAt, Signal.ofRequest]
      cases Text.port? text with
      | none => rfl
      | some port =>
        simp only [Option.map_some, Option.elim_some, PeerTable.heed]
        cases d.peers.unregister { ip := peer.ip, port } <;> rfl
    | _ => rfl
  table_tick _ _ := rfl

/-- The replies of a directory are about a roster: whoever reads them has so many of its endpoints,
all but one's own where that is asked for, and their number if a machine word holds it. -/
structure Reports (d : Directory) (roster : List Endpoint) : Prop where
  list : ∀ num peer, ∃ reply, d.answer (.list num) peer = (d, some reply) ∧
    reply.Lists (roster.take num)
  discover : ∀ num port peer, ∃ reply,
    d.answer (.discover num (some port)) peer = (d, some reply) ∧
      reply.Lists ((roster.filter fun e => e ≠ { ip := peer.ip, port }).take num)
  info : roster.length < UInt64.size → ∀ peer, ∃ reply, d.answer .info peer = (d, some reply) ∧
    reply.Tells "name" (.text name) ∧ reply.Tells "routers" (.number (.integer roster.length))

theorem faithful_info {d : Directory} (h : d.peers.size < UInt64.size) :
    Json.Faithful Json.depthLimit d.info := by
  refine Json.faithful_ofMembers fun m hm => ?_
  simp only [List.mem_cons, List.not_mem_nil, or_false] at hm
  rcases hm with rfl | rfl
  · exact Json.faithful_text _ _
  · exact Json.faithful_ofNat _ h

theorem reports {d : Directory} (h : d.peers.Keyed) : d.Reports d.peers.endpoints := by
  constructor
  · intro num peer
    exact ⟨_, rfl, h.lists_listJson num⟩
  · intro num port peer
    exact ⟨_, rfl, h.lists_listJson_except num { ip := peer.ip, port }⟩
  · intro hfits peer
    rw [h.sound.length_endpoints] at hfits ⊢
    have hfaithful := faithful_info hfits
    refine ⟨_, rfl, Response.tells_ofJson hfaithful ?_, Response.tells_ofJson hfaithful ?_⟩ <;>
      simp [Directory.info, Json.ofMembers, Json.member?, Fields.get?_ofList, Fields.get?_cons,
        Json.ofNat]

end Directory

namespace Router

theorem clients_flood (r : Router) (e : Envelope) (source : Option IpAddress) :
    (r.flood e source).1.relay.clients = r.relay.clients := by
  obtain ⟨relay, sent, outcome, hhandle, hverdict⟩ := r.relay.handle_verdict r.network e source
  rw [flood, hhandle]
  exact hverdict.peers.2

def registrar : Registrar Router Relay.Table where
  service := service
  tick := tick
  table r := r.relay.clients
  counts which := which == .clients
  table_answer := by
    intro r q peer
    cases q with
    | broadcast e => exact r.clients_flood e (some peer.ip)
    | discover num port =>
      simp only [service, answer]
      split <;> rfl
    | _ => rfl
  table_absorb := by
    intro r q peer
    cases q with
    | connect text =>
      simp only [service, absorb, PeerTable.registerAt, Signal.ofRequest]
      cases Text.port? text <;> rfl
    | disconnect text =>
      simp only [service, absorb, PeerTable.unregisterAt, Signal.ofRequest]
      cases Text.port? text with
      | none => rfl
      | some port =>
        simp only [Option.map_some, Option.elim_some, PeerTable.heed]
        cases r.relay.clients.unregister { ip := peer.ip, port } <;> rfl
    | broadcast e => exact r.clients_flood e (some peer.ip)
    | ping port =>
      cases port with
      | none => rfl
      | some port =>
        simp only [service, absorb, pong]
        split <;> rfl
    | _ => rfl
  table_tick := by
    intro r which
    cases which <;> rfl

end Router

/-- Directories and routers that start with an empty table: whatever comes to them, the table holds
the endpoints that stand by the signals heard, and the replies of a directory are read as these in
the order in which they connected last. None of them has a zone, so that records lose nothing. -/
theorem registrations_follow_signals (name : String) (ttl buckets : Nat) :
    (∀ evs, Directory.registrar.Keeps ttl { peers := .empty name ttl buckets } evs ∧
      ∃ roster : List Endpoint,
        (∀ e, e ∈ roster ↔ Standing (max ttl 1) (Directory.registrar.signals evs) e) ∧
        (∀ e ∈ roster, e.zone = 0) ∧
        roster.Pairwise (ConnectedBefore (Directory.registrar.signals evs)) ∧
        (Directory.registrar.after { peers := .empty name ttl buckets } evs).Reports roster) ∧
    ∀ (r : Router) evs,
      Router.registrar.Keeps ttl (r.setClients (.empty name ttl buckets)) evs := by
  constructor
  · intro evs
    let d := Directory.registrar.after { peers := .empty name ttl buckets } evs
    have hfollows : d.peers.Follows (max ttl 1) (Directory.registrar.signals evs) :=
      Directory.registrar.follows_after rfl evs
    have hkeeps := Directory.registrar.keeps (s := { peers := .empty name ttl buckets }) rfl evs
    have hmem : ∀ e, e ∈ d.peers.endpoints ↔
        Standing (max ttl 1) (Directory.registrar.signals evs) e :=
      fun e => (hfollows.contains e).symm.trans (hkeeps.contains e)
    refine ⟨hkeeps, _, hmem, fun e he => ?_, ?_, Directory.reports hfollows.keyed⟩
    · exact Directory.registrar.zone_of_standing ((hmem e).mp he)
    · rw [hfollows.endpoints, List.pairwise_map]
      exact roster_ordered
  · intro r evs
    exact Router.registrar.keeps rfl evs

end FloodMesh
