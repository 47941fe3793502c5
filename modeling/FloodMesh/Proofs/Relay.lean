import FloodMesh.Proofs.Peers
import FloodMesh.Proofs.Sightings
import FloodMesh.Relay

/-!
# FloodMesh.Proofs.Relay

One relay and one envelope. `Verdict` says all that can happen: the envelope is at its limit, is a
duplicate, would not fit, or goes on as a copy to each target in reach.
-/

namespace FloodMesh

/-- The targets in reach get a copy each, in their order. -/
theorem Outlet.sendAll_eq (o : Outlet) (n : Network) (payload : Bytes) (targets : List Endpoint) :
    o.sendAll n payload targets =
      (⟨n.queue ++ (targets.filter fun t => !o.blocked.contains t).map
          fun t => { source := o.address, target := t, payload }⟩,
        (targets.filter fun t => !o.blocked.contains t).length) := by
  induction targets generalizing n with
  | nil => simp [sendAll]
  | cons t targets ih =>
    by_cases hblocked : t ∈ o.blocked
    · simp [sendAll, send, hblocked, ih]
    · simp [sendAll, send, hblocked, ih, Network.push]

/-- The targets that an outlet reaches. -/
def Outlet.reach (o : Outlet) (targets : List Endpoint) : List Endpoint :=
  targets.filter fun t => !o.blocked.contains t

theorem Outlet.mem_reach {o : Outlet} {targets : List Endpoint} {t : Endpoint} :
    t ∈ o.reach targets ↔ t ∈ targets ∧ t ∉ o.blocked := by
  simp [reach]

namespace Relay

/-- The envelope as it goes on. -/
def stamp (r : Relay) (e : Envelope) : Envelope :=
  { e with hops := e.hops + 1, hopPort := r.listenPort }

/-- Where an envelope goes on to: routers not on the address it came from, and clients. -/
def targets (r : Relay) (source : Option IpAddress) : List Endpoint :=
  r.routers.endpointsExcluding source ++ r.clients.endpointsExcluding none

def copies (r : Relay) (e : Envelope) (source : Option IpAddress) : List Datagram :=
  ((r.targets source).filter fun t => !r.outlet.blocked.contains t).map fun t =>
    { source := r.outlet.address, target := t, payload := (r.stamp e).encode }

def remember (r : Relay) (id : String) : Relay := { r with messages := (r.messages.see id).1 }

def knows (r : Relay) (id : String) : Bool := r.messages.leases.contains id

/-- All that can happen to an envelope: the relay after it, what is sent, and the outcome. -/
inductive Verdict (r : Relay) (e : Envelope) (source : Option IpAddress) :
    Relay → List Datagram → FloodOutcome → Prop
  | hopLimitReached (hhops : r.hopLimit ≤ e.hops) : Verdict r e source r [] .hopLimitReached
  | duplicate (hhops : e.hops < r.hopLimit) (hknows : r.knows e.id = true) :
      Verdict r e source r [] .duplicate
  | tooLarge (hhops : e.hops < r.hopLimit) (hknows : r.knows e.id = false)
      (hsize : maxMessageSize < (r.stamp e).encode.length) :
      Verdict r e source (r.remember e.id) [] (.tooLarge (r.stamp e).encode.length)
  | forwarded (hhops : e.hops < r.hopLimit) (hknows : r.knows e.id = false)
      (hsize : (r.stamp e).encode.length ≤ maxMessageSize) (routers clients : Nat) :
      Verdict r e source (r.remember e.id) (r.copies e source) (.forwarded routers clients)

/-- An envelope below its limit, of an id not in memory, goes on if it fits. -/
theorem Verdict.is_forwarded {r r' : Relay} {e : Envelope} {source : Option IpAddress}
    {sent : List Datagram} {outcome : FloodOutcome} (h : r.Verdict e source r' sent outcome)
    (hhops : e.hops < r.hopLimit) (hknows : r.knows e.id = false)
    (hsize : (r.stamp e).encode.length ≤ maxMessageSize) :
    r' = r.remember e.id ∧ sent = r.copies e source ∧
      ∃ routers clients, outcome = .forwarded routers clients := by
  cases h with
  | hopLimitReached hlimit => omega
  | duplicate _ hknown =>
    rw [hknows] at hknown
    cases hknown
  | tooLarge _ _ hlarge => omega
  | forwarded _ _ _ routers clients => exact ⟨rfl, rfl, routers, clients, rfl⟩

/-- An envelope at its limit, or of an id in memory, goes no further. -/
theorem Verdict.is_stopped {r r' : Relay} {e : Envelope} {source : Option IpAddress}
    {sent : List Datagram} {outcome : FloodOutcome} (h : r.Verdict e source r' sent outcome)
    (hstops : r.hopLimit ≤ e.hops ∨ r.knows e.id = true) :
    r' = r ∧ sent = [] ∧ ∀ routers clients, outcome ≠ .forwarded routers clients := by
  have hnew : e.hops < r.hopLimit → r.knows e.id = false → False := by
    intro hhops hunknown
    rcases hstops with hlimit | hknown
    · omega
    · rw [hunknown] at hknown
      cases hknown
  cases h with
  | hopLimitReached => exact ⟨rfl, rfl, fun _ _ h => nomatch h⟩
  | duplicate => exact ⟨rfl, rfl, fun _ _ h => nomatch h⟩
  | tooLarge hhops hunknown => exact (hnew hhops hunknown).elim
  | forwarded hhops hunknown => exact (hnew hhops hunknown).elim

/-- No envelope changes who is known. -/
theorem Verdict.peers {r r' : Relay} {e : Envelope} {source : Option IpAddress}
    {sent : List Datagram} {outcome : FloodOutcome} (h : r.Verdict e source r' sent outcome) :
    r'.routers = r.routers ∧ r'.clients = r.clients := by
  cases h <;> exact ⟨rfl, rfl⟩

theorem Verdict.of_forwarded {r r' : Relay} {e : Envelope} {source : Option IpAddress}
    {sent : List Datagram} {routers clients : Nat}
    (h : r.Verdict e source r' sent (.forwarded routers clients)) :
    e.hops < r.hopLimit ∧ r.knows e.id = false ∧ r' = r.remember e.id ∧
      sent = r.copies e source := by
  cases h with
  | forwarded hhops hknows => exact ⟨hhops, hknows, rfl, rfl⟩

theorem Verdict.of_tooLarge {r r' : Relay} {e : Envelope} {source : Option IpAddress}
    {sent : List Datagram} {size : Nat} (h : r.Verdict e source r' sent (.tooLarge size)) :
    e.hops < r.hopLimit ∧ maxMessageSize < (r.stamp e).encode.length := by
  cases h with
  | tooLarge hhops _ hsize => exact ⟨hhops, hsize⟩

theorem mem_targets {r : Relay} {source : Option IpAddress} {t : Endpoint}
    (h : t ∈ r.targets source) :
    t ∈ r.routers.endpoints ∨ t ∈ r.clients.endpoints :=
  (List.mem_append.mp h).imp List.mem_of_mem_filter List.mem_of_mem_filter

theorem Verdict.of_mem_sent {r r' : Relay} {e : Envelope} {source : Option IpAddress}
    {sent : List Datagram} {outcome : FloodOutcome} (h : r.Verdict e source r' sent outcome)
    {d : Datagram} (hd : d ∈ sent) : e.hops < r.hopLimit ∧ ∃ t ∈ r.targets source,
      d = { source := r.outlet.address, target := t, payload := (r.stamp e).encode } := by
  cases h with
  | hopLimitReached => cases hd
  | duplicate => cases hd
  | tooLarge => cases hd
  | forwarded hhops =>
    obtain ⟨t, ht, rfl⟩ := List.mem_map.mp hd
    exact ⟨hhops, t, List.mem_of_mem_filter ht, rfl⟩

/-- An envelope below its limit, of an id not in memory, that fits: what comes of it. -/
theorem handle_fits {r : Relay} {e : Envelope} (n : Network) (source : Option IpAddress)
    (hhops : e.hops < r.hopLimit) (hknows : r.knows e.id = false)
    (hsize : (r.stamp e).encode.length ≤ maxMessageSize) :
    r.handle n e source = (r.remember e.id, ⟨n.queue ++ r.copies e source⟩,
      .forwarded (r.outlet.reach (r.routers.endpointsExcluding source)).length
        (r.outlet.reach (r.clients.endpointsExcluding none)).length) := by
  have hanswer : (r.messages.see e.id).2 = false := (r.messages.see_answer e.id).trans hknows
  have hnew : r.messages.see e.id = ((r.messages.see e.id).1, false) := by rw [← hanswer]
  rw [handle, screen, if_neg (Nat.not_le_of_lt hhops), hnew]
  show (if maxMessageSize < (r.stamp e).encode.length then _ else _) = _
  rw [if_neg (Nat.not_lt.mpr hsize)]
  simp only [Outlet.sendAll_eq, copies, targets, List.filter_append, List.map_append,
    List.append_assoc]
  rfl

/-- Handling an envelope does one of these things. -/
theorem handle_verdict (r : Relay) (n : Network) (e : Envelope) (source : Option IpAddress) :
    ∃ r' sent outcome, r.handle n e source = (r', ⟨n.queue ++ sent⟩, outcome) ∧
      r.Verdict e source r' sent outcome := by
  have hqueue : n = ⟨n.queue ++ []⟩ := by rw [List.append_nil]
  by_cases hhops : r.hopLimit ≤ e.hops
  · rw [handle, screen, if_pos hhops]
    exact ⟨r, [], _, by rw [← hqueue], .hopLimitReached hhops⟩
  · have hlt : e.hops < r.hopLimit := Nat.lt_of_not_le hhops
    cases hknows : r.knows e.id with
    | true =>
      rw [handle, screen, if_neg hhops, Sightings.see_of_contains hknows]
      exact ⟨r, [], _, by rw [← hqueue]; rfl, .duplicate hlt hknows⟩
    | false =>
      by_cases hlarge : maxMessageSize < (r.stamp e).encode.length
      · have hanswer : (r.messages.see e.id).2 = false :=
          (r.messages.see_answer e.id).trans hknows
        have hnew : r.messages.see e.id = ((r.messages.see e.id).1, false) := by rw [← hanswer]
        rw [handle, screen, if_neg hhops, hnew]
        refine ⟨r.remember e.id, [], _, ?_, .tooLarge hlt hknows hlarge⟩
        show (if maxMessageSize < (r.stamp e).encode.length then _ else _) = _
        rw [if_pos hlarge, ← hqueue]
        rfl
      · have hsize : (r.stamp e).encode.length ≤ maxMessageSize := Nat.le_of_not_lt hlarge
        exact ⟨_, _, _, handle_fits n source hlt hknows hsize, .forwarded hlt hknows hsize _ _⟩

theorem hopLimit_tick (r : Relay) (table : Table) : (r.ticks table 1).1.hopLimit = r.hopLimit := by
  cases table <;> rfl

structure Sound (r : Relay) : Prop where
  messages : r.messages.Sound
  routers : r.routers.Sound
  clients : r.clients.Sound

namespace Sound

variable {r : Relay}

theorem remember (h : Sound r) (id : String) : Sound (r.remember id) :=
  ⟨h.messages.see id, h.routers, h.clients⟩

theorem knows_remember (h : Sound r) (id other : String) :
    (r.remember id).knows other = (id == other || r.knows other) :=
  h.messages.contains_see id other

theorem verdict (h : Sound r) {r' : Relay} {e : Envelope} {source : Option IpAddress}
    {sent : List Datagram} {outcome : FloodOutcome} (hverdict : r.Verdict e source r' sent outcome) :
    Sound r' := by
  cases hverdict with
  | hopLimitReached => exact h
  | duplicate => exact h
  | tooLarge => exact h.remember e.id
  | forwarded => exact h.remember e.id

theorem tick (h : Sound r) (table : Table) : Sound (r.ticks table 1).1 := by
  cases table with
  | routers => exact ⟨h.messages, h.routers.tick.1, h.clients⟩
  | clients => exact ⟨h.messages, h.routers, h.clients.tick.1⟩
  | messages => exact ⟨h.messages.tick, h.routers, h.clients⟩

/-- No tick adds a peer. -/
theorem peers_tick_le (h : Sound r) (table : Table) :
    (r.ticks table 1).1.routers.size + (r.ticks table 1).1.clients.size ≤
      r.routers.size + r.clients.size := by
  cases table with
  | routers => exact Nat.add_le_add_right h.routers.size_tick_le _
  | clients => exact Nat.add_le_add_left h.clients.size_tick_le _
  | messages => exact Nat.le_refl _

/-- A forwarded envelope takes no more datagrams than there are peers. -/
theorem length_copies (h : Sound r) (e : Envelope) (source : Option IpAddress) :
    (r.copies e source).length ≤ r.routers.size + r.clients.size := by
  have hrouters := List.length_filter_le (fun e => some e.ip != source) r.routers.endpoints
  have hclients := List.length_filter_le (fun e => some e.ip != none) r.clients.endpoints
  have hreach := List.length_filter_le (fun t => !r.outlet.blocked.contains t) (r.targets source)
  rw [← h.routers.length_endpoints, ← h.clients.length_endpoints, copies, List.length_map]
  simp only [targets, PeerTable.endpointsExcluding, List.length_append] at hreach ⊢
  omega

end Sound

end Relay
end FloodMesh
