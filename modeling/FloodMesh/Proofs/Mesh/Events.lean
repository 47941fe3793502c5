import FloodMesh.Mesh
import FloodMesh.Proofs.Relay

/-!
# FloodMesh.Proofs.Mesh.Events

Whatever can happen to a mesh, one event after another and in any order: relays originate, datagrams
in flight are delivered, lost or duplicated, tables tick, and their contents are changed from
outside. `perform_originate` and `perform_deliver` say what the two events do in which a relay
handles an envelope.
-/

namespace FloodMesh

/-- What can happen to a mesh. A datagram in flight is named by its place in the queue. -/
inductive MeshEvent
  | originate (place : Nat) (envelope : Envelope)
  | deliver (n : Nat)
  | lose (n : Nat)
  | duplicate (n : Nat)
  | tick (place : Nat) (table : Relay.Table)
  /-- The memory of messages is cleared. -/
  | forget (place : Nat)
  /-- The tables of peers are changed to others. -/
  | rewire (place : Nat) (routers clients : PeerTable)

/-- What an observer sees of a relay that handles an envelope. -/
structure Handling where
  place : Nat
  /-- The relay before. -/
  relay : Relay
  envelope : Envelope
  source : Option IpAddress
  outcome : FloodOutcome
  sent : List Datagram

/-- A mesh after an event. -/
structure MeshStep where
  mesh : Mesh
  /-- The datagram that has left the queue for its target. -/
  delivered : Option Datagram := none
  handling : Option Handling := none

namespace MeshStep

def sent (s : MeshStep) : List Datagram := (s.handling.map (·.sent)).getD []

end MeshStep

namespace Mesh

/-- The handling of an envelope, from the meshes before and after it. -/
def observe (before after : Mesh) (place : Nat) (envelope : Envelope) (source : Option IpAddress)
    (outcome : FloodOutcome) : Option Handling :=
  before.relays[place]?.map fun relay =>
    { place, relay, envelope, source, outcome
      sent := after.network.queue.drop before.network.queue.length }

/-- Carry out an event. -/
def perform (m : Mesh) : MeshEvent → MeshStep
  | .originate i e =>
    let (m', outcome) := m.handleAt i e none
    { mesh := m', handling := outcome.bind (m.observe m' i e none) }
  | .deliver n =>
    match m.network.queue[n]? with
    | none => { mesh := m }
    | some d =>
      let m := { m with network := ⟨m.network.queue.eraseIdx n⟩ }
      let (m', delivery) := m.deliver d
      { mesh := m', delivered := some d
        handling := match m.indexOf? d.target, delivery with
          | some i, .relayed e outcome => m.observe m' i e (some d.source.ip) outcome
          | _, _ => none }
  | .lose n => { mesh := { m with network := ⟨m.network.queue.eraseIdx n⟩ } }
  | .duplicate n => { mesh := { m with network := ⟨m.network.queue ++ m.network.queue[n]?.toList⟩ } }
  | .tick i table => { mesh := m.adjust i fun r => (r.ticks table 1).1 }
  | .forget i => { mesh := m.adjust i fun r => { r with messages := r.messages.clear } }
  | .rewire i routers clients => { mesh := m.adjust i fun r => { r with routers, clients } }

def after (m : Mesh) : List MeshEvent → Mesh
  | [] => m
  | ev :: evs => (m.perform ev).mesh.after evs

def steps (m : Mesh) : List MeshEvent → List MeshStep
  | [] => []
  | ev :: evs => m.perform ev :: (m.perform ev).mesh.steps evs

def handlings (m : Mesh) (evs : List MeshEvent) : List Handling :=
  (m.steps evs).filterMap (·.handling)

def deliveries (m : Mesh) (evs : List MeshEvent) : List Datagram :=
  (m.steps evs).filterMap (·.delivered)

theorem after_append (m : Mesh) (evs evs' : List MeshEvent) :
    m.after (evs ++ evs') = (m.after evs).after evs' := by
  induction evs generalizing m with
  | nil => rfl
  | cons ev evs ih => exact ih _

theorem steps_append (m : Mesh) (evs evs' : List MeshEvent) :
    m.steps (evs ++ evs') = m.steps evs ++ (m.after evs).steps evs' := by
  induction evs generalizing m with
  | nil => rfl
  | cons ev evs ih => exact congrArg _ (ih _)

theorem indexOf?_eq_some {m : Mesh} {t : Endpoint} {i : Nat} (h : m.indexOf? t = some i) :
    ∃ r, m.relays[i]? = some r ∧ r.outlet.address = t := by
  obtain ⟨hlt, haddress, _⟩ := List.findIdx?_eq_some_iff_getElem.mp h
  exact ⟨m.relays[i], List.getElem?_eq_getElem hlt, eq_of_beq haddress⟩

def handled (m : Mesh) (queue : List Datagram) (i : Nat) (r : Relay) (sent : List Datagram) : Mesh :=
  { relays := m.relays.set i r, network := ⟨queue ++ sent⟩ }

theorem handleAt_verdict {m : Mesh} {i : Nat} {r : Relay} (h : m.relays[i]? = some r) (e : Envelope)
    (source : Option IpAddress) : ∃ r' sent outcome, r.Verdict e source r' sent outcome ∧
      m.handleAt i e source = (m.handled m.network.queue i r' sent, some outcome) ∧
      m.observe (m.handled m.network.queue i r' sent) i e source outcome =
        some { place := i, relay := r, envelope := e, source, outcome, sent } := by
  obtain ⟨r', sent, outcome, hhandle, hverdict⟩ := r.handle_verdict m.network e source
  refine ⟨r', sent, outcome, hverdict, ?_, ?_⟩
  · simp only [handleAt, h, hhandle]
    rfl
  · simp [observe, h, handled]

/-- A relay's own envelope is handled by the relay, if there is one. -/
theorem perform_originate (m : Mesh) (i : Nat) (e : Envelope) :
    (m.relays[i]? = none ∧ m.perform (.originate i e) = { mesh := m }) ∨
    ∃ r r' sent outcome, m.relays[i]? = some r ∧ r.Verdict e none r' sent outcome ∧
      m.perform (.originate i e) =
        { mesh := m.handled m.network.queue i r' sent
          handling := some
            { place := i, relay := r, envelope := e, source := none, outcome, sent } } := by
  cases hr : m.relays[i]? with
  | none => exact .inl ⟨rfl, by simp [perform, handleAt, hr]⟩
  | some r =>
    obtain ⟨r', sent, outcome, hverdict, hhandle, hobserve⟩ := handleAt_verdict hr e none
    refine .inr ⟨r, r', sent, outcome, rfl, hverdict, ?_⟩
    simp only [perform, hhandle, Option.bind_some, hobserve]

def without (m : Mesh) (n : Nat) : Mesh := { m with network := ⟨m.network.queue.eraseIdx n⟩ }

theorem deliver_relayed {m : Mesh} {d : Datagram} {e : Envelope} {i : Nat}
    (hparse : Request.parse d.payload = .ok (.broadcast e)) (hi : m.indexOf? d.target = some i) :
    ∃ r r' sent outcome, m.relays[i]? = some r ∧
      r.Verdict e (some d.source.ip) r' sent outcome ∧
      m.deliver d = (m.handled m.network.queue i r' sent, .relayed e outcome) ∧
      m.observe (m.handled m.network.queue i r' sent) i e (some d.source.ip) outcome =
        some
          { place := i, relay := r, envelope := e, source := some d.source.ip, outcome, sent } := by
  obtain ⟨r, hr, _⟩ := indexOf?_eq_some hi
  obtain ⟨r', sent, outcome, hverdict, hhandle, hobserve⟩ :=
    handleAt_verdict hr e (some d.source.ip)
  refine ⟨r, r', sent, outcome, hr, hverdict, ?_, hobserve⟩
  simp only [deliver, hparse, hi, hhandle]

theorem deliver_idle {m : Mesh} {d : Datagram}
    (h : ∀ e, Request.parse d.payload = .ok (.broadcast e) → m.indexOf? d.target = none) :
    (m.deliver d).1 = m ∧ ∀ e outcome, (m.deliver d).2 ≠ .relayed e outcome := by
  rw [deliver]
  split
  · exact ⟨rfl, fun _ _ h => nomatch h⟩
  · rename_i e hparse
    rw [h e hparse]
    exact ⟨rfl, fun _ _ h => nomatch h⟩
  · exact ⟨rfl, fun _ _ h => nomatch h⟩

/-- A datagram that is delivered leaves the queue. Nothing else happens unless it is a broadcast for
a relay, which then handles it. -/
theorem perform_deliver (m : Mesh) {n : Nat} {d : Datagram} (h : m.network.queue[n]? = some d) :
    ((∀ e, Request.parse d.payload = .ok (.broadcast e) → m.indexOf? d.target = none) ∧
      m.perform (.deliver n) = { mesh := m.without n, delivered := some d }) ∨
    ∃ i e r r' sent outcome, m.indexOf? d.target = some i ∧
      Request.parse d.payload = .ok (.broadcast e) ∧ m.relays[i]? = some r ∧
      r.Verdict e (some d.source.ip) r' sent outcome ∧
      m.perform (.deliver n) =
        { mesh := m.handled (m.network.queue.eraseIdx n) i r' sent, delivered := some d
          handling := some
            { place := i, relay := r, envelope := e, source := some d.source.ip,
              outcome, sent } } := by
  by_cases hidle : ∀ e, Request.parse d.payload = .ok (.broadcast e) → m.indexOf? d.target = none
  · obtain ⟨hmesh, hdelivery⟩ := deliver_idle (m := m.without n) hidle
    refine .inl ⟨hidle, ?_⟩
    simp only [perform, h]
    refine congrArg₂ (fun mesh handling => MeshStep.mk mesh (some d) handling) hmesh ?_
    split
    · rename_i hrelayed
      exact absurd hrelayed (hdelivery _ _)
    · rfl
  · simp only [not_forall] at hidle
    obtain ⟨e, hparse, hsome⟩ := hidle
    obtain ⟨i, hi⟩ := Option.ne_none_iff_exists'.mp hsome
    obtain ⟨r, r', sent, outcome, hr, hverdict, hdeliver, hobserve⟩ :=
      deliver_relayed (m := m.without n) hparse hi
    refine .inr ⟨i, e, r, r', sent, outcome, hi, hparse, hr, hverdict, ?_⟩
    have hi' : indexOf? (m.without n) d.target = some i := hi
    simp only [without] at hdeliver hobserve hi'
    simp only [perform, h, hdeliver, hi', hobserve]
    rfl

theorem delivered_eq {m : Mesh} {n : Nat} {d : Datagram} (h : m.network.queue[n]? = some d) :
    (m.perform (.deliver n)).delivered = some d := by
  simp [perform, h]

theorem queue_originate (m : Mesh) (i : Nat) (e : Envelope) :
    (m.perform (.originate i e)).mesh.network.queue =
      m.network.queue ++ (m.perform (.originate i e)).sent := by
  rcases m.perform_originate i e with ⟨_, hperform⟩ | ⟨_, _, _, _, _, _, hperform⟩
  · rw [hperform]
    simp [MeshStep.sent]
  · rw [hperform]
    rfl

theorem queue_deliver {m : Mesh} {d : Datagram} {rest : List Datagram}
    (h : m.network.queue = d :: rest) :
    (m.perform (.deliver 0)).mesh.network.queue = rest ++ (m.perform (.deliver 0)).sent := by
  have hd : m.network.queue[0]? = some d := by rw [h]; rfl
  rcases m.perform_deliver hd with ⟨_, hperform⟩ | ⟨_, _, _, _, _, _, _, _, _, _, hperform⟩
  · rw [hperform]
    simp [without, MeshStep.sent, h]
  · rw [hperform]
    simp [handled, MeshStep.sent, h]

/-! ## Delivering in order -/

/-- Deliver so many datagrams, oldest first. -/
def inOrder (n : Nat) : List MeshEvent := List.replicate n (.deliver 0)

theorem inOrder_succ (n : Nat) : inOrder (n + 1) = inOrder n ++ [.deliver 0] :=
  List.replicate_succ'

/-- A run is nothing but deliveries in order. -/
theorem run_eq (m : Mesh) (n : Nat) :
    (m.run n).1 = m.after (inOrder n) ∧ (m.run n).2.map (·.1) = m.deliveries (inOrder n) := by
  induction n generalizing m with
  | zero => exact ⟨rfl, rfl⟩
  | succ n ih =>
    cases hqueue : m.network.queue with
    | nil =>
      have hidle : m.perform (.deliver 0) = { mesh := m } := by simp [perform, hqueue]
      obtain ⟨hmesh, hlog⟩ := ih m
      have hrun : ∀ k, m.run k = (m, []) := by
        intro k
        cases k with
        | zero => rfl
        | succ k => simp [run, Network.pop?, hqueue]
      rw [hrun] at hmesh hlog
      rw [hrun]
      simp only [inOrder, deliveries, List.replicate_succ, after, steps, hidle, List.filterMap_cons]
      exact ⟨hmesh, hlog⟩
    | cons d rest =>
      have hperform : (m.perform (.deliver 0)).mesh = ({ m with network := ⟨rest⟩ }.deliver d).1 ∧
          (m.perform (.deliver 0)).delivered = some d := by
        simp [perform, hqueue]
      obtain ⟨hmesh, hlog⟩ := ih ({ m with network := ⟨rest⟩ }.deliver d).1
      simp only [inOrder, deliveries, List.replicate_succ, after, steps, List.filterMap_cons,
        hperform.1, hperform.2, run, Network.pop?, hqueue, List.map_cons]
      exact ⟨hmesh, congrArg _ hlog⟩

end Mesh

/-! ## What an event can do -/

/-- What an event can do to the relay at a place. -/
inductive Relay.Change (place : Nat) (r : Relay) : MeshEvent → Relay → Prop
  | none (ev : MeshEvent) : Change place r ev r
  | remember (ev : MeshEvent) (id : String) : Change place r ev (r.remember id)
  | tick (table : Table) : Change place r (.tick place table) (r.ticks table 1).1
  | forget : Change place r (.forget place) { r with messages := r.messages.clear }
  | rewire (routers clients : PeerTable) :
      Change place r (.rewire place routers clients) { r with routers, clients }

theorem Relay.Verdict.change {r r' : Relay} {e : Envelope} {source : Option IpAddress}
    {sent : List Datagram} {outcome : FloodOutcome} (h : r.Verdict e source r' sent outcome)
    (place : Nat) (ev : MeshEvent) : r.Change place ev r' := by
  cases h with
  | hopLimitReached => exact .none ev
  | duplicate => exact .none ev
  | tooLarge => exact .remember ev e.id
  | forwarded => exact .remember ev e.id

/-- Where a relay stands, what it writes into envelopes and how far it lets them go stay the same. -/
theorem Relay.Change.fixed {place : Nat} {r r' : Relay} {ev : MeshEvent}
    (h : r.Change place ev r') :
    r'.listenPort = r.listenPort ∧ r'.hopLimit = r.hopLimit ∧ r'.outlet = r.outlet := by
  cases h with
  | tick table => cases table <;> exact ⟨rfl, rfl, rfl⟩
  | _ => exact ⟨rfl, rfl, rfl⟩

namespace Mesh

/-- Why an envelope is handled: it originates at a relay, or a datagram with it arrives there. -/
inductive Cause (m : Mesh) : MeshEvent → Option Datagram → Nat → Envelope → Option IpAddress → Prop
  | origin (i : Nat) (e : Envelope) : Cause m (.originate i e) none i e none
  | arrival {ev : MeshEvent} {d : Datagram} {i : Nat} {e : Envelope} (hd : d ∈ m.network.queue)
      (hparse : Request.parse d.payload = .ok (.broadcast e)) (hi : m.indexOf? d.target = some i) :
      Cause m ev (some d) i e (some d.source.ip)

theorem Cause.of {m : Mesh} {ev : MeshEvent} {delivered : Option Datagram} {i : Nat} {e : Envelope}
    {source : Option IpAddress} (h : Cause m ev delivered i e source) :
    (ev = .originate i e ∧ delivered = none ∧ source = none) ∨
    ∃ d ∈ m.network.queue, delivered = some d ∧ source = some d.source.ip ∧
      Request.parse d.payload = .ok (.broadcast e) ∧ m.indexOf? d.target = some i := by
  cases h with
  | origin => exact .inl ⟨rfl, rfl, rfl⟩
  | arrival hd hparse hi => exact .inr ⟨_, hd, rfl, rfl, hparse, hi⟩

/-- All that an event can do: a relay handles an envelope, or none does and the relays change in
their tables only. Nothing is in flight that was not, except what is sent. -/
inductive Effect (m : Mesh) (ev : MeshEvent) : MeshStep → Prop
  | handled {queue sent : List Datagram} {delivered : Option Datagram} {i : Nat} {e : Envelope}
      {source : Option IpAddress} {r r' : Relay} {outcome : FloodOutcome}
      (hqueue : ∀ d ∈ queue, d ∈ m.network.queue) (hcause : Cause m ev delivered i e source)
      (hr : m.relays[i]? = some r) (hverdict : r.Verdict e source r' sent outcome) :
      Effect m ev
        { mesh := m.handled queue i r' sent, delivered
          handling := some { place := i, relay := r, envelope := e, source, outcome, sent } }
  | unhandled {relays : List Relay} {queue : List Datagram} {delivered : Option Datagram}
      (hqueue : ∀ d ∈ queue, d ∈ m.network.queue) (hdelivered : ∀ d ∈ delivered, d ∈ m.network.queue)
      (hlength : relays.length = m.relays.length)
      (hrelays : ∀ (i : Nat) (r : Relay), m.relays[i]? = some r →
        ∃ r', relays[i]? = some r' ∧ r.Change i ev r') :
      Effect m ev { mesh := { relays, network := ⟨queue⟩ }, delivered }

variable {m : Mesh}

theorem Effect.idle {ev : MeshEvent} {queue : List Datagram} {delivered : Option Datagram}
    (hqueue : ∀ d ∈ queue, d ∈ m.network.queue) (hdelivered : ∀ d ∈ delivered, d ∈ m.network.queue) :
    Effect m ev { mesh := { m with network := ⟨queue⟩ }, delivered } :=
  .unhandled hqueue hdelivered rfl fun _ r hr => ⟨r, hr, .none ev⟩

theorem Effect.adjusted {ev : MeshEvent} {j : Nat} {f : Relay → Relay}
    (hchange : ∀ r, Relay.Change j r ev (f r)) : Effect m ev { mesh := m.adjust j f } := by
  refine .unhandled (fun _ hd => hd) (fun _ hd => nomatch hd) (List.length_modify ..)
    fun i r hr => ?_
  rw [List.getElem?_modify, hr]
  by_cases heq : j = i
  · exact ⟨f r, by simp [heq], heq ▸ hchange r⟩
  · exact ⟨r, by simp [heq], .none ev⟩

theorem perform_effect (m : Mesh) (ev : MeshEvent) : Effect m ev (m.perform ev) := by
  cases ev with
  | originate i e =>
    rcases m.perform_originate i e with ⟨_, hidle⟩ |
      ⟨r, r', sent, outcome, hr, hverdict, hperform⟩
    · rw [hidle]
      exact .idle (fun _ hd => hd) (fun _ hd => nomatch hd)
    · rw [hperform]
      exact .handled (fun _ hd => hd) (.origin i e) hr hverdict
  | deliver n =>
    cases hn : m.network.queue[n]? with
    | none =>
      simp only [perform, hn]
      exact .idle (fun _ hd => hd) (fun _ hd => nomatch hd)
    | some d =>
      have hd := List.mem_of_getElem? hn
      have hqueue : ∀ c ∈ m.network.queue.eraseIdx n, c ∈ m.network.queue :=
        fun _ hc => List.mem_of_mem_eraseIdx hc
      rcases m.perform_deliver hn with ⟨_, hidle⟩ |
        ⟨i, e, r, r', sent, outcome, hi, hparse, hr, hverdict, hperform⟩
      · rw [hidle]
        exact .idle hqueue fun c hc => Option.some.inj hc ▸ hd
      · rw [hperform]
        exact .handled hqueue (.arrival hd hparse hi) hr hverdict
  | lose n => exact .idle (fun _ hd => List.mem_of_mem_eraseIdx hd) (fun _ hd => nomatch hd)
  | duplicate n =>
    refine .idle (fun d hd => ?_) (fun _ hd => nomatch hd)
    rcases List.mem_append.mp hd with hd | hd
    · exact hd
    · exact List.mem_of_getElem? (Option.mem_toList.mp hd)
  | tick j table => exact .adjusted fun _ => .tick table
  | forget j => exact .adjusted fun _ => .forget
  | rewire j routers clients => exact .adjusted fun _ => .rewire routers clients

/-- A handling that was observed has a cause and is a verdict of the relay at its place. -/
theorem handling_verdict {ev : MeshEvent} {h : Handling} (hh : (m.perform ev).handling = some h) :
    Cause m ev (m.perform ev).delivered h.place h.envelope h.source ∧
      m.relays[h.place]? = some h.relay ∧
      ∃ r', h.relay.Verdict h.envelope h.source r' h.sent h.outcome ∧
        (m.perform ev).mesh.relays = m.relays.set h.place r' := by
  have heffect := m.perform_effect ev
  generalize m.perform ev = s at heffect hh ⊢
  cases heffect with
  | handled _ hcause hr hverdict =>
    cases hh
    exact ⟨hcause, hr, _, hverdict, rfl⟩
  | unhandled => cases hh

theorem mem_queue_perform {ev : MeshEvent} {d : Datagram}
    (hd : d ∈ (m.perform ev).mesh.network.queue) :
    d ∈ m.network.queue ∨ d ∈ (m.perform ev).sent := by
  have heffect := m.perform_effect ev
  generalize m.perform ev = s at heffect hd ⊢
  cases heffect with
  | handled hqueue => exact (List.mem_append.mp hd).imp_left (hqueue d)
  | unhandled hqueue => exact .inl (hqueue d hd)

theorem mem_queue_of_delivered {ev : MeshEvent} {d : Datagram}
    (hd : (m.perform ev).delivered = some d) : d ∈ m.network.queue := by
  have heffect := m.perform_effect ev
  generalize m.perform ev = s at heffect hd
  cases heffect with
  | handled _ hcause =>
    cases hcause with
    | origin => cases hd
    | arrival hmem =>
      cases hd
      exact hmem
  | unhandled _ hdelivered => exact hdelivered d hd

theorem length_perform (m : Mesh) (ev : MeshEvent) :
    (m.perform ev).mesh.relays.length = m.relays.length := by
  have heffect := m.perform_effect ev
  generalize m.perform ev = s at heffect
  cases heffect with
  | handled => exact List.length_set
  | unhandled _ _ hlength => exact hlength

/-- Through an event the relay at a place changes in one of the ways above. -/
theorem perform_change (ev : MeshEvent) {i : Nat} {r : Relay} (hr : m.relays[i]? = some r) :
    ∃ r', (m.perform ev).mesh.relays[i]? = some r' ∧ r.Change i ev r' := by
  have heffect := m.perform_effect ev
  generalize m.perform ev = s at heffect
  cases heffect with
  | @handled _ _ _ j _ _ t t' _ _ _ ht hverdict =>
    show ∃ r', (m.relays.set j t')[i]? = some r' ∧ r.Change i ev r'
    by_cases heq : j = i
    · subst heq
      rw [hr] at ht
      cases ht
      have hlt := (List.getElem?_eq_some_iff.mp hr).1
      exact ⟨t', by rw [List.getElem?_set_self hlt], hverdict.change j ev⟩
    · exact ⟨r, by rw [List.getElem?_set_ne heq, hr], .none ev⟩
  | unhandled _ _ _ hrelays => exact hrelays i r hr

theorem change_of_perform {ev : MeshEvent} {i : Nat} {r' : Relay}
    (h : (m.perform ev).mesh.relays[i]? = some r') :
    ∃ r, m.relays[i]? = some r ∧ r.Change i ev r' := by
  have hlt := (List.getElem?_eq_some_iff.mp h).1
  rw [length_perform] at hlt
  have hr := List.getElem?_eq_getElem hlt
  obtain ⟨r'', hr'', hchange⟩ := perform_change ev hr
  rw [h] at hr''
  cases hr''
  exact ⟨_, hr, hchange⟩

theorem fixed_after {evs : List MeshEvent} {i : Nat} {r' : Relay}
    (h : (m.after evs).relays[i]? = some r') :
    ∃ r, m.relays[i]? = some r ∧ r'.listenPort = r.listenPort ∧ r'.hopLimit = r.hopLimit ∧
      r'.outlet = r.outlet := by
  induction evs generalizing m with
  | nil => exact ⟨r', h, rfl, rfl, rfl⟩
  | cons ev evs ih =>
    obtain ⟨s, hs, hport, hlimit, houtlet⟩ := ih h
    obtain ⟨r, hr, hchange⟩ := change_of_perform hs
    obtain ⟨hport', hlimit', houtlet'⟩ := hchange.fixed
    exact ⟨r, hr, hport.trans hport', hlimit.trans hlimit', houtlet.trans houtlet'⟩

theorem indexOf?_after (m : Mesh) (evs : List MeshEvent) (t : Endpoint) :
    (m.after evs).indexOf? t = m.indexOf? t := by
  induction evs generalizing m with
  | nil => rfl
  | cons ev evs ih =>
    have haddresses : (m.perform ev).mesh.relays.map (fun r => r.outlet.address) =
        m.relays.map fun r => r.outlet.address := by
      refine List.ext_getElem? fun i => ?_
      rw [List.getElem?_map, List.getElem?_map]
      cases hr : m.relays[i]? with
      | none =>
        have hlen := List.getElem?_eq_none_iff.mp hr
        rw [← length_perform m ev] at hlen
        rw [List.getElem?_eq_none hlen]
      | some r =>
        obtain ⟨r', hr', hchange⟩ := perform_change ev hr
        rw [hr', Option.map_some, Option.map_some, hchange.fixed.2.2]
    have hfind : ∀ m : Mesh, m.indexOf? t =
        (m.relays.map fun r => r.outlet.address).findIdx? (· == t) := by
      intro m
      rw [List.findIdx?_map]
      rfl
    rw [after, ih, hfind, hfind, haddresses]

/-! ## Two relays that know each other -/

/-- A relay with empty tables. -/
def station (octet : UInt8) : Relay :=
  { listenPort := 5000, hopLimit := 3, messages := .empty 2 4
    routers := .empty "routers" 9 4, clients := .empty "clients" 9 4
    outlet := { address := { ip := .v4 #v[10, 0, 0, octet], port := 5000 } } }

def pair : Mesh := Mesh.link { relays := [station 1, station 2] } 0 1

def station₁ : Relay :=
  { station 1 with routers := ((station 1).routers.register (station 2).outlet.address).1 }

def station₂ : Relay :=
  { station 2 with routers := ((station 2).routers.register (station 1).outlet.address).1 }

theorem pair_relays : pair.relays = [station₁, station₂] := rfl

theorem station₁_routers : station₁.routers.endpoints = [(station 2).outlet.address] :=
  ((PeerTable.sound_empty "routers" 9 4).register (station 2).outlet.address).2

theorem station₁_targets : station₁.targets none = [(station 2).outlet.address] := by
  rw [Relay.targets, PeerTable.endpointsExcluding, station₁_routers]
  rfl

def hello : Envelope := .fresh "m" [("text", .text "hello")]

end Mesh
end FloodMesh
