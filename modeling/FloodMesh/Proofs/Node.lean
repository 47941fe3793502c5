import FloodMesh.Node
import FloodMesh.Proofs.Mesh.Carriage
import FloodMesh.Proofs.Mesh.Dedup

/-!
# FloodMesh.Proofs.Node

What a node broadcasts is what receivers read: its id, one hop, its port, and the payload, provided
that no field of the payload has a name of the envelope's own. One that does replaces the node's
field on the way out, and receivers drop it from the payload on the way in.

`Lived` are the nodes that can come about. Their tables are sound, and their hop limit is one digit.
-/

namespace FloodMesh

/-! ## Ids -/

namespace Digest

theorem length_hexText (bytes : Bytes) : (hexText bytes).toList.length = 2 * bytes.length := by
  have hdigit : ∀ n : Fin 16, (Nat.toDigits 16 n.val).length = 1 := by decide
  rw [hexText, String.toList_ofList]
  induction bytes with
  | nil => rfl
  | cons b bytes ih =>
    have hlt : b.toNat < 256 := b.toNat_lt
    have hhigh := hdigit ⟨b.toNat / 16, by omega⟩
    have hlow := hdigit ⟨b.toNat % 16, by omega⟩
    simp only [List.flatMap_cons, List.length_append, List.length_cons, ih] at hhigh hlow ⊢
    omega

theorem length_littleEndian (n value : Nat) : (littleEndian n value).length = n := by
  induction n generalizing value with
  | zero => rfl
  | succ n ih => rw [littleEndian, List.length_cons, ih]

theorem length_blake3 (bytes : Bytes) : (blake3 bytes).length = 32 := by
  have hwords : ∀ n : Node, (n.compress rootFlag).toList.length = 8 := by
    intro n
    rw [Node.compress, Array.length_toList, Array.size_map, Array.size_range]
  simp only [blake3, List.length_flatMap, length_littleEndian, List.map_const', hwords]
  rfl

theorem length_messageId (content : Bytes) (nanoseconds : Nat) :
    (messageId content nanoseconds).toList.length = 64 := by
  rw [messageId, length_hexText, length_blake3]

end Digest

namespace Envelope

theorem originate_id_ne (nanoseconds : Nat) (payload : Fields) {id : String}
    (h : id.toList.length ≠ 64) : (originate nanoseconds payload).id ≠ id := by
  intro heq
  rw [← heq] at h
  exact h (Digest.length_messageId _ nanoseconds)

/-- An envelope that an application starts with a portable payload. -/
theorem fresh_originate {nanoseconds : Nat} {payload : Fields} (h : Portable payload)
    (hfits : (originate nanoseconds payload).encode.length ≤ maxMessageSize) :
    (originate nanoseconds payload).Fresh where
  hops := rfl
  hopPort := rfl
  id := originate_id_ne nanoseconds payload (by decide)
  payload := h
  fits := hfits

/-- A field of the application under the name of the id is the id on the wire. -/
theorem encode_renamed (hops : Nat) (hopPort : UInt16) (id id' : String) :
    (⟨hops, hopPort, id, [("id", .text id')]⟩ : Envelope).encode =
      (⟨hops, hopPort, id', []⟩ : Envelope).encode := by
  have hfields : (⟨hops, hopPort, id, [("id", .text id')]⟩ : Envelope).fields =
      (⟨hops, hopPort, id', []⟩ : Envelope).fields := by
    refine (sorted_fields _).ext (sorted_fields _) fun name => ?_
    rw [get?_fields, get?_fields]
    by_cases hname : name = "id" <;> simp [own, Fields.get?_cons, hname, hopPortField]
  rw [encode, encode, hfields]

end Envelope

/-! ## A node's life -/

/-- Tables for which ledgers account, and a hop limit that lets an envelope start and that one digit
expresses. -/
structure Relay.Fit (r : Relay) : Prop where
  sound : r.Sound
  hopLimit : r.hopLimit ≤ maxHopLimit
  starts : 1 ≤ r.hopLimit

theorem Relay.Fit.verdict {r r' : Relay} {e : Envelope} {source : Option IpAddress}
    {sent : List Datagram} {outcome : FloodOutcome} (h : r.Fit)
    (hverdict : r.Verdict e source r' sent outcome) : r'.Fit := by
  have hlimit : r'.hopLimit = r.hopLimit := by cases hverdict <;> rfl
  exact ⟨h.sound.verdict hverdict, hlimit ▸ h.hopLimit, hlimit ▸ h.starts⟩

namespace Router

variable {r : Router}

theorem fit_flood (h : r.relay.Fit) (e : Envelope) (source : Option IpAddress) :
    (r.flood e source).1.relay.Fit := by
  obtain ⟨relay, sent, outcome, hhandle, hverdict⟩ := r.relay.handle_verdict r.network e source
  simp only [flood, hhandle]
  exact h.verdict hverdict

theorem fit_setClients (h : r.relay.Fit) {clients : PeerTable} (hclients : clients.Sound) :
    (r.setClients clients).relay.Fit :=
  ⟨⟨h.sound.messages, h.sound.routers, hclients⟩, h.hopLimit, h.starts⟩

theorem fit_absorb (h : r.relay.Fit) (q : Request) (peer : Endpoint) :
    (r.absorb q peer).relay.Fit := by
  cases q with
  | connect text =>
    simp only [absorb, PeerTable.registerAt]
    cases Text.port? text with
    | none => exact h
    | some port => exact fit_setClients h (h.sound.clients.register _).1
  | disconnect text =>
    simp only [absorb, PeerTable.unregisterAt]
    cases Text.port? text with
    | none => exact h
    | some port =>
      cases hgone : r.relay.clients.unregister { ip := peer.ip, port } with
      | error e => simpa only [hgone] using h
      | ok gone => simpa only [hgone] using fit_setClients h (h.sound.clients.unregister hgone)
  | broadcast e => exact fit_flood h e _
  | ping port =>
    cases port with
    | none => exact h
    | some port =>
      simp only [absorb, pong]
      split <;> exact h
  | _ => exact h

theorem fit_answer (h : r.relay.Fit) (q : Request) (peer : Endpoint) :
    (r.answer q peer).1.relay.Fit := by
  cases q with
  | broadcast e => exact fit_flood h e _
  | discover num port =>
    simp only [answer]
    split <;> exact h
  | _ => exact h

theorem fit_tick (h : r.relay.Fit) (table : Relay.Table) : (r.tick table).relay.Fit := by
  have hlimit := r.relay.hopLimit_tick table
  exact ⟨h.sound.tick table, hlimit.trans_le h.hopLimit, h.starts.trans_eq hlimit.symm⟩

end Router

theorem RefreshSchedule.sound_refresh (s : RefreshSchedule) (directory : Contact) (lookup : Lookup)
    (dial : Dial) {routers : PeerTable} (h : routers.Sound) :
    (s.refresh directory lookup dial routers).1.Sound := by
  unfold refresh
  split
  · exact h
  · exact h.replace _

theorem demand_ok {holds : Bool} {field reason : String} (h : demand holds field reason = .ok ()) :
    holds = true := by
  cases holds with
  | true => rfl
  | false => cases h

theorem RouterSettings.hopLimit_of_validate {s : RouterSettings} (h : s.validate = .ok ()) :
    1 ≤ s.hopLimit ∧ s.hopLimit ≤ maxHopLimit := by
  have hbind : ∀ {x : Except ConfigError Unit} {f : Unit → Except ConfigError Unit},
      (x >>= f) = .ok () → x = .ok () ∧ f () = .ok () := by
    intro x f hx
    cases x with
    | error e => cases hx
    | ok => exact ⟨rfl, hx⟩
  have hport := hbind h
  have haddress := hbind hport.2
  have hdirectory := hbind haddress.2
  have hlimit := demand_ok (hbind hdirectory.2).1
  simpa using hlimit

namespace Node

/-- What can become of a node that was built: it starts, its tasks run, services are used, messages
are flooded, tables tick, and the network does what it likes with datagrams. -/
inductive Lived : Node → Prop
  | build {p : NodePlan} {n : Node} (h : p.build = .ok n) : Lived n
  | start {n n' : Node} {lookup : Lookup} {bound : Except NetworkError Endpoint} {now : Nat}
      (hn : Lived n) (h : n.start lookup bound now = .ok n') : Lived n'
  | advance {n : Node} (hn : Lived n) (lookup : Lookup) (now : Nat) : Lived (n.advance lookup now)
  | refresh {n : Node} (hn : Lived n) (lookup : Lookup) (dial : Dial) (now : Nat) :
      Lived (n.refresh lookup dial now)
  | stop {n n' : Node} {lookup : Lookup} (hn : Lived n) (h : n.stop lookup = .ok n') : Lived n'
  | broadcast {n n' : Node} {nanoseconds : Nat} {payload : Fields} {receipt : Receipt}
      (hn : Lived n) (h : n.broadcast nanoseconds payload = .ok (n', receipt)) : Lived n'
  | absorb {n : Node} (hn : Lived n) (q : Request) (peer : Endpoint) :
      Lived { n with router := n.router.absorb q peer }
  | answer {n : Node} (hn : Lived n) (q : Request) (peer : Endpoint) :
      Lived { n with router := (n.router.answer q peer).1 }
  | tick {n : Node} (hn : Lived n) (table : Relay.Table) :
      Lived { n with router := n.router.tick table }
  | carry {n : Node} (hn : Lived n) (network : Network) :
      Lived { n with router := { n.router with network } }
  | block {n : Node} (hn : Lived n) (target : Endpoint) :
      Lived { n with router := { n.router with relay := { n.router.relay with
        outlet := n.router.relay.outlet.block target } } }

variable {n n' : Node} {nanoseconds : Nat} {payload : Fields} {receipt : Receipt}

/-! ## Messages of its own -/

/-- A node that does not run refuses. -/
theorem flood_idle (hstage : n.stage ≠ .running) :
    n.flood nanoseconds payload = (n, .error (n.refused "broadcast")) := by
  rw [flood, if_pos hstage]

/-- A message that does not fit is refused. -/
theorem flood_large (hstage : n.stage = .running)
    (hlarge : maxMessageSize < (Envelope.originate nanoseconds payload).encode.length) :
    n.flood nanoseconds payload =
      (n, .error (.protocol (.messageTooLarge
        (Envelope.originate nanoseconds payload).encode.length maxMessageSize))) := by
  rw [flood, if_neg (not_not_intro hstage)]
  exact if_pos hlarge

/-- A running node floods a message of its own that fits. -/
theorem flood_eq (hstage : n.stage = .running)
    (hfits : (Envelope.originate nanoseconds payload).encode.length ≤ maxMessageSize) :
    ∃ relay sent outcome,
      n.flood nanoseconds payload =
        ({ n with router := { relay, network := ⟨n.router.network.queue ++ sent⟩ } },
          .ok { id := (Envelope.originate nanoseconds payload).id, outcome }) ∧
      n.router.relay.Verdict (Envelope.originate nanoseconds payload) none relay sent outcome := by
  obtain ⟨relay, sent, outcome, hhandle, hverdict⟩ :=
    n.router.relay.handle_verdict n.router.network (Envelope.originate nanoseconds payload) none
  refine ⟨relay, sent, outcome, ?_, hverdict⟩
  rw [flood, if_neg (not_not_intro hstage)]
  simp only [if_neg (Nat.not_lt.mpr hfits), Router.flood, hhandle]

theorem broadcast_eq (hstage : n.stage = .running)
    (hfits : (Envelope.originate nanoseconds payload).encode.length ≤ maxMessageSize) :
    ∃ relay sent outcome,
      n.broadcast nanoseconds payload =
        .ok ({ n with router := { relay, network := ⟨n.router.network.queue ++ sent⟩ } },
          { id := (Envelope.originate nanoseconds payload).id, outcome }) ∧
      n.router.relay.Verdict (Envelope.originate nanoseconds payload) none relay sent outcome := by
  obtain ⟨relay, sent, outcome, hflood, hverdict⟩ := flood_eq hstage hfits
  refine ⟨relay, sent, outcome, ?_, hverdict⟩
  rw [broadcast, hflood]
  rfl

/-- It does so only while it runs and if the message fits. -/
theorem broadcast_ok (h : n.broadcast nanoseconds payload = .ok (n', receipt)) :
    n.stage = .running ∧
      (Envelope.originate nanoseconds payload).encode.length ≤ maxMessageSize ∧
      receipt.id = (Envelope.originate nanoseconds payload).id ∧
      ∃ sent, n'.router.network.queue = n.router.network.queue ++ sent ∧
        n.router.relay.Verdict (Envelope.originate nanoseconds payload) none n'.router.relay sent
          receipt.outcome := by
  have hstage : n.stage = .running := by
    by_contra hstage
    rw [broadcast, flood_idle hstage] at h
    cases h
  have hfits : (Envelope.originate nanoseconds payload).encode.length ≤ maxMessageSize := by
    by_contra hlarge
    rw [broadcast, flood_large hstage (Nat.lt_of_not_le hlarge)] at h
    cases h
  obtain ⟨relay, sent, outcome, heq, hverdict⟩ := broadcast_eq hstage hfits
  rw [heq] at h
  cases h
  exact ⟨hstage, hfits, rfl, sent, rfl, hverdict⟩

theorem Lived.fit (h : n.Lived) : n.router.relay.Fit := by
  induction h with
  | build h =>
    rename_i p n
    rw [NodePlan.build] at h
    split at h
    · cases h
    · rename_i hvalid
      cases h
      obtain ⟨hstarts, hlimit⟩ := RouterSettings.hopLimit_of_validate hvalid
      exact ⟨⟨Sightings.sound_empty _ _, PeerTable.sound_empty _ _ _, PeerTable.sound_empty _ _ _⟩,
        hlimit, hstarts⟩
  | start hn h ih =>
    unfold Node.start at h
    split at h
    · cases h
    split at h
    · cases h
    · cases h
      exact ⟨⟨ih.sound.messages, ih.sound.routers, ih.sound.clients⟩, ih.hopLimit, ih.starts⟩
  | advance hn lookup now ih =>
    rw [Node.advance]
    split
    · exact ih
    · exact ih
  | refresh hn lookup dial now ih =>
    rename_i n
    have hrouters := n.schedule.sound_refresh n.directory lookup dial ih.sound.routers
    rw [Node.refresh]
    split
    · exact ⟨⟨ih.sound.messages, hrouters, ih.sound.clients⟩, ih.hopLimit, ih.starts⟩
    · exact ih
  | stop hn h ih =>
    rw [Node.stop] at h
    split at h
    · cases h
      exact ih
    · cases h
  | broadcast hn h ih =>
    obtain ⟨_, _, _, _, _, hverdict⟩ := broadcast_ok h
    exact ih.verdict hverdict
  | absorb hn q peer ih => exact Router.fit_absorb ih q peer
  | answer hn q peer ih => exact Router.fit_answer ih q peer
  | tick hn table ih => exact Router.fit_tick ih table
  | carry hn network ih => exact ih
  | block hn target ih =>
    exact ⟨⟨ih.sound.messages, ih.sound.routers, ih.sound.clients⟩, ih.hopLimit, ih.starts⟩

/-- What receivers read is what was broadcast if, and only if, no field of the payload has a name
of the envelope's own. In either case the node, wherever in a mesh it stands, forwards nothing with
the id of the receipt again while its memory lasts. -/
theorem broadcast_received (hlived : n.Lived) (hsorted : Fields.Sorted payload)
    (hfaithful : ∀ m ∈ payload, Json.Faithful (Json.depthLimit - 1) m.2)
    (h : n.broadcast nanoseconds payload = .ok (n', receipt)) {routers clients : Nat}
    (hforwarded : receipt.outcome = .forwarded routers clients) :
    (∃ sent, n'.router.network.queue = n.router.network.queue ++ sent ∧
      ∀ d ∈ sent, Request.parse d.payload =
          .ok (.broadcast { hops := 1, hopPort := n.router.relay.listenPort, id := receipt.id,
                            payload }) ↔
        Envelope.Unreserved payload) ∧
    ∀ (m : Mesh) (place : Nat) (evs : List MeshEvent) (ev : MeshEvent) (r : Relay),
      m.relays[place]? = some n'.router.relay → .forget place ∉ evs →
      evs.countP (MeshEvent.ticksMessages place) < n.router.relay.messages.leases.ttl →
      ¬ ((m.after evs).perform ev).Forwards place receipt.id r := by
  obtain ⟨_, hfits, hid, sent, hqueue, hverdict⟩ := broadcast_ok h
  rw [hforwarded] at hverdict
  obtain ⟨hhops, hknows, hrelay, hsent⟩ := hverdict.of_forwarded
  refine ⟨⟨sent, hqueue, fun d hd => ⟨Envelope.unreserved_of_parse, fun hfree => ?_⟩⟩, ?_⟩
  · obtain ⟨_, t, _, rfl⟩ := hverdict.of_mem_sent hd
    have hfresh := Envelope.fresh_originate ⟨hsorted, hfree, hfaithful⟩ hfits
    have hstamp : (n.router.relay.stamp (Envelope.originate nanoseconds payload)).hops ≤ 9 :=
      Nat.le_trans hhops hlived.fit.hopLimit
    rw [hid]
    exact (hfresh.encode (e := n.router.relay.stamp _) rfl rfl hstamp).2
  · intro m place evs ev r hr hforget hticks
    have hremembers : n'.router.relay.messages.Remembers receipt.id
        n.router.relay.messages.leases.ttl := by
      rw [hrelay, hid]
      exact .of_see hlived.fit.sound.messages hknows
    exact Mesh.not_forwards_of_remembers hr hremembers hforget hticks ev r

def client : Endpoint := { ip := .v4 #v[10, 0, 0, 2], port := 5000 }

def created : Node := { settings := {}, router := { relay := ({} : NodePlan).relay } }

/-- A node with default settings that has started and has one client. -/
def lookout : Node :=
  match created.start .numeric (.ok { ip := .v4 #v[10, 0, 0, 1], port := 5555 }) 0 with
  | .error _ => created
  | .ok n =>
    let router := n.router.absorb (.connect "5000") client
    { n with router := { router with network := {} } }

theorem lived_lookout : lookout.Lived := by
  have hbuild : NodePlan.build {} = .ok created := rfl
  rw [lookout]
  split
  · exact .build hbuild
  · rename_i n hstart
    exact .carry (.absorb (.start (.build hbuild) hstart) (.connect "5000") client) {}

theorem targets_lookout : lookout.router.relay.targets none = [client] := by
  have hclients : lookout.router.relay.clients =
      ((PeerTable.empty "clients" 10 64).register client).1 := rfl
  have hrouters : lookout.router.relay.routers.endpoints = [] := rfl
  rw [Relay.targets, PeerTable.endpointsExcluding, PeerTable.endpointsExcluding, hrouters, hclients,
    ((PeerTable.sound_empty "clients" 10 64).register client).2]
  rfl

/-- What fits goes out to the one client. -/
theorem lookout_broadcast (nanoseconds : Nat) (payload : Fields)
    (hfits : (Envelope.originate nanoseconds payload).encode.length ≤ maxMessageSize)
    (hstamp : (lookout.router.relay.stamp (Envelope.originate nanoseconds payload)).encode.length ≤
      maxMessageSize) :
    ∃ n' receipt routers clients d, lookout.broadcast nanoseconds payload = .ok (n', receipt) ∧
      receipt.id = (Envelope.originate nanoseconds payload).id ∧
      receipt.outcome = .forwarded routers clients ∧ n'.router.network.queue = [d] ∧
      d.payload =
        (lookout.router.relay.stamp (Envelope.originate nanoseconds payload)).encode := by
  obtain ⟨relay, sent, outcome, heq, hverdict⟩ := broadcast_eq (n := lookout) rfl hfits
  have hhops : (Envelope.originate nanoseconds payload).hops < lookout.router.relay.hopLimit :=
    Nat.zero_lt_succ 3
  obtain ⟨rfl, rfl, routers, clients, rfl⟩ := hverdict.is_forwarded hhops rfl hstamp
  have hcopies : lookout.router.relay.copies (Envelope.originate nanoseconds payload) none =
      [⟨lookout.router.relay.outlet.address, client,
        (lookout.router.relay.stamp (Envelope.originate nanoseconds payload)).encode⟩] := by
    rw [Relay.copies, targets_lookout]
    rfl
  exact ⟨_, _, routers, clients, _, heq, rfl, rfl, hcopies, rfl⟩

theorem broadcast_received_lookout :
    let payload : Fields := [("text", .text "hello")]
    lookout.Lived ∧ Fields.Sorted payload ∧
      (∀ m ∈ payload, Json.Faithful (Json.depthLimit - 1) m.2) ∧
      ∃ n' receipt routers clients d,
        lookout.broadcast 7 payload = .ok (n', receipt) ∧
        receipt.outcome = .forwarded routers clients ∧ n'.router.network.queue = [d] ∧
        Request.parse d.payload =
          .ok (.broadcast { hops := 1, hopPort := 5555, id := receipt.id, payload }) := by
  intro payload
  have hsorted : Fields.Sorted payload := List.pairwise_singleton _ _
  have hmember : ∀ m ∈ payload, m = ("text", .text "hello") := fun m hm => List.mem_singleton.mp hm
  have hfaithful : ∀ m ∈ payload, Json.Faithful (Json.depthLimit - 1) m.2 := by
    intro m hm
    rw [hmember m hm]
    trivial
  have hfree : Envelope.Unreserved payload := by
    intro m hm
    rw [hmember m hm]
    decide
  obtain ⟨n', receipt, routers, clients, d, h, _, hforwarded, hone, _⟩ :=
    lookout_broadcast 7 payload (by decide +kernel) (by decide +kernel)
  obtain ⟨⟨sent, hqueue, hread⟩, _⟩ :=
    broadcast_received lived_lookout hsorted hfaithful h hforwarded
  have hsent : sent = [d] := hqueue.symm.trans hone
  have hparse := (hread d (by rw [hsent]; exact List.mem_singleton_self d)).mpr hfree
  exact ⟨lived_lookout, hsorted, hfaithful, n', receipt, routers, clients, d, h, hforwarded, hone,
    hparse⟩

/-- With a field `id` of its own, a payload goes out under another id than the receipt has, and
that field does not arrive. -/
theorem broadcast_renamed :
    lookout.Lived ∧ ∃ n' receipt routers clients d,
      lookout.broadcast 7 [("id", .text "x")] = .ok (n', receipt) ∧
      receipt.outcome = .forwarded routers clients ∧ n'.router.network.queue = [d] ∧
      Request.parse d.payload =
        .ok (.broadcast { hops := 1, hopPort := 5555, id := "x", payload := [] }) ∧
      receipt.id ≠ "x" := by
  have horiginate : (Envelope.originate 7 [("id", .text "x")]).encode =
      (⟨0, 0, "x", []⟩ : Envelope).encode :=
    Envelope.encode_renamed 0 0 _ "x"
  have hstamp : (lookout.router.relay.stamp (Envelope.originate 7 [("id", .text "x")])).encode =
      (⟨1, 5555, "x", []⟩ : Envelope).encode :=
    Envelope.encode_renamed 1 5555 _ "x"
  obtain ⟨n', receipt, routers, clients, d, h, hid, hforwarded, hone, hpayload⟩ :=
    lookout_broadcast 7 [("id", .text "x")] (by rw [horiginate]; decide +kernel)
      (by rw [hstamp]; decide +kernel)
  refine ⟨lived_lookout, n', receipt, routers, clients, d, h, hforwarded, hone, ?_, ?_⟩
  · have hportable : Envelope.Portable [] :=
      { sorted := List.Pairwise.nil
        unreserved := fun _ hm => nomatch hm
        faithful := fun _ hm => nomatch hm }
    rw [hpayload, hstamp]
    exact Envelope.parse_encode hportable (by decide) (by decide) (by decide +kernel)
  · rw [hid]
    exact Envelope.originate_id_ne 7 _ (by decide)

end Node

end FloodMesh
