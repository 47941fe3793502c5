import FloodMesh.Discovery.Refresh
import FloodMesh.Proofs.Discovery.Exchange
import FloodMesh.Proofs.Peers.History
import FloodMesh.Proofs.Stream.Incoming
import FloodMesh.Proofs.Wire.PeerList

/-!
# FloodMesh.Proofs.Discovery.Refresh

A set of routers that is refreshed is swapped as a whole or left as it is, whatever the directory
sends back. `Replied` says which reply the incoming bytes start with; all that comes of asking is
read off it.
-/

namespace FloodMesh

/-- Bytes start with a reply of success: a header and, if that gives a size, as many bytes of
body. -/
inductive Replied (stream header : Bytes) : Option Bytes → Prop
  | bare {rest : Bytes} (hstream : stream = header ++ delimiter ++ rest)
      (hframed : Connection.Framed header)
      (hheader : ResponseHeader.parse header = .ok (.okay none)) : Replied stream header none
  | sized {body rest : Bytes} (hstream : stream = header ++ delimiter ++ (body ++ rest))
      (hframed : Connection.Framed header)
      (hheader : ResponseHeader.parse header = .ok (.okay (some body.length))) :
      Replied stream header (some body)

/-- Bytes do not start with two replies. -/
theorem Replied.unique {stream header header' : Bytes} {body body' : Option Bytes}
    (h : Replied stream header body) (h' : Replied stream header' body') : body = body' := by
  cases h with
  | bare hstream hframed hheader =>
    cases h' with
    | bare => rfl
    | sized hstream' hframed' hheader' =>
      obtain ⟨rfl, _⟩ := hframed.unique hframed' (hstream.symm.trans hstream')
      rw [hheader] at hheader'
      cases hheader'
  | @sized bytes _ hstream hframed hheader =>
    cases h' with
    | bare hstream' hframed' hheader' =>
      obtain ⟨rfl, _⟩ := hframed.unique hframed' (hstream.symm.trans hstream')
      rw [hheader] at hheader'
      cases hheader'
    | @sized bytes' _ hstream' hframed' hheader' =>
      obtain ⟨rfl, hbodies⟩ := hframed.unique hframed' (hstream.symm.trans hstream')
      rw [hheader] at hheader'
      have hlength : bytes.length = bytes'.length := by
        simpa using hheader'
      rw [(List.append_inj hbodies hlength).1]

/-- A reply that was sent is the one that the bytes start with. -/
theorem Response.replied {r : Response} {body : Option Bytes} (hsized : r.Sized)
    (houtcome : r.outcome = .ok body) (rest : Bytes) :
    Replied (r.encode ++ rest) (Json.object r.header).print body := by
  have hframed := Connection.framed_of_not_mem (Json.visible_print (.object r.header)).not_mem
  have hheader := Response.parse_header hsized
  rw [Response.encode_eq, List.append_assoc]
  cases r with
  | okay =>
    cases houtcome
    exact .bare rfl hframed hheader
  | body bytes =>
    cases houtcome
    refine .sized rfl hframed ?_
    rw [hheader, Response.told, List.length_append]
  | error code => cases houtcome

namespace Contact

/-! ## One exchange -/

section Exchange

variable {c : Connection} {q : Request} {header : Bytes} {body : Option Bytes}

/-- What comes of an exchange is the reply that the incoming bytes start with. -/
theorem replied_of_exchange (h : (exchange c q).2 = .ok body) :
    ∃ header, Replied c.incoming header body := by
  -- No step of the exchange has failed, and each says what it has taken of the incoming bytes.
  rw [← c.incoming_send q.encode]
  rw [exchange] at h
  split at h
  · cases h
  rename_i c₁ hsend
  rw [hsend]
  split at h
  · cases h
  · cases h
  rename_i c₂ header hread
  obtain ⟨hframed, hincoming⟩ := Connection.incoming_readMessage hread
  split at h
  · cases h
  rename_i told hheader
  refine ⟨header, ?_⟩
  cases told with
  | error code reason => cases h
  | okay size =>
    cases size with
    | none =>
      cases h
      exact .bare hincoming hframed hheader
    | some n =>
      rw [receiveBody] at h
      split at h
      · cases h
      rename_i c₃ bytes hbody
      cases h
      obtain ⟨rfl, hbytes⟩ := Connection.incoming_readExact hbody
      rw [hbytes] at hincoming
      exact .sized hincoming hframed hheader

/-- A reply with a header that fits is received, wherever it is cut. -/
theorem exchange_of_replied (h : Replied c.incoming header body)
    (hfits : header.length + delimiter.length ≤ c.limit) (hsink : c.sink.Unfailing)
    (q : Request) : (exchange c q).2 = .ok body := by
  -- The request has gone into the sink only; what comes in is the same.
  rw [exchange, Connection.send_eq hsink]
  cases h with
  | bare hstream hframed hheader =>
    obtain ⟨buffer, arrivals, hread, _⟩ :=
      Connection.readMessage_of_incoming (c := { c with sink := c.sink.wrote q.encode })
        hframed hfits hstream
    simp only [hread, hheader, receiveBody]
  | sized hstream hframed hheader =>
    obtain ⟨buffer, arrivals, hread, hrest⟩ :=
      Connection.readMessage_of_incoming (c := { c with sink := c.sink.wrote q.encode })
        hframed hfits hstream
    obtain ⟨_, _, hbody, _⟩ := Connection.readExact_of_incoming hrest
    simp only [hread, hheader, receiveBody, hbody]

end Exchange

/-! ## Asking for peers -/

/-- A contact is found and can be reached. -/
def Reaches (contact : Contact) (lookup : Lookup) (dial : Dial) (c : Connection) : Prop :=
  ∃ e, contact.resolve lookup = .ok e ∧ dial e = .ok c

/-- The peers that a reply lists: none if it has no body. -/
def listed : Option Bytes → Except ProtocolError (List Endpoint)
  | none => .ok []
  | some body => PeerRecord.parseList (trimBody body)

/-- What a body says as a value: an array with the records of these endpoints, in this order. -/
def Records (body : Bytes) (es : List Endpoint) : Prop :=
  ∀ v, Json.parse? (trimBody body) = some v →
    ∃ vs, v = .array vs ∧ List.Forall₂ PeerRecord.Names vs es

/-- Among the records of a body is one that is no peer's: as its reader has them, or as the body has
them as a value. -/
inductive Faulty (body : Bytes) : Prop
  | record {records : List PeerRecord} {r : PeerRecord} {e : ProtocolError}
      (hread : Json.whole? PeerRecord.readAll (trimBody body) = some records) (hr : r ∈ records)
      (hfault : r.endpoint = .error e)
  | value {vs : List Json} {v : Json} (hvalue : Json.parse? (trimBody body) = some (.array vs))
      (hv : v ∈ vs) (hfault : ∀ e, ¬ PeerRecord.Names v e)

theorem records_of_listed {body : Bytes} {es : List Endpoint} (h : listed (some body) = .ok es) :
    Records body es :=
  fun _ hv => PeerRecord.names_of_parseList h hv

theorem exists_of_forall₂ {α β : Type} {R : α → β → Prop} {as : List α} {bs : List β}
    (h : List.Forall₂ R as bs) {a : α} (ha : a ∈ as) : ∃ b, R a b :=
  have hboth : List.Forall₂ (fun a b => (∃ b, R a b) ∧ R a b) as bs :=
    h.imp fun _ b hab => ⟨⟨b, hab⟩, hab⟩
  ((List.forall₂_and_left as bs).mp hboth).1 a ha

theorem Faulty.not_listed {body : Bytes} (h : Faulty body) (es : List Endpoint) :
    listed (some body) ≠ .ok es := by
  intro hlisted
  cases h with
  | @record records r e hread hr hfault =>
    rw [listed, PeerRecord.parseList, hread] at hlisted
    obtain ⟨e', he'⟩ := exists_of_forall₂ (PeerRecord.endpoints_eq_ok hlisted) hr
    rw [hfault] at he'
    cases he'
  | @value vs v hvalue hv hfault =>
    obtain ⟨vs', heq, hnames⟩ := records_of_listed hlisted _ hvalue
    cases heq
    obtain ⟨e, hname⟩ := exists_of_forall₂ hnames hv
    exact hfault e hname

variable {contact : Contact} {lookup : Lookup} {dial : Dial} {c : Connection} {q : Request}

theorem Reaches.unique {c' : Connection} (h : contact.Reaches lookup dial c)
    (h' : contact.Reaches lookup dial c') : c = c' := by
  obtain ⟨e, hresolve, hdial⟩ := h
  obtain ⟨e', hresolve', hdial'⟩ := h'
  rw [hresolve] at hresolve'
  cases hresolve'
  rw [hdial] at hdial'
  cases hdial'
  rfl

theorem Reaches.request (h : contact.Reaches lookup dial c) (q : Request) :
    contact.request lookup dial q = (exchange c q).2 := by
  obtain ⟨e, hresolve, hdial⟩ := h
  simp only [Contact.request, hresolve, bind, Except.bind, hdial]

theorem reaches_of_request {body : Option Bytes} (h : contact.request lookup dial q = .ok body) :
    ∃ c, contact.Reaches lookup dial c := by
  rw [request] at h
  cases hresolve : contact.resolve lookup with
  | error e =>
    rw [hresolve] at h
    cases h
  | ok e =>
    cases hdial : dial e with
    | error reason =>
      simp only [hresolve, bind, Except.bind, hdial] at h
      cases h
    | ok c => exact ⟨c, e, hresolve, hdial⟩

theorem requestPeers_eq : contact.requestPeers lookup dial q =
    (contact.request lookup dial q).bind fun body => (listed body).mapError .protocol := by
  rw [requestPeers]
  cases contact.request lookup dial q with
  | error e => rfl
  | ok body => cases body <;> rfl

theorem requestPeers_ok {found : List Endpoint} :
    contact.requestPeers lookup dial q = .ok found ↔
      ∃ body, contact.request lookup dial q = .ok body ∧ listed body = .ok found := by
  rw [requestPeers_eq]
  cases contact.request lookup dial q with
  | error e => simp [Except.bind]
  | ok body => cases hlisted : listed body <;> simp [Except.bind, Except.mapError, hlisted]

theorem replied_of_requestPeers {found : List Endpoint}
    (h : contact.requestPeers lookup dial q = .ok found) :
    ∃ c header body, contact.Reaches lookup dial c ∧ Replied c.incoming header body ∧
      listed body = .ok found := by
  obtain ⟨body, hrequest, hlisted⟩ := requestPeers_ok.mp h
  obtain ⟨c, hreaches⟩ := reaches_of_request hrequest
  rw [hreaches.request] at hrequest
  obtain ⟨header, hreplied⟩ := replied_of_exchange hrequest
  exact ⟨c, header, body, hreaches, hreplied, hlisted⟩

theorem requestPeers_of_replied {header : Bytes} {body : Option Bytes} {found : List Endpoint}
    (hreaches : contact.Reaches lookup dial c) (hreplied : Replied c.incoming header body)
    (hlisted : listed body = .ok found) (hfits : header.length + delimiter.length ≤ c.limit)
    (hsink : c.sink.Unfailing) (q : Request) : contact.requestPeers lookup dial q = .ok found :=
  requestPeers_ok.mpr
    ⟨body, (hreaches.request q).trans (exchange_of_replied hreplied hfits hsink q), hlisted⟩

end Contact

/-! ## Swapping the routers -/

namespace RefreshSchedule

open Contact (listed Records Faulty)

variable {s : RefreshSchedule} {directory : Contact} {lookup : Lookup} {dial : Dial}
  {routers : PeerTable}

/-- A refresh finds routers and swaps them in, or it fails and does nothing. -/
theorem refresh_cases :
    (∃ e, s.refresh directory lookup dial routers = (routers, .error e)) ∨
      ∃ found c header body,
        s.refresh directory lookup dial routers = (routers.replace found, .ok found.length) ∧
        directory.Reaches lookup dial c ∧ Replied c.incoming header body ∧
        listed body = .ok found := by
  unfold refresh
  cases hfound : directory.discover lookup dial s.outdegree s.listenPort with
  | error e => exact .inl ⟨e, rfl⟩
  | ok found =>
    obtain ⟨c, header, body, hreplied⟩ := Contact.replied_of_requestPeers hfound
    exact .inr ⟨found, c, header, body, rfl, hreplied⟩

theorem refresh_faulty {c : Connection} {header body : Bytes}
    (hreaches : directory.Reaches lookup dial c) (hreplied : Replied c.incoming header (some body))
    (hfaulty : Faulty body) :
    ∃ e, s.refresh directory lookup dial routers = (routers, .error e) := by
  refine refresh_cases.resolve_right ?_
  rintro ⟨found, c', header', body', _, hreaches', hreplied', hlisted⟩
  cases hreaches.unique hreaches'
  cases hreplied.unique hreplied'
  exact hfaulty.not_listed found hlisted

theorem refresh_swaps {c : Connection} {header : Bytes} {body : Option Bytes}
    {found : List Endpoint} (hreaches : directory.Reaches lookup dial c)
    (hreplied : Replied c.incoming header body) (hlisted : listed body = .ok found)
    (hfits : header.length + delimiter.length ≤ c.limit) (hsink : c.sink.Unfailing) :
    s.refresh directory lookup dial routers = (routers.replace found, .ok found.length) := by
  have hdiscover : directory.discover lookup dial s.outdegree s.listenPort = .ok found :=
    Contact.requestPeers_of_replied hreaches hreplied hlisted hfits hsink _
  unfold refresh
  rw [hdiscover]

/-- Whatever comes back, in whatever pieces, and wherever reads fail: a refresh fails and leaves the
routers as they were, or the incoming bytes start with a reply of success, and the routers are
swapped for those that it lists, each once, in the order of their last mention and for the whole
time that an entry lives. A reply without a body lists none; a body that has a value is an array of
the records of the routers. One record of no peer among them, and the refresh fails. It does not
fail where the request can be sent, the reply comes and its header keeps to the limit. -/
theorem refresh_all_or_nothing (s : RefreshSchedule) (directory : Contact) (lookup : Lookup)
    (dial : Dial) (routers : PeerTable) :
    ((∃ e, s.refresh directory lookup dial routers = (routers, .error e)) ∨
      ∃ routers' found c header body,
        s.refresh directory lookup dial routers = (routers', .ok found.length) ∧
        directory.Reaches lookup dial c ∧ Replied c.incoming header body ∧ listed body = .ok found ∧
        (body = none → found = []) ∧ (∀ bytes ∈ body, Records bytes found) ∧
        (routers.Sound → ∀ n,
          (routers'.ticks n).1.endpoints = if n < routers.ttl then found.dedup else [])) ∧
    (∀ c header body, directory.Reaches lookup dial c → Replied c.incoming header (some body) →
      Faulty body → ∃ e, s.refresh directory lookup dial routers = (routers, .error e)) ∧
    ∀ c header body found, directory.Reaches lookup dial c → Replied c.incoming header body →
      listed body = .ok found → header.length + delimiter.length ≤ c.limit → c.sink.Unfailing →
        s.refresh directory lookup dial routers = (routers.replace found, .ok found.length) := by
  refine ⟨?_, fun _ _ _ => refresh_faulty, fun _ _ _ _ => refresh_swaps⟩
  rcases @refresh_cases s directory lookup dial routers with
    hfailed | ⟨found, c, header, body, hrefresh, hreaches, hreplied, hlisted⟩
  · exact .inl hfailed
  refine .inr ⟨_, found, c, header, body, hrefresh, hreaches, hreplied, hlisted, ?_, ?_, ?_⟩
  · rintro rfl
    cases hlisted
    rfl
  · rintro bytes hbody
    cases hbody
    exact Contact.records_of_listed hlisted
  · exact fun hsound n => hsound.endpoints_replaced found n

/-- A directory that sends a reply byte by byte and then falls silent. -/
def hesitant (reply : Response) : Connection :=
  { peer := { ip := .v4 #v[192, 0, 2, 80], port := 6666 }
    arrivals := (reply.encode.map fun b => .bytes [b]) ++ [.silence] }

theorem incoming_hesitant (reply : Response) :
    (hesitant reply).incoming = reply.encode ++ [] := by
  have hbrought : ∀ bytes : Bytes,
      Arrival.brought ((bytes.map fun b => .bytes [b]) ++ [.silence]) = bytes := by
    intro bytes
    induction bytes with
    | nil => rfl
    | cons b bytes ih => exact congrArg (b :: ·) ih
  rw [Connection.incoming, hesitant, hbrought, List.append_nil]
  rfl

open Contact (rare rareTable)

/-- The first router is named again at the end. -/
def repeated : List Json := (rare ++ rare.take 1).map fun e => (PeerRecord.ofEndpoint e).toJson

/-- A record by its items. -/
def record (family : Nat) : Json := .array [.text "192.0.2.1", .ofNat 5555, .ofNat family]

theorem not_names_record (e : Endpoint) : ¬ PeerRecord.Names (record 6) e := by
  intro h
  obtain ⟨haddress, _, hfamily, _⟩ := PeerRecord.names_array_iff.mp h
  have hfour : (IpAddress.ofString? "192.0.2.1").map IpAddress.family = some 4 := by
    decide +kernel
  rw [haddress, Option.map_some, hfamily] at hfour
  cases hfour

theorem faulty_records : Faulty ((Json.array [record 4, record 6]).print ++ delimiter) := by
  have hvalue : Json.parse? (Json.array [record 4, record 6]).print =
      some (.array [record 4, record 6]) := by
    rw [Json.parse?_print_bare]
    rfl
  have hmem : record 6 ∈ [record 4, record 6] := List.mem_cons_of_mem _ List.mem_cons_self
  rw [← Response.trimBody_append (Json.print _)] at hvalue
  exact .value hvalue hmem not_names_record

/-- With a record of the wrong family in the list, nothing is swapped. -/
theorem refresh_all_or_nothing_repeated :
    let schedule : RefreshSchedule :=
      { outdegree := 4, listenPort := 5555, interval := 60000, retryInterval := 1000 }
    let directory : Contact := { host := "192.0.2.80", port := 6666 }
    let refresh := fun vs => schedule.refresh directory .numeric
      (fun _ => .ok (hesitant (.ofJson (.array vs)))) rareTable
    ((refresh repeated).2 = .ok 4 ∧ ∀ n, ((refresh repeated).1.ticks n).1.endpoints =
      if n < 90 then rare.drop 1 ++ rare.take 1 else []) ∧
    ∃ e, refresh [record 4, record 6] = (rareTable, .error e) := by
  intro schedule directory refresh
  have hreaches : ∀ c, directory.Reaches .numeric (fun _ => .ok c) c := by
    intro c
    exact ⟨(hesitant .okay).peer, by decide +kernel, rfl⟩
  have hreplied : ∀ vs : List Json, (Response.ofJson (.array vs)).Sized →
      Replied (hesitant (.ofJson (.array vs))).incoming
        (Json.object (Response.ofJson (.array vs)).header).print
        (some ((Json.array vs).print ++ delimiter)) := by
    intro vs hsized
    rw [incoming_hesitant]
    exact Response.replied hsized rfl []
  have hlisted : Contact.listed (some ((Json.array repeated).print ++ delimiter)) =
      .ok (rare ++ rare.take 1) := by
    rw [Contact.listed, Response.trimBody_append]
    exact PeerRecord.parseList_print _ (by decide +kernel)
  have hsized : (Response.ofJson (.array repeated)).Sized := by decide +kernel
  obtain ⟨houtcome, _, hswaps⟩ := refresh_all_or_nothing schedule directory .numeric
    (fun _ => .ok (hesitant (.ofJson (.array repeated)))) rareTable
  obtain ⟨_, hfails, _⟩ := refresh_all_or_nothing schedule directory .numeric
    (fun _ => .ok (hesitant (.ofJson (.array [record 4, record 6])))) rareTable
  have hrefresh : refresh repeated = (rareTable.replace (rare ++ rare.take 1), .ok 4) :=
    hswaps _ _ _ _ (hreaches _) (hreplied _ hsized) hlisted (Response.length_header_le hsized)
      ⟨rfl, rfl⟩
  refine ⟨⟨congrArg Prod.snd hrefresh, ?_⟩,
    hfails _ _ _ (hreaches _) (hreplied _ (by decide +kernel)) faulty_records⟩
  rcases houtcome with ⟨e, he⟩ | ⟨routers', found, _, _, _, hok, hreaches', hreplied', hlisted', _,
    _, hticks⟩
  · exact nomatch congrArg Prod.snd (hrefresh.symm.trans he)
  · cases (hreaches _).unique hreaches'
    cases (hreplied _ hsized).unique hreplied'
    cases hlisted.symm.trans hlisted'
    have htracks := PeerTable.tracks_replace (t := .empty "routers" 90 64) (tracks_empty 90 64) rare
    have httl : rareTable.ttl = 90 := htracks.ttl
    have hdedup : (rare ++ rare.take 1).dedup = rare.drop 1 ++ rare.take 1 := by decide +kernel
    have hswapped : (refresh repeated).1 = routers' := congrArg Prod.fst hok
    have hendpoints := hticks ⟨_, htracks⟩
    rw [httl, hdedup] at hendpoints
    rw [hswapped]
    exact hendpoints

end RefreshSchedule
end FloodMesh
