import FloodMesh.Discovery.Keepalive
import FloodMesh.Proofs.Clock.Ticker
import FloodMesh.Proofs.Service.Registration
import FloodMesh.Proofs.Wire.Request
import FloodMesh.Proofs.Wire.Response
import Mathlib.Logic.Relation

/-!
# FloodMesh.Proofs.Discovery.Tenancy

A directory and a router that stays registered there. The directory counts time in ticks and the
router in intervals, and the two clocks start at any distance from each other. A registration lives
for a number of ticks, of which the first may follow at once. So an interval has to be shorter than
the lifetime by a whole tick; that is enough, and no longer interval will do.

* `Held`: the invariant. With every tick that a registration has behind it, the next renewal is one
  resolution closer to the tick that would end it.
* `registered_throughout_iff`: a registration never lapses if, and only if, the terms suffice.
-/

namespace FloodMesh

/-- How long registrations live and how often they are renewed. Times are in milliseconds. -/
structure Terms where
  /-- Ticks that a registration lives. -/
  ttl : Nat
  /-- Time between two ticks. -/
  resolution : Nat
  /-- Time between two renewals. -/
  interval : Nat
  /-- Whether a tick that falls due together with a renewal comes before it. If not, either may. -/
  ticksFirst : Bool
  ttl_pos : 0 < ttl
  resolution_pos : 0 < resolution
  interval_pos : 0 < interval

namespace Terms

/-- How soon a tick may follow on a renewal: at once, or a millisecond later where ticks come
first. -/
def lag (p : Terms) : Nat := p.ticksFirst.toNat

/-- The interval is shorter than the lifetime by a tick, and by more where either may come first. -/
def Suffice (p : Terms) : Prop := p.interval < (p.ttl - 1) * p.resolution + p.lag

instance (p : Terms) : Decidable p.Suffice := inferInstanceAs (Decidable (_ < _))

theorem lag_le (p : Terms) : p.lag ≤ 1 := Bool.toNat_le p.ticksFirst

end Terms

/-! ## Datagrams that arrive at once -/

namespace Directory

def take (d : Directory) (g : Datagram) : Directory :=
  registrar.step d (.datagram g.payload g.source)

def takeAll (d : Directory) (n : Network) : Directory := n.queue.foldl take d

end Directory

theorem Request.length_connect_le (port : UInt16) :
    (Request.connect (Nat.repr port.toNat)).encode.length ≤ maxMessageSize := by
  have hvalue : Request.portValue (Nat.repr port.toNat) = .ofNat port.toNat := by
    rw [Request.portValue, Text.port?_repr]
  have hsorted : Fields.Sorted [("method", .text "connect"), ("port", .ofNat port.toNat)] :=
    List.pairwise_pair.mpr (by decide +kernel : "method" < "port")
  have hencode : (Request.connect (Nat.repr port.toNat)).encode =
      (Json.object [("method", .text "connect"), ("port", .ofNat port.toNat)]).print ++
        delimiter := by
    show (Json.ofMembers [("method", .text "connect"),
      ("port", Request.portValue (Nat.repr port.toNat))]).print ++ delimiter = _
    rw [hvalue, Json.ofMembers, hsorted.ofList_eq]
  have hmethod : (Json.printText "method").length = 8 := by decide +kernel
  have hconnect : (Json.printText "connect").length = 9 := by decide +kernel
  have hport : (Json.printText "port").length = 6 := by decide +kernel
  have hrepr := Response.length_repr_le <|
    Nat.lt_trans port.toNat_lt (by decide : 65536 < UInt64.size)
  rw [hencode]
  simp only [Json.print, Json.printMembers, Json.ofNat, Number.format_natCast,
    List.length_append, List.length_cons, List.length_nil, hmethod, hconnect, hport]
  simp only [delimiter, maxMessageSize, List.length_cons, List.length_nil] at hrepr ⊢
  omega

theorem Signal.ofDatagram_connect (port : UInt16) (peer : Endpoint) :
    ofDatagram (Request.connect (Nat.repr port.toNat)).encode peer =
      some (.connect { ip := peer.ip, port }) := by
  have hparse : Request.parse (Request.connect (Nat.repr port.toNat)).encode = .ok
      (.connect (Request.plainPort (Nat.repr port.toNat))) :=
    Request.parse_encode (r := .connect (Nat.repr port.toNat)) trivial
      (Request.length_connect_le port)
  rw [ofDatagram, hparse]
  simp only [ofRequest, Request.port?_plainPort, Text.port?_repr, Option.map_some]

theorem Contact.signal_eq {c : Contact} {lookup : Lookup} {o : Outlet} {target : Endpoint}
    (hresolve : c.resolve lookup = .ok target) (hfree : target ∉ o.blocked) (n : Network)
    (q : Request) :
    c.signal lookup o n q = .ok (n.push { source := o.address, target, payload := q.encode }) := by
  have hblocked : o.blocked.contains target = false := by simpa using hfree
  unfold Contact.signal
  rw [hresolve]
  simp only [Outlet.send, hblocked]
  rfl

theorem Keepalive.register_eq {k : Keepalive} {lookup : Lookup} {o : Outlet} {target : Endpoint}
    (hresolve : k.directory.resolve lookup = .ok target) (hfree : target ∉ o.blocked)
    (n : Network) :
    k.register lookup o n = n.push
      { source := o.address, target
        payload := (Request.connect (Nat.repr k.listenPort.toNat)).encode } := by
  have hconnect := Contact.signal_eq hresolve hfree n (.connect (Nat.repr k.listenPort.toNat))
  unfold Keepalive.register Contact.connect
  rw [hconnect]

/-! ## The system -/

/-- A directory on its clock, and a router that stays registered there. -/
structure Tenancy where
  directory : Timed Directory
  keepalive : Keepalive
  /-- How the router's machine looks up the directory. -/
  lookup : Lookup
  outlet : Outlet

namespace Tenancy

/-- The router starts to register. -/
def opening (directory : Timed Directory) (contact : Contact) (port : UInt16) (interval : Nat)
    (lookup : Lookup) (outlet : Outlet) : Tenancy :=
  let (keepalive, sent) := Keepalive.start contact port directory.now interval lookup outlet {}
  { directory := directory.change fun d => d.takeAll sent, keepalive, lookup, outlet }

variable (t : Tenancy)

/-- What is registered. -/
def endpoint : Endpoint := { ip := t.outlet.address.ip, port := t.keepalive.listenPort }

def ticksDue : Nat :=
  match t.directory.ticker with
  | none => 0
  | some ticker => ticker.overdue t.directory.now

def renewalDue : Bool := t.keepalive.isDue t.directory.now

def elapse : Tenancy :=
  { t with directory := { t.directory with now := t.directory.now + 1 } }

def tick : Tenancy := { t with directory := t.directory.pass Directory.tick 0 }

def renew : Tenancy :=
  let (keepalive, sent) := t.keepalive.advance t.lookup t.directory.now t.outlet {}
  { t with directory := t.directory.change fun d => d.takeAll sent, keepalive }

def hear (ev : ServiceEvent Unit) : Tenancy :=
  { t with directory := t.directory.change fun d => Directory.registrar.step d ev }

/-- The directory has the router, and lists it. -/
def Registered : Prop :=
  t.directory.state.peers.contains t.endpoint = true ∧
    ∃ roster, t.directory.state.Reports roster ∧ t.endpoint ∈ roster

end Tenancy

/-- One step. Time does not pass while anything is due. Whatever else comes to the directory, it is
not the end of the router's registration. -/
inductive Moves (p : Terms) (t : Tenancy) : Tenancy → Prop
  | elapse (hticks : t.ticksDue = 0) (hrenewal : t.renewalDue = false) : Moves p t t.elapse
  | tick : Moves p t t.tick
  | renew (hticks : p.ticksFirst = true → t.ticksDue = 0) : Moves p t t.renew
  | hear (ev : ServiceEvent Unit) (htick : Directory.registrar.signal? ev ≠ some .tick)
      (hstay : Directory.registrar.signal? ev ≠ some (.disconnect t.endpoint)) :
      Moves p t (t.hear ev)

/-- A directory at any time of its life, and its ticker in any phase. -/
structure Serving (p : Terms) (d : Timed Directory) : Prop where
  table : ∃ name buckets evs,
    d.state = Directory.registrar.after { peers := .empty name p.ttl buckets } evs
  ticker : ∃ ticker, d.ticker = some ticker ∧ ticker.running = true ∧
    ticker.resolution = p.resolution ∧ d.now + p.lag ≤ ticker.due ∧
    ticker.due ≤ d.now + p.resolution

/-- A router that can reach the directory has just registered there for the first time. -/
inductive Opens (p : Terms) : Tenancy → Prop
  | opening {d : Timed Directory} {contact : Contact} {port : UInt16} {lookup : Lookup}
      {outlet : Outlet} {target : Endpoint} (hserving : Serving p d)
      (hresolve : contact.resolve lookup = .ok target) (hfree : target ∉ outlet.blocked) :
      Opens p (.opening d contact port p.interval lookup outlet)

/-! ## While the terms suffice -/

theorem Directory.takeAll_push (d : Directory) (g : Datagram) :
    d.takeAll (Network.push {} g) = d.take g := rfl

theorem Directory.peers_take (d : Directory) (g : Datagram) : (d.take g).peers =
    (Signal.ofDatagram g.payload g.source).elim d.peers d.peers.heed :=
  registrar.table_step d (.datagram g.payload g.source)

theorem Directory.peers_takeAll_connect (d : Directory) (source target : Endpoint) (port : UInt16) :
    (d.takeAll (Network.push {}
      { source, target, payload := (Request.connect (Nat.repr port.toNat)).encode })).peers =
      d.peers.heed (.connect { ip := source.ip, port }) := by
  rw [takeAll_push, peers_take, Signal.ofDatagram_connect, Option.elim_some]

namespace Tenancy

/-- The router stays registered: so many ticks have passed since it signalled last. The ticks that
are left to it reach beyond the next renewal. -/
structure Held (p : Terms) (t : Tenancy) (ticker : Ticker) (signals : List Signal) (ticks : Nat) :
    Prop where
  reaches : ∃ target, t.keepalive.directory.resolve t.lookup = .ok target ∧
    target ∉ t.outlet.blocked
  renews : t.keepalive.running = true
  interval : t.keepalive.interval = p.interval
  renewal : t.directory.now ≤ t.keepalive.due
  clock : t.directory.ticker = some ticker
  runs : ticker.running = true
  resolution : ticker.resolution = p.resolution
  next : t.directory.now ≤ ticker.due
  follows : t.directory.state.peers.Follows p.ttl signals
  listed : (t.endpoint, ticks) ∈ roster p.ttl signals
  ahead : t.keepalive.due + ticks * p.resolution + p.lag ≤ ticker.due + p.interval

variable {p : Terms} {t t' : Tenancy} {ticker : Ticker} {signals : List Signal} {ticks : Nat}

theorem tick_eq (hclock : t.directory.ticker = some ticker) :
    t.tick = { t with directory :=
      { state := (ticker.overdue t.directory.now).repeat Directory.tick t.directory.state
        now := t.directory.now
        ticker := some (ticker.advance (ticker.overdue t.directory.now)) } } := by
  simp only [tick, Timed.pass, hclock, Nat.add_zero]

theorem Held.registered (h : Held p t ticker signals ticks) : t.Registered := by
  have hmem : t.endpoint ∈ t.directory.state.peers.endpoints := by
    rw [h.follows.endpoints]
    exact List.mem_map.mpr ⟨_, h.listed, rfl⟩
  exact ⟨(h.follows.contains _).mpr hmem, _, Directory.reports h.follows.keyed, hmem⟩

theorem Held.ticksDue_eq (h : Held p t ticker signals ticks) :
    t.ticksDue = ticker.overdue t.directory.now := by
  rw [ticksDue, h.clock]

theorem Held.renewalDue_iff (h : Held p t ticker signals ticks) :
    t.renewalDue = true ↔ t.keepalive.due ≤ t.directory.now := by
  rw [renewalDue, Keepalive.isDue, h.renews, Bool.true_and, decide_eq_true_iff]

theorem renew_due (h : t.renewalDue = true) : t.renew =
    { t with
      directory := t.directory.change fun d => d.takeAll (t.keepalive.register t.lookup t.outlet {})
      keepalive := { t.keepalive with due := t.directory.now + t.keepalive.interval } } := by
  have hdue : t.keepalive.isDue t.directory.now = true := h
  rw [renew, Keepalive.advance, if_pos hdue]

/-- Before it is time, nothing is sent. -/
theorem renew_idle (h : ¬ t.renewalDue = true) : t.renew = t := by
  have hdue : ¬ t.keepalive.isDue t.directory.now = true := h
  rw [renew, Keepalive.advance, if_neg hdue]
  rfl

theorem peers_opening {contact : Contact} {lookup : Lookup} {outlet : Outlet} {target : Endpoint}
    (hresolve : contact.resolve lookup = .ok target) (hfree : target ∉ outlet.blocked)
    (d : Timed Directory) (port : UInt16) (interval : Nat) :
    (opening d contact port interval lookup outlet).directory.state.peers =
      d.state.peers.heed (.connect { ip := outlet.address.ip, port }) := by
  let k := (Keepalive.start contact port d.now interval lookup outlet {}).1
  have hregister := Keepalive.register_eq (k := k) hresolve hfree {}
  show (d.state.takeAll (k.register lookup outlet {})).peers = _
  rw [hregister]
  exact d.state.peers_takeAll_connect outlet.address target port

theorem held_opening (hopens : Opens p t) : ∃ ticker signals, Held p t ticker signals 0 := by
  cases hopens with
  | @opening d contact port lookup outlet target hserving hresolve hfree =>
    obtain ⟨name, buckets, evs, hstate⟩ := hserving.table
    obtain ⟨ticker, hticker, hruns, hresolution, hdue, _⟩ := hserving.ticker
    have hfollows : d.state.peers.Follows p.ttl (Directory.registrar.signals evs) := by
      have hafter : (Directory.registrar.after
          { peers := .empty name p.ttl buckets } evs).peers.Follows (max p.ttl 1)
            (Directory.registrar.signals evs) :=
        Directory.registrar.follows_after rfl evs
      rwa [Nat.max_eq_left p.ttl_pos, ← hstate] at hafter
    have hinterval : max 1 p.interval = p.interval := Nat.max_eq_right p.interval_pos
    refine ⟨ticker,
      Directory.registrar.signals evs ++ [.connect { ip := outlet.address.ip, port }], {
      reaches := ⟨target, hresolve, hfree⟩
      renews := rfl
      interval := hinterval
      renewal := Nat.le_add_right ..
      clock := hticker
      runs := hruns
      resolution := hresolution
      next := Nat.le_trans (Nat.le_add_right ..) hdue
      follows := ?_
      listed := mem_roster_connect p.ttl_pos
      ahead := ?_ }⟩
    · rw [peers_opening hresolve hfree]
      exact hfollows.heed p.ttl_pos _
    · show d.now + max 1 p.interval + 0 * p.resolution + p.lag ≤ ticker.due + p.interval
      rw [hinterval]
      omega

namespace Held

theorem elapse (h : Held p t ticker signals ticks) (hticks : t.ticksDue = 0)
    (hrenewal : t.renewalDue = false) : Held p t.elapse ticker signals ticks := by
  rw [h.ticksDue_eq] at hticks
  exact { h with
    renewal := Nat.lt_of_not_le fun hle => by simp [h.renewalDue_iff.mpr hle] at hrenewal
    next := Ticker.lt_due_of_overdue h.runs hticks }

/-- A registration outlives every tick before its next renewal. -/
theorem tick (h : Held p t ticker signals ticks) (hsuffice : p.Suffice) :
    ∃ ticker' signals' ticks', Held p t.tick ticker' signals' ticks' := by
  rcases Ticker.overdue_cases h.runs h.next with hnone | ⟨hnow, hone⟩
  · have hsame : t.tick = t := by
      rw [tick_eq h.clock, hnone, Ticker.advance_zero, ← h.clock]
      rfl
    rw [hsame]
    exact ⟨ticker, signals, ticks, h⟩
  · have hahead := h.ahead
    have hrenewal := h.renewal
    have hleft : ticks * p.resolution < (p.ttl - 1) * p.resolution := by
      have hsuffice' : p.interval < (p.ttl - 1) * p.resolution + p.lag := hsuffice
      omega
    have hticks : ticks < p.ttl - 1 := Nat.lt_of_mul_lt_mul_right hleft
    have htick : t.tick = { t with directory :=
        { state := t.directory.state.tick, now := t.directory.now
          ticker := some (ticker.advance 1) } } := by
      rw [tick_eq h.clock, hone]
      rfl
    rw [htick]
    have hfollows : t.directory.state.tick.peers.Follows p.ttl (signals ++ [.tick]) :=
      h.follows.heed p.ttl_pos .tick
    refine ⟨ticker.advance 1, signals ++ [.tick], ticks + 1, { h with
      clock := rfl
      next := Nat.le_trans h.next (Nat.le_add_right ..)
      follows := hfollows
      listed := mem_roster_tick h.listed (by omega)
      ahead := ?_ }⟩
    show t.keepalive.due + (ticks + 1) * p.resolution + p.lag ≤
      ticker.due + 1 * ticker.resolution + p.interval
    rw [h.resolution, Nat.add_mul]
    omega

/-- A renewal is the first signal of a registration with its whole lifetime before it. -/
theorem renew (h : Held p t ticker signals ticks)
    (hticks : p.ticksFirst = true → t.ticksDue = 0) :
    ∃ signals' ticks', Held p t.renew ticker signals' ticks' := by
  by_cases hdue : t.renewalDue = true
  · obtain ⟨target, hresolve, hfree⟩ := h.reaches
    have hnow : t.directory.now = t.keepalive.due :=
      Nat.le_antisymm h.renewal (h.renewalDue_iff.mp hdue)
    have hrenew : t.renew.directory.state.peers =
        t.directory.state.peers.heed (.connect t.endpoint) := by
      rw [renew_due hdue, Keepalive.register_eq hresolve hfree]
      exact t.directory.state.peers_takeAll_connect t.outlet.address target t.keepalive.listenPort
    have hnext : t.renew.keepalive.due = t.keepalive.due + p.interval := by
      rw [renew_due hdue, ← h.interval, ← hnow]
    -- Where ticks come first, the next one is later than now.
    have hlater : t.directory.now + p.lag ≤ ticker.due := by
      cases hfirst : p.ticksFirst with
      | false =>
        rw [Terms.lag, hfirst]
        exact h.next
      | true =>
        have hnone := hticks hfirst
        rw [h.ticksDue_eq] at hnone
        rw [Terms.lag, hfirst]
        exact Ticker.lt_due_of_overdue h.runs hnone
    rw [renew_due hdue] at hrenew hnext ⊢
    refine ⟨signals ++ [.connect t.endpoint], 0, { h with
      renewal := ?_, follows := ?_, listed := mem_roster_connect p.ttl_pos, ahead := ?_ }⟩
    · rw [hnext]
      exact Nat.le_trans h.renewal (Nat.le_add_right ..)
    · rw [hrenew]
      exact h.follows.heed p.ttl_pos _
    · rw [hnext]
      omega
  · rw [renew_idle hdue]
    exact ⟨signals, ticks, h⟩

theorem hear (h : Held p t ticker signals ticks) {ev : ServiceEvent Unit}
    (htick : Directory.registrar.signal? ev ≠ some .tick)
    (hstay : Directory.registrar.signal? ev ≠ some (.disconnect t.endpoint)) :
    ∃ signals' ticks', Held p (t.hear ev) ticker signals' ticks' := by
  have hpeers : (t.hear ev).directory.state.peers = (Directory.registrar.signal? ev).elim
      t.directory.state.peers t.directory.state.peers.heed :=
    Directory.registrar.table_step t.directory.state ev
  cases hsignal : Directory.registrar.signal? ev with
  | none =>
    rw [hsignal, Option.elim_none] at hpeers
    exact ⟨signals, ticks, { h with follows := hpeers ▸ h.follows }⟩
  | some s =>
    rw [hsignal, Option.elim_some] at hpeers
    rw [hsignal] at htick hstay
    obtain ⟨ticks', hle, hlisted⟩ := mem_roster_snoc h.listed (fun hs => htick (congrArg some hs))
      fun hs => hstay (congrArg some hs)
    refine ⟨signals ++ [s], ticks', { h with follows := ?_, listed := hlisted, ahead := ?_ }⟩
    · rw [hpeers]
      exact h.follows.heed p.ttl_pos s
    · have hahead := h.ahead
      have hmul := Nat.mul_le_mul_right p.resolution hle
      show t.keepalive.due + ticks' * p.resolution + p.lag ≤ ticker.due + p.interval
      omega

theorem moves (h : Held p t ticker signals ticks) (hsuffice : p.Suffice) (hmoves : Moves p t t') :
    ∃ ticker' signals' ticks', Held p t' ticker' signals' ticks' := by
  cases hmoves with
  | elapse hticks hrenewal => exact ⟨_, _, _, h.elapse hticks hrenewal⟩
  | tick => exact h.tick hsuffice
  | renew hticks => exact ⟨_, h.renew hticks⟩
  | hear ev htick hstay => exact ⟨_, h.hear htick hstay⟩

end Held

theorem held_of_run (hsuffice : p.Suffice) (hopens : Opens p t)
    (hrun : Relation.ReflTransGen (Moves p) t t') :
    ∃ ticker signals ticks, Held p t' ticker signals ticks := by
  induction hrun with
  | refl =>
    obtain ⟨ticker, signals, h⟩ := held_opening hopens
    exact ⟨ticker, signals, 0, h⟩
  | tail _ hmoves ih =>
    obtain ⟨ticker, signals, ticks, h⟩ := ih
    exact h.moves hsuffice hmoves

/-! ## If they do not -/

/-- An empty directory whose next tick comes as soon as it may. -/
def hasty (p : Terms) : Timed Directory :=
  { state := { peers := .empty "routers" p.ttl 64 }
    ticker := some { resolution := p.resolution, due := p.lag } }

def contact : Contact := { host := "127.0.0.1", port := 6666 }

theorem resolve_contact :
    contact.resolve .numeric = .ok { ip := .v4 #v[127, 0, 0, 1], port := 6666 } := by
  decide +kernel

/-- A router that starts to register there. -/
def outset (p : Terms) : Tenancy :=
  opening (hasty p) contact 5555 p.interval .numeric
    { address := { ip := .v4 #v[10, 0, 0, 4], port := 5555 } }

theorem opens_outset (p : Terms) : Opens p (outset p) := by
  have hdue : p.lag ≤ 0 + p.resolution := by
    have hlag := p.lag_le
    have hresolution := p.resolution_pos
    omega
  exact .opening ⟨⟨"routers", 64, [], rfl⟩, _, rfl, rfl, rfl, Nat.le_of_eq (Nat.zero_add _), hdue⟩
    resolve_contact List.not_mem_nil

/-- So many ticks later, at a time. -/
def ticked (p : Terms) (ticks now : Nat) : Tenancy :=
  { outset p with directory :=
    { state := ticks.repeat Directory.tick (outset p).directory.state
      now
      ticker := some { resolution := p.resolution, due := p.lag + ticks * p.resolution } } }

theorem ticked_zero (p : Terms) : ticked p 0 0 = outset p := by
  rw [ticked, Nat.zero_mul, Nat.add_zero]
  rfl

theorem due_outset (p : Terms) : (outset p).keepalive.due = p.interval := by
  show 0 + max 1 p.interval = p.interval
  rw [Nat.zero_add, Nat.max_eq_right p.interval_pos]

/-- Time passes until a tick or the renewal is due. -/
theorem ticked_elapse {now now' : Nat} (hle : now ≤ now')
    (hticks : now' ≤ p.lag + ticks * p.resolution) (hrenewal : now' ≤ p.interval) :
    Relation.ReflTransGen (Moves p) (ticked p ticks now) (ticked p ticks now') := by
  induction hle with
  | refl => exact .refl
  | @step now' hle ih =>
    let ticker : Ticker := { resolution := p.resolution, due := p.lag + ticks * p.resolution }
    have hticks' : ticker.overdue now' = 0 := Ticker.overdue_before hticks
    have hrenewal' : (outset p).keepalive.isDue now' = false := by
      rw [Keepalive.isDue, due_outset, Bool.and_eq_false_iff]
      exact .inr (decide_eq_false (Nat.not_le_of_lt hrenewal))
    exact .tail (ih (by omega) (by omega)) (.elapse hticks' hrenewal')

theorem ticked_tick (p : Terms) (ticks : Nat) :
    Moves p (ticked p ticks (p.lag + ticks * p.resolution))
      (ticked p (ticks + 1) (p.lag + ticks * p.resolution)) := by
  let ticker : Ticker := { resolution := p.resolution, due := p.lag + ticks * p.resolution }
  have hone : ticker.overdue (p.lag + ticks * p.resolution) = 1 := Ticker.overdue_due rfl
  have hdue : p.lag + ticks * p.resolution + 1 * p.resolution =
      p.lag + (ticks + 1) * p.resolution := by
    rw [Nat.add_mul, Nat.add_assoc]
  have htick : (ticked p ticks (p.lag + ticks * p.resolution)).tick =
      ticked p (ticks + 1) (p.lag + ticks * p.resolution) := by
    have hclock : (ticked p ticks (p.lag + ticks * p.resolution)).directory.ticker = some ticker :=
      rfl
    rw [tick_eq hclock]
    simp only [ticked, hone, Ticker.advance, ticker, hdue]
    rfl
  rw [← htick]
  exact .tick

/-- At the latest tick by which a registration has to be renewed, nothing has renewed it. -/
theorem ticked_run (hlate : (p.ttl - 1) * p.resolution + p.lag ≤ p.interval) {n : Nat}
    (hn : n < p.ttl) :
    Relation.ReflTransGen (Moves p) (outset p) (ticked p (n + 1) (p.lag + n * p.resolution)) := by
  have hdue : ∀ k ≤ n, p.lag + k * p.resolution ≤ p.interval := by
    intro k hk
    have hmul : k * p.resolution ≤ (p.ttl - 1) * p.resolution :=
      Nat.mul_le_mul_right _ (by omega)
    omega
  induction n with
  | zero =>
    have hlag : p.lag + 0 * p.resolution ≤ p.interval := hdue 0 (Nat.le_refl 0)
    have helapse := ticked_elapse (p := p) (Nat.zero_le _) (Nat.le_refl _) hlag
    rw [ticked_zero] at helapse
    exact helapse.tail (ticked_tick p 0)
  | succ n ih =>
    have hbefore := ih (by omega) fun k hk => hdue k (by omega)
    have hstep : p.lag + n * p.resolution ≤ p.lag + (n + 1) * p.resolution := by
      rw [Nat.add_mul]
      omega
    exact (hbefore.trans (ticked_elapse hstep (Nat.le_refl _) (hdue _ (Nat.le_refl _)))).tail
      (ticked_tick p (n + 1))

theorem follows_ticked (p : Terms) (ticks now : Nat) :
    (ticked p ticks now).directory.state.peers.Follows p.ttl
      (.connect (outset p).endpoint :: List.replicate ticks .tick) := by
  induction ticks with
  | zero =>
    have hfollows := (PeerTable.follows_empty "routers" p.ttl 64).heed (Nat.le_max_right _ _)
      (.connect (outset p).endpoint)
    rw [Nat.max_eq_left p.ttl_pos] at hfollows
    show (outset p).directory.state.peers.Follows _ _
    rw [outset, peers_opening resolve_contact List.not_mem_nil]
    exact hfollows
  | succ ticks ih =>
    rw [List.replicate_succ', ← List.cons_append]
    exact ih.heed p.ttl_pos .tick

/-- Terms that do not suffice let a registration lapse. -/
theorem lapses (hlate : ¬ p.Suffice) :
    ∃ t, Relation.ReflTransGen (Moves p) (outset p) t ∧ ¬ t.Registered := by
  have hpos := p.ttl_pos
  have hrun := ticked_run (Nat.le_of_not_lt hlate) (Nat.sub_lt hpos Nat.zero_lt_one)
  rw [Nat.sub_add_cancel hpos] at hrun
  refine ⟨_, hrun, fun hregistered => ?_⟩
  have hfollows := follows_ticked p p.ttl (p.lag + (p.ttl - 1) * p.resolution)
  have hmem := (hfollows.contains _).mp hregistered.1
  rw [hfollows.endpoints, roster_lapsed] at hmem
  cases hmem

/-! ## Exactly then -/

/-- Whatever a directory has been through, and however its ticks stand to the time at which a router
registers there first, the router is registered and listed from then on, at any time and whatever
else the directory hears but the end of the router's own registration, if its interval is shorter
than the lifetime by a tick; otherwise there are runs in which it is not. -/
theorem registered_throughout_iff (p : Terms) :
    (∀ t t', Opens p t → Relation.ReflTransGen (Moves p) t t' → t'.Registered) ↔ p.Suffice := by
  constructor
  · intro halways
    by_contra hlate
    obtain ⟨t, hrun, hlapsed⟩ := lapses hlate
    exact hlapsed (halways _ t (opens_outset p) hrun)
  · intro hsuffice t t' hopens hrun
    obtain ⟨_, _, _, h⟩ := held_of_run hsuffice hopens hrun
    exact h.registered

/-- The default settings: ten ticks of a second each, and a renewal every nine seconds. -/
def standard : Terms :=
  { ttl := 10, resolution := 1000, interval := 9000, ticksFirst := true
    ttl_pos := by decide, resolution_pos := by decide, interval_pos := by decide }

/-- They suffice, just so: here the first tick has come a millisecond after the registration. -/
theorem registered_throughout_standard :
    standard.Suffice ∧ Opens standard (outset standard) ∧
      Relation.ReflTransGen (Moves standard) (outset standard) (ticked standard 1 1) ∧
      (ticked standard 1 1).Registered := by
  have hsuffice : standard.Suffice := by decide
  have helapse :
      Relation.ReflTransGen (Moves standard) (ticked standard 0 0) (ticked standard 0 1) :=
    ticked_elapse (Nat.zero_le 1) (by decide) (by decide)
  rw [ticked_zero] at helapse
  have hrun := helapse.tail (ticked_tick standard 0)
  exact ⟨hsuffice, opens_outset standard, hrun,
    (registered_throughout_iff standard).mpr hsuffice _ _ (opens_outset standard) hrun⟩

/-- A registration that lives for one tick of two seconds and is renewed every second is renewed
well within its lifetime. It lapses all the same if the tick comes before the first renewal. -/
def brief : Terms :=
  { ttl := 1, resolution := 2000, interval := 1000, ticksFirst := true
    ttl_pos := by decide, resolution_pos := by decide, interval_pos := by decide }

theorem registration_lapses :
    brief.interval < brief.ttl * brief.resolution ∧ Opens brief (outset brief) ∧
      ∃ t, Relation.ReflTransGen (Moves brief) (outset brief) t ∧ ¬ t.Registered :=
  ⟨by decide, opens_outset brief, lapses (by decide)⟩

end Tenancy

end FloodMesh
