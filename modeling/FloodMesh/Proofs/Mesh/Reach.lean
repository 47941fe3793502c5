import FloodMesh.Proofs.Mesh.Routes

/-!
# FloodMesh.Proofs.Mesh.Reach

How far a message gets when datagrams are delivered oldest first. The queue then holds the hops in
order, never more than one apart, so the first copy that a relay gets has come on a shortest route.
-/

namespace FloodMesh

def Handling.forwarded (h : Handling) : Bool :=
  match h.outcome with
  | .forwarded _ _ => true
  | _ => false

theorem Handling.not_forwarded {h : Handling}
    (hne : ∀ routers clients, h.outcome ≠ .forwarded routers clients) : h.forwarded = false := by
  rw [forwarded]
  split
  · rename_i houtcome
    exact absurd houtcome (hne _ _)
  · rfl

namespace Mesh

/-- Where envelopes went on. -/
def passers (hs : List Handling) : List Nat := (hs.filter (·.forwarded)).map (·.place)

/-- What was handled first at a place. -/
def first? (hs : List Handling) (j : Nat) : Option Handling := hs.find? (·.place == j)

theorem first?_snoc (hs : List Handling) (h : Handling) (j : Nat) :
    first? (hs ++ [h]) j = (first? hs j).or (if h.place = j then some h else none) := by
  rw [first?, List.find?_append]
  by_cases heq : h.place = j <;> simp [first?, heq]

theorem first?_grows {hs : List Handling} {j : Nat} (hj : first? hs j ≠ none) (h : Handling) :
    first? (hs ++ [h]) j ≠ none := by
  simp [first?_snoc, hj]

theorem first?_self (hs : List Handling) (h : Handling) : first? (hs ++ [h]) h.place ≠ none := by
  simp [first?_snoc]

theorem place_of_first? {hs : List Handling} {h : Handling} {j : Nat}
    (hfirst : first? hs j = some h) :
    h.place = j := by
  simpa using List.find?_some hfirst

theorem passers_snoc (hs : List Handling) (h : Handling) :
    passers (hs ++ [h]) = passers hs ++ if h.forwarded = true then [h.place] else [] := by
  rw [passers, List.filter_append, List.map_append]
  by_cases hf : h.forwarded = true <;> simp [passers, hf]

theorem first?_of_passers {hs : List Handling} {j : Nat} (hj : j ∈ passers hs) :
    first? hs j ≠ none := by
  obtain ⟨h, hh, rfl⟩ := List.mem_map.mp hj
  intro hnone
  have hne := List.find?_eq_none.mp hnone h (List.mem_filter.mp hh).1
  simp at hne

variable {m : Mesh} {o limit : Nat} {e : Envelope}

/-- The start of a flood: the relay at `o` is about to originate a message that nobody knows, in a
mesh where nothing is in flight. -/
structure Outset (m : Mesh) (o : Nat) (e : Envelope) (limit : Nat) : Prop extends m.Clear limit where
  limit_pos : 1 ≤ limit
  limit_le : limit ≤ 9
  origin : o < m.relays.length
  fresh : e.Fresh
  unknown : ∀ r ∈ m.relays, r.knows e.id = false
  empty : m.network.queue = []

/-- The datagram is a copy from the relay at `i`, to which the message took `n` hops. -/
structure Copy (m : Mesh) (o : Nat) (e : Envelope) (limit : Nat) (d : Datagram) (i n : Nat) :
    Prop where
  distance : m.Distance o n i
  below : n < limit
  sender : ∃ r, m.relays[i]? = some r ∧ d.source = r.outlet.address ∧
    (d.target ∈ r.routers.endpoints ∨ d.target ∈ r.clients.endpoints) ∧
    Request.parse d.payload = .ok (.broadcast { e with hops := n + 1, hopPort := r.listenPort })

namespace Copy

variable {d : Datagram} {i j n : Nat}

theorem hops (c : m.Copy o e limit d i n) : d.hops = n + 1 := by
  obtain ⟨r, _, _, _, hparse⟩ := c.sender
  exact Datagram.hops_eq hparse

theorem route (c : m.Copy o e limit d i n) (hclear : m.Clear limit)
    (hj : m.indexOf? d.target = some j) :
    m.Route o (n + 1) j := by
  obtain ⟨r, hr, _, htarget, _⟩ := c.sender
  exact c.distance.route.onward (hclear.lists hr htarget hj)

end Copy

/-- A copy that has come to a relay on a shortest route; the relay passes it on unless it is at the
limit. -/
structure Arrival (m : Mesh) (o : Nat) (e : Envelope) (limit : Nat) (hs : List Handling)
    (h : Handling) : Prop where
  distance : m.Distance o h.envelope.hops h.place
  within : h.envelope.hops ≤ limit
  copy : h.envelope = { e with hops := h.envelope.hops, hopPort := h.envelope.hopPort }
  passes : h.envelope.hops < limit → h.place ∈ passers hs

/-- How far a message has spread: `now` is the mesh after the envelopes in `hs` were handled and the
datagrams in `ds` were delivered. -/
structure Spread (m : Mesh) (o : Nat) (e : Envelope) (limit : Nat) (now : Mesh) (hs : List Handling)
    (ds : List Datagram) : Prop where
  /-- The relays where the envelope went on know the id, and nothing else has changed. -/
  relays : now.relays = m.relays.mapIdx fun i r => if i ∈ passers hs then r.remember e.id else r
  once : (passers hs).Nodup
  passed : ∀ i ∈ passers hs, ∃ n < limit, m.Distance o n i
  /-- Hops rise along the queue, by one at most. -/
  rises : now.network.queue.Pairwise fun a b => a.hops ≤ b.hops ∧ b.hops ≤ a.hops + 1
  flying : ∀ d ∈ now.network.queue, ∃ i ∈ passers hs, ∃ n, m.Copy o e limit d i n
  delivered : ∀ d ∈ ds, ∃ i n, m.Copy o e limit d i n
  first : ∀ j h, first? hs j = some h → m.Arrival o e limit hs h
  /-- What a relay sent has arrived or is in flight. -/
  onward : ∀ i ∈ passers hs, ∀ n j, m.Distance o n i → m.Lists i j → first? hs j ≠ none ∨
    ∃ d ∈ now.network.queue, m.indexOf? d.target = some j ∧ d.hops = n + 1

theorem Outset.copy (hout : m.Outset o e limit) {j : Nat} {r : Relay} (hr : m.relays[j]? = some r)
    {envelope : Envelope} (hdistance : m.Distance o envelope.hops j) (hbelow : envelope.hops < limit)
    (hcopy : envelope = { e with hops := envelope.hops, hopPort := envelope.hopPort })
    {source : Option IpAddress} {d : Datagram} (hd : d ∈ r.copies envelope source) :
    m.Copy o e limit d j envelope.hops := by
  obtain ⟨t, ht, rfl⟩ := List.mem_map.mp hd
  have hstamp : r.stamp envelope =
      { e with hops := envelope.hops + 1, hopPort := r.listenPort } := by
    rw [hcopy]
    rfl
  have hle : (r.stamp envelope).hops ≤ 9 := by
    have hlimit := hout.limit_le
    show envelope.hops + 1 ≤ 9
    omega
  have hparse := (hout.fresh.encode (e := r.stamp envelope) (by rw [hstamp]) (by rw [hstamp]) hle).2
  refine ⟨hdistance, hbelow, r, hr, rfl, Relay.mem_targets (List.mem_of_mem_filter ht), ?_⟩
  rw [← hstamp]
  exact hparse

namespace Spread

variable {now : Mesh} {hs : List Handling} {ds rest : List Datagram} {d : Datagram} {h : Handling}
  {i j n : Nat}

/-- Nothing has spread before the message is originated. -/
theorem nothing (h : m.Outset o e limit) : m.Spread o e limit m [] [] where
  relays := List.ext_getElem? fun i => by simp [passers]
  once := List.nodup_nil
  passed := fun _ hi => nomatch hi
  rises := by rw [h.empty]; exact .nil
  flying := by rw [h.empty]; exact fun _ hd => nomatch hd
  delivered := fun _ hd => nomatch hd
  first := fun _ _ hfirst => nomatch hfirst
  onward := fun _ hi => nomatch hi

/-- Whatever is nearer than all that is in flight has got the message. -/
theorem arrived (s : m.Spread o e limit now hs ds) (horigin : o ∈ passers hs)
    (hflying : ∀ d ∈ now.network.queue, n < d.hops) (hle : n ≤ limit) (hn : m.Distance o n j) :
    first? hs j ≠ none := by
  induction n generalizing j with
  | zero =>
    rw [hn.eq_of_zero]
    exact first?_of_passers horigin
  | succ n ih =>
    obtain ⟨i, hi, hlists⟩ := hn.before
    have hbefore := ih (fun d hd => Nat.lt_of_succ_lt (hflying d hd)) (Nat.le_of_succ_le hle) hi
    obtain ⟨h, hfirst⟩ := Option.ne_none_iff_exists'.mp hbefore
    obtain rfl := place_of_first? hfirst
    have harrival := s.first _ h hfirst
    have heq : h.envelope.hops = n := harrival.distance.unique hi
    -- The relay before is below the limit, so it has passed the message on. Its copy has arrived, or
    -- it is in flight with too few hops.
    rcases s.onward _ (harrival.passes (by omega)) n j hi hlists with hj | ⟨d, hd, _, hhops⟩
    · exact hj
    · have hlt := hflying d hd
      omega

/-- The next datagram to a relay that has not got the message has come on a shortest route. -/
theorem shortest (s : m.Spread o e limit now hs ds) (hclear : m.Clear limit)
    (horigin : o ∈ passers hs)
    (hqueue : now.network.queue = d :: rest) (hcopy : m.Copy o e limit d i n)
    (hj : m.indexOf? d.target = some j) (hnew : first? hs j = none) : m.Distance o (n + 1) j := by
  obtain ⟨k, hk, hdistance⟩ := (hcopy.route hclear hj).distance
  rcases Nat.lt_or_eq_of_le hk with hlt | rfl
  · have hrises := s.rises
    rw [hqueue, List.pairwise_cons] at hrises
    -- Were there a shorter route, its copy would have come before: nothing in flight has fewer hops
    -- than the datagram in front.
    have hflying : ∀ c ∈ now.network.queue, k < c.hops := by
      intro c hc
      have hhops := hcopy.hops
      rw [hqueue] at hc
      rcases List.mem_cons.mp hc with rfl | hc
      · omega
      · have hle := (hrises.1 c hc).1
        omega
    have hbelow := hcopy.below
    exact absurd hnew (s.arrived horigin hflying (by omega) hdistance)
  · exact hdistance

/-! ## One step -/

theorem relay_new (s : m.Spread o e limit now hs ds) {r : Relay} (hr : m.relays[j]? = some r)
    (hj : j ∉ passers hs) : now.relays[j]? = some r := by
  rw [s.relays, List.getElem?_mapIdx, hr, Option.map_some, if_neg hj]

theorem relay_passed (s : m.Spread o e limit now hs ds) {r : Relay} (hr : m.relays[j]? = some r)
    (hj : j ∈ passers hs) : now.relays[j]? = some (r.remember e.id) := by
  rw [s.relays, List.getElem?_mapIdx, hr, Option.map_some, if_pos hj]

/-- What a relay sent has arrived or is still in flight, when datagrams leave the queue only as they
arrive. -/
theorem onward_of (s : m.Spread o e limit now hs ds) {queue : List Datagram} {hs' : List Handling}
    (hgrow : ∀ j, first? hs j ≠ none → first? hs' j ≠ none)
    (hgone : ∀ d ∈ now.network.queue, ∀ j, m.indexOf? d.target = some j →
      d ∈ queue ∨ first? hs' j ≠ none)
    (hi : i ∈ passers hs) (hn : m.Distance o n i) (hlists : m.Lists i j) :
    first? hs' j ≠ none ∨ ∃ d ∈ queue, m.indexOf? d.target = some j ∧ d.hops = n + 1 := by
  rcases s.onward i hi n j hn hlists with hj | ⟨d, hd, htarget, hhops⟩
  · exact .inl (hgrow j hj)
  · rcases hgone d hd j htarget with hd | hj
    · exact .inr ⟨d, hd, htarget, hhops⟩
    · exact .inl hj

theorem first_snoc (s : m.Spread o e limit now hs ds)
    (hnew : first? hs h.place = none → m.Arrival o e limit (hs ++ [h]) h) :
    ∀ j g, first? (hs ++ [h]) j = some g → m.Arrival o e limit (hs ++ [h]) g := by
  intro j g hg
  rw [first?_snoc, Option.or_eq_some_iff] at hg
  rcases hg with hg | ⟨hnone, hg⟩
  · have harrival := s.first j g hg
    refine { harrival with passes := fun hlt => ?_ }
    rw [passers_snoc]
    exact List.mem_append_left _ (harrival.passes hlt)
  · split at hg
    · rename_i hplace
      cases hg
      exact hnew (hplace ▸ hnone)
    · cases hg

theorem delivered_snoc (s : m.Spread o e limit now hs ds) (hqueue : now.network.queue = d :: rest) :
    ∀ c ∈ ds ++ [d], ∃ i n, m.Copy o e limit c i n := by
  intro c hc
  rcases List.mem_append.mp hc with hc | hc
  · exact s.delivered c hc
  · obtain ⟨i, _, n, hcopy⟩ := s.flying d (hqueue ▸ List.mem_cons_self)
    rw [List.mem_singleton.mp hc]
    exact ⟨i, n, hcopy⟩

/-- The next datagram goes to no relay. -/
theorem pass_by (s : m.Spread o e limit now hs ds) (hqueue : now.network.queue = d :: rest)
    (hnone : m.indexOf? d.target = none) :
    m.Spread o e limit { now with network := ⟨rest⟩ } hs (ds ++ [d]) := by
  have hrises := s.rises
  rw [hqueue, List.pairwise_cons] at hrises
  refine { s with
    rises := hrises.2
    flying := fun c hc => s.flying c (hqueue ▸ List.mem_cons_of_mem d hc)
    delivered := s.delivered_snoc hqueue
    onward := fun i hi n j hn hlists =>
      s.onward_of (fun _ hj => hj) (fun c hc k htarget => ?_) hi hn hlists }
  rw [hqueue] at hc
  rcases List.mem_cons.mp hc with rfl | hc
  · rw [hnone] at htarget
    cases htarget
  · exact .inl hc

/-- The next datagram goes to a relay that does not pass it on. -/
theorem stop (s : m.Spread o e limit now hs ds) (hqueue : now.network.queue = d :: rest)
    (hj : m.indexOf? d.target = some h.place) (hstops : h.forwarded = false)
    (hnew : first? hs h.place = none → m.Arrival o e limit hs h) :
    m.Spread o e limit { now with network := ⟨rest⟩ } (hs ++ [h]) (ds ++ [d]) := by
  have hrises := s.rises
  rw [hqueue, List.pairwise_cons] at hrises
  have hsame : passers (hs ++ [h]) = passers hs := by simp [passers_snoc, hstops]
  refine
    { relays := by rw [hsame]; exact s.relays
      once := by rw [hsame]; exact s.once
      passed := by rw [hsame]; exact s.passed
      rises := hrises.2
      flying := fun c hc => by
        rw [hsame]
        exact s.flying c (hqueue ▸ List.mem_cons_of_mem d hc)
      delivered := s.delivered_snoc hqueue
      first := s.first_snoc fun hnone =>
        { hnew hnone with passes := by rw [hsame]; exact (hnew hnone).passes }
      onward := fun i hi n j hn hlists => ?_ }
  rw [hsame] at hi
  refine s.onward_of (fun k hk => first?_grows hk h) (fun c hc k htarget => ?_) hi hn hlists
  rw [hqueue] at hc
  rcases List.mem_cons.mp hc with rfl | hc
  · rw [hj] at htarget
    cases htarget
    exact .inr (first?_self hs h)
  · exact .inl hc

/-- Copies with one hop more than what has just left the queue join it at the end. -/
theorem rises_append {queue sent : List Datagram}
    (hrises : queue.Pairwise fun a b => a.hops ≤ b.hops ∧ b.hops ≤ a.hops + 1)
    (hlevel : ∀ d ∈ queue, n ≤ d.hops ∧ d.hops ≤ n + 1) (hsent : ∀ d ∈ sent, d.hops = n + 1) :
    (queue ++ sent).Pairwise fun a b => a.hops ≤ b.hops ∧ b.hops ≤ a.hops + 1 := by
  refine List.pairwise_append.mpr ⟨hrises, ?_, fun a ha b hb => ?_⟩
  · refine List.pairwise_of_forall_mem_list fun a ha b hb => ?_
    have hafter := hsent a ha
    have hbefore := hsent b hb
    omega
  · have hbefore := hlevel a ha
    have hafter := hsent b hb
    omega

/-- Each relay that the one passing on lists has got the message or gets a copy now: only the
address that the envelope came from is left out, and the relay there has passed it on before. -/
theorem onward_copies (hout : m.Outset o e limit) {r : Relay} (hr : m.relays[h.place]? = some r)
    (hcopies : ∀ d ∈ r.copies h.envelope h.source, m.Copy o e limit d h.place h.envelope.hops)
    (hsource : ∀ k t, m.relays[k]? = some t → h.source = some t.outlet.address.ip →
      first? hs k ≠ none)
    (hlists : m.Lists h.place j) : first? hs j ≠ none ∨
      ∃ d ∈ r.copies h.envelope h.source, m.indexOf? d.target = some j ∧
        d.hops = h.envelope.hops + 1 := by
  by_cases harrived : first? hs j = none
  · obtain ⟨d, hd, htarget⟩ := hout.mem_copies hr hlists h.envelope
      fun t ht heq => hsource j t ht heq harrived
    exact .inr ⟨d, hd, htarget, (hcopies d hd).hops⟩
  · exact .inl harrived

/-- An envelope comes to a relay that passes it on. -/
theorem pass (s : m.Spread o e limit now hs ds) (hout : m.Outset o e limit) {r : Relay}
    (hr : m.relays[h.place]? = some r) (hnew : first? hs h.place = none)
    (hdistance : m.Distance o h.envelope.hops h.place) (hbelow : h.envelope.hops < limit)
    (hcopy : h.envelope = { e with hops := h.envelope.hops, hopPort := h.envelope.hopPort })
    (hsource : ∀ k t, m.relays[k]? = some t → h.source = some t.outlet.address.ip →
      first? hs k ≠ none)
    (hpasses : h.forwarded = true) {queue ds' : List Datagram}
    (hsub : queue.Sublist now.network.queue)
    (hgone : ∀ d ∈ now.network.queue, d ∈ queue ∨ m.indexOf? d.target = some h.place)
    (hlevel : ∀ d ∈ queue, h.envelope.hops ≤ d.hops ∧ d.hops ≤ h.envelope.hops + 1)
    (hdelivered : ∀ d ∈ ds', ∃ i n, m.Copy o e limit d i n) :
    m.Spread o e limit
      (now.handled queue h.place (r.remember e.id) (r.copies h.envelope h.source)) (hs ++ [h]) ds' := by
  have hgrown : passers (hs ++ [h]) = passers hs ++ [h.place] := by simp [passers_snoc, hpasses]
  have hfresh : h.place ∉ passers hs := fun hmem => first?_of_passers hmem hnew
  have hcopies : ∀ d ∈ r.copies h.envelope h.source, m.Copy o e limit d h.place h.envelope.hops :=
    fun d hd => hout.copy hr hdistance hbelow hcopy hd
  refine
    { relays := ?relays
      once := ?once
      passed := ?passed
      rises := ?rises
      flying := ?flying
      delivered := hdelivered
      first := s.first_snoc fun _ =>
        ⟨hdistance, Nat.le_of_lt hbelow, hcopy, fun _ => by simp [hgrown]⟩
      onward := ?onward }
  case relays =>
    refine List.ext_getElem? fun i => ?_
    show (now.relays.set h.place (r.remember e.id))[i]? = _
    rw [s.relays, hgrown]
    by_cases heq : h.place = i
    · subst heq
      obtain ⟨hlt, rfl⟩ := List.getElem?_eq_some_iff.mp hr
      simp [hlt]
    · simp [List.getElem?_set_ne heq, Ne.symm heq]
  case once =>
    rw [hgrown]
    exact List.nodup_append.mpr ⟨s.once, List.nodup_singleton _, fun i hi k hk heq =>
      hfresh (List.mem_singleton.mp hk ▸ heq ▸ hi)⟩
  case passed =>
    intro i hi
    rw [hgrown] at hi
    rcases List.mem_append.mp hi with hi | hi
    · exact s.passed i hi
    · rw [List.mem_singleton.mp hi]
      exact ⟨_, hbelow, hdistance⟩
  case rises =>
    exact rises_append (s.rises.sublist hsub) hlevel fun d hd => (hcopies d hd).hops
  case flying =>
    intro d hd
    rw [hgrown]
    rcases List.mem_append.mp hd with hd | hd
    · obtain ⟨i, hi, n, hd⟩ := s.flying d (hsub.subset hd)
      exact ⟨i, List.mem_append_left _ hi, n, hd⟩
    · exact ⟨_, List.mem_append_right _ List.mem_cons_self, _, hcopies d hd⟩
  case onward =>
    intro i hi n j hn hlists
    rw [hgrown] at hi
    rcases List.mem_append.mp hi with hi | hi
    · have hqueue : ∀ d ∈ now.network.queue, ∀ k, m.indexOf? d.target = some k →
          d ∈ queue ++ r.copies h.envelope h.source ∨ first? (hs ++ [h]) k ≠ none := by
        intro d hd k htarget
        rcases hgone d hd with hd | hplace
        · exact .inl (List.mem_append_left _ hd)
        · rw [hplace] at htarget
          cases htarget
          exact .inr (first?_self hs h)
      exact s.onward_of (fun _ hk => first?_grows hk h) hqueue hi hn hlists
    · rw [List.mem_singleton.mp hi] at hn hlists
      rw [hn.unique hdistance]
      rcases onward_copies hout hr hcopies hsource hlists with harrived | ⟨d, hd, hcopy⟩
      · exact .inl (first?_grows harrived h)
      · exact .inr ⟨d, List.mem_append_right _ hd, hcopy⟩

theorem handled_same {r : Relay} (hr : now.relays[j]? = some r) (queue : List Datagram) :
    now.handled queue j r [] = { now with network := ⟨queue⟩ } := by
  obtain ⟨hlt, rfl⟩ := List.getElem?_eq_some_iff.mp hr
  simp [handled]

variable {r' : Relay}

/-- The next datagram goes to a relay that it is new to, below the limit. -/
theorem deliver_new (s : m.Spread o e limit now hs ds) (hout : m.Outset o e limit)
    (horigin : o ∈ passers hs) (hqueue : now.network.queue = d :: rest) (hi : i ∈ passers hs)
    (hcopy : m.Copy o e limit d i n) (hj : m.indexOf? d.target = some h.place)
    (hrelay : now.relays[h.place]? = some h.relay) (hsource : h.source = some d.source.ip)
    (henvelope : h.envelope = { e with hops := n + 1, hopPort := h.envelope.hopPort })
    (hverdict : h.relay.Verdict h.envelope h.source r' h.sent h.outcome)
    (hnew : first? hs h.place = none) (hlt : n + 1 < limit) :
    m.Spread o e limit (now.handled rest h.place r' h.sent) (hs ++ [h]) (ds ++ [d]) := by
  have hhops : h.envelope.hops = n + 1 := by rw [henvelope]
  have hid : h.envelope.id = e.id := by rw [henvelope]
  obtain ⟨r, hr, _⟩ := indexOf?_eq_some hj
  have hmem := List.mem_of_getElem? hr
  have hsame := s.relay_new hr fun hpasser => first?_of_passers hpasser hnew
  rw [hrelay] at hsame
  obtain rfl : h.relay = r := Option.some.inj hsame
  have hdistance := s.shortest hout.toClear horigin hqueue hcopy hj hnew
  rw [← hhops] at hdistance hlt
  have hbelow : h.envelope.hops < h.relay.hopLimit := by rw [hout.hopLimit _ hmem]; exact hlt
  have hfits : (h.relay.stamp h.envelope).encode.length ≤ maxMessageSize := by
    have hle : (h.relay.stamp h.envelope).hops ≤ 9 := Nat.le_trans hlt hout.limit_le
    have hpayload : h.envelope.payload = e.payload := by rw [henvelope]
    rw [(hout.fresh.encode (e := h.relay.stamp h.envelope) hid hpayload hle).1]
    exact hout.fresh.fits
  have hunknown : h.relay.knows h.envelope.id = false := by rw [hid]; exact hout.unknown _ hmem
  obtain ⟨rfl, hsent, routers, clients, houtcome⟩ := hverdict.is_forwarded hbelow hunknown hfits
  have hforwarded : h.forwarded = true := by rw [Handling.forwarded, houtcome]
  have hrises := s.rises
  rw [hqueue, List.pairwise_cons] at hrises
  rw [hsent, hid]
  refine s.pass hout hr hnew hdistance hlt (by rw [hhops]; exact henvelope)
    ?source hforwarded ?sub ?gone
    ?level (s.delivered_snoc hqueue)
  case source =>
    intro k t ht heq
    -- Addresses tell relays apart, so only the sender is left out, and it has passed the message on.
    obtain ⟨t', ht', haddress, _⟩ := hcopy.sender
    rw [hsource, haddress] at heq
    rw [← hout.place_unique ht' ht (Option.some.inj heq)]
    exact first?_of_passers hi
  case sub =>
    rw [hqueue]
    exact List.sublist_cons_self d rest
  case gone =>
    intro c hc
    rw [hqueue] at hc
    rcases List.mem_cons.mp hc with rfl | hc
    · exact .inr hj
    · exact .inl hc
  case level =>
    intro c hc
    have hlevel := hrises.1 c hc
    rwa [hcopy.hops, ← hhops] at hlevel

/-- The next datagram goes to a relay that has got the message, or is at the limit. -/
theorem deliver_stopped (s : m.Spread o e limit now hs ds) (hout : m.Outset o e limit)
    (horigin : o ∈ passers hs) (hqueue : now.network.queue = d :: rest)
    (hcopy : m.Copy o e limit d i n) (hj : m.indexOf? d.target = some h.place)
    (hrelay : now.relays[h.place]? = some h.relay)
    (henvelope : h.envelope = { e with hops := n + 1, hopPort := h.envelope.hopPort })
    (hverdict : h.relay.Verdict h.envelope h.source r' h.sent h.outcome)
    (hold : n + 1 < limit → first? hs h.place ≠ none) :
    m.Spread o e limit (now.handled rest h.place r' h.sent) (hs ++ [h]) (ds ++ [d]) := by
  have hhops : h.envelope.hops = n + 1 := by rw [henvelope]
  have hid : h.envelope.id = e.id := by rw [henvelope]
  obtain ⟨r, hr, _⟩ := indexOf?_eq_some hj
  have hmem := List.mem_of_getElem? hr
  have hstops : h.relay.hopLimit ≤ h.envelope.hops ∨ h.relay.knows h.envelope.id = true := by
    by_cases hlt : n + 1 < limit
    · -- What came first had no more hops than this copy, so it was passed on.
      right
      obtain ⟨g, hg⟩ := Option.ne_none_iff_exists'.mp (hold hlt)
      have harrival := s.first _ g hg
      have hplace := place_of_first? hg
      have hle := harrival.distance.least (n + 1) (hplace ▸ hcopy.route hout.toClear hj)
      have hpasser := harrival.passes (by omega)
      have hsame := s.relay_passed hr (hplace ▸ hpasser)
      rw [hrelay] at hsame
      rw [Option.some.inj hsame, hid, (hout.sound r hmem).knows_remember]
      simp
    · left
      have hsame : h.relay.hopLimit = r.hopLimit := by
        by_cases hpasser : h.place ∈ passers hs
        · have hsome := s.relay_passed hr hpasser
          rw [hrelay] at hsome
          rw [Option.some.inj hsome]
          rfl
        · have hsome := s.relay_new hr hpasser
          rw [hrelay] at hsome
          rw [Option.some.inj hsome]
      rw [hsame, hout.hopLimit r hmem, hhops]
      omega
  obtain ⟨rfl, hsent, hne⟩ := hverdict.is_stopped hstops
  rw [hsent, handled_same hrelay]
  refine s.stop hqueue hj (Handling.not_forwarded hne) fun hnone => ?_
  have hlimit : ¬ n + 1 < limit := fun hlt => hold hlt hnone
  have hbelow := hcopy.below
  have hdistance := s.shortest hout.toClear horigin hqueue hcopy hj hnone
  rw [← hhops] at hdistance
  exact ⟨hdistance, by omega, by rw [hhops]; exact henvelope, fun hlt => by omega⟩

theorem deliver (s : m.Spread o e limit now hs ds) (hout : m.Outset o e limit)
    (horigin : o ∈ passers hs) (hindex : ∀ t, now.indexOf? t = m.indexOf? t) :
    m.Spread o e limit (now.perform (.deliver 0)).mesh
      (hs ++ (now.perform (.deliver 0)).handling.toList)
      (ds ++ (now.perform (.deliver 0)).delivered.toList) := by
  cases hqueue : now.network.queue with
  | nil => simpa [perform, hqueue] using s
  | cons d rest =>
    obtain ⟨i, hi, n, hcopy⟩ := s.flying d (hqueue ▸ List.mem_cons_self)
    obtain ⟨t, _, _, _, hparse⟩ := hcopy.sender
    rcases now.perform_deliver (n := 0) (d := d) (by rw [hqueue]; rfl) with ⟨hidle, hperform⟩ |
      ⟨j, e', r, r', sent, outcome, hj, hparse', hr, hverdict, hperform⟩
    · have hnone := hidle _ hparse
      rw [hindex] at hnone
      rw [hperform, without, hqueue]
      simpa using s.pass_by hqueue hnone
    · rw [hindex] at hj
      obtain rfl : { e with hops := n + 1, hopPort := t.listenPort } = e' := by
        have hsame := hparse.symm.trans hparse'
        simpa using hsame
      rw [hperform, hqueue]
      let h : Handling :=
        { place := j, relay := r, envelope := { e with hops := n + 1, hopPort := t.listenPort }
          source := some d.source.ip, outcome, sent }
      by_cases hnew : first? hs j = none ∧ n + 1 < limit
      · exact s.deliver_new (h := h) hout horigin hqueue hi hcopy hj hr rfl rfl hverdict hnew.1 hnew.2
      · exact s.deliver_stopped (h := h) hout horigin hqueue hcopy hj hr rfl hverdict
          fun hlt hnone => hnew ⟨hnone, hlt⟩

end Spread

/-! ## The whole flood -/

theorem Outset.originate (hout : m.Outset o e limit) :
    ∃ own, (m.perform (.originate o e)).handling = some own ∧
      (m.perform (.originate o e)).delivered = none ∧ own.place = o ∧ own.forwarded = true ∧
      m.Spread o e limit (m.perform (.originate o e)).mesh [own] [] := by
  rcases m.perform_originate o e with ⟨hnone, _⟩ |
    ⟨r, r', sent, outcome, hr, hverdict, hperform⟩
  · have hlt := hout.origin
    rw [List.getElem?_eq_none_iff] at hnone
    omega
  · have hmem := List.mem_of_getElem? hr
    have hzero := hout.fresh.hops
    have hpos := hout.limit_pos
    have hbelow : e.hops < r.hopLimit := by
      rw [hout.hopLimit r hmem]
      omega
    have hfits : (r.stamp e).encode.length ≤ maxMessageSize := by
      have hle : (r.stamp e).hops ≤ 9 := by
        show e.hops + 1 ≤ 9
        omega
      rw [(hout.fresh.encode (e := r.stamp e) rfl rfl hle).1]
      exact hout.fresh.fits
    obtain ⟨rfl, rfl, routers, clients, rfl⟩ :=
      hverdict.is_forwarded hbelow (hout.unknown r hmem) hfits
    let own : Handling :=
      { place := o, relay := r, envelope := e, source := none, outcome := .forwarded routers clients
        sent := r.copies e none }
    have hlt : e.hops < limit := by omega
    have hstart : m.Distance o e.hops o := hzero ▸ distance_start m o
    have hquiet : ∀ d, d ∉ m.network.queue := by simp [hout.empty]
    rw [hperform, hout.empty]
    refine ⟨own, rfl, rfl, rfl, rfl, ?_⟩
    exact (Spread.nothing hout).pass (h := own) hout hr rfl hstart hlt rfl
      (fun _ _ _ hsource => nomatch hsource) rfl (List.nil_sublist _)
      (fun d hd => absurd hd (hquiet d)) (fun _ hd => nomatch hd) (fun _ hd => nomatch hd)

theorem Outset.spread (hout : m.Outset o e limit) {own : Handling}
    (hown : m.Spread o e limit (m.perform (.originate o e)).mesh [own] [])
    (hplace : own.place = o) (hforwarded : own.forwarded = true) (n : Nat) :
    let start := (m.perform (.originate o e)).mesh
    m.Spread o e limit (start.after (inOrder n)) (own :: start.handlings (inOrder n))
      (start.deliveries (inOrder n)) := by
  intro start
  induction n with
  | zero => exact hown
  | succ n ih =>
    have horigin : o ∈ passers (own :: start.handlings (inOrder n)) := by
      simp [passers, hforwarded, hplace]
    have hindex : ∀ t, (start.after (inOrder n)).indexOf? t = m.indexOf? t :=
      indexOf?_after m (.originate o e :: inOrder n)
    rw [inOrder_succ, after_append, handlings_snoc, deliveries_snoc]
    exact ih.deliver hout horigin hindex

/-- All that is sent was sent for the message, since nothing else is in flight. -/
theorem Spread.length_sent_le {now before : Mesh} {hs : List Handling} {ds queue : List Datagram}
    {ev : MeshEvent} (s : m.Spread o e limit now hs ds) (hplain : ev.Plain)
    (hqueue : now.network.queue = queue ++ (before.perform ev).sent) :
    (before.perform ev).sent.length ≤ ((before.perform ev).sentFor e.id).length := by
  have hcarried : ∀ d ∈ (before.perform ev).sent, d.carries e.id = true := by
    intro d hd
    obtain ⟨i, _, n, hcopy⟩ := s.flying d (by rw [hqueue]; exact List.mem_append_right _ hd)
    obtain ⟨r, _, _, _, hparse⟩ := hcopy.sender
    rw [Datagram.carries, hparse]
    exact BEq.rfl
  have hle := (before.carried_perform hplain e.id).length_le
  rwa [List.filter_eq_self.mpr hcarried] at hle

/-- Every delivery takes a datagram off the queue, and what is sent is paid for. -/
theorem Outset.drains (hout : m.Outset o e limit) (n : Nat) :
    let now := (m.perform (.originate o e)).mesh.after (inOrder n)
    now.Sound ∧ (now.network.queue = [] ∨
      now.network.queue.length + now.budget e.id + n ≤ m.budget e.id) := by
  obtain ⟨own, _, _, hplace, hforwarded, hown⟩ := hout.originate
  have hspread := hout.spread hown hplace hforwarded
  induction n with
  | zero =>
    have hquiet : MeshEvent.Quiet (.originate o e) := trivial
    have hplain : MeshEvent.Plain (.originate o e) := hout.fresh.payload.unreserved
    obtain ⟨hsound, hpaid⟩ := hout.sound.perform hquiet e.id
    have hqueue := m.queue_originate o e
    have hcount := hown.length_sent_le hplain hqueue
    refine ⟨hsound, .inr ?_⟩
    rw [hout.empty, List.nil_append] at hqueue
    simp only [inOrder, List.replicate_zero, after]
    rw [hqueue]
    omega
  | succ n ih =>
    have hnext := hspread (n + 1)
    simp only [inOrder_succ, after_append, after] at hnext ⊢
    generalize (m.perform (.originate o e)).mesh.after (inOrder n) = now at hnext ih ⊢
    obtain ⟨hsound, hdrained⟩ := ih
    have hquiet : MeshEvent.Quiet (.deliver 0) := trivial
    have hplain : MeshEvent.Plain (.deliver 0) := trivial
    obtain ⟨hsound', hpaid⟩ := hsound.perform hquiet e.id
    refine ⟨hsound', ?_⟩
    cases hqueue : now.network.queue with
    | nil =>
      left
      simp [perform, hqueue]
    | cons d rest =>
      have hrest := queue_deliver hqueue
      have hcount := hnext.length_sent_le hplain hrest
      right
      rw [hqueue] at hdrained
      simp only [List.cons_ne_nil, List.length_cons, false_or] at hdrained
      rw [hrest, List.length_append]
      omega

/-- How a message has spread in the end: what was handled, `hs`, and what was delivered, `ds`, after
it was originated. -/
structure Flooded (m : Mesh) (o : Nat) (e : Envelope) (limit : Nat) (hs : List Handling)
    (ds : List Datagram) : Prop where
  /-- Up to the limit, every relay gets the message, first with as many hops as it is away. -/
  first : ∀ j n, m.Distance o n j → 1 ≤ n → n ≤ limit →
    ∃ h, first? hs j = some h ∧ h.envelope = { e with hops := n, hopPort := h.envelope.hopPort }
  /-- Below the limit it passes the message on once, at the limit never. -/
  forwards : ∀ j n, m.Distance o n j → 1 ≤ n → n ≤ limit →
    hs.countP (fun h => h.place == j && h.forwarded) = if n < limit then 1 else 0
  /-- The origin never passes it on again. -/
  origin : ∀ h ∈ hs, h.place = o → h.forwarded = false
  /-- Farther than the limit nothing arrives. -/
  beyond : ∀ j, (∀ n, m.Distance o n j → limit < n) → ∀ d ∈ ds, m.indexOf? d.target ≠ some j

theorem countP_forwarded (hs : List Handling) (j : Nat) :
    hs.countP (fun h => h.place == j && h.forwarded) = (passers hs).count j := by
  rw [passers, List.count, List.countP_map, List.countP_filter]
  rfl

theorem Spread.flooded {now : Mesh} {own : Handling} {hs : List Handling} {ds : List Datagram}
    (s : m.Spread o e limit now (own :: hs) ds) (hclear : m.Clear limit) (hplace : own.place = o)
    (hforwarded : own.forwarded = true) (hempty : now.network.queue = []) :
    m.Flooded o e limit hs ds := by
  have hcons : passers (own :: hs) = o :: passers hs := by simp [passers, hforwarded, hplace]
  have horigin : o ∈ passers (own :: hs) := by simp [hcons]
  have honce := s.once
  rw [hcons, List.nodup_cons] at honce
  have harrival : ∀ j n, m.Distance o n j → 1 ≤ n → n ≤ limit →
      ∃ h, first? hs j = some h ∧ first? (own :: hs) j = some h ∧ h.envelope.hops = n := by
    intro j n hn hpos hle
    have hsome := s.arrived horigin (by rw [hempty]; exact fun _ hd => nomatch hd) hle hn
    obtain ⟨h, hfirst⟩ := Option.ne_none_iff_exists'.mp hsome
    have hplaceh := place_of_first? hfirst
    have hhops := (s.first j h hfirst).distance.unique (hplaceh ▸ hn)
    refine ⟨h, ?_, hfirst, hhops⟩
    simpa [first?, hplace, (hn.ne_start hpos).symm] using hfirst
  refine ⟨?first, ?forwards, ?origin, ?beyond⟩
  case first =>
    intro j n hn hpos hle
    obtain ⟨h, hfirst, hfirst', rfl⟩ := harrival j n hn hpos hle
    exact ⟨h, hfirst, (s.first j h hfirst').copy⟩
  case forwards =>
    intro j n hn hpos hle
    rw [countP_forwarded]
    by_cases hlt : n < limit
    · obtain ⟨h, _, hfirst, rfl⟩ := harrival j n hn hpos hle
      have hpasser := (s.first j h hfirst).passes hlt
      rw [place_of_first? hfirst, hcons, List.mem_cons] at hpasser
      rw [if_pos hlt]
      exact List.count_eq_one_of_mem honce.2 (hpasser.resolve_left (hn.ne_start hpos))
    · rw [if_neg hlt]
      refine List.count_eq_zero.mpr fun hpasser => ?_
      obtain ⟨k, hk, hdistance⟩ := s.passed j (by rw [hcons]; exact List.mem_cons_of_mem o hpasser)
      have heq := hdistance.unique hn
      omega
  case origin =>
    intro h hh heq
    by_contra hpasses
    have hmem : h ∈ hs.filter (·.forwarded) := List.mem_filter.mpr ⟨hh, by simpa using hpasses⟩
    exact honce.1 (List.mem_map.mpr ⟨h, hmem, heq⟩)
  case beyond =>
    intro j hbeyond d hd heq
    obtain ⟨i, n, hcopy⟩ := s.delivered d hd
    obtain ⟨k, hk, hdistance⟩ := (hcopy.route hclear heq).distance
    have hlt := hbeyond k hdistance
    have hbelow := hcopy.below
    omega

/-- A message that floods a clear mesh in order dies out, after no more deliveries than the relays
have peers; and then it has got to all relays within the limit, to each on a shortest route first. -/
theorem flood_reaches (hout : m.Outset o e limit) :
    let start := m.perform (.originate o e)
    (∃ own, start.handling = some own ∧ own.place = o ∧ own.forwarded = true) ∧
    (∀ n, (m.relays.map fun r => r.routers.size + r.clients.size).sum ≤ n →
      (start.mesh.run n).1.network.queue = []) ∧
    ∀ n, (start.mesh.run n).1.network.queue = [] →
      m.Flooded o e limit (start.mesh.handlings (inOrder n)) ((start.mesh.run n).2.map (·.1)) := by
  obtain ⟨own, hown, _, hplace, hforwarded, hspread⟩ := hout.originate
  refine ⟨⟨own, hown, hplace, hforwarded⟩, fun n hn => ?_, fun n hempty => ?_⟩
  · rw [(run_eq _ n).1]
    rcases (hout.drains n).2 with hempty | hle
    · exact hempty
    · have hbudget := m.budget_le e.id
      exact List.eq_nil_of_length_eq_zero (by omega)
  · rw [(run_eq _ n).1] at hempty
    rw [(run_eq _ n).2]
    have hlater := hout.spread hspread hplace hforwarded n
    exact hlater.flooded hout.toClear hplace hforwarded hempty

theorem outset_pair : pair.Outset 0 hello 3 where
  sound := sound_pair
  hopLimit := by
    rw [pair_relays]
    simp [station₁, station₂, station]
  apart := by
    rw [pair_relays]
    decide
  unblocked := by
    rw [pair_relays]
    simp [station₁, station₂, station]
  clients := by
    rw [pair_relays]
    simp [station₁, station₂, station]
  limit_pos := by decide
  limit_le := by decide
  origin := by decide
  fresh := fresh_hello
  unknown := by
    rw [pair_relays]
    intro r hr
    rcases List.mem_cons.mp hr with rfl | hr
    · rfl
    · rw [List.mem_singleton.mp hr]
      rfl
  empty := rfl

theorem distance_pair : pair.Distance 0 1 1 := by
  have hlisted : (station 2).outlet.address ∈ station₁.routers.endpoints := by
    rw [station₁_routers]
    exact List.mem_cons_self
  refine ⟨.onward .start ⟨station₁, station₂, rfl, rfl, hlisted⟩, fun k hk => ?_⟩
  cases hk with
  | onward => exact Nat.succ_pos _

theorem flood_reaches_pair :
    let start := pair.perform (.originate 0 hello)
    pair.Outset 0 hello 3 ∧ ∃ n, (start.mesh.run n).1.network.queue = [] ∧
      pair.Flooded 0 hello 3 (start.mesh.handlings (inOrder n)) ((start.mesh.run n).2.map (·.1)) ∧
      ∃ h, first? (start.mesh.handlings (inOrder n)) 1 = some h ∧ h.envelope.hops = 1 := by
  intro start
  obtain ⟨_, hdies, hreaches⟩ := flood_reaches outset_pair
  have hempty := hdies _ (Nat.le_refl _)
  have hflooded := hreaches _ hempty
  obtain ⟨h, hfirst, hcopy⟩ := hflooded.first 1 1 distance_pair (by decide) (by decide)
  exact ⟨outset_pair, _, hempty, hflooded, h, hfirst, by rw [hcopy]⟩

end Mesh

end FloodMesh
