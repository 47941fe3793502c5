import FloodMesh.Proofs.Mesh.Reach

/-!
# FloodMesh.Proofs.Mesh.Saturation

How far a message gets when datagrams are delivered in any order. A copy that has gone a long way
round can come to a relay first and leave it too few hops to pass the message on. Where no trail is
longer than the limit, this cuts nobody off: such a copy has come along relays that all passed the
message on, and a neighbour that is not among them would make the trail too long.

* `Wave`: the relays that passed the message on, and the trails on which the copies came.
* `Wave.deliver`: one delivery, of any datagram.
* `flood_saturates`: every run that delivers all.
-/

namespace FloodMesh

theorem Datagram.carries_broadcast {d : Datagram} {e : Envelope} {id : String}
    (h : Request.parse d.payload = .ok (.broadcast e)) : d.carries id = (e.id == id) := by
  rw [carries, h]

theorem Datagram.broadcast_of_carries {d : Datagram} {id : String} (h : d.carries id = true) :
    ∃ e, Request.parse d.payload = .ok (.broadcast e) ∧ e.id = id := by
  rw [carries] at h
  split at h
  · rename_i e hparse
    exact ⟨e, hparse, eq_of_beq h⟩
  · cases h

namespace Mesh

/-- A route that comes to no place twice, with the places that it has left behind, the last one
first. -/
inductive Trail (m : Mesh) (o : Nat) : List Nat → Nat → Prop
  | start : Trail m o [] o
  | onward {left : List Nat} {i j : Nat} (h : Trail m o left i) (hlists : m.Lists i j)
      (hnew : j ∉ i :: left) : Trail m o (i :: left) j

theorem Trail.nodup {m : Mesh} {o j : Nat} {left : List Nat} (h : m.Trail o left j) :
    (j :: left).Nodup := by
  induction h with
  | start => exact List.nodup_singleton o
  | onward _ _ hnew ih => exact List.nodup_cons.mpr ⟨hnew, ih⟩

theorem Trail.lt_length {m : Mesh} {o j : Nat} {left : List Nat} (h : m.Trail o left j)
    (ho : o < m.relays.length) : ∀ k ∈ j :: left, k < m.relays.length := by
  induction h with
  | start =>
    intro k hk
    rw [List.mem_singleton.mp hk]
    exact ho
  | onward _ hlists _ ih =>
    intro k hk
    rcases List.mem_cons.mp hk with rfl | hk
    · obtain ⟨_, s, _, hs, _⟩ := hlists
      exact (List.getElem?_eq_some_iff.mp hs).1
    · exact ih k hk

/-- No trail has more edges than there are other relays. -/
theorem Trail.length_lt {m : Mesh} {o j : Nat} {left : List Nat} (h : m.Trail o left j)
    (ho : o < m.relays.length) : left.length < m.relays.length := by
  have hsub : (j :: left).Subperm (List.range m.relays.length) :=
    h.nodup.subperm fun k hk => List.mem_range.mpr (h.lt_length ho k hk)
  have hle := hsub.length_le
  rwa [List.length_cons, List.length_range] at hle

/-- The relay at `o` is about to originate a message that nobody knows and nothing carries, in a
mesh where other messages may be in flight. -/
structure Launch (m : Mesh) (o : Nat) (e : Envelope) (limit : Nat) : Prop extends m.Clear limit where
  limit_pos : 1 ≤ limit
  limit_le : limit ≤ 9
  origin : o < m.relays.length
  fresh : e.Fresh
  unknown : ∀ r ∈ m.relays, r.knows e.id = false
  uncarried : ∀ d ∈ m.network.queue, d.carries e.id = false

/-- Some datagram among `ds` brings the message to the relay at a place. -/
def Gets (m : Mesh) (id : String) (ds : List Datagram) (j : Nat) : Prop :=
  ∃ d ∈ ds, d.carries id = true ∧ m.indexOf? d.target = some j

/-- The datagram is a copy from the relay at `i`, to which the message came on a trail of relays
that passed it on. -/
structure OnTrail (m : Mesh) (o : Nat) (e : Envelope) (limit : Nat) (passed : List Nat)
    (d : Datagram) (left : List Nat) (i : Nat) : Prop where
  trail : m.Trail o left i
  within : ∀ k ∈ i :: left, k ∈ passed
  below : left.length < limit
  sender : ∃ r, m.relays[i]? = some r ∧ d.source = r.outlet.address ∧
    (d.target ∈ r.routers.endpoints ∨ d.target ∈ r.clients.endpoints) ∧
    Request.parse d.payload =
      .ok (.broadcast { e with hops := left.length + 1, hopPort := r.listenPort })

/-- The relays are those of the mesh but for what they remember; those in `passed` remember the id,
and no others. -/
def Aware (m : Mesh) (id : String) (passed : List Nat) (relays : List Relay) : Prop :=
  ∀ i r, m.relays[i]? = some r → ∃ messages : Sightings,
    relays[i]? = some { r with messages } ∧ messages.Sound ∧
      (messages.leases.contains id = true ↔ i ∈ passed)

/-- How far a message has got, when the relays in `passed` have passed it on and the datagrams in
`ds` have been delivered. -/
structure Wave (m : Mesh) (o : Nat) (e : Envelope) (limit : Nat) (now : Mesh) (passed : List Nat)
    (ds : List Datagram) : Prop where
  places : ∀ t, now.indexOf? t = m.indexOf? t
  relays : m.Aware e.id passed now.relays
  origin : o ∈ passed
  flying : ∀ d ∈ now.network.queue, d.carries e.id = true →
    ∃ left i, m.OnTrail o e limit passed d left i
  delivered : ∀ d ∈ ds, d.carries e.id = true → ∃ left i, m.OnTrail o e limit passed d left i
  reached : ∀ j ∈ passed, j = o ∨ m.Gets e.id ds j
  /-- A relay that does not pass the message on has got it with no hops left. -/
  stopped : ∀ d ∈ ds, d.carries e.id = true → ∀ j, m.indexOf? d.target = some j →
    j ∈ passed ∨ d.hops = limit
  onward : ∀ i ∈ passed, ∀ j, m.Lists i j →
    j ∈ passed ∨ m.Gets e.id (now.network.queue ++ ds) j

variable {m now : Mesh} {o limit : Nat} {e : Envelope} {passed : List Nat} {ds : List Datagram}

theorem Gets.mono {id : String} {ds' : List Datagram} {j : Nat} (h : m.Gets id ds j)
    (hsub : ∀ d ∈ ds, d ∈ ds') : m.Gets id ds' j := by
  obtain ⟨d, hd, hrest⟩ := h
  exact ⟨d, hsub d hd, hrest⟩

theorem OnTrail.mono {d : Datagram} {left : List Nat} {i : Nat} {passed' : List Nat}
    (h : m.OnTrail o e limit passed d left i) (hsub : ∀ k ∈ passed, k ∈ passed') :
    m.OnTrail o e limit passed' d left i :=
  { h with within := fun k hk => hsub k (h.within k hk) }

theorem OnTrail.hops {d : Datagram} {left : List Nat} {i : Nat}
    (h : m.OnTrail o e limit passed d left i) : d.hops = left.length + 1 := by
  obtain ⟨r, _, _, _, hparse⟩ := h.sender
  exact Datagram.hops_eq hparse

/-- A copy that comes to a relay outside the trail makes it longer. -/
theorem OnTrail.longer {d : Datagram} {left : List Nat} {i j : Nat}
    (h : m.OnTrail o e limit passed d left i) (hclear : m.Clear limit)
    (hj : m.indexOf? d.target = some j) (hnew : j ∉ passed) : m.Trail o (i :: left) j := by
  obtain ⟨r, hr, _, htarget, _⟩ := h.sender
  exact h.trail.onward (hclear.lists hr htarget hj) fun hmem => hnew (h.within j hmem)

/-! ## What relays remember -/

namespace Aware

variable {id : String} {relays : List Relay}

theorem set (h : m.Aware id passed relays) {i : Nat} {r : Relay} (hr : m.relays[i]? = some r)
    {messages : Sightings} (hsound : messages.Sound) {passed' : List Nat}
    (hself : messages.leases.contains id = true ↔ i ∈ passed')
    (hothers : ∀ j, j ≠ i → (j ∈ passed' ↔ j ∈ passed)) :
    m.Aware id passed' (relays.set i { r with messages }) := by
  intro j s hs
  by_cases heq : j = i
  · subst heq
    rw [hr] at hs
    cases hs
    obtain ⟨_, hbefore, _⟩ := h j r hr
    have hlt := (List.getElem?_eq_some_iff.mp hbefore).1
    exact ⟨messages, List.getElem?_set_self hlt, hsound, hself⟩
  · obtain ⟨kept, hkept, hkeptSound, hknows⟩ := h j s hs
    refine ⟨kept, ?_, hkeptSound, hknows.trans (hothers j heq).symm⟩
    rw [List.getElem?_set_ne (Ne.symm heq), hkept]

/-- A relay that sees another id knows no more and no less about this one. -/
theorem see_other (h : m.Aware id passed relays) {i : Nat} {r : Relay}
    (hr : m.relays[i]? = some r) {messages : Sightings} (hsound : messages.Sound)
    (hknows : messages.leases.contains id = true ↔ i ∈ passed) {other : String}
    (hne : other ≠ id) :
    m.Aware id passed (relays.set i { r with messages := (messages.see other).1 }) := by
  refine h.set hr (hsound.see other) ?_ fun j _ => Iff.rfl
  rw [hsound.contains_see, ← hknows]
  simp [hne]

end Aware

/-! ## One step -/

/-- One datagram is taken out of a queue. -/
structure Taken (before queue : List Datagram) (d : Datagram) : Prop where
  mem : d ∈ before
  sub : ∀ c ∈ queue, c ∈ before
  kept : ∀ c ∈ before, c ∈ queue ∨ c = d

theorem taken_eraseIdx {queue : List Datagram} {n : Nat} {d : Datagram}
    (h : queue[n]? = some d) : Taken queue (queue.eraseIdx n) d where
  mem := List.mem_of_getElem? h
  sub := fun _ hc => List.mem_of_mem_eraseIdx hc
  kept := by
    intro c hc
    obtain ⟨hlt, rfl⟩ := List.getElem?_eq_some_iff.mp h
    rw [← (List.getElem_cons_eraseIdx_perm hlt).mem_iff, List.mem_cons] at hc
    exact hc.symm

/-- What a relay sends below the limit carries the message on its trail. -/
theorem Launch.onTrail (hlaunch : m.Launch o e limit) {i : Nat} {r : Relay}
    (hr : m.relays[i]? = some r) {left : List Nat} (htrail : m.Trail o left i)
    (hwithin : ∀ k ∈ i :: left, k ∈ passed) (hbelow : left.length < limit) {envelope : Envelope}
    (hcopy : envelope = { e with hops := left.length, hopPort := envelope.hopPort })
    {source : Option IpAddress} {c : Datagram} (hc : c ∈ r.copies envelope source) :
    m.OnTrail o e limit passed c left i := by
  obtain ⟨t, ht, rfl⟩ := List.mem_map.mp hc
  have hstamp : r.stamp envelope =
      { e with hops := left.length + 1, hopPort := r.listenPort } := by
    rw [hcopy]
    rfl
  have hdigit : left.length + 1 ≤ 9 := by
    have hlimit := hlaunch.limit_le
    omega
  have hparse := (hlaunch.fresh.encode
    (e := { e with hops := left.length + 1, hopPort := r.listenPort }) rfl rfl hdigit).2
  refine ⟨htrail, hwithin, hbelow, r, hr, rfl, Relay.mem_targets (List.mem_of_mem_filter ht), ?_⟩
  rw [← hstamp] at hparse
  rw [← hstamp]
  exact hparse

namespace Wave

variable {d : Datagram} {queue : List Datagram}

/-- A datagram is delivered, and the message goes no further through it: it carries another one, is
not for a relay, or comes to a relay that has passed the message on or is at the limit. -/
theorem settle (w : m.Wave o e limit now passed ds) (htaken : Taken now.network.queue queue d)
    (relays : List Relay) (sent : List Datagram)
    (hplaces : ∀ t, indexOf? { relays, network := ⟨queue ++ sent⟩ } t = m.indexOf? t)
    (hrelays : m.Aware e.id passed relays) (hsent : ∀ c ∈ sent, c.carries e.id = false)
    (hstops : d.carries e.id = true → ∀ j, m.indexOf? d.target = some j →
      j ∈ passed ∨ d.hops = limit) :
    m.Wave o e limit { relays, network := ⟨queue ++ sent⟩ } passed (ds ++ [d]) where
  places := hplaces
  relays := hrelays
  origin := w.origin
  flying := by
    intro c hc hcarries
    rcases List.mem_append.mp hc with hc | hc
    · exact w.flying c (htaken.sub c hc) hcarries
    · rw [hsent c hc] at hcarries
      cases hcarries
  delivered := by
    intro c hc hcarries
    rcases List.mem_append.mp hc with hc | hc
    · exact w.delivered c hc hcarries
    · rw [List.mem_singleton.mp hc] at hcarries ⊢
      exact w.flying d htaken.mem hcarries
  reached := by
    intro j hj
    exact (w.reached j hj).imp_right fun hgets => hgets.mono fun c hc => List.mem_append_left _ hc
  stopped := by
    intro c hc hcarries
    rcases List.mem_append.mp hc with hc | hc
    · exact w.stopped c hc hcarries
    · rw [List.mem_singleton.mp hc] at hcarries ⊢
      exact hstops hcarries
  onward := by
    intro i hi j hlists
    refine (w.onward i hi j hlists).imp_right fun hgets => hgets.mono fun c hc => ?_
    simp only [List.mem_append, List.mem_singleton] at hc ⊢
    rcases hc with hc | hc
    · rcases htaken.kept c hc with hc | hc
      · exact .inl (.inl hc)
      · exact .inr (.inr hc)
    · exact .inr (.inl hc)

/-- A datagram brings the message to a relay that passes it on for the first time. -/
theorem pass (w : m.Wave o e limit now passed ds) (hlaunch : m.Launch o e limit)
    (htaken : Taken now.network.queue queue d) (hcarries : d.carries e.id = true)
    {i : Nat} {r : Relay}
    (hr : m.relays[i]? = some r) (hi : m.indexOf? d.target = some i) {left : List Nat}
    (htrail : m.Trail o left i) (hwithin : ∀ k ∈ left, k ∈ passed) (hbelow : left.length < limit)
    {envelope : Envelope}
    (hcopy : envelope = { e with hops := left.length, hopPort := envelope.hopPort })
    (hsource : ∀ j s, m.relays[j]? = some s → some d.source.ip = some s.outlet.address.ip →
      j ∈ passed)
    {relays : List Relay}
    (hplaces : ∀ t, indexOf?
      { relays, network := ⟨queue ++ r.copies envelope (some d.source.ip)⟩ } t = m.indexOf? t)
    (hrelays : m.Aware e.id (i :: passed) relays) :
    m.Wave o e limit { relays, network := ⟨queue ++ r.copies envelope (some d.source.ip)⟩ }
      (i :: passed) (ds ++ [d]) := by
  have hcopies : ∀ c ∈ r.copies envelope (some d.source.ip),
      m.OnTrail o e limit (i :: passed) c left i := fun c hc =>
    hlaunch.onTrail hr htrail (fun k hk => (List.mem_cons.mp hk).elim
      (fun heq => heq ▸ List.mem_cons_self) fun hk => List.mem_cons_of_mem i (hwithin k hk))
      hbelow hcopy hc
  have hgrow : ∀ {c : Datagram} {left : List Nat} {k : Nat},
      m.OnTrail o e limit passed c left k → m.OnTrail o e limit (i :: passed) c left k :=
    fun h => h.mono fun k hk => List.mem_cons_of_mem i hk
  have hgets : m.Gets e.id (ds ++ [d]) i :=
    ⟨d, List.mem_append_right _ List.mem_cons_self, hcarries, hi⟩
  refine
    { places := hplaces
      relays := hrelays
      origin := List.mem_cons_of_mem i w.origin
      flying := ?flying
      delivered := ?delivered
      reached := ?reached
      stopped := ?stopped
      onward := ?onward }
  case flying =>
    intro c hc hcarried
    rcases List.mem_append.mp hc with hc | hc
    · obtain ⟨left, k, htrail⟩ := w.flying c (htaken.sub c hc) hcarried
      exact ⟨left, k, hgrow htrail⟩
    · exact ⟨left, i, hcopies c hc⟩
  case delivered =>
    intro c hc hcarried
    have hbefore : ∃ left k, m.OnTrail o e limit passed c left k := by
      rcases List.mem_append.mp hc with hc | hc
      · exact w.delivered c hc hcarried
      · rw [List.mem_singleton.mp hc] at hcarried ⊢
        exact w.flying d htaken.mem hcarried
    obtain ⟨left, k, htrail⟩ := hbefore
    exact ⟨left, k, hgrow htrail⟩
  case reached =>
    intro j hj
    rcases List.mem_cons.mp hj with rfl | hj
    · exact .inr hgets
    · exact (w.reached j hj).imp_right fun h => h.mono fun c hc => List.mem_append_left _ hc
  case stopped =>
    intro c hc hcarried j hj
    rcases List.mem_append.mp hc with hc | hc
    · exact (w.stopped c hc hcarried j hj).imp_left (List.mem_cons_of_mem i)
    · rw [List.mem_singleton.mp hc, hi] at hj
      cases hj
      exact .inl List.mem_cons_self
  case onward =>
    intro k hk j hlists
    rcases List.mem_cons.mp hk with rfl | hk
    · -- Only the relay that the copy came from is left out, and it has passed the message on.
      by_cases hpassed : j ∈ passed
      · exact .inl (List.mem_cons_of_mem k hpassed)
      · obtain ⟨c, hc, htarget⟩ := hlaunch.mem_copies hr hlists envelope
          fun s hs heq => hpassed (hsource j s hs heq)
        obtain ⟨_, _, _, _, hparse⟩ := (hcopies c hc).sender
        have hcarried : c.carries e.id = true := by
          rw [Datagram.carries_broadcast hparse]
          exact BEq.rfl
        refine .inr ⟨c, ?_, hcarried, htarget⟩
        exact List.mem_append_left _ (List.mem_append_right _ hc)
    · rcases w.onward k hk j hlists with hj | hgets
      · exact .inl (List.mem_cons_of_mem i hj)
      · refine .inr (hgets.mono fun c hc => ?_)
        simp only [List.mem_append, List.mem_singleton] at hc ⊢
        rcases hc with hc | hc
        · rcases htaken.kept c hc with hc | hc
          · exact .inl (.inl hc)
          · exact .inr (.inr hc)
        · exact .inr (.inl hc)

section Handled

variable {i : Nat} {s r' : Relay} {messages : Sightings} {left : List Nat} {k : Nat}
  {e' : Envelope} {sent : List Datagram} {outcome : FloodOutcome}

/-- A copy comes to a relay that does not know the message, with hops left. -/
theorem deliver_new (w : m.Wave o e limit now passed ds) (hlaunch : m.Launch o e limit)
    (htaken : Taken now.network.queue queue d) (hi : m.indexOf? d.target = some i)
    (hs : m.relays[i]? = some s) (hsound : messages.Sound)
    (hknows : messages.leases.contains e.id = true ↔ i ∈ passed)
    (htrail : m.OnTrail o e limit passed d left k)
    (henvelope : e' = { e with hops := left.length + 1, hopPort := e'.hopPort })
    (hverdict : Relay.Verdict { s with messages } e' (some d.source.ip) r' sent outcome)
    (hplaces : ∀ t, (now.handled queue i r' sent).indexOf? t = m.indexOf? t)
    (hunpassed : i ∉ passed) (hlt : left.length + 1 < limit) :
    m.Wave o e limit (now.handled queue i r' sent) (i :: passed) (ds ++ [d]) := by
  have hid : e'.id = e.id := by rw [henvelope]
  have hhops : e'.hops = left.length + 1 := by rw [henvelope]
  have hbelow : e'.hops < s.hopLimit := by
    rw [hlaunch.hopLimit s (List.mem_of_getElem? hs), hhops]
    exact hlt
  have hunknown : messages.leases.contains e'.id = false := by
    rw [hid, ← Bool.not_eq_true, hknows]
    exact hunpassed
  have hfits : (Relay.stamp { s with messages } e').encode.length ≤ maxMessageSize := by
    have hdigit : (Relay.stamp { s with messages } e').hops ≤ 9 := by
      have hlimit := hlaunch.limit_le
      show e'.hops + 1 ≤ 9
      omega
    have hpayload : e'.payload = e.payload := by rw [henvelope]
    rw [(hlaunch.fresh.encode (e := Relay.stamp { s with messages } e') hid hpayload hdigit).1]
    exact hlaunch.fresh.fits
  obtain ⟨rfl, rfl, _⟩ := hverdict.is_forwarded hbelow hunknown hfits
  obtain ⟨t, ht, haddress, _, hparse⟩ := htrail.sender
  have hcarries : d.carries e.id = true := by
    rw [Datagram.carries_broadcast hparse]
    exact BEq.rfl
  refine w.pass hlaunch htaken hcarries hs hi (htrail.longer hlaunch.toClear hi hunpassed)
    htrail.within hlt henvelope ?source hplaces ?relays
  case source =>
    intro j u hu heq
    rw [haddress] at heq
    have hjk := hlaunch.place_unique ht hu (Option.some.inj heq)
    exact htrail.within j (hjk ▸ List.mem_cons_self)
  case relays =>
    refine w.relays.set hs (hsound.see e'.id) ?_ fun j hne => ?_
    · rw [hsound.contains_see, hid]
      simp
    · simp [hne]

/-- A copy comes to a relay that has passed the message on, or has no hops left. -/
theorem deliver_old (w : m.Wave o e limit now passed ds) (hlaunch : m.Launch o e limit)
    (htaken : Taken now.network.queue queue d) (hi : m.indexOf? d.target = some i)
    (hs : m.relays[i]? = some s) (hnow : now.relays[i]? = some { s with messages })
    (hknows : messages.leases.contains e.id = true ↔ i ∈ passed)
    (htrail : m.OnTrail o e limit passed d left k)
    (henvelope : e' = { e with hops := left.length + 1, hopPort := e'.hopPort })
    (hverdict : Relay.Verdict { s with messages } e' (some d.source.ip) r' sent outcome)
    (hplaces : ∀ t, (now.handled queue i r' sent).indexOf? t = m.indexOf? t)
    (hold : i ∈ passed ∨ left.length + 1 = limit) :
    m.Wave o e limit (now.handled queue i r' sent) passed (ds ++ [d]) := by
  have hstops : s.hopLimit ≤ e'.hops ∨ messages.leases.contains e'.id = true := by
    rw [hlaunch.hopLimit s (List.mem_of_getElem? hs), henvelope]
    rcases hold with hpassed | hlimit
    · exact .inr (hknows.mpr hpassed)
    · exact .inl (Nat.le_of_eq hlimit.symm)
  obtain ⟨rfl, rfl, _⟩ := hverdict.is_stopped hstops
  rw [Spread.handled_same hnow] at hplaces ⊢
  have hsettled := w.settle htaken now.relays []
    (by simpa using hplaces) w.relays (fun _ hc => nomatch hc) fun _ j hj => ?_
  · simpa using hsettled
  · rw [hi] at hj
    cases hj
    rw [htrail.hops]
    exact hold

/-- A datagram with another message comes to a relay. -/
theorem deliver_other (w : m.Wave o e limit now passed ds)
    (htaken : Taken now.network.queue queue d) (hs : m.relays[i]? = some s)
    (hnow : now.relays[i]? = some { s with messages }) (hsound : messages.Sound)
    (hknows : messages.leases.contains e.id = true ↔ i ∈ passed)
    (hparse : Request.parse d.payload = .ok (.broadcast e')) (hother : d.carries e.id ≠ true)
    (hverdict : Relay.Verdict { s with messages } e' (some d.source.ip) r' sent outcome)
    (hplaces : ∀ t, (now.handled queue i r' sent).indexOf? t = m.indexOf? t) :
    m.Wave o e limit (now.handled queue i r' sent) passed (ds ++ [d]) := by
  have hne : e'.id ≠ e.id := by
    intro heq
    rw [Datagram.carries_broadcast hparse, heq] at hother
    exact hother BEq.rfl
  have hsame : m.Aware e.id passed (now.relays.set i { s with messages }) := by
    obtain ⟨hlt, heq⟩ := List.getElem?_eq_some_iff.mp hnow
    rw [← heq, List.set_getElem_self]
    exact w.relays
  have hseen := w.relays.see_other hs hsound hknows hne
  refine w.settle htaken _ _ hplaces ?relays ?sent fun h => absurd h hother
  case relays =>
    cases hverdict with
    | hopLimitReached => exact hsame
    | duplicate => exact hsame
    | tooLarge => exact hseen
    | forwarded => exact hseen
  case sent =>
    intro c hc
    cases hverdict with
    | hopLimitReached => cases hc
    | duplicate => cases hc
    | tooLarge => cases hc
    | forwarded =>
      have hfree := Envelope.unreserved_of_parse hparse
      exact Bool.eq_false_of_not_eq_true (Relay.not_carries_of_mem_copies hfree hne hc)

end Handled

/-- One delivery, of any datagram in flight. -/
theorem deliver (w : m.Wave o e limit now passed ds) (hlaunch : m.Launch o e limit) (n : Nat) :
    ∃ passed', m.Wave o e limit (now.perform (.deliver n)).mesh passed'
      (ds ++ (now.perform (.deliver n)).delivered.toList) := by
  cases hn : now.network.queue[n]? with
  | none =>
    refine ⟨passed, ?_⟩
    simpa [perform, hn] using w
  | some d =>
    have htaken := taken_eraseIdx hn
    have hplaces : ∀ t, (now.perform (.deliver n)).mesh.indexOf? t = m.indexOf? t :=
      fun t => (indexOf?_after now [.deliver n] t).trans (w.places t)
    rcases now.perform_deliver hn with ⟨hidle, hperform⟩ |
      ⟨i, e', r, r', sent, outcome, hi, hparse, hr, hverdict, hperform⟩
    · rw [hperform] at hplaces ⊢
      have hsettled := w.settle htaken now.relays []
        (by simpa [without] using hplaces) w.relays (fun _ hc => absurd hc List.not_mem_nil)
        fun hcarries j hj => ?_
      · refine ⟨passed, ?_⟩
        simpa [without] using hsettled
      · obtain ⟨e', hparse, _⟩ := Datagram.broadcast_of_carries hcarries
        have hnone := hidle e' hparse
        rw [w.places, hj] at hnone
        cases hnone
    · rw [w.places] at hi
      obtain ⟨s, hs, _⟩ := indexOf?_eq_some hi
      obtain ⟨messages, hnow, hsound, hknows⟩ := w.relays i s hs
      rw [hr] at hnow
      obtain rfl : r = { s with messages } := Option.some.inj hnow
      rw [hperform] at hplaces ⊢
      by_cases hcarries : d.carries e.id = true
      · obtain ⟨left, k, htrail⟩ := w.flying d htaken.mem hcarries
        obtain ⟨t, _, _, _, hparse'⟩ := htrail.sender
        obtain rfl : { e with hops := left.length + 1, hopPort := t.listenPort } = e' := by
          have heq := hparse'.symm.trans hparse
          simpa using heq
        have hbelow := htrail.below
        by_cases hold : i ∈ passed ∨ left.length + 1 = limit
        · exact ⟨passed, w.deliver_old hlaunch htaken hi hs hr hknows htrail rfl hverdict hplaces
            hold⟩
        · rw [not_or] at hold
          exact ⟨i :: passed, w.deliver_new hlaunch htaken hi hs hsound hknows htrail rfl hverdict
            hplaces hold.1 (by omega)⟩
      · exact ⟨passed, w.deliver_other htaken hs hr hsound hknows hparse hcarries hverdict hplaces⟩

/-! ## The whole flood -/

theorem run (w : m.Wave o e limit now passed ds) (hlaunch : m.Launch o e limit)
    {evs : List MeshEvent} (hdeliver : ∀ ev ∈ evs, ∃ n, ev = .deliver n) :
    ∃ passed', m.Wave o e limit (now.after evs) passed' (ds ++ now.deliveries evs) := by
  induction evs generalizing now passed ds with
  | nil =>
    refine ⟨passed, ?_⟩
    simpa [after, deliveries, steps] using w
  | cons ev evs ih =>
    obtain ⟨n, rfl⟩ := hdeliver ev List.mem_cons_self
    obtain ⟨passed', hstep⟩ := w.deliver hlaunch n
    rw [deliveries_cons, ← List.append_assoc]
    exact ih hstep fun ev' hev => hdeliver ev' (List.mem_cons_of_mem _ hev)

/-- When nothing is left in flight, whoever is listed by a relay that has got the message has got
it. -/
theorem gets_listed (w : m.Wave o e limit now passed ds) (hclear : m.Clear limit)
    (hshort : ∀ left j, m.Trail o left j → left.length ≤ limit) (hempty : now.network.queue = [])
    {i j : Nat} (hi : i = o ∨ m.Gets e.id ds i) (hlists : m.Lists i j) :
    j = o ∨ m.Gets e.id ds j := by
  by_cases hpassed : i ∈ passed
  · rcases w.onward i hpassed j hlists with hj | hgets
    · exact w.reached j hj
    · right
      simpa [hempty] using hgets
  · -- The relay got the message without hops left, on a trail as long as there can be.
    rcases hi with rfl | ⟨d, hd, hcarries, htarget⟩
    · exact absurd w.origin hpassed
    · have hlimit := (w.stopped d hd hcarries i htarget).resolve_left hpassed
      obtain ⟨left, k, htrail⟩ := w.delivered d hd hcarries
      rw [htrail.hops] at hlimit
      by_cases hnew : j ∈ i :: k :: left
      · rcases List.mem_cons.mp hnew with rfl | hj
        · exact .inr ⟨d, hd, hcarries, htarget⟩
        · exact w.reached j (htrail.within j hj)
      · have hlong := hshort _ j ((htrail.longer hclear htarget hpassed).onward hlists hnew)
        simp only [List.length_cons] at hlong
        omega

theorem gets (w : m.Wave o e limit now passed ds) (hclear : m.Clear limit)
    (hshort : ∀ left j, m.Trail o left j → left.length ≤ limit) (hempty : now.network.queue = [])
    {n j : Nat} (hroute : m.Route o n j) : j = o ∨ m.Gets e.id ds j := by
  induction hroute with
  | start => exact .inl rfl
  | onward _ hlists ih => exact w.gets_listed hclear hshort hempty ih hlists

end Wave

theorem Launch.originate (hlaunch : m.Launch o e limit) :
    m.Wave o e limit (m.perform (.originate o e)).mesh [o] [] := by
  have hplaces : ∀ t, (m.perform (.originate o e)).mesh.indexOf? t = m.indexOf? t :=
    indexOf?_after m [.originate o e]
  have hbefore : m.Aware e.id [] m.relays := by
    intro i r hr
    have hmem := List.mem_of_getElem? hr
    have hunknown : r.messages.leases.contains e.id = false := hlaunch.unknown r hmem
    exact ⟨r.messages, hr, (hlaunch.sound r hmem).messages, by simp [hunknown]⟩
  rcases m.perform_originate o e with ⟨hnone, _⟩ |
    ⟨r, r', sent, outcome, hr, hverdict, hperform⟩
  · have hlt := hlaunch.origin
    rw [List.getElem?_eq_none_iff] at hnone
    omega
  · have hmem := List.mem_of_getElem? hr
    have hzero := hlaunch.fresh.hops
    have hpos := hlaunch.limit_pos
    have hbelow : e.hops < r.hopLimit := by
      rw [hlaunch.hopLimit r hmem, hzero]
      exact hpos
    have hfits : (r.stamp e).encode.length ≤ maxMessageSize := by
      have hdigit : (r.stamp e).hops ≤ 9 := by
        show e.hops + 1 ≤ 9
        omega
      rw [(hlaunch.fresh.encode (e := r.stamp e) rfl rfl hdigit).1]
      exact hlaunch.fresh.fits
    obtain ⟨rfl, rfl, _⟩ := hverdict.is_forwarded hbelow (hlaunch.unknown r hmem) hfits
    have hcopies : ∀ c ∈ r.copies e none, m.OnTrail o e limit [o] c [] o := fun c hc =>
      hlaunch.onTrail hr .start (fun _ hk => hk) hpos (by rw [List.length_nil, ← hzero]) hc
    rw [hperform] at hplaces ⊢
    refine
      { places := hplaces
        relays := ?relays
        origin := List.mem_cons_self
        flying := ?flying
        delivered := fun _ hc => nomatch hc
        reached := fun j hj => .inl (List.mem_singleton.mp hj)
        stopped := fun _ hc => nomatch hc
        onward := ?onward }
    case relays =>
      have hsound := (hlaunch.sound r hmem).messages
      refine hbefore.set hr (hsound.see e.id) ?_ fun j hne => by simp [hne]
      rw [hsound.contains_see]
      simp
    case flying =>
      intro c hc hcarries
      rcases List.mem_append.mp hc with hc | hc
      · rw [hlaunch.uncarried c hc] at hcarries
        cases hcarries
      · exact ⟨[], o, hcopies c hc⟩
    case onward =>
      intro i hi j hlists
      rw [List.mem_singleton.mp hi] at hlists
      have hsource : ∀ t : Relay, m.relays[j]? = some t → none ≠ some t.outlet.address.ip := by
        simp
      obtain ⟨c, hc, htarget⟩ := hlaunch.mem_copies hr hlists e hsource
      obtain ⟨_, _, _, _, hparse⟩ := (hcopies c hc).sender
      have hcarries : c.carries e.id = true := by
        rw [Datagram.carries_broadcast hparse]
        exact BEq.rfl
      exact .inr ⟨c, List.mem_append_left _ (List.mem_append_right _ hc), hcarries, htarget⟩

/-- Where no trail from the origin is longer than the hop limit, a message gets to every other relay
on a route from there, in whatever order the datagrams are delivered, once all have been. -/
theorem flood_saturates (hlaunch : m.Launch o e limit)
    (hshort : ∀ left j, m.Trail o left j → left.length ≤ limit) {evs : List MeshEvent}
    (hdeliver : ∀ ev ∈ evs, ∃ n, ev = .deliver n) :
    let start := (m.perform (.originate o e)).mesh
    (start.after evs).network.queue = [] → ∀ n j, m.Route o n j → j ≠ o →
      ∃ d ∈ start.deliveries evs, m.indexOf? d.target = some j ∧
        ∃ hops hopPort, 1 ≤ hops ∧ hops ≤ limit ∧
          Request.parse d.payload = .ok (.broadcast { e with hops, hopPort }) := by
  intro start hempty n j hroute hne
  obtain ⟨passed, w⟩ := hlaunch.originate.run hlaunch hdeliver
  obtain ⟨d, hd, hcarries, htarget⟩ :=
    (w.gets hlaunch.toClear hshort hempty hroute).resolve_left hne
  obtain ⟨left, i, htrail⟩ := w.delivered d hd hcarries
  obtain ⟨r, _, _, _, hparse⟩ := htrail.sender
  exact ⟨d, hd, htarget, _, _, Nat.succ_pos _, htrail.below, hparse⟩

/-- The two relays that know each other, with a datagram in flight that is no request. -/
def crossed : Mesh :=
  { pair with network :=
      ⟨[{ source := (station 1).outlet.address, target := (station 2).outlet.address
          payload := [0x7b] }]⟩ }

theorem launch_crossed : crossed.Launch 0 hello 3 :=
  { outset_pair with
    uncarried := by
      intro d hd
      rw [List.mem_singleton.mp hd]
      rfl }

theorem station₂_targets :
    station₂.targets (some (station 1).outlet.address.ip) = [] := by
  have hrouters : station₂.routers.endpoints = [(station 1).outlet.address] :=
    ((PeerTable.sound_empty "routers" 9 4).register (station 1).outlet.address).2
  rw [Relay.targets, PeerTable.endpointsExcluding, hrouters]
  simp [PeerTable.endpointsExcluding, station₂, station]

/-- The second relay has nobody to pass the copy on to, so the junk is left, and then nothing. -/
theorem crossed_drained :
    ((crossed.perform (.originate 0 hello)).mesh.after [.deliver 1, .deliver 0]).network.queue =
      [] := by
  rcases crossed.perform_originate 0 hello with ⟨hnone, _⟩ |
    ⟨r, r', sent, outcome, hr, hverdict, hperform⟩
  · cases hnone
  · obtain rfl : station₁ = r := Option.some.inj hr
    obtain ⟨rfl, hsent, _⟩ := hverdict.is_forwarded (by decide) rfl (by decide +kernel)
    rw [Relay.copies, station₁_targets] at hsent
    subst hsent
    rw [hperform]
    simp only [after]
    have hjunk : ∀ now : Mesh, now.network.queue = crossed.network.queue →
        (now.perform (.deliver 0)).mesh.network.queue = [] := by
      intro now hqueue
      rcases now.perform_deliver (n := 0) (by rw [hqueue]; rfl) with ⟨_, hperform⟩ |
        ⟨_, _, _, _, _, _, _, hparse, _⟩
      · rw [hperform, without, hqueue]
        rfl
      · cases hparse
    refine hjunk _ ?_
    generalize hnow : crossed.handled _ _ _ _ = now
    have hsecond : now.network.queue[1]? = some
        { source := (station 1).outlet.address, target := (station 2).outlet.address
          payload := (station₁.stamp hello).encode } := by
      rw [← hnow]
      rfl
    rcases now.perform_deliver hsecond with ⟨_, hperform⟩ |
      ⟨i, e, r, r', sent, outcome, hi, _, hr, hverdict, hperform⟩
    · rw [hperform, ← hnow]
      rfl
    · have hplace : now.indexOf? (station 2).outlet.address = some 1 := by
        rw [← hnow]
        rfl
      rw [hplace] at hi
      cases hi
      rw [← hnow] at hr
      obtain rfl : station₂ = r := Option.some.inj hr
      have hnothing : sent = [] := by
        refine List.eq_nil_iff_forall_not_mem.mpr fun d hd => ?_
        obtain ⟨_, t, ht, _⟩ := hverdict.of_mem_sent hd
        rw [station₂_targets] at ht
        cases ht
      rw [hperform, hnothing, ← hnow]
      rfl

theorem flood_saturates_crossed :
    let start := (crossed.perform (.originate 0 hello)).mesh
    let evs := [.deliver 1, .deliver 0]
    crossed.Launch 0 hello 3 ∧ (∀ left j, crossed.Trail 0 left j → left.length ≤ 3) ∧
      (∀ ev ∈ evs, ∃ n, ev = .deliver n) ∧ (start.after evs).network.queue = [] ∧
      crossed.Route 0 1 1 ∧ ∃ d ∈ start.deliveries evs, crossed.indexOf? d.target = some 1 := by
  intro start evs
  have hshort : ∀ left j, crossed.Trail 0 left j → left.length ≤ 3 := by
    intro left j htrail
    have hlt : left.length < 2 := htrail.length_lt (by decide)
    omega
  have hdeliver : ∀ ev ∈ evs, ∃ n, ev = MeshEvent.deliver n := by
    intro ev hev
    simp only [evs, List.mem_cons, List.not_mem_nil, or_false] at hev
    rcases hev with rfl | rfl
    · exact ⟨1, rfl⟩
    · exact ⟨0, rfl⟩
  have hlisted : (station 2).outlet.address ∈ station₁.routers.endpoints := by
    rw [station₁_routers]
    exact List.mem_cons_self
  have hroute : crossed.Route 0 1 1 := .onward .start ⟨station₁, station₂, rfl, rfl, hlisted⟩
  obtain ⟨d, hd, htarget, _⟩ :=
    flood_saturates launch_crossed hshort hdeliver crossed_drained 1 1 hroute (by decide)
  exact ⟨launch_crossed, hshort, hdeliver, crossed_drained, hroute, d, hd, htarget⟩

end Mesh
end FloodMesh
