import FloodMesh.Proofs.Mesh.Events
import FloodMesh.Proofs.Wire.Envelope
import Mathlib.Data.List.Induction

/-!
# FloodMesh.Proofs.Mesh.Carriage

What is in flight, in any run in which relays originate fresh envelopes: copies of those envelopes
and nothing else, with the sender's port, and with as many hops as the walk has edges on which they
came. They keep the length of the original, so none ever becomes too large.
-/

namespace FloodMesh

/-- An envelope as an application starts it, small enough for a datagram. -/
structure Envelope.Fresh (e : Envelope) : Prop where
  hops : e.hops = 0
  hopPort : e.hopPort = 0
  id : e.id ≠ ""
  payload : Envelope.Portable e.payload
  fits : e.encode.length ≤ maxMessageSize

/-- Through any change of hops and port, a fresh envelope keeps its length and is read back. -/
theorem Envelope.Fresh.encode {e₀ e : Envelope} (h : e₀.Fresh) (hid : e.id = e₀.id)
    (hpayload : e.payload = e₀.payload) (hhops : e.hops ≤ 9) :
    e.encode.length = e₀.encode.length ∧ Request.parse e.encode = .ok (.broadcast e) := by
  have hlength : e.encode.length = e₀.encode.length := by
    have hzero : e₀.hops ≤ 9 := by rw [h.hops]; decide
    have hsame := length_encode hzero hhops e.hopPort
    rw [← hid, ← hpayload] at hsame
    exact hsame
  have hfits := h.fits
  rw [← hlength] at hfits
  exact ⟨hlength, parse_encode (hpayload ▸ h.payload) hhops (hid ▸ h.id) hfits⟩

def MeshEvent.Fresh : MeshEvent → Prop
  | .originate _ e => e.Fresh
  | _ => True

namespace Mesh

/-! ## Walks -/

/-- In the run, the relay at a place sent to a target that one of its tables lists. -/
def Uses (m : Mesh) (evs : List MeshEvent) (place : Nat) (target : Endpoint) : Prop :=
  ∃ h ∈ m.handlings evs, h.place = place ∧
    (target ∈ h.relay.routers.endpoints ∨ target ∈ h.relay.clients.endpoints) ∧
    ∃ d ∈ h.sent, d.target = target

/-- A walk with so many edges from a relay to an endpoint. Every edge leads from a relay to a
target it uses. -/
inductive Walk (m : Mesh) (uses : Nat → Endpoint → Prop) (start : Nat) : Nat → Endpoint → Prop
  | edge {t : Endpoint} (h : uses start t) : Walk m uses start 1 t
  | more {n i : Nat} {t t' : Endpoint} (h : Walk m uses start n t) (hi : m.indexOf? t = some i)
      (huses : uses i t') : Walk m uses start (n + 1) t'

variable {m : Mesh} {evs : List MeshEvent}

theorem Walk.mono {uses uses' : Nat → Endpoint → Prop} (h : ∀ i t, uses i t → uses' i t)
    {start n : Nat} {t : Endpoint} (hwalk : m.Walk uses start n t) : m.Walk uses' start n t := by
  induction hwalk with
  | edge huses => exact .edge (h _ _ huses)
  | more _ hi huses ih => exact .more ih hi (h _ _ huses)

theorem handlings_snoc (m : Mesh) (evs : List MeshEvent) (ev : MeshEvent) :
    m.handlings (evs ++ [ev]) = m.handlings evs ++ ((m.after evs).perform ev).handling.toList := by
  rw [handlings, steps_append, List.filterMap_append]
  cases hh : ((m.after evs).perform ev).handling <;> simp [handlings, steps, hh]

theorem deliveries_cons (m : Mesh) (ev : MeshEvent) (evs : List MeshEvent) :
    m.deliveries (ev :: evs) =
      (m.perform ev).delivered.toList ++ (m.perform ev).mesh.deliveries evs := by
  cases hd : (m.perform ev).delivered <;> simp [deliveries, steps, hd]

theorem deliveries_snoc (m : Mesh) (evs : List MeshEvent) (ev : MeshEvent) :
    m.deliveries (evs ++ [ev]) =
      m.deliveries evs ++ ((m.after evs).perform ev).delivered.toList := by
  rw [deliveries, steps_append, List.filterMap_append]
  cases hd : ((m.after evs).perform ev).delivered <;> simp [deliveries, steps, hd]

theorem Uses.snoc {i : Nat} {t : Endpoint} (h : m.Uses evs i t) (ev : MeshEvent) :
    m.Uses (evs ++ [ev]) i t := by
  obtain ⟨g, hg, hrest⟩ := h
  refine ⟨g, ?_, hrest⟩
  rw [handlings_snoc]
  exact List.mem_append_left _ hg

/-! ## What a datagram carries -/

/-- A datagram sent in a handling carries the envelope `e`, a copy of the fresh `e₀` that the relay
at `o` originated. -/
structure Carried (m : Mesh) (evs : List MeshEvent) (h : Handling) (d : Datagram) (e : Envelope)
    (o : Nat) (e₀ : Envelope) : Prop where
  parse : Request.parse d.payload = .ok (.broadcast e)
  originated : .originate o e₀ ∈ evs
  id : e.id = e₀.id
  payload : e.payload = e₀.payload
  source : d.source = h.relay.outlet.address
  hopPort : e.hopPort = h.relay.listenPort
  hops_pos : 1 ≤ e.hops
  hops_le : e.hops ≤ h.relay.hopLimit
  walk : m.Walk (m.Uses evs) o e.hops d.target
  length : d.payload.length = e₀.encode.length

/-- A handled envelope is a copy of a fresh one: at the relay that originates it, or at the end of a
walk. -/
structure Traced (m : Mesh) (evs : List MeshEvent) (h : Handling) (o : Nat) (e₀ : Envelope) :
    Prop where
  originated : .originate o e₀ ∈ evs
  fresh : e₀.Fresh
  id : h.envelope.id = e₀.id
  payload : h.envelope.payload = e₀.payload
  walk : (h.envelope.hops = 0 ∧ h.place = o) ∨
    ∃ t, m.indexOf? t = some h.place ∧ m.Walk (m.Uses evs) o h.envelope.hops t
  limit : h.relay.hopLimit ≤ 9
  verdict : ∃ r', h.relay.Verdict h.envelope h.source r' h.sent h.outcome

namespace Traced

variable {h : Handling} {o : Nat} {e₀ : Envelope}

theorem snoc (ht : m.Traced evs h o e₀) (ev : MeshEvent) : m.Traced (evs ++ [ev]) h o e₀ :=
  { ht with
    originated := List.mem_append_left _ ht.originated
    walk := ht.walk.imp_right fun ⟨t, hi, hwalk⟩ =>
      ⟨t, hi, hwalk.mono fun _ _ huses => huses.snoc ev⟩ }

theorem not_tooLarge (ht : m.Traced evs h o e₀) (size : Nat) : h.outcome ≠ .tooLarge size := by
  intro houtcome
  obtain ⟨r', hverdict⟩ := ht.verdict
  rw [houtcome] at hverdict
  obtain ⟨hhops, hsize⟩ := hverdict.of_tooLarge
  have hstamp : (h.relay.stamp h.envelope).hops ≤ 9 := Nat.le_trans hhops ht.limit
  have hlength := (ht.fresh.encode (e := h.relay.stamp h.envelope) ht.id ht.payload hstamp).1
  have hfits := ht.fresh.fits
  omega

/-- What is sent in a handling carries the envelope with one hop more. -/
theorem carried (ht : m.Traced evs h o e₀) (hh : h ∈ m.handlings evs) {d : Datagram}
    (hd : d ∈ h.sent) : m.Carried evs h d (h.relay.stamp h.envelope) o e₀ := by
  obtain ⟨r', hverdict⟩ := ht.verdict
  obtain ⟨hhops, t, htarget, rfl⟩ := hverdict.of_mem_sent hd
  have hstamp : (h.relay.stamp h.envelope).hops ≤ 9 := Nat.le_trans hhops ht.limit
  obtain ⟨hlength, hparse⟩ :=
    ht.fresh.encode (e := h.relay.stamp h.envelope) ht.id ht.payload hstamp
  have huses : m.Uses evs h.place t := ⟨h, hh, rfl, Relay.mem_targets htarget, _, hd, rfl⟩
  refine ⟨hparse, ht.originated, ht.id, ht.payload, rfl, rfl, Nat.succ_pos _, hhops, ?_, hlength⟩
  rcases ht.walk with ⟨hzero, hplace⟩ | ⟨t', hi, hwalk⟩
  · have hone : (h.relay.stamp h.envelope).hops = 1 := congrArg Nat.succ hzero
    rw [hone]
    exact .edge (hplace ▸ huses)
  · exact .more hwalk hi huses

end Traced

/-! ## The invariant of a run -/

/-- In a run of fresh envelopes, whatever is handled is a copy of one, and whatever has been in
flight was sent in a handling. -/
structure Genuine (m : Mesh) (evs : List MeshEvent) : Prop where
  handled : ∀ h ∈ m.handlings evs, ∃ o e₀, m.Traced evs h o e₀
  flying : ∀ d ∈ (m.after evs).network.queue, ∃ h ∈ m.handlings evs, d ∈ h.sent
  delivered : ∀ d ∈ m.deliveries evs, ∃ h ∈ m.handlings evs, d ∈ h.sent

theorem genuine_nil (hempty : m.network.queue = []) : m.Genuine [] where
  handled := fun _ hh => nomatch hh
  flying := fun d hd => by
    rw [after, hempty] at hd
    cases hd
  delivered := fun _ hd => nomatch hd

theorem Genuine.traced (hg : m.Genuine evs) (hlimit : ∀ r ∈ m.relays, r.hopLimit ≤ 9)
    {ev : MeshEvent}
    (hfresh : ev.Fresh) {h : Handling} (hh : ((m.after evs).perform ev).handling = some h) :
    ∃ o e₀, m.Traced (evs ++ [ev]) h o e₀ := by
  obtain ⟨hcause, hr, r', hverdict, _⟩ := handling_verdict hh
  obtain ⟨r, hr₀, _, hsame, _⟩ := fixed_after hr
  have hle : h.relay.hopLimit ≤ 9 := hsame ▸ hlimit r (List.mem_of_getElem? hr₀)
  have hnow : ev ∈ evs ++ [ev] := List.mem_append_right evs List.mem_cons_self
  rcases hcause.of with ⟨hev, _⟩ | ⟨d, hd, _, _, hparse, hi⟩
  · rw [hev] at hfresh hnow
    refine ⟨h.place, h.envelope, ?_⟩
    exact ⟨hev ▸ hnow, hfresh, rfl, rfl, .inl ⟨hfresh.hops, rfl⟩, hle, r', hverdict⟩
  · -- What arrives was sent in a handling, and carries the envelope of that handling one hop on.
    obtain ⟨g, hmem, hsent⟩ := hg.flying d hd
    obtain ⟨o, e₀, htraced⟩ := hg.handled g hmem
    have hcarried := htraced.carried hmem hsent
    have heq : h.envelope = g.relay.stamp g.envelope := by
      have hsame := hparse.symm.trans hcarried.parse
      simpa using hsame
    rw [indexOf?_after] at hi
    refine ⟨o, e₀, List.mem_append_left _ htraced.originated, htraced.fresh, ?_, ?_,
      .inr ⟨d.target, hi, ?_⟩, hle, r', hverdict⟩
    · rw [heq, hcarried.id]
    · rw [heq, hcarried.payload]
    · rw [heq]
      exact hcarried.walk.mono fun _ _ huses => huses.snoc ev

theorem Genuine.snoc (hg : m.Genuine evs) (hlimit : ∀ r ∈ m.relays, r.hopLimit ≤ 9) {ev : MeshEvent}
    (hfresh : ev.Fresh) : m.Genuine (evs ++ [ev]) := by
  have hkeep : ∀ d, (∃ h ∈ m.handlings evs, d ∈ h.sent) →
      ∃ h ∈ m.handlings (evs ++ [ev]), d ∈ h.sent := by
    rintro d ⟨h, hh, hd⟩
    rw [handlings_snoc]
    exact ⟨h, List.mem_append_left _ hh, hd⟩
  refine ⟨fun h hh => ?_, fun d hd => ?_, fun d hd => ?_⟩
  · rw [handlings_snoc] at hh
    rcases List.mem_append.mp hh with hh | hh
    · obtain ⟨o, e₀, htraced⟩ := hg.handled h hh
      exact ⟨o, e₀, htraced.snoc ev⟩
    · exact hg.traced hlimit hfresh (Option.mem_toList.mp hh)
  · rw [after_append] at hd
    rcases mem_queue_perform hd with hd | hd
    · exact hkeep d (hg.flying d hd)
    · rw [MeshStep.sent] at hd
      cases hh : ((m.after evs).perform ev).handling with
      | none =>
        rw [hh] at hd
        cases hd
      | some h =>
        rw [hh] at hd
        refine ⟨h, ?_, hd⟩
        rw [handlings_snoc, hh]
        exact List.mem_append_right _ (Option.mem_toList.mpr rfl)
  · rw [deliveries_snoc] at hd
    rcases List.mem_append.mp hd with hd | hd
    · exact hkeep d (hg.delivered d hd)
    · exact hkeep d (hg.flying d (mem_queue_of_delivered (Option.mem_toList.mp hd)))

theorem genuine (hempty : m.network.queue = []) (hlimit : ∀ r ∈ m.relays, r.hopLimit ≤ 9)
    (hfresh : ∀ ev ∈ evs, ev.Fresh) : m.Genuine evs := by
  induction evs using List.reverseRecOn with
  | nil => exact genuine_nil hempty
  | append_singleton evs ev ih =>
    have hbefore := ih fun ev hev => hfresh ev (List.mem_append_left _ hev)
    exact hbefore.snoc hlimit (hfresh ev (List.mem_append_right evs List.mem_cons_self))

/-- In any run of fresh envelopes from an empty network, whatever is in flight or delivered was sent
in a handling, and carries a copy of an envelope that was originated. Nothing is ever too large. -/
theorem flood_faithful (hlimit : ∀ r ∈ m.relays, r.hopLimit ≤ 9)
    (hempty : m.network.queue = []) (hfresh : ∀ ev ∈ evs, ev.Fresh) :
    (∀ d, d ∈ (m.after evs).network.queue ∨ d ∈ m.deliveries evs →
      (∃ h ∈ m.handlings evs, d ∈ h.sent) ∧
        ∀ h ∈ m.handlings evs, d ∈ h.sent → ∃ e o e₀, m.Carried evs h d e o e₀) ∧
    ∀ h ∈ m.handlings evs, ∀ size, h.outcome ≠ .tooLarge size := by
  have hg : m.Genuine evs := genuine hempty hlimit hfresh
  refine ⟨fun d hd => ⟨?_, fun h hh hsent => ?_⟩, fun h hh size => ?_⟩
  · rcases hd with hd | hd
    · exact hg.flying d hd
    · exact hg.delivered d hd
  · obtain ⟨o, e₀, htraced⟩ := hg.handled h hh
    exact ⟨_, o, e₀, htraced.carried hh hsent⟩
  · obtain ⟨o, e₀, htraced⟩ := hg.handled h hh
    exact htraced.not_tooLarge size

theorem fresh_hello : hello.Fresh where
  hops := rfl
  hopPort := rfl
  id := by decide
  payload :=
    { sorted := List.pairwise_singleton _ _
      unreserved := fun m hm => by
        rw [List.mem_singleton.mp hm]
        decide
      faithful := fun m hm => by
        rw [List.mem_singleton.mp hm]
        trivial }
  fits := by decide +kernel

theorem flood_faithful_pair :
    let evs := [.originate 0 hello, .deliver 0]
    (∀ r ∈ pair.relays, r.hopLimit ≤ 9) ∧ pair.network.queue = [] ∧ (∀ ev ∈ evs, ev.Fresh) ∧
      (∃ d ∈ pair.deliveries evs, ∃ h ∈ pair.handlings evs, d ∈ h.sent ∧
        ∃ e o e₀, pair.Carried evs h d e o e₀) ∧
      ∀ h ∈ pair.handlings evs, ∀ size, h.outcome ≠ .tooLarge size := by
  intro evs
  have hlimit : ∀ r ∈ pair.relays, r.hopLimit ≤ 9 := by
    intro r hr
    rw [pair_relays] at hr
    simp only [List.mem_cons, List.not_mem_nil, or_false] at hr
    rcases hr with rfl | rfl <;> decide
  have hfresh : ∀ ev ∈ evs, ev.Fresh := by
    intro ev hev
    simp only [evs, List.mem_cons, List.not_mem_nil, or_false] at hev
    rcases hev with rfl | rfl
    · exact fresh_hello
    · trivial
  obtain ⟨hcarried, hsmall⟩ := flood_faithful hlimit rfl hfresh
  obtain ⟨d, hd⟩ : ∃ d, d ∈ pair.deliveries evs := by
    rcases pair.perform_originate 0 hello with ⟨hnone, _⟩ |
      ⟨r, r', sent, outcome, hr, hverdict, hperform⟩
    · cases hnone
    · obtain rfl : station₁ = r := Option.some.inj hr
      obtain ⟨_, hsent, _⟩ := hverdict.is_forwarded (by decide) rfl (by decide +kernel)
      have hfirst : (pair.perform (.originate 0 hello)).mesh.network.queue[0]? =
          some ⟨station₁.outlet.address, (station 2).outlet.address,
            (station₁.stamp hello).encode⟩ := by
        rw [hperform, hsent, Relay.copies, station₁_targets]
        rfl
      have hsecond := delivered_eq hfirst
      exact ⟨_, List.mem_filterMap.mpr ⟨_, List.mem_cons_of_mem _ List.mem_cons_self, hsecond⟩⟩
  obtain ⟨⟨h, hh, hsent⟩, hall⟩ := hcarried d (.inr hd)
  exact ⟨hlimit, rfl, hfresh, ⟨d, hd, h, hh, hsent, hall h hh hsent⟩, hsmall⟩

end Mesh

end FloodMesh
