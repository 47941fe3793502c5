import FloodMesh.Proofs.Mesh.Dedup
import FloodMesh.Proofs.Wire.Request

/-!
# FloodMesh.Proofs.Mesh.Drops

What is left of an envelope that goes no further. One at its hop limit and one whose id is in memory
leave nothing behind. One that would not fit is not sent either, but its id is in memory by then, as
if it had gone on, and copies that would fit are dropped as duplicates.
-/

namespace FloodMesh

/-- The outcomes that leave the id of an envelope in memory. -/
def FloodOutcome.remembered : FloodOutcome → Bool
  | tooLarge _ | forwarded _ _ => true
  | hopLimitReached | duplicate => false

namespace Relay

variable {r r' : Relay} {e : Envelope} {source : Option IpAddress} {sent : List Datagram}
  {outcome : FloodOutcome}

theorem remember_ne {id : String} (hsound : r.messages.Sound) (hknows : r.knows id = false) :
    r.remember id ≠ r := by
  intro heq
  have hafter : (r.remember id).knows id = (id == id || r.knows id) :=
    hsound.contains_see id id
  rw [heq, hknows, BEq.rfl, Bool.true_or] at hafter
  cases hafter

/-- What does not go on changes nothing, except for the id of what is too large. -/
theorem Verdict.of_dropped (h : r.Verdict e source r' sent outcome) (hsound : r.messages.Sound)
    (hdropped : ∀ routers clients, outcome ≠ .forwarded routers clients) :
    sent = [] ∧ (r' = r ∨ r' = r.remember e.id) ∧ (r' = r ↔ ∀ size, outcome ≠ .tooLarge size) := by
  cases h with
  | hopLimitReached => exact ⟨rfl, .inl rfl, fun _ _ h => (nomatch h), fun _ => rfl⟩
  | duplicate => exact ⟨rfl, .inl rfl, fun _ _ h => (nomatch h), fun _ => rfl⟩
  | tooLarge _ hknows _ =>
    refine ⟨rfl, .inr rfl, fun heq => absurd heq (remember_ne hsound hknows), fun hne => ?_⟩
    exact absurd rfl (hne _)
  | forwarded => exact absurd rfl (hdropped _ _)

/-- An id that is in memory after an envelope was in memory before or is the envelope's own. -/
theorem Verdict.knows (h : r.Verdict e source r' sent outcome) (hsound : r.messages.Sound)
    {id : String} (hknows : r'.knows id = true) :
    r.knows id = true ∨ (e.id = id ∧ outcome.remembered = true) := by
  have hremember : (r.remember e.id).knows id = true → r.knows id = true ∨ e.id = id := by
    intro hafter
    have hsee : (r.remember e.id).knows id = (e.id == id || r.knows id) :=
      hsound.contains_see e.id id
    rw [hsee, Bool.or_eq_true, beq_iff_eq] at hafter
    exact hafter.symm
  cases h with
  | hopLimitReached => exact .inl hknows
  | duplicate => exact .inl hknows
  | tooLarge => exact (hremember hknows).imp_right fun hid => ⟨hid, rfl⟩
  | forwarded => exact (hremember hknows).imp_right fun hid => ⟨hid, rfl⟩

theorem knows_tick (hsound : r.messages.Sound) {table : Table} {id : String}
    (hknows : (r.ticks table 1).1.knows id = true) : r.knows id = true := by
  cases table with
  | routers => exact hknows
  | clients => exact hknows
  | messages => exact hsound.contains_of_tick hknows

end Relay

namespace Mesh

variable {m : Mesh} {place : Nat} {id : String} {r : Relay}

/-- In this list of handlings is one at a place that left an id in memory. -/
def LeftIn (hs : List Handling) (place : Nat) (id : String) : Prop :=
  ∃ h ∈ hs, h.place = place ∧ h.envelope.id = id ∧ h.outcome.remembered = true

theorem LeftIn.mono {hs hs' : List Handling} (h : LeftIn hs place id)
    (hsub : ∀ x ∈ hs, x ∈ hs') : LeftIn hs' place id := by
  obtain ⟨x, hx, hleft⟩ := h
  exact ⟨x, hsub x hx, hleft⟩

/-! ## How ids come into memory -/

theorem knows_handled {i : Nat} {e : Envelope} {source : Option IpAddress} {s s' : Relay}
    {queue sent : List Datagram} {outcome : FloodOutcome} (hsound : m.MessagesSound)
    (hs : m.relays[i]? = some s) (hverdict : s.Verdict e source s' sent outcome)
    (hr : (m.handled queue i s' sent).relays[place]? = some r) (hknows : r.knows id = true) :
    (∃ r₀, m.relays[place]? = some r₀ ∧ r₀.knows id = true) ∨
      (i = place ∧ e.id = id ∧ outcome.remembered = true) := by
  by_cases heq : i = place
  · subst heq
    have hlt := (List.getElem?_eq_some_iff.mp hs).1
    have hset : (m.relays.set i s')[i]? = some r := hr
    rw [List.getElem?_set_self hlt] at hset
    cases hset
    rcases hverdict.knows (hsound s (List.mem_of_getElem? hs)) hknows with hbefore | hown
    · exact .inl ⟨s, hs, hbefore⟩
    · exact .inr ⟨rfl, hown⟩
  · have hset : (m.relays.set i s')[place]? = some r := hr
    rw [List.getElem?_set_ne heq] at hset
    exact .inl ⟨r, hset, hknows⟩

theorem knows_adjust {i : Nat} {f : Relay → Relay}
    (hf : ∀ s ∈ m.relays, (f s).knows id = true → s.knows id = true)
    (hr : (m.adjust i f).relays[place]? = some r) (hknows : r.knows id = true) :
    ∃ r₀, m.relays[place]? = some r₀ ∧ r₀.knows id = true := by
  have hmodify : (m.relays.modify i f)[place]? = some r := hr
  rw [List.getElem?_modify] at hmodify
  obtain ⟨s, hs, rfl⟩ := Option.map_eq_some_iff.mp hmodify
  refine ⟨s, hs, ?_⟩
  by_cases heq : i = place
  · rw [if_pos heq] at hknows
    exact hf s (List.mem_of_getElem? hs) hknows
  · rw [if_neg heq] at hknows
    exact hknows

/-- One event puts no other id into memory than that of the envelope that is handled. -/
theorem knows_perform (hsound : m.MessagesSound) {ev : MeshEvent}
    (hr : (m.perform ev).mesh.relays[place]? = some r) (hknows : r.knows id = true) :
    (∃ r₀, m.relays[place]? = some r₀ ∧ r₀.knows id = true) ∨
      LeftIn (m.perform ev).handling.toList place id := by
  cases ev with
  | originate i e =>
    rcases m.perform_originate i e with ⟨_, hperform⟩ |
      ⟨s, s', sent, outcome, hs, hverdict, hperform⟩
    · rw [hperform] at hr
      exact .inl ⟨r, hr, hknows⟩
    · rw [hperform] at hr ⊢
      exact (knows_handled hsound hs hverdict hr hknows).imp_right fun hown =>
        ⟨_, List.mem_singleton_self _, hown⟩
  | deliver n =>
    cases hn : m.network.queue[n]? with
    | none =>
      simp only [perform, hn] at hr
      exact .inl ⟨r, hr, hknows⟩
    | some d =>
      rcases m.perform_deliver hn with ⟨_, hperform⟩ |
        ⟨i, e, s, s', sent, outcome, _, _, hs, hverdict, hperform⟩
      · rw [hperform] at hr
        exact .inl ⟨r, hr, hknows⟩
      · rw [hperform] at hr ⊢
        exact (knows_handled hsound hs hverdict hr hknows).imp_right fun hown =>
          ⟨_, List.mem_singleton_self _, hown⟩
  | lose n => exact .inl ⟨r, hr, hknows⟩
  | duplicate n => exact .inl ⟨r, hr, hknows⟩
  | tick i table =>
    exact .inl (knows_adjust (fun s hs => Relay.knows_tick (hsound s hs)) hr hknows)
  | forget i =>
    refine .inl (knows_adjust (fun s hs hcleared => ?_) hr hknows)
    rw [Relay.knows, (hsound s hs).contains_clear] at hcleared
    cases hcleared
  | rewire i routers clients =>
    exact .inl (knows_adjust (f := fun s => { s with routers, clients }) (fun _ _ h => h) hr hknows)

/-- Through a whole run, no id is in memory but of an envelope that was handled. -/
theorem knows_after (hsound : m.MessagesSound) {evs : List MeshEvent}
    (hr : (m.after evs).relays[place]? = some r) (hknows : r.knows id = true) :
    (∃ r₀, m.relays[place]? = some r₀ ∧ r₀.knows id = true) ∨ LeftIn (m.handlings evs) place id := by
  induction evs generalizing m with
  | nil => exact .inl ⟨r, hr, hknows⟩
  | cons ev evs ih =>
    have hhandlings : m.handlings (ev :: evs) =
        (m.perform ev).handling.toList ++ (m.perform ev).mesh.handlings evs := by
      cases hhandling : (m.perform ev).handling <;> simp [handlings, steps, hhandling]
    rw [hhandlings]
    rcases ih (hsound.perform ev) hr with ⟨r₁, hr₁, hknows₁⟩ | hlater
    · exact (knows_perform hsound hr₁ hknows₁).imp_right fun hleft =>
        hleft.mono fun x hx => List.mem_append_left _ hx
    · exact .inr (hlater.mono fun x hx => List.mem_append_right _ hx)

/-! ## What drops leave -/

/-- Whatever has happened to a mesh whose memories were empty: an envelope that a relay does not
forward leaves the network as it was, and the relay too unless it is too large, when its id comes
into memory. So the ids in memory are of envelopes that were forwarded or too large, and an envelope
that may go on and fits does so unless one of its id was forwarded or too large. -/
theorem drops_remembered (hempty : ∀ r ∈ m.relays, ∃ ttl buckets, r.messages = .empty ttl buckets)
    {evs : List MeshEvent} (hr : (m.after evs).relays[place]? = some r) :
    (∀ n e source r' n' outcome, r.handle n e source = (r', n', outcome) →
      (∀ routers clients, outcome ≠ .forwarded routers clients) →
        n' = n ∧ (r' = r ∨ r' = r.remember e.id) ∧
          (r' = r ↔ ∀ size, outcome ≠ .tooLarge size)) ∧
    (∀ id, r.knows id = true → LeftIn (m.handlings evs) place id) ∧
    ∀ n e source, e.hops < r.hopLimit → (r.stamp e).encode.length ≤ maxMessageSize →
      ¬ LeftIn (m.handlings evs) place e.id →
        ∃ routers clients, (r.handle n e source).2.2 = .forwarded routers clients := by
  have hsound : m.MessagesSound := by
    intro s hs
    obtain ⟨ttl, buckets, hmessages⟩ := hempty s hs
    rw [hmessages]
    exact Sightings.sound_empty ttl buckets
  have hmemory : ∀ id, r.knows id = true → LeftIn (m.handlings evs) place id := by
    intro id hknows
    rcases knows_after hsound hr hknows with ⟨r₀, hr₀, hknows₀⟩ | hleft
    · obtain ⟨ttl, buckets, hmessages⟩ := hempty r₀ (List.mem_of_getElem? hr₀)
      rw [Relay.knows, hmessages, Sightings.contains_empty] at hknows₀
      cases hknows₀
    · exact hleft
  refine ⟨?_, hmemory, ?_⟩
  · intro n e source r' n' outcome hhandle hdropped
    obtain ⟨s, sent, o, heq, hverdict⟩ := r.handle_verdict n e source
    rw [hhandle] at heq
    cases heq
    have hsound' := hsound.after evs r (List.mem_of_getElem? hr)
    obtain ⟨rfl, hrelay, hiff⟩ := hverdict.of_dropped hsound' hdropped
    exact ⟨by rw [List.append_nil], hrelay, hiff⟩
  · intro n e source hhops hsize hleft
    obtain ⟨s, sent, o, heq, hverdict⟩ := r.handle_verdict n e source
    have hknows : r.knows e.id = false := by
      rw [← Bool.not_eq_true]
      exact fun hknows => hleft (hmemory e.id hknows)
    obtain ⟨_, _, routers, clients, rfl⟩ := hverdict.is_forwarded hhops hknows hsize
    exact ⟨routers, clients, by rw [heq]⟩

/-- A copy that has come too far leaves no trace: a later one is forwarded. -/
theorem drops_remembered_late :
    let late : Envelope := { hello with hops := 3 }
    let evs : List MeshEvent := [.originate 0 late]
    (∀ r ∈ pair.relays, ∃ ttl buckets, r.messages = .empty ttl buckets) ∧
      (pair.after evs).relays[0]? = some station₁ ∧
      hello.hops < station₁.hopLimit ∧ (station₁.stamp hello).encode.length ≤ maxMessageSize ∧
      ¬ LeftIn (pair.handlings evs) 0 hello.id ∧
      ∃ routers clients, (station₁.handle {} hello none).2.2 = .forwarded routers clients := by
  intro late evs
  have hempty : ∀ r ∈ pair.relays, ∃ ttl buckets, r.messages = .empty ttl buckets := by
    rw [pair_relays]
    intro r hr
    rcases List.mem_cons.mp hr with rfl | hr
    · exact ⟨2, 4, rfl⟩
    · cases List.mem_singleton.mp hr
      exact ⟨2, 4, rfl⟩
  have hafter : (pair.after evs).relays[0]? = some station₁ := rfl
  have hhandlings : pair.handlings evs =
      [⟨0, station₁, late, none, .hopLimitReached, []⟩] := rfl
  have hleft : ¬ LeftIn (pair.handlings evs) 0 hello.id := by
    rw [hhandlings]
    rintro ⟨h, hh, _, _, hremembered⟩
    cases List.mem_singleton.mp hh
    cases hremembered
  have hhops : hello.hops < station₁.hopLimit := by decide
  have hsize : (station₁.stamp hello).encode.length ≤ maxMessageSize := by decide +kernel
  obtain ⟨_, _, hforwards⟩ := drops_remembered hempty hafter
  exact ⟨hempty, hafter, hhops, hsize, hleft, hforwards {} hello none hhops hsize hleft⟩

/-- The members of a message that is as long as a message may be. Its port takes one digit, where
one that goes on is padded. -/
def crammed : Fields :=
  [("hop-port", .text "1"), ("hops", .ofNat 0), ("id", .text "m"), ("method", .text "broadcast"),
    ("text", .text (String.ofList (List.replicate 443 'x')))]

def crammedBytes : Bytes := (Json.object crammed).print ++ delimiter

def crammedEnvelope : Envelope :=
  { hops := 0, hopPort := 1, id := "m", payload := crammed.without Envelope.ownFields }

theorem parse_crammed : Request.parse crammedBytes = .ok (.broadcast crammedEnvelope) := by
  have hvalues : ∀ m ∈ crammed, Json.Faithful (Json.depthLimit - 1) m.2 := by
    intro m hm
    simp only [crammed, List.mem_cons, List.not_mem_nil, or_false] at hm
    rcases hm with rfl | rfl | rfl | rfl | rfl
    · exact Json.faithful_text _ _
    · exact Json.faithful_ofNat _ (by decide)
    · exact Json.faithful_text _ _
    · exact Json.faithful_text _ _
    · exact Json.faithful_text _ _
  have hsorted : Fields.Sorted crammed := by
    rw [Fields.Sorted]
    decide +kernel
  have hfits : crammedBytes.length ≤ maxMessageSize := by decide +kernel
  exact Request.parse_members ⟨hsorted, hvalues⟩ hfits

/-- A message is received that would be too large to go on. A copy of it that fits is then dropped
as a duplicate, though nothing was forwarded. -/
theorem large_suppresses_copy :
    let r := station 1
    let source : Option IpAddress := some (station 2).outlet.address.ip
    let r' := (r.handle {} crammedEnvelope source).1
    Request.parse crammedBytes = .ok (.broadcast crammedEnvelope) ∧
      (∃ size, (r.handle {} crammedEnvelope source).2.2 = .tooLarge size) ∧ r' ≠ r ∧
      hello.id = crammedEnvelope.id ∧ hello.hops < r'.hopLimit ∧
      (r'.stamp hello).encode.length ≤ maxMessageSize ∧
      (r'.handle {} hello source).2.2 = .duplicate := by
  intro r source r'
  have hsound : r.messages.Sound := Sightings.sound_empty 2 4
  have hunknown : r.knows "m" = false := Sightings.contains_empty 2 4 "m"
  have hsize : maxMessageSize < (r.stamp crammedEnvelope).encode.length := by decide +kernel
  obtain ⟨s, sent, outcome, hhandle, hverdict⟩ := r.handle_verdict {} crammedEnvelope source
  obtain ⟨rfl, size, rfl⟩ : s = r.remember "m" ∧ ∃ size, outcome = .tooLarge size := by
    cases hverdict with
    | hopLimitReached hhops => exact absurd hhops (by decide)
    | duplicate _ hknows => exact absurd (hknows.symm.trans hunknown) (by decide)
    | tooLarge => exact ⟨rfl, _, rfl⟩
    | forwarded _ _ hfits => omega
  have hr' : r' = r.remember "m" := congrArg (·.1) hhandle
  obtain ⟨s', sent', outcome', hhandle', hverdict'⟩ := r'.handle_verdict {} hello source
  have hknown : r'.knows hello.id = true := by
    rw [hr']
    exact (hsound.contains_see "m" "m").trans (by rw [BEq.rfl, Bool.true_or])
  have hhops : hello.hops < r'.hopLimit := by rw [hr']; decide
  have hduplicate : outcome' = .duplicate := by
    cases hverdict' with
    | hopLimitReached hlimit => omega
    | duplicate => rfl
    | tooLarge _ hknows => exact absurd (hknows.symm.trans hknown) (by decide)
    | forwarded _ hknows => exact absurd (hknows.symm.trans hknown) (by decide)
  refine ⟨parse_crammed, ⟨size, by rw [hhandle]⟩, ?_, rfl, hhops, ?_, by rw [hhandle', hduplicate]⟩
  · rw [hr']
    exact Relay.remember_ne hsound hunknown
  · rw [hr']
    decide +kernel

end Mesh

end FloodMesh
