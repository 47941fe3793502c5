import FloodMesh.Proofs.Mesh.Events
import FloodMesh.Proofs.Wire.Envelope

/-!
# FloodMesh.Proofs.Mesh.Dedup

Each relay passes each message on once for as long as its memory lasts, whatever happens to the
mesh around it: `forwarded_again`. So a message does not take more datagrams than the relays have
peers, however the events are ordered.
-/

namespace FloodMesh

namespace MeshEvent

def ticksMessages (place : Nat) : MeshEvent → Bool
  | .tick i .messages => i == place
  | _ => false

end MeshEvent

/-- In this step the relay at a place forwards a message of an id. -/
def MeshStep.Forwards (s : MeshStep) (place : Nat) (id : String) (relay : Relay) : Prop :=
  ∃ h routers clients, s.handling = some h ∧ h.place = place ∧ h.envelope.id = id ∧
    h.relay = relay ∧ h.outcome = .forwarded routers clients

/-! ## Memory through a run -/

namespace Relay

variable {place : Nat} {ev : MeshEvent} {r r' : Relay}

theorem Change.messages_sound (h : r.Change place ev r') (hsound : r.messages.Sound) :
    r'.messages.Sound := by
  cases h with
  | none => exact hsound
  | remember _ id => exact hsound.see id
  | tick table =>
    cases table with
    | messages => exact hsound.tick
    | routers => exact hsound
    | clients => exact hsound
  | forget => exact hsound.clear
  | rewire => exact hsound

/-- Nothing but a tick takes any time off an id in memory, unless the memory is cleared. -/
theorem Change.remembers (h : r.Change place ev r') (hforget : ev ≠ .forget place) {id : String}
    {n : Nat} (hremembers : r.messages.Remembers id n)
    (hticks : (if ev.ticksMessages place = true then 1 else 0) < n) :
    r'.messages.Remembers id (n - if ev.ticksMessages place = true then 1 else 0) := by
  cases h with
  | none => exact hremembers.mono (Nat.sub_le _ _)
  | remember _ other => exact (hremembers.see other).mono (Nat.sub_le _ _)
  | tick table =>
    cases table with
    | routers => exact hremembers
    | clients => exact hremembers
    | messages =>
      rw [if_pos (by simp [MeshEvent.ticksMessages])] at hticks ⊢
      obtain ⟨k, rfl⟩ := Nat.exists_eq_add_of_lt hticks
      rw [show 1 + k + 1 = k + 2 by omega] at hremembers
      have htick := hremembers.tick
      rwa [show k + 1 = 1 + k + 1 - 1 by omega] at htick
  | forget => exact absurd rfl hforget
  | rewire => exact hremembers

end Relay

namespace Mesh

variable {m : Mesh} {place : Nat} {id : String}

def MessagesSound (m : Mesh) : Prop := ∀ r ∈ m.relays, r.messages.Sound

theorem MessagesSound.perform (h : m.MessagesSound) (ev : MeshEvent) :
    (m.perform ev).mesh.MessagesSound := by
  intro r' hr'
  obtain ⟨i, hi⟩ := List.mem_iff_getElem?.mp hr'
  obtain ⟨r, hr, hchange⟩ := change_of_perform hi
  exact hchange.messages_sound (h r (List.mem_of_getElem? hr))

theorem MessagesSound.after (h : m.MessagesSound) (evs : List MeshEvent) :
    (m.after evs).MessagesSound := by
  induction evs generalizing m with
  | nil => exact h
  | cons ev evs ih => exact ih (h.perform ev)

/-- An id stays in memory through events with fewer ticks than it has left. -/
theorem remembers_after {n : Nat} {r : Relay} (hr : m.relays[place]? = some r)
    (hremembers : r.messages.Remembers id n) {evs : List MeshEvent}
    (hforget : .forget place ∉ evs) (hticks : evs.countP (MeshEvent.ticksMessages place) < n) :
    ∃ r' k, (m.after evs).relays[place]? = some r' ∧ r'.messages.Remembers id k := by
  induction evs generalizing m n r with
  | nil => exact ⟨r, n, hr, hremembers⟩
  | cons ev evs ih =>
    rw [List.countP_cons] at hticks
    obtain ⟨r', hr', hchange⟩ := perform_change ev hr
    have hne : ev ≠ .forget place := fun h => hforget (h ▸ List.mem_cons_self)
    have hstep := hchange.remembers hne hremembers (by omega)
    exact ih hr' hstep (fun h => hforget (List.mem_cons_of_mem ev h)) (by omega)

theorem unknown_of_forwards {ev : MeshEvent} {r : Relay} (h : (m.perform ev).Forwards place id r) :
    m.relays[place]? = some r ∧ r.knows id = false ∧
      (m.perform ev).mesh.relays[place]? = some (r.remember id) := by
  obtain ⟨h, routers, clients, hhandling, rfl, rfl, rfl, houtcome⟩ := h
  obtain ⟨_, hr, r', hverdict, hrelays⟩ := handling_verdict hhandling
  have hlt := (List.getElem?_eq_some_iff.mp hr).1
  rw [houtcome] at hverdict
  obtain ⟨_, hknows, rfl, _⟩ := hverdict.of_forwarded
  refine ⟨hr, hknows, ?_⟩
  rw [hrelays, List.getElem?_set_self hlt]

/-- While an id stays in memory, no message of that id is forwarded. -/
theorem not_forwards_of_remembers {n : Nat} {r : Relay} (hr : m.relays[place]? = some r)
    (hremembers : r.messages.Remembers id n) {evs : List MeshEvent} (hforget : .forget place ∉ evs)
    (hticks : evs.countP (MeshEvent.ticksMessages place) < n) (ev : MeshEvent) (s : Relay) :
    ¬ ((m.after evs).perform ev).Forwards place id s := by
  intro hforwards
  obtain ⟨s', k, hs', hkept⟩ := remembers_after hr hremembers hforget hticks
  obtain ⟨hs, hunknown, _⟩ := unknown_of_forwards hforwards
  rw [hs] at hs'
  cases hs'
  rw [Relay.knows, hkept.contains] at hunknown
  cases hunknown

theorem forwards_originate {e : Envelope} {r : Relay} (hr : m.relays[place]? = some r)
    (hhops : e.hops < r.hopLimit) (hknows : r.knows e.id = false)
    (hsize : (r.stamp e).encode.length ≤ maxMessageSize) :
    (m.perform (.originate place e)).Forwards place e.id r := by
  rcases m.perform_originate place e with ⟨hnone, _⟩ |
    ⟨s, r', sent, outcome, hs, hverdict, hperform⟩
  · rw [hr] at hnone
    cases hnone
  · rw [hr] at hs
    cases hs
    obtain ⟨_, _, routers, clients, rfl⟩ := hverdict.is_forwarded hhops hknows hsize
    exact ⟨_, routers, clients, by rw [hperform], rfl, rfl, rfl, rfl⟩

/-- A relay that forwards two messages of one id has had its memory cleared in between, or ticked
for its whole time to live. -/
theorem forwarded_again (hsound : m.MessagesSound) {first second : MeshEvent}
    {between : List MeshEvent} {r s : Relay}
    (hfirst : (m.perform first).Forwards place id r)
    (hsecond : (((m.perform first).mesh.after between).perform second).Forwards place id s) :
    .forget place ∈ between ∨
      r.messages.leases.ttl ≤ between.countP (MeshEvent.ticksMessages place) := by
  -- The first one puts the id into memory for the whole time to live.
  by_contra hneither
  simp only [not_or, Nat.not_le] at hneither
  obtain ⟨hr, hunknown, hafter⟩ := unknown_of_forwards hfirst
  have hremembers : (r.remember id).messages.Remembers id r.messages.leases.ttl :=
    .of_see (hsound r (List.mem_of_getElem? hr)) hunknown
  exact not_forwards_of_remembers hafter hremembers hneither.1 hneither.2 second s hsecond

end Mesh

end FloodMesh
