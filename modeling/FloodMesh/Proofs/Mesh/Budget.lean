import FloodMesh.Proofs.Mesh.Dedup
import Mathlib.Algebra.GroupWithZero.Nat
import Mathlib.Algebra.Order.BigOperators.Group.List

/-!
# FloodMesh.Proofs.Mesh.Budget

How many datagrams a message can take. A relay that has not seen an id has its peers to spend on it,
one that has seen it has nothing; every datagram sent is paid for by the relay that sends it.
-/

namespace FloodMesh

/-- A receiver reads the datagram as a broadcast with an id. -/
def Datagram.carries (id : String) (d : Datagram) : Bool :=
  match Request.parse d.payload with
  | .ok (.broadcast e) => e.id == id
  | _ => false

/-- What is sent in the step while an envelope of an id is handled. -/
def MeshStep.sentFor (id : String) (s : MeshStep) : List Datagram :=
  match s.handling with
  | some h => if h.envelope.id = id then h.sent else []
  | none => []

namespace MeshEvent

/-- The event leaves tables of peers as they are, or lets peers run out, and takes nothing from a
memory of messages. -/
def Quiet : MeshEvent → Prop
  | .originate _ _ => True
  | .deliver _ => True
  | .lose _ => True
  | .duplicate _ => True
  | .tick _ table => table ≠ .messages
  | .forget _ => False
  | .rewire _ _ _ => False

/-- What is originated has no reserved names. -/
def Plain : MeshEvent → Prop
  | .originate _ e => Envelope.Unreserved e.payload
  | _ => True

end MeshEvent

namespace Relay

variable {r r' : Relay} {e : Envelope} {source : Option IpAddress} {sent : List Datagram}
  {outcome : FloodOutcome} {id : String}

/-- Datagrams that a relay can still send for an id. -/
def budget (r : Relay) (id : String) : Nat :=
  if r.knows id = true then 0 else r.routers.size + r.clients.size

theorem not_carries_of_mem_copies (hfree : Envelope.Unreserved e.payload) (hne : e.id ≠ id)
    {d : Datagram} (hd : d ∈ r.copies e source) : ¬ d.carries id = true := by
  intro hcarries
  obtain ⟨t, _, rfl⟩ := List.mem_map.mp hd
  rw [Datagram.carries] at hcarries
  split at hcarries
  · rename_i e' hparse
    have hid : e'.id = (r.stamp e).id := Envelope.id_of_parse_encode hfree hparse
    exact hne (hid.symm.trans (eq_of_beq hcarries))
  · cases hcarries

/-- Seeing another id does not change what a relay can send for an id; seeing the id itself takes it
all. -/
theorem budget_remember (h : r.Sound) (other : String) :
    (r.remember other).budget id = if other = id then 0 else r.budget id := by
  rw [budget, h.knows_remember]
  by_cases heq : other = id
  · simp [heq]
  · simp [heq, budget, remember]

theorem Sound.budget_verdict (h : r.Sound) (hverdict : r.Verdict e source r' sent outcome) :
    (if e.id = id then sent else []).length + r'.budget id ≤ r.budget id := by
  cases hverdict with
  | hopLimitReached => simp
  | duplicate => simp
  | tooLarge =>
    rw [budget_remember h, ite_self, List.length_nil, Nat.zero_add]
    split
    · exact Nat.zero_le _
    · exact Nat.le_refl _
  | forwarded _ hknows =>
    rw [budget_remember h]
    by_cases heq : e.id = id
    · -- The relay spends all it has at once.
      rw [if_pos heq, if_pos heq, budget, ← heq, hknows, if_neg (by decide), Nat.add_zero]
      exact h.length_copies e source
    · rw [if_neg heq, if_neg heq, List.length_nil, Nat.zero_add]

/-- What is sent for an envelope carries no id but its own. -/
theorem Verdict.carried_sublist (hverdict : r.Verdict e source r' sent outcome)
    (hfree : Envelope.Unreserved e.payload) :
    (sent.filter (Datagram.carries id)).Sublist (if e.id = id then sent else []) := by
  by_cases heq : e.id = id
  · rw [if_pos heq]
    exact List.filter_sublist
  · have hnone : ∀ d ∈ sent, ¬ d.carries id = true := by
      intro d hd
      cases hverdict with
      | hopLimitReached | duplicate | tooLarge => cases hd
      | forwarded => exact not_carries_of_mem_copies hfree heq hd
    rw [if_neg heq, List.filter_eq_nil_iff.mpr hnone]

theorem Sound.budget_tick_le (h : r.Sound) {table : Table} (hne : table ≠ .messages) (id : String) :
    (r.ticks table 1).1.budget id ≤ r.budget id := by
  have hpeers := h.peers_tick_le table
  have hknows : (r.ticks table 1).1.knows id = r.knows id := by
    cases table with
    | routers => rfl
    | clients => rfl
    | messages => exact absurd rfl hne
  rw [budget, budget, hknows]
  split <;> omega

end Relay

theorem sum_map_set {α : Type} {l : List α} {i : Nat} {a : α} (h : l[i]? = some a) (b : α)
    (f : α → Nat) : ((l.set i b).map f).sum + f a = (l.map f).sum + f b := by
  induction l generalizing i with
  | nil => cases h
  | cons x l ih =>
    cases i with
    | zero =>
      cases h
      simp only [List.set_cons_zero, List.map_cons, List.sum_cons]
      omega
    | succ i =>
      have hrest := ih (i := i) (by simpa using h)
      simp only [List.set_cons_succ, List.map_cons, List.sum_cons]
      omega

theorem sum_map_modify_le {α : Type} {l : List α} {g : α → α} {f : α → Nat}
    (h : ∀ a ∈ l, f (g a) ≤ f a) (i : Nat) : ((l.modify i g).map f).sum ≤ (l.map f).sum := by
  induction l generalizing i with
  | nil => simp
  | cons a l ih =>
    have hfirst := h a List.mem_cons_self
    cases i with
    | zero =>
      simp only [List.modify_zero_cons, List.map_cons, List.sum_cons]
      omega
    | succ i =>
      have hrest := ih (fun b hb => h b (List.mem_cons_of_mem a hb)) i
      simp only [List.modify_succ_cons, List.map_cons, List.sum_cons]
      omega

namespace Mesh

variable {m : Mesh} {id : String}

def Sound (m : Mesh) : Prop := ∀ r ∈ m.relays, r.Sound

def budget (m : Mesh) (id : String) : Nat := (m.relays.map fun r => r.budget id).sum

/-- What a handled envelope takes from the mesh is what it takes from the relay. -/
theorem Sound.handled (h : m.Sound) {queue sent : List Datagram} {i : Nat} {r r' : Relay}
    (hr : m.relays[i]? = some r) (hsound : r'.Sound) {spent : Nat}
    (hpaid : spent + r'.budget id ≤ r.budget id) :
    (m.handled queue i r' sent).Sound ∧
      spent + (m.handled queue i r' sent).budget id ≤ m.budget id := by
  constructor
  · intro s hs
    rcases List.mem_or_eq_of_mem_set hs with hs | rfl
    · exact h s hs
    · exact hsound
  · have hsum := sum_map_set hr r' fun r => r.budget id
    show _ + ((m.relays.set i r').map fun r => r.budget id).sum ≤
      (m.relays.map fun r => r.budget id).sum
    omega

theorem Sound.adjust (h : m.Sound) {f : Relay → Relay} (hf : ∀ r, r.Sound → (f r).Sound) (i : Nat) :
    (m.adjust i f).Sound := by
  intro s hs
  obtain ⟨j, hj⟩ := List.mem_iff_getElem?.mp hs
  rw [Mesh.adjust, List.getElem?_modify] at hj
  obtain ⟨r, hr, rfl⟩ := Option.map_eq_some_iff.mp hj
  have hsound := h r (List.mem_of_getElem? hr)
  split
  · exact hf r hsound
  · exact hsound

/-- A quiet event keeps the tables sound, and what is sent in it is paid for. -/
theorem Sound.perform (h : m.Sound) {ev : MeshEvent} (hquiet : ev.Quiet) (id : String) :
    (m.perform ev).mesh.Sound ∧
      ((m.perform ev).sentFor id).length + (m.perform ev).mesh.budget id ≤ m.budget id := by
  cases ev with
  | originate i e =>
    rcases m.perform_originate i e with ⟨_, hidle⟩ |
      ⟨r, r', sent, outcome, hr, hverdict, hperform⟩
    · rw [hidle]
      exact ⟨h, by simp [MeshStep.sentFor]⟩
    · have hsound := h r (List.mem_of_getElem? hr)
      rw [hperform]
      exact h.handled hr (hsound.verdict hverdict) (hsound.budget_verdict hverdict)
  | deliver n =>
    cases hd : m.network.queue[n]? with
    | none =>
      simp only [Mesh.perform, hd]
      exact ⟨h, by simp [MeshStep.sentFor]⟩
    | some d =>
      rcases m.perform_deliver hd with ⟨_, hidle⟩ |
        ⟨i, e, r, r', sent, outcome, _, _, hr, hverdict, hperform⟩
      · rw [hidle]
        exact ⟨h, by simp [MeshStep.sentFor, without, budget]⟩
      · have hsound := h r (List.mem_of_getElem? hr)
        rw [hperform]
        exact h.handled hr (hsound.verdict hverdict) (hsound.budget_verdict hverdict)
  | lose n => exact ⟨h, by simp [Mesh.perform, MeshStep.sentFor, budget]⟩
  | duplicate n => exact ⟨h, by simp [Mesh.perform, MeshStep.sentFor, budget]⟩
  | tick i table =>
    refine ⟨h.adjust (fun r hr => hr.tick _) i, ?_⟩
    simp only [Mesh.perform, MeshStep.sentFor, List.length_nil, Nat.zero_add]
    exact sum_map_modify_le (fun r hr => (h r hr).budget_tick_le hquiet id) i
  | forget i => exact hquiet.elim
  | rewire i routers clients => exact hquiet.elim

theorem Sound.length_sentFor_le (h : m.Sound) {evs : List MeshEvent}
    (hquiet : ∀ ev ∈ evs, ev.Quiet) :
    ((m.steps evs).flatMap (MeshStep.sentFor id)).length ≤ m.budget id := by
  induction evs generalizing m with
  | nil => simp [steps]
  | cons ev evs ih =>
    obtain ⟨hsound, hpaid⟩ := h.perform (hquiet ev List.mem_cons_self) id
    have hrest := ih hsound fun ev' hev => hquiet ev' (List.mem_cons_of_mem ev hev)
    simp only [steps, List.flatMap_cons, List.length_append]
    omega

/-- What carries an id in the end was sent for it. -/
theorem carried_perform (m : Mesh) {ev : MeshEvent} (hplain : ev.Plain) (id : String) :
    ((m.perform ev).sent.filter (Datagram.carries id)).Sublist ((m.perform ev).sentFor id) := by
  cases hhandling : (m.perform ev).handling with
  | none =>
    rw [MeshStep.sent, hhandling]
    exact List.nil_sublist _
  | some h =>
    obtain ⟨hcause, _, _, hverdict, _⟩ := handling_verdict hhandling
    have hfree : Envelope.Unreserved h.envelope.payload := by
      rcases hcause.of with ⟨rfl, _⟩ | ⟨d, _, _, _, hparse, _⟩
      · exact hplain
      · exact Envelope.unreserved_of_parse hparse
    rw [MeshStep.sent, MeshStep.sentFor, hhandling]
    exact hverdict.carried_sublist hfree

theorem carried_steps (m : Mesh) {evs : List MeshEvent} (hplain : ∀ ev ∈ evs, ev.Plain)
    (id : String) :
    (((m.steps evs).flatMap MeshStep.sent).filter (Datagram.carries id)).Sublist
      ((m.steps evs).flatMap (MeshStep.sentFor id)) := by
  induction evs generalizing m with
  | nil => exact List.nil_sublist _
  | cons ev evs ih =>
    have hfirst := m.carried_perform (hplain ev List.mem_cons_self) id
    have hrest := ih (m.perform ev).mesh fun ev' hev => hplain ev' (List.mem_cons_of_mem ev hev)
    simp only [steps, List.flatMap_cons, List.filter_append]
    exact hfirst.append hrest

theorem budget_le (m : Mesh) (id : String) :
    m.budget id ≤ (m.relays.map fun r => r.routers.size + r.clients.size).sum := by
  refine List.sum_le_sum fun r _ => ?_
  rw [Relay.budget]
  split
  · exact Nat.zero_le _
  · exact Nat.le_refl _

/-- Each relay passes a message on at most once while its memory lasts; so, while tables are left
alone, all that is sent for a message is at most as many datagrams as the relays have peers. Nothing
else that is sent reads as that message, unless reserved names are originated. -/
theorem flood_bounded (h : m.Sound) :
    (∀ (before between : List MeshEvent) (first second : MeshEvent) (place : Nat) (id : String)
      (r s : Relay), ((m.after before).perform first).Forwards place id r →
      ((((m.after before).perform first).mesh.after between).perform second).Forwards place id s →
      .forget place ∈ between ∨
        r.messages.leases.ttl ≤ between.countP (MeshEvent.ticksMessages place)) ∧
    (∀ (evs : List MeshEvent) (id : String), (∀ ev ∈ evs, ev.Quiet) →
      ((m.steps evs).flatMap (MeshStep.sentFor id)).length ≤
        (m.relays.map fun r => r.routers.size + r.clients.size).sum) ∧
    ∀ (evs : List MeshEvent) (id : String), (∀ ev ∈ evs, ev.Plain) →
      (((m.steps evs).flatMap MeshStep.sent).filter (Datagram.carries id)).Sublist
        ((m.steps evs).flatMap (MeshStep.sentFor id)) := by
  have hmessages : m.MessagesSound := fun r hr => (h r hr).messages
  refine ⟨fun before between first second place id r s hfirst hsecond => ?_,
    fun evs id hquiet => ?_, fun evs id hplain => m.carried_steps hplain id⟩
  · exact forwarded_again (hmessages.after before) hfirst hsecond
  · exact (h.length_sentFor_le hquiet).trans (m.budget_le id)

theorem sound_station (octet : UInt8) : (station octet).Sound :=
  ⟨Sightings.sound_empty 2 4, PeerTable.sound_empty "routers" 9 4,
    PeerTable.sound_empty "clients" 9 4⟩

theorem Sound.link (h : m.Sound) (i j : Nat) : (m.link i j).Sound := by
  rw [Mesh.link]
  split
  · refine (h.adjust (fun r hr => ?_) i).adjust (fun r hr => ?_) j
    · exact ⟨hr.messages, (hr.routers.register _).1, hr.clients⟩
    · exact ⟨hr.messages, (hr.routers.register _).1, hr.clients⟩
  · exact h

theorem sound_pair : pair.Sound := by
  have hstations : Sound { relays := [station 1, station 2] } := by
    intro r hr
    rcases List.mem_cons.mp hr with rfl | hr
    · exact sound_station 1
    · rcases List.mem_cons.mp hr with rfl | hr
      · exact sound_station 2
      · cases hr
  exact hstations.link 0 1

theorem flood_bounded_pair :
    let first := pair.perform (.originate 0 hello)
    let second := (first.mesh.after [.forget 0]).perform (.originate 0 hello)
    let evs := [.originate 0 hello, .duplicate 0, .deliver 1, .lose 0]
    pair.Sound ∧ (∀ ev ∈ evs, ev.Quiet) ∧ (∀ ev ∈ evs, ev.Plain) ∧
      (∃ r s, first.Forwards 0 hello.id r ∧ second.Forwards 0 hello.id s ∧
        (.forget 0 ∈ [MeshEvent.forget 0] ∨
          r.messages.leases.ttl ≤ [MeshEvent.forget 0].countP (MeshEvent.ticksMessages 0))) ∧
      ((pair.steps evs).flatMap (MeshStep.sentFor hello.id)).length ≤
        (pair.relays.map fun r => r.routers.size + r.clients.size).sum ∧
      (((pair.steps evs).flatMap MeshStep.sent).filter (Datagram.carries hello.id)).Sublist
        ((pair.steps evs).flatMap (MeshStep.sentFor hello.id)) := by
  intro first second evs
  obtain ⟨hagain, hbudget, hcarried⟩ := flood_bounded sound_pair
  have hsize : ∀ r : Relay, r.listenPort = 5000 →
      (r.stamp hello).encode.length ≤ maxMessageSize := by
    intro r hr
    rw [Relay.stamp, hr]
    decide +kernel
  have hfirst : first.Forwards 0 hello.id station₁ :=
    forwards_originate (by rw [pair_relays]; rfl) (by decide) rfl (hsize _ rfl)
  obtain ⟨r', hr', hchange⟩ :=
    perform_change (.originate 0 hello) (m := pair) (i := 0) (r := station₁) rfl
  obtain ⟨hport, hlimit, _⟩ := hchange.fixed
  have hsecond : second.Forwards 0 hello.id { r' with messages := r'.messages.clear } := by
    have hmessages : pair.MessagesSound := fun r hr => (sound_pair r hr).messages
    have hsound := hmessages.perform (.originate 0 hello) r' (List.mem_of_getElem? hr')
    refine forwards_originate ?_ ?_ (hsound.contains_clear hello.id) (hsize _ hport)
    · have hforget := List.getElem?_modify (fun r : Relay => { r with messages := r.messages.clear })
        0 first.mesh.relays 0
      rw [hr'] at hforget
      exact hforget
    · show 0 < r'.hopLimit
      rw [hlimit]
      decide
  have hevents : ∀ ev ∈ evs, ev.Quiet ∧ ev.Plain := by
    intro ev hev
    simp only [evs, List.mem_cons, List.not_mem_nil, or_false] at hev
    rcases hev with rfl | rfl | rfl | rfl
    · refine ⟨trivial, fun m hm => ?_⟩
      rw [List.mem_singleton.mp hm]
      decide
    · exact ⟨trivial, trivial⟩
    · exact ⟨trivial, trivial⟩
    · exact ⟨trivial, trivial⟩
  have hquiet : ∀ ev ∈ evs, ev.Quiet := fun ev hev => (hevents ev hev).1
  have hplain : ∀ ev ∈ evs, ev.Plain := fun ev hev => (hevents ev hev).2
  exact ⟨sound_pair, hquiet, hplain, ⟨_, _, hfirst, hsecond,
    hagain [] [.forget 0] _ _ 0 hello.id _ _ hfirst hsecond⟩, hbudget evs hello.id hquiet,
    hcarried evs hello.id hplain⟩

end Mesh

end FloodMesh
