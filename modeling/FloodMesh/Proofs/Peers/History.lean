import FloodMesh.Proofs.Service.Registration

/-!
# FloodMesh.Proofs.Peers.History

Every table of peers follows a history of signals. One that is cleared begins a new history, and one
whose registrations are swapped begins it with the new ones, in their order.
-/

namespace FloodMesh
namespace PeerTable

variable {t : PeerTable} {ttl : Nat} {signals : List Signal}

/-- Swapping the registrations is clearing the table and registering one after another. -/
theorem replace_eq (t : PeerTable) (es : List Endpoint) :
    t.replace es = (es.map .connect).foldl heed t.clear := by
  have hinsert : ∀ u : PeerTable,
      { u with leases := { u.leases with
          timeline := (LeaseTable.insertAll u.leases.timeline
            (es.map fun e => (e, .ofEndpoint e))).1 } } =
        (es.map Signal.connect).foldl heed u := by
    induction es with
    | nil => exact fun u => rfl
    | cons e es ih => exact fun u => ih (u.heed (.connect e))
  exact hinsert t.clear

namespace Sound

theorem ttl_pos (h : Sound t) : 0 < t.ttl := by
  obtain ⟨l, hl⟩ := h
  obtain ⟨contents, hholds, _⟩ := hl.holds
  exact hholds.ttl_pos

theorem follows_clear (h : Sound t) : t.clear.Follows t.ttl [] := by
  obtain ⟨l, hl⟩ := h
  exact ⟨{ l with leases := [] }, hl.clear.2, hl.ttl.symm, rfl⟩

theorem follows_replace (h : Sound t) (es : List Endpoint) :
    (t.replace es).Follows t.ttl (es.map .connect) := by
  rw [replace_eq]
  exact h.follows_clear.hear h.ttl_pos (es.map .connect)

end Sound

theorem Arises.follows (h : Arises t) : ∃ ttl signals, 0 < ttl ∧ t.Follows ttl signals := by
  induction h with
  | empty name ttl buckets => exact ⟨max ttl 1, [], by omega, follows_empty name ttl buckets⟩
  | @register t h e ih =>
    obtain ⟨ttl, signals, httl, hfollows⟩ := ih
    exact ⟨ttl, _, httl, hfollows.heed httl (.connect e)⟩
  | @unregister t t' e p h hok ih =>
    obtain ⟨ttl, signals, httl, hfollows⟩ := ih
    have hheed := hfollows.heed httl (.disconnect e)
    rw [heed, hok] at hheed
    exact ⟨ttl, _, httl, hheed⟩
  | replace h es => exact ⟨_, _, h.keyed.sound.ttl_pos, h.keyed.sound.follows_replace es⟩
  | clear h => exact ⟨_, _, h.keyed.sound.ttl_pos, h.keyed.sound.follows_clear⟩
  | tick h ih =>
    obtain ⟨ttl, signals, httl, hfollows⟩ := ih
    exact ⟨ttl, _, httl, hfollows.heed httl .tick⟩

namespace Follows

theorem ticks (h : t.Follows ttl signals) (httl : 0 < ttl) (n : Nat) :
    (t.ticks n).1.Follows ttl (signals ++ List.replicate n .tick) := by
  have hfold : ∀ (n : Nat) (t : PeerTable),
      (t.ticks n).1 = (List.replicate n Signal.tick).foldl PeerTable.heed t := by
    intro n
    induction n with
    | zero => exact fun t => rfl
    | succ n ih => exact fun t => ih t.tick.1
  rw [hfold]
  exact h.hear httl (List.replicate n .tick)

/-- The order in which endpoints are listed is that of their last connections. -/
theorem ordered (h : t.Follows ttl signals) :
    t.endpoints.Pairwise (ConnectedBefore signals) := by
  rw [h.endpoints, List.pairwise_map]
  exact roster_ordered

end Follows

/-- Swapped registrations are listed in the order of their last mention, each once, and stay for the
whole time that an entry lives. -/
theorem Sound.endpoints_replaced (h : Sound t) (es : List Endpoint) (n : Nat) :
    ((t.replace es).ticks n).1.endpoints = if n < t.ttl then es.dedup else [] := by
  have hfollows := (h.follows_replace es).ticks h.ttl_pos n
  rw [hfollows.endpoints, roster_connects]
  split
  · rw [List.map_map]
    exact List.map_id _
  · rfl

end PeerTable
end FloodMesh
