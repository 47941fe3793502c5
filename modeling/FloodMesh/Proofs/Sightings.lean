import FloodMesh.Proofs.Lease.Refinement
import FloodMesh.Sightings

/-!
# FloodMesh.Proofs.Sightings

The memory of ids. `Remembers s id n` says that an id stays in memory until the n-th tick from now;
a first sight starts with the memory's whole time to live, and nothing but a tick takes any of it.
-/

namespace FloodMesh
namespace Sightings

/-- A memory for which a ledger accounts. Empty ones are sound, and every operation keeps them so. -/
def Sound (s : Sightings) : Prop := ∃ l : Ledger String Unit, Tracks s.leases l

/-- The id is in memory, and stays until the `n`-th tick from now at least. -/
def Remembers (s : Sightings) (id : String) (n : Nat) : Prop :=
  ∃ l : Ledger String Unit, Tracks s.leases l ∧ ∃ x ∈ l.leases, x.key = id ∧ l.clock + n ≤ x.due

theorem sound_empty (ttl buckets : Nat) : Sound (empty ttl buckets) :=
  ⟨_, tracks_empty ttl buckets⟩

theorem contains_empty (ttl buckets : Nat) (id : String) :
    (empty ttl buckets).leases.contains id = false :=
  (tracks_empty ttl buckets).agrees.contains id

variable {s : Sightings}

theorem see_answer (s : Sightings) (id : String) : (s.see id).2 = s.leases.contains id := by
  rw [see]
  by_cases h : s.leases.contains id = true
  · rw [if_pos h, h]
  · rw [if_neg h, LeaseTable.insertIfAbsent, if_neg h]
    exact (Bool.not_eq_true _ ▸ h).symm

theorem see_of_contains {id : String} (h : s.leases.contains id = true) : s.see id = (s, true) := by
  rw [see, if_pos h]

namespace Sound

theorem see_tracks {l : Ledger String Unit} (h : Tracks s.leases l) {id : String}
    (hnew : s.leases.contains id = false) :
    l.find? id = none ∧ Tracks (s.see id).1.leases (l.push id ()) := by
  have hfind : l.find? id = none := by
    have hcontains := h.agrees.contains id
    rw [hnew] at hcontains
    simpa using hcontains.symm
  have hstep := (h.perform (.insertIfAbsent id ())).2.2
  rw [Ledger.perform, hfind] at hstep
  refine ⟨hfind, ?_⟩
  rw [see, hnew]
  exact hstep

theorem see (h : Sound s) (id : String) : Sound (s.see id).1 := by
  obtain ⟨l, hl⟩ := h
  cases hseen : s.leases.contains id with
  | true =>
    rw [see_of_contains hseen]
    exact ⟨l, hl⟩
  | false => exact ⟨_, (see_tracks hl hseen).2⟩

theorem tick (h : Sound s) : Sound s.tick.1 := by
  obtain ⟨l, hl⟩ := h
  exact ⟨_, (hl.perform .tick).2.2⟩

theorem contains_of_tick (h : Sound s) {id : String}
    (hcontains : s.tick.1.leases.contains id = true) : s.leases.contains id = true := by
  obtain ⟨l, hl⟩ := h
  have htick : Tracks s.tick.1.leases (l.perform .tick).ledger := (hl.perform .tick).2.2
  rw [htick.agrees.contains, Ledger.find?, List.find?_isSome] at hcontains
  rw [hl.agrees.contains, Ledger.find?, List.find?_isSome]
  obtain ⟨x, hx, hkey⟩ := hcontains
  exact ⟨x, List.mem_of_mem_filter hx, hkey⟩

theorem clear (h : Sound s) : Sound s.clear := by
  obtain ⟨l, hl⟩ := h
  exact ⟨_, (hl.perform .clear).2.2⟩

theorem contains_clear (h : Sound s) (id : String) : s.clear.leases.contains id = false := by
  obtain ⟨l, hl⟩ := h
  have hclear : Tracks s.clear.leases { l with leases := [] } := (hl.perform .clear).2.2
  exact hclear.agrees.contains id

/-- Seeing an id puts it into memory and leaves the others as they were. -/
theorem contains_see (h : Sound s) (id other : String) :
    (s.see id).1.leases.contains other = (id == other || s.leases.contains other) := by
  obtain ⟨l, hl⟩ := h
  cases hseen : s.leases.contains id with
  | true =>
    rw [see_of_contains hseen]
    by_cases heq : id = other
    · rw [← heq, hseen, Bool.or_true]
    · simp [heq]
  | false =>
    have hpush := (see_tracks hl hseen).2
    rw [hpush.agrees.contains other, hl.agrees.contains other, Ledger.find?, Ledger.push,
      List.find?_append, Option.isSome_or]
    cases heq : id == other <;> simp [heq, Ledger.find?]

end Sound

namespace Remembers

variable {id : String} {n : Nat}

theorem contains (h : s.Remembers id n) : s.leases.contains id = true := by
  obtain ⟨l, hl, x, hx, rfl, _⟩ := h
  rw [hl.agrees.contains, Ledger.find?, List.find?_isSome]
  exact ⟨x, hx, BEq.rfl⟩

theorem mono (h : s.Remembers id n) {k : Nat} (hk : k ≤ n) : s.Remembers id k := by
  obtain ⟨l, hl, x, hx, hkey, hdue⟩ := h
  exact ⟨l, hl, x, hx, hkey, by omega⟩

/-- The first sight of an id puts it away for the whole time to live. -/
theorem of_see (h : Sound s) (hnew : s.leases.contains id = false) :
    (s.see id).1.Remembers id s.leases.ttl := by
  obtain ⟨l, hl⟩ := h
  refine ⟨l.push id (), (Sound.see_tracks hl hnew).2, ⟨id, (), l.clock + l.ttl⟩, ?_, rfl, ?_⟩
  · simp [Ledger.push]
  · have httl : s.leases.ttl = l.ttl := hl.ttl
    rw [httl]
    exact Nat.le_refl _

theorem see (h : s.Remembers id n) (other : String) : (s.see other).1.Remembers id n := by
  obtain ⟨l, hl, x, hx, hkey, hdue⟩ := h
  cases hseen : s.leases.contains other with
  | true =>
    rw [see_of_contains hseen]
    exact ⟨l, hl, x, hx, hkey, hdue⟩
  | false =>
    exact ⟨_, (Sound.see_tracks hl hseen).2, x, List.mem_append_left _ hx, hkey, hdue⟩

theorem tick (h : s.Remembers id (n + 2)) : s.tick.1.Remembers id (n + 1) := by
  obtain ⟨l, hl, x, hx, hkey, hdue⟩ := h
  have hlater : l.clock + 1 < x.due := by omega
  refine ⟨_, (hl.perform .tick).2.2, x, ?_, hkey, ?_⟩
  · exact List.mem_filter.mpr ⟨hx, decide_eq_true hlater⟩
  · show l.clock + 1 + (n + 1) ≤ x.due
    omega

end Remembers

end Sightings
end FloodMesh
