import FloodMesh.Lease.Timeline

/-!
# FloodMesh.Proofs.Lease.Trail

The slots that one kind of link leads through, as list segments. The timeline forward, the timeline
backward and every bucket's chain are such trails over the same slots, so what a splice does to a
trail is said once, for any kind of link: `Trail.skip` takes a slot out, `Trail.extend` puts one
behind the last.
-/

namespace FloodMesh
namespace Timeline

variable {κ ν : Type}

/-- From `start`, a link leads through exactly the given slots, all of them occupied, and then to
`stop`. -/
def Trail (t : Timeline κ ν) (link : Entry κ ν → Option Nat) :
    Option Nat → List Nat → Option Nat → Prop
  | start, [], stop => start = stop
  | start, s :: rest, stop =>
    start = some s ∧ ∃ e, t.entry? s = some e ∧ Trail t link (link e) rest stop

namespace Trail

variable {t t' : Timeline κ ν} {link : Entry κ ν → Option Nat}

theorem start_eq {start : Option Nat} {l : List Nat} (h : Trail t link start l none) :
    start = l.head? := by
  cases l with
  | nil => exact h
  | cons s rest => exact h.1

theorem occupied {start stop : Option Nat} {l : List Nat} (h : Trail t link start l stop) :
    ∀ s ∈ l, (t.entry? s).isSome := by
  induction l generalizing start with
  | nil => intro s hs; cases hs
  | cons x rest ih =>
    obtain ⟨_, e, he, htail⟩ := h
    intro s hs
    rcases List.mem_cons.mp hs with rfl | hs
    · simp [he]
    · exact ih htail s hs

/-- A trail depends on nothing but the links of its own slots. -/
theorem congr {start stop : Option Nat} {l : List Nat} (h : Trail t link start l stop)
    (hl : ∀ s ∈ l, (t'.entry? s).map link = (t.entry? s).map link) :
    Trail t' link start l stop := by
  induction l generalizing start with
  | nil => exact h
  | cons x rest ih =>
    obtain ⟨hstart, e, he, htail⟩ := h
    have hx := hl x List.mem_cons_self
    rw [he] at hx
    obtain ⟨e', he', hlink⟩ := Option.map_eq_some_iff.mp hx
    refine ⟨hstart, e', he', ?_⟩
    rw [hlink]
    exact ih htail fun s hs => hl s (List.mem_cons_of_mem x hs)

theorem append {start stop : Option Nat} {l r : List Nat} :
    Trail t link start (l ++ r) stop ↔
      ∃ mid, Trail t link start l mid ∧ Trail t link mid r stop := by
  induction l generalizing start with
  | nil =>
    constructor
    · intro h; exact ⟨start, rfl, h⟩
    · rintro ⟨_, rfl, h⟩; exact h
  | cons s rest ih =>
    constructor
    · rintro ⟨hs, e, he, h⟩
      obtain ⟨mid, hl, hr⟩ := ih.mp h
      exact ⟨mid, ⟨hs, e, he, hl⟩, hr⟩
    · rintro ⟨mid, ⟨hs, e, he, hl⟩, hr⟩
      exact ⟨hs, e, he, ih.mpr ⟨mid, hl, hr⟩⟩

/-- Leading a trail elsewhere: its last slot, or its start if there is none, gets another link. -/
theorem relink {start stop stop' : Option Nat} {l : List Nat} (h : Trail t link start l stop)
    (hnd : l.Nodup)
    (hl : ∀ x ∈ l, (t'.entry? x).map link =
      if l.getLast? = some x then some stop' else (t.entry? x).map link) :
    Trail t' link (if l = [] then stop' else start) l stop' := by
  induction l generalizing start with
  | nil => rfl
  | cons x rest ih =>
    obtain ⟨hstart, e, he, htail⟩ := h
    obtain ⟨hx, hnd⟩ := List.nodup_cons.mp hnd
    have hrest := ih htail hnd fun y hy => by
      have hyx : y ≠ x := fun heq => hx (heq ▸ hy)
      rw [hl y (List.mem_cons_of_mem x hy)]
      cases rest with
      | nil => cases hy
      | cons z zs => rw [List.getLast?_cons_cons]
    have hlx := hl x List.mem_cons_self
    cases rest with
    | nil =>
      rw [List.getLast?_singleton, if_pos rfl] at hlx
      obtain ⟨e', he', hlink⟩ := Option.map_eq_some_iff.mp hlx
      exact ⟨hstart, e', he', hlink⟩
    | cons z zs =>
      have hlast : (x :: z :: zs).getLast? ≠ some x := by
        rw [List.getLast?_cons_cons]
        intro hlast
        exact hx (List.mem_of_getLast? hlast)
      rw [if_neg hlast, he] at hlx
      obtain ⟨e', he', hlink⟩ := Option.map_eq_some_iff.mp hlx
      exact ⟨hstart, e', he', by rw [hlink]; exact hrest⟩

/-- Taking a slot out of a trail: what led to it now leads to where it led. -/
theorem skip {start stop : Option Nat} {pre post : List Nat} {s : Nat} {e : Entry κ ν}
    (h : Trail t link start (pre ++ s :: post) stop) (hnd : pre.Nodup) (he : t.entry? s = some e)
    (hpre : ∀ x ∈ pre, (t'.entry? x).map link =
      if pre.getLast? = some x then some (link e) else (t.entry? x).map link)
    (hpost : ∀ x ∈ post, (t'.entry? x).map link = (t.entry? x).map link) :
    Trail t' link (if pre = [] then link e else start) (pre ++ post) stop := by
  obtain ⟨_, hl, _, e', he', hr⟩ := append.mp h
  cases he.symm.trans he'
  exact append.mpr ⟨link e, hl.relink hnd hpre, hr.congr hpost⟩

/-- Putting a slot behind a trail: what led to the end now leads to it. -/
theorem extend {start : Option Nat} {l : List Nat} {s : Nat} {e : Entry κ ν}
    (h : Trail t link start l none) (hnd : l.Nodup) (he : t'.entry? s = some e)
    (hend : link e = none)
    (hl : ∀ x ∈ l, (t'.entry? x).map link =
      if l.getLast? = some x then some (some s) else (t.entry? x).map link) :
    Trail t' link (if l = [] then some s else start) (l ++ [s]) none :=
  append.mpr ⟨some s, h.relink hnd hl, rfl, e, he, hend⟩

end Trail

theorem walk_eq_of_trail {t : Timeline κ ν} {n : Nat} {start : Option Nat} {l : List Nat}
    (h : Trail t (·.next) start l none) (hn : l.length ≤ n) :
    t.walk n start = l.filterMap fun s => (t.entry? s).map fun e => (s, e) := by
  induction l generalizing start n with
  | nil =>
    cases h
    cases n <;> rfl
  | cons s rest ih =>
    obtain ⟨rfl, e, he, htail⟩ := h
    obtain ⟨n, rfl⟩ : ∃ m, n = m + 1 := ⟨n - 1, by simp at hn; omega⟩
    have hrest := ih htail (by simpa using hn)
    simp [walk, he, hrest]

end Timeline
end FloodMesh
