import FloodMesh.Proofs.Lease.Threads

/-!
# FloodMesh.Proofs.Lease.Search

Walks along a bucket's chain. In a threaded store the number of slots is bound enough for them:
`Threaded.find?_cases` says that a search by key finds the one entry with an equal key, whatever the
hash function puts on its chain, and `chainBefore_eq` that the slot before a given one is found.
-/

namespace FloodMesh
namespace Timeline

variable {κ ν : Type} {t : Timeline κ ν}

/-- Following a chain ends at the first entry with an equal key, or finds none. -/
theorem seek_cases [BEq κ] (key : κ) {l : List Nat} {n : Nat} (before : Option Nat)
    {start : Option Nat} (h : t.Trail (·.chain) start l none) (hn : l.length ≤ n) :
    (t.seek key n before start = none ∧
      ∀ s ∈ l, ∀ e, t.entry? s = some e → (e.key == key) = false) ∨
    ∃ pre s post e, l = pre ++ s :: post ∧ t.entry? s = some e ∧ (e.key == key) = true ∧
      t.seek key n before start = some (s, pre.getLast?.or before) := by
  induction l generalizing n before start with
  | nil =>
    cases h
    left
    exact ⟨by cases n <;> rfl, by simp⟩
  | cons x rest ih =>
    obtain ⟨rfl, e, he, htail⟩ := h
    obtain ⟨n, rfl⟩ : ∃ m, n = m + 1 := ⟨n - 1, by simp at hn; omega⟩
    by_cases hk : (e.key == key) = true
    · right
      exact ⟨[], x, rest, e, rfl, he, hk, by simp [seek, he, hk]⟩
    · have hstep : t.seek key (n + 1) before (some x) = t.seek key n (some x) e.chain := by
        simp [seek, he, hk]
      rw [hstep]
      rcases ih (some x) htail (by simpa using hn) with
        ⟨hnone, hall⟩ | ⟨pre, s, post, es, rfl, hes, hks, hs⟩
      · left
        refine ⟨hnone, fun s hs es hes => ?_⟩
        rcases List.mem_cons.mp hs with rfl | hs
        · cases he.symm.trans hes
          simpa using hk
        · exact hall s hs es hes
      · right
        refine ⟨x :: pre, s, post, es, rfl, hes, hks, ?_⟩
        rw [hs, List.getLast?_cons]
        cases pre.getLast? <;> rfl

theorem chainBefore_eq {target : Nat} {pre post : List Nat} {n : Nat} (before : Option Nat)
    {start : Option Nat} (h : t.Trail (·.chain) start (pre ++ target :: post) none)
    (hpre : target ∉ pre)
    (hn : pre.length < n) :
    t.chainBefore target n before start = pre.getLast?.or before := by
  induction pre generalizing n before start with
  | nil =>
    obtain ⟨rfl, _⟩ := h
    obtain ⟨n, rfl⟩ : ∃ m, n = m + 1 := ⟨n - 1, by simp at hn; omega⟩
    simp [chainBefore]
  | cons x rest ih =>
    obtain ⟨rfl, e, he, htail⟩ := h
    obtain ⟨n, rfl⟩ : ∃ m, n = m + 1 := ⟨n - 1, by simp at hn; omega⟩
    have hx : x ≠ target := fun heq => hpre (by simp [heq])
    have hrest := ih (some x) htail (fun hmem => hpre (List.mem_cons_of_mem x hmem))
      (by simpa using hn)
    rw [List.getLast?_cons]
    simp only [chainBefore, hx, if_false, he, hrest]
    cases rest.getLast? <;> rfl

section Keyed

variable [BEq κ] [Hashable κ]

theorem bucketOf_congr [LawfulHashable κ] (t : Timeline κ ν) {a b : κ} (h : (a == b) = true) :
    t.bucketOf a = t.bucketOf b := by
  rw [bucketOf, bucketOf, hash_eq h]

namespace Threaded

variable {order : List Nat} {chains : Nat → List Nat}

/-- A search by key finds the entry with an equal key and the slot before it on its chain, or there
is no such entry. -/
theorem find?_cases [LawfulHashable κ] (h : t.Threaded order chains) (key : κ) :
    (t.find? key = none ∧ ∀ s e, t.entry? s = some e → (e.key == key) = false) ∨
    ∃ s e cpre cpost, t.entry? s = some e ∧ (e.key == key) = true ∧
      chains (t.bucketOf key) = cpre ++ s :: cpost ∧ t.find? key = some (s, cpre.getLast?) := by
  rcases seek_cases key none (h.chain (t.bucketOf key))
    (h.chain_length_le (t.bucketOf key)) with ⟨hnone, hall⟩ | ⟨pre, s, post, e, hl, he, hk, hs⟩
  · left
    refine ⟨hnone, fun s e he => ?_⟩
    by_contra hk
    have hk : (e.key == key) = true := by simpa using hk
    have hs : s ∈ chains (t.bucketOf key) := bucketOf_congr t hk ▸ h.mem_chain he
    exact absurd (hall s hs e he) (by simp [hk])
  · right
    exact ⟨s, e, pre, post, he, hk, hl, by simpa [find?] using hs⟩

theorem chainBefore_head (h : t.Threaded order chains) {s : Nat} {e : Entry κ ν}
    (he : t.entry? s = some e) :
    ∃ cpre cpost, chains (t.bucketOf e.key) = cpre ++ s :: cpost ∧
      t.chainBefore s t.slots.size none (t.first? (t.bucketOf e.key)) = cpre.getLast? := by
  obtain ⟨cpre, cpost, hl⟩ := List.append_of_mem (h.mem_chain he)
  have hchain := h.chain (t.bucketOf e.key)
  have hnd := h.chains_nodup (t.bucketOf e.key)
  have hlen := h.chain_length_le (t.bucketOf e.key)
  rw [hl] at hchain hnd hlen
  have hpre : s ∉ cpre := fun hs =>
    (List.nodup_append.mp hnd).2.2 s hs s List.mem_cons_self rfl
  refine ⟨cpre, cpost, hl, ?_⟩
  rw [chainBefore_eq none hchain hpre (by simp at hlen; omega), Option.or_none]

end Threaded

end Keyed

end Timeline
end FloodMesh
