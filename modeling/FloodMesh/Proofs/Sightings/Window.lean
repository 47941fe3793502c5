import FloodMesh.Proofs.Sightings
import Mathlib.Data.List.Count
import Mathlib.Data.List.Induction

/-!
# FloodMesh.Proofs.Sightings.Window

When an id counts as seen. `Fresh` reads it off the answers that a memory has given: the id was new,
and since then there were fewer ticks than it lives and no clearing. `known_iff_fresh` says that the
memory answers exactly so, over any history.
-/

namespace FloodMesh
namespace Sightings

/-- What is done to a memory of ids. -/
inductive Op
  | see (id : String)
  | tick
  | clear

/-- What was done to it, and what a sight was answered. -/
inductive Note
  | seen (id : String) (known : Bool)
  | ticked
  | cleared
  deriving DecidableEq

/-- Every operation but the sight of another id. -/
def Op.concerns (id : String) : Op → Bool
  | see other => other == id
  | _ => true

def perform (s : Sightings) : Op → Sightings × Note
  | .see id => ((s.see id).1, .seen id (s.see id).2)
  | .tick => (s.tick.1, .ticked)
  | .clear => (s.clear, .cleared)

/-- Carry out operations one after another, and take notes. -/
def performAll (s : Sightings) : List Op → Sightings × List Note
  | [] => (s, [])
  | op :: ops =>
    let (s, note) := s.perform op
    let (s, notes) := performAll s ops
    (s, note :: notes)

theorem performAll_snoc (s : Sightings) (ops : List Op) (op : Op) :
    s.performAll (ops ++ [op]) =
      (((s.performAll ops).1.perform op).1,
        (s.performAll ops).2 ++ [((s.performAll ops).1.perform op).2]) := by
  induction ops generalizing s with
  | nil => rfl
  | cons first ops ih => simp only [List.cons_append, performAll, ih]

/-! ## What the notes say of an id -/

/-- An id was new, and after that came fewer than `n` ticks and no clearing. -/
def Fresh (n : Nat) (notes : List Note) (id : String) : Prop :=
  ∃ before after, notes = before ++ .seen id false :: after ∧
    .cleared ∉ after ∧ after.count .ticked < n

section Fresh

variable {n : Nat} {notes : List Note} {id : String}

/-- One more note is the new sight itself, or it comes after the new sight. -/
theorem fresh_snoc (note : Note) :
    Fresh n (notes ++ [note]) id ↔
      (note = .seen id false ∧ 0 < n) ∨
        ∃ before after, notes = before ++ .seen id false :: after ∧
          .cleared ∉ after ++ [note] ∧ (after ++ [note]).count .ticked < n := by
  constructor
  · rintro ⟨before, after, heq, hclear, hticks⟩
    rcases List.eq_nil_or_concat after with rfl | ⟨init, last, rfl⟩
    · obtain ⟨_, hnote⟩ := List.append_inj' heq rfl
      exact .inl ⟨List.singleton_inj.mp hnote, by simpa using hticks⟩
    · rw [List.concat_eq_append] at heq hclear hticks
      rw [← List.cons_append, ← List.append_assoc] at heq
      obtain ⟨hnotes, hlast⟩ := List.append_inj' heq rfl
      rw [List.singleton_inj.mp hlast]
      exact .inr ⟨before, init, hnotes, hclear, hticks⟩
  · rintro (⟨rfl, hpos⟩ | ⟨before, after, rfl, hclear, hticks⟩)
    · exact ⟨notes, [], rfl, List.not_mem_nil, by simpa using hpos⟩
    · exact ⟨before, after ++ [note], by simp, hclear, hticks⟩

theorem fresh_seen (other : String) (known : Bool) :
    Fresh n (notes ++ [.seen other known]) id ↔
      (other = id ∧ known = false ∧ 0 < n) ∨ Fresh n notes id := by
  rw [fresh_snoc]
  simp [Fresh, and_assoc]

theorem fresh_ticked : Fresh n (notes ++ [.ticked]) id ↔ Fresh (n - 1) notes id := by
  rw [fresh_snoc]
  simp [Fresh, Nat.lt_sub_iff_add_lt]

theorem not_fresh_cleared : ¬ Fresh n (notes ++ [.cleared]) id := by
  rw [fresh_snoc]
  simp

/-- It is enough to look at the last time that the id was new. -/
theorem fresh_iff_last :
    Fresh n notes id ↔ ∃ before after, notes = before ++ .seen id false :: after ∧
      .seen id false ∉ after ∧ .cleared ∉ after ∧ after.count .ticked < n := by
  constructor
  · rintro ⟨before, after, rfl, hclear, hticks⟩
    by_cases hagain : .seen id false ∈ after
    · obtain ⟨late, early, hsplit, hlast⟩ :=
        List.eq_append_cons_of_mem (List.mem_reverse.mpr hagain)
      have hafter : after = early.reverse ++ .seen id false :: late.reverse := by
        rw [← List.reverse_reverse after, hsplit]
        simp
      subst hafter
      refine ⟨before ++ .seen id false :: early.reverse, late.reverse, by simp, ?_, ?_, ?_⟩
      · rwa [List.mem_reverse]
      · exact fun h => hclear (List.mem_append_right _ (List.mem_cons_of_mem _ h))
      · simp only [List.count_append, List.count_cons] at hticks
        omega
    · exact ⟨before, after, rfl, hagain, hclear, hticks⟩
  · rintro ⟨before, after, heq, _, hclear, hticks⟩
    exact ⟨before, after, heq, hclear, hticks⟩

end Fresh

/-! ## Notes and leases -/

/-- The notes account for the leases: an id has more than `k` ticks left if it was new fewer than
its whole time less `k` ago. -/
structure Accounts (ttl : Nat) (notes : List Note) (l : Ledger String Unit) : Prop where
  ttl_eq : l.ttl = ttl
  ttl_pos : 0 < ttl
  ahead : ∀ x ∈ l.leases, l.clock < x.due
  fresh : ∀ id k, (∃ x ∈ l.leases, x.key = id ∧ l.clock + k < x.due) ↔ Fresh (ttl - k) notes id

/-- A memory whose leases the notes account for. -/
def Recorded (ttl : Nat) (notes : List Note) (s : Sightings) : Prop :=
  ∃ l, Tracks s.leases l ∧ Accounts ttl notes l

variable {ttl : Nat} {notes : List Note} {s : Sightings}

theorem Accounts.mem_keys {l : Ledger String Unit} (h : Accounts ttl notes l) (id : String) :
    id ∈ l.leases.map (·.key) ↔ Fresh ttl notes id := by
  rw [List.mem_map, ← Nat.sub_zero ttl, ← h.fresh id 0]
  constructor
  · rintro ⟨x, hx, hkey⟩
    exact ⟨x, hx, hkey, h.ahead x hx⟩
  · rintro ⟨x, hx, hkey, _⟩
    exact ⟨x, hx, hkey⟩

namespace Recorded

theorem nothing (ttl buckets : Nat) : Recorded (max ttl 1) [] (empty ttl buckets) := by
  refine ⟨_, tracks_empty ttl buckets, rfl, by omega, fun x hx => (nomatch hx), fun id k => ?_⟩
  constructor
  · rintro ⟨x, hx, _⟩
    cases hx
  · rintro ⟨before, after, heq, _⟩
    exact absurd heq (by simp)

theorem known_iff (h : Recorded ttl notes s) (id : String) :
    (s.see id).2 = true ↔ Fresh ttl notes id := by
  obtain ⟨l, hl, haccounts⟩ := h
  rw [see_answer, hl.agrees.contains, Ledger.find?, List.find?_isSome, ← haccounts.mem_keys id]
  simp

theorem see (h : Recorded ttl notes s) (id : String) :
    Recorded ttl (notes ++ [.seen id (s.see id).2]) (s.see id).1 := by
  have hknown := h.known_iff id
  obtain ⟨l, hl, haccounts⟩ := h
  cases hseen : s.leases.contains id with
  | true =>
    rw [see_of_contains hseen]
    refine ⟨l, hl, { haccounts with fresh := fun other k => ?_ }⟩
    rw [haccounts.fresh, fresh_seen]
    simp
  | false =>
    have hanswer : (s.see id).2 = false := by rw [see_answer, hseen]
    refine ⟨_, (Sound.see_tracks hl hseen).2, ?_⟩
    rw [hanswer]
    refine { haccounts with ahead := fun x hx => ?_, fresh := fun other k => ?_ }
    · rcases List.mem_append.mp hx with hx | hx
      · exact haccounts.ahead x hx
      · cases List.mem_singleton.mp hx
        have hpos := haccounts.ttl_pos
        rw [← haccounts.ttl_eq] at hpos
        exact Nat.lt_add_of_pos_right hpos
    · -- The new lease has its whole time before it.
      rw [fresh_seen, ← haccounts.fresh, ← haccounts.ttl_eq]
      simp only [Ledger.push, List.mem_append, List.mem_singleton, or_and_right, exists_or,
        exists_eq_left, Nat.add_lt_add_iff_left, Nat.sub_pos_iff_lt, true_and]
      exact Or.comm

theorem tick (h : Recorded ttl notes s) : Recorded ttl (notes ++ [.ticked]) s.tick.1 := by
  obtain ⟨l, hl, haccounts⟩ := h
  refine ⟨_, (hl.perform .tick).2.2, haccounts.ttl_eq, haccounts.ttl_pos, fun x hx => ?_,
    fun id k => ?_⟩
  · exact of_decide_eq_true (List.mem_filter.mp hx).2
  · rw [fresh_ticked, Nat.sub_sub, ← haccounts.fresh]
    constructor
    · rintro ⟨x, hx, hkey, hdue⟩
      have hdue : l.clock + 1 + k < x.due := hdue
      exact ⟨x, List.mem_of_mem_filter hx, hkey, by omega⟩
    · rintro ⟨x, hx, hkey, hdue⟩
      have hlater : l.clock + 1 < x.due := by omega
      refine ⟨x, List.mem_filter.mpr ⟨hx, decide_eq_true hlater⟩, hkey, ?_⟩
      show l.clock + 1 + k < x.due
      omega

theorem clear (h : Recorded ttl notes s) : Recorded ttl (notes ++ [.cleared]) s.clear := by
  obtain ⟨l, hl, haccounts⟩ := h
  refine ⟨_, (hl.perform .clear).2.2, haccounts.ttl_eq, haccounts.ttl_pos,
    fun x hx => (nomatch hx), fun id k => ?_⟩
  constructor
  · rintro ⟨x, hx, _⟩
    cases hx
  · exact fun hfresh => absurd hfresh not_fresh_cleared

theorem perform (h : Recorded ttl notes s) (op : Op) :
    Recorded ttl (notes ++ [(s.perform op).2]) (s.perform op).1 := by
  cases op with
  | see id => exact h.see id
  | tick => exact h.tick
  | clear => exact h.clear

theorem performAll (ttl buckets : Nat) (ops : List Op) :
    Recorded (max ttl 1) ((empty ttl buckets).performAll ops).2
      ((empty ttl buckets).performAll ops).1 := by
  induction ops using List.reverseRecOn with
  | nil => exact nothing ttl buckets
  | append_singleton ops op ih =>
    rw [performAll_snoc]
    exact ih.perform op

end Recorded

/-- Sights of other ids have no part in how fresh an id is. -/
theorem fresh_concerns (ttl buckets : Nat) (ops : List Op) (id : String) (n : Nat) :
    Fresh n ((empty ttl buckets).performAll ops).2 id ↔
      Fresh n ((empty ttl buckets).performAll (ops.filter (·.concerns id))).2 id := by
  induction ops using List.reverseRecOn generalizing n with
  | nil => rfl
  | append_singleton ops op ih =>
    rw [performAll_snoc, List.filter_append]
    cases op with
    | tick =>
      have hkept : [Op.tick].filter (·.concerns id) = [.tick] := rfl
      rw [hkept, performAll_snoc]
      exact fresh_ticked.trans ((ih (n - 1)).trans fresh_ticked.symm)
    | clear =>
      have hkept : [Op.clear].filter (·.concerns id) = [.clear] := rfl
      rw [hkept, performAll_snoc]
      exact iff_of_false not_fresh_cleared not_fresh_cleared
    | see other =>
      by_cases hid : other = id
      · subst hid
        have hkept : [Op.see other].filter (·.concerns other) = [.see other] := by
          simp [Op.concerns]
        -- The answers agree, for they depend on how fresh the id was before.
        have hanswer := ((Recorded.performAll ttl buckets ops).known_iff other).trans
          ((ih _).trans ((Recorded.performAll ttl buckets _).known_iff other).symm)
        rw [hkept, performAll_snoc]
        simp only [Sightings.perform, Bool.eq_iff_iff.mpr hanswer, fresh_seen, ih n]
      · have hdropped : [Op.see other].filter (·.concerns id) = [] := by
          simp [Op.concerns, hid]
        rw [hdropped, List.append_nil, ← ih n]
        exact (fresh_seen other _).trans (by simp [hid])

/-- An id counts as seen exactly if it was new fewer ticks ago than it lives, and nothing was
cleared since. So a sight of a known id changes nothing, and the sights of other ids have no part in
the answer. In memory are the ids that were last new so lately, each once. -/
theorem known_iff_fresh (ttl buckets : Nat) (ops : List Op) :
    let s := ((empty ttl buckets).performAll ops).1
    let notes := ((empty ttl buckets).performAll ops).2
    (∀ id, (s.see id).2 = true ↔ Fresh (max ttl 1) notes id) ∧
    (∀ id, (s.see id).2 = true → (s.see id).1 = s) ∧
    (∀ id, (s.see id).2 =
      (((empty ttl buckets).performAll (ops.filter (·.concerns id))).1.see id).2) ∧
    s.size = s.ids.length ∧ s.ids.Nodup ∧
    ∀ id, id ∈ s.ids ↔ ∃ before after, notes = before ++ .seen id false :: after ∧
      .seen id false ∉ after ∧ .cleared ∉ after ∧ after.count .ticked < max ttl 1 := by
  intro s notes
  have hrecorded : Recorded (max ttl 1) notes s := .performAll ttl buckets ops
  refine ⟨hrecorded.known_iff, fun id hknown => ?_, fun id => ?_, ?_⟩
  · rw [see_answer] at hknown
    rw [see_of_contains hknown]
  · rw [Bool.eq_iff_iff, hrecorded.known_iff, fresh_concerns]
    exact ((Recorded.performAll ttl buckets _).known_iff id).symm
  · obtain ⟨l, hl, haccounts⟩ := hrecorded
    have hids : s.ids = l.leases.map (·.key) := by
      rw [ids, hl.agrees.toList, Ledger.pairs, List.map_map]
      rfl
    refine ⟨?_, ?_, fun id => ?_⟩
    · rw [hids, List.length_map]
      exact hl.agrees.size
    · rw [hids]
      refine List.pairwise_map.mpr (hl.distinct.imp fun {x y} hxy heq => ?_)
      rw [heq, beq_self_eq_true] at hxy
      cases hxy
    · rw [hids, haccounts.mem_keys, fresh_iff_last]

end Sightings
end FloodMesh
