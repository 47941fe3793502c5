import FloodMesh.Proofs.Json.Reread
import Mathlib.Data.List.Forall2
import Mathlib.Data.List.Induction
import Mathlib.Data.List.Perm.Basic
import Mathlib.Data.String.Basic

/-!
# FloodMesh.Proofs.Json.Fields

Members of objects as maps from names: looking up, putting in place, and reading back. `Faithful`
values are those that a reader gives back as they were.
-/

namespace FloodMesh
namespace Fields

/-- In the order of names, each name once. -/
def Sorted (fields : Fields) : Prop := fields.Pairwise fun a b => a.1 < b.1

variable {fields : Fields}

@[simp] theorem get?_nil (name : String) : get? [] name = none := rfl

theorem get?_cons (m : String × Json) (fields : Fields) (name : String) :
    get? (m :: fields) name = if name = m.1 then some m.2 else get? fields name := by
  by_cases h : name = m.1
  · simp [get?, h]
  · have hne : (m.1 == name) = false := by simpa using Ne.symm h
    simp [get?, h, hne]

theorem get?_eq_none {name : String} (h : ∀ m ∈ fields, m.1 ≠ name) : get? fields name = none := by
  induction fields with
  | nil => rfl
  | cons m fields ih =>
    rw [get?_cons, if_neg (h m List.mem_cons_self).symm]
    exact ih fun n hn => h n (List.mem_cons_of_mem m hn)

theorem mem_of_get? {name : String} {value : Json} (h : get? fields name = some value) :
    (name, value) ∈ fields := by
  induction fields with
  | nil => cases h
  | cons m fields ih =>
    rw [get?_cons] at h
    by_cases hname : name = m.1
    · rw [if_pos hname] at h
      cases h
      exact hname ▸ List.mem_cons_self
    · rw [if_neg hname] at h
      exact List.mem_cons_of_mem m (ih h)

theorem get?_append (a b : Fields) (name : String) :
    get? (a ++ b) name = (get? a name).or (get? b name) := by
  rw [get?, get?, get?, List.find?_append]
  cases a.find? fun m => m.1 == name <;> rfl

theorem get?_insert (name other : String) (value : Json) (fields : Fields) :
    get? (insert name value fields) other =
      if other = name then some value else get? fields other := by
  induction fields with
  | nil => rw [insert, get?_cons]
  | cons m fields ih =>
    rw [insert]
    by_cases hlt : name < m.1
    · rw [if_pos hlt, get?_cons]
    · rw [if_neg hlt]
      by_cases heq : name = m.1
      · rw [if_pos heq, get?_cons, get?_cons]
        by_cases hother : other = name
        · simp [hother]
        · have hne : other ≠ m.1 := fun h => hother (h.trans heq.symm)
          simp [hother, hne]
      · rw [if_neg heq, get?_cons, get?_cons, ih]
        by_cases hother : other = name
        · have hne : other ≠ m.1 := fun h => heq (hother.symm.trans h)
          simp [hother, heq]
        · simp [hother]

theorem mem_insert {name : String} {value : Json} {m : String × Json}
    (h : m ∈ insert name value fields) : m = (name, value) ∨ m ∈ fields := by
  induction fields with
  | nil => simpa [insert] using h
  | cons n fields ih =>
    rw [insert] at h
    split at h
    · simpa using h
    · split at h
      · rcases List.mem_cons.mp h with h | h
        · exact .inl h
        · exact .inr (List.mem_cons_of_mem n h)
      · rcases List.mem_cons.mp h with h | h
        · exact .inr (h ▸ List.mem_cons_self)
        · exact (ih h).imp_right (List.mem_cons_of_mem n)

theorem sorted_insert (h : Sorted fields) (name : String) (value : Json) :
    Sorted (insert name value fields) := by
  induction fields with
  | nil => exact List.pairwise_singleton _ _
  | cons m fields ih =>
    obtain ⟨hm, hfields⟩ := List.pairwise_cons.mp h
    rw [insert]
    by_cases hlt : name < m.1
    · rw [if_pos hlt]
      refine List.pairwise_cons.mpr ⟨fun n hn => ?_, h⟩
      rcases List.mem_cons.mp hn with rfl | hn
      · exact hlt
      · exact hlt.trans (hm n hn)
    · rw [if_neg hlt]
      by_cases heq : name = m.1
      · rw [if_pos heq]
        exact List.pairwise_cons.mpr ⟨fun n hn => heq ▸ hm n hn, hfields⟩
      · rw [if_neg heq]
        refine List.pairwise_cons.mpr ⟨fun n hn => ?_, ih hfields⟩
        rcases mem_insert hn with rfl | hn
        · exact lt_of_le_of_ne (not_lt.mp hlt) (Ne.symm heq)
        · exact hm n hn

theorem sorted_foldl (members : List (String × Json)) (h : Sorted fields) :
    Sorted (members.foldl (fun fields m => insert m.1 m.2 fields) fields) := by
  induction members generalizing fields with
  | nil => exact h
  | cons m members ih => exact ih (sorted_insert h m.1 m.2)

theorem sorted_ofList (members : List (String × Json)) : Sorted (ofList members) :=
  sorted_foldl members List.Pairwise.nil

/-- Of several members with one name the last one counts. -/
theorem get?_foldl (members : List (String × Json)) (fields : Fields) (name : String) :
    get? (members.foldl (fun fields m => insert m.1 m.2 fields) fields) name =
      (get? members.reverse name).or (get? fields name) := by
  induction members using List.reverseRecOn with
  | nil => rfl
  | append_singleton members m ih =>
    rw [List.foldl_append, List.foldl_cons, List.foldl_nil, get?_insert, ih, List.reverse_append,
      List.reverse_singleton, List.singleton_append, get?_cons]
    by_cases h : name = m.1 <;> simp [h]

theorem get?_ofList (members : List (String × Json)) (name : String) :
    get? (ofList members) name = get? members.reverse name := by
  rw [ofList, get?_foldl, get?_nil, Option.or_none]

theorem mem_iff_get? (h : fields.Pairwise fun a b => a.1 ≠ b.1) {name : String} {value : Json} :
    (name, value) ∈ fields ↔ get? fields name = some value := by
  induction fields with
  | nil => simp
  | cons m fields ih =>
    obtain ⟨hm, hfields⟩ := List.pairwise_cons.mp h
    rw [List.mem_cons, get?_cons, ih hfields]
    by_cases hname : name = m.1
    · have hnone : get? fields name = none :=
        get?_eq_none fun n hn => hname ▸ (hm n hn).symm
      rw [if_pos hname, hnone]
      constructor
      · rintro (rfl | h)
        · rfl
        · cases h
      · intro h
        cases h
        exact .inl (Prod.ext hname rfl)
    · rw [if_neg hname]
      exact ⟨fun h => h.resolve_left fun h => hname (congrArg Prod.fst h), .inr⟩

theorem get?_without (names : List String) (fields : Fields) (name : String) :
    get? (fields.without names) name = if name ∈ names then none else get? fields name := by
  by_cases hname : name ∈ names
  · rw [if_pos hname]
    refine get?_eq_none fun m hm heq => ?_
    have hkept := (List.mem_filter.mp hm).2
    simp [heq, hname] at hkept
  · rw [if_neg hname]
    induction fields with
    | nil => rfl
    | cons m fields ih =>
      rw [without] at ih
      by_cases hm : m.1 ∈ names
      · have hne : name ≠ m.1 := fun h => hname (h ▸ hm)
        rw [without, List.filter_cons_of_neg (by simpa using hm), get?_cons, if_neg hne, ih]
      · rw [without, List.filter_cons_of_pos (by simpa using hm), get?_cons, get?_cons, ih]

namespace Sorted

variable {a b : Fields}

theorem distinct (h : Sorted fields) : fields.Pairwise fun a b => a.1 ≠ b.1 :=
  h.imp fun hlt => hlt.ne

theorem mem_iff (h : Sorted fields) (name : String) (value : Json) :
    (name, value) ∈ fields ↔ get? fields name = some value :=
  mem_iff_get? h.distinct

theorem nodup (h : Sorted fields) : fields.Nodup :=
  h.distinct.imp fun hne heq => hne (congrArg Prod.fst heq)

/-- Members in order are determined by what is found under each name. -/
theorem ext (ha : Sorted a) (hb : Sorted b) (h : ∀ name, get? a name = get? b name) : a = b := by
  have hperm : a.Perm b := by
    refine (List.perm_ext_iff_of_nodup ha.nodup hb.nodup).mpr fun m => ?_
    rw [ha.mem_iff m.1 m.2, hb.mem_iff m.1 m.2, h]
  exact hperm.eq_of_pairwise (fun _ _ _ _ hxy hyx => absurd (hxy.trans hyx) (lt_irrefl _)) ha hb

theorem get?_reverse (h : Sorted fields) (name : String) :
    get? fields.reverse name = get? fields name := by
  have hreverse : fields.reverse.Pairwise fun a b => a.1 ≠ b.1 :=
    List.pairwise_reverse.mpr (h.distinct.imp Ne.symm)
  refine Option.ext fun value => ?_
  rw [← mem_iff_get? hreverse, ← h.mem_iff, List.mem_reverse]

theorem ofList_eq (h : Sorted fields) : ofList fields = fields :=
  (sorted_ofList fields).ext h fun name => by rw [get?_ofList, h.get?_reverse]

theorem without (h : Sorted fields) (names : List String) : Sorted (fields.without names) :=
  h.sublist List.filter_sublist

end Sorted

end Fields

/-! ## Members that are read back -/

theorem mapM_eq_some_iff {α β : Type} {f : α → Option β} {as : List α} {bs : List β} :
    as.mapM f = some bs ↔ List.Forall₂ (fun a b => f a = some b) as bs := by
  induction as generalizing bs with
  | nil => cases bs <;> simp
  | cons a as ih =>
    rw [List.mapM_cons]
    cases ha : f a with
    | none => cases bs <;> simp [ha]
    | some b =>
      cases has : as.mapM f with
      | none =>
        cases bs with
        | nil => simp
        | cons b' bs => simp [← ih, has]
      | some bs' =>
        cases bs with
        | nil => simp
        | cons b' bs => simp [← ih, has, ha]

namespace Json

/-- Member by member, the same name with what is made of the value. -/
def MembersReread (depth : Nat) (fields fields' : Fields) : Prop :=
  List.Forall₂ (fun m m' => m'.1 = m.1 ∧ reread depth m.2 = some m'.2) fields fields'

namespace MembersReread

variable {depth : Nat} {fields fields' : Fields}

theorem map_fst (h : MembersReread depth fields fields') :
    fields'.map Prod.fst = fields.map Prod.fst := by
  induction h with
  | nil => rfl
  | cons hm _ ih => rw [List.map_cons, List.map_cons, hm.1, ih]

theorem get? (h : MembersReread depth fields fields') (name : String) :
    fields'.get? name = (fields.get? name).bind (reread depth) := by
  induction h with
  | nil => rfl
  | @cons m m' _ _ hm _ ih =>
    rw [Fields.get?_cons, Fields.get?_cons, hm.1]
    by_cases hname : name = m.1
    · rw [if_pos hname, if_pos hname, Option.bind_some, hm.2]
    · rw [if_neg hname, if_neg hname, ih]

theorem sorted (h : MembersReread depth fields fields') (hsorted : Fields.Sorted fields) :
    Fields.Sorted fields' := by
  have hnames : (fields'.map Prod.fst).Pairwise (· < ·) := by
    rw [h.map_fst]
    exact List.pairwise_map.mpr hsorted
  exact List.pairwise_map.mp hnames

end MembersReread

/-- An object whose members are in order is read back member by member. -/
theorem reread_object {depth : Nat} {fields : Fields} {v : Json}
    (h : reread (depth + 1) (.object fields) = some v) (hsorted : Fields.Sorted fields) :
    ∃ fields', v = .object fields' ∧ MembersReread depth fields fields' := by
  rw [reread, Option.map_eq_some_iff] at h
  obtain ⟨fields', hread, rfl⟩ := h
  have hmembers : MembersReread depth fields fields' := by
    refine (mapM_eq_some_iff.mp hread).imp fun m m' hm => ?_
    obtain ⟨v, hv, rfl⟩ := Option.map_eq_some_iff.mp hm
    exact ⟨rfl, hv⟩
  refine ⟨fields', ?_, hmembers⟩
  rw [ofMembers, (hmembers.sorted hsorted).ofList_eq]

/-- Values that a reader gives back as they were: not too deep, every object with its members in
order, and every number one that reads back. -/
def Faithful : Nat → Json → Prop
  | _, .null => True
  | _, .bool _ => True
  | _, .number n => n.reread = some n
  | _, .text _ => True
  | 0, .array _ => False
  | 0, .object _ => False
  | depth + 1, .array vs => ∀ v ∈ vs, Faithful depth v
  | depth + 1, .object ms => Fields.Sorted ms ∧ ∀ m ∈ ms, Faithful depth m.2

theorem Faithful.reread_eq {depth : Nat} {v : Json} (h : Faithful depth v) :
    reread depth v = some v := by
  induction depth using Nat.strongRecOn generalizing v with
  | ind depth ih =>
    cases v with
    | null => cases depth <;> rfl
    | bool b => cases depth <;> rfl
    | number n =>
      have hn : n.reread = some n := by cases depth <;> exact h
      cases depth <;> rw [reread, hn, Option.map_some]
    | text s => cases depth <;> rfl
    | array vs =>
      cases depth with
      | zero => exact h.elim
      | succ depth =>
        have hitems : vs.mapM (reread depth) = some vs :=
          mapM_eq_some_iff.mpr <| List.forall₂_same.mpr fun v hv =>
            ih depth (Nat.lt_succ_self _) (h v hv)
        rw [reread, hitems, Option.map_some]
    | object ms =>
      cases depth with
      | zero => exact h.elim
      | succ depth =>
        obtain ⟨hsorted, hvalues⟩ := h
        have hmembers : ms.mapM (fun m => (reread depth m.2).map fun v => (m.1, v)) = some ms := by
          refine mapM_eq_some_iff.mpr <| List.forall₂_same.mpr fun m hm => ?_
          rw [ih depth (Nat.lt_succ_self _) (hvalues m hm), Option.map_some]
        rw [reread, hmembers, Option.map_some, ofMembers, hsorted.ofList_eq]

end Json
end FloodMesh
