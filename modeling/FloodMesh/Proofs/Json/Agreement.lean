import FloodMesh.Json.Record
import FloodMesh.Proofs.Json.Fields

/-!
# FloodMesh.Proofs.Json.Agreement

Two readers of one text. A value and a record are read by different readers: one keeps everything,
the other knows some members and skips the rest. Where both get through they stop at the same place,
and the record says what the value says.

`Agree` relates readers; the lemmas follow the shape of the text, from strings to records.
-/

namespace FloodMesh
namespace Json

section Agree

variable {α β κ μ : Type}

/-- Where both readers get through, they leave the same rest, and what they read is related. -/
def Agree (related : α → β → Prop) (p : Reader α) (q : Reader β) : Prop :=
  ∀ ⦃bytes rest rest' : Bytes⦄ ⦃a : α⦄ ⦃b : β⦄, p bytes = some (a, rest) →
    q bytes = some (b, rest') → rest = rest' ∧ related a b

variable {related : α → β → Prop} {p : Reader α} {q : Reader β}

theorem Agree.refl (p : Reader α) : Agree Eq p p := by
  intro bytes rest rest' a b hp hq
  cases hp.symm.trans hq
  exact ⟨rfl, rfl⟩

/-- What comes after an item: the end of the list, or a comma and more items. -/
def readTail (close : UInt8) (item : Reader α) (n : Nat) : Reader (List α) := fun bytes =>
  match skipBlank bytes with
  | [] => none
  | b :: rest =>
    if b = 0x2c then readItems close item n rest
    else if b = close then some ([], rest)
    else none

theorem readItems_succ {close : UInt8} {item : Reader α} {n : Nat} {bytes rest : Bytes}
    {vs : List α} (h : readItems close item (n + 1) bytes = some (vs, rest)) :
    ∃ v left vs', item (skipBlank bytes) = some (v, left) ∧
      readTail close item n left = some (vs', rest) ∧ vs = v :: vs' := by
  rw [readItems] at h
  split at h
  · cases h
  rename_i v left hitem
  refine ⟨v, left, ?_⟩
  rw [readTail]
  cases hleft : skipBlank left with
  | nil =>
    rw [hleft] at h
    cases h
  | cons b more =>
    rw [hleft] at h
    by_cases hcomma : b = 0x2c
    · simp only [hcomma, if_true] at h ⊢
      split at h
      · cases h
      · rename_i vs' rest' hmore
        cases h
        exact ⟨vs', hitem, hmore, rfl⟩
    · simp only [hcomma, if_false] at h ⊢
      split at h
      · rename_i hclose
        cases h
        exact ⟨[], hitem, if_pos hclose, rfl⟩
      · cases h

theorem Agree.readItems (h : Agree related p q) (close : UInt8) (n n' : Nat) :
    Agree (List.Forall₂ related) (readItems close p n) (readItems close q n') := by
  induction n generalizing n' with
  | zero => exact fun _ _ _ _ _ hp => nomatch hp
  | succ n ih =>
    cases n' with
    | zero => exact fun _ _ _ _ _ _ hq => nomatch hq
    | succ n' =>
      intro bytes rest rest' vs ws hp hq
      obtain ⟨v, left, vs', hv, hvs, rfl⟩ := readItems_succ hp
      obtain ⟨w, left', ws', hw, hws, rfl⟩ := readItems_succ hq
      obtain ⟨rfl, hrelated⟩ := h hv hw
      rw [readTail] at hvs hws
      cases hleft : skipBlank left with
      | nil =>
        rw [hleft] at hvs
        cases hvs
      | cons b more =>
        rw [hleft] at hvs hws
        by_cases hcomma : b = 0x2c
        · simp only [hcomma, if_true] at hvs hws
          obtain ⟨hrest, hall⟩ := ih n' hvs hws
          exact ⟨hrest, .cons hrelated hall⟩
        · simp only [hcomma, if_false] at hvs hws
          by_cases hclose : b = close
          · simp only [hclose, if_true, Option.some.injEq, Prod.mk.injEq] at hvs hws
            obtain ⟨rfl, rfl⟩ := hvs
            obtain ⟨rfl, rfl⟩ := hws
            exact ⟨rfl, .cons hrelated .nil⟩
          · simp only [hclose, if_false] at hvs
            cases hvs

theorem Agree.readList (h : Agree related p q) (close : UInt8) :
    Agree (List.Forall₂ related) (readList close p) (readList close q) := by
  intro bytes rest rest' vs ws hp hq
  rw [Json.readList] at hp hq
  cases hbytes : skipBlank bytes with
  | nil =>
    simp only [hbytes] at hp
    cases hp
  | cons b more =>
    simp only [hbytes] at hp hq
    by_cases hclose : b = close
    · simp only [hclose, if_true, Option.some.injEq, Prod.mk.injEq] at hp hq
      obtain ⟨rfl, rfl⟩ := hp
      obtain ⟨rfl, rfl⟩ := hq
      exact ⟨rfl, .nil⟩
    · simp only [hclose, if_false] at hp hq
      exact h.readItems close _ _ hp hq

/-- Whole texts. -/
theorem Agree.whole? (h : Agree related p q) {bytes : Bytes} {a : α} {b : β}
    (hp : whole? p bytes = some a) (hq : whole? q bytes = some b) : related a b := by
  rw [Json.whole?] at hp hq
  split at hp
  · cases hp
  rename_i v rest hread
  split at hq
  · cases hq
  rename_i w rest' hread'
  have hrelated := (h hread hread').2
  split at hp
  · cases hp
    split at hq
    · cases hq
      exact hrelated
    · cases hq
  · cases hp

theorem readMember_eq_some {name : Reader κ} {value : κ → Reader α} {bytes rest : Bytes} {k : κ}
    {v : α} (h : readMember name value bytes = some ((k, v), rest)) :
    ∃ left more, name bytes = some (k, left) ∧ skipBlank left = 0x3a :: more ∧
      value k (skipBlank more) = some (v, rest) := by
  rw [readMember] at h
  split at h
  · cases h
  rename_i k' left hname
  split at h
  · rename_i more hleft
    split at h
    · cases h
    · rename_i hvalue
      cases h
      exact ⟨left, more, hname, hleft, hvalue⟩
  · cases h

theorem Agree.readMember {name : Reader κ} {name' : Reader μ} {same : κ → μ → Prop}
    {value : κ → Reader α} {value' : μ → Reader β} {related : κ → α → β → Prop}
    (hname : Agree same name name')
    (hvalue : ∀ k k', same k k' → Agree (related k) (value k) (value' k')) :
    Agree (fun m m' => same m.1 m'.1 ∧ related m.1 m.2 m'.2) (readMember name value)
      (readMember name' value') := by
  intro bytes rest rest' m m' hp hq
  obtain ⟨left, more, hk, hleft, hv⟩ := readMember_eq_some hp
  obtain ⟨left', more', hk', hleft', hv'⟩ := readMember_eq_some hq
  obtain ⟨rfl, hsame⟩ := hname hk hk'
  rw [hleft] at hleft'
  cases hleft'
  obtain ⟨hrest, hrelated⟩ := hvalue _ _ hsame hv hv'
  exact ⟨hrest, hsame, hrelated⟩

end Agree

/-! ## Skipping -/

theorem before_eq_some {front content rest : Bytes} {r : Option (Bytes × Bytes)}
    (h : before front r = some (content, rest)) : ∃ content', r = some (content', rest) := by
  obtain ⟨⟨content', rest'⟩, hr, heq⟩ := Option.map_eq_some_iff.mp h
  cases heq
  exact ⟨content', hr⟩

/-- What can be read between quotes can be skipped. -/
theorem skipContent_of_read {bytes content rest : Bytes}
    (h : readContent bytes = some (content, rest)) : skipContent bytes = some ((), rest) := by
  fun_induction readContent bytes generalizing content with
  | case1 => cases h
  | case2 =>
    cases h
    rfl
  | case3 => cases h
  | case4 => cases h
  | case5 => cases h
  | case6 a b c d n hunit _ _ a' b' c' d' more m hunit' _ ih =>
    obtain ⟨content', hmore⟩ := before_eq_some h
    simp [skipContent, hunit, hunit', ih hmore]
  | case7 => cases h
  | case8 => cases h
  | case9 a b c d more n hunit _ _ ih =>
    obtain ⟨content', hmore⟩ := before_eq_some h
    simp [skipContent, hunit, ih hmore]
  | case10 => cases h
  | case11 e more hnot b hescape ih =>
    obtain ⟨content', hmore⟩ := before_eq_some h
    rw [skipContent, hescape]
    · exact ih hmore
    · exact hnot
  | case12 => cases h
  | case13 b more hquote hunit hescape hcontrol ih =>
    obtain ⟨content', hmore⟩ := before_eq_some h
    rw [skipContent, if_neg hcontrol]
    · exact ih hmore
    · exact hquote
    · exact hunit
    · exact hescape

theorem readText_eq_some {bytes rest : Bytes} {s : String} (h : readText bytes = some (s, rest)) :
    ∃ more content, bytes = 0x22 :: more ∧ readContent more = some (content, rest) := by
  unfold readText at h
  split at h
  · rename_i more
    split at h
    · cases h
    · rename_i content left hcontent
      obtain ⟨s', _, heq⟩ := Option.map_eq_some_iff.mp h
      cases heq
      exact ⟨more, content, rfl, hcontent⟩
  · cases h

theorem skipText_agrees : Agree (fun _ _ => True) skipText readText := by
  intro bytes rest rest' u s hp hq
  obtain ⟨more, content, rfl, hcontent⟩ := readText_eq_some hq
  have hskip : skipText (0x22 :: more) = skipContent more := rfl
  rw [hskip, skipContent_of_read hcontent] at hp
  cases hp
  exact ⟨rfl, trivial⟩

theorem readNumber_eq_some {bytes rest : Bytes} {n : Number}
    (h : readNumber bytes = some (n, rest)) : ∃ m, scanNumeral bytes = some (m, rest) := by
  rw [readNumber] at h
  split at h
  · cases h
  · rename_i m left hscan
    obtain ⟨n', _, heq⟩ := Option.map_eq_some_iff.mp h
    cases heq
    exact ⟨m, hscan⟩

/-- Whatever depths they allow, skipping a value and reading it come to the same end. -/
theorem skipValue_agrees (depth depth' : Nat) :
    Agree (fun _ _ => True) (skipValue depth) (readValue depth') := by
  -- On the depth of the reader. It fixes the form of the value, and skipping takes the same form.
  induction depth' using Nat.strongRecOn generalizing depth with
  | ind depth' ih =>
    intro bytes rest rest' u v hp hq
    refine ⟨?_, trivial⟩
    unfold readValue at hq
    split at hq
    · cases hq
      cases depth <;> (cases hp; rfl)
    · cases hq
      cases depth <;> (cases hp; rfl)
    · cases hq
      cases depth <;> (cases hp; rfl)
    · rename_i more
      obtain ⟨⟨s, left⟩, hread, heq⟩ := Option.map_eq_some_iff.mp hq
      cases heq
      have hskip : skipText (0x22 :: more) = some (u, rest) := by cases depth <;> exact hp
      exact (skipText_agrees hskip hread).1
    · rename_i more
      split at hq
      · cases hq
      · rename_i inner
        obtain ⟨⟨vs, left⟩, hread, heq⟩ := Option.map_eq_some_iff.mp hq
        cases heq
        cases depth with
        | zero => cases hp
        | succ depth =>
          obtain ⟨⟨us, left'⟩, hskip, heq⟩ := Option.map_eq_some_iff.mp hp
          cases heq
          have hitems : Agree (fun _ _ => True) (skipValue depth) (readValue inner) :=
            ih inner (Nat.lt_succ_self _) depth
          exact (hitems.readList 0x5d hskip hread).1
    · rename_i more
      split at hq
      · cases hq
      · rename_i inner
        obtain ⟨⟨ms, left⟩, hread, heq⟩ := Option.map_eq_some_iff.mp hq
        cases heq
        cases depth with
        | zero => cases hp
        | succ depth =>
          obtain ⟨⟨us, left'⟩, hskip, heq⟩ := Option.map_eq_some_iff.mp hp
          cases heq
          have hmembers : Agree (fun _ _ => True ∧ True)
              (readMember skipText fun _ => skipValue depth)
              (readMember readText fun _ => readValue inner) :=
            skipText_agrees.readMember fun _ _ _ => ih inner (Nat.lt_succ_self _) depth
          exact (hmembers.readList 0x7d hskip hread).1
    · rename_i hnull hyes hno htext harray hobject
      obtain ⟨⟨n, left⟩, hread, heq⟩ := Option.map_eq_some_iff.mp hq
      cases heq
      obtain ⟨m, hscan⟩ := readNumber_eq_some hread
      unfold skipValue at hp
      split at hp
      · exact absurd rfl (hnull _)
      · exact absurd rfl (hyes _)
      · exact absurd rfl (hno _)
      · exact absurd rfl (htext _)
      · exact absurd rfl (harray _)
      · exact absurd rfl (hobject _)
      · rw [hscan, Option.map_some] at hp
        cases hp
        rfl

/-! ## Members -/

theorem scanNumeral_head {bytes rest : Bytes} {m : Numeral}
    (h : scanNumeral bytes = some (m, rest)) :
    ∃ b more, bytes = b :: more ∧ (b = 0x2d ∨ isDigit b = true) := by
  cases bytes with
  | nil => cases h
  | cons b more =>
    refine ⟨b, more, rfl, ?_⟩
    by_cases hminus : b = 0x2d
    · exact .inl hminus
    · cases hdigit : isDigit b with
      | true => exact .inr rfl
      | false =>
        have hsign : ∀ c ∈ (b :: more).head?, c ≠ 0x2d := by
          intro c hc
          cases hc
          exact hminus
        rw [scanNumeral_unsigned hsign] at h
        simp [scanMagnitude, scanWhole, scanDigits, List.span_eq_takeWhile_dropWhile, hdigit] at h

/-- What a slot holds of a value. -/
inductive Slot.Takes : Slot → Datum → Json → Prop
  | text (opt : Bool) (s : String) : Takes (.text opt) (.text s) (.text s)
  | integer (opt : Bool) {least greatest n : Int} (hlow : least ≤ n) (hhigh : n ≤ greatest) :
      Takes (.integer opt least greatest) (.integer n) (.number (.integer n))
  | absent {slot : Slot} (hopt : slot.optional = true) : Takes slot .none .null

theorem Slot.read_agrees (slot : Slot) (depth : Nat) :
    Agree slot.Takes slot.read (readValue depth) := by
  intro bytes rest rest' d v hp hq
  unfold Slot.read at hp
  split at hp
  · rename_i more
    have hnull : readValue depth (0x6e :: 0x75 :: 0x6c :: 0x6c :: more) = some (.null, more) := by
      cases depth <;> rfl
    cases hnull.symm.trans hq
    split at hp
    · rename_i hopt
      cases hp
      exact ⟨rfl, .absent hopt⟩
    · cases hp
  · cases slot with
    | text opt =>
      obtain ⟨⟨s, left⟩, hread, heq⟩ := Option.map_eq_some_iff.mp hp
      cases heq
      obtain ⟨more, _, rfl, _⟩ := readText_eq_some hread
      have htext : readValue depth (0x22 :: more) =
          (readText (0x22 :: more)).map fun r => (.text r.1, r.2) := by
        cases depth <;> rfl
      rw [htext, hread, Option.map_some] at hq
      cases hq
      exact ⟨rfl, .text opt s⟩
    | integer opt least greatest =>
      rw [Slot.readPresent] at hp
      split at hp
      · rename_i n left hread
        split at hp
        · rename_i hbounds
          cases hp
          obtain ⟨m, hscan⟩ := readNumber_eq_some hread
          obtain ⟨b, more, rfl, hhead⟩ := scanNumeral_head hscan
          rw [readValue_number hhead, hread, Option.map_some] at hq
          cases hq
          exact ⟨rfl, .integer opt hbounds.1 hbounds.2⟩
        · cases hp
      · cases hp

/-- What is found of a member of a given name. -/
def Schema.Finds (schema : Schema) (name : String) (found : Option Datum) (v : Json) : Prop :=
  ∀ slot, schema.lookup name = some slot → ∃ d, found = some d ∧ slot.Takes d v

theorem Schema.readField_agrees (schema : Schema) (name : String) (depth : Nat) :
    Agree (schema.Finds name) (schema.readField name) (readValue depth) := by
  intro bytes rest rest' found v hp hq
  rw [Schema.readField] at hp
  split at hp
  · rename_i slot hslot
    obtain ⟨⟨d, left⟩, hread, heq⟩ := Option.map_eq_some_iff.mp hp
    cases heq
    obtain ⟨hrest, htakes⟩ := slot.read_agrees depth hread hq
    refine ⟨hrest, fun slot' hslot' => ?_⟩
    rw [hslot] at hslot'
    cases hslot'
    exact ⟨d, rfl, htakes⟩
  · rename_i hnone
    obtain ⟨⟨u, left⟩, hskip, heq⟩ := Option.map_eq_some_iff.mp hp
    cases heq
    refine ⟨(skipValue_agrees bytes.length depth hskip hq).1, fun slot' hslot' => ?_⟩
    rw [hnone] at hslot'
    cases hslot'

/-! ## Records -/

/-- The data of a record in the members of an object. -/
def Schema.Holds (schema : Schema) (ds : List Datum) (fields : Fields) : Prop :=
  List.Forall₂ (fun m d => (∃ v, fields.get? m.1 = some v ∧ m.2.Takes d v) ∨
    (fields.get? m.1 = none ∧ m.2.optional = true ∧ d = .none)) schema ds

/-- The data of a record in the items of an array, those behind its end missing. -/
inductive Schema.Lists : Schema → List Datum → List Json → Prop
  | nil : Lists [] [] []
  | value {name : String} {slot : Slot} {schema : Schema} {d : Datum} {ds : List Datum} {v : Json}
      {vs : List Json} (h : slot.Takes d v) (hrest : Lists schema ds vs) :
      Lists ((name, slot) :: schema) (d :: ds) (v :: vs)
  | missing {name : String} {slot : Slot} {schema : Schema} {ds : List Datum}
      (hopt : slot.optional = true) (hrest : Lists schema ds []) :
      Lists ((name, slot) :: schema) (.none :: ds) []

/-- What a value says as a record. -/
inductive Schema.Tells (schema : Schema) (ds : List Datum) : Json → Prop
  | object {fields : Fields} (h : schema.Holds ds fields) : Tells schema ds (.object fields)
  | array {vs : List Json} (h : schema.Lists ds vs) : Tells schema ds (.array vs)

theorem get?_ofList_filter (ms : List (String × Json)) (name : String) :
    (Fields.ofList ms).get? name = (ms.filter fun m => m.1 == name).getLast?.map (·.2) := by
  rw [Fields.get?_ofList, Fields.get?, ← List.head?_filter, List.filter_reverse,
    List.head?_reverse]

namespace Schema

variable {schema : Schema}

theorem holds_of_members (hlookup : ∀ m ∈ schema, schema.lookup m.1 = some m.2)
    {found : List (String × Option Datum)} {ms : List (String × Json)} {ds : List Datum}
    (hfound : List.Forall₂ (fun f m => f.1 = m.1 ∧ schema.Finds f.1 f.2 m.2) found ms)
    (h : schema.ofMembers? found = some ds) : schema.Holds ds (Fields.ofList ms) := by
  rw [ofMembers?, mapM_eq_some_iff, List.forall₂_iff_zip] at h
  obtain ⟨hlength, heach⟩ := h
  refine List.forall₂_iff_zip.mpr ⟨hlength, fun {m d} hmem => ?_⟩
  obtain ⟨name, slot⟩ := m
  have hslot : schema.lookup name = some slot := hlookup _ (List.of_mem_zip hmem).1
  have hvalue := heach hmem
  have hnamed : List.Forall₂ (fun f m => f.1 = m.1 ∧ schema.Finds f.1 f.2 m.2)
      (found.filter fun f => f.1 == name) (ms.filter fun f => f.1 == name) := by
    refine List.rel_filter (fun f g hfg => ?_) hfound
    simp only [hfg.1]
  have hmember : ∀ f ∈ found.filter (fun f => f.1 == name), f.1 = name :=
    fun f hf => by simpa using (List.mem_filter.mp hf).2
  -- Of the members of this name the object keeps the last. A record allows one at most, so that the
  -- two do not differ.
  rw [get?_ofList_filter]
  simp only at hvalue
  generalize ms.filter (fun f => f.1 == name) = named at hnamed ⊢
  generalize found.filter (fun f => f.1 == name) = entries at hnamed hvalue hmember
  split at hvalue
  · cases hnamed
    split at hvalue
    · rename_i hopt
      cases hvalue
      exact .inr ⟨rfl, hopt, rfl⟩
    · cases hvalue
  · rename_i name' d'
    cases hvalue
    have hname : name' = name := hmember _ (List.mem_singleton_self _)
    subst hname
    cases hnamed with
    | cons hfinds hrest =>
      cases hrest
      obtain ⟨d', hd', htakes⟩ := hfinds.2 slot hslot
      cases hd'
      exact .inl ⟨_, rfl, htakes⟩
  · cases hvalue

theorem lists_missing (h : schema.all (fun m => m.2.optional) = true) :
    schema.Lists (schema.map fun _ => .none) [] := by
  induction schema with
  | nil => exact .nil
  | cons m schema ih =>
    rw [List.all_cons, Bool.and_eq_true] at h
    exact .missing h.1 (ih h.2)

theorem readPositions_tail (depth n : Nat) :
    Agree schema.Lists (schema.readPositions false) (readTail 0x5d (readValue depth) n) := by
  -- On the schema: it says how many items there may be, and `n` only bounds them.
  induction schema generalizing n with
  | nil =>
    intro bytes rest rest' ds vs hp hq
    rw [readPositions] at hp
    rw [readTail] at hq
    split at hp
    · rename_i more hbytes
      rw [hbytes] at hq
      cases hp
      cases hq
      exact ⟨rfl, .nil⟩
    · cases hp
  | cons m schema ih =>
    obtain ⟨name, slot⟩ := m
    intro bytes rest rest' ds vs hp hq
    rw [readPositions] at hp
    rw [readTail] at hq
    split at hp
    · rename_i more hbytes
      rw [hbytes] at hq
      cases hq
      split at hp
      · rename_i hopt
        cases hp
        exact ⟨rfl, .missing hopt.1 (lists_missing hopt.2)⟩
      · cases hp
    · rename_i b more hclose hbytes
      rw [hbytes] at hq
      by_cases hcomma : b = 0x2c
      · subst hcomma
        simp only [Bool.false_eq_true, if_false, if_true] at hp hq
        split at hp
        · cases hp
        rename_i d left hread
        obtain ⟨⟨ds', left'⟩, hmore, heq⟩ := Option.map_eq_some_iff.mp hp
        cases heq
        cases n with
        | zero => cases hq
        | succ n =>
          obtain ⟨v, leftq, vs', hv, hvs, rfl⟩ := readItems_succ hq
          obtain ⟨rfl, htakes⟩ := slot.read_agrees depth hread hv
          obtain ⟨hrest, hlists⟩ := ih n hmore hvs
          exact ⟨hrest, .value htakes hlists⟩
      · simp only [Bool.false_eq_true, if_false, hcomma] at hp
        cases hp
    · cases hp

theorem readPositions_agrees (depth : Nat) :
    Agree schema.Lists (schema.readPositions true) (readList 0x5d (readValue depth)) := by
  intro bytes rest rest' ds vs hp hq
  rw [readList] at hq
  cases schema with
  | nil =>
    rw [readPositions] at hp
    split at hp
    · rename_i more hbytes
      simp only [hbytes, if_true] at hq
      cases hp
      cases hq
      exact ⟨rfl, .nil⟩
    · cases hp
  | cons m schema =>
    obtain ⟨name, slot⟩ := m
    rw [readPositions] at hp
    split at hp
    · rename_i more hbytes
      simp only [hbytes, if_true] at hq
      cases hq
      split at hp
      · rename_i hopt
        cases hp
        exact ⟨rfl, .missing hopt.1 (lists_missing hopt.2)⟩
      · cases hp
    · rename_i b more hclose hbytes
      have hopen : b ≠ 0x5d := hclose
      simp only [hbytes, hopen, if_false, if_true] at hp hq
      split at hp
      · cases hp
      rename_i d left hread
      obtain ⟨⟨ds', left'⟩, hmore, heq⟩ := Option.map_eq_some_iff.mp hp
      cases heq
      cases hlength : bytes.length with
      | zero =>
        rw [hlength] at hq
        cases hq
      | succ n =>
        rw [hlength] at hq
        obtain ⟨v, leftq, vs', hv, hvs, rfl⟩ := readItems_succ hq
        obtain ⟨rfl, htakes⟩ := slot.read_agrees depth hread hv
        obtain ⟨hrest, hlists⟩ := readPositions_tail depth n hmore hvs
        exact ⟨hrest, .value htakes hlists⟩
    · cases hp

/-- Where a text is read both as a record and as a value, the value says what the record says. -/
theorem read_agrees (hlookup : ∀ m ∈ schema, schema.lookup m.1 = some m.2) (depth : Nat) :
    Agree schema.Tells schema.read (readValue depth) := by
  intro bytes rest rest' ds v hp hq
  unfold Schema.read at hp
  split at hp
  · rename_i more
    split at hp
    · cases hp
    rename_i found left hread
    obtain ⟨ds', hdata, heq⟩ := Option.map_eq_some_iff.mp hp
    cases heq
    cases depth with
    | zero => cases hq
    | succ depth =>
      obtain ⟨⟨ms, left'⟩, hvalue, heq⟩ := Option.map_eq_some_iff.mp hq
      cases heq
      have hmembers : Agree (fun f m => f.1 = m.1 ∧ schema.Finds f.1 f.2 m.2)
          (readMember readText schema.readField)
          (readMember readText fun _ => readValue depth) :=
        (Agree.refl readText).readMember fun name name' h => schema.readField_agrees name depth
      obtain ⟨hrest, hall⟩ := hmembers.readList 0x7d hread hvalue
      exact ⟨hrest, .object (holds_of_members hlookup hall hdata)⟩
  · rename_i more
    cases depth with
    | zero => cases hq
    | succ depth =>
      obtain ⟨⟨vs, left'⟩, hvalue, heq⟩ := Option.map_eq_some_iff.mp hq
      cases heq
      obtain ⟨hrest, hlists⟩ := readPositions_agrees depth hp hvalue
      exact ⟨hrest, .array hlists⟩
  · cases hp

end Schema

end Json
end FloodMesh
