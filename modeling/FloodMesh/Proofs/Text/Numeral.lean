import FloodMesh.Proofs.Bytes
import FloodMesh.Text.Numeral

/-!
# FloodMesh.Proofs.Text.Numeral

The texts that are read as a number, and no others: one or more digits with at most a plus sign in
front and white space around. The decimal text of a number is one of them, also with spaces in
front.
-/

namespace FloodMesh
namespace Text

theorem isBlank_of_isDigit {c : Char} (h : c.isDigit = true) : isBlank c = false := by
  have hall : ∀ n : Fin 58, 48 ≤ n.val → isBlank (Char.ofNat n.val) = false := by decide
  obtain ⟨hlow, hhigh⟩ := Bytes.lt_of_isDigit h
  rw [← Char.ofNat_toNat c]
  exact hall ⟨c.toNat, hhigh⟩ hlow

/-! ## White space around -/

theorem dropWhile_isBlank {c : Char} (h : isBlank c = false) (cs : List Char) :
    (c :: cs).dropWhile isBlank = c :: cs := by
  rw [List.dropWhile_cons, h]
  rfl

/-- What stands between the white space begins and ends with something else. -/
theorem trim_append {left core right : List Char} (hleft : ∀ c ∈ left, isBlank c = true)
    (hright : ∀ c ∈ right, isBlank c = true) (hcore : ∀ c ∈ core, isBlank c = false) :
    trim (left ++ core ++ right) = core := by
  have hright' : ∀ c ∈ right.reverse, isBlank c = true :=
    fun c hc => hright c (List.mem_reverse.mp hc)
  cases core with
  | nil =>
    have hall : ∀ c ∈ left ++ right, isBlank c = true :=
      fun c hc => (List.mem_append.mp hc).elim (hleft c) (hright c)
    rw [List.append_nil, trim, ← List.append_nil (left ++ right), List.dropWhile_append_of_pos hall]
    rfl
  | cons c cs =>
    obtain ⟨last, front, hlast⟩ : ∃ last front, (c :: cs).reverse = last :: front :=
      List.exists_cons_of_ne_nil (by simp)
    have hback : isBlank last = false :=
      hcore last (List.mem_reverse.mp (hlast ▸ List.mem_cons_self))
    rw [trim, List.append_assoc, List.dropWhile_append_of_pos hleft, List.cons_append,
      dropWhile_isBlank (hcore c List.mem_cons_self), ← List.cons_append, List.reverse_append,
      List.dropWhile_append_of_pos hright', hlast, dropWhile_isBlank hback, ← hlast,
      List.reverse_reverse]

/-- A text is what is left of it without its white space, with white space around. -/
theorem exists_trim (cs : List Char) : ∃ left right, cs = left ++ trim cs ++ right ∧
    (∀ c ∈ left, isBlank c = true) ∧ ∀ c ∈ right, isBlank c = true := by
  have hblank : ∀ cs : List Char, ∀ c ∈ cs.takeWhile isBlank, isBlank c = true :=
    fun cs => List.all_eq_true.mp List.all_takeWhile
  refine ⟨cs.takeWhile isBlank, ((cs.dropWhile isBlank).reverse.takeWhile isBlank).reverse, ?_,
    hblank cs, fun c hc => hblank _ c (List.mem_reverse.mp hc)⟩
  rw [trim, List.append_assoc, ← List.reverse_append, List.takeWhile_append_dropWhile,
    List.reverse_reverse, List.takeWhile_append_dropWhile]

theorem trim_spaces (spaces : Nat) {cs : List Char} (h : ∀ c ∈ cs, c.isDigit = true) :
    trim (List.replicate spaces ' ' ++ cs) = cs := by
  have hspaces : ∀ c ∈ List.replicate spaces ' ', isBlank c = true := by
    intro c hc
    rw [(List.mem_replicate.mp hc).2]
    decide
  have hnone : ∀ c ∈ ([] : List Char), isBlank c = true := fun c hc => absurd hc List.not_mem_nil
  rw [← List.append_nil (_ ++ cs)]
  exact trim_append hspaces hnone fun c hc => isBlank_of_isDigit (h c hc)

/-! ## What a numeral is -/

/-- The text writes a number: one or more digits, with zeros in front as one likes, at most a plus
sign before them and white space around. -/
def Writes (text : String) (n : Nat) : Prop :=
  ∃ left sign digits right : List Char, text.toList = left ++ (sign ++ digits) ++ right ∧
    (∀ c ∈ left, isBlank c = true) ∧ (∀ c ∈ right, isBlank c = true) ∧
    (sign = [] ∨ sign = ['+']) ∧ digits ≠ [] ∧ (∀ c ∈ digits, c.isDigit = true) ∧
    Nat.ofDigitChars 10 digits 0 = n

theorem unsigned_append {sign digits : List Char} (hsign : sign = [] ∨ sign = ['+'])
    (hdigits : ∀ c ∈ digits, c.isDigit = true) : unsigned (sign ++ digits) = digits := by
  rcases hsign with rfl | rfl
  · cases digits with
    | nil => rfl
    | cons c cs =>
      have hplus : c ≠ '+' := by
        rintro rfl
        exact absurd (hdigits '+' List.mem_cons_self) (by decide)
      simp [unsigned, hplus]
  · rfl

theorem exists_unsigned (cs : List Char) :
    ∃ sign, cs = sign ++ unsigned cs ∧ (sign = [] ∨ sign = ['+']) := by
  rw [unsigned.eq_def]
  split
  · exact ⟨['+'], rfl, .inr rfl⟩
  · exact ⟨[], rfl, .inl rfl⟩

theorem numeral?_eq_some_iff {bound n : Nat} {cs : List Char} :
    numeral? bound cs = some n ↔
      unsigned cs ≠ [] ∧ (∀ c ∈ unsigned cs, c.isDigit = true) ∧
        Nat.ofDigitChars 10 (unsigned cs) 0 = n ∧ n < bound := by
  have hvalue : decimalValue (unsigned cs) = Nat.ofDigitChars 10 (unsigned cs) 0 := rfl
  rw [numeral?]
  simp only [hvalue, List.all_eq_true]
  by_cases hdigits : unsigned cs ≠ [] ∧ ∀ c ∈ unsigned cs, c.isDigit = true
  · rw [if_pos hdigits]
    by_cases hbound : Nat.ofDigitChars 10 (unsigned cs) 0 < bound
    · rw [if_pos hbound, Option.some.injEq]
      exact ⟨fun h => ⟨hdigits.1, hdigits.2, h, h ▸ hbound⟩, fun h => h.2.2.1⟩
    · rw [if_neg hbound]
      exact ⟨fun h => (nomatch h), fun h => absurd (h.2.2.1 ▸ h.2.2.2) hbound⟩
  · rw [if_neg hdigits]
    exact ⟨fun h => (nomatch h), fun h => absurd ⟨h.1, h.2.1⟩ hdigits⟩

/-- A numeral is read exactly from the texts that write it. -/
theorem paddedNumeral?_eq_some_iff {bound n : Nat} {text : String} :
    paddedNumeral? bound text = some n ↔ Writes text n ∧ n < bound := by
  rw [paddedNumeral?, numeral?_eq_some_iff]
  constructor
  · rintro ⟨hne, hdigits, hvalue, hbound⟩
    obtain ⟨left, right, htext, hleft, hright⟩ := exists_trim text.toList
    obtain ⟨sign, htrim, hsign⟩ := exists_unsigned (trim text.toList)
    rw [htrim] at htext
    exact ⟨⟨left, sign, _, right, htext, hleft, hright, hsign, hne, hdigits, hvalue⟩, hbound⟩
  · rintro ⟨⟨left, sign, digits, right, htext, hleft, hright, hsign, hne, hdigits, hvalue⟩, hbound⟩
    have hcore : ∀ c ∈ sign ++ digits, isBlank c = false := by
      intro c hc
      rcases List.mem_append.mp hc with hc | hc
      · rcases hsign with rfl | rfl
        · cases hc
        · rw [List.mem_singleton.mp hc]
          decide
      · exact isBlank_of_isDigit (hdigits c hc)
    rw [htext, trim_append hleft hright hcore, unsigned_append hsign hdigits]
    exact ⟨hne, hdigits, hvalue, hbound⟩

theorem count?_eq_some_iff {n : Nat} {text : String} :
    count? text = some n ↔ Writes text n ∧ n < UInt64.size :=
  paddedNumeral?_eq_some_iff

theorem port?_eq_some_iff {p : UInt16} {text : String} :
    port? text = some p ↔ Writes text p.toNat := by
  rw [port?, Option.map_eq_some_iff]
  constructor
  · rintro ⟨n, hn, rfl⟩
    obtain ⟨hwrites, hbound⟩ := paddedNumeral?_eq_some_iff.mp hn
    rwa [UInt16.toNat_ofNat_of_lt' hbound]
  · intro h
    exact ⟨p.toNat, paddedNumeral?_eq_some_iff.mpr ⟨h, p.toNat_lt⟩, UInt16.ofNat_toNat⟩

/-- A text writes at most one number. -/
theorem Writes.unique {text : String} {m n : Nat} (hm : Writes text m) (hn : Writes text n) :
    m = n := by
  have hreadM : paddedNumeral? (m + n + 1) text = some m :=
    paddedNumeral?_eq_some_iff.mpr ⟨hm, by omega⟩
  have hreadN : paddedNumeral? (m + n + 1) text = some n :=
    paddedNumeral?_eq_some_iff.mpr ⟨hn, by omega⟩
  exact Option.some.inj (hreadM.symm.trans hreadN)

/-- There is nothing but white space, plus signs and digits in a numeral. -/
theorem Writes.of_mem {text : String} {n : Nat} (h : Writes text n) {c : Char}
    (hc : c ∈ text.toList) : isBlank c = true ∨ c = '+' ∨ c.isDigit = true := by
  obtain ⟨left, sign, digits, right, htext, hleft, hright, hsign, -, hdigits, -⟩ := h
  rw [htext] at hc
  rcases List.mem_append.mp hc with hc | hc
  · rcases List.mem_append.mp hc with hc | hc
    · exact .inl (hleft c hc)
    · rcases List.mem_append.mp hc with hc | hc
      · rcases hsign with rfl | rfl
        · cases hc
        · exact .inr (.inl (List.mem_singleton.mp hc))
      · exact .inr (.inr (hdigits c hc))
  · exact .inl (hright c hc)

/-! ## The decimal text of a number -/

theorem numeral?_toDigits {n bound : Nat} (h : n < bound) :
    numeral? bound (Nat.toDigits 10 n) = some n := by
  have hdigits : ∀ c ∈ Nat.toDigits 10 n, c.isDigit = true :=
    fun c hc => Nat.isDigit_of_mem_toDigits (by decide) (by decide) hc
  have hunsigned : unsigned (Nat.toDigits 10 n) = Nat.toDigits 10 n :=
    unsigned_append (.inl rfl) hdigits
  rw [numeral?_eq_some_iff, hunsigned]
  exact ⟨Nat.toDigits_ne_nil, hdigits, Nat.ofDigitChars_ten_toDigits, h⟩

theorem paddedNumeral?_spaces {n bound : Nat} (h : n < bound) (spaces : Nat) {text : String}
    (htext : text.toList = List.replicate spaces ' ' ++ Nat.toDigits 10 n) :
    paddedNumeral? bound text = some n := by
  have hdigits : ∀ c ∈ Nat.toDigits 10 n, c.isDigit = true :=
    fun c hc => Nat.isDigit_of_mem_toDigits (by decide) (by decide) hc
  rw [paddedNumeral?, htext, trim_spaces spaces hdigits, numeral?_toDigits h]

theorem paddedNumeral?_repr {n bound : Nat} (h : n < bound) :
    paddedNumeral? bound (Nat.repr n) = some n := by
  refine paddedNumeral?_spaces h 0 ?_
  rw [Nat.repr_eq_ofList_toDigits, String.toList_ofList, List.replicate_zero, List.nil_append]

theorem writes_repr {n k : Nat} : Writes (Nat.repr n) k ↔ k = n := by
  have hself : Writes (Nat.repr n) n :=
    (paddedNumeral?_eq_some_iff.mp (paddedNumeral?_repr (Nat.lt_succ_self n))).1
  refine ⟨fun h => h.unique hself, ?_⟩
  rintro rfl
  exact hself

theorem count?_repr {n : Nat} (h : n < UInt64.size) : count? (Nat.repr n) = some n :=
  paddedNumeral?_repr h

theorem port?_repr (p : UInt16) : port? (Nat.repr p.toNat) = some p := by
  rw [port?, paddedNumeral?_repr p.toNat_lt, Option.map_some, UInt16.ofNat_toNat]

end Text
end FloodMesh
