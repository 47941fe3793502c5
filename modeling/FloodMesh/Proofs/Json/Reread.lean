import FloodMesh.Proofs.Json.Numeral
import Mathlib.Data.List.TakeWhile

/-!
# FloodMesh.Proofs.Json.Reread

What a reader makes of a printed value: `readValue_print`. Texts come back as they were, and so do
arrays and objects as long as they are not too deep; a number comes back as whatever its text says.
-/

namespace FloodMesh
namespace Json

/-! ## Texts -/

theorem hexUnit_control {b : UInt8} (h : b < 0x20) :
    hexUnit? 0x30 0x30 (hexDigit (b / 16)) (hexDigit (b % 16)) = some b.toNat ∧
      characterBytes b.toNat = [b] := by
  have hall : ∀ n : Fin 32, hexUnit? 0x30 0x30 (hexDigit (UInt8.ofNat n / 16))
      (hexDigit (UInt8.ofNat n % 16)) = some (UInt8.ofNat n).toNat ∧
      characterBytes (UInt8.ofNat n).toNat = [UInt8.ofNat n] := by decide
  have hlt : b.toNat < 32 := UInt8.lt_iff_toNat_lt.mp h
  have hb := hall ⟨b.toNat, hlt⟩
  rwa [UInt8.ofNat_toNat] at hb

/-- A byte comes back from between quotes, whether it is escaped or not. -/
theorem readContent_escape (b : UInt8) (rest : Bytes) :
    readContent (escapeByte b ++ rest) = before [b] (readContent rest) := by
  rw [escapeByte]
  by_cases hquote : b = 0x22
  · subst hquote
    rfl
  rw [if_neg hquote]
  by_cases hslash : b = 0x5c
  · subst hslash
    rfl
  rw [if_neg hslash]
  by_cases hback : b = 0x08
  · subst hback
    rfl
  rw [if_neg hback]
  by_cases hfeed : b = 0x0c
  · subst hfeed
    rfl
  rw [if_neg hfeed]
  by_cases hline : b = 0x0a
  · subst hline
    rfl
  rw [if_neg hline]
  by_cases hreturn : b = 0x0d
  · subst hreturn
    rfl
  rw [if_neg hreturn]
  by_cases htab : b = 0x09
  · subst htab
    rfl
  rw [if_neg htab]
  by_cases hcontrol : b < 0x20
  · obtain ⟨hunit, hbytes⟩ := hexUnit_control hcontrol
    have hlt : b.toNat < 32 := UInt8.lt_iff_toNat_lt.mp hcontrol
    have hlow : isLowSurrogate b.toNat = false := by
      simp only [isLowSurrogate, Bool.and_eq_false_iff, decide_eq_false_iff_not]
      omega
    have hhigh : isHighSurrogate b.toNat = false := by
      simp only [isHighSurrogate, Bool.and_eq_false_iff, decide_eq_false_iff_not]
      omega
    rw [if_pos hcontrol]
    simp [readContent, hunit, hlow, hhigh, hbytes]
  · rw [if_neg hcontrol, List.cons_append, List.nil_append]
    simp [readContent, hslash, hcontrol]

theorem readContent_escaped (content rest : Bytes) :
    readContent (content.flatMap escapeByte ++ 0x22 :: rest) = some (content, rest) := by
  induction content with
  | nil => rfl
  | cons b content ih =>
    rw [List.flatMap_cons, List.append_assoc, readContent_escape, ih]
    rfl

theorem readText_print (s : String) (rest : Bytes) :
    readText (printText s ++ rest) = some (s, rest) := by
  simp [printText, readText, readContent_escaped, Bytes.toString?_ofString]

/-! ## Lists -/

/-- Texts with a comma before each. -/
def commaed (texts : List Bytes) : Bytes := texts.flatMap fun text => 0x2c :: text

theorem length_le_commaed (texts : List Bytes) : texts.length ≤ (commaed texts).length := by
  induction texts with
  | nil => exact Nat.le_refl 0
  | cons text texts ih =>
    simp only [commaed, List.flatMap_cons, List.length_cons, List.length_append] at ih ⊢
    omega

theorem skipBlank_cons {b : UInt8} (h : isBlank b = false) (rest : Bytes) :
    skipBlank (b :: rest) = b :: rest := by
  simp [skipBlank, h]

/-- A byte that closes a list. -/
structure Closes (close : UInt8) : Prop where
  blank : isBlank close = false
  comma : close ≠ 0x2c
  carriesOn : carriesOn close = false

section List

variable {α β : Type} {close : UInt8} {item : Reader α} {text : β → Bytes} {value : β → Option α}
  (hclose : Closes close)
  (hhead : ∀ x, ∃ b rest, text x = b :: rest ∧ isBlank b = false ∧ b ≠ close)
  (hitem : ∀ x rest, Stops rest → item (text x ++ rest) = (value x).map fun v => (v, rest))

include hclose hhead hitem

/-- The items come one by one: the first one refused makes the whole list refused. -/
theorem readItems_texts (xs : List β) (x : β) {n : Nat} (hn : xs.length < n) (rest : Bytes) :
    readItems close item n (text x ++ (commaed (xs.map text) ++ close :: rest)) =
      ((x :: xs).mapM value).map fun vs => (vs, rest) := by
  induction xs generalizing x n with
  | nil =>
    obtain ⟨n, rfl⟩ := Nat.exists_eq_succ_of_ne_zero (Nat.ne_of_gt hn)
    obtain ⟨b, tail, htext, hblank, _⟩ := hhead x
    have hread := hitem x (close :: rest) (stops_cons hclose.carriesOn rest)
    rw [htext] at hread
    rw [readItems, htext]
    simp only [List.map_nil, commaed, List.flatMap_nil, List.nil_append, List.cons_append,
      skipBlank_cons hblank] at hread ⊢
    rw [hread]
    cases hx : value x with
    | none => simp [hx]
    | some v => simp [hx, skipBlank_cons hclose.blank, hclose.comma]
  | cons y ys ih =>
    obtain ⟨n, rfl⟩ := Nat.exists_eq_succ_of_ne_zero (Nat.ne_of_gt (Nat.zero_lt_of_lt hn))
    obtain ⟨b, tail, htext, hblank, _⟩ := hhead x
    have hcomma : carriesOn 0x2c = false := by decide
    have hmore : commaed ((y :: ys).map text) ++ close :: rest =
        0x2c :: (text y ++ (commaed (ys.map text) ++ close :: rest)) := by
      simp [commaed]
    have hread := hitem x _ (stops_cons hcomma (text y ++ (commaed (ys.map text) ++ close :: rest)))
    rw [htext] at hread
    rw [hmore, readItems, htext]
    simp only [List.cons_append, skipBlank_cons hblank] at hread ⊢
    rw [hread]
    cases hx : value x with
    | none => simp [List.mapM_cons, hx]
    | some v =>
      have hrest := ih y (n := n) (by simpa using hn)
      have hblank : isBlank 0x2c = false := by decide
      simp only [Option.map_some, skipBlank_cons hblank, if_true, hrest]
      rw [List.mapM_cons (a := x), hx]
      cases (y :: ys).mapM value <;> rfl

theorem readList_texts (xs : List β) (x : β) (rest : Bytes) :
    readList close item (text x ++ (commaed (xs.map text) ++ close :: rest)) =
      ((x :: xs).mapM value).map fun vs => (vs, rest) := by
  obtain ⟨b, tail, htext, hblank, hne⟩ := hhead x
  have hlength := length_le_commaed (xs.map text)
  rw [List.length_map] at hlength
  have hread := readItems_texts hclose hhead hitem xs x
    (n := (text x ++ (commaed (xs.map text) ++ close :: rest)).length)
    (by simp only [List.length_append, List.length_cons]; omega) rest
  rw [← hread, readList]
  simp only [htext, List.cons_append, skipBlank_cons hblank, hne, if_false]

end List

/-! ## Values -/

/-- What a reader makes of a value's text if arrays and objects may stand in each other at most
`depth` deep. -/
def reread : Nat → Json → Option Json
  | _, .null => some .null
  | _, .bool b => some (.bool b)
  | _, .number n => n.reread.map .number
  | _, .text s => some (.text s)
  | 0, .array _ => none
  | 0, .object _ => none
  | depth + 1, .array vs => (vs.mapM (reread depth)).map .array
  | depth + 1, .object ms =>
    (ms.mapM fun m => (reread depth m.2).map fun v => (m.1, v)).map ofMembers

def printMember (m : String × Json) : Bytes := printText m.1 ++ 0x3a :: print m.2

theorem printItems_eq (vs : List Json) : printItems vs = commaed (vs.map print) := by
  induction vs with
  | nil => rfl
  | cons v vs ih => simp [printItems, commaed, ih]

theorem printMembers_eq (ms : List (String × Json)) :
    printMembers ms = commaed (ms.map printMember) := by
  induction ms with
  | nil => rfl
  | cons m ms ih => simp [printMembers, commaed, printMember, ih]

theorem ne_of_isDigit {b c : UInt8} (hb : isDigit b = true) (hc : isDigit c = false) : b ≠ c := by
  rintro rfl
  rw [hb] at hc
  cases hc

/-- The text of a value begins with none of the bytes that stand between values. -/
theorem print_head (v : Json) :
    ∃ b rest, print v = b :: rest ∧ isBlank b = false ∧ b ≠ 0x5d ∧ b ≠ 0x7d := by
  cases v with
  | null => exact ⟨0x6e, [0x75, 0x6c, 0x6c], by decide, by decide, by decide, by decide⟩
  | bool b =>
    cases b
    · exact ⟨0x66, [0x61, 0x6c, 0x73, 0x65], by decide, by decide, by decide, by decide⟩
    · exact ⟨0x74, [0x72, 0x75, 0x65], by decide, by decide, by decide, by decide⟩
  | number n =>
    obtain ⟨b, rest, htext, hb⟩ := n.format_text.head
    refine ⟨b, rest, by rw [print, htext], ?_⟩
    rcases hb with rfl | hb
    · decide
    · have hne : ∀ c, isDigit c = false → b ≠ c := fun c hc => ne_of_isDigit hb hc
      have hblank : isBlank b = false := by
        simp [isBlank, hne 0x20 rfl, hne 0x09 rfl, hne 0x0a rfl, hne 0x0d rfl]
      exact ⟨hblank, hne 0x5d rfl, hne 0x7d rfl⟩
  | text s => exact ⟨0x22, _, rfl, by decide, by decide, by decide⟩
  | array vs => cases vs <;> exact ⟨0x5b, _, rfl, by decide, by decide, by decide⟩
  | object ms => cases ms <;> exact ⟨0x7b, _, rfl, by decide, by decide, by decide⟩

theorem readValue_number {b : UInt8} (h : b = 0x2d ∨ isDigit b = true) (depth : Nat)
    (rest : Bytes) : readValue depth (b :: rest) =
      (readNumber (b :: rest)).map fun (n, rest) => (.number n, rest) := by
  have hne : ∀ c, isDigit c = false → c ≠ 0x2d → b ≠ c := by
    intro c hc hminus
    rcases h with rfl | h
    · exact hminus.symm
    · exact ne_of_isDigit h hc
  have hn := hne 0x6e rfl (by decide)
  have ht := hne 0x74 rfl (by decide)
  have hf := hne 0x66 rfl (by decide)
  have hquote := hne 0x22 rfl (by decide)
  have harray := hne 0x5b rfl (by decide)
  have hobject := hne 0x7b rfl (by decide)
  cases depth <;> simp [readValue, hn, ht, hf, hquote, harray, hobject]

/-- A member is read if its value is, whatever the reader of the value looks for. -/
theorem readMember_print {α : Type} {value : String → Reader α} {m : String × Json} {rest : Bytes}
    {read : Option α} (h : value m.1 (print m.2 ++ rest) = read.map fun v => (v, rest)) :
    readMember readText value (printMember m ++ rest) =
      (read.map fun v => (m.1, v)).map fun w => (w, rest) := by
  obtain ⟨b, tail, hprint, hblank, _⟩ := print_head m.2
  have hcolon : isBlank 0x3a = false := by decide
  rw [hprint, List.cons_append] at h
  rw [printMember, List.append_assoc, readMember, readText_print, hprint]
  simp only [List.cons_append, skipBlank_cons hcolon, skipBlank_cons hblank, h]
  cases read <;> rfl

/-- What a reader makes of a printed value, whatever follows unless it could carry on a number. -/
theorem readValue_print (depth : Nat) (v : Json) {rest : Bytes} (h : Stops rest) :
    readValue depth (print v ++ rest) = (reread depth v).map fun w => (w, rest) := by
  have hbracket : Closes 0x5d := ⟨by decide, by decide, by decide⟩
  have hbrace : Closes 0x7d := ⟨by decide, by decide, by decide⟩
  -- On the depth, since the items of a list are read one level deeper.
  induction depth using Nat.strongRecOn generalizing v rest with
  | ind depth ih =>
    cases v with
    | null => cases depth <;> rfl
    | bool b => cases b <;> cases depth <;> rfl
    | number n =>
      obtain ⟨b, tail, htext, hb⟩ := n.format_text.head
      have hread := n.readNumber_format h
      rw [htext, List.cons_append] at hread
      rw [print, htext, List.cons_append, readValue_number hb, hread, reread]
      cases n.reread <;> rfl
    | text s =>
      have hread := readText_print s rest
      simp only [printText, List.cons_append] at hread
      simp only [print, printText, List.cons_append, readValue, reread, hread, Option.map_some]
    | array vs =>
      cases depth with
      | zero => cases vs <;> rfl
      | succ depth =>
        cases vs with
        | nil => rfl
        | cons v vs =>
          have hhead : ∀ v, ∃ b rest, print v = b :: rest ∧ isBlank b = false ∧ b ≠ 0x5d := by
            intro v
            obtain ⟨b, tail, hprint, hblank, hne, _⟩ := print_head v
            exact ⟨b, tail, hprint, hblank, hne⟩
          have hitem : ∀ v rest, Stops rest → readValue depth (print v ++ rest) =
              (reread depth v).map fun w => (w, rest) :=
            fun v rest h => ih depth (Nat.lt_succ_self _) v h
          have hprint : print (.array (v :: vs)) ++ rest =
              0x5b :: (print v ++ (commaed (vs.map print) ++ 0x5d :: rest)) := by
            simp [print, printItems_eq]
          rw [hprint, readValue, readList_texts hbracket hhead hitem, reread]
          cases (v :: vs).mapM (reread depth) <;> rfl
    | object ms =>
      cases depth with
      | zero => cases ms <;> rfl
      | succ depth =>
        cases ms with
        | nil => rfl
        | cons m ms =>
          have hhead : ∀ m, ∃ b rest, printMember m = b :: rest ∧ isBlank b = false ∧ b ≠ 0x7d :=
            fun m => ⟨0x22, _, rfl, by decide, by decide⟩
          have hitem : ∀ m rest, Stops rest →
              readMember readText (fun _ => readValue depth) (printMember m ++ rest) =
                ((reread depth m.2).map fun v => (m.1, v)).map fun w => (w, rest) :=
            fun m rest h => readMember_print (ih depth (Nat.lt_succ_self _) m.2 h)
          have hprint : print (.object (m :: ms)) ++ rest =
              0x7b :: (printMember m ++ (commaed (ms.map printMember) ++ 0x7d :: rest)) := by
            simp [print, printMembers_eq, printMember]
          rw [hprint, readValue, readList_texts hbrace hhead hitem, reread]
          cases (m :: ms).mapM fun m => (reread depth m.2).map fun v => (m.1, v) <;> rfl

theorem parse?_print (v : Json) {blanks : Bytes} (h : ∀ b ∈ blanks, isBlank b = true) :
    parse? (print v ++ blanks) = reread depthLimit v := by
  obtain ⟨b, tail, hprint, hblank, _⟩ := print_head v
  have hstops : Stops blanks := by
    intro b hb
    have hall : ∀ c, isBlank c = true → carriesOn c = false := by
      intro c hc
      simp only [isBlank, Bool.or_eq_true, beq_iff_eq] at hc
      rcases hc with ((rfl | rfl) | rfl) | rfl <;> rfl
    exact hall b (h b (List.mem_of_mem_head? hb))
  have hread := readValue_print depthLimit v hstops
  have hskip : skipBlank blanks = [] := by
    exact List.dropWhile_eq_nil_iff.mpr h
  have hfront : skipBlank (print v ++ blanks) = print v ++ blanks := by
    rw [hprint, List.cons_append, skipBlank_cons hblank]
  rw [parse?, whole?, hfront, hread]
  cases reread depthLimit v with
  | none => rfl
  | some w => simp [hskip]

/-- Nothing has to follow. -/
theorem parse?_print_bare (v : Json) : parse? (print v) = reread depthLimit v := by
  have hprint : parse? (print v ++ []) = reread depthLimit v :=
    parse?_print v fun _ hb => (List.not_mem_nil hb).elim
  rwa [List.append_nil] at hprint

end Json
end FloodMesh
