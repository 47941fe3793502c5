import FloodMesh.Json.Record
import FloodMesh.Proofs.Json.Reread

/-!
# FloodMesh.Proofs.Json.Record

Records read back from printed objects, member by member, and what a printed value is made of: no
byte of it is a control, so nothing in it can be taken for a delimiter.
-/

namespace FloodMesh
namespace Json

/-! ## Members of records -/

section Slots

variable {rest : Bytes}

theorem Slot.read_of_head (slot : Slot) {b : UInt8} (h : b ≠ 0x6e) (rest : Bytes) :
    slot.read (b :: rest) = slot.readPresent (b :: rest) := by
  simp [Slot.read, h]

theorem Slot.read_text (opt : Bool) (s : String) (rest : Bytes) :
    (Slot.text opt).read (print (.text s) ++ rest) = some (.text s, rest) := by
  have hread := readText_print s rest
  have hhead : printText s ++ rest =
      0x22 :: ((Bytes.ofString s).flatMap escapeByte ++ [0x22] ++ rest) := rfl
  rw [print, hhead, Slot.read_of_head _ (by decide), ← hhead, Slot.readPresent, hread]
  rfl

theorem Slot.read_ofNat (opt : Bool) {n : Nat} {least greatest : Int} (hn : n < UInt64.size)
    (hlow : least ≤ n) (hhigh : n ≤ greatest) (h : Stops rest) :
    (Slot.integer opt least greatest).read (print (.ofNat n) ++ rest) = some (.integer n, rest) := by
  obtain ⟨b, tail, htext, hb⟩ := (Number.integer n).format_text.head
  have hne : b ≠ 0x6e := by
    rcases hb with rfl | hb
    · decide
    · exact ne_of_isDigit hb rfl
  have hread := (Number.integer n).readNumber_format h
  rw [Number.reread_natCast hn, Option.map_some] at hread
  have hhead : print (.ofNat n) ++ rest = b :: (tail ++ rest) := by
    rw [Json.ofNat, print, htext, List.cons_append]
  rw [hhead, Slot.read_of_head _ hne, ← hhead, Slot.readPresent, Json.ofNat, print, hread]
  exact if_pos ⟨hlow, hhigh⟩

end Slots

/-- A member of an object from which a record is read: its name, its value, and what is found of
it. -/
structure Schema.Entry (schema : Schema) where
  name : String
  value : Json
  found : Option Datum
  read_value : ∀ rest, Stops rest →
    schema.readField name (print value ++ rest) = some (found, rest)

namespace Schema

variable {schema : Schema}

/-- An entry of a known name. -/
def Entry.known (name : String) (value : Json) (datum : Datum) {slot : Slot}
    (hslot : schema.lookup name = some slot)
    (hread : ∀ rest, Stops rest → slot.read (print value ++ rest) = some (datum, rest)) :
    schema.Entry where
  name := name
  value := value
  found := some datum
  read_value rest h := by
    rw [readField, hslot]
    simp only [hread rest h, Option.map_some]

theorem read_print (e : schema.Entry) (es : List schema.Entry) (rest : Bytes) :
    schema.read (print (.object ((e :: es).map fun e => (e.name, e.value))) ++ rest) =
      (schema.ofMembers? ((e :: es).map fun e => (e.name, e.found))).map fun ds => (ds, rest) := by
  have hbrace : Closes 0x7d := ⟨by decide, by decide, by decide⟩
  have hhead : ∀ e : schema.Entry,
      ∃ b rest, printMember (e.name, e.value) = b :: rest ∧ isBlank b = false ∧ b ≠ 0x7d :=
    fun e => ⟨0x22, _, rfl, by decide, by decide⟩
  have hitem : ∀ (e : schema.Entry) rest, Stops rest →
      readMember readText schema.readField (printMember (e.name, e.value) ++ rest) =
        (some (e.name, e.found)).map fun w => (w, rest) :=
    fun e rest h => by
      have hvalue : schema.readField e.name (print e.value ++ rest) =
          (some e.found).map fun v => (v, rest) := e.read_value rest h
      exact readMember_print (m := (e.name, e.value)) hvalue
  have hall : (e :: es).mapM (fun e => some (e.name, e.found)) =
      some ((e :: es).map fun e => (e.name, e.found)) := List.mapM_pure
  have hprint : print (.object ((e :: es).map fun e => (e.name, e.value))) ++ rest =
      0x7b :: (printMember (e.name, e.value) ++
        (commaed (es.map fun e => printMember (e.name, e.value)) ++ 0x7d :: rest)) := by
    simp [print, printMembers_eq, printMember, Function.comp_def]
  have hlist := readList_texts hbrace hhead hitem es e rest
  rw [hall, Option.map_some] at hlist
  rw [hprint, Schema.read, hlist]

end Schema

/-! ## Whole texts -/

/-- What is read of a printed value up to its end is what the text holds. -/
theorem whole?_print {α : Type} {reader : Reader α} {v : Json} {a : α}
    (h : reader (print v) = some (a, [])) : whole? reader (print v) = some a := by
  obtain ⟨b, rest, hprint, hblank, _⟩ := print_head v
  rw [hprint] at h ⊢
  rw [whole?, skipBlank_cons hblank, h]
  rfl

/-- A list is read back if each of its items is. -/
theorem readList_print {α β : Type} {read : Reader β} {value : α → Json} {found : α → β}
    (hread : ∀ a rest, Stops rest → read (print (value a) ++ rest) = some (found a, rest))
    (as : List α) :
    ∃ rest, print (.array (as.map value)) = 0x5b :: rest ∧
      readList 0x5d read rest = some (as.map found, []) := by
  cases as with
  | nil => exact ⟨[0x5d], rfl, rfl⟩
  | cons a as =>
    have hbracket : Closes 0x5d := ⟨by decide, by decide, by decide⟩
    have hhead : ∀ a, ∃ b rest, print (value a) = b :: rest ∧ isBlank b = false ∧ b ≠ 0x5d := by
      intro a
      obtain ⟨b, rest, hprint, hblank, hne, _⟩ := print_head (value a)
      exact ⟨b, rest, hprint, hblank, hne⟩
    have hitem : ∀ a rest, Stops rest → read (print (value a) ++ rest) =
        (some (found a)).map fun w => (w, rest) := hread
    have hlist := readList_texts hbracket hhead hitem as a []
    have hall : (a :: as).mapM (fun a => some (found a)) = some ((a :: as).map found) :=
      List.mapM_pure
    rw [hall, Option.map_some] at hlist
    refine ⟨_, ?_, hlist⟩
    simp [print, printItems_eq, Function.comp_def]

/-! ## No controls -/

/-- No byte is a control of the ASCII range. -/
def Visible (bytes : Bytes) : Prop := ∀ b ∈ bytes, 0x20 ≤ b

instance (bytes : Bytes) : Decidable (Visible bytes) :=
  inferInstanceAs (Decidable (∀ b ∈ bytes, 0x20 ≤ b))

namespace Visible

theorem append {a b : Bytes} (ha : Visible a) (hb : Visible b) : Visible (a ++ b) := by
  intro c hc
  rcases List.mem_append.mp hc with hc | hc
  · exact ha c hc
  · exact hb c hc

theorem cons {b : UInt8} {bytes : Bytes} (hb : 0x20 ≤ b) (h : Visible bytes) :
    Visible (b :: bytes) := by
  intro c hc
  rcases List.mem_cons.mp hc with rfl | hc
  · exact hb
  · exact h c hc

theorem nil : Visible [] := fun _ h => nomatch h

theorem not_mem {bytes : Bytes} (h : Visible bytes) : 0x0d ∉ bytes :=
  fun hmem => absurd (h _ hmem) (by decide)

end Visible

theorem Digits.visible {ds : Bytes} (h : Digits ds) : Visible ds := by
  intro b hb
  have hdigit := h.2 b hb
  simp only [isDigit, Bool.and_eq_true, decide_eq_true_eq, UInt8.le_iff_toNat_le] at hdigit
  rw [UInt8.le_iff_toNat_le]
  exact Nat.le_trans (by decide) hdigit.1

theorem NumberText.visible {text : Bytes} (h : NumberText text) : Visible text := by
  obtain ⟨hsign, hwhole, hfraction, hexponent⟩ := h
  refine .append ?_ (.append hwhole.visible (.append ?_ ?_))
  · rcases hsign with rfl | rfl
    · exact .nil
    · exact .cons (by decide) .nil
  · rcases hfraction with rfl | ⟨ds, hds, rfl⟩
    · exact .nil
    · exact .cons (by decide) hds.visible
  · rcases hexponent with rfl | ⟨s, ds, hs, hds, rfl⟩
    · exact .nil
    · refine .cons (by decide) (.cons ?_ hds.visible)
      rcases hs with rfl | rfl <;> decide

theorem visible_printText (s : String) : Visible (printText s) := by
  -- As a test of the list: as a statement about all bytes in it, it would be decided byte by byte.
  have hescape : ∀ n : Fin 256, (escapeByte (UInt8.ofNat n)).all (fun b => 0x20 ≤ b) = true := by
    decide +kernel
  refine .append (.cons (by decide) fun b hb => ?_) (.cons (by decide) .nil)
  obtain ⟨c, _, hb⟩ := List.mem_flatMap.mp hb
  have hall := hescape ⟨c.toNat, c.toNat_lt⟩
  rw [UInt8.ofNat_toNat, List.all_eq_true] at hall
  exact of_decide_eq_true (hall b hb)

mutual

theorem visible_print : ∀ v : Json, Visible (print v)
  | .null => by decide +kernel
  | .bool true => by decide +kernel
  | .bool false => by decide +kernel
  | .number n => by rw [print]; exact n.format_text.visible
  | .text s => by rw [print]; exact visible_printText s
  | .array [] => by rw [print]; exact .cons (by decide) (.cons (by decide) .nil)
  | .array (v :: vs) => by
    rw [print]
    exact .append (.append (.cons (by decide) (visible_print v)) (visible_printItems vs))
      (.cons (by decide) .nil)
  | .object [] => by rw [print]; exact .cons (by decide) (.cons (by decide) .nil)
  | .object ((name, v) :: ms) => by
    rw [print]
    exact .append (.append (.append (.cons (by decide) (visible_printText name))
      (.cons (by decide) (visible_print v))) (visible_printMembers ms)) (.cons (by decide) .nil)

theorem visible_printItems : ∀ vs : List Json, Visible (printItems vs)
  | [] => .nil
  | v :: vs => by
    rw [printItems]
    exact .append (.cons (by decide) (visible_print v)) (visible_printItems vs)

theorem visible_printMembers : ∀ ms : List (String × Json), Visible (printMembers ms)
  | [] => .nil
  | (name, v) :: ms => by
    rw [printMembers]
    exact .append (.append (.cons (by decide) (visible_printText name))
      (.cons (by decide) (visible_print v))) (visible_printMembers ms)

end

end Json
end FloodMesh
