import FloodMesh.Json.Parser
import FloodMesh.Json.Printer
import FloodMesh.Proofs.Bytes
import Mathlib.Data.List.TakeDrop

/-!
# FloodMesh.Proofs.Json.Numeral

Numbers on the wire. A reader of a number stops where the number's text ends, whatever follows
unless it could carry the number on, and the text of an integer reads back as that integer.
-/

namespace FloodMesh

/-! ## Reading is not disturbed by what follows -/

namespace Json

/-- A byte that could carry a number on. -/
def carriesOn (b : UInt8) : Bool :=
  isDigit b || b == 0x2e || b == 0x65 || b == 0x45 || b == 0x2b || b == 0x2d

/-- The input does not begin with what could carry a number on. -/
def Stops (rest : Bytes) : Prop := ∀ b ∈ rest.head?, carriesOn b = false

theorem stops_cons {b : UInt8} (h : carriesOn b = false) (rest : Bytes) : Stops (b :: rest) := by
  intro c hc
  cases hc
  exact h

namespace Stops

variable {rest : Bytes}

theorem cons_ne {b : UInt8} {tail : Bytes} (h : Stops (b :: tail)) :
    isDigit b = false ∧ b ≠ 0x2e ∧ b ≠ 0x65 ∧ b ≠ 0x45 ∧ b ≠ 0x2b ∧ b ≠ 0x2d := by
  have hb := h b rfl
  simpa [carriesOn, and_assoc] using hb

end Stops

theorem span_append {α : Type} (p : α → Bool) (front rest : List α)
    (h : ∀ a ∈ rest.head?, p a = false) :
    (front ++ rest).span p = ((front.span p).1, (front.span p).2 ++ rest) := by
  simp only [List.span_eq_takeWhile_dropWhile]
  induction front with
  | nil =>
    cases rest with
    | nil => rfl
    | cons a rest => simp [h a rfl]
  | cons a front ih =>
    by_cases ha : p a = true
    · simpa [ha] using ih
    · simp [ha]

theorem scanDigits_append (front : Bytes) {rest : Bytes} (h : Stops rest) :
    scanDigits (front ++ rest) = ((scanDigits front).1, (scanDigits front).2 ++ rest) := by
  have hstop : ∀ b ∈ rest.head?, isDigit b = false := by
    intro b hb
    have := h b hb
    simp only [carriesOn, Bool.or_eq_false_iff] at this
    exact this.1.1.1.1.1
  rw [scanDigits, scanDigits, span_append isDigit front rest hstop]

theorem scanWhole_append (front : Bytes) {rest : Bytes} (h : Stops rest) :
    scanWhole (front ++ rest) = (scanWhole front).map fun (w, left) => (w, left ++ rest) := by
  rw [scanWhole, scanWhole, scanDigits_append front h]
  rcases scanDigits front with ⟨_ | ⟨d, ds⟩, left⟩
  · rfl
  · by_cases hzero : d = 0 ∧ ds ≠ [] <;> simp [hzero]

theorem scanFraction_append (front : Bytes) {rest : Bytes} (h : Stops rest) :
    scanFraction (front ++ rest) =
      (scanFraction front).map fun (f, left) => (f, left ++ rest) := by
  cases front with
  | nil =>
    cases rest with
    | nil => rfl
    | cons b tail =>
      obtain ⟨_, hpoint, _⟩ := h.cons_ne
      simp [scanFraction, hpoint]
  | cons b front =>
    by_cases hpoint : b = 0x2e
    · subst hpoint
      rw [List.cons_append, scanFraction, scanFraction, scanDigits_append front h]
      rcases scanDigits front with ⟨_ | ⟨d, ds⟩, left⟩ <;> rfl
    · simp [scanFraction, hpoint]

/-- The digits of an exponent, after its sign. -/
def scanPlaces (negative : Bool) (bytes : Bytes) : Option ((Bool × List Nat) × Bytes) :=
  match scanDigits bytes with
  | ([], _) => none
  | (ds, rest) => some ((negative, ds), rest)

theorem scanPlaces_append (negative : Bool) (front : Bytes) {rest : Bytes} (h : Stops rest) :
    scanPlaces negative (front ++ rest) =
      (scanPlaces negative front).map fun (p, left) => (p, left ++ rest) := by
  rw [scanPlaces, scanPlaces, scanDigits_append front h]
  rcases scanDigits front with ⟨_ | ⟨d, ds⟩, left⟩ <;> rfl

theorem scanPower_unsigned {bytes : Bytes} (h : ∀ b ∈ bytes.head?, b ≠ 0x2b ∧ b ≠ 0x2d) :
    scanPower bytes = scanPlaces false bytes := by
  cases bytes with
  | nil => rfl
  | cons b rest =>
    obtain ⟨hplus, hminus⟩ := h b rfl
    simp [scanPower, hplus, hminus]
    rfl

theorem scanPower_append (front : Bytes) {rest : Bytes} (h : Stops rest) :
    scanPower (front ++ rest) = (scanPower front).map fun (p, left) => (p, left ++ rest) := by
  rcases front with _ | ⟨b, front⟩
  · have hsign : ∀ b ∈ rest.head?, b ≠ 0x2b ∧ b ≠ 0x2d := by
      intro b hb
      cases rest with
      | nil => cases hb
      | cons c tail =>
        cases hb
        exact ⟨h.cons_ne.2.2.2.2.1, h.cons_ne.2.2.2.2.2⟩
    rw [List.nil_append, scanPower_unsigned hsign]
    exact scanPlaces_append false [] h
  · by_cases hplus : b = 0x2b
    · subst hplus
      exact scanPlaces_append false front h
    · by_cases hminus : b = 0x2d
      · subst hminus
        exact scanPlaces_append true front h
      · have hsign : ∀ tail : Bytes, ∀ c ∈ (b :: tail).head?, c ≠ 0x2b ∧ c ≠ 0x2d := by
          intro tail c hc
          cases hc
          exact ⟨hplus, hminus⟩
        rw [List.cons_append, scanPower_unsigned (hsign _), scanPower_unsigned (hsign _)]
        exact scanPlaces_append false (b :: front) h

theorem scanExponent_append (front : Bytes) {rest : Bytes} (h : Stops rest) :
    scanExponent (front ++ rest) =
      (scanExponent front).map fun (e, left) => (e, left ++ rest) := by
  cases front with
  | nil =>
    cases rest with
    | nil => rfl
    | cons b tail =>
      obtain ⟨_, _, hlower, hupper, _⟩ := h.cons_ne
      simp [scanExponent, hlower, hupper]
  | cons b front =>
    by_cases hlower : b = 0x65
    · subst hlower
      rw [List.cons_append, scanExponent, scanExponent, scanPower_append front h]
      cases scanPower front <;> rfl
    · by_cases hupper : b = 0x45
      · subst hupper
        rw [List.cons_append, scanExponent, scanExponent, scanPower_append front h]
        cases scanPower front <;> rfl
      · simp [scanExponent, hlower, hupper]

/-- A number after its sign. -/
def scanMagnitude (negative : Bool) (bytes : Bytes) : Option (Numeral × Bytes) :=
  match scanWhole bytes with
  | none => none
  | some (whole, bytes) =>
    match scanFraction bytes with
    | none => none
    | some (fraction, bytes) =>
      match scanExponent bytes with
      | none => none
      | some (exponent, rest) => some (⟨negative, whole, fraction, exponent⟩, rest)

theorem scanMagnitude_append (negative : Bool) (front : Bytes) {rest : Bytes} (h : Stops rest) :
    scanMagnitude negative (front ++ rest) =
      (scanMagnitude negative front).map fun (m, left) => (m, left ++ rest) := by
  rw [scanMagnitude, scanMagnitude, scanWhole_append front h]
  rcases scanWhole front with _ | ⟨whole, bytes⟩
  · rfl
  · simp only [Option.map_some, scanFraction_append bytes h]
    rcases scanFraction bytes with _ | ⟨fraction, bytes⟩
    · rfl
    · simp only [Option.map_some, scanExponent_append bytes h]
      rcases scanExponent bytes with _ | ⟨exponent, left⟩ <;> rfl

theorem scanNumeral_unsigned {bytes : Bytes} (h : ∀ b ∈ bytes.head?, b ≠ 0x2d) :
    scanNumeral bytes = scanMagnitude false bytes := by
  cases bytes with
  | nil => rfl
  | cons b rest =>
    have hminus := h b rfl
    simp [scanNumeral, hminus]
    rfl

theorem scanNumeral_append (front : Bytes) {rest : Bytes} (h : Stops rest) :
    scanNumeral (front ++ rest) =
      (scanNumeral front).map fun (m, left) => (m, left ++ rest) := by
  rcases front with _ | ⟨b, front⟩
  · have hsign : ∀ b ∈ rest.head?, b ≠ 0x2d := by
      intro b hb
      cases rest with
      | nil => cases hb
      | cons c tail =>
        cases hb
        exact h.cons_ne.2.2.2.2.2
    rw [List.nil_append, scanNumeral_unsigned hsign]
    exact scanMagnitude_append false [] h
  · by_cases hminus : b = 0x2d
    · subst hminus
      exact scanMagnitude_append true front h
    · have hsign : ∀ tail : Bytes, ∀ c ∈ (b :: tail).head?, c ≠ 0x2d := by
        intro tail c hc
        cases hc
        exact hminus
      rw [List.cons_append, scanNumeral_unsigned (hsign _), scanNumeral_unsigned (hsign _)]
      exact scanMagnitude_append false (b :: front) h

theorem readNumber_append (front : Bytes) {rest : Bytes} (h : Stops rest) :
    readNumber (front ++ rest) = (readNumber front).map fun (n, left) => (n, left ++ rest) := by
  rw [readNumber, readNumber, scanNumeral_append front h]
  rcases scanNumeral front with _ | ⟨m, left⟩
  · rfl
  · simp only [Option.map_some]
    cases Number.ofNumeral? m <;> rfl

/-! ## The texts of numbers -/

/-- Digits, of which there is at least one. -/
def Digits (bytes : Bytes) : Prop := bytes ≠ [] ∧ ∀ b ∈ bytes, isDigit b = true

/-- The texts of numbers: a sign if need be, digits, a point with digits, an exponent that always
has its sign. -/
inductive NumberText : Bytes → Prop
  | intro {sign whole fraction exponent : Bytes} (hsign : sign = [] ∨ sign = [0x2d])
      (hwhole : Digits whole) (hfraction : fraction = [] ∨ ∃ ds, Digits ds ∧ fraction = 0x2e :: ds)
      (hexponent : exponent = [] ∨
        ∃ s ds, (s = 0x2b ∨ s = 0x2d) ∧ Digits ds ∧ exponent = 0x65 :: s :: ds) :
      NumberText (sign ++ (whole ++ (fraction ++ exponent)))

theorem scanDigits_of_digits {ds : Bytes} (h : Digits ds) {rest : Bytes}
    (hrest : ∀ b ∈ rest.head?, isDigit b = false) :
    scanDigits (ds ++ rest) = (ds.map fun b => b.toNat - 0x30, rest) := by
  have hstop : rest.takeWhile isDigit = [] ∧ rest.dropWhile isDigit = rest := by
    cases rest with
    | nil => exact ⟨rfl, rfl⟩
    | cons b rest => simp [hrest b rfl]
  simp [scanDigits, List.takeWhile_append_of_pos h.2, List.dropWhile_append_of_pos h.2, hstop]

theorem digits_end : ∀ b ∈ ([] : Bytes).head?, isDigit b = false := fun _ hb => nomatch hb

theorem Digits.map_ne_nil {ds : Bytes} (h : Digits ds) :
    (ds.map fun b => b.toNat - 0x30) ≠ [] := by
  simpa using h.1

/-- A scanner takes a number's text as a whole or refuses it. -/
theorem scanMagnitude_whole {negative : Bool} {whole fraction exponent : Bytes}
    (hwhole : Digits whole) (hfraction : fraction = [] ∨ ∃ ds, Digits ds ∧ fraction = 0x2e :: ds)
    (hexponent : exponent = [] ∨
      ∃ s ds, (s = 0x2b ∨ s = 0x2d) ∧ Digits ds ∧ exponent = 0x65 :: s :: ds)
    {m : Numeral} {left : Bytes}
    (h : scanMagnitude negative (whole ++ (fraction ++ exponent)) = some (m, left)) : left = [] := by
  have hexp : ∃ e, scanExponent exponent = some (e, []) := by
    rcases hexponent with rfl | ⟨s, ds, hs, hds, rfl⟩
    · exact ⟨none, rfl⟩
    · have hscan := scanDigits_of_digits hds digits_end
      rw [List.append_nil] at hscan
      obtain ⟨d, rest, hmap⟩ := List.exists_cons_of_ne_nil hds.map_ne_nil
      rw [hmap] at hscan
      rcases hs with rfl | rfl <;> simp [scanExponent, scanPower, hscan]
  have hexpHead : ∀ b ∈ exponent.head?, isDigit b = false ∧ b ≠ 0x2e := by
    intro b hb
    rcases hexponent with rfl | ⟨s, ds, _, _, rfl⟩
    · cases hb
    · cases hb
      decide
  obtain ⟨e, hexp⟩ := hexp
  have hfrac : ∃ f, scanFraction (fraction ++ exponent) = some (f, exponent) := by
    rcases hfraction with rfl | ⟨ds, hds, rfl⟩
    · refine ⟨none, ?_⟩
      cases exponent with
      | nil => rfl
      | cons b rest =>
        have hpoint := (hexpHead b rfl).2
        simp [scanFraction, hpoint]
    · have hstop : ∀ b ∈ exponent.head?, isDigit b = false := fun b hb => (hexpHead b hb).1
      have hscan := scanDigits_of_digits hds hstop
      obtain ⟨d, rest, hmap⟩ := List.exists_cons_of_ne_nil hds.map_ne_nil
      rw [hmap] at hscan
      exact ⟨some (d :: rest), by simp [scanFraction, hscan]⟩
  obtain ⟨f, hfrac⟩ := hfrac
  have hrest : ∀ b ∈ (fraction ++ exponent).head?, isDigit b = false := by
    intro b hb
    rcases hfraction with rfl | ⟨ds, _, rfl⟩
    · exact (hexpHead b hb).1
    · cases hb
      decide
  have hscan := scanDigits_of_digits hwhole hrest
  obtain ⟨d, rest, hmap⟩ := List.exists_cons_of_ne_nil hwhole.map_ne_nil
  rw [hmap] at hscan
  rw [scanMagnitude, scanWhole, hscan] at h
  by_cases hzero : d = 0 ∧ rest ≠ []
  · simp [hzero] at h
  · simp only [hzero, if_false, hfrac, hexp, Option.some.injEq, Prod.mk.injEq] at h
    exact h.2.symm

namespace NumberText

variable {text : Bytes}

theorem head (h : NumberText text) : ∃ b rest, text = b :: rest ∧ (b = 0x2d ∨ isDigit b = true) := by
  obtain ⟨hsign, hwhole, _, _⟩ := h
  rcases hsign with rfl | rfl
  · obtain ⟨b, rest, rfl⟩ := List.exists_cons_of_ne_nil hwhole.1
    exact ⟨b, _, rfl, .inr (hwhole.2 b List.mem_cons_self)⟩
  · exact ⟨0x2d, _, rfl, .inl rfl⟩

theorem scanNumeral_eq (h : NumberText text) {m : Numeral} {left : Bytes}
    (hscan : scanNumeral text = some (m, left)) : left = [] := by
  obtain ⟨hsign, hwhole, hfraction, hexponent⟩ := h
  rcases hsign with rfl | rfl
  · rw [List.nil_append, scanNumeral_unsigned] at hscan
    · exact scanMagnitude_whole hwhole hfraction hexponent hscan
    · intro b hb hminus
      obtain ⟨d, rest, rfl⟩ := List.exists_cons_of_ne_nil hwhole.1
      cases hb
      have hdigit := hwhole.2 b List.mem_cons_self
      rw [hminus] at hdigit
      cases hdigit
  · have hscan : scanMagnitude true _ = _ := hscan
    exact scanMagnitude_whole hwhole hfraction hexponent hscan

end NumberText

end Json

/-! ## What is printed is such a text -/

section Printed

open Json (Digits NumberText isDigit)

theorem digits_map {cs : List Char} (hne : cs ≠ []) (h : ∀ c ∈ cs, c.isDigit = true) :
    Digits (cs.map Bytes.ofAscii) := by
  refine ⟨by simpa using hne, fun b hb => ?_⟩
  obtain ⟨c, hc, rfl⟩ := List.mem_map.mp hb
  obtain ⟨hlow, hhigh⟩ := Bytes.lt_of_isDigit (h c hc)
  have hbyte : (Bytes.ofAscii c).toNat = c.toNat := Nat.mod_eq_of_lt (by omega)
  simp only [isDigit, Bool.and_eq_true, decide_eq_true_eq, UInt8.le_iff_toNat_le, hbyte]
  exact ⟨hlow, Nat.le_of_lt_succ hhigh⟩

theorem digits_ofList {cs : List Char} (hne : cs ≠ []) (h : ∀ c ∈ cs, c.isDigit = true) :
    Digits (Bytes.ofString (String.ofList cs)) := by
  rw [Bytes.ofString_ascii]
  · exact digits_map hne h
  · intro c hc
    have hlt := (Bytes.lt_of_isDigit (h c hc)).2
    omega

theorem isDigit_toDigits {n : Nat} {c : Char} (h : c ∈ Nat.toDigits 10 n) : c.isDigit = true :=
  Nat.isDigit_of_mem_toDigits (by decide) (by decide) h

theorem digits_repr (n : Nat) : Digits (Bytes.ofString (Nat.repr n)) := by
  rw [Nat.repr_eq_ofList_toDigits]
  exact digits_ofList Nat.toDigits_ne_nil fun c hc => isDigit_toDigits hc

theorem exponentText_eq (e : Int) : ∃ s ds, (s = 0x2b ∨ s = 0x2d) ∧ Digits ds ∧
    Bytes.ofString (Decimal.exponentText e) = 0x65 :: s :: ds := by
  rw [Decimal.exponentText, Bytes.ofString_append]
  by_cases he : e < 0
  · rw [if_pos he]
    exact ⟨0x2d, _, .inr rfl, digits_repr _, rfl⟩
  · rw [if_neg he]
    exact ⟨0x2b, _, .inl rfl, digits_repr _, rfl⟩

theorem digits_zeros {ds : List Char} (h : ∀ c ∈ ds, c.isDigit = true) (n : Nat) :
    ∀ c ∈ List.replicate n '0' ++ ds, c.isDigit = true := by
  intro c hc
  rcases List.mem_append.mp hc with hc | hc
  · rw [(List.mem_replicate.mp hc).2]
    decide
  · exact h c hc

section Layout

variable {ds : List Char} (hne : ds ≠ []) (hds : ∀ c ∈ ds, c.isDigit = true)
  {sign : Bytes} (hsign : sign = [] ∨ sign = [0x2d])

include hne hds hsign

theorem numberText_small (n : Nat) : NumberText (sign ++ Bytes.ofString
    ("0." ++ String.ofList (List.replicate n '0' ++ ds))) := by
  have hwhole : Digits [0x30] := ⟨by simp, by simp [isDigit]⟩
  have hfraction := digits_ofList (by simp [hne]) (digits_zeros hds n)
  have htext := NumberText.intro hsign hwhole (.inr ⟨_, hfraction, rfl⟩) (.inl rfl)
  rw [List.append_nil] at htext
  rw [Bytes.ofString_append]
  exact htext

theorem numberText_pointed (places zeros : Nat) (hplaces : 0 < places) :
    NumberText (sign ++ Bytes.ofString
      (String.ofList (ds.take places ++ List.replicate zeros '0') ++ "." ++
        (if ds.drop places = [] then "0" else String.ofList (ds.drop places)))) := by
  have hwhole : Digits (Bytes.ofString
      (String.ofList (ds.take places ++ List.replicate zeros '0'))) := by
    refine digits_ofList (by simp [hne, Nat.ne_of_gt hplaces]) fun c hc => ?_
    rcases List.mem_append.mp hc with hc | hc
    · exact hds c (List.mem_of_mem_take hc)
    · rw [(List.mem_replicate.mp hc).2]
      decide
  have hfraction : Digits (Bytes.ofString
      (if ds.drop places = [] then "0" else String.ofList (ds.drop places))) := by
    by_cases hrest : ds.drop places = []
    · rw [if_pos hrest]
      exact digits_repr 0
    · rw [if_neg hrest]
      exact digits_ofList hrest fun c hc => hds c (List.mem_of_mem_drop hc)
  have htext := NumberText.intro hsign hwhole (.inr ⟨_, hfraction, rfl⟩) (.inl rfl)
  rw [List.append_nil] at htext
  rw [Bytes.ofString_append, Bytes.ofString_append, List.append_assoc]
  exact htext

theorem numberText_scaled (e : Int) : NumberText (sign ++ Bytes.ofString
    (String.ofList (ds.take 1) ++
      (if ds.drop 1 = [] then "" else "." ++ String.ofList (ds.drop 1)) ++
      Decimal.exponentText e)) := by
  have hwhole : Digits (Bytes.ofString (String.ofList (ds.take 1))) :=
    digits_ofList (by simp [hne]) fun c hc => hds c (List.mem_of_mem_take hc)
  rw [Bytes.ofString_append, Bytes.ofString_append, List.append_assoc]
  refine NumberText.intro hsign hwhole ?_ (.inr (exponentText_eq e))
  by_cases hrest : ds.drop 1 = []
  · rw [if_pos hrest]
    exact .inl rfl
  · rw [if_neg hrest, Bytes.ofString_append]
    exact .inr ⟨_, digits_ofList hrest fun c hc => hds c (List.mem_of_mem_drop hc), rfl⟩

end Layout

theorem layout_text (l : Decimal.Layout) (coefficient : Nat) (k : Int) {sign : Bytes}
    (hsign : sign = [] ∨ sign = [0x2d]) :
    NumberText (sign ++ Bytes.ofString (l.text coefficient k)) := by
  have hds : ∀ c ∈ Nat.toDigits 10 coefficient, c.isDigit = true := fun c hc => isDigit_toDigits hc
  have hne : Nat.toDigits 10 coefficient ≠ [] := Nat.toDigits_ne_nil
  rw [Decimal.Layout.text]
  generalize (((Nat.toDigits 10 coefficient).length : Int) - 1 + k) = order
  dsimp only
  by_cases hplain : l.leastOrder ≤ order ∧ order ≤ l.greatestOrder
  · rw [if_pos hplain]
    by_cases hneg : order < 0
    · rw [if_pos hneg]
      exact numberText_small hne hds hsign _
    · rw [if_neg hneg]
      exact numberText_pointed hne hds hsign _ _ (Nat.succ_pos _)
  · rw [if_neg hplain]
    exact numberText_scaled hne hds hsign order

/-- What is printed for a number is a number's text. -/
theorem Number.format_text (n : Number) : NumberText (Bytes.ofString n.format) := by
  cases n with
  | integer n =>
    by_cases hneg : n < 0
    · have htext := NumberText.intro (.inr rfl) (digits_repr n.natAbs) (.inl rfl) (.inl rfl)
      rw [List.append_nil, List.append_nil] at htext
      rw [Number.format, if_pos hneg, Bytes.ofString_append]
      exact htext
    · have htext := NumberText.intro (.inl rfl) (digits_repr n.natAbs) (.inl rfl) (.inl rfl)
      rw [List.append_nil, List.append_nil] at htext
      rw [Number.format, if_neg hneg]
      exact htext
  | real x =>
    have hsign : Bytes.ofString (if x.negative then "-" else "") = [] ∨
        Bytes.ofString (if x.negative then "-" else "") = [0x2d] := by
      cases x.negative
      · exact .inl rfl
      · exact .inr rfl
    rw [Number.format, Decimal.Layout.format, Bytes.ofString_append]
    by_cases hzero : x.isZero = true
    · rw [if_pos hzero]
      have hdigits : Digits [0x30] := ⟨by simp, by simp [isDigit]⟩
      exact NumberText.intro hsign hdigits (.inr ⟨_, hdigits, rfl⟩) (.inl rfl)
    · rw [if_neg hzero]
      exact layout_text _ _ _ hsign

end Printed

/-- What a reader makes of a number's text. -/
def Number.reread (n : Number) : Option Number :=
  (Json.readNumber (Bytes.ofString n.format)).map (·.1)

/-- A reader takes a number's text as a whole, or refuses it, if nothing behind carries it on. -/
theorem Number.readNumber_format (n : Number) {rest : Bytes} (h : Json.Stops rest) :
    Json.readNumber (Bytes.ofString n.format ++ rest) = n.reread.map fun m => (m, rest) := by
  rw [Json.readNumber_append _ h, Number.reread, Json.readNumber]
  rcases hscan : Json.scanNumeral (Bytes.ofString n.format) with _ | ⟨m, left⟩
  · rfl
  · have hleft := n.format_text.scanNumeral_eq hscan
    subst hleft
    simp only [Option.map_map]
    rfl

/-! ## Integers read back -/

section Integers

open Json (Digits)

theorem head_toDigits {n : Nat} (h : n ≠ 0) : (Nat.toDigits 10 n).head? ≠ some '0' := by
  induction n using Nat.strongRecOn with
  | ind n ih =>
    by_cases hn : n < 10
    · rw [Nat.toDigits_of_lt_base hn]
      have hall : ∀ m : Fin 10, m.val ≠ 0 → [Nat.digitChar m.val].head? ≠ some '0' := by decide
      exact hall ⟨n, hn⟩ h
    · have hlead := ih (n / 10) (by omega) (by omega)
      obtain ⟨c, cs, hcs⟩ := List.exists_cons_of_ne_nil (Nat.toDigits_ne_nil (n := n / 10) (b := 10))
      rw [Nat.toDigits_of_base_le (by decide) (by omega), hcs]
      rwa [hcs] at hlead

theorem le_foldl_digits (ds : List Nat) (c : Nat) : c ≤ ds.foldl (fun n d => 10 * n + d) c := by
  induction ds generalizing c with
  | nil => exact Nat.le_refl c
  | cons d ds ih => exact Nat.le_trans (by omega) (ih (10 * c + d))

theorem collectWhole_eq {ds : List Nat} (h : ds.foldl (fun n d => 10 * n + d) 0 < UInt64.size) :
    Number.collectWhole ds = (ds.foldl (fun n d => 10 * n + d) 0, 0) := by
  have hfrom : ∀ (ds : List Nat) (c : Nat), ds.foldl (fun n d => 10 * n + d) c < UInt64.size →
      ds.foldl (fun (x : Nat × Nat) d =>
        if x.2 = 0 ∧ 10 * x.1 + d < UInt64.size then (10 * x.1 + d, 0) else (x.1, x.2 + 1)) (c, 0) =
      (ds.foldl (fun n d => 10 * n + d) c, 0) := by
    intro ds
    induction ds with
    | nil => intro c _; rfl
    | cons d ds ih =>
      intro c hc
      rw [List.foldl_cons] at hc
      have hfits : 10 * c + d < UInt64.size := Nat.lt_of_le_of_lt (le_foldl_digits ds _) hc
      rw [List.foldl_cons, List.foldl_cons, if_pos ⟨rfl, hfits⟩]
      exact ih _ hc
  exact hfrom ds 0 h

/-- The digits of a number as a scanner sees them. -/
def digitsOf (n : Nat) : List Nat := (Nat.toDigits 10 n).map fun c => c.toNat - 48

theorem foldl_digitsOf (n : Nat) : (digitsOf n).foldl (fun n d => 10 * n + d) 0 = n := by
  have hvalue := Nat.ofDigitChars_ten_toDigits (n := n)
  rw [Nat.ofDigitChars_eq_foldl] at hvalue
  rw [digitsOf, List.foldl_map]
  exact hvalue

theorem scanWhole_repr (n : Nat) :
    Json.scanWhole (Bytes.ofString (Nat.repr n)) = some (digitsOf n, []) := by
  have hscan := Json.scanDigits_of_digits (digits_repr n) Json.digits_end
  have hdigits : ((Bytes.ofString (Nat.repr n)).map fun b => b.toNat - 0x30) = digitsOf n := by
    rw [Bytes.ofString_repr, List.map_map, digitsOf]
    refine List.map_congr_left fun c hc => ?_
    have hlt := (Bytes.lt_of_isDigit (isDigit_toDigits hc)).2
    have hbyte : (Bytes.ofAscii c).toNat = c.toNat := Nat.mod_eq_of_lt (by omega)
    simp [hbyte]
  rw [List.append_nil, hdigits] at hscan
  rw [Json.scanWhole, hscan]
  rcases hds : digitsOf n with _ | ⟨d, ds⟩
  · simp [digitsOf] at hds
  · have hlead : ¬ (d = 0 ∧ ds ≠ []) := by
      rintro ⟨rfl, hne⟩
      rcases hchars : Nat.toDigits 10 n with _ | ⟨c, cs⟩
      · simp [digitsOf, hchars] at hds
      · simp only [digitsOf, hchars, List.map_cons, List.cons.injEq] at hds
        have hc := Bytes.lt_of_isDigit (isDigit_toDigits (hchars ▸ List.mem_cons_self))
        have hzero : c = '0' := by
          apply Char.toNat_inj.mp
          show c.toNat = 48
          omega
        have hn : n ≠ 0 := by
          rintro rfl
          rw [Nat.toDigits_zero] at hchars
          simp only [List.cons.injEq] at hchars
          exact hne (by rw [← hds.2, ← hchars.2]; rfl)
        exact head_toDigits hn (by rw [hchars, hzero]; rfl)
    simp [hlead]

/-- An integer of 64 bits, signed or not, reads back. -/
theorem Number.reread_integer {n : Int}
    (hlow : Int64.minValue.toInt ≤ n) (hhigh : n < UInt64.size) :
    (Number.integer n).reread = some (.integer n) := by
  have hmin : Int64.minValue.toInt = -(UInt64.size / 2) := by decide
  have hmagnitude : ∀ negative : Bool,
      Json.scanMagnitude negative (Bytes.ofString (Nat.repr n.natAbs)) =
        some (⟨negative, digitsOf n.natAbs, none, none⟩, []) := by
    intro negative
    rw [Json.scanMagnitude, scanWhole_repr]
    rfl
  have hfits : (digitsOf n.natAbs).foldl (fun n d => 10 * n + d) 0 < UInt64.size := by
    rw [foldl_digitsOf]
    omega
  have hwhole := collectWhole_eq hfits
  rw [foldl_digitsOf] at hwhole
  rw [Number.reread, Json.readNumber, Number.format]
  by_cases hneg : n < 0
  · have hscan : Json.scanNumeral (Bytes.ofString ("-" ++ Nat.repr n.natAbs)) =
        some (⟨true, digitsOf n.natAbs, none, none⟩, []) := by
      rw [Bytes.ofString_append]
      exact hmagnitude true
    have hpos : 0 < n.natAbs ∧ n.natAbs ≤ UInt64.size / 2 := by omega
    have hvalue : -(n.natAbs : Int) = n := by omega
    rw [if_pos hneg, hscan]
    simp only [Option.map_some, Number.ofNumeral?, hwhole, hpos, hvalue, and_self, or_true, if_true]
  · have hscan : Json.scanNumeral (Bytes.ofString (Nat.repr n.natAbs)) =
        some (⟨false, digitsOf n.natAbs, none, none⟩, []) := by
      rw [Json.scanNumeral_unsigned]
      · exact hmagnitude false
      · intro b hb hminus
        have hdigit := (digits_repr n.natAbs).2 b (List.mem_of_mem_head? hb)
        rw [hminus] at hdigit
        cases hdigit
    have hvalue : (n.natAbs : Int) = n := by omega
    rw [if_neg hneg, hscan]
    simp [Number.ofNumeral?, hwhole, hvalue]

theorem Number.format_natCast (n : Nat) : Number.format (.integer n) = Nat.repr n := by
  rw [Number.format, if_neg (Int.not_lt.mpr (Int.natCast_nonneg n)), Int.natAbs_natCast]

theorem Number.reread_natCast {n : Nat} (h : n < UInt64.size) :
    (Number.integer n).reread = some (.integer n) := by
  have hmin : Int64.minValue.toInt ≤ 0 := by decide
  exact reread_integer (by omega) (by omega)

end Integers

end FloodMesh
