import FloodMesh.Proofs.Wire.Envelope
import FloodMesh.Wire.Response

/-!
# FloodMesh.Proofs.Wire.Argument

The arguments of requests. Every argument has a form, which says what its field has to hold and what
value it then has; arguments are read one after the other, and the first that is not good decides
the code of the reply.

* `Form.Denotes`: what a field holds and the value that an argument of a form has by it.
* `Reading`: a reader of one argument gives that value, or a fault with the field's code.
* `Outcome`: reading a list of arguments gives a value exactly if all are good, and otherwise the
  code of the first that is not. It is built up argument by argument.
-/

namespace FloodMesh

/-! ## Values of arguments -/

/-- The field holds a string or a number, and this is its text. -/
inductive Spelled : Option Json → String → Prop
  | text (s : String) : Spelled (some (.text s)) s
  | number (n : Number) : Spelled (some (.number n)) n.format

namespace Spelled

variable {v : Option Json} {s t : String}

theorem ne_none (h : Spelled v s) : v ≠ none := by
  cases h <;> simp

theorem unique (hs : Spelled v s) (ht : Spelled v t) : s = t := by
  cases hs <;> cases ht <;> rfl

end Spelled

/-- The forms of arguments. -/
inductive Form
  /-- A number of 64 bits. -/
  | count
  /-- A number of 16 bits. -/
  | port
  /-- A port that may be missing. -/
  | optionalPort
  /-- One digit. -/
  | digit
  /-- A text that is not empty. -/
  | name
  /-- Any text. -/
  | text
  deriving DecidableEq, Repr

namespace Form

/-- What an argument of a form is read as. -/
abbrev Value : Form → Type
  | count | digit => Nat
  | port => UInt16
  | optionalPort => Option UInt16
  | name | text => String

/-- A text gives an argument of the form a value. -/
def Reads : (form : Form) → String → form.Value → Prop
  | count, s, n => Text.Writes s n ∧ n < UInt64.size
  | port, s, p => Text.Writes s p.toNat
  | optionalPort, s, p => ∃ q : UInt16, p = some q ∧ Text.Writes s q.toNat
  | digit, s, n => ∃ c : Char, s.toList = [c] ∧ c.isDigit = true ∧ n = c.toNat - '0'.toNat
  | name, s, id => id = s ∧ s ≠ ""
  | text, s, given => given = s

/-- A missing field gives an argument of the form a value. -/
def Defaults : (form : Form) → form.Value → Prop
  | optionalPort, p => p = none
  | _, _ => False

/-- What a field holds, if anything, gives an argument of the form a value. -/
def Denotes (form : Form) (v : Option Json) (a : form.Value) : Prop :=
  (v = none ∧ form.Defaults a) ∨ ∃ s, Spelled v s ∧ form.Reads s a

/-- What a field holds, if anything, is good for an argument of the form. -/
def Accepts (form : Form) (v : Option Json) : Prop := ∃ a, form.Denotes v a

variable {form : Form} {v : Option Json} {s : String} {a : form.Value}

theorem denotes_none : form.Denotes none a ↔ form.Defaults a := by
  refine ⟨?_, fun h => .inl ⟨rfl, h⟩⟩
  rintro (⟨-, h⟩ | ⟨s, hs, -⟩)
  · exact h
  · cases hs

theorem denotes_spelled (hs : Spelled v s) : form.Denotes v a ↔ form.Reads s a := by
  refine ⟨?_, fun h => .inr ⟨s, hs, h⟩⟩
  rintro (⟨hnone, -⟩ | ⟨t, ht, h⟩)
  · exact absurd hnone hs.ne_none
  · rwa [hs.unique ht]

theorem not_denotes (hsome : v ≠ none) (hno : ∀ s, ¬ Spelled v s) : ¬ form.Denotes v a := by
  rintro (⟨hnone, -⟩ | ⟨s, hs, -⟩)
  · exact hsome hnone
  · exact hno s hs

/-- Only an optional argument may be missing. -/
theorem not_denotes_none (hform : form ≠ .optionalPort) : ¬ form.Denotes none a := by
  rw [denotes_none]
  cases form with
  | optionalPort => exact absurd rfl hform
  | _ => exact fun h => h

end Form

/-- The code that reports a field which is not accepted. -/
def faultCode (field : String) : Option Json → ErrorCode
  | none => if field = "port" then .noPort else .noNum
  | some _ => if field = "port" then .badPort else .badNum

theorem code_invalidField {v : Option Json} (hv : v ≠ none) (field : String) (why : FieldFault) :
    (ProtocolError.invalidField field why).code = faultCode field v := by
  cases v with
  | none => exact absurd rfl hv
  | some v => rfl

/-! ## Reading one argument -/

/-- What a reader of one argument yields. -/
structure Reading (field : String) (form : Form) (v : Option Json)
    (r : Except ProtocolError form.Value) : Prop where
  ok : ∀ a, r = .ok a ↔ form.Denotes v a
  error : ∀ e, r = .error e → e.code = faultCode field v

/-- What a converter of texts yields. -/
structure Converts (field : String) (form : Form)
    (convert : String → Except ProtocolError form.Value) : Prop where
  ok : ∀ s a, convert s = .ok a ↔ form.Reads s a
  error : ∀ s e, convert s = .error e → ∃ why, e = .invalidField field why

namespace Reading

variable {fields : Fields} {field : String} {form : Form}

theorem of_error {v : Option Json} {e : ProtocolError} (hno : ∀ a, ¬ form.Denotes v a)
    (hcode : e.code = faultCode field v) : Reading field form v (.error e) := by
  refine ⟨fun a => ⟨fun h => (nomatch h), fun h => absurd h (hno a)⟩, fun e' h => ?_⟩
  cases h
  exact hcode

theorem of_converts {v : Option Json} {s : String}
    {convert : String → Except ProtocolError form.Value} (hs : Spelled v s)
    (h : Converts field form convert) : Reading field form v (convert s) := by
  refine ⟨fun a => (h.ok s a).trans (Form.denotes_spelled hs).symm, fun e he => ?_⟩
  obtain ⟨why, rfl⟩ := h.error s e he
  exact code_invalidField hs.ne_none field why

/-- A field is missing, has a text, or holds what has none. -/
theorem scalar_cases (fields : Fields) (field : String) :
    (fields.get? field = none ∧ Message.scalar ⟨fields⟩ field = .ok none) ∨
    (∃ s, Spelled (fields.get? field) s ∧ Message.scalar ⟨fields⟩ field = .ok (some s)) ∨
    (fields.get? field ≠ none ∧ (∀ s, ¬ Spelled (fields.get? field) s) ∧
      ∃ why, Message.scalar ⟨fields⟩ field = .error (.invalidField field why)) := by
  rw [Message.scalar]
  cases fields.get? field with
  | none => exact .inl ⟨rfl, rfl⟩
  | some v =>
    cases v with
    | text s => exact .inr (.inl ⟨s, .text s, rfl⟩)
    | number n => exact .inr (.inl ⟨_, .number n, rfl⟩)
    | _ =>
      refine .inr (.inr ⟨by simp, fun _ h => ?_, _, rfl⟩)
      cases h

/-- An argument that has to be there is read by converting its text. -/
theorem of_require {convert : String → Except ProtocolError form.Value}
    (hform : form ≠ .optionalPort) (hconvert : Converts field form convert) :
    Reading field form (fields.get? field) ((Message.require ⟨fields⟩ field).bind convert) := by
  rcases scalar_cases fields field with ⟨hnone, h⟩ | ⟨s, hs, h⟩ | ⟨hsome, hno, why, h⟩ <;>
    rw [Message.require, h]
  · rw [hnone]
    exact of_error (fun a => Form.not_denotes_none hform) rfl
  · exact of_converts hs hconvert
  · exact of_error (fun a => Form.not_denotes hsome hno) (code_invalidField hsome field why)

/-- An argument that may be missing is read by converting its text if it is there. -/
theorem of_scalar {convert : String → Except ProtocolError form.Value} {missing : form.Value}
    (hform : ∀ a, form.Defaults a ↔ missing = a) (hconvert : Converts field form convert) :
    Reading field form (fields.get? field)
      ((Message.scalar ⟨fields⟩ field).bind fun s => s.elim (.ok missing) convert) := by
  rcases scalar_cases fields field with ⟨hnone, h⟩ | ⟨s, hs, h⟩ | ⟨hsome, hno, why, h⟩ <;> rw [h]
  · rw [hnone]
    refine ⟨fun a => ?_, fun e he => nomatch he⟩
    rw [Form.denotes_none, hform]
    exact ⟨Except.ok.inj, congrArg Except.ok⟩
  · exact of_converts hs hconvert
  · exact of_error (fun a => Form.not_denotes hsome hno) (code_invalidField hsome field why)

end Reading

namespace Converts

theorem text (field : String) : Converts field .text .ok := by
  refine ⟨fun s a => ?_, fun s e h => nomatch h⟩
  rw [Except.ok.injEq]
  exact eq_comm

/-- A converter that gives what a reader of texts gives, and a fault otherwise. -/
theorem of_option {field : String} {form : Form}
    {convert : String → Except ProtocolError form.Value} {read : String → Option form.Value}
    (hread : ∀ s a, read s = some a ↔ form.Reads s a)
    (hsome : ∀ s a, read s = some a → convert s = .ok a)
    (hnone : ∀ s, read s = none → ∃ why, convert s = .error (.invalidField field why)) :
    Converts field form convert := by
  refine ⟨fun s a => ?_, fun s e h => ?_⟩
  · rw [← hread]
    cases hs : read s with
    | none =>
      obtain ⟨why, hwhy⟩ := hnone s hs
      rw [hwhy]
      exact ⟨fun h => (nomatch h), fun h => nomatch h⟩
    | some b => rw [hsome s b hs, Except.ok.injEq, Option.some.injEq]
  · cases hs : read s with
    | none =>
      obtain ⟨why, hwhy⟩ := hnone s hs
      rw [hwhy] at h
      cases h
      exact ⟨why, rfl⟩
    | some b =>
      rw [hsome s b hs] at h
      cases h

/-- The converter in a reader of counts. -/
def countOf (field s : String) : Except ProtocolError Nat :=
  match Text.count? s with
  | some n => .ok n
  | none => .error (.invalidField field (.notCount s))

theorem count (field : String) : Converts field .count (countOf field) :=
  of_option (fun _ _ => Text.count?_eq_some_iff) (fun s n h => by rw [countOf, h])
    fun s h => ⟨.notCount s, by rw [countOf, h]⟩

theorem port (field : String) : Converts field .port (Message.portOf field) :=
  of_option (fun _ _ => Text.port?_eq_some_iff) (fun s p h => by rw [Message.portOf, h])
    fun s h => ⟨.notPort s, by rw [Message.portOf, h]⟩

theorem optionalPort (field : String) :
    Converts field .optionalPort fun s => (Message.portOf field s).map some := by
  refine ⟨fun s p => ?_, fun s e h => ?_⟩
  · constructor
    · intro h
      obtain ⟨q, hq, rfl⟩ := Request.map_eq_ok h
      exact ⟨q, rfl, ((port field).ok s q).mp hq⟩
    · rintro ⟨q, rfl, hq⟩
      rw [((port field).ok s q).mpr hq]
      rfl
  · cases hs : Message.portOf field s with
    | ok q =>
      rw [hs] at h
      cases h
    | error e' =>
      rw [hs] at h
      cases h
      exact (port field).error s e hs

theorem hops : Converts "hops" .digit Envelope.parseHops := by
  refine ⟨fun s n => ?_, fun s e h => ?_⟩
  · constructor
    · intro h
      rw [Envelope.parseHops] at h
      split at h
      · rename_i c hc
        split at h
        · rename_i hdigit
          cases h
          exact ⟨c, hc, hdigit, rfl⟩
        · cases h
      · cases h
    · rintro ⟨c, hc, hdigit, rfl⟩
      simp only [Envelope.parseHops, hc, hdigit, if_true]
  · rw [Envelope.parseHops] at h
    split at h
    · split at h
      · cases h
      · cases h
        exact ⟨_, rfl⟩
    · cases h
      exact ⟨_, rfl⟩

/-- The converter in a reader of broadcasts. -/
def idOf (s : String) : Except ProtocolError String :=
  if s = "" then .error (.invalidField "id" .emptyId) else .ok s

theorem id : Converts "id" .name idOf := by
  refine ⟨fun s a => ?_, fun s e h => ?_⟩
  · rw [idOf]
    by_cases hs : s = ""
    · rw [if_pos hs]
      exact ⟨fun h => (nomatch h), fun h => absurd hs h.2⟩
    · rw [if_neg hs, Except.ok.injEq]
      exact ⟨fun h => ⟨h.symm, hs⟩, fun h => h.1.symm⟩
  · rw [idOf] at h
    by_cases hs : s = ""
    · rw [if_pos hs] at h
      cases h
      exact ⟨_, rfl⟩
    · rw [if_neg hs] at h
      cases h

end Converts

/-! ## Reading a list of arguments -/

/-- An argument: the field that it is read from, and its form. -/
abbrev Argument := String × Form

/-- An argument that is good is there, if it has to be, and of its form. -/
def Good (fields : Fields) (a : Argument) : Prop := a.2.Accepts (fields.get? a.1)

/-- The argument is the first of the list that is not good. -/
def FirstBad (fields : Fields) (args : List Argument) (a : Argument) : Prop :=
  ∃ before after, args = before ++ a :: after ∧ (∀ b ∈ before, Good fields b) ∧ ¬ Good fields a

/-- What reading a list of arguments yields: the values with the property, or the code of the first
argument that is not good. -/
structure Outcome (fields : Fields) (args : List Argument) {α : Type} (P : α → Prop)
    (r : Except ProtocolError α) : Prop where
  ok : ∀ a, r = .ok a ↔ P a
  good : ∀ a, r = .ok a → ∀ b ∈ args, Good fields b
  error : ∀ e, r = .error e →
    ∃ a, FirstBad fields args a ∧ e.code = faultCode a.1 (fields.get? a.1)

namespace Outcome

variable {fields : Fields} {α : Type}

theorem done (a : α) : Outcome fields [] (a = ·) (.ok a) :=
  ⟨fun _ => by rw [Except.ok.injEq], fun _ _ _ hb => (nomatch hb), fun _ h => nomatch h⟩

/-- One more argument in front. -/
theorem bind {field : String} {form : Form} {args : List Argument} {P : form.Value → α → Prop}
    {r : Except ProtocolError form.Value} {next : form.Value → Except ProtocolError α}
    (hr : Reading field form (fields.get? field) r)
    (hnext : ∀ a, Outcome fields args (P a) (next a)) :
    Outcome fields ((field, form) :: args)
      (fun b => ∃ a, form.Denotes (fields.get? field) a ∧ P a b) (r.bind next) := by
  cases h : r with
  | error e =>
    have hbad : ¬ Good fields (field, form) := by
      rintro ⟨a, ha⟩
      have hok := (hr.ok a).mpr ha
      rw [h] at hok
      cases hok
    refine ⟨fun b => ⟨fun h => (nomatch h), ?_⟩, fun b h => (nomatch h), ?_⟩
    · rintro ⟨a, ha, -⟩
      exact absurd ⟨a, ha⟩ hbad
    · rintro e' he
      cases he
      exact ⟨_, ⟨[], args, rfl, (fun _ hb => nomatch hb), hbad⟩, hr.error e h⟩
  | ok a =>
    have hdenotes := (hr.ok a).mp h
    have hgood : Good fields (field, form) := ⟨a, hdenotes⟩
    refine ⟨fun b => ?_, fun b hb => ?_, fun e he => ?_⟩
    · refine ((hnext a).ok b).trans ⟨fun hb => ⟨a, hdenotes, hb⟩, ?_⟩
      rintro ⟨a', ha', hb⟩
      have hsame : a' = a := by
        have hok := (hr.ok a').mpr ha'
        rw [h] at hok
        exact (Except.ok.inj hok).symm
      rwa [← hsame]
    · exact List.forall_mem_cons.mpr ⟨hgood, (hnext a).good b hb⟩
    · obtain ⟨x, ⟨before, after, hargs, hbefore, hbad⟩, hcode⟩ := (hnext a).error e he
      exact ⟨x, ⟨_ :: before, after, by rw [hargs]; rfl,
        List.forall_mem_cons.mpr ⟨hgood, hbefore⟩, hbad⟩, hcode⟩

theorem congr {args : List Argument} {P Q : α → Prop} {r : Except ProtocolError α}
    (h : Outcome fields args P r) (hPQ : ∀ a, P a ↔ Q a) : Outcome fields args Q r :=
  ⟨fun a => (h.ok a).trans (hPQ a), h.good, h.error⟩

/-- A reader of one argument on its own. -/
theorem one {field : String} {form : Form} {r : Except ProtocolError form.Value}
    (hr : Reading field form (fields.get? field) r) :
    Outcome fields [(field, form)] (form.Denotes (fields.get? field)) r := by
  have h := bind hr fun a => done a
  have hbind : r.bind .ok = r := by cases r <;> rfl
  rw [hbind] at h
  exact h.congr fun a => by simp

theorem map {β : Type} {args : List Argument} {P : α → Prop} {r : Except ProtocolError α}
    (h : Outcome fields args P r) (f : α → β) :
    Outcome fields args (fun b => ∃ a, P a ∧ f a = b) (r.map f) := by
  cases hr : r with
  | error e =>
    refine ⟨fun b => ⟨fun h => (nomatch h), ?_⟩, fun b h => (nomatch h), fun e' he => ?_⟩
    · rintro ⟨a, ha, -⟩
      have hok := (h.ok a).mpr ha
      rw [hr] at hok
      cases hok
    · cases he
      exact h.error e hr
  | ok a =>
    refine ⟨fun b => ⟨fun hb => ⟨a, (h.ok a).mp hr, Except.ok.inj hb⟩, ?_⟩,
      fun _ _ => h.good a hr, fun e he => (nomatch he)⟩
    rintro ⟨a', ha', rfl⟩
    have hok := (h.ok a').mpr ha'
    rw [hr] at hok
    rw [Except.ok.inj hok]
    rfl

end Outcome

/-! ## Which arguments are at fault -/

theorem isFatal_faultCode (field : String) (v : Option Json) :
    (faultCode field v).isFatal = false := by
  cases v <;> rw [faultCode] <;> split <;> rfl

/-- A code says that it was the port if it was. -/
theorem faultCode_port (field : String) (v : Option Json) :
    (faultCode field v = .noPort ∨ faultCode field v = .badPort) ↔ field = "port" := by
  by_cases hfield : field = "port" <;> cases v <;> simp [faultCode, hfield]

theorem FirstBad.unique {fields : Fields} {args : List Argument} {a b : Argument}
    (ha : FirstBad fields args a) (hb : FirstBad fields args b) : a = b := by
  obtain ⟨before, after, hargs, hgood, hbad⟩ := ha
  obtain ⟨before', after', hargs', hgood', hbad'⟩ := hb
  rcases List.append_eq_append_iff.mp (hargs.symm.trans hargs') with
    ⟨mid, hmid, hrest⟩ | ⟨mid, hmid, hrest⟩
  · cases mid with
    | nil => exact (List.cons.inj hrest).1
    | cons c mid =>
      rw [(List.cons.inj hrest).1] at hbad
      exact absurd (hgood' c (by simp [hmid])) hbad
  · cases mid with
    | nil => exact (List.cons.inj hrest).1.symm
    | cons c mid =>
      rw [(List.cons.inj hrest).1] at hbad'
      exact absurd (hgood c (by simp [hmid])) hbad'

namespace Outcome

variable {fields : Fields} {args : List Argument} {α : Type} {P : α → Prop}
  {r : Except ProtocolError α}

/-- Something is read exactly if all arguments are good. -/
theorem exists_ok_iff (h : Outcome fields args P r) :
    (∃ a, r = .ok a) ↔ ∀ b ∈ args, Good fields b := by
  constructor
  · rintro ⟨a, ha⟩
    exact h.good a ha
  · intro hgood
    cases hr : r with
    | ok a => exact ⟨a, rfl⟩
    | error e =>
      obtain ⟨a, ⟨before, after, hargs, -, hbad⟩, -⟩ := h.error e hr
      exact absurd (hgood a (by simp [hargs])) hbad

theorem not_fatal (h : Outcome fields args P r) {e : ProtocolError} (he : r = .error e) :
    e.code.isFatal = false := by
  obtain ⟨a, -, hcode⟩ := h.error e he
  rw [hcode, isFatal_faultCode]

/-- The code says that it was the port exactly if the port is the first argument that is not
good. -/
theorem port_iff (h : Outcome fields args P r) {e : ProtocolError} (he : r = .error e) :
    (e.code = .noPort ∨ e.code = .badPort) ↔ ∃ a, FirstBad fields args a ∧ a.1 = "port" := by
  obtain ⟨a, hfirst, hcode⟩ := h.error e he
  rw [hcode, faultCode_port]
  refine ⟨fun hport => ⟨a, hfirst, hport⟩, ?_⟩
  rintro ⟨b, hb, hport⟩
  rwa [hfirst.unique hb]

end Outcome

/-! ## Numbers as arguments -/

namespace Decimal

theorem mem_exponentText (e : Int) : 'e' ∈ (exponentText e).toList := by
  rw [exponentText, String.toList_append]
  split <;> simp

theorem exists_mem_text (l : Layout) (coefficient : Nat) (k : Int) :
    ∃ c ∈ (l.text coefficient k).toList, c = '.' ∨ c = 'e' := by
  rw [Layout.text]
  dsimp only
  split
  · split
    · exact ⟨'.', by simp, .inl rfl⟩
    · exact ⟨'.', by simp, .inl rfl⟩
  · refine ⟨'e', ?_, .inr rfl⟩
    rw [String.toList_append]
    exact List.mem_append_right _ (mem_exponentText _)

end Decimal

namespace Number

/-- A number that is no integer has a point or an exponent in its text. -/
theorem exists_mem_format_real (x : Binary64) :
    ∃ c ∈ (real x).format.toList, c = '.' ∨ c = 'e' := by
  rw [format, Decimal.Layout.format, String.toList_append]
  by_cases hzero : x.isZero = true
  · exact ⟨'.', by simp [hzero], .inl rfl⟩
  · rw [if_neg hzero]
    obtain ⟨c, hc, hpoint⟩ := Decimal.exists_mem_text layout (Decimal.shortest x).1
      (Decimal.shortest x).2
    exact ⟨c, List.mem_append_right _ hc, hpoint⟩

/-- The text of a number writes a natural number only if it is that number. -/
theorem writes_format {n : Number} {k : Nat} : Text.Writes n.format k ↔ n = .integer k := by
  cases n with
  | integer i =>
    rw [integer.injEq]
    by_cases hneg : i < 0
    · refine ⟨fun h => ?_, fun h => by omega⟩
      have hminus : '-' ∈ (integer i).format.toList := by
        rw [format, if_pos hneg]
        simp
      exact absurd (h.of_mem hminus) (by decide)
    · rw [format, if_neg hneg, Text.writes_repr]
      omega
  | real x =>
    refine ⟨fun h => ?_, fun h => by cases h⟩
    obtain ⟨c, hc, rfl | rfl⟩ := exists_mem_format_real x <;> exact absurd (h.of_mem hc) (by decide)

/-- A numeral that is read as an integer has neither point nor exponent, and is no minus zero. -/
theorem ofNumeral?_integer {m : Json.Numeral} {n : Int}
    (h : ofNumeral? m = some (.integer n)) :
    m.fraction = none ∧ m.exponent = none ∧ (m.negative = true → n < 0) := by
  rw [ofNumeral?] at h
  dsimp only at h
  split at h
  · rename_i hplain
    refine ⟨hplain.1, hplain.2.1, fun hneg => ?_⟩
    rcases hplain.2.2.2 with hpos | hwhole
    · rw [hneg] at hpos
      cases hpos
    · rw [hneg, if_pos rfl] at h
      have hn := integer.inj (Option.some.inj h)
      omega
  · obtain ⟨x, -, hx⟩ := Option.map_eq_some_iff.mp h
    cases hx

end Number

namespace Form

/-- What is spelled and writes a number is a text that does, or the number itself. -/
theorem spelled_writes {v : Option Json} {n : Nat} :
    (∃ s, Spelled v s ∧ Text.Writes s n) ↔
      (∃ s, v = some (.text s) ∧ Text.Writes s n) ∨ v = some (.number (.integer n)) := by
  constructor
  · rintro ⟨s, hs, h⟩
    cases hs with
    | text => exact .inl ⟨s, rfl, h⟩
    | number n => exact .inr (by rw [Number.writes_format.mp h])
  · rintro (⟨s, rfl, h⟩ | rfl)
    · exact ⟨s, .text s, h⟩
    · exact ⟨_, .number _, Number.writes_format.mpr rfl⟩

theorem denotes_count {v : Option Json} {n : Nat} : Form.count.Denotes v n ↔ n < UInt64.size ∧
    ((∃ s, v = some (.text s) ∧ Text.Writes s n) ∨ v = some (.number (.integer n))) := by
  rw [← spelled_writes]
  constructor
  · rintro (⟨-, h⟩ | ⟨s, hs, h, hsize⟩)
    · exact h.elim
    · exact ⟨hsize, s, hs, h⟩
  · rintro ⟨hsize, s, hs, h⟩
    exact .inr ⟨s, hs, h, hsize⟩

theorem denotes_port {v : Option Json} {p : UInt16} : Form.port.Denotes v p ↔
    (∃ s, v = some (.text s) ∧ Text.Writes s p.toNat) ∨ v = some (.number (.integer p.toNat)) := by
  rw [← spelled_writes]
  constructor
  · rintro (⟨-, h⟩ | h)
    · exact h.elim
    · exact h
  · exact .inr

theorem denotes_optionalPort {v : Option Json} {p : Option UInt16} :
    Form.optionalPort.Denotes v p ↔
      (v = none ∧ p = none) ∨ ∃ q, p = some q ∧ Form.port.Denotes v q := by
  constructor
  · rintro (h | ⟨s, hs, q, hq, h⟩)
    · exact .inl h
    · exact .inr ⟨q, hq, .inr ⟨s, hs, h⟩⟩
  · rintro (h | ⟨q, hq, ⟨-, h⟩ | ⟨s, hs, h⟩⟩)
    · exact .inl h
    · exact h.elim
    · exact .inr ⟨s, hs, q, hq, h⟩

end Form

end FloodMesh
