import FloodMesh.Proofs.Json.Fields
import FloodMesh.Proofs.Text.Numeral
import FloodMesh.Wire.Request

/-!
# FloodMesh.Proofs.Wire.Envelope

Broadcasts on the wire. Whatever a payload holds, a broadcast that is read has the id it was written
with; with a payload of faithful values it is the broadcast that was written. A router that changes
hops and port keeps the length.
-/

namespace FloodMesh
namespace Envelope

/-- The fields of an application without a name that is the envelope's own. -/
def Unreserved (payload : Fields) : Prop := ∀ m ∈ payload, m.1 ∉ ownFields

def own (e : Envelope) : Fields :=
  [("method", .text "broadcast"), ("hops", .ofNat e.hops), ("hop-port", .text e.hopPortField),
    ("id", .text e.id)]

theorem sorted_fields (e : Envelope) : Fields.Sorted e.fields := Fields.sorted_ofList _

theorem get?_fields (e : Envelope) (name : String) :
    e.fields.get? name =
      (Fields.get? e.payload.reverse name).or (Fields.get? e.own.reverse name) := by
  rw [fields, Fields.get?_ofList, List.reverse_append, Fields.get?_append]
  rfl

/-- A payload with no reserved name leaves the envelope's own fields alone. -/
theorem get?_own {e : Envelope} (h : Unreserved e.payload) :
    e.fields.get? "method" = some (.text "broadcast") ∧
      e.fields.get? "hops" = some (.ofNat e.hops) ∧
      e.fields.get? "hop-port" = some (.text e.hopPortField) ∧
      e.fields.get? "id" = some (.text e.id) := by
  have hnone : ∀ name ∈ ownFields, Fields.get? e.payload.reverse name = none :=
    fun name hname => Fields.get?_eq_none fun m hm heq =>
      h m (List.mem_reverse.mp hm) (heq ▸ hname)
  simp only [get?_fields, hnone _ (show "method" ∈ ownFields by decide),
    hnone _ (show "hops" ∈ ownFields by decide), hnone _ (show "hop-port" ∈ ownFields by decide),
    hnone _ (show "id" ∈ ownFields by decide), Option.none_or]
  simp [own, Fields.get?_cons]

/-- What is left without the envelope's own fields is the payload. -/
theorem without_fields {e : Envelope} (h : Unreserved e.payload)
    (hsorted : Fields.Sorted e.payload) :
    e.fields.without ownFields = e.payload := by
  refine (e.sorted_fields.without ownFields).ext hsorted fun name => ?_
  rw [Fields.get?_without, get?_fields, hsorted.get?_reverse]
  by_cases hname : name ∈ ownFields
  · rw [if_pos hname, Fields.get?_eq_none fun m hm heq => h m hm (heq ▸ hname)]
  · have hnone : Fields.get? e.own.reverse name = none := by
      simp only [ownFields, List.mem_cons, List.not_mem_nil, or_false, not_or] at hname
      simp [own, Fields.get?_cons, hname]
    rw [if_neg hname, hnone, Option.or_none]

theorem parse?_encode (e : Envelope) :
    Json.parse? e.encode = Json.reread Json.depthLimit (.object e.fields) :=
  Json.parse?_print _ (List.all_eq_true.mp rfl)

theorem ofMessage_ok {m : Message} {e : Envelope} (h : ofMessage m = .ok e) :
    m.require "id" = .ok e.id ∧ e.id ≠ "" ∧ e.payload = m.fields.without ownFields := by
  rw [ofMessage] at h
  split at h
  · cases h
  split at h
  · cases h
  split at h
  · cases h
  rename_i id hid
  split at h
  · cases h
  rename_i hne
  split at h
  · cases h
  split at h
  · cases h
  cases h
  exact ⟨hid, hne, rfl⟩

theorem ofMessage_hops {m : Message} {e : Envelope} (h : ofMessage m = .ok e) :
    ∃ text, m.require "hops" = .ok text ∧ parseHops text = .ok e.hops := by
  rw [ofMessage] at h
  split at h
  · cases h
  rename_i text htext
  split at h
  · cases h
  rename_i hops hhops
  split at h
  · cases h
  split at h
  · cases h
  split at h
  · cases h
  split at h
  · cases h
  cases h
  exact ⟨text, htext, hhops⟩

end Envelope

/-! ## Reading -/

namespace Request

theorem map_eq_ok {ε α β : Type} {r : Except ε α} {f : α → β} {b : β} (h : r.map f = .ok b) :
    ∃ a, r = .ok a ∧ f a = b := by
  cases r with
  | error e => cases h
  | ok a => cases h; exact ⟨a, rfl, rfl⟩

theorem ofMethod_broadcast {name : String} {m : Message} {e : Envelope}
    (h : ofMethod name m = .ok (.broadcast e)) : Envelope.ofMessage m = .ok e := by
  rw [ofMethod] at h
  split at h
  · obtain ⟨_, _, h⟩ := map_eq_ok h
    cases h
  split at h
  · split at h
    · cases h
    · obtain ⟨_, _, h⟩ := map_eq_ok h
      cases h
  split at h
  · cases h
  split at h
  · cases h
  split at h
  · obtain ⟨_, _, h⟩ := map_eq_ok h
    cases h
  split at h
  · cases h
  split at h
  · obtain ⟨_, _, h⟩ := map_eq_ok h
    cases h
  split at h
  · obtain ⟨_, _, h⟩ := map_eq_ok h
    cases h
  split at h
  · obtain ⟨e', he, h⟩ := map_eq_ok h
    cases h
    exact he
  · cases h

theorem parse_broadcast {bytes : Bytes} {e : Envelope} (h : parse bytes = .ok (.broadcast e)) :
    ∃ m, Message.parse bytes = .ok m ∧ Envelope.ofMessage m = .ok e := by
  rw [parse] at h
  split at h
  · cases h
  rename_i m hm
  rw [ofMessage] at h
  split at h
  · cases h
  exact ⟨m, hm, ofMethod_broadcast h⟩

end Request

namespace Envelope

/-- What a router takes on never has a reserved name in its payload. -/
theorem unreserved_of_parse {bytes : Bytes} {e : Envelope}
    (h : Request.parse bytes = .ok (.broadcast e)) : Unreserved e.payload := by
  obtain ⟨m, _, he⟩ := Request.parse_broadcast h
  rw [(ofMessage_ok he).2.2]
  intro n hn
  simpa using (List.mem_filter.mp hn).2

/-- A broadcast that is read is the envelope in what is read back of the members. -/
theorem members_of_parse_encode {e e' : Envelope}
    (h : Request.parse e.encode = .ok (.broadcast e')) :
    ∃ fields, Json.MembersReread (Json.depthLimit - 1) e.fields fields ∧
      ofMessage ⟨fields⟩ = .ok e' := by
  obtain ⟨m, hm, he⟩ := Request.parse_broadcast h
  rw [Message.parse, parse?_encode] at hm
  split at hm
  · cases hm
  split at hm
  · cases hm
  · rename_i fields hread
    cases hm
    obtain ⟨fields', hfields, hmembers⟩ := Json.reread_object hread e.sorted_fields
    cases hfields
    exact ⟨_, hmembers, he⟩
  · cases hm

/-- A broadcast is read with the id it was written with. -/
theorem id_of_parse_encode {e e' : Envelope} (hfree : Unreserved e.payload)
    (h : Request.parse e.encode = .ok (.broadcast e')) : e'.id = e.id := by
  obtain ⟨fields, hmembers, he⟩ := members_of_parse_encode h
  obtain ⟨hid, _, _⟩ := ofMessage_ok he
  have hget := hmembers.get? "id"
  rw [(get?_own hfree).2.2.2] at hget
  have hget : Fields.get? fields "id" = some (.text e.id) := hget
  simp only [Message.require, Message.scalar, hget] at hid
  exact (Except.ok.inj hid).symm

/-! ## Reading back what was written -/

/-- Payloads that travel unchanged: members in order, no reserved name, and values that are read
back as they were from inside a message. -/
structure Portable (payload : Fields) : Prop where
  sorted : Fields.Sorted payload
  unreserved : Unreserved payload
  faithful : ∀ m ∈ payload, Json.Faithful (Json.depthLimit - 1) m.2

theorem parseHops_repr {n : Nat} (h : n ≤ 9) : parseHops (Nat.repr n) = .ok n := by
  have hall : ∀ n : Fin 10, parseHops (Nat.repr n.val) = .ok n.val := by decide
  exact hall ⟨n, Nat.lt_succ_of_le h⟩

theorem parseHops_ok {text : String} {n : Nat} (h : parseHops text = .ok n) :
    n ≤ 9 ∧ text.toList.length = 1 := by
  rw [parseHops] at h
  split at h
  · rename_i c hc
    split at h
    · rename_i hdigit
      cases h
      obtain ⟨hlow, hhigh⟩ := Bytes.lt_of_isDigit hdigit
      have hzero : '0'.toNat = 48 := rfl
      rw [hc]
      exact ⟨by omega, rfl⟩
    · cases h
  · cases h

/-- A digit is read as the number it is; nothing longer is read. -/
theorem parseHops_repr_eq {n k : Nat} (h : parseHops (Nat.repr n) = .ok k) : k = n := by
  have hlength := (parseHops_ok h).2
  rw [Nat.repr_eq_ofList_toDigits, String.toList_ofList] at hlength
  have hsmall : n < 10 ^ 1 :=
    (Nat.length_toDigits_le_iff (by decide) (by decide)).mp (Nat.le_of_eq hlength)
  rw [parseHops_repr (by omega)] at h
  exact (Except.ok.inj h).symm

theorem hops_le_of_parse {bytes : Bytes} {e : Envelope}
    (h : Request.parse bytes = .ok (.broadcast e)) : e.hops ≤ 9 := by
  obtain ⟨m, _, he⟩ := Request.parse_broadcast h
  obtain ⟨text, _, hhops⟩ := ofMessage_hops he
  exact (parseHops_ok hhops).1

/-- A broadcast is read with the hops it was written with. -/
theorem hops_of_parse_encode {e e' : Envelope} (hfree : Unreserved e.payload)
    (hhops : e.hops < UInt64.size) (h : Request.parse e.encode = .ok (.broadcast e')) :
    e'.hops = e.hops := by
  obtain ⟨fields, hmembers, he⟩ := members_of_parse_encode h
  obtain ⟨text, htext, hparse⟩ := ofMessage_hops he
  have hget := hmembers.get? "hops"
  rw [(get?_own hfree).2.1, Option.bind_some, Json.ofNat, Json.reread,
    Number.reread_natCast hhops] at hget
  have hget : Fields.get? fields "hops" = some (.number (.integer e.hops)) := hget
  simp only [Message.require, Message.scalar, hget, Number.format_natCast] at htext
  cases htext
  exact parseHops_repr_eq hparse

theorem hopPortField_toList (e : Envelope) : e.hopPortField.toList =
    List.replicate (hopPortWidth - (Nat.toDigits 10 e.hopPort.toNat).length) ' ' ++
      Nat.toDigits 10 e.hopPort.toNat := by
  simp [hopPortField]

theorem port?_hopPortField (e : Envelope) : Text.port? e.hopPortField = some e.hopPort := by
  rw [Text.port?, Text.paddedNumeral?_spaces e.hopPort.toNat_lt _ e.hopPortField_toList,
    Option.map_some, UInt16.ofNat_toNat]

theorem faithful_fields {e : Envelope} (h : Portable e.payload) (hhops : e.hops ≤ 9) :
    Json.Faithful Json.depthLimit (.object e.fields) := by
  refine ⟨e.sorted_fields, fun m hm => ?_⟩
  have hget := (e.sorted_fields.mem_iff _ _).mp hm
  rw [get?_fields, Option.or_eq_some_iff] at hget
  rcases hget with hget | ⟨_, hget⟩
  · exact h.faithful _ (List.mem_reverse.mp (Fields.mem_of_get? hget))
  · have hown := List.mem_reverse.mp (Fields.mem_of_get? hget)
    have hinteger : (Number.integer e.hops).reread = some (.integer e.hops) :=
      Number.reread_natCast (Nat.lt_of_le_of_lt hhops (by decide))
    simp only [own, List.mem_cons, Prod.mk.injEq, List.not_mem_nil, or_false] at hown
    rcases hown with ⟨_, hv⟩ | ⟨_, hv⟩ | ⟨_, hv⟩ | ⟨_, hv⟩ <;> rw [hv]
    · trivial
    · exact hinteger
    · trivial
    · trivial

theorem parse_encode {e : Envelope} (h : Portable e.payload) (hhops : e.hops ≤ 9)
    (hid : e.id ≠ "") (hfits : e.encode.length ≤ maxMessageSize) :
    Request.parse e.encode = .ok (.broadcast e) := by
  have hread := (faithful_fields h hhops).reread_eq
  obtain ⟨hmethod, hopsField, hportField, hidField⟩ := get?_own h.unreserved
  have hmessage : Message.parse e.encode = .ok ⟨e.fields⟩ := by
    rw [Message.parse, if_neg (Nat.not_lt.mpr hfits), parse?_encode, hread]
  have hscalarHops : Message.require ⟨e.fields⟩ "hops" = .ok (Nat.repr e.hops) := by
    simp [Message.require, Message.scalar, hopsField, Json.ofNat, Number.format_natCast]
  have hscalarId : Message.require ⟨e.fields⟩ "id" = .ok e.id := by
    simp [Message.require, Message.scalar, hidField]
  have hscalarPort : Message.require ⟨e.fields⟩ "hop-port" = .ok e.hopPortField := by
    simp [Message.require, Message.scalar, hportField]
  have henvelope : ofMessage ⟨e.fields⟩ = .ok e := by
    simp only [ofMessage, hscalarHops, parseHops_repr hhops, hscalarId, hid, if_false, hscalarPort,
      Message.portOf, port?_hopPortField, without_fields h.unreserved h.sorted]
  rw [Request.parse, hmessage]
  simp only [Request.ofMessage, Message.method, hmethod, Request.ofMethod, henvelope]
  rfl

/-! ## Length -/

/-- Member by member, the same name and values of the same length. -/
def SameLength (a b : Fields) : Prop :=
  List.Forall₂ (fun m m' => m.1 = m'.1 ∧ m.2.print.length = m'.2.print.length) a b

namespace SameLength

variable {a b : Fields}

theorem refl (a : Fields) : SameLength a a := List.forall₂_same.mpr fun _ _ => ⟨rfl, rfl⟩

theorem insert (h : SameLength a b) (name : String) {v v' : Json}
    (hv : v.print.length = v'.print.length) :
    SameLength (Fields.insert name v a) (Fields.insert name v' b) := by
  induction h with
  | nil => exact .cons ⟨rfl, hv⟩ .nil
  | @cons m m' a b hm h ih =>
    rw [Fields.insert, Fields.insert, hm.1]
    by_cases hlt : name < m'.1
    · rw [if_pos hlt, if_pos hlt]
      exact .cons ⟨rfl, hv⟩ (.cons hm h)
    · rw [if_neg hlt, if_neg hlt]
      by_cases heq : name = m'.1
      · rw [if_pos heq, if_pos heq]
        exact .cons ⟨rfl, hv⟩ h
      · rw [if_neg heq, if_neg heq]
        exact .cons hm ih

theorem ofList {members members' : Fields} (h : SameLength members members') :
    SameLength (Fields.ofList members) (Fields.ofList members') := by
  have hfrom : ∀ {a b : Fields}, SameLength a b →
      SameLength (members.foldl (fun fields m => Fields.insert m.1 m.2 fields) a)
        (members'.foldl (fun fields m => Fields.insert m.1 m.2 fields) b) := by
    induction h with
    | nil => exact fun hab => hab
    | cons hm _ ih =>
      intro a b hab
      rw [List.foldl_cons, List.foldl_cons, hm.1]
      exact ih (hab.insert _ hm.2)
  exact hfrom .nil

theorem length_print (h : SameLength a b) :
    (Json.object a).print.length = (Json.object b).print.length := by
  have hmore : ∀ {a b : Fields}, SameLength a b →
      (Json.printMembers a).length = (Json.printMembers b).length := by
    intro a b hab
    induction hab with
    | nil => rfl
    | cons hm _ ih =>
      simp only [Json.printMembers, List.length_append, List.length_cons, hm.1, hm.2, ih]
  cases h with
  | nil => rfl
  | cons hm h =>
    simp only [Json.print, List.length_append, List.length_cons, hm.1, hm.2, hmore h]

end SameLength

/-- The port takes the same room whatever it is. -/
theorem length_hopPortField (e : Envelope) : (Json.text e.hopPortField).print.length = 7 := by
  have hplain : ∀ c ∈ e.hopPortField.toList, c = ' ' ∨ c.isDigit = true := by
    intro c hc
    rw [hopPortField_toList] at hc
    rcases List.mem_append.mp hc with hc | hc
    · exact .inl (List.mem_replicate.mp hc).2
    · exact .inr (isDigit_toDigits hc)
  have hcount : e.hopPortField.toList.length = 5 := by
    have hbound : e.hopPort.toNat < 2 ^ 16 := e.hopPort.toNat_lt
    have hdigits : (Nat.toDigits 10 e.hopPort.toNat).length ≤ 5 :=
      (Nat.length_toDigits_le_iff (by decide) (by decide)).mpr (by omega)
    rw [hopPortField_toList, List.length_append, List.length_replicate, hopPortWidth]
    omega
  generalize hchars : e.hopPortField.toList = chars at hplain hcount
  have hfield : e.hopPortField = String.ofList chars := by rw [← hchars, String.ofList_toList]
  have hascii : ∀ c ∈ chars, c.toNat < 128 := by
    intro c hc
    rcases hplain c hc with rfl | hdigit
    · decide
    · have hlt := (Bytes.lt_of_isDigit hdigit).2
      omega
  have hescape : ∀ c ∈ chars, Json.escapeByte (Bytes.ofAscii c) = [Bytes.ofAscii c] := by
    intro c hc
    rcases hplain c hc with rfl | hdigit
    · decide
    · have hall : ∀ n : Fin 58, 48 ≤ n.val →
          Json.escapeByte (UInt8.ofNat n.val) = [UInt8.ofNat n.val] := by decide
      obtain ⟨hlow, hhigh⟩ := Bytes.lt_of_isDigit hdigit
      exact hall ⟨c.toNat, hhigh⟩ hlow
  have hbytes : (chars.map Bytes.ofAscii).flatMap Json.escapeByte = chars.map Bytes.ofAscii := by
    rw [List.flatMap_map, List.flatMap_congr hescape, List.map_eq_flatMap]
  rw [Json.print, Json.printText, hfield, Bytes.ofString_ascii hascii, hbytes]
  simp [hcount]

/-- A router that changes hops and port keeps the length. -/
theorem length_encode {e : Envelope} (he : e.hops ≤ 9) {hops : Nat} (hhops : hops ≤ 9)
    (hopPort : UInt16) :
    ({ e with hops, hopPort } : Envelope).encode.length = e.encode.length := by
  have hdigit : ∀ n ≤ 9, (Json.ofNat n).print.length = 1 := by
    intro n hn
    have hall : ∀ n : Fin 10, (Bytes.ofString (Nat.repr n.val)).length = 1 := by decide
    rw [Json.ofNat, Json.print, Number.format_natCast]
    exact hall ⟨n, Nat.lt_succ_of_le hn⟩
  have hsame : SameLength (({ e with hops, hopPort } : Envelope).own ++ e.payload)
      (e.own ++ e.payload) := by
    refine List.rel_append (.cons ⟨rfl, rfl⟩ (.cons ⟨rfl, ?_⟩ (.cons ⟨rfl, ?_⟩
      (.cons ⟨rfl, rfl⟩ .nil)))) (SameLength.refl e.payload)
    · rw [hdigit hops hhops, hdigit e.hops he]
    · rw [length_hopPortField, length_hopPortField]
  rw [encode, encode, List.length_append, List.length_append]
  exact congrArg (· + _) hsame.ofList.length_print

end Envelope

end FloodMesh
