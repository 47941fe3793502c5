import FloodMesh.Proofs.Wire.Envelope

/-!
# FloodMesh.Proofs.Wire.Request

Requests written and read back. A request comes back as it was, except that the port of a
registration comes back in its plain spelling; writing it again gives the same bytes.

* `parse_print`: a printed request is the same with or without its delimiter.
* `ofMessage_plain`: the members of a request that is no broadcast make that request again.
* `requests_reread`: both directions, for all requests.
-/

namespace FloodMesh

namespace Fields

theorem mem_ofList {members : List (String × Json)} {m : String × Json}
    (h : m ∈ ofList members) : m ∈ members := by
  have hget := ((sorted_ofList members).mem_iff m.1 m.2).mp h
  rw [get?_ofList] at hget
  exact List.mem_reverse.mp (mem_of_get? hget)

end Fields

namespace Json

theorem faithful_ofMembers {depth : Nat} {members : List (String × Json)}
    (h : ∀ m ∈ members, Faithful depth m.2) : Faithful (depth + 1) (ofMembers members) :=
  ⟨Fields.sorted_ofList members, fun m hm => h m (Fields.mem_ofList hm)⟩

theorem faithful_text (depth : Nat) (s : String) : Faithful depth (.text s) := by
  cases depth <;> trivial

theorem faithful_ofNat (depth : Nat) {n : Nat} (h : n < UInt64.size) : Faithful depth (ofNat n) := by
  have hreread : (Number.integer n).reread = some (.integer n) := Number.reread_natCast h
  cases depth <;> exact hreread

theorem isBlank_delimiter : ∀ b ∈ delimiter, isBlank b = true := by decide +kernel

end Json

namespace Request

/-! ## Reading what is printed -/

theorem parse_print (v : Json) {blanks : Bytes} (hblanks : ∀ b ∈ blanks, Json.isBlank b = true)
    (hfits : (v.print ++ blanks).length ≤ maxMessageSize) :
    parse (v.print ++ blanks) = parse v.print := by
  have hfits' : v.print.length ≤ maxMessageSize := by
    rw [List.length_append] at hfits
    omega
  rw [parse, parse, Message.parse, Message.parse, if_neg (Nat.not_lt.mpr hfits),
    if_neg (Nat.not_lt.mpr hfits'), Json.parse?_print v hblanks, Json.parse?_print_bare]

theorem parse_members {fields : Fields} (h : Json.Faithful Json.depthLimit (.object fields))
    (hfits : ((Json.object fields).print ++ delimiter).length ≤ maxMessageSize) :
    parse ((Json.object fields).print ++ delimiter) = ofMessage ⟨fields⟩ := by
  rw [parse, Message.parse, if_neg (Nat.not_lt.mpr hfits),
    Json.parse?_print _ Json.isBlank_delimiter, h.reread_eq]

/-! ## Requests that can be written -/

/-- What a request has to be for its bytes to spell it: counts of 64 bits, hops of one digit, an id,
and a payload that travels unchanged. -/
def Writable : Request → Prop
  | list num => num < UInt64.size
  | discover num _ => num < UInt64.size
  | broadcast e => e.hops ≤ 9 ∧ e.id ≠ "" ∧ Envelope.Portable e.payload
  | _ => True

/-- What holds of a request that was read. -/
def Admitted : Request → Prop
  | broadcast e => e.hops ≤ 9 ∧ e.id ≠ "" ∧ Envelope.Unreserved e.payload
  | _ => True

/-- A port in its plain spelling; what is no port stays as it is. -/
def plainPort (text : String) : String :=
  match Text.port? text with
  | some p => Nat.repr p.toNat
  | none => text

/-- The request with the plain spelling of its port. -/
def plain : Request → Request
  | connect port => connect (plainPort port)
  | disconnect port => disconnect (plainPort port)
  | r => r

theorem port?_plainPort (text : String) : Text.port? (plainPort text) = Text.port? text := by
  rw [plainPort]
  cases h : Text.port? text with
  | none => exact h
  | some p => exact Text.port?_repr p

theorem portValue_plainPort (text : String) : portValue (plainPort text) = portValue text := by
  rw [portValue, portValue, port?_plainPort, plainPort]
  cases Text.port? text <;> rfl

theorem encode_plain (r : Request) : r.plain.encode = r.encode := by
  cases r with
  | connect port => simp only [plain, encode, arguments, portValue_plainPort, method]
  | disconnect port => simp only [plain, encode, arguments, portValue_plainPort, method]
  | _ => rfl

/-! ## Arguments -/

section Arguments

variable {fields : Fields} {field : String}

theorem require_text {s : String} (h : fields.get? field = some (.text s)) :
    Message.require ⟨fields⟩ field = .ok s := by
  simp only [Message.require, Message.scalar, h]

theorem require_ofNat {n : Nat} (h : fields.get? field = some (.ofNat n)) :
    Message.require ⟨fields⟩ field = .ok (Nat.repr n) := by
  simp only [Message.require, Message.scalar, h, Json.ofNat, Number.format_natCast]

theorem require_portValue {text : String} (h : fields.get? field = some (portValue text)) :
    Message.require ⟨fields⟩ field = .ok (plainPort text) := by
  rw [portValue] at h
  rw [plainPort]
  cases hport : Text.port? text with
  | none =>
    rw [hport] at h
    exact require_text h
  | some p =>
    rw [hport] at h
    exact require_ofNat h

theorem count_ofNat {n : Nat} (hn : n < UInt64.size) (h : fields.get? field = some (.ofNat n)) :
    Message.count ⟨fields⟩ field = .ok n := by
  simp only [Message.count, require_ofNat h, Text.count?_repr hn]

theorem port_toList {port : Option UInt16}
    (h : fields.get? field = port.map fun p => .ofNat p.toNat) :
    Message.port ⟨fields⟩ field = .ok port := by
  cases port with
  | none =>
    have hnone : fields.get? field = none := h
    simp only [Message.port, Message.scalar, hnone]
  | some p =>
    have hsome : fields.get? field = some (.ofNat p.toNat) := h
    simp only [Message.port, Message.scalar, hsome, Json.ofNat, Number.format_natCast,
      Message.portOf, Text.port?_repr]
    rfl

end Arguments

/-- The members of a request that is no broadcast. -/
def members (r : Request) : Fields := Fields.ofList (("method", .text r.method) :: r.arguments)

theorem get?_members (r : Request) (name : String) :
    r.members.get? name = Fields.get? (("method", .text r.method) :: r.arguments).reverse name :=
  Fields.get?_ofList _ name

theorem ofMessage_members (r : Request) : ofMessage ⟨r.members⟩ = ofMethod r.method ⟨r.members⟩ := by
  have hmethod : r.members.get? "method" = some (.text r.method) := by
    rw [get?_members]
    cases r with
    | discover num port => cases port <;> rfl
    | ping port => cases port <;> rfl
    | _ => rfl
  simp only [ofMessage, Message.method, hmethod]

theorem ofMessage_plain {r : Request} (h : r.Writable) (hplain : ∀ e, r ≠ .broadcast e) :
    ofMessage ⟨r.members⟩ = .ok r.plain := by
  rw [ofMessage_members]
  cases r with
  | list num =>
    have hnum : (list num).members.get? "num" = some (.ofNat num) := by rw [get?_members]; rfl
    simp [method, ofMethod, count_ofNat h hnum, Except.map, plain]
  | discover num port =>
    have hnum : (discover num port).members.get? "num" = some (.ofNat num) := by
      rw [get?_members]
      cases port <;> rfl
    have hport : (discover num port).members.get? "port" =
        port.map fun p => Json.ofNat p.toNat := by
      rw [get?_members]
      cases port <;> rfl
    simp [method, ofMethod, count_ofNat h hnum, port_toList hport, Except.map, plain]
  | info => rfl
  | ip => rfl
  | ping port =>
    have hport : (ping port).members.get? "port" = port.map fun p => Json.ofNat p.toNat := by
      rw [get?_members]
      cases port <;> rfl
    simp [method, ofMethod, port_toList hport, Except.map, plain]
  | pong => rfl
  | connect text =>
    have hport : (connect text).members.get? "port" = some (portValue text) := by
      rw [get?_members]
      rfl
    simp [method, ofMethod, require_portValue hport, Except.map, plain]
  | disconnect text =>
    have hport : (disconnect text).members.get? "port" = some (portValue text) := by
      rw [get?_members]
      rfl
    simp [method, ofMethod, require_portValue hport, Except.map, plain]
  | broadcast e => exact absurd rfl (hplain e)

theorem faithful_portValue (depth : Nat) (text : String) : Json.Faithful depth (portValue text) := by
  rw [portValue]
  cases Text.port? text with
  | none => exact Json.faithful_text depth text
  | some p => exact Json.faithful_ofNat depth (Nat.lt_trans p.toNat_lt (by decide))

theorem faithful_port (depth : Nat) (p : UInt16) : Json.Faithful depth (.ofNat p.toNat) :=
  Json.faithful_ofNat depth (Nat.lt_trans p.toNat_lt (by decide))

theorem faithful_members {r : Request} (h : r.Writable) :
    Json.Faithful Json.depthLimit (.object r.members) := by
  refine Json.faithful_ofMembers fun m hm => ?_
  rcases List.mem_cons.mp hm with rfl | hm
  · exact Json.faithful_text _ _
  · cases r with
    | list num =>
      rw [List.mem_singleton.mp hm]
      exact Json.faithful_ofNat _ h
    | discover num port =>
      rcases List.mem_cons.mp hm with rfl | hm
      · exact Json.faithful_ofNat _ h
      · obtain ⟨p, _, rfl⟩ := List.mem_map.mp hm
        exact faithful_port _ p
    | ping port =>
      obtain ⟨p, _, rfl⟩ := List.mem_map.mp hm
      exact faithful_port _ p
    | connect text =>
      rw [List.mem_singleton.mp hm]
      exact faithful_portValue _ text
    | disconnect text =>
      rw [List.mem_singleton.mp hm]
      exact faithful_portValue _ text
    | _ => cases hm

/-! ## Both directions -/

theorem parse_encode {r : Request} (h : r.Writable) (hfits : r.encode.length ≤ maxMessageSize) :
    parse r.encode = .ok r.plain := by
  by_cases hbroadcast : ∃ e, r = .broadcast e
  · obtain ⟨e, rfl⟩ := hbroadcast
    exact Envelope.parse_encode h.2.2 h.1 h.2.1 hfits
  · have hplain : ∀ e, r ≠ .broadcast e := fun e he => hbroadcast ⟨e, he⟩
    have hencode : r.encode = (Json.object r.members).print ++ delimiter := by
      cases r with
      | broadcast e => exact absurd rfl (hplain e)
      | _ => rfl
    rw [hencode] at hfits ⊢
    rw [parse_members (faithful_members h) hfits, ofMessage_plain h hplain]

theorem admitted_of_parse {bytes : Bytes} {r : Request} (h : parse bytes = .ok r) : r.Admitted := by
  cases r with
  | broadcast e =>
    obtain ⟨m, _, he⟩ := parse_broadcast h
    exact ⟨Envelope.hops_le_of_parse h, (Envelope.ofMessage_ok he).2.1,
      Envelope.unreserved_of_parse h⟩
  | _ => trivial

/-- A request that fits into a message is read as itself with its port in the plain spelling, which
names the same port, and is then written with the same bytes. Whatever is read has hops of one digit,
an id and a payload without reserved names. -/
theorem requests_reread :
    (∀ r : Request, r.Writable → r.encode.length ≤ maxMessageSize →
      parse r.encode = .ok r.plain ∧ r.plain.encode = r.encode) ∧
    (∀ text, Text.port? (plainPort text) = Text.port? text) ∧
    ∀ bytes r, parse bytes = .ok r → r.Admitted :=
  ⟨fun r h hfits => ⟨parse_encode h hfits, encode_plain r⟩, port?_plainPort,
    fun _ _ h => admitted_of_parse h⟩

theorem requests_reread_padded :
    let registration := connect " +04000"
    let message := broadcast ⟨3, 80, "x", [("text", .text "hello")]⟩
    registration.Writable ∧ registration.encode.length ≤ maxMessageSize ∧
      parse registration.encode = .ok (connect "4000") ∧
      (connect "4000").encode = registration.encode ∧
      Text.port? "4000" = Text.port? " +04000" ∧
      message.Writable ∧ message.encode.length ≤ maxMessageSize ∧
      parse message.encode = .ok message ∧ message.Admitted := by
  intro registration message
  have hplain : plainPort " +04000" = "4000" := by decide +kernel
  have hregistration : registration.encode.length ≤ maxMessageSize := by decide +kernel
  have hmessage : message.encode.length ≤ maxMessageSize := by decide +kernel
  have hportable : Envelope.Portable [("text", .text "hello")] := by
    refine ⟨List.pairwise_singleton _ _, fun m hm => ?_, fun m hm => ?_⟩ <;>
      rw [List.mem_singleton.mp hm]
    · decide
    · trivial
  have hwritable : message.Writable := ⟨by decide, by decide, hportable⟩
  obtain ⟨hreread, hports, hadmitted⟩ := requests_reread
  obtain ⟨hparse, hsame⟩ := hreread registration trivial hregistration
  have hport := hports " +04000"
  have hback := (hreread message hwritable hmessage).1
  rw [hplain] at hport
  simp only [registration, plain, hplain] at hparse hsame
  exact ⟨trivial, hregistration, hparse, hsame, hport, hwritable, hmessage, hback,
    hadmitted _ _ hback⟩

end Request

end FloodMesh
