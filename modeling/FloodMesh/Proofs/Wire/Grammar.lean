import FloodMesh.Proofs.Wire.Argument

/-!
# FloodMesh.Proofs.Wire.Grammar

The grammar of requests: which byte strings are read as a request and as which one, and what code
reports each of the others.

* `outcome_ofMethod`: each method reads its arguments in the order that the grammar gives.
* `parse_of_not_addressed`: a fault before the arguments is fatal.
* `parse_grammar`: both, for all byte strings.
-/

namespace FloodMesh

/-! ## Methods -/

namespace Request

/-- The methods, each with its arguments in the order in which they are read. -/
def grammar : List (String × List Argument) :=
  [("list", [("num", .count)]),
   ("discover", [("num", .count), ("port", .optionalPort)]),
   ("info", []),
   ("ip", []),
   ("ping", [("port", .optionalPort)]),
   ("pong", []),
   ("connect", [("port", .text)]),
   ("disconnect", [("port", .text)]),
   ("broadcast", [("hops", .digit), ("id", .name), ("hop-port", .port)])]

/-- The fields of a message are the arguments of a request. -/
def Makes (fields : Fields) : Request → Prop
  | list num => Form.count.Denotes (fields.get? "num") num
  | discover num port =>
    Form.count.Denotes (fields.get? "num") num ∧ Form.optionalPort.Denotes (fields.get? "port") port
  | ping port => Form.optionalPort.Denotes (fields.get? "port") port
  | connect port | disconnect port => Form.text.Denotes (fields.get? "port") port
  | broadcast e =>
    Form.digit.Denotes (fields.get? "hops") e.hops ∧ Form.name.Denotes (fields.get? "id") e.id ∧
      Form.port.Denotes (fields.get? "hop-port") e.hopPort ∧
      e.payload = fields.without Envelope.ownFields
  | info | ip | pong => True

theorem reading_count (fields : Fields) (field : String) :
    Reading field .count (fields.get? field) (Message.count ⟨fields⟩ field) := by
  have h : Message.count ⟨fields⟩ field =
      (Message.require ⟨fields⟩ field).bind (Converts.countOf field) := by
    rw [Message.count]
    cases Message.require ⟨fields⟩ field <;> rfl
  rw [h]
  exact .of_require (by decide) (.count field)

theorem reading_port (fields : Fields) (field : String) :
    Reading field .optionalPort (fields.get? field) (Message.port ⟨fields⟩ field) := by
  have h : Message.port ⟨fields⟩ field = (Message.scalar ⟨fields⟩ field).bind fun s =>
      s.elim (.ok none) fun s => (Message.portOf field s).map some := by
    rw [Message.port]
    cases Message.scalar ⟨fields⟩ field with
    | error e => rfl
    | ok s => cases s <;> rfl
  have hmissing : ∀ p, Form.optionalPort.Defaults p ↔ none = p := fun p => eq_comm
  rw [h]
  exact .of_scalar hmissing (.optionalPort field)

theorem reading_require (fields : Fields) (field : String) :
    Reading field .text (fields.get? field) (Message.require ⟨fields⟩ field) := by
  have h : (Message.require ⟨fields⟩ field).bind .ok = Message.require ⟨fields⟩ field := by
    cases Message.require ⟨fields⟩ field <;> rfl
  rw [← h]
  exact .of_require (by decide) (.text field)

/-- A broadcast's arguments are read one after the other. -/
theorem envelope_eq_bind (m : Message) : Envelope.ofMessage m =
    ((m.require "hops").bind Envelope.parseHops).bind fun hops =>
      ((m.require "id").bind Converts.idOf).bind fun id =>
        ((m.require "hop-port").bind (Message.portOf "hop-port")).bind fun hopPort =>
          .ok { hops, hopPort, id, payload := m.fields.without Envelope.ownFields } := by
  rw [Envelope.ofMessage]
  cases m.require "hops" with
  | error e => rfl
  | ok s =>
    dsimp only [Except.bind]
    cases Envelope.parseHops s with
    | error e => rfl
    | ok hops =>
      cases m.require "id" with
      | error e => rfl
      | ok id =>
        dsimp only [Except.bind, Converts.idOf]
        by_cases hid : id = ""
        · rw [if_pos hid, if_pos hid]
        · rw [if_neg hid, if_neg hid]
          cases m.require "hop-port" with
          | error e => rfl
          | ok s =>
            dsimp only [Except.bind]
            cases Message.portOf "hop-port" s <;> rfl

theorem outcome_broadcast (fields : Fields) :
    Outcome fields [("hops", .digit), ("id", .name), ("hop-port", .port)]
      (fun e => (broadcast e).Makes fields) (Envelope.ofMessage ⟨fields⟩) := by
  rw [envelope_eq_bind]
  refine (Outcome.bind (.of_require (by decide) .hops) fun hops =>
    .bind (.of_require (by decide) .id) fun id =>
    .bind (.of_require (by decide) (.port "hop-port")) fun hopPort => .done _).congr fun e => ?_
  constructor
  · rintro ⟨hops, hhops, id, hid, hopPort, hport, rfl⟩
    exact ⟨hhops, hid, hport, rfl⟩
  · rintro ⟨hhops, hid, hport, hpayload⟩
    exact ⟨_, hhops, _, hid, _, hport, by rw [← hpayload]⟩

/-- The arguments of a method are read in the order that the grammar gives. -/
theorem outcome_ofMethod (fields : Fields) {name : String} {args : List Argument}
    (h : (name, args) ∈ grammar) :
    Outcome fields args (fun r => r.method = name ∧ r.Makes fields) (ofMethod name ⟨fields⟩) := by
  have hdiscover : ofMethod "discover" ⟨fields⟩ = (Message.count ⟨fields⟩ "num").bind fun num =>
      (Message.port ⟨fields⟩ "port").map (discover num) := by
    simp only [ofMethod]
    cases Message.count ⟨fields⟩ "num" <;> rfl
  have hnum := reading_count fields "num"
  have hport := reading_port fields "port"
  have htext := Outcome.one (reading_require fields "port")
  simp only [grammar, List.mem_cons, Prod.mk.injEq, List.not_mem_nil, or_false] at h
  rcases h with ⟨rfl, rfl⟩ | ⟨rfl, rfl⟩ | ⟨rfl, rfl⟩ | ⟨rfl, rfl⟩ | ⟨rfl, rfl⟩ | ⟨rfl, rfl⟩ |
    ⟨rfl, rfl⟩ | ⟨rfl, rfl⟩ | ⟨rfl, rfl⟩
  · exact ((Outcome.one hnum).map list).congr fun r => by cases r <;> simp [method, Makes]
  · rw [hdiscover]
    exact (Outcome.bind hnum fun num => (Outcome.one hport).map (discover num)).congr
      fun r => by cases r <;> simp [method, Makes]
  · exact (Outcome.done info).congr fun r => by cases r <;> simp [method, Makes]
  · exact (Outcome.done ip).congr fun r => by cases r <;> simp [method, Makes]
  · exact ((Outcome.one hport).map ping).congr fun r => by cases r <;> simp [method, Makes]
  · exact (Outcome.done pong).congr fun r => by cases r <;> simp [method, Makes]
  · exact (htext.map connect).congr fun r => by cases r <;> simp [method, Makes]
  · exact (htext.map disconnect).congr fun r => by cases r <;> simp [method, Makes]
  · exact ((outcome_broadcast fields).map broadcast).congr
      fun r => by cases r <;> simp [method, Makes]

theorem ofMethod_unknown {name : String} (h : ∀ args, (name, args) ∉ grammar) (m : Message) :
    ofMethod name m = .error (.unknownMethod name) := by
  have hne : ∀ a ∈ grammar, name ≠ a.1 := by
    rintro ⟨name', args⟩ ha rfl
    exact h args ha
  simp only [grammar, List.forall_mem_cons] at hne
  obtain ⟨hlist, hdiscover, hinfo, hip, hping, hpong, hconnect, hdisconnect, hbroadcast, -⟩ := hne
  simp only [ofMethod, hlist, hdiscover, hinfo, hip, hping, hpong, hconnect, hdisconnect,
    hbroadcast, if_false]

/-! ## Byte strings -/

/-- A byte string that is read as far as its arguments: it is not too long, a JSON object, and has a
method of the grammar. -/
structure Addressed (bytes : Bytes) (fields : Fields) (name : String) (args : List Argument) :
    Prop where
  size : bytes.length ≤ maxMessageSize
  object : Json.parse? bytes = some (.object fields)
  method : fields.get? "method" = some (.text name)
  known : (name, args) ∈ grammar

theorem Addressed.parse_eq {bytes : Bytes} {fields : Fields} {name : String} {args : List Argument}
    (h : Addressed bytes fields name args) : parse bytes = ofMethod name ⟨fields⟩ := by
  have hmessage : Message.parse bytes = .ok ⟨fields⟩ := by
    rw [Message.parse, if_neg (Nat.not_lt.mpr h.size), h.object]
  have hmethod : Message.method ⟨fields⟩ = .ok name := by
    rw [Message.method, h.method]
  rw [parse, hmessage]
  dsimp only
  rw [ofMessage, hmethod]

/-- From there on, it is the arguments that decide. -/
theorem Addressed.outcome {bytes : Bytes} {fields : Fields} {name : String} {args : List Argument}
    (h : Addressed bytes fields name args) :
    Outcome fields args (fun r => r.method = name ∧ r.Makes fields) (parse bytes) := by
  rw [h.parse_eq]
  exact outcome_ofMethod fields h.known

/-- A fault before the arguments is fatal. -/
theorem parse_of_not_addressed {bytes : Bytes}
    (h : ¬ ∃ fields name args, Addressed bytes fields name args) :
    ∃ e, parse bytes = .error e ∧ e.code.isFatal = true := by
  rw [parse, Message.parse]
  by_cases hsize : maxMessageSize < bytes.length
  · rw [if_pos hsize]
    exact ⟨_, rfl, rfl⟩
  rw [if_neg hsize]
  cases hobject : Json.parse? bytes with
  | none => exact ⟨_, rfl, rfl⟩
  | some v =>
    cases v with
    | object fields =>
      dsimp only
      rw [ofMessage, Message.method]
      cases hmethod : Fields.get? fields "method" with
      | none => exact ⟨_, rfl, rfl⟩
      | some v =>
        cases v with
        | text name =>
          have hunknown : ∀ args, (name, args) ∉ grammar := fun args hknown =>
            h ⟨fields, name, args, Nat.le_of_not_lt hsize, hobject, hmethod, hknown⟩
          exact ⟨_, ofMethod_unknown hunknown _, rfl⟩
        | _ => exact ⟨_, rfl, rfl⟩
    | _ => exact ⟨_, rfl, rfl⟩

theorem addressed_of_parse {bytes : Bytes} {r : Request} (h : parse bytes = .ok r) :
    ∃ fields name args, Addressed bytes fields name args := by
  by_contra hno
  obtain ⟨e, he, -⟩ := parse_of_not_addressed hno
  rw [h] at he
  cases he

/-- A request is read from exactly the byte strings of the grammar. The code of any other is fatal
unless only its arguments are at fault; then it is the code of the first argument in reading order
that is not good, which speaks of the port if that argument is the port. What counts and ports are
good: texts that write a number, and integers, in range; a number with a point, an exponent or a
minus sign never is. -/
theorem parse_grammar (bytes : Bytes) :
    (∀ r, parse bytes = .ok r ↔
      ∃ fields args, Addressed bytes fields r.method args ∧ r.Makes fields) ∧
    (∀ fields name args, Addressed bytes fields name args →
      ((∃ r, parse bytes = .ok r) ↔ ∀ a ∈ args, Good fields a)) ∧
    (∀ e, parse bytes = .error e →
      (e.code.isFatal = true ↔ ¬ ∃ fields name args, Addressed bytes fields name args) ∧
      (Response.ofError e).closes = e.code.isFatal ∧
      ∀ fields name args, Addressed bytes fields name args →
        (∃ a, FirstBad fields args a ∧ e.code = faultCode a.1 (fields.get? a.1)) ∧
        ((e.code = .noPort ∨ e.code = .badPort) ↔
          ∃ a, FirstBad fields args a ∧ a.1 = "port")) ∧
    (∀ v n, Form.count.Denotes v n ↔ n < UInt64.size ∧
      ((∃ s, v = some (.text s) ∧ Text.Writes s n) ∨ v = some (.number (.integer n)))) ∧
    (∀ v (p : UInt16), Form.port.Denotes v p ↔
      (∃ s, v = some (.text s) ∧ Text.Writes s p.toNat) ∨ v = some (.number (.integer p.toNat))) ∧
    (∀ v (p : Option UInt16), Form.optionalPort.Denotes v p ↔
      (v = none ∧ p = none) ∨ ∃ q, p = some q ∧ Form.port.Denotes v q) ∧
    ∀ m n, Number.ofNumeral? m = some (.integer n) →
      m.fraction = none ∧ m.exponent = none ∧ (m.negative = true → n < 0) := by
  refine ⟨fun r => ⟨fun hr => ?_, ?_⟩, fun fields name args h => h.outcome.exists_ok_iff,
    fun e he => ⟨⟨?_, fun hno => ?_⟩, rfl, fun fields name args h =>
      ⟨h.outcome.error e he, h.outcome.port_iff he⟩⟩,
    fun _ _ => Form.denotes_count, fun _ _ => Form.denotes_port,
    fun _ _ => Form.denotes_optionalPort, fun _ _ => Number.ofNumeral?_integer⟩
  · obtain ⟨fields, name, args, h⟩ := addressed_of_parse hr
    obtain ⟨rfl, hmakes⟩ := (h.outcome.ok r).mp hr
    exact ⟨fields, args, h, hmakes⟩
  · rintro ⟨fields, args, h, hmakes⟩
    exact (h.outcome.ok r).mpr ⟨rfl, hmakes⟩
  · rintro hfatal ⟨fields, name, args, h⟩
    rw [h.outcome.not_fatal he] at hfatal
    cases hfatal
  · obtain ⟨e', he', hfatal⟩ := parse_of_not_addressed hno
    rw [he] at he'
    cases he'
    exact hfatal

/-- A count may be a text; it is read from any text that writes its number. -/
example :
    let fields : Fields := [("method", .text "list"), ("num", .text "05")]
    let bytes := Bytes.ofString "\x7b\"method\":\"list\", \"num\":\"05\"\x7d"
    Addressed bytes fields "list" [("num", .count)] ∧ parse bytes = .ok (.list 5) :=
  ⟨⟨by decide +kernel, by rfl, by rfl, by decide⟩, by rfl⟩

end Request
end FloodMesh
