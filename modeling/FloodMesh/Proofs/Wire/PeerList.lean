import FloodMesh.Proofs.Json.Agreement
import FloodMesh.Wire.Peer

/-!
# FloodMesh.Proofs.Wire.PeerList

What a list of peers says as a JSON value. Its reader never builds the value; but if the text has
one, it is an array of records, one for each endpoint that was read and in the same order. A single
value that is no record of a peer is enough for the list to be refused.
-/

namespace FloodMesh
namespace PeerRecord

/-- A value is the record of a peer: the text of an address, a port of sixteen bits, and the family
of that address, as members of these names or as items in this order. -/
inductive Names : Json → Endpoint → Prop
  | object {fields : Fields} {ip : String} {e : Endpoint}
      (hip : fields.get? "ip" = some (.text ip))
      (hport : fields.get? "port" = some (.ofNat e.port.toNat))
      (hfamily : fields.get? "ipv" = some (.ofNat e.ip.family))
      (haddress : IpAddress.ofString? ip = some e.ip) (hzone : e.zone = 0) :
      Names (.object fields) e
  | array {ip : String} {e : Endpoint} (haddress : IpAddress.ofString? ip = some e.ip)
      (hzone : e.zone = 0) :
      Names (.array [.text ip, .ofNat e.port.toNat, .ofNat e.ip.family]) e

theorem names_array_iff {ip : String} {port family : Nat} {e : Endpoint} :
    Names (.array [.text ip, .ofNat port, .ofNat family]) e ↔
      IpAddress.ofString? ip = some e.ip ∧ e.port.toNat = port ∧ e.ip.family = family ∧
        e.zone = 0 := by
  constructor
  · generalize hrecord : Json.array [.text ip, .ofNat port, .ofNat family] = v
    intro h
    cases h with
    | object => cases hrecord
    | array haddress hzone =>
      simp only [Json.array.injEq, List.cons.injEq, Json.text.injEq, Json.ofNat,
        Json.number.injEq, Number.integer.injEq, Int.natCast_inj, and_true] at hrecord
      obtain ⟨rfl, rfl, rfl⟩ := hrecord
      exact ⟨haddress, rfl, rfl, hzone⟩
  · rintro ⟨haddress, rfl, rfl, hzone⟩
    exact .array haddress hzone

theorem endpoint_ok {r : PeerRecord} {e : Endpoint} (h : r.endpoint = .ok e) :
    IpAddress.ofString? r.ip = some e.ip ∧ e.ip.family = r.family ∧ e.port = r.port ∧
      e.zone = 0 := by
  rw [endpoint] at h
  split at h
  · cases h
  rename_i ip hip
  split at h
  · rename_i hfamily
    cases h
    exact ⟨hip, hfamily, rfl, rfl⟩
  · cases h

theorem endpoints_eq_ok {rs : List PeerRecord} {es : List Endpoint} (h : endpoints rs = .ok es) :
    List.Forall₂ (fun r e => r.endpoint = .ok e) rs es := by
  induction rs generalizing es with
  | nil =>
    cases h
    exact .nil
  | cons r rs ih =>
    rw [endpoints] at h
    split at h
    · cases h
    rename_i e he
    cases hrest : endpoints rs with
    | error failure =>
      rw [hrest] at h
      cases h
    | ok es' =>
      rw [hrest] at h
      cases h
      exact .cons he (ih hrest)

theorem ofData?_eq_some {data : List Json.Datum} {r : PeerRecord} (h : ofData? data = some r) :
    ∃ port family, data = [.text r.ip, .integer port, .integer family] ∧
      r.port = UInt16.ofNat port.toNat ∧ r.family = family.toNat := by
  unfold ofData? at h
  split at h
  · rename_i ip port family
    cases h
    exact ⟨port, family, rfl, rfl, rfl⟩
  · cases h

/-- The numbers of a record within their bounds are those of the value. -/
theorem number_port {port : Int} (hlow : 0 ≤ port) (hhigh : port ≤ 65535) :
    Json.number (.integer port) = .ofNat (UInt16.ofNat port.toNat).toNat := by
  have hlt : port.toNat < 2 ^ 16 := by omega
  rw [Json.ofNat, UInt16.toNat_ofNat_of_lt' hlt, Int.toNat_of_nonneg hlow]

theorem names_of_tells {data : List Json.Datum} {r : PeerRecord} {v : Json} {e : Endpoint}
    (htells : schema.Tells data v) (hdata : ofData? data = some r) (he : r.endpoint = .ok e) :
    Names v e := by
  obtain ⟨port, family, rfl, hport, hfamily⟩ := ofData?_eq_some hdata
  obtain ⟨haddress, hsame, hsamePort, hzone⟩ := endpoint_ok he
  have hports : ∀ {v}, (Json.Slot.integer false 0 65535).Takes (.integer port) v →
      v = .ofNat e.port.toNat := by
    intro v htakes
    cases htakes with
    | integer _ hlow hhigh => rw [number_port hlow hhigh, hsamePort, hport]
  have hfamilies : ∀ {v}, (Json.Slot.integer false 0 255).Takes (.integer family) v →
      v = .ofNat e.ip.family := by
    intro v htakes
    cases htakes with
    | integer _ hlow hhigh => rw [Json.ofNat, hsame, hfamily, Int.toNat_of_nonneg hlow]
  have htexts : ∀ {v}, (Json.Slot.text false).Takes (.text r.ip) v → v = .text r.ip := by
    intro v htakes
    cases htakes
    rfl
  cases htells with
  | @object fields h =>
    -- No datum is missing, so each of the three members is there.
    have hmember : ∀ {name slot d}, d ≠ .none →
        ((∃ v, fields.get? name = some v ∧ Json.Slot.Takes slot d v) ∨
          (fields.get? name = none ∧ slot.optional = true ∧ d = .none)) →
        ∃ v, fields.get? name = some v ∧ Json.Slot.Takes slot d v := by
      intro name slot d hne hor
      exact hor.resolve_right fun hnone => hne hnone.2.2
    rw [Json.Schema.Holds, schema] at h
    cases h with
    | cons hip h =>
      cases h with
      | cons hport h =>
        cases h with
        | cons hfamily _ =>
          obtain ⟨ip, hip, htakesIp⟩ := hmember (by simp) hip
          obtain ⟨port, hport, htakesPort⟩ := hmember (by simp) hport
          obtain ⟨family, hfamily, htakesFamily⟩ := hmember (by simp) hfamily
          rw [htexts htakesIp] at hip
          rw [hports htakesPort] at hport
          rw [hfamilies htakesFamily] at hfamily
          exact .object hip hport hfamily haddress hzone
  | @array vs h =>
    rw [schema] at h
    cases h with
    | value htakesIp h =>
      cases h with
      | value htakesPort h =>
        cases h with
        | value htakesFamily h =>
          cases h
          rw [htexts htakesIp, hports htakesPort, hfamilies htakesFamily]
          exact .array haddress hzone

theorem read_agrees (depth : Nat) :
    Json.Agree (fun r v => ∀ e, r.endpoint = .ok e → Names v e) read (Json.readValue depth) := by
  intro bytes rest rest' r v hp hq
  rw [read] at hp
  split at hp
  · cases hp
  rename_i data left hread
  obtain ⟨r', hdata, heq⟩ := Option.map_eq_some_iff.mp hp
  cases heq
  have hlookup : ∀ m ∈ schema, schema.lookup m.1 = some m.2 := by decide
  obtain ⟨hrest, htells⟩ := Json.Schema.read_agrees hlookup depth hread hq
  exact ⟨hrest, fun e he => names_of_tells htells hdata he⟩

/-- If the text of a list has a value, it is an array of records: those of the endpoints read. -/
theorem names_of_parseList {body : Bytes} {es : List Endpoint} {v : Json}
    (h : parseList body = .ok es) (hv : Json.parse? body = some v) :
    ∃ vs, v = .array vs ∧ List.Forall₂ Names vs es := by
  have hall : Json.Agree (fun rs v => ∃ vs, v = .array vs ∧
      List.Forall₂ (fun r v => ∀ e, r.endpoint = .ok e → Names v e) rs vs) readAll
      (Json.readValue Json.depthLimit) := by
    intro bytes rest rest' rs v hp hq
    unfold readAll at hp
    split at hp
    · obtain ⟨⟨vs, left⟩, hvalue, heq⟩ := Option.map_eq_some_iff.mp hq
      cases heq
      obtain ⟨hrest, hitems⟩ := (read_agrees _).readList 0x5d hp hvalue
      exact ⟨hrest, vs, rfl, hitems⟩
    · cases hp
  rw [parseList] at h
  split at h
  · cases h
  rename_i rs hread
  obtain ⟨vs, rfl, hitems⟩ := hall.whole? hread hv
  refine ⟨vs, rfl, ?_⟩
  have hes := endpoints_eq_ok h
  clear hread hv h
  induction hitems generalizing es with
  | nil =>
    cases hes
    exact .nil
  | cons hnames _ ih =>
    cases hes with
    | cons he hrest => exact .cons (hnames _ he) (ih hrest)

end PeerRecord
end FloodMesh
