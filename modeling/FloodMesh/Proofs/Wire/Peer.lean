import FloodMesh.Proofs.Address
import FloodMesh.Proofs.Json.Record
import FloodMesh.Wire.Peer

/-!
# FloodMesh.Proofs.Wire.Peer

Peers as lists of them are sent: the endpoints that are read from a list are those it was made of.
-/

namespace FloodMesh

/-- The endpoint as others see it. -/
def Endpoint.unzoned (e : Endpoint) : Endpoint := { e with zone := 0 }

namespace PeerRecord

/-- The family that a record states is the one its text is read as. -/
theorem endpoint_ofEndpoint {e : Endpoint} (h : e.zone = 0) : (ofEndpoint e).endpoint = .ok e := by
  obtain ⟨ip, port, zone⟩ := e
  cases h
  simp only [endpoint, ofEndpoint, IpAddress.ofString?_format, if_true]
  rfl

theorem endpoints_map {es : List Endpoint} (h : ∀ e ∈ es, e.zone = 0) :
    endpoints (es.map ofEndpoint) = .ok es := by
  induction es with
  | nil => rfl
  | cons e es ih =>
    rw [List.map_cons, endpoints, endpoint_ofEndpoint (h e List.mem_cons_self)]
    simp only [ih fun e he => h e (List.mem_cons_of_mem _ he), Except.map]

def ipEntry (ip : String) : schema.Entry :=
  .known "ip" (.text ip) (.text ip) rfl fun rest _ => Json.Slot.read_text _ ip rest

def portEntry (port : UInt16) : schema.Entry :=
  .known "port" (.ofNat port.toNat) (.integer port.toNat) rfl fun _ hrest =>
    Json.Slot.read_ofNat _ (Nat.lt_trans port.toNat_lt (by decide)) (Int.natCast_nonneg _)
      (Int.ofNat_le.mpr (Nat.le_of_lt_succ port.toNat_lt)) hrest

theorem family_le (ip : IpAddress) : ip.family ≤ 6 := by
  cases ip with
  | v4 octets => exact (by decide : 4 ≤ 6)
  | v6 groups => exact Nat.le_refl 6

def familyEntry (ip : IpAddress) : schema.Entry :=
  .known "ipv" (.ofNat ip.family) (.integer ip.family) rfl fun _ hrest =>
    Json.Slot.read_ofNat _ (Nat.lt_of_le_of_lt (family_le ip) (by decide)) (Int.natCast_nonneg _)
      (Int.ofNat_le.mpr (Nat.le_trans (family_le ip) (by decide))) hrest

theorem read_print (e : Endpoint) (rest : Bytes) :
    read ((ofEndpoint e).toJson.print ++ rest) = some (ofEndpoint e, rest) := by
  let entries := [ipEntry e.ip.format, portEntry e.port, familyEntry e.ip]
  have hvalue : (ofEndpoint e).toJson = .object (entries.map fun e => (e.name, e.value)) := rfl
  have hdata : schema.ofMembers? (entries.map fun e => (e.name, e.found)) =
      some [.text e.ip.format, .integer e.port.toNat, .integer e.ip.family] := rfl
  have hread := Json.Schema.read_print (ipEntry e.ip.format)
    [portEntry e.port, familyEntry e.ip] rest
  rw [hdata, Option.map_some] at hread
  rw [read, hvalue, hread]
  simp [ofData?, ofEndpoint]

/-- A list of peers is read as the endpoints it was made of, in their order. -/
theorem parseList_print (es : List Endpoint) (h : ∀ e ∈ es, e.zone = 0) :
    parseList (Json.array (es.map fun e => (ofEndpoint e).toJson)).print = .ok es := by
  obtain ⟨rest, hprint, hlist⟩ :=
    Json.readList_print (fun e rest _ => read_print e rest) es
  have hread : readAll (Json.array (es.map fun e => (ofEndpoint e).toJson)).print =
      some (es.map ofEndpoint, []) := by
    rw [hprint]
    exact hlist
  rw [parseList, Json.whole?_print hread]
  exact endpoints_map h

/-- Records say nothing of zones. -/
theorem parseList_print_unzoned (es : List Endpoint) :
    parseList (Json.array (es.map fun e => (ofEndpoint e).toJson)).print =
      .ok (es.map Endpoint.unzoned) := by
  have hlist := parseList_print (es.map Endpoint.unzoned) <| by
    intro e he
    obtain ⟨e', _, rfl⟩ := List.mem_map.mp he
    rfl
  rw [List.map_map] at hlist
  exact hlist

end PeerRecord
end FloodMesh
