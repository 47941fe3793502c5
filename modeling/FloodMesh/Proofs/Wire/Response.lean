import FloodMesh.Proofs.Json.Record
import FloodMesh.Wire.Response

/-!
# FloodMesh.Proofs.Wire.Response

Replies as their receiver reads them: the header says what was replied, and the body is what was
sent with its delimiter.
-/

namespace FloodMesh
namespace Response

/-- The size that the header gives is a machine word. -/
def Sized : Response → Prop
  | body bytes => bytes.length + delimiter.length < UInt64.size
  | _ => True

instance : DecidablePred Sized
  | okay => isTrue trivial
  | body _ => inferInstanceAs (Decidable (_ < _))
  | error _ => isTrue trivial

/-- What the header tells. -/
def told : Response → ResponseHeader
  | okay => .okay none
  | body bytes => .okay (some (bytes.length + delimiter.length))
  | error code => .error code.code code.reason

/-- What follows the header. -/
def tail : Response → Bytes
  | body bytes => bytes ++ delimiter
  | _ => []

theorem encode_eq (r : Response) :
    r.encode = (Json.object r.header).print ++ delimiter ++ r.tail := by
  cases r <;> rfl

/-! ## The header -/

open Json (Schema Stops)

def statusEntry (status : String) : ResponseHeader.schema.Entry :=
  .known "status" (.text status) (.text status) rfl fun rest _ => Json.Slot.read_text _ status rest

def sizeEntry {size : Nat} (h : size < UInt64.size) : ResponseHeader.schema.Entry :=
  .known "size" (.ofNat size) (.integer size) rfl fun _ hrest =>
    Json.Slot.read_ofNat _ h (Int.natCast_nonneg size) (by omega) hrest

def codeEntry (code : ErrorCode) : ResponseHeader.schema.Entry :=
  .known "code" (.ofNat code.code) (.integer code.code) rfl fun _ hrest =>
    Json.Slot.read_ofNat _ (by cases code <;> decide) (by cases code <;> decide)
      (by cases code <;> decide) hrest

def reasonEntry (reason : String) : ResponseHeader.schema.Entry :=
  .known "reason" (.text reason) (.text reason) rfl fun rest _ => Json.Slot.read_text _ reason rest

theorem parse_entries (e : ResponseHeader.schema.Entry) (es : List ResponseHeader.schema.Entry)
    {status : String} {size code reason : Json.Datum}
    (h : ResponseHeader.schema.ofMembers? ((e :: es).map fun e => (e.name, e.found)) =
      some [.text status, size, code, reason]) :
    ResponseHeader.parse (Json.object ((e :: es).map fun e => (e.name, e.value))).print =
      ResponseHeader.ofStatus status size code reason := by
  have hread := Schema.read_print e es []
  rw [h, Option.map_some, List.append_nil] at hread
  rw [ResponseHeader.parse, Json.whole?_print hread]

theorem parse_header {r : Response} (h : r.Sized) :
    ResponseHeader.parse (Json.object r.header).print = .ok r.told := by
  cases r with
  | okay => exact parse_entries (statusEntry "okay") [] rfl
  | body bytes => exact parse_entries (statusEntry "okay") [sizeEntry h] rfl
  | error code =>
    exact parse_entries (statusEntry "error") [codeEntry code, reasonEntry code.reason] rfl

theorem length_repr_le {n : Nat} (h : n < UInt64.size) :
    (Bytes.ofString (Nat.repr n)).length ≤ 20 := by
  have hbound : n < 10 ^ 20 := Nat.lt_trans h (by decide)
  rw [Bytes.ofString_repr, List.length_map]
  exact (Nat.length_toDigits_le_iff (by decide) (by decide)).mpr hbound

/-- A header is short enough for a message. -/
theorem length_header_le {r : Response} (h : r.Sized) :
    (Json.object r.header).print.length + delimiter.length ≤ maxMessageSize := by
  cases r with
  | okay => decide +kernel
  | body bytes =>
    have hstatus : (Json.printText "status").length = 8 := by decide +kernel
    have hokay : (Json.printText "okay").length = 6 := by decide +kernel
    have hsize : (Json.printText "size").length = 6 := by decide +kernel
    have hrepr := length_repr_le h
    simp only [header, Json.print, Json.printMembers, Json.ofNat, Number.format_natCast,
      List.length_append, List.length_cons, List.length_nil, hstatus, hokay, hsize]
    simp only [delimiter, maxMessageSize, List.length_cons, List.length_nil] at hrepr ⊢
    omega
  | error code => cases code <;> decide +kernel

theorem trimBody_append (bytes : Bytes) : trimBody (bytes ++ delimiter) = bytes := by
  have hlength : (bytes ++ delimiter).length - delimiter.length = bytes.length := by
    rw [List.length_append, Nat.add_sub_cancel]
  rw [trimBody, hlength, List.drop_left, if_pos rfl, List.take_left]

end Response
end FloodMesh
