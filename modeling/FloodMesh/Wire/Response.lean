import FloodMesh.Json.Record
import FloodMesh.Wire.Message

/-!
# FloodMesh.Wire.Response

Replies to requests over a stream: a header that ends with the delimiter and, if the header gives a
size, that many bytes of body. The body ends with the delimiter too, and the size counts it.
-/

namespace FloodMesh

inductive Response
  | okay
  /-- Success with a body, here without its delimiter. -/
  | body (bytes : Bytes)
  | error (code : ErrorCode)
  deriving DecidableEq, Repr

namespace Response

/-- The reply that carries a value. -/
def ofJson (v : Json) : Response := .body v.print

/-- The reply to a faulty message. -/
def ofError (e : ProtocolError) : Response := .error e.code

/-- The members of the header, in this order. -/
def header : Response → Fields
  | okay => [("status", .text "okay")]
  | body bytes =>
    [("status", .text "okay"), ("size", .ofNat (bytes.length + delimiter.length))]
  | error code =>
    [("status", .text "error"), ("code", .ofNat code.code), ("reason", .text code.reason)]

/-- Header and body as sent. -/
def encode (r : Response) : Bytes :=
  (Json.object r.header).print ++ delimiter ++
    match r with
    | body bytes => bytes ++ delimiter
    | _ => []

/-- The connection closes after this reply. -/
def closes : Response → Bool
  | error code => code.isFatal
  | _ => false

end Response

/-- The header of a reply as its receiver sees it. -/
inductive ResponseHeader
  /-- Success; a body of that many bytes follows, if there is a size. -/
  | okay (size : Option Nat)
  | error (code : Int) (reason : String)
  deriving DecidableEq, Repr

namespace ResponseHeader

/-- The members of a header. -/
def schema : Json.Schema :=
  [("status", .text false), ("size", .integer true 0 (UInt64.size - 1)),
   ("code", .integer true Int64.minValue.toInt Int64.maxValue.toInt), ("reason", .text true)]

/-- The header with a given status. A failure without a code has the code -1. -/
def ofStatus (status : String) (size code reason : Json.Datum) :
    Except ProtocolError ResponseHeader :=
  if status = "okay" then
    .ok (.okay (match size with | .integer n => some n.toNat | _ => none))
  else if status = "error" then
    .ok (.error (match code with | .integer n => n | _ => -1)
      (match reason with | .text s => s | _ => ""))
  else .error (.invalidField "status" (.unknownStatus status))

/-- Read a header, with or without its delimiter. -/
def parse (bytes : Bytes) : Except ProtocolError ResponseHeader :=
  match Json.whole? schema.read bytes with
  | some [.text status, size, code, reason] => ofStatus status size code reason
  | _ => .error (.malformed .notJson)

end ResponseHeader

/-- A received body without its delimiter. -/
def trimBody (body : Bytes) : Bytes :=
  if body.drop (body.length - delimiter.length) = delimiter then
    body.take (body.length - delimiter.length)
  else body

/-- The value in a received body. -/
def parseBody (body : Bytes) : Except ProtocolError Json :=
  match Json.parse? (trimBody body) with
  | some v => .ok v
  | none => .error (.malformed .notJson)

end FloodMesh
