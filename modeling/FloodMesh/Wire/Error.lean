import FloodMesh.Text.Quoted

/-!
# FloodMesh.Wire.Error

What can be wrong with a message, and the numeric code that an error reply carries for it. Faults
of the message as a whole are fatal: the stream cannot be trusted any more. Faults of an argument
leave the connection usable.
-/

namespace FloodMesh

/-- Codes of error replies. -/
inductive ErrorCode
  /-- No method, or no message at all. -/
  | noMethod
  /-- A required argument other than the port is missing. -/
  | noNum
  /-- The port is missing. -/
  | noPort
  /-- The method is not one that the service handles. -/
  | badMethod
  /-- An argument other than the port is unusable. -/
  | badNum
  /-- The port is unusable. -/
  | badPort
  deriving DecidableEq, Repr

namespace ErrorCode

/-- The code as sent. -/
def code : ErrorCode → Nat
  | noMethod => 0
  | noNum => 1
  | noPort => 2
  | badMethod => 3
  | badNum => 4
  | badPort => 5

/-- The reason sent with the code. -/
def reason : ErrorCode → String
  | noMethod => "no method given"
  | noNum => "missing argument 'num'"
  | noPort => "missing argument 'port'"
  | badMethod => "unrecognized method"
  | badNum => "invalid argument 'num'"
  | badPort => "invalid argument 'port'"

/-- The connection closes after a reply with this code. -/
def isFatal : ErrorCode → Bool
  | noMethod | badMethod => true
  | _ => false

def all : List ErrorCode := [noMethod, noNum, noPort, badMethod, badNum, badPort]

/-- The code that a number stands for. -/
def ofCode? (n : Int) : Option ErrorCode := all.find? fun c => (c.code : Int) == n

end ErrorCode

/-- Why a text is no message. -/
inductive Malformation
  | notJson
  | notObject (kind : String)
  | stated (reason : String)
  deriving DecidableEq, Repr

def Malformation.reason : Malformation → String
  | notJson => "not a JSON text"
  | notObject kind => "expected a JSON object, got " ++ kind
  | stated reason => reason

/-- Why a field is unusable. -/
inductive FieldFault
  | notScalar (kind : String)
  | notCount (text : String)
  | notPort (text : String)
  | notDigit (text : String)
  | emptyId
  | notAddress (text : String)
  | wrongFamily (ip : String) (family given : Nat)
  | unknownStatus (text : String)
  | stated (reason : String)
  deriving DecidableEq, Repr

def FieldFault.reason : FieldFault → String
  | notScalar kind => "expected a string or number, got " ++ kind
  | notCount text => Text.quoted text ++ " is not a count"
  | notPort text => Text.quoted text ++ " is not a port"
  | notDigit text => Text.quoted text ++ " is not a single digit"
  | emptyId => "empty message id"
  | notAddress text => Text.quoted text ++ " is not an address"
  | wrongFamily ip family given =>
    ip ++ " is an IPv" ++ Nat.repr family ++ " address but ipv is " ++ Nat.repr given
  | unknownStatus text => "unknown status " ++ Text.quoted text
  | stated reason => reason

/-- What is wrong with a message. -/
inductive ProtocolError
  | malformed (why : Malformation)
  | missingMethod
  | unknownMethod (method : String)
  | missingField (field : String)
  | invalidField (field : String) (why : FieldFault)
  | messageTooLarge (size limit : Nat)
  deriving DecidableEq, Repr

namespace ProtocolError

def message : ProtocolError → String
  | malformed why => "Malformed message: " ++ why.reason
  | missingMethod => "Message has no method"
  | unknownMethod method => "Unknown method: " ++ method
  | missingField field => "Missing field '" ++ field ++ "'"
  | invalidField field why => "Invalid field '" ++ field ++ "': " ++ why.reason
  | messageTooLarge size limit =>
    "Message too large: " ++ Nat.repr size ++ " bytes (max: " ++ Nat.repr limit ++ " bytes)"

/-- The code that reports the fault. -/
def code : ProtocolError → ErrorCode
  | malformed _ | missingMethod | messageTooLarge _ _ => .noMethod
  | unknownMethod _ => .badMethod
  | missingField field => if field = "port" then .noPort else .noNum
  | invalidField field _ => if field = "port" then .badPort else .badNum

end ProtocolError
end FloodMesh
