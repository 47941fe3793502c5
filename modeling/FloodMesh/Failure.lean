import FloodMesh.Address.Printer
import FloodMesh.Wire.Error

/-!
# FloodMesh.Failure

What can go wrong outside a message, layer by layer, and the sentence that says so. `Failure` is
any of it together with the faults of messages.
-/

namespace FloodMesh

/-- Failures of connections and datagrams. -/
inductive NetworkError
  | bindFailed (address reason : String)
  | connectionFailed (address reason : String)
  | sendFailed (address : Endpoint) (reason : String)
  | receiveFailed (reason : String)
  /-- The stream ended within a message. -/
  | connectionReset
  | messageTooLarge (size limit : Nat)
  | timeout (address : String)
  | invalidAddress (address : String)
  /-- The other side answered with an error. -/
  | remoteError (code : Int) (reason : String)
  deriving DecidableEq, Repr

/-- An integer in decimal. -/
def intText (n : Int) : String := (if n < 0 then "-" else "") ++ Nat.repr n.natAbs

def NetworkError.message : NetworkError → String
  | bindFailed address reason => "Failed to bind " ++ address ++ ": " ++ reason
  | connectionFailed address reason => "Connection to " ++ address ++ " failed: " ++ reason
  | sendFailed address reason => "Send to " ++ address.format ++ " failed: " ++ reason
  | receiveFailed reason => "Receive failed: " ++ reason
  | connectionReset => "Connection reset by peer"
  | messageTooLarge size limit =>
    "Message too large: " ++ Nat.repr size ++ " bytes (max: " ++ Nat.repr limit ++ " bytes)"
  | timeout address => "Timed out waiting for " ++ address
  | invalidAddress address => "Invalid address: " ++ address
  | remoteError code reason => "Remote error " ++ intText code ++ ": " ++ reason

/-- Failures of a table of peers. -/
inductive RoutingError
  | peerNotFound (address : Endpoint)
  | invalidPort (port : String)
  deriving DecidableEq, Repr

def RoutingError.message : RoutingError → String
  | peerNotFound address => "Peer not found: " ++ address.format
  | invalidPort port => "Invalid port: " ++ Text.quoted port

/-- Failures of a configuration. -/
inductive ConfigError
  | invalidValue (field reason : String)
  | unreadable (path reason : String)
  | unparseable (path reason : String)
  deriving DecidableEq, Repr

def ConfigError.message : ConfigError → String
  | invalidValue field reason => "Invalid value for " ++ field ++ ": " ++ reason
  | unreadable path reason => "Cannot read config file " ++ path ++ ": " ++ reason
  | unparseable path reason => "Cannot parse config file " ++ path ++ ": " ++ reason

/-- Any failure. -/
inductive Failure
  | network (e : NetworkError)
  | protocol (e : ProtocolError)
  | config (e : ConfigError)
  | routing (e : RoutingError)
  | io (reason : String)
  /-- The node's state of life does not allow the operation. -/
  | invalidState (operation state : String)
  deriving DecidableEq, Repr

def Failure.message : Failure → String
  | network e => "Network error: " ++ e.message
  | protocol e => "Protocol error: " ++ e.message
  | config e => "Configuration error: " ++ e.message
  | routing e => "Routing error: " ++ e.message
  | io reason => "I/O error: " ++ reason
  | invalidState operation state => "Cannot " ++ operation ++ " while node is " ++ state

end FloodMesh
