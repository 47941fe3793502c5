import FloodMesh.Wire.Request
import FloodMesh.Wire.Response
import FloodMesh.Address.Basic

/-!
# FloodMesh.Service.Basic

What a kind of node does with requests: how it answers those that arrive over a stream, and how it
takes in those that arrive as datagrams, which get no reply.
-/

namespace FloodMesh

/-- A kind of node with states `σ`. -/
structure Service (σ : Type) where
  /-- The reply to a request from a peer; `none` sends nothing back. -/
  answer : σ → Request → Endpoint → σ × Option Response
  /-- Take in a datagram from a peer. -/
  absorb : σ → Request → Endpoint → σ

namespace Service

variable {σ : Type}

/-- The reply to a message. One that is no request gets an error reply and changes nothing. -/
def answerMessage (s : Service σ) (state : σ) (bytes : Bytes) (peer : Endpoint) :
    σ × Option Response :=
  match Request.parse bytes with
  | .error e => (state, some (.ofError e))
  | .ok r => s.answer state r peer

/-- Take in a datagram's bytes. Those that are no request are dropped. -/
def absorbMessage (s : Service σ) (state : σ) (bytes : Bytes) (peer : Endpoint) :
    Except ProtocolError σ :=
  match Request.parse bytes with
  | .error e => .error e
  | .ok r => .ok (s.absorb state r peer)

end Service
end FloodMesh
