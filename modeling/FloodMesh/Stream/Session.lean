import FloodMesh.Service.Basic
import FloodMesh.Stream.Connection

/-!
# FloodMesh.Stream.Session

A stream of requests served one after another. The session ends with the stream, with a reply that
closes the connection, when a reply cannot be written, or when no request comes in time; only the
last ends it without a word. A stream that breaks off within a message gets an error reply.
-/

namespace FloodMesh
namespace Session

variable {σ : Type}

/-- How a session goes on after a message. -/
inductive Course (σ : Type)
  | next (state : σ) (connection : Connection)
  | ended (state : σ) (connection : Connection)

/-- Read and serve one message. -/
def step (s : Service σ) (state : σ) (c : Connection) : Course σ :=
  match c.readMessage with
  | (c, .ok none) => .ended state c
  | (c, .error (.timeout _)) => .ended state c
  | (c, .error _) => .ended state (c.send (Response.error .noMethod).encode).1
  | (c, .ok (some bytes)) =>
    match s.answerMessage state bytes c.peer with
    | (state, none) => .next state c
    | (state, some reply) =>
      match c.send reply.encode with
      | (c, .error _) => .ended state c
      | (c, .ok ()) => if reply.closes then .ended state c else .next state c

/-- Serve at most `n` messages. -/
def serveMessages (s : Service σ) : Nat → σ → Connection → σ × Connection
  | 0, state, c => (state, c)
  | n + 1, state, c =>
    match step s state c with
    | .ended state c => (state, c)
    | .next state c => serveMessages s n state c

/-- Bytes that arrivals bring. -/
def volume : List Arrival → Nat
  | [] => 0
  | .bytes chunk :: rest => chunk.length + volume rest
  | _ :: rest => volume rest

/-- Serve a connection to its end and close it. Every message takes its delimiter from the bytes
there are, so these bound the number of messages. -/
def serve (s : Service σ) (state : σ) (c : Connection) : σ × Connection :=
  let (state, c) := serveMessages s (c.buffer.length + volume c.arrivals + 1) state c
  (state, c.close)

end Session
end FloodMesh
