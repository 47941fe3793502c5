import FloodMesh.Failure
import FloodMesh.Wire.Message

/-!
# FloodMesh.Stream.Connection

Messages on a byte stream. What the stream will deliver is a list of arrivals, one to a read, and
then its end; a read that brings no bytes is the end as well, and nothing comes behind it. A message
ends with the delimiter; bytes behind it stay in the buffer for the next read. A body whose size is
known is taken from the same buffer. No failure discards bytes.
-/

namespace FloodMesh

/-- What one read of a stream brings. No bytes at all are the end of the stream. -/
inductive Arrival
  | bytes (chunk : Bytes)
  | failure (reason : String)
  /-- Nothing comes for as long as the reader waits. -/
  | silence
  deriving DecidableEq, Repr

namespace Arrival

/-- The most bytes that one read takes. -/
def readSize : Nat := 512

/-- Cut a byte string into pieces of at most `readSize` bytes; `n` bounds their number. -/
def pieces : Nat → Bytes → List Arrival
  | 0, _ => []
  | n + 1, data =>
    if data = [] then [] else .bytes (data.take readSize) :: pieces n (data.drop readSize)

/-- What reads bring of bytes that are there together. -/
def ofBytes (data : Bytes) : List Arrival := pieces data.length data

end Arrival

/-- The writing side of a stream. -/
structure Sink where
  /-- Bytes written. -/
  accepted : Bytes := []
  /-- How many more bytes may be written, if there is a limit. -/
  room : Option Nat := none
  /-- Why a write fails when there is no room left. -/
  fullReason : String := "write zero"
  /-- Why flushing fails, if it does. -/
  flushFailure : Option String := none
  /-- No more will be written. -/
  closed : Bool := false
  deriving DecidableEq, Repr

/-- Write all bytes, as far as there is room, and flush. -/
def Sink.write (s : Sink) (bytes : Bytes) : Sink × Except String Unit :=
  let fits := match s.room with | none => bytes.length | some n => min n bytes.length
  let s := { s with accepted := s.accepted ++ bytes.take fits, room := s.room.map (· - fits) }
  if fits < bytes.length then (s, .error s.fullReason)
  else
    match s.flushFailure with
    | some reason => (s, .error reason)
    | none => (s, .ok ())

/-- A stream with what was read of it and not yet used. -/
structure Connection where
  peer : Endpoint
  /-- The most bytes that a message may have, its delimiter included. -/
  limit : Nat := maxMessageSize
  buffer : Bytes := []
  /-- What further reads bring. -/
  arrivals : List Arrival := []
  sink : Sink := {}
  deriving Repr

namespace Connection

/-- The bytes start with the delimiter. -/
def startsWithDelimiter (bytes : Bytes) : Bool := bytes.take delimiter.length == delimiter

/-- Position of the first delimiter at or behind a position. -/
def searchDelimiter (position : Nat) : Bytes → Option Nat
  | [] => none
  | b :: rest =>
    if startsWithDelimiter (b :: rest) then some position
    else searchDelimiter (position + 1) rest

/-- Position of the first delimiter in a buffer of which the part before `scanned` has been
searched. -/
def findDelimiter (buffer : Bytes) (scanned : Nat) : Option Nat :=
  searchDelimiter scanned (buffer.drop scanned)

/-- What a buffer answers by itself: the message before its first delimiter, or that it holds more
than a message may have. -/
def settled? (limit : Nat) (buffer : Bytes) (scanned : Nat) :
    Option (Except NetworkError (Option Bytes) × Bytes) :=
  match findDelimiter buffer scanned with
  | some i => some (.ok (some (buffer.take i)), buffer.drop (i + delimiter.length))
  | none =>
    if limit < buffer.length then some (.error (.messageTooLarge buffer.length limit), buffer)
    else none

/-- What a buffer without a delimiter makes of the end of the stream. A stream that ends in white
space ends between messages, and then there is no message. -/
def ending (buffer : Bytes) : Except NetworkError (Option Bytes) × Bytes :=
  if buffer.all Bytes.isAsciiBlank then (.ok none, []) else (.error .connectionReset, buffer)

/-- Read up to the next delimiter. A search that found none is resumed where a delimiter may have
begun, three bytes before the end. -/
def readLoop (peer : Endpoint) (limit : Nat) (buffer : Bytes) (scanned : Nat) :
    List Arrival → Except NetworkError (Option Bytes) × Bytes × List Arrival
  | [] =>
    match settled? limit buffer scanned with
    | some (answer, buffer) => (answer, buffer, [])
    | none => ((ending buffer).1, (ending buffer).2, [])
  | a :: rest =>
    match settled? limit buffer scanned with
    | some (answer, buffer) => (answer, buffer, a :: rest)
    | none =>
      match a with
      | .failure reason => (.error (.receiveFailed reason), buffer, rest)
      | .silence => (.error (.timeout peer.format), buffer, rest)
      | .bytes chunk =>
        if chunk = [] then ((ending buffer).1, (ending buffer).2, a :: rest)
        else readLoop peer limit (buffer ++ chunk) (buffer.length - (delimiter.length - 1)) rest

/-- Read the next message, without its delimiter; `none` at the end of the stream. -/
def readMessage (c : Connection) : Connection × Except NetworkError (Option Bytes) :=
  let (answer, buffer, arrivals) := readLoop c.peer c.limit c.buffer 0 c.arrivals
  ({ c with buffer, arrivals }, answer)

/-- Read until the buffer holds a number of bytes. -/
def fillLoop (peer : Endpoint) (n : Nat) (buffer : Bytes) :
    List Arrival → Except NetworkError Bytes × Bytes × List Arrival
  | [] =>
    if n ≤ buffer.length then (.ok (buffer.take n), buffer.drop n, [])
    else (.error .connectionReset, buffer, [])
  | a :: rest =>
    if n ≤ buffer.length then (.ok (buffer.take n), buffer.drop n, a :: rest)
    else
      match a with
      | .failure reason => (.error (.receiveFailed reason), buffer, rest)
      | .silence => (.error (.timeout peer.format), buffer, rest)
      | .bytes chunk =>
        if chunk = [] then (.error .connectionReset, buffer, a :: rest)
        else fillLoop peer n (buffer ++ chunk) rest

/-- Read exactly so many bytes. -/
def readExact (c : Connection) (n : Nat) : Connection × Except NetworkError Bytes :=
  let (answer, buffer, arrivals) := fillLoop c.peer n c.buffer c.arrivals
  ({ c with buffer, arrivals }, answer)

/-- Write bytes and flush. -/
def send (c : Connection) (bytes : Bytes) : Connection × Except NetworkError Unit :=
  match c.sink.write bytes with
  | (sink, .ok ()) => ({ c with sink }, .ok ())
  | (sink, .error reason) => ({ c with sink }, .error (.sendFailed c.peer reason))

/-- Close the writing side. -/
def close (c : Connection) : Connection := { c with sink := { c.sink with closed := true } }

end Connection
end FloodMesh
