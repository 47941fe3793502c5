import FloodMesh.Proofs.Stream.Framing
import FloodMesh.Proofs.Wire.Request
import FloodMesh.Service.Directory
import FloodMesh.Service.Router
import FloodMesh.Stream.Session

/-!
# FloodMesh.Proofs.Stream.Pipelining

Requests that arrive one behind another on one connection. However the stream is cut into reads, a
session does what handling the messages one after another does, and writes the replies in their
order, up to the first that closes the connection.
-/

namespace FloodMesh

/-- What comes of messages that are handled one after another. -/
structure Dialogue (σ : Type) where
  state : σ
  /-- The replies as sent. -/
  written : Bytes
  /-- The last reply closes the connection. -/
  closed : Bool

namespace Service

variable {σ : Type}

/-- Handle messages one after another, up to the first whose reply closes the connection. -/
def converse (s : Service σ) (peer : Endpoint) : σ → List Bytes → Dialogue σ
  | state, [] => { state, written := [], closed := false }
  | state, m :: more =>
    match s.answerMessage state m peer with
    | (state, none) => converse s peer state more
    | (state, some reply) =>
      if reply.closes then { state, written := reply.encode, closed := true }
      else
        let d := converse s peer state more
        { d with written := reply.encode ++ d.written }

/-- What follows a reply that closes the connection has no effect. -/
theorem converse_closed {s : Service σ} {peer : Endpoint} {state : σ} {messages : List Bytes}
    (h : (s.converse peer state messages).closed = true) (more : List Bytes) :
    s.converse peer state (messages ++ more) = s.converse peer state messages := by
  induction messages generalizing state with
  | nil => cases h
  | cons m messages ih =>
    rw [converse] at h
    rw [List.cons_append, converse, converse]
    generalize s.answerMessage state m peer = answer at h ⊢
    rcases answer with ⟨state, _ | reply⟩
    · exact ih h
    · dsimp only at h ⊢
      by_cases hcloses : reply.closes = true
      · rw [if_pos hcloses, if_pos hcloses]
      · rw [if_neg hcloses] at h
        rw [if_neg hcloses, if_neg hcloses, ih h]

end Service

/-! ## Sessions -/

namespace Session

open Connection (Delivers Framed findDelimiter)

variable {σ : Type} {s : Service σ} {c : Connection}

/-- Messages as they stand in a stream, each with its delimiter. -/
def stream (messages : List Bytes) : Bytes := messages.flatMap (· ++ delimiter)

/-- What is written at the end of a stream: a stream that no reply has closed and that breaks off
within a message gets an error reply. -/
def farewell (closed : Bool) (remainder : Bytes) : Bytes :=
  if closed || remainder.all Bytes.isAsciiBlank then [] else (Response.error .noMethod).encode

theorem length_content {arrivals : List Arrival} (h : Arrival.Segmented arrivals) :
    volume arrivals = (Arrival.content arrivals).length := by
  induction arrivals with
  | nil => rfl
  | cons a rest ih =>
    obtain ⟨chunk, rfl, _⟩ := h a List.mem_cons_self
    rw [volume, Arrival.content, List.length_append, ih h.tail]

theorem length_le_stream (messages : List Bytes) :
    messages.length ≤ (stream messages).length := by
  induction messages with
  | nil => exact Nat.le_refl 0
  | cons m more ih =>
    have hfour : delimiter.length = 4 := rfl
    simp only [stream, List.flatMap_cons, List.length_append, List.length_cons] at ih ⊢
    omega

/-- One message is served as it is handled by itself, and its reply decides how the session goes
on. -/
theorem step_message {m rest : Bytes} (h : c.Delivers (m ++ delimiter ++ rest)) (hm : Framed m)
    (hfits : m.length + delimiter.length ≤ c.limit) (hsink : c.sink.Unfailing) (state : σ) :
    ∃ buffer arrivals, Delivers { c with buffer, arrivals } rest ∧
      step s state c =
        match s.answerMessage state m c.peer with
        | (state, none) => .next state { c with buffer, arrivals }
        | (state, some reply) =>
          let c := { c with buffer, arrivals, sink := c.sink.wrote reply.encode }
          if reply.closes then .ended state c else .next state c := by
  obtain ⟨buffer, arrivals, hread, hrest⟩ := h.readMessage hm hfits
  refine ⟨buffer, arrivals, hrest, ?_⟩
  rw [step, hread]
  dsimp only
  rcases s.answerMessage state m c.peer with ⟨state, _ | reply⟩
  · rfl
  · simp only [Connection.send_eq (c := { c with buffer, arrivals }) hsink]

/-- The end of the stream is served with a word only if it comes within a message. -/
theorem step_end {remainder : Bytes} (h : c.Delivers remainder)
    (hnone : findDelimiter remainder 0 = none) (hfits : remainder.length ≤ c.limit)
    (hsink : c.sink.Unfailing) (state : σ) :
    ∃ c', step s state c = .ended state c' ∧
      c'.sink.accepted = c.sink.accepted ++ farewell false remainder := by
  rw [step, h.readMessage_end hnone hfits, farewell, Bool.false_or]
  cases remainder.all Bytes.isAsciiBlank with
  | true => exact ⟨_, rfl, (List.append_nil _).symm⟩
  | false =>
    refine ⟨_, rfl, ?_⟩
    simp only [Bool.false_eq_true, if_false,
      Connection.send_eq (c := { c with buffer := remainder, arrivals := [] }) hsink]
    rfl

theorem serveMessages_stream {messages : List Bytes} {remainder : Bytes}
    (hmessages : ∀ m ∈ messages, Framed m ∧ m.length + delimiter.length ≤ c.limit)
    (hnone : findDelimiter remainder 0 = none) (hfits : remainder.length ≤ c.limit)
    (h : c.Delivers (stream messages ++ remainder)) (hsink : c.sink.Unfailing) (state : σ) {n : Nat}
    (hn : messages.length < n) :
    (serveMessages s n state c).1 = (s.converse c.peer state messages).state ∧
      (serveMessages s n state c).2.sink.accepted =
        c.sink.accepted ++ (s.converse c.peer state messages).written ++
          farewell (s.converse c.peer state messages).closed remainder := by
  induction messages generalizing state c n with
  | nil =>
    obtain ⟨n, rfl⟩ := Nat.exists_eq_succ_of_ne_zero (Nat.ne_of_gt hn)
    obtain ⟨c', hstep, hwritten⟩ := step_end (s := s) h hnone hfits hsink state
    rw [serveMessages, hstep, Service.converse, List.append_nil]
    exact ⟨rfl, hwritten⟩
  | cons m more ih =>
    obtain ⟨n, rfl⟩ := Nat.exists_eq_succ_of_ne_zero (Nat.ne_of_gt (Nat.zero_lt_of_lt hn))
    obtain ⟨hm, hmfits⟩ := hmessages m List.mem_cons_self
    have hmore : ∀ m ∈ more, Framed m ∧ m.length + delimiter.length ≤ c.limit :=
      fun m hm => hmessages m (List.mem_cons_of_mem _ hm)
    rw [stream, List.flatMap_cons, List.append_assoc] at h
    obtain ⟨buffer, arrivals, hrest, hstep⟩ := step_message (s := s) h hm hmfits hsink state
    rw [serveMessages, hstep, Service.converse]
    rcases s.answerMessage state m c.peer with ⟨state', _ | reply⟩
    · exact ih (c := { c with buffer, arrivals }) hmore hfits hrest hsink state'
        (Nat.lt_of_succ_lt_succ hn)
    · dsimp only
      by_cases hcloses : reply.closes = true
      · rw [if_pos hcloses, if_pos hcloses, farewell, Bool.true_or, if_pos rfl, List.append_nil]
        exact ⟨rfl, rfl⟩
      · have hlater := ih (c := { c with buffer, arrivals, sink := c.sink.wrote reply.encode })
          hmore hfits ⟨hrest.segmented, hrest.content⟩ (hsink.wrote _) state'
          (Nat.lt_of_succ_lt_succ hn)
        rw [if_neg hcloses, if_neg hcloses]
        refine ⟨hlater.1, hlater.2.trans ?_⟩
        simp only [Sink.wrote, List.append_assoc]

theorem serve_stream {messages : List Bytes} {remainder : Bytes}
    (hmessages : ∀ m ∈ messages, Framed m ∧ m.length + delimiter.length ≤ c.limit)
    (hnone : findDelimiter remainder 0 = none) (hfits : remainder.length ≤ c.limit)
    (h : c.Delivers (stream messages ++ remainder)) (hsink : c.sink.Unfailing) (state : σ) :
    (serve s state c).1 = (s.converse c.peer state messages).state ∧
      (serve s state c).2.sink.accepted =
        c.sink.accepted ++ (s.converse c.peer state messages).written ++
          farewell (s.converse c.peer state messages).closed remainder := by
  have hvolume : messages.length < c.buffer.length + volume c.arrivals + 1 := by
    have hle := length_le_stream messages
    have hall := congrArg List.length h.content
    rw [List.length_append, List.length_append] at hall
    rw [length_content h.segmented]
    omega
  exact serveMessages_stream hmessages hnone hfits h hsink state hvolume

end Session

/-! ## Broadcasts -/

theorem Router.answer_broadcast {m : Bytes} {e : Envelope}
    (h : Request.parse m = .ok (.broadcast e)) (r : Router) (peer : Endpoint) :
    service.answerMessage r m peer = ((r.flood e (some peer.ip)).1, none) := by
  rw [Service.answerMessage, h]
  rfl

theorem Directory.answer_broadcast {m : Bytes} {e : Envelope}
    (h : Request.parse m = .ok (.broadcast e)) (d : Directory) (peer : Endpoint) :
    service.answerMessage d m peer = (d, some (.error .badMethod)) := by
  rw [Service.answerMessage, h]
  rfl

namespace Session

open Connection (Framed findDelimiter)

/-- However a stream of messages is cut, a session leaves the state and writes the bytes that come
of handling the messages one after another, and an error reply more if the stream breaks off within a
message. No message behind a closing reply counts. A broadcast gets no reply from a router; a
directory refuses it, which closes the connection. -/
theorem serve_pipelined {messages : List Bytes} {remainder : Bytes}
    (hmessages : ∀ m ∈ messages, Framed m ∧ m.length + delimiter.length ≤ maxMessageSize)
    (hremainder : findDelimiter remainder 0 = none ∧ remainder.length ≤ maxMessageSize) :
    (∀ (σ : Type) (s : Service σ) (state : σ) (c : Connection),
      c.Delivers (stream messages ++ remainder) → c.limit = maxMessageSize → c.sink.Unfailing →
        (serve s state c).1 = (s.converse c.peer state messages).state ∧
        (serve s state c).2.sink.accepted =
          c.sink.accepted ++ (s.converse c.peer state messages).written ++
            farewell (s.converse c.peer state messages).closed remainder ∧
        ∀ later, (s.converse c.peer state messages).closed = true →
          s.converse c.peer state (messages ++ later) = s.converse c.peer state messages) ∧
    (∀ m e, Request.parse m = .ok (.broadcast e) →
      (∀ (r : Router) (peer : Endpoint),
        Router.service.answerMessage r m peer = ((r.flood e (some peer.ip)).1, none)) ∧
      ∀ (d : Directory) (peer : Endpoint),
        Directory.service.answerMessage d m peer = (d, some (.error .badMethod))) ∧
    (Response.error .badMethod).closes = true := by
  refine ⟨fun σ s state c h hlimit hsink => ?_, fun m e hm => ?_, rfl⟩
  · rw [← hlimit] at hmessages hremainder
    obtain ⟨hstate, hwritten⟩ := serve_stream hmessages hremainder.1 hremainder.2 h hsink state
    exact ⟨hstate, hwritten, fun later hclosed => Service.converse_closed hclosed later⟩
  · exact ⟨Router.answer_broadcast hm, Directory.answer_broadcast hm⟩

def hello : Bytes := (Json.object (Envelope.fresh "m" []).fields).print

def ping : Bytes := Bytes.ofString "\x7b\"method\":\"ping\"\x7d"

/-- A caller whose bytes arrive in two reads. -/
def caller (first second : Bytes) : Connection :=
  { peer := { ip := .v4 #v[10, 0, 0, 9], port := 4000 }, arrivals := [.bytes first, .bytes second] }

theorem delivers_caller (first second : Bytes)
    (hfirst : 0 < first.length ∧ first.length ≤ Arrival.readSize)
    (hsecond : 0 < second.length ∧ second.length ≤ Arrival.readSize) :
    (caller first second).Delivers (first ++ second) := by
  have h := Connection.delivers_chunks (caller first second).peer [first, second] <| by
    intro chunk hchunk
    simp only [List.mem_cons, List.not_mem_nil, or_false] at hchunk
    rcases hchunk with rfl | rfl
    · exact hfirst
    · exact hsecond
  rwa [List.flatten_cons, List.flatten_singleton] at h

theorem parse_hello : Request.parse hello = .ok (.broadcast (.fresh "m" [])) := by
  have hportable : Envelope.Portable [] :=
    ⟨List.Pairwise.nil, fun _ hm => (nomatch hm), fun _ hm => nomatch hm⟩
  have hfits : (Envelope.fresh "m" []).encode.length ≤ maxMessageSize := by decide +kernel
  rw [hello, ← Request.parse_print _ Json.isBlank_delimiter hfits]
  exact Envelope.parse_encode hportable (by decide) (by decide) hfits

theorem framed_hello : Framed hello ∧ hello.length + delimiter.length ≤ maxMessageSize :=
  ⟨Connection.framed_of_not_mem (by decide +kernel), by decide +kernel⟩

def quiet : Router :=
  { relay :=
      { listenPort := 5555, hopLimit := 4, messages := .empty 10 64
        routers := .empty "routers" 90 64, clients := .empty "clients" 10 64
        outlet := { address := { ip := .v4 #v[10, 0, 0, 8], port := 5555 } } } }

/-- The broadcast gets no reply and the ping gets one, with a cut within a delimiter. -/
theorem serve_pipelined_quiet :
    let messages := [hello, ping]
    let bytes := stream messages ++ [0x20]
    let c := caller (bytes.take 60) (bytes.drop 60)
    (∀ m ∈ messages, Framed m ∧ m.length + delimiter.length ≤ maxMessageSize) ∧
      (findDelimiter [0x20] 0 = none ∧ [(0x20 : UInt8)].length ≤ maxMessageSize) ∧
      c.Delivers bytes ∧ c.limit = maxMessageSize ∧ c.sink.Unfailing ∧
      (serve Router.service quiet c).2.sink.accepted = Response.okay.encode := by
  intro messages bytes c
  have hping : Framed ping ∧ ping.length + delimiter.length ≤ maxMessageSize :=
    ⟨Connection.framed_of_not_mem (by decide +kernel), by decide +kernel⟩
  have hmessages : ∀ m ∈ messages, Framed m ∧ m.length + delimiter.length ≤ maxMessageSize := by
    intro m hm
    simp only [messages, List.mem_cons, List.not_mem_nil, or_false] at hm
    rcases hm with rfl | rfl
    · exact framed_hello
    · exact hping
  have hremainder : findDelimiter [0x20] 0 = none ∧ [(0x20 : UInt8)].length ≤ maxMessageSize :=
    ⟨rfl, by decide⟩
  have hdelivers : c.Delivers bytes := by
    have h := delivers_caller (bytes.take 60) (bytes.drop 60) (by decide +kernel) (by decide +kernel)
    rwa [List.take_append_drop] at h
  have hsink : c.sink.Unfailing := ⟨rfl, rfl⟩
  obtain ⟨hserve, _, _⟩ := serve_pipelined hmessages hremainder
  obtain ⟨_, hwritten, _⟩ := hserve Router Router.service quiet c hdelivers rfl hsink
  refine ⟨hmessages, hremainder, hdelivers, rfl, hsink, hwritten.trans ?_⟩
  simp only [messages, Service.converse, Router.answer_broadcast parse_hello]
  rfl

/-- A directory writes to the caller that sends it a broadcast. -/
theorem directory_refuses_broadcast :
    let c := caller hello delimiter
    Request.parse hello = .ok (.broadcast (.fresh "m" [])) ∧ Framed hello ∧
      hello.length + delimiter.length ≤ maxMessageSize ∧ c.Delivers (stream [hello]) ∧
      (serve Directory.service { peers := .empty "routers" 10 64 } c).2.sink.accepted =
        (Response.error .badMethod).encode ∧
      (Response.error .badMethod).encode ≠ [] := by
  intro c
  have hdelivers : c.Delivers (stream [hello] ++ []) :=
    delivers_caller hello delimiter (by decide +kernel) (by decide)
  have hmessages : ∀ m ∈ [hello], Framed m ∧ m.length + delimiter.length ≤ c.limit := by
    intro m hm
    rw [List.mem_singleton.mp hm]
    exact framed_hello
  obtain ⟨_, hwritten⟩ := serve_stream (s := Directory.service) hmessages rfl (Nat.zero_le _) hdelivers
    ⟨rfl, rfl⟩ { peers := .empty "routers" 10 64 }
  refine ⟨parse_hello, framed_hello.1, framed_hello.2, hdelivers, hwritten.trans ?_, by decide +kernel⟩
  simp only [Service.converse, Directory.answer_broadcast parse_hello]
  rfl

end Session

end FloodMesh
