import FloodMesh.Proofs.Stream.Framing

/-!
# FloodMesh.Proofs.Stream.Segmentation

Messages behind one another on a stream, cut into reads in any way. Reading again and again gives
exactly these messages and then the end, and between two of them the bytes can be taken off in any
number: `messages_read_back`.
-/

namespace FloodMesh
namespace Connection

/-- Read several messages, one after another. -/
def readMessages (c : Connection) : Nat → Connection × List (Except NetworkError (Option Bytes))
  | 0 => (c, [])
  | n + 1 =>
    let (c, answer) := c.readMessage
    let (c, answers) := readMessages c n
    (c, answer :: answers)

theorem readMessages_add (c : Connection) (m n : Nat) :
    c.readMessages (m + n) =
      (((c.readMessages m).1.readMessages n).1,
        (c.readMessages m).2 ++ ((c.readMessages m).1.readMessages n).2) := by
  induction m generalizing c with
  | zero =>
    rw [Nat.zero_add]
    rfl
  | succ m ih =>
    rw [Nat.succ_add]
    simp only [readMessages, ih, List.cons_append]

/-! ## Searching where the last search ended -/

/-- The buffers that a read loop searches, each with the place at which it starts. -/
inductive Searched : Bytes → Nat → Prop
  | first (buffer : Bytes) : Searched buffer 0
  | again {buffer : Bytes} {scanned : Nat} (chunk : Bytes) (before : Searched buffer scanned)
      (none_found : findDelimiter buffer scanned = none) :
      Searched (buffer ++ chunk) (buffer.length - (delimiter.length - 1))

theorem Searched.findDelimiter_eq {buffer : Bytes} {scanned : Nat} (h : Searched buffer scanned) :
    findDelimiter buffer scanned = findDelimiter buffer 0 := by
  induction h with
  | first buffer => rfl
  | again chunk _ hnone ih => exact findDelimiter_resume (ih ▸ hnone) chunk

/-! ## Several messages -/

theorem Delivers.readMessages {c : Connection} {messages : List Bytes} {rest : Bytes}
    (h : c.Delivers (messages.flatMap (· ++ delimiter) ++ rest))
    (hmessages : ∀ m ∈ messages, Framed m ∧ m.length + delimiter.length ≤ c.limit) :
    ∃ buffer arrivals,
      c.readMessages messages.length =
        ({ c with buffer, arrivals }, messages.map fun m => .ok (some m)) ∧
      Delivers { c with buffer, arrivals } rest := by
  induction messages generalizing c with
  | nil => exact ⟨c.buffer, c.arrivals, rfl, h⟩
  | cons m more ih =>
    obtain ⟨hframed, hfits⟩ := hmessages m List.mem_cons_self
    rw [List.flatMap_cons, List.append_assoc] at h
    obtain ⟨buffer, arrivals, hread, hrest⟩ := h.readMessage hframed hfits
    obtain ⟨buffer', arrivals', hreads, hrest'⟩ :=
      ih hrest fun m' hm' => hmessages m' (List.mem_cons_of_mem m hm')
    refine ⟨buffer', arrivals', ?_, hrest'⟩
    rw [List.length_cons, Connection.readMessages, hread]
    simp only [hreads, List.map_cons]

theorem Delivers.readMessage_ended {c : Connection} (h : c.Delivers []) :
    c.readMessage.2 = .ok none := by
  rw [h.readMessage_end rfl (Nat.zero_le c.limit)]
  rfl

/-- However a stream of messages is cut into reads, reading gives exactly these messages in their
order, and then the end. After any number of them the next bytes of the stream can be taken off as
they are. A search that is resumed finds what a search of the whole buffer finds. -/
theorem messages_read_back (peer : Endpoint) {limit : Nat} {messages chunks : List Bytes}
    (hmessages : ∀ m ∈ messages, Framed m ∧ m.length + delimiter.length ≤ limit)
    (hchunks : ∀ chunk ∈ chunks, 0 < chunk.length ∧ chunk.length ≤ Arrival.readSize)
    (hstream : chunks.flatten = messages.flatMap (· ++ delimiter)) :
    let c : Connection := { peer, limit, arrivals := chunks.map .bytes }
    (c.readMessages (messages.length + 1)).2 = (messages.map fun m => .ok (some m)) ++ [.ok none] ∧
    (∀ k ≤ messages.length, ∀ bytes rest,
      (messages.drop k).flatMap (· ++ delimiter) = bytes ++ rest →
        ((c.readMessages k).1.readExact bytes.length).2 = .ok bytes) ∧
    ∀ buffer scanned, Searched buffer scanned →
      findDelimiter buffer scanned = findDelimiter buffer 0 := by
  intro c
  have hdelivers : c.Delivers (messages.flatMap (· ++ delimiter)) := by
    have hchunked := delivers_chunks peer chunks hchunks
    exact ⟨hchunked.segmented, hstream ▸ hchunked.content⟩
  refine ⟨?_, fun k hk bytes rest hbytes => ?_, fun _ _ h => h.findDelimiter_eq⟩
  · rw [← List.append_nil (messages.flatMap _)] at hdelivers
    obtain ⟨buffer, arrivals, hreads, hrest⟩ := hdelivers.readMessages hmessages
    rw [readMessages_add, hreads]
    exact congrArg (_ ++ [·]) hrest.readMessage_ended
  · rw [← List.take_append_drop k messages, List.flatMap_append] at hdelivers
    obtain ⟨buffer, arrivals, hreads, hrest⟩ :=
      hdelivers.readMessages fun m hm => hmessages m (List.mem_of_mem_take hm)
    rw [List.length_take_of_le hk] at hreads
    rw [hbytes] at hrest
    obtain ⟨_, _, hexact, _⟩ := hrest.readExact
    rw [hreads, hexact]

/-- Two messages, the second one empty, with the delimiters cut into seven reads. -/
theorem messages_read_back_scattered :
    let messages := [Bytes.ofString "ab", []]
    let chunks := [Bytes.ofString "ab\r", [0x0a], [0x0d], [0x0a, 0x0d], [0x0a], [0x0d], [0x0a]]
    let c : Connection :=
      { peer := { ip := .v4 #v[127, 0, 0, 1], port := 9000 }, limit := 6
        arrivals := chunks.map .bytes }
    (∀ m ∈ messages, Framed m ∧ m.length + delimiter.length ≤ 6) ∧
      (∀ chunk ∈ chunks, 0 < chunk.length ∧ chunk.length ≤ Arrival.readSize) ∧
      chunks.flatten = messages.flatMap (· ++ delimiter) ∧
      (c.readMessages 3).2 = [.ok (some (Bytes.ofString "ab")), .ok (some []), .ok none] ∧
      ((c.readMessages 1).1.readExact 4).2 = .ok delimiter := by
  intro messages chunks c
  have hmessages : ∀ m ∈ messages, Framed m ∧ m.length + delimiter.length ≤ 6 := by
    intro m hm
    simp only [messages, List.mem_cons, List.not_mem_nil, or_false] at hm
    rcases hm with rfl | rfl <;> exact ⟨framed_of_not_mem (by decide), by decide⟩
  have hchunks : ∀ chunk ∈ chunks, 0 < chunk.length ∧ chunk.length ≤ Arrival.readSize := by
    decide
  have hstream : chunks.flatten = messages.flatMap (· ++ delimiter) := by decide
  obtain ⟨hreads, hexact, _⟩ := messages_read_back c.peer hmessages hchunks hstream
  exact ⟨hmessages, hchunks, hstream, hreads, hexact 1 (by decide) delimiter [] rfl⟩

end Connection
end FloodMesh
