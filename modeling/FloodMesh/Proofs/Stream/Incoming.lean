import FloodMesh.Proofs.Stream.Conservation

/-!
# FloodMesh.Proofs.Stream.Incoming

What a connection gives before a read fails or the stream ends, and how far a call gets with it. A
call succeeds with an answer only if these bytes start with what the answer takes, and then it does
succeed, wherever the bytes are cut.
-/

namespace FloodMesh

namespace Arrival

/-- The bytes that reads bring before one of them fails or finds the end. -/
def brought : List Arrival → Bytes
  | [] => []
  | .bytes chunk :: rest => if chunk = [] then [] else chunk ++ brought rest
  | .failure _ :: _ => []
  | .silence :: _ => []

theorem brought_bytes {chunk : Bytes} (h : chunk ≠ []) (rest : List Arrival) :
    brought (.bytes chunk :: rest) = chunk ++ brought rest := by
  rw [brought, if_neg h]

end Arrival

namespace Connection

/-- The bytes that calls can take before a read fails or finds the end. -/
def incoming (c : Connection) : Bytes := c.buffer ++ Arrival.brought c.arrivals

theorem incoming_send (c : Connection) (bytes : Bytes) :
    (c.send bytes).1.incoming = c.incoming := by
  rw [send]
  split <;> rfl

/-- The answers with which a call succeeds. -/
inductive Call.Seeks : Call → Answer → Prop
  | message {m : Bytes} (hm : Framed m) : Seeks .message (.message m)
  | exact (bytes : Bytes) : Seeks (.exact bytes.length) (.exact bytes)

variable {c c₁ c' : Connection} {call : Call} {answer : Answer}

theorem Passes.incoming (h : Passes call c c₁) : c₁.incoming = c.incoming := by
  induction h with
  | stay c => rfl
  | read hchunk _ harrivals _ ih =>
    rw [ih, Connection.incoming, Connection.incoming, harrivals, Arrival.brought_bytes hchunk,
      List.append_assoc]

/-- A call that ends without a failure, and not with the stream, has what it was made for. -/
theorem Ends.incoming (h : c.Ends call c' answer) (hended : answer ≠ .ended)
    (hfailed : ∀ e, answer ≠ .failed e) :
    call.Seeks answer ∧ c.incoming = answer.taken ++ c'.incoming := by
  cases h with
  | message hm hbuffer =>
    exact ⟨.message hm, by simp [Connection.incoming, Answer.taken, hbuffer]⟩
  | exact hbuffer =>
    exact ⟨.exact _, by simp [Connection.incoming, Answer.taken, hbuffer]⟩
  | ended => exact absurd rfl hended
  | tooLarge | broken | interrupted => exact absurd rfl (hfailed _)

theorem incoming_read (h : c.read call = (c', answer)) (hended : answer ≠ .ended)
    (hfailed : ∀ e, answer ≠ .failed e) :
    call.Seeks answer ∧ c.incoming = answer.taken ++ c'.incoming := by
  obtain ⟨c₁, hpass, hends⟩ := c.read_ends call
  rw [h] at hends
  rw [← hpass.incoming]
  exact hends.incoming hended hfailed

theorem read_eq_message {m : Bytes} :
    c.read .message = (c', .message m) ↔ c.readMessage = (c', .ok (some m)) := by
  rcases hread : c.readMessage with ⟨c₁, e | _ | m'⟩ <;>
    simp [read, hread, Answer.ofMessage]

theorem read_eq_exact {n : Nat} {bytes : Bytes} :
    c.read (.exact n) = (c', .exact bytes) ↔ c.readExact n = (c', .ok bytes) := by
  rcases hread : c.readExact n with ⟨c₁, e | bytes'⟩ <;>
    simp [read, hread, Answer.ofExact]

theorem incoming_readMessage {m : Bytes} (h : c.readMessage = (c', .ok (some m))) :
    Framed m ∧ c.incoming = m ++ delimiter ++ c'.incoming := by
  obtain ⟨hseeks, hincoming⟩ := incoming_read (read_eq_message.mpr h) nofun nofun
  cases hseeks with
  | message hm => exact ⟨hm, hincoming⟩

theorem incoming_readExact {n : Nat} {bytes : Bytes} (h : c.readExact n = (c', .ok bytes)) :
    bytes.length = n ∧ c.incoming = bytes ++ c'.incoming := by
  obtain ⟨hseeks, hincoming⟩ := incoming_read (read_eq_exact.mpr h) nofun nofun
  cases hseeks with
  | exact => exact ⟨rfl, hincoming⟩

/-! ## Calls that get what they seek -/

theorem Call.Seeks.settled {left : Bytes} (h : call.Seeks answer)
    (hbuffer : c.buffer = answer.taken ++ left) :
    c.read call = ({ c with buffer := left }, answer) := by
  cases h with
  | @message m hm =>
    have hsettled : settled? c.limit c.buffer 0 = some (.ok (some m), left) := by
      rw [hbuffer]
      exact settled?_message hm
    simp only [read, readMessage, readLoop_settled hsettled, Answer.ofMessage]
  | exact bytes =>
    have hbytes : c.buffer = bytes ++ left := hbuffer
    have hfill : fillLoop c.peer bytes.length c.buffer c.arrivals =
        (.ok bytes, left, c.arrivals) := by
      cases harrivals : c.arrivals with
      | nil => simp [fillLoop, hbytes]
      | cons a rest => cases a <;> simp [fillLoop, hbytes]
    simp only [read, readExact, hfill, Answer.ofExact]

/-- Before all that it seeks has arrived, a call goes on reading. -/
theorem Call.Seeks.wants {limit : Nat} {buffer more rest : Bytes} (h : call.Seeks answer)
    (hfits : call = .message → answer.taken.length ≤ limit)
    (hbytes : buffer ++ more = answer.taken ++ rest)
    (hshort : buffer.length < answer.taken.length) : call.Wants limit buffer := by
  cases h with
  | @message m hm =>
    have hnone : findDelimiter buffer 0 = none := by
      refine findDelimiter_eq_none.mpr fun i hat => ?_
      have hwhole : buffer ++ more = m ++ delimiter ++ rest := hbytes
      have hlater := hm.le rest (hwhole ▸ (delimiterAt_append hat.le _).mpr hat)
      have hends := hat.le
      rw [Answer.taken, List.length_append] at hshort
      omega
    exact settled?_short hnone (Nat.le_trans (Nat.le_of_lt hshort) (hfits rfl))
  | exact bytes => exact hshort

/-- Where the incoming bytes start with what a call seeks, it gets it. -/
theorem Call.Seeks.read {rest : Bytes} (h : call.Seeks answer)
    (hfits : call = .message → answer.taken.length ≤ c.limit)
    (hincoming : c.incoming = answer.taken ++ rest) :
    ∃ buffer arrivals, c.read call = ({ c with buffer, arrivals }, answer) ∧
      Connection.incoming { c with buffer, arrivals } = rest := by
  -- On the reads to come: each moves bytes into the buffer and leaves the incoming ones alone.
  generalize hreads : c.arrivals = reads
  induction reads generalizing c with
  | nil =>
    rw [Connection.incoming, hreads, Arrival.brought, List.append_nil] at hincoming
    refine ⟨rest, c.arrivals, h.settled hincoming, ?_⟩
    rw [Connection.incoming, hreads, Arrival.brought, List.append_nil]
  | cons a more ih =>
    by_cases hshort : c.buffer.length < answer.taken.length
    · -- What is buffered is not all that is to come, so the next read brings something.
      have hmore : Arrival.brought (a :: more) ≠ [] := by
        intro hnone
        have hlength := congrArg List.length hincoming
        rw [Connection.incoming, hreads, hnone, List.append_nil, List.length_append] at hlength
        omega
      cases a with
      | bytes chunk =>
        have hchunk : chunk ≠ [] := fun hempty => hmore (if_pos hempty)
        rw [read_step hchunk (h.wants hfits hincoming hshort) hreads]
        refine ih hfits ?_ rfl
        rw [← hincoming, Connection.incoming, Connection.incoming, hreads,
          Arrival.brought_bytes hchunk, List.append_assoc]
      | failure | silence => exact absurd rfl hmore
    · obtain ⟨left, hleft⟩ : answer.taken <+: c.buffer :=
        List.prefix_of_prefix_length_le ⟨rest, hincoming.symm⟩ ⟨_, rfl⟩ (Nat.le_of_not_lt hshort)
      refine ⟨left, c.arrivals, h.settled hleft.symm, ?_⟩
      rw [Connection.incoming, ← hleft, List.append_assoc] at hincoming
      exact List.append_cancel_left hincoming

theorem readMessage_of_incoming {m rest : Bytes} (hm : Framed m)
    (hfits : m.length + delimiter.length ≤ c.limit)
    (hincoming : c.incoming = m ++ delimiter ++ rest) :
    ∃ buffer arrivals, c.readMessage = ({ c with buffer, arrivals }, .ok (some m)) ∧
      Connection.incoming { c with buffer, arrivals } = rest := by
  have hlength : (Answer.message m).taken.length ≤ c.limit := by
    rw [Answer.taken, List.length_append]
    exact hfits
  obtain ⟨buffer, arrivals, hread, hrest⟩ :=
    (Call.Seeks.message hm).read (fun _ => hlength) hincoming
  exact ⟨buffer, arrivals, read_eq_message.mp hread, hrest⟩

theorem readExact_of_incoming {bytes rest : Bytes} (hincoming : c.incoming = bytes ++ rest) :
    ∃ buffer arrivals, c.readExact bytes.length = ({ c with buffer, arrivals }, .ok bytes) ∧
      Connection.incoming { c with buffer, arrivals } = rest := by
  obtain ⟨buffer, arrivals, hread, hrest⟩ := (Call.Seeks.exact bytes).read nofun hincoming
  exact ⟨buffer, arrivals, read_eq_exact.mp hread, hrest⟩

/-- A stream starts with one message only. -/
theorem Framed.unique {m m' rest rest' : Bytes} (h : Framed m) (h' : Framed m')
    (heq : m ++ delimiter ++ rest = m' ++ delimiter ++ rest') : m = m' ∧ rest = rest' := by
  have hsame := @settled?_message 0 m rest h
  rw [heq, settled?_message h'] at hsame
  cases hsame
  exact ⟨rfl, rfl⟩

end Connection
end FloodMesh
