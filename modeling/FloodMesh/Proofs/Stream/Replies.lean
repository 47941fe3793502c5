import FloodMesh.Failure
import FloodMesh.Proofs.Stream.Framing
import FloodMesh.Proofs.Wire.Response

/-!
# FloodMesh.Proofs.Stream.Replies

Replies taken off a stream one after another. The header ends with the delimiter and the body has
the length that the header gives, so nothing in a body is taken for the end of anything.
-/

namespace FloodMesh

/-- A reply as its receiver has it. -/
inductive Received
  | okay
  | body (bytes : Bytes)
  | error (code : Int) (reason : String)
  deriving DecidableEq, Repr

namespace Response

/-- What the receiver of a reply should have. -/
def received : Response → Received
  | okay => .okay
  | body bytes => .body bytes
  | error code => .error code.code code.reason

/-- No two replies look the same to their receiver. -/
theorem received_injective : Function.Injective received := by
  intro a b h
  cases a with
  | okay =>
    cases b with
    | okay => rfl
    | body => cases h
    | error => cases h
  | body bytes =>
    cases b with
    | okay => cases h
    | body => rw [Received.body.inj h]
    | error => cases h
  | error code =>
    cases b with
    | okay => cases h
    | body => cases h
    | error other =>
      have hcode := (Received.error.inj h).1
      cases code <;> cases other <;> first | rfl | exact absurd hcode (by decide)

end Response

namespace Connection

/-- Take what a header announces. -/
def readBody (c : Connection) : ResponseHeader → Connection × Except Failure Received
  | .okay none => (c, .ok .okay)
  | .error code reason => (c, .ok (.error code reason))
  | .okay (some size) =>
    match c.readExact size with
    | (c, .error e) => (c, .error (.network e))
    | (c, .ok body) => (c, .ok (.body (trimBody body)))

/-- Read the next reply; `none` at the end of the stream. -/
def readReply (c : Connection) : Connection × Except Failure (Option Received) :=
  match c.readMessage with
  | (c, .error e) => (c, .error (.network e))
  | (c, .ok none) => (c, .ok none)
  | (c, .ok (some header)) =>
    match ResponseHeader.parse header with
    | .error e => (c, .error (.protocol e))
    | .ok header =>
      match c.readBody header with
      | (c, .error e) => (c, .error e)
      | (c, .ok r) => (c, .ok (some r))

/-- Reading replies up to the end of the stream gives these, without a failure. -/
inductive Yields : Connection → List Received → Connection → Prop
  | done {c c' : Connection} : c.readReply = (c', .ok none) → Yields c [] c'
  | reply {c c₁ c' : Connection} {r : Received} {rs : List Received} :
      c.readReply = (c₁, .ok (some r)) → Yields c₁ rs c' → Yields c (r :: rs) c'

theorem Yields.unique {c c₁ c₂ : Connection} {rs₁ rs₂ : List Received} (h₁ : c.Yields rs₁ c₁)
    (h₂ : c.Yields rs₂ c₂) : rs₁ = rs₂ ∧ c₁ = c₂ := by
  induction h₁ generalizing rs₂ with
  | done hread =>
    cases h₂ with
    | done hother =>
      cases hread.symm.trans hother
      exact ⟨rfl, rfl⟩
    | reply hother => cases hread.symm.trans hother
  | reply hread _ ih =>
    cases h₂ with
    | done hother => cases hread.symm.trans hother
    | reply hother hrest =>
      cases hread.symm.trans hother
      obtain ⟨rfl, rfl⟩ := ih hrest
      exact ⟨rfl, rfl⟩

namespace Delivers

variable {c : Connection} {r : Response} {rest : Bytes}

/-- The header comes off first, and what it announces is still there. -/
theorem readHeader (h : c.Delivers (r.encode ++ rest)) (hsized : r.Sized)
    (hlimit : maxMessageSize ≤ c.limit) :
    ∃ buffer arrivals, c.readMessage =
        ({ c with buffer, arrivals }, .ok (some (Json.object r.header).print)) ∧
      Delivers { c with buffer, arrivals } (r.tail ++ rest) := by
  rw [Response.encode_eq, List.append_assoc] at h
  exact h.readMessage (framed_of_not_mem (Json.visible_print _).not_mem)
    (Nat.le_trans (Response.length_header_le hsized) hlimit)

theorem readBody (h : c.Delivers (r.tail ++ rest)) :
    ∃ buffer arrivals, c.readBody r.told = ({ c with buffer, arrivals }, .ok r.received) ∧
      Delivers { c with buffer, arrivals } rest := by
  cases r with
  | okay => exact ⟨c.buffer, c.arrivals, rfl, h⟩
  | error code => exact ⟨c.buffer, c.arrivals, rfl, h⟩
  | body bytes =>
    obtain ⟨buffer, arrivals, hread, hleft⟩ := h.readExact
    refine ⟨buffer, arrivals, ?_, hleft⟩
    rw [Response.tail, List.length_append] at hread
    simp only [Connection.readBody, Response.told, hread, Response.trimBody_append,
      Response.received]

/-- A reply comes off the stream as it was sent, whatever follows. -/
theorem readReply (h : c.Delivers (r.encode ++ rest)) (hsized : r.Sized)
    (hlimit : maxMessageSize ≤ c.limit) :
    ∃ buffer arrivals, c.readReply = ({ c with buffer, arrivals }, .ok (some r.received)) ∧
      Delivers { c with buffer, arrivals } rest := by
  obtain ⟨buffer, arrivals, hheader, htail⟩ := h.readHeader hsized hlimit
  obtain ⟨buffer', arrivals', hbody, hleft⟩ := htail.readBody
  refine ⟨buffer', arrivals', ?_, hleft⟩
  rw [Connection.readReply, hheader]
  simp only [Response.parse_header hsized, hbody]

theorem readReply_end (h : c.Delivers []) : c.readReply = (c, .ok none) := by
  obtain ⟨hbuffer, harrivals⟩ := h.ended
  rw [Connection.readReply, h.readMessage_end rfl (Nat.zero_le _)]
  simp only [List.all_nil, if_true]
  rw [← hbuffer, ← harrivals]

end Delivers

/-- However the replies are cut into reads, and whatever bytes their bodies hold, their receiver
has each of them as it was sent and then the end of the stream, with no byte left over. -/
theorem replies_received {rs : List Response} (hsized : ∀ r ∈ rs, r.Sized) {c : Connection}
    (h : c.Delivers (rs.flatMap Response.encode)) (hlimit : maxMessageSize ≤ c.limit) :
    ∃ c', c.Yields (rs.map Response.received) c' ∧ c'.buffer = [] ∧ c'.arrivals = [] ∧
      ∀ others c'', c.Yields (others.map Response.received) c'' → others = rs ∧ c'' = c' := by
  have hall : ∃ c', c.Yields (rs.map Response.received) c' ∧ c'.Delivers [] := by
    induction rs generalizing c with
    | nil => exact ⟨c, .done h.readReply_end, h⟩
    | cons r rs ih =>
      rw [List.flatMap_cons] at h
      obtain ⟨buffer, arrivals, hread, hrest⟩ :=
        h.readReply (hsized r List.mem_cons_self) hlimit
      obtain ⟨c', hyields, hend⟩ :=
        ih (fun r hr => hsized r (List.mem_cons_of_mem _ hr)) hrest hlimit
      exact ⟨c', .reply hread hyields, hend⟩
  obtain ⟨c', hyields, hend⟩ := hall
  refine ⟨c', hyields, hend.ended.1, hend.ended.2, fun others c'' hothers => ?_⟩
  obtain ⟨heq, rfl⟩ := hothers.unique hyields
  exact ⟨(List.map_inj_right fun _ _ h => Response.received_injective h).mp heq, rfl⟩

/-- Bodies that hold, end with and are nothing but a delimiter. -/
def lookalikes : List Response :=
  [.body Response.okay.encode, .okay, .body [], .error .badMethod, .body delimiter]

/-- They arrive byte by byte. -/
theorem replies_received_bytewise :
    let bytes := lookalikes.flatMap Response.encode
    let c : Connection :=
      { peer := { ip := .v4 #v[10, 0, 0, 9], port := 4000 }
        arrivals := (bytes.map fun b => [b]).map .bytes }
    (∀ r ∈ lookalikes, r.Sized) ∧ c.Delivers bytes ∧ maxMessageSize ≤ c.limit ∧
      ∃ c', c.Yields [.body Response.okay.encode, .okay, .body [],
        .error ErrorCode.badMethod.code ErrorCode.badMethod.reason, .body delimiter] c' := by
  intro bytes c
  have hsized : ∀ r ∈ lookalikes, r.Sized := by decide +kernel
  have hdelivers : c.Delivers bytes := delivers_bytes c.peer bytes
  obtain ⟨c', hyields, _⟩ := replies_received hsized hdelivers (Nat.le_refl _)
  exact ⟨hsized, hdelivers, Nat.le_refl _, c', hyields⟩

end Connection
end FloodMesh
