import FloodMesh.Proofs.Stream.Limit

/-!
# FloodMesh.Proofs.Stream.Conservation

Bytes on their way through a connection, whatever is asked of it in whatever order, and wherever
reads fail. What was handed out, what was dropped at the end of the stream and what is buffered make
up the bytes that the stream has delivered: `bytes_conserved`.

* `Passes`: the states of a connection in the middle of a call.
* `Ends`: all ways in which a call ends. The rest of the module inverts this and never looks into
  the loops.
-/

namespace FloodMesh

namespace Arrival

/-- The failure of a read that fails. -/
def fault? (peer : Endpoint) : Arrival → Option NetworkError
  | .bytes _ => none
  | .failure reason => some (.receiveFailed reason)
  | .silence => some (.timeout peer.format)

/-- The next read finds the end of the stream. -/
inductive Exhausted : List Arrival → Prop
  | nil : Exhausted []
  | empty (rest : List Arrival) : Exhausted (.bytes [] :: rest)

end Arrival

namespace Connection

open Arrival (content content_append content_chunks Exhausted)

/-- What is asked of a connection: the next message, or a number of bytes. -/
inductive Call
  | message
  | exact (n : Nat)
  deriving DecidableEq, Repr

inductive Answer
  | message (bytes : Bytes)
  /-- The stream has ended between messages. -/
  | ended
  | exact (bytes : Bytes)
  | failed (e : NetworkError)
  deriving DecidableEq, Repr

namespace Answer

def ofMessage : Except NetworkError (Option Bytes) → Answer
  | .ok (some m) => message m
  | .ok none => ended
  | .error e => failed e

def ofExact : Except NetworkError Bytes → Answer
  | .ok bytes => exact bytes
  | .error e => failed e

/-- The bytes of the stream that an answer hands out. -/
def taken : Answer → Bytes
  | message m => m ++ delimiter
  | exact bytes => bytes
  | ended => []
  | failed _ => []

end Answer

def read (c : Connection) : Call → Connection × Answer
  | .message => (c.readMessage.1, .ofMessage c.readMessage.2)
  | .exact n => ((c.readExact n).1, .ofExact (c.readExact n).2)

/-- Make several calls, one after another. -/
def readAll (c : Connection) : List Call → Connection × List Answer
  | [] => (c, [])
  | call :: calls =>
    let (c, answer) := c.read call
    let (c, answers) := c.readAll calls
    (c, answer :: answers)

/-! ## A call in progress -/

/-- What the buffer holds is not enough for the call. -/
def Call.Wants (limit : Nat) : Call → Bytes → Prop
  | .message, buffer => settled? limit buffer 0 = none
  | .exact n, buffer => buffer.length < n

/-- The connections that a call goes through: each has one more read in its buffer. -/
inductive Passes (call : Call) : Connection → Connection → Prop
  | stay (c : Connection) : Passes call c c
  | read {c c₁ : Connection} {chunk : Bytes} {rest : List Arrival} (hchunk : chunk ≠ [])
      (hwants : call.Wants c.limit c.buffer) (harrivals : c.arrivals = .bytes chunk :: rest)
      (hpass : Passes call { c with buffer := c.buffer ++ chunk, arrivals := rest } c₁) :
      Passes call c c₁

theorem settled?_eq_none {limit : Nat} {buffer : Bytes} :
    settled? limit buffer 0 = none ↔
      findDelimiter buffer 0 = none ∧ buffer.length ≤ limit := by
  constructor
  · intro h
    cases hfind : findDelimiter buffer 0 with
    | some i => simp [settled?, hfind] at h
    | none => simpa [settled?, hfind] using h
  · rintro ⟨hnone, hfits⟩
    exact settled?_short hnone hfits

/-- A call that wants more goes on as if the bytes of the next read had been there before. -/
theorem read_step {call : Call} {c : Connection} {chunk : Bytes} {rest : List Arrival}
    (hchunk : chunk ≠ []) (hwants : call.Wants c.limit c.buffer)
    (harrivals : c.arrivals = .bytes chunk :: rest) :
    c.read call = { c with buffer := c.buffer ++ chunk, arrivals := rest }.read call := by
  cases call with
  | message =>
    have hloop := @readLoop_bytes c.peer _ _ hwants chunk hchunk rest
    simp only [read, readMessage, harrivals, hloop]
  | exact n =>
    have hshort : ¬ n ≤ c.buffer.length := Nat.not_le_of_lt hwants
    simp only [read, readExact, harrivals, fillLoop, if_neg hshort, if_neg hchunk]

namespace Passes

variable {call : Call} {c c₁ : Connection}

theorem read_eq (h : Passes call c c₁) : c.read call = c₁.read call := by
  induction h with
  | stay c => rfl
  | read hchunk hwants harrivals _ ih => exact (read_step hchunk hwants harrivals).trans ih

/-- What a call has gone through has moved from the stream into the buffer, and it would have gone
through the same if the stream went on differently afterwards. -/
theorem reads (h : Passes call c c₁) :
    ∃ chunks : List Bytes, c.arrivals = chunks.map .bytes ++ c₁.arrivals ∧
      c₁.buffer = c.buffer ++ chunks.flatten ∧ c₁.limit = c.limit ∧ c₁.peer = c.peer ∧
      ∀ rest, Passes call { c with arrivals := chunks.map .bytes ++ rest }
        { c₁ with arrivals := rest } := by
  induction h with
  | stay c => exact ⟨[], rfl, (List.append_nil _).symm, rfl, rfl, fun rest => .stay _⟩
  | @read c c₁ chunk rest hchunk hwants harrivals _ ih =>
    obtain ⟨chunks, hchunks, hbuffer, hlimit, hpeer, hpass⟩ := ih
    refine ⟨chunk :: chunks, ?_, ?_, hlimit, hpeer,
      fun more => .read hchunk hwants rfl (hpass more)⟩
    · rw [harrivals]
      exact congrArg _ hchunks
    · simpa using hbuffer

end Passes

/-! ## How a call ends -/

/-- The ways in which a call can end once it goes through no more reads: the connection after it,
and the answer. -/
inductive Ends (c : Connection) : Call → Connection → Answer → Prop
  | message {m left : Bytes} (hm : Framed m) (hbuffer : c.buffer = m ++ delimiter ++ left) :
      Ends c .message { c with buffer := left } (.message m)
  | exact {bytes left : Bytes} (hbuffer : c.buffer = bytes ++ left) :
      Ends c (.exact bytes.length) { c with buffer := left } (.exact bytes)
  | ended (hend : Exhausted c.arrivals) (hblank : c.buffer.all Bytes.isAsciiBlank = true) :
      Ends c .message { c with buffer := [] } .ended
  | tooLarge (hlong : c.limit < c.buffer.length) :
      Ends c .message c (.failed (.messageTooLarge c.buffer.length c.limit))
  | broken (call : Call) (hend : Exhausted c.arrivals) : Ends c call c (.failed .connectionReset)
  | interrupted (call : Call) {a : Arrival} {e : NetworkError} {rest : List Arrival}
      (hnext : c.arrivals = a :: rest) (hfault : a.fault? c.peer = some e) :
      Ends c call { c with arrivals := rest } (.failed e)

/-- The buffer is enough for the call. -/
theorem ends_settled {call : Call} {c : Connection} (h : ¬ call.Wants c.limit c.buffer) :
    c.Ends call (c.read call).1 (c.read call).2 := by
  cases call with
  | message =>
    cases hfind : findDelimiter c.buffer 0 with
    | some i =>
      obtain ⟨hm, hbuffer, _⟩ := framed_take hfind
      have hsettled : settled? c.limit c.buffer 0 = some
          (.ok (some (c.buffer.take i)), c.buffer.drop (i + delimiter.length)) := by
        rw [settled?, hfind]
      simp only [read, readMessage, readLoop_settled hsettled]
      exact .message hm hbuffer
    | none =>
      have hlong : c.limit < c.buffer.length :=
        Nat.lt_of_not_le fun hfits => h (settled?_short hfind hfits)
      simp only [read, readMessage, readLoop_settled (settled?_long hfind hlong)]
      exact .tooLarge hlong
  | exact n =>
    have hwhole : n ≤ c.buffer.length := Nat.le_of_not_lt h
    have hread : c.read (.exact n) =
        ({ c with buffer := c.buffer.drop n }, .exact (c.buffer.take n)) := by
      cases harrivals : c.arrivals with
      | nil => simp [read, readExact, harrivals, fillLoop, if_pos hwhole, Answer.ofExact]
      | cons a rest =>
        cases a <;> simp [read, readExact, harrivals, fillLoop, if_pos hwhole, Answer.ofExact]
    have hexact : c.Ends (.exact (c.buffer.take n).length) { c with buffer := c.buffer.drop n }
        (.exact (c.buffer.take n)) := .exact (List.take_append_drop n c.buffer).symm
    rw [List.length_take_of_le hwhole] at hexact
    rw [hread]
    exact hexact

theorem readLoop_exhausted {peer : Endpoint} {limit : Nat} {buffer : Bytes}
    {arrivals : List Arrival} (hsettled : settled? limit buffer 0 = none)
    (hend : Exhausted arrivals) :
    readLoop peer limit buffer 0 arrivals = ((ending buffer).1, (ending buffer).2, arrivals) := by
  cases hend with
  | nil => rw [readLoop, hsettled]
  | empty rest =>
    rw [readLoop, hsettled]
    exact if_pos rfl

theorem fillLoop_exhausted {peer : Endpoint} {n : Nat} {buffer : Bytes} {arrivals : List Arrival}
    (hshort : buffer.length < n) (hend : Exhausted arrivals) :
    fillLoop peer n buffer arrivals = (.error .connectionReset, buffer, arrivals) := by
  have hmore : ¬ n ≤ buffer.length := Nat.not_le_of_lt hshort
  cases hend with
  | nil => rw [fillLoop, if_neg hmore]
  | empty rest =>
    rw [fillLoop, if_neg hmore]
    exact if_pos rfl

/-- The stream has ended, and the call wants more. -/
theorem ends_exhausted {call : Call} {c : Connection} (hwants : call.Wants c.limit c.buffer)
    (hend : Exhausted c.arrivals) : c.Ends call (c.read call).1 (c.read call).2 := by
  cases call with
  | message =>
    simp only [read, readMessage, readLoop_exhausted hwants hend, ending]
    split
    · rename_i hblank
      exact .ended hend hblank
    · exact .broken .message hend
  | exact n =>
    simp only [read, readExact, fillLoop_exhausted hwants hend]
    exact .broken (.exact n) hend

/-- The next read fails, and the call wants more. -/
theorem read_interrupted {call : Call} {c : Connection} {a : Arrival} {e : NetworkError}
    {rest : List Arrival} (hwants : call.Wants c.limit c.buffer) (hnext : c.arrivals = a :: rest)
    (hfault : a.fault? c.peer = some e) :
    c.read call = ({ c with arrivals := rest }, .failed e) := by
  cases call with
  | message =>
    have hsettled : settled? c.limit c.buffer 0 = none := hwants
    cases a with
    | bytes chunk => cases hfault
    | failure reason =>
      cases hfault
      simp [read, readMessage, hnext, readLoop, hsettled, Answer.ofMessage]
    | silence =>
      cases hfault
      simp [read, readMessage, hnext, readLoop, hsettled, Answer.ofMessage]
  | exact n =>
    have hshort : ¬ n ≤ c.buffer.length := Nat.not_le_of_lt hwants
    cases a with
    | bytes chunk => cases hfault
    | failure reason =>
      cases hfault
      simp [read, readExact, hnext, fillLoop, if_neg hshort, Answer.ofExact]
    | silence =>
      cases hfault
      simp [read, readExact, hnext, fillLoop, if_neg hshort, Answer.ofExact]

/-- Every call goes through some reads and then ends. -/
theorem read_ends (c : Connection) (call : Call) :
    ∃ c₁, Passes call c c₁ ∧ c₁.Ends call (c.read call).1 (c.read call).2 := by
  -- On the reads to come. As long as the call wants more, the next of them decides.
  generalize hreads : c.arrivals = reads
  induction reads generalizing c with
  | nil =>
    by_cases hwants : call.Wants c.limit c.buffer
    · exact ⟨c, .stay c, ends_exhausted hwants (hreads ▸ .nil)⟩
    · exact ⟨c, .stay c, ends_settled hwants⟩
  | cons a rest ih =>
    by_cases hwants : call.Wants c.limit c.buffer
    · have hfault : ∀ e, a.fault? c.peer = some e →
          ∃ c₁, Passes call c c₁ ∧ c₁.Ends call (c.read call).1 (c.read call).2 := by
        intro e he
        rw [read_interrupted hwants hreads he]
        exact ⟨c, .stay c, .interrupted call hreads he⟩
      cases a with
      | bytes chunk =>
        by_cases hchunk : chunk = []
        · subst hchunk
          exact ⟨c, .stay c, ends_exhausted hwants (hreads ▸ .empty rest)⟩
        · obtain ⟨c₁, hpass, hends⟩ :=
            ih { c with buffer := c.buffer ++ chunk, arrivals := rest } rfl
          rw [read_step hchunk hwants hreads]
          exact ⟨c₁, .read hchunk hwants hreads hpass, hends⟩
      | failure reason => exact hfault _ rfl
      | silence => exact hfault _ rfl
    · exact ⟨c, .stay c, ends_settled hwants⟩

/-! ## What calls leave -/

/-- What answers have handed out, and what was dropped, is gone from the buffer, and all else that
was read is there. Only the end of the stream drops anything, and only blanks. At the end nothing
more is read. -/
structure Accounts (c c' : Connection) (answers : List Answer) (consumed : List Arrival)
    (dropped : Bytes) : Prop where
  arrivals : c.arrivals = consumed ++ c'.arrivals
  bytes : c.buffer ++ content consumed = answers.flatMap Answer.taken ++ dropped ++ c'.buffer
  ended : dropped ≠ [] → .ended ∈ answers ∧ c'.buffer = [] ∧ Exhausted c'.arrivals
  blank : dropped.all Bytes.isAsciiBlank = true
  exhausted : Exhausted c.arrivals → consumed = []

theorem content_fault {a : Arrival} {peer : Endpoint} {e : NetworkError}
    (h : a.fault? peer = some e) : content [a] = [] := by
  cases a with
  | bytes chunk => cases h
  | failure reason => rfl
  | silence => rfl

theorem Ends.accounts {c c' : Connection} {call : Call} {answer : Answer}
    (h : c.Ends call c' answer) : ∃ consumed dropped, c.Accounts c' [answer] consumed dropped := by
  cases h with
  | message hm hbuffer =>
    exact ⟨[], [], rfl, by simp [content, Answer.taken, hbuffer], fun h => absurd rfl h, rfl,
      fun _ => rfl⟩
  | exact hbuffer =>
    exact ⟨[], [], rfl, by simp [content, Answer.taken, hbuffer], fun h => absurd rfl h, rfl,
      fun _ => rfl⟩
  | ended hend hblank =>
    refine ⟨[], c.buffer, rfl, by simp [content, Answer.taken], fun _ => ?_, hblank, fun _ => rfl⟩
    exact ⟨List.mem_singleton_self _, rfl, hend⟩
  | tooLarge hlong =>
    exact ⟨[], [], rfl, by simp [content, Answer.taken], fun h => absurd rfl h, rfl, fun _ => rfl⟩
  | broken _ hend =>
    exact ⟨[], [], rfl, by simp [content, Answer.taken], fun h => absurd rfl h, rfl, fun _ => rfl⟩
  | @interrupted _ a e rest hnext hfault =>
    refine ⟨[a], [], hnext, ?_, fun h => absurd rfl h, rfl, fun hend => ?_⟩
    · simp [content_fault hfault, Answer.taken]
    · rw [hnext] at hend
      cases hend
      cases hfault

/-- At the end of the stream a call goes through no reads. -/
theorem Passes.eq_of_exhausted {call : Call} {c c₁ : Connection} (h : Passes call c c₁)
    (hend : Exhausted c.arrivals) : c₁ = c := by
  cases h with
  | stay => rfl
  | read hchunk _ harrivals =>
    rw [harrivals] at hend
    cases hend
    exact absurd rfl hchunk

theorem Passes.accounts {call : Call} {c c₁ : Connection} (h : Passes call c c₁) :
    ∃ consumed, c.Accounts c₁ [] consumed [] := by
  obtain ⟨chunks, harrivals, hbuffer, _⟩ := h.reads
  refine ⟨chunks.map .bytes, harrivals, ?_, fun h => absurd rfl h, rfl, fun hend => ?_⟩
  · simp [content_chunks, hbuffer]
  · rw [h.eq_of_exhausted hend] at harrivals
    exact List.self_eq_append_left.mp harrivals

theorem Accounts.trans {c c₁ c' : Connection} {answers answers' : List Answer}
    {consumed consumed' : List Arrival} {dropped dropped' : Bytes}
    (h : c.Accounts c₁ answers consumed dropped)
    (h' : c₁.Accounts c' answers' consumed' dropped') :
    ∃ all, c.Accounts c' (answers ++ answers') (consumed ++ consumed') all := by
  have harrivals : c.arrivals = consumed ++ consumed' ++ c'.arrivals := by
    rw [h.arrivals, h'.arrivals, List.append_assoc]
  have hexhausted : Exhausted c.arrivals → consumed ++ consumed' = [] := by
    intro hend
    have hnone := h.exhausted hend
    have hsame := h.arrivals
    rw [hnone, List.nil_append] at hsame
    rw [hnone, h'.exhausted (hsame ▸ hend)]
    rfl
  by_cases hdropped : dropped = []
  · subst hdropped
    refine ⟨dropped', harrivals, ?_, ?_, h'.blank, hexhausted⟩
    · rw [content_append, ← List.append_assoc, h.bytes, List.append_assoc, h'.bytes]
      simp
    · intro hne
      obtain ⟨hended, hleft⟩ := h'.ended hne
      exact ⟨List.mem_append_right _ hended, hleft⟩
  · -- After the end of the stream there is nothing that could be handed out or dropped.
    obtain ⟨hended, hbuffer, hend⟩ := h.ended hdropped
    obtain rfl := h'.exhausted hend
    have hsame := h'.arrivals
    rw [List.nil_append] at hsame
    have hbytes := h'.bytes
    rw [hbuffer, content, eq_comm] at hbytes
    simp only [List.append_nil, List.append_eq_nil_iff] at hbytes
    obtain ⟨⟨htaken, rfl⟩, hbuffer'⟩ := hbytes
    refine ⟨dropped, harrivals, ?_, ?_, h.blank, hexhausted⟩
    · rw [List.append_nil, h.bytes, List.flatMap_append, htaken, hbuffer, hbuffer']
      simp
    · exact fun _ => ⟨List.mem_append_left _ hended, hbuffer', hsame ▸ hend⟩

theorem read_accounts (c : Connection) (call : Call) :
    ∃ consumed dropped, c.Accounts (c.read call).1 [(c.read call).2] consumed dropped := by
  obtain ⟨c₁, hpass, hends⟩ := c.read_ends call
  obtain ⟨consumed, hbefore⟩ := hpass.accounts
  obtain ⟨consumed', dropped, hafter⟩ := hends.accounts
  exact ⟨consumed ++ consumed', hbefore.trans hafter⟩

theorem readAll_accounts (c : Connection) (calls : List Call) :
    ∃ consumed dropped, c.Accounts (c.readAll calls).1 (c.readAll calls).2 consumed dropped := by
  induction calls generalizing c with
  | nil =>
    exact ⟨[], [], rfl, by simp [content, readAll], fun h => absurd rfl h, rfl, fun _ => rfl⟩
  | cons call calls ih =>
    obtain ⟨consumed, dropped, hfirst⟩ := c.read_accounts call
    obtain ⟨consumed', dropped', hrest⟩ := ih (c.read call).1
    exact ⟨consumed ++ consumed', hfirst.trans hrest⟩

/-- A call that fails leaves in the buffer all that it has read, so that the same call made again
answers what it would have answered without the failing read. -/
theorem read_failed {c : Connection} {call : Call} {e : NetworkError}
    (h : (c.read call).2 = .failed e) :
    ∃ (chunks : List Bytes) (fault : Option Arrival),
      c.arrivals = chunks.map Arrival.bytes ++ fault.toList ++ (c.read call).1.arrivals ∧
      (∀ a ∈ fault, a.fault? c.peer = some e) ∧
      (c.read call).1.buffer = c.buffer ++ chunks.flatten ∧
      (c.read call).1.read call =
        { c with arrivals := chunks.map Arrival.bytes ++ (c.read call).1.arrivals }.read call := by
  obtain ⟨c₁, hpass, hends⟩ := c.read_ends call
  obtain ⟨chunks, harrivals, hbuffer, _, hpeer, hagain⟩ := hpass.reads
  generalize (c.read call).1 = c', (c.read call).2 = answer at hends h ⊢
  cases hends with
  | message | exact | ended => cases h
  | tooLarge | broken =>
    refine ⟨chunks, none, by simpa using harrivals, by simp, hbuffer, ?_⟩
    exact (hagain c₁.arrivals).read_eq.symm
  | @interrupted _ a e' rest hnext hfault =>
    cases h
    refine ⟨chunks, some a, by simp [harrivals, hnext], ?_, hbuffer, (hagain rest).read_eq.symm⟩
    intro b hb
    cases hb
    rw [← hpeer]
    exact hfault

/-! ## What messages are -/

theorem delimiter_infix_iff {bytes : Bytes} : delimiter <:+: bytes ↔ ∃ i, DelimiterAt bytes i := by
  constructor
  · rintro ⟨front, rest, rfl⟩
    refine ⟨front.length, delimiterAt_iff.mpr ?_⟩
    rw [List.append_assoc, List.drop_left, List.take_left]
  · rintro ⟨i, hat⟩
    rw [← delimiterAt_iff.mp hat]
    exact (List.take_prefix _ _).isInfix.trans (List.drop_suffix i bytes).isInfix

theorem Framed.delimiter_free {m : Bytes} (h : Framed m) : ¬ delimiter <:+: m := by
  rw [delimiter_infix_iff]
  rintro ⟨i, hat⟩
  have hpos : delimiter.length = 4 := rfl
  have hends := hat.le
  have hle := h.le [] (by simpa using (delimiterAt_append hends delimiter).mpr hat)
  omega

theorem read_framed {c : Connection} {call : Call} {m : Bytes}
    (h : (c.read call).2 = .message m) : Framed m := by
  obtain ⟨c₁, _, hends⟩ := c.read_ends call
  generalize (c.read call).1 = c', (c.read call).2 = answer at hends h
  cases hends with
  | message hm =>
    cases h
    exact hm
  | exact | ended | tooLarge | broken | interrupted => cases h

theorem readAll_framed {c : Connection} {calls : List Call} {m : Bytes}
    (h : .message m ∈ (c.readAll calls).2) : Framed m := by
  induction calls generalizing c with
  | nil => cases h
  | cons call calls ih =>
    rcases List.mem_cons.mp h with hfirst | hrest
    · exact read_framed hfirst.symm
    · exact ih hrest

/-! ## The room a buffer takes -/

/-- What is buffered exceeds the limit by no more than a read takes. -/
structure Bounded (c : Connection) : Prop where
  reads : ∀ chunk, .bytes chunk ∈ c.arrivals → chunk.length ≤ Arrival.readSize
  buffer : c.buffer.length ≤ c.limit + Arrival.readSize

namespace Bounded

variable {c c₁ c' : Connection}

theorem passes (h : c.Bounded) (hpass : Passes .message c c₁) : c₁.Bounded := by
  induction hpass with
  | stay c => exact h
  | @read c c₁ chunk rest _ hwants harrivals _ ih =>
    refine ih ⟨fun chunk' hchunk => ?_, ?_⟩
    · exact h.reads chunk' (by rw [harrivals]; exact List.mem_cons_of_mem _ hchunk)
    · have hfits := (settled?_eq_none.mp hwants).2
      have hchunk := h.reads chunk (by rw [harrivals]; exact List.mem_cons_self)
      simp only [List.length_append]
      omega

theorem ends (h : c.Bounded) {call : Call} {answer : Answer} (hends : c.Ends call c' answer) :
    c'.Bounded := by
  cases hends with
  | message hm hbuffer =>
    refine ⟨h.reads, ?_⟩
    have hlength := congrArg List.length hbuffer
    have hbound := h.buffer
    simp only [List.length_append] at hlength ⊢
    omega
  | exact hbuffer =>
    refine ⟨h.reads, ?_⟩
    have hlength := congrArg List.length hbuffer
    have hbound := h.buffer
    simp only [List.length_append] at hlength ⊢
    omega
  | ended hend hblank => exact ⟨h.reads, Nat.zero_le _⟩
  | tooLarge | broken => exact h
  | interrupted _ hnext hfault =>
    refine ⟨fun chunk hchunk => h.reads chunk ?_, h.buffer⟩
    rw [hnext]
    exact List.mem_cons_of_mem _ hchunk

theorem read (h : c.Bounded) : (c.read .message).1.Bounded := by
  obtain ⟨c₁, hpass, hends⟩ := c.read_ends .message
  exact (h.passes hpass).ends hends

theorem readAll (h : c.Bounded) {calls : List Call} (hcalls : ∀ call ∈ calls, call = .message) :
    (c.readAll calls).1.Bounded := by
  induction calls generalizing c with
  | nil => exact h
  | cons call calls ih =>
    cases hcalls call List.mem_cons_self
    exact ih h.read fun call' hcall => hcalls call' (List.mem_cons_of_mem _ hcall)

end Bounded

theorem Ends.limit {c c' : Connection} {call : Call} {answer : Answer}
    (h : c.Ends call c' answer) : c'.limit = c.limit := by
  cases h <;> rfl

theorem limit_readAll (c : Connection) (calls : List Call) :
    (c.readAll calls).1.limit = c.limit := by
  induction calls generalizing c with
  | nil => rfl
  | cons call calls ih =>
    obtain ⟨c₁, hpass, hends⟩ := c.read_ends call
    obtain ⟨_, _, _, hlimit, _⟩ := hpass.reads
    exact (ih _).trans (hends.limit.trans hlimit)

/-- Whatever mix of calls is made and wherever reads fail, what was handed out, what was dropped and
what is buffered are the bytes that the stream has delivered, in their order. Only the end of the
stream between messages drops any, and these are blanks. A call that fails drops none, and made
again it goes on as if no read had failed. No message holds a delimiter. As long as messages are all
that is asked for, what is buffered, also in the middle of a call, exceeds the limit by no more than
a read takes. -/
theorem bytes_conserved (c : Connection) (calls : List Call) :
    let c' := (c.readAll calls).1
    let answers := (c.readAll calls).2
    (∃ consumed dropped, c.arrivals = consumed ++ c'.arrivals ∧
      answers.flatMap Answer.taken ++ dropped ++ c'.buffer = c.buffer ++ content consumed ∧
      dropped.all Bytes.isAsciiBlank = true ∧ (dropped ≠ [] → .ended ∈ answers)) ∧
    (∀ call e, (c'.read call).2 = .failed e →
      ∃ (chunks : List Bytes) (fault : Option Arrival),
        c'.arrivals = chunks.map Arrival.bytes ++ fault.toList ++ (c'.read call).1.arrivals ∧
        (∀ a ∈ fault, a.fault? c'.peer = some e) ∧
        (c'.read call).1.buffer = c'.buffer ++ chunks.flatten ∧
        (c'.read call).1.read call =
          { c' with
            arrivals := chunks.map Arrival.bytes ++ (c'.read call).1.arrivals }.read call) ∧
    (∀ m, .message m ∈ answers → ¬ delimiter <:+: m) ∧
    ((∀ call ∈ calls, call = .message) → c.buffer = [] →
      (∀ chunk, .bytes chunk ∈ c.arrivals → chunk.length ≤ Arrival.readSize) →
      ∀ c'', Passes .message c' c'' → c''.buffer.length ≤ c.limit + Arrival.readSize) := by
  intro c' answers
  refine ⟨?_, fun call e h => read_failed h, fun m hm => (readAll_framed hm).delimiter_free, ?_⟩
  · obtain ⟨consumed, dropped, h⟩ := c.readAll_accounts calls
    exact ⟨consumed, dropped, h.arrivals, h.bytes.symm, h.blank, fun hne => (h.ended hne).1⟩
  · intro hcalls hbuffer hreads c'' hpass
    have hbounded : c.Bounded := ⟨hreads, by simp [hbuffer]⟩
    obtain ⟨_, _, _, hlimit, _⟩ := hpass.reads
    have hbound := ((hbounded.readAll hcalls).passes hpass).buffer
    rwa [hlimit, limit_readAll] at hbound

/-- A read fails within a delimiter, and the stream ends in a blank. -/
def shaky : Connection :=
  { peer := { ip := .v4 #v[192, 0, 2, 21], port := 9000 }, limit := 6
    arrivals := [.bytes (Bytes.ofString "ab\r"), .failure "reset",
      .bytes (Bytes.ofString "\n\r\ncd"), .bytes (Bytes.ofString " ")] }

theorem bytes_conserved_shaky :
    let calls := [Call.message, .message, .exact 2, .message]
    (shaky.readAll calls).2 =
        [.failed (.receiveFailed "reset"), .message (Bytes.ofString "ab"),
          .exact (Bytes.ofString "cd"), .ended] ∧
      (∃ dropped, dropped ≠ [] ∧ dropped.all Bytes.isAsciiBlank = true ∧
        (shaky.readAll calls).2.flatMap Answer.taken ++ dropped = content shaky.arrivals) ∧
      ¬ delimiter <:+: Bytes.ofString "ab" ∧
      (shaky.readAll [.message]).1.buffer.length ≤ 6 + Arrival.readSize := by
  intro calls
  have hanswers : (shaky.readAll calls).2 =
      [.failed (.receiveFailed "reset"), .message (Bytes.ofString "ab"),
        .exact (Bytes.ofString "cd"), .ended] := by decide +kernel
  have hend : (shaky.readAll calls).1.arrivals = [] ∧ (shaky.readAll calls).1.buffer = [] := by
    decide +kernel
  obtain ⟨⟨consumed, dropped, harrivals, hbytes, hblank, _⟩, _, hmessages, _⟩ :=
    bytes_conserved shaky calls
  obtain ⟨_, _, _, hbound⟩ := bytes_conserved shaky [.message]
  refine ⟨hanswers, ⟨dropped, ?_, hblank, ?_⟩, hmessages _ ?_, ?_⟩
  · rintro rfl
    rw [hend.1, List.append_nil] at harrivals
    rw [hend.2, ← harrivals, hanswers] at hbytes
    exact absurd hbytes (by decide +kernel)
  · rw [hend.1, List.append_nil] at harrivals
    rw [hend.2, ← harrivals, List.append_nil] at hbytes
    exact hbytes
  · rw [hanswers]
    exact List.mem_cons_of_mem _ List.mem_cons_self
  · refine hbound (fun call hcall => List.mem_singleton.mp hcall) rfl ?_ _ (.stay _)
    intro chunk hchunk
    simp only [shaky, List.mem_cons, List.not_mem_nil, or_false, reduceCtorEq, false_or,
      Arrival.bytes.injEq] at hchunk
    rcases hchunk with rfl | rfl | rfl <;> decide

end Connection
end FloodMesh
