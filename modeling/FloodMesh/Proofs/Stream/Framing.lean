import FloodMesh.Stream.Connection

/-!
# FloodMesh.Proofs.Stream.Framing

Messages and bodies taken off a stream. However the stream is cut into reads, what comes off it is
the same: `Delivers` forgets the cuts, and each way of reading is described by what it takes from
the bytes that a connection delivers. Writing neither takes from them nor adds to them.
-/

namespace FloodMesh

namespace Arrival

/-- The bytes that arrivals bring. -/
def content : List Arrival → Bytes
  | [] => []
  | .bytes chunk :: rest => chunk ++ content rest
  | _ :: rest => content rest

/-- Reads that each bring bytes, no more than a read takes. -/
def Segmented (arrivals : List Arrival) : Prop :=
  ∀ a ∈ arrivals, ∃ chunk, a = .bytes chunk ∧ 0 < chunk.length ∧ chunk.length ≤ readSize

theorem Segmented.tail {a : Arrival} {rest : List Arrival} (h : Segmented (a :: rest)) :
    Segmented rest :=
  fun b hb => h b (List.mem_cons_of_mem a hb)

theorem Segmented.eq_nil {arrivals : List Arrival} (h : Segmented arrivals)
    (hcontent : content arrivals = []) : arrivals = [] := by
  cases arrivals with
  | nil => rfl
  | cons a rest =>
    obtain ⟨chunk, rfl, hpos, _⟩ := h a List.mem_cons_self
    rw [content, List.append_eq_nil_iff] at hcontent
    rw [hcontent.1] at hpos
    cases hpos

theorem content_chunks (chunks : List Bytes) : content (chunks.map .bytes) = chunks.flatten := by
  induction chunks with
  | nil => rfl
  | cons chunk chunks ih => rw [List.map_cons, content, ih, List.flatten_cons]

end Arrival

namespace Connection

/-! ## Where delimiters stand -/

def DelimiterAt (bytes : Bytes) (i : Nat) : Prop := startsWithDelimiter (bytes.drop i) = true

theorem delimiterAt_iff {bytes : Bytes} {i : Nat} :
    DelimiterAt bytes i ↔ (bytes.drop i).take delimiter.length = delimiter := by
  simp [DelimiterAt, startsWithDelimiter]

theorem DelimiterAt.le {bytes : Bytes} {i : Nat} (h : DelimiterAt bytes i) :
    i + delimiter.length ≤ bytes.length := by
  have hlength := congrArg List.length (delimiterAt_iff.mp h)
  have hpos : delimiter.length = 4 := rfl
  rw [List.length_take, List.length_drop] at hlength
  omega

/-- What follows does not matter to a delimiter that is there as a whole. -/
theorem delimiterAt_append {front : Bytes} {i : Nat} (h : i + delimiter.length ≤ front.length)
    (rest : Bytes) : DelimiterAt (front ++ rest) i ↔ DelimiterAt front i := by
  rw [delimiterAt_iff, delimiterAt_iff, List.drop_append_of_le_length (by omega),
    List.take_append_of_le_length (by rw [List.length_drop]; omega)]

theorem delimiterAt_drop (bytes : Bytes) (scanned i : Nat) :
    DelimiterAt (bytes.drop scanned) i ↔ DelimiterAt bytes (scanned + i) := by
  rw [DelimiterAt, DelimiterAt, List.drop_drop]

theorem searchDelimiter_eq_some {position p : Nat} {bytes : Bytes} :
    searchDelimiter position bytes = some p ↔
      ∃ i, p = position + i ∧ DelimiterAt bytes i ∧ ∀ j < i, ¬ DelimiterAt bytes j := by
  induction bytes generalizing position with
  | nil =>
    constructor
    · intro h
      cases h
    · rintro ⟨i, _, hat, _⟩
      rw [DelimiterAt, List.drop_nil] at hat
      cases hat
  | cons b rest ih =>
    rw [searchDelimiter]
    by_cases hstart : startsWithDelimiter (b :: rest) = true
    · rw [if_pos hstart]
      constructor
      · intro h
        cases h
        exact ⟨0, rfl, hstart, fun j hj => nomatch hj⟩
      · rintro ⟨i, rfl, _, hfirst⟩
        cases i with
        | zero => rfl
        | succ i => exact absurd hstart (hfirst 0 (Nat.succ_pos i))
    · rw [if_neg hstart, ih]
      constructor
      · rintro ⟨i, rfl, hat, hfirst⟩
        refine ⟨i + 1, by omega, hat, fun j hj => ?_⟩
        cases j with
        | zero => exact hstart
        | succ j => exact hfirst j (Nat.lt_of_succ_lt_succ hj)
      · rintro ⟨i, rfl, hat, hfirst⟩
        cases i with
        | zero => exact absurd hat hstart
        | succ i => exact ⟨i, by omega, hat, fun j hj => hfirst (j + 1) (Nat.succ_lt_succ hj)⟩

theorem findDelimiter_eq_some {buffer : Bytes} {scanned p : Nat} :
    findDelimiter buffer scanned = some p ↔
      scanned ≤ p ∧ DelimiterAt buffer p ∧
        ∀ j, scanned ≤ j → j < p → ¬ DelimiterAt buffer j := by
  rw [findDelimiter, searchDelimiter_eq_some]
  constructor
  · rintro ⟨i, rfl, hat, hfirst⟩
    refine ⟨Nat.le_add_right _ _, (delimiterAt_drop _ _ _).mp hat, fun j hle hlt hj => ?_⟩
    refine hfirst (j - scanned) (by omega) ((delimiterAt_drop _ _ _).mpr ?_)
    rwa [Nat.add_sub_of_le hle]
  · rintro ⟨hle, hat, hfirst⟩
    refine ⟨p - scanned, by omega, (delimiterAt_drop _ _ _).mpr ?_, fun j hj hdrop => ?_⟩
    · rwa [Nat.add_sub_of_le hle]
    · exact hfirst (scanned + j) (Nat.le_add_right _ _) (by omega) ((delimiterAt_drop _ _ _).mp hdrop)

theorem findDelimiter_eq_none {buffer : Bytes} :
    findDelimiter buffer 0 = none ↔ ∀ i, ¬ DelimiterAt buffer i := by
  constructor
  · intro h i hat
    -- The least position with a delimiter would have been found.
    induction i using Nat.strongRecOn with
    | ind i ih =>
      have hfound := findDelimiter_eq_some.mpr
        ⟨Nat.zero_le i, hat, fun j _ hj hbefore => ih j hj hbefore⟩
      rw [h] at hfound
      cases hfound
  · intro h
    cases hfind : findDelimiter buffer 0 with
    | none => rfl
    | some p => exact absurd (findDelimiter_eq_some.mp hfind).2.1 (h p)

theorem findDelimiter_front {front rest : Bytes} (h : findDelimiter (front ++ rest) 0 = none) :
    findDelimiter front 0 = none :=
  findDelimiter_eq_none.mpr fun i hat =>
    findDelimiter_eq_none.mp h i ((delimiterAt_append hat.le rest).mpr hat)

/-- The search may be resumed three bytes before the end of what has been searched. -/
theorem findDelimiter_resume {buffer : Bytes} (h : findDelimiter buffer 0 = none)
    (chunk : Bytes) :
    findDelimiter (buffer ++ chunk) (buffer.length - (delimiter.length - 1)) =
      findDelimiter (buffer ++ chunk) 0 := by
  have hnone := findDelimiter_eq_none.mp h
  have hfour : delimiter.length = 4 := rfl
  have hsearched : ∀ j < buffer.length - (delimiter.length - 1),
      ¬ DelimiterAt (buffer ++ chunk) j := by
    intro j hj hat
    exact hnone j ((delimiterAt_append (by omega) chunk).mp hat)
  refine Option.ext fun p => ?_
  rw [findDelimiter_eq_some, findDelimiter_eq_some]
  constructor
  · rintro ⟨_, hat, hfirst⟩
    refine ⟨Nat.zero_le p, hat, fun j _ hj => ?_⟩
    by_cases hlt : j < buffer.length - (delimiter.length - 1)
    · exact hsearched j hlt
    · exact hfirst j (Nat.le_of_not_lt hlt) hj
  · rintro ⟨_, hat, hfirst⟩
    exact ⟨Nat.le_of_not_lt fun hlt => hsearched p hlt hat, hat,
      fun j _ hj => hfirst j (Nat.zero_le j) hj⟩

/-! ## Messages -/

/-- Bytes that a delimiter behind them makes a message: it is the first one. -/
def Framed (m : Bytes) : Prop := findDelimiter (m ++ delimiter) 0 = some m.length

theorem Framed.le {m : Bytes} (h : Framed m) (rest : Bytes) {i : Nat}
    (hat : DelimiterAt (m ++ delimiter ++ rest) i) : m.length ≤ i := by
  refine Nat.le_of_not_lt fun hlt => ?_
  refine (findDelimiter_eq_some.mp h).2.2 i (Nat.zero_le i) hlt ((delimiterAt_append ?_ rest).mp hat)
  rw [List.length_append]
  omega

/-- Bytes without a carriage return hold nothing that looks like a delimiter. -/
theorem framed_of_not_mem {m : Bytes} (h : 0x0d ∉ m) : Framed m := by
  refine findDelimiter_eq_some.mpr ⟨Nat.zero_le _, ?_, fun j _ hj hat => ?_⟩
  · rw [DelimiterAt, List.drop_left]
    rfl
  · have hhead : (m ++ delimiter)[j]? = some 0x0d := by
      have hdrop := congrArg List.head? (delimiterAt_iff.mp hat)
      rwa [List.head?_take, if_neg (by decide), List.head?_drop] at hdrop
    rw [List.getElem?_append_left hj] at hhead
    exact h (List.mem_of_getElem? hhead)

section Loop

variable {peer : Endpoint} {limit : Nat} {buffer : Bytes} {arrivals : List Arrival}

theorem readLoop_settled {answer : Except NetworkError (Option Bytes)} {left : Bytes}
    (h : settled? limit buffer 0 = some (answer, left)) :
    readLoop peer limit buffer 0 arrivals = (answer, left, arrivals) := by
  cases arrivals with
  | nil => rw [readLoop, h]
  | cons a rest => cases a <;> rw [readLoop, h]

/-- Reading goes on as if the bytes of a read had been there from the beginning. -/
theorem readLoop_bytes (h : settled? limit buffer 0 = none) {chunk : Bytes}
    (hchunk : chunk ≠ []) (rest : List Arrival) :
    readLoop peer limit buffer 0 (.bytes chunk :: rest) =
      readLoop peer limit (buffer ++ chunk) 0 rest := by
  have hnone : findDelimiter buffer 0 = none := by
    rw [settled?] at h
    split at h
    · cases h
    · assumption
  have hresume : settled? limit (buffer ++ chunk) (buffer.length - (delimiter.length - 1)) =
      settled? limit (buffer ++ chunk) 0 := by
    rw [settled?, settled?, findDelimiter_resume hnone chunk]
  rw [readLoop, h]
  simp only [if_neg hchunk]
  cases rest with
  | nil => rw [readLoop, readLoop, hresume]
  | cons a rest => cases a <;> rw [readLoop, readLoop, hresume]

theorem settled?_message {m rest : Bytes} (hm : Framed m) :
    settled? limit (m ++ delimiter ++ rest) 0 = some (.ok (some m), rest) := by
  have hfind : findDelimiter (m ++ delimiter ++ rest) 0 = some m.length := by
    refine findDelimiter_eq_some.mpr ⟨Nat.zero_le _, ?_, fun j _ hj hat => ?_⟩
    · rw [delimiterAt_append (Nat.le_of_eq List.length_append.symm)]
      exact (findDelimiter_eq_some.mp hm).2.1
    · exact absurd (hm.le rest hat) (Nat.not_le_of_lt hj)
  have htake : (m ++ delimiter ++ rest).take m.length = m := by
    rw [List.append_assoc, List.take_left]
  have hdrop : (m ++ delimiter ++ rest).drop (m.length + delimiter.length) = rest := by
    rw [← List.length_append, List.drop_left]
  rw [settled?, hfind]
  simp only [htake, hdrop]

theorem settled?_short (hnone : findDelimiter buffer 0 = none) (hfits : buffer.length ≤ limit) :
    settled? limit buffer 0 = none := by
  rw [settled?, hnone]
  exact if_neg (Nat.not_lt.mpr hfits)

theorem settled?_long (hnone : findDelimiter buffer 0 = none) (hlong : limit < buffer.length) :
    settled? limit buffer 0 = some (.error (.messageTooLarge buffer.length limit), buffer) := by
  rw [settled?, hnone]
  exact if_pos hlong

/-- A message comes off the stream once all of it has arrived, whatever follows, unless the bytes
exceed the limit before. -/
theorem readLoop_message (peer : Endpoint) {m rest : Bytes} (hm : Framed m)
    (hreads : ∀ reads, reads <+: arrivals →
      (buffer ++ Arrival.content reads).length ≤ limit ∨
        m.length + delimiter.length ≤ (buffer ++ Arrival.content reads).length)
    (hsegmented : Arrival.Segmented arrivals)
    (h : buffer ++ Arrival.content arrivals = m ++ delimiter ++ rest) :
    ∃ buffer' arrivals', readLoop peer limit buffer 0 arrivals = (.ok (some m), buffer', arrivals') ∧
      Arrival.Segmented arrivals' ∧ buffer' ++ Arrival.content arrivals' = rest := by
  -- A read moves bytes into the buffer: with what is still to come they are the same stream.
  induction arrivals generalizing buffer with
  | nil =>
    rw [Arrival.content, List.append_nil] at h
    subst h
    exact ⟨rest, [], readLoop_settled (settled?_message hm), hsegmented, List.append_nil rest⟩
  | cons a more ih =>
    obtain ⟨chunk, rfl, hpos, _⟩ := hsegmented a List.mem_cons_self
    by_cases hwhole : m.length + delimiter.length ≤ buffer.length
    · obtain ⟨left, rfl, hleft⟩ : ∃ left, buffer = m ++ delimiter ++ left ∧
          left ++ Arrival.content (.bytes chunk :: more) = rest := by
        obtain ⟨left, hbuffer, hrest⟩ | ⟨left, hbuffer, hrest⟩ := List.append_eq_append_iff.mp h
        · have hlength := congrArg List.length hbuffer
          rw [List.length_append, List.length_append] at hlength
          have hempty : left = [] := List.length_eq_zero_iff.mp (by omega)
          subst hempty
          exact ⟨[], by rw [List.append_nil, hbuffer, List.append_nil], hrest⟩
        · exact ⟨left, hbuffer, hrest.symm⟩
      exact ⟨left, _, readLoop_settled (settled?_message hm), hsegmented, hleft⟩
    · -- What is there so far is too short to hold the delimiter, and so to be too long.
      have hnone : findDelimiter buffer 0 = none := by
        refine findDelimiter_eq_none.mpr fun i hat => ?_
        have hlater := hm.le rest (h ▸ (delimiterAt_append hat.le _).mpr hat)
        have hends := hat.le
        omega
      have hfits : buffer.length ≤ limit := by
        have hnow := hreads [] List.nil_prefix
        rw [Arrival.content, List.append_nil] at hnow
        exact hnow.resolve_right hwhole
      rw [readLoop_bytes (settled?_short hnone hfits) (List.ne_nil_of_length_pos hpos)]
      rw [Arrival.content, ← List.append_assoc] at h
      refine ih (fun reads hprefix => ?_) hsegmented.tail h
      have hlater := hreads (.bytes chunk :: reads) (List.cons_prefix_cons.mpr ⟨rfl, hprefix⟩)
      rwa [Arrival.content, ← List.append_assoc] at hlater

/-- A stream that ends without a delimiter ends between messages if only blanks are left, and within
one otherwise. -/
theorem readLoop_end {left : Bytes} (hnone : findDelimiter left 0 = none)
    (hfits : left.length ≤ limit) (hsegmented : Arrival.Segmented arrivals)
    (h : buffer ++ Arrival.content arrivals = left) :
    readLoop peer limit buffer 0 arrivals =
      if left.all Bytes.isAsciiBlank then (.ok none, [], [])
      else (.error .connectionReset, left, []) := by
  induction arrivals generalizing buffer with
  | nil =>
    rw [Arrival.content, List.append_nil] at h
    subst h
    rw [readLoop, settled?_short hnone hfits]
    simp only [ending]
    split <;> rfl
  | cons a more ih =>
    obtain ⟨chunk, rfl, hpos, _⟩ := hsegmented a List.mem_cons_self
    have hbefore : findDelimiter buffer 0 = none := findDelimiter_front (h ▸ hnone)
    have hlength := congrArg List.length h
    rw [List.length_append] at hlength
    rw [readLoop_bytes (settled?_short hbefore (by omega)) (List.ne_nil_of_length_pos hpos)]
    rw [Arrival.content, ← List.append_assoc] at h
    exact ih hsegmented.tail h

theorem fillLoop_exact (peer : Endpoint) {body rest : Bytes} (hsegmented : Arrival.Segmented arrivals)
    (h : buffer ++ Arrival.content arrivals = body ++ rest) :
    ∃ buffer' arrivals', fillLoop peer body.length buffer arrivals = (.ok body, buffer', arrivals') ∧
      Arrival.Segmented arrivals' ∧ buffer' ++ Arrival.content arrivals' = rest := by
  induction arrivals generalizing buffer with
  | nil =>
    rw [Arrival.content, List.append_nil] at h
    subst h
    refine ⟨rest, [], ?_, hsegmented, List.append_nil rest⟩
    rw [fillLoop, if_pos (by rw [List.length_append]; omega), List.take_left, List.drop_left]
  | cons a more ih =>
    obtain ⟨chunk, rfl, hpos, _⟩ := hsegmented a List.mem_cons_self
    by_cases hwhole : body.length ≤ buffer.length
    · have htake : buffer.take body.length = body := by
        have happend := congrArg (List.take body.length) h
        rwa [List.take_append_of_le_length hwhole, List.take_left] at happend
      have hdrop : buffer.drop body.length ++ Arrival.content (.bytes chunk :: more) = rest := by
        rw [← List.drop_append_of_le_length hwhole, h, List.drop_left]
      refine ⟨_, _, ?_, hsegmented, hdrop⟩
      rw [fillLoop, if_pos hwhole, htake]
    · rw [fillLoop, if_neg hwhole]
      simp only [if_neg (List.ne_nil_of_length_pos hpos)]
      rw [Arrival.content, ← List.append_assoc] at h
      exact ih hsegmented.tail h

end Loop

/-! ## What a connection delivers -/

/-- The bytes that a connection has still to give: those read and not used, and those that reads
will bring, in whatever pieces. -/
structure Delivers (c : Connection) (bytes : Bytes) : Prop where
  segmented : Arrival.Segmented c.arrivals
  content : c.buffer ++ Arrival.content c.arrivals = bytes

theorem delivers_chunks (peer : Endpoint) (chunks : List Bytes)
    (h : ∀ chunk ∈ chunks, 0 < chunk.length ∧ chunk.length ≤ Arrival.readSize) :
    Delivers { peer, arrivals := chunks.map .bytes } chunks.flatten where
  segmented a ha := by
    obtain ⟨chunk, hchunk, rfl⟩ := List.mem_map.mp ha
    exact ⟨chunk, rfl, h chunk hchunk⟩
  content := by rw [List.nil_append, Arrival.content_chunks]

theorem delivers_bytes (peer : Endpoint) (bytes : Bytes) :
    Delivers { peer, arrivals := (bytes.map fun b => [b]).map .bytes } bytes := by
  have h := delivers_chunks peer (bytes.map fun b => [b]) <| by
    intro chunk hchunk
    obtain ⟨b, _, rfl⟩ := List.mem_map.mp hchunk
    exact ⟨Nat.one_pos, Nat.one_le_two_pow (n := 9)⟩
  rwa [← List.flatMap_def, List.flatMap_singleton'] at h

namespace Delivers

variable {c : Connection}

theorem ended (h : c.Delivers []) : c.buffer = [] ∧ c.arrivals = [] := by
  obtain ⟨hbuffer, hcontent⟩ := List.append_eq_nil_iff.mp h.content
  exact ⟨hbuffer, h.segmented.eq_nil hcontent⟩

theorem readMessage {m rest : Bytes} (h : c.Delivers (m ++ delimiter ++ rest)) (hm : Framed m)
    (hfits : m.length + delimiter.length ≤ c.limit) :
    ∃ buffer arrivals, c.readMessage = ({ c with buffer, arrivals }, .ok (some m)) ∧
      Delivers { c with buffer, arrivals } rest := by
  have hreads : ∀ reads, reads <+: c.arrivals →
      (c.buffer ++ Arrival.content reads).length ≤ c.limit ∨
        m.length + delimiter.length ≤ (c.buffer ++ Arrival.content reads).length :=
    fun _ _ => by omega
  obtain ⟨buffer, arrivals, hloop, hsegmented, hcontent⟩ :=
    readLoop_message c.peer hm hreads h.segmented h.content
  refine ⟨buffer, arrivals, ?_, hsegmented, hcontent⟩
  rw [Connection.readMessage, hloop]

theorem readMessage_end {left : Bytes} (h : c.Delivers left) (hnone : findDelimiter left 0 = none)
    (hfits : left.length ≤ c.limit) :
    c.readMessage =
      if left.all Bytes.isAsciiBlank then ({ c with buffer := [], arrivals := [] }, .ok none)
      else ({ c with buffer := left, arrivals := [] }, .error .connectionReset) := by
  rw [Connection.readMessage, readLoop_end hnone hfits h.segmented h.content]
  cases left.all Bytes.isAsciiBlank <;> rfl

theorem readExact {body rest : Bytes} (h : c.Delivers (body ++ rest)) :
    ∃ buffer arrivals, c.readExact body.length = ({ c with buffer, arrivals }, .ok body) ∧
      Delivers { c with buffer, arrivals } rest := by
  obtain ⟨buffer, arrivals, hloop, hsegmented, hcontent⟩ :=
    fillLoop_exact c.peer h.segmented h.content
  refine ⟨buffer, arrivals, ?_, hsegmented, hcontent⟩
  rw [Connection.readExact, hloop]

end Delivers

end Connection

/-! ## Writing -/

namespace Sink

/-- There is room for all that will be written, and flushing works. -/
structure Unfailing (s : Sink) : Prop where
  room : s.room = none
  flush : s.flushFailure = none

def wrote (s : Sink) (bytes : Bytes) : Sink := { s with accepted := s.accepted ++ bytes }

namespace Unfailing

variable {s : Sink}

theorem wrote (h : s.Unfailing) (bytes : Bytes) : (s.wrote bytes).Unfailing := ⟨h.room, h.flush⟩

theorem write (h : s.Unfailing) (bytes : Bytes) : s.write bytes = (s.wrote bytes, .ok ()) := by
  simp [Sink.write, Sink.wrote, h.room, h.flush]

end Unfailing

end Sink

theorem Connection.send_eq {c : Connection} (h : c.sink.Unfailing) (bytes : Bytes) :
    c.send bytes = ({ c with sink := c.sink.wrote bytes }, .ok ()) := by
  rw [send, h.write]

end FloodMesh
