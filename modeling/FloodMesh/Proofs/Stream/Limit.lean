import FloodMesh.Proofs.Stream.Framing

/-!
# FloodMesh.Proofs.Stream.Limit

The limit on the size of a message, and the cuts of the stream that carries it. `Prescribed` is what
the limit says about the bytes alone. A connection looks at the limit between reads only: if one
read takes the bytes past the limit and completes the message, the message comes off the stream
although it exceeds the limit. In all other cases the answer is the prescribed one, and the cuts do
not show.

* `readLoop_tooLarge`: bytes go on behind the limit with no delimiter among them.
* `readMessage_overshoots`, `readMessage_prescribed_iff`: the two ways to be answered.
-/

namespace FloodMesh

namespace Arrival

theorem content_append (front rest : List Arrival) :
    content (front ++ rest) = content front ++ content rest := by
  induction front with
  | nil => rfl
  | cons a front ih => cases a <;> simp [content, ih]

/-- Bytes that exceed a limit together with those there were exceed it after some read, by no more
than a read takes. -/
theorem exists_reads_past {limit size : Nat} {arrivals : List Arrival}
    (hsegmented : Segmented arrivals) (hle : size ≤ limit)
    (hmore : limit < size + (content arrivals).length) :
    ∃ reads, reads <+: arrivals ∧ limit < size + (content reads).length ∧
      size + (content reads).length ≤ limit + readSize := by
  induction arrivals generalizing size with
  | nil => exact absurd hmore (Nat.not_lt.mpr hle)
  | cons a more ih =>
    obtain ⟨chunk, rfl, _, hread⟩ := hsegmented a List.mem_cons_self
    rw [content, List.length_append] at hmore
    by_cases hpast : limit < size + chunk.length
    · refine ⟨[.bytes chunk], List.cons_prefix_cons.mpr ⟨rfl, List.nil_prefix⟩, ?_, ?_⟩ <;>
        rw [content, content, List.append_nil]
      · exact hpast
      · omega
    · obtain ⟨reads, hprefix, hreads⟩ := ih hsegmented.tail (Nat.le_of_not_lt hpast) (by omega)
      refine ⟨.bytes chunk :: reads, List.cons_prefix_cons.mpr ⟨rfl, hprefix⟩, ?_⟩
      rwa [content, List.length_append, ← Nat.add_assoc]

end Arrival

namespace Connection

open Arrival (content Segmented)

/-! ## What a limit says -/

def Refused (limit : Nat) (answer : Except NetworkError (Option Bytes)) : Prop :=
  ∃ size, limit < size ∧ answer = .error (.messageTooLarge size limit)

/-- What a limit makes of the bytes of a stream: those before the first delimiter if they fit with
it, nothing if the stream goes on behind the limit, and otherwise its end. -/
def ruling (limit : Nat) (bytes : Bytes) : Option (Except NetworkError (Option Bytes)) :=
  match findDelimiter bytes 0 with
  | some i => if i + delimiter.length ≤ limit then some (.ok (some (bytes.take i))) else none
  | none =>
    if limit < bytes.length then none
    else some (if bytes.all Bytes.isAsciiBlank then .ok none else .error .connectionReset)

/-- The answer that a limit prescribes: a refusal where it makes nothing of the bytes. -/
def Prescribed (limit : Nat) (bytes : Bytes) (answer : Except NetworkError (Option Bytes)) : Prop :=
  (ruling limit bytes).elim (Refused limit answer) (answer = ·)

/-- The same answer, or two refusals. -/
def Alike (limit : Nat) (a b : Except NetworkError (Option Bytes)) : Prop :=
  a = b ∨ Refused limit a ∧ Refused limit b

theorem Prescribed.alike {limit : Nat} {bytes : Bytes} {a b : Except NetworkError (Option Bytes)}
    (ha : Prescribed limit bytes a) (hb : Prescribed limit bytes b) : Alike limit a b := by
  rw [Prescribed] at ha hb
  cases hruling : ruling limit bytes with
  | none =>
    rw [hruling] at ha hb
    exact .inr ⟨ha, hb⟩
  | some answer =>
    rw [hruling] at ha hb
    exact .inl (ha.trans hb.symm)

/-! ## First messages -/

/-- A stream with a delimiter starts with a message. -/
theorem framed_take {bytes : Bytes} {i : Nat} (h : findDelimiter bytes 0 = some i) :
    Framed (bytes.take i) ∧ bytes = bytes.take i ++ delimiter ++ bytes.drop (i + delimiter.length) ∧
      (bytes.take i).length = i := by
  obtain ⟨_, hat, hfirst⟩ := findDelimiter_eq_some.mp h
  have hlength : (bytes.take i).length = i := by
    have hle := hat.le
    rw [List.length_take]
    omega
  have htail := List.take_append_drop delimiter.length (bytes.drop i)
  rw [delimiterAt_iff.mp hat, List.drop_drop] at htail
  have hsplit : bytes = bytes.take i ++ delimiter ++ bytes.drop (i + delimiter.length) := by
    rw [List.append_assoc, htail, List.take_append_drop]
  refine ⟨findDelimiter_eq_some.mpr ⟨Nat.zero_le _, ?_, fun j hj hlt hat' => ?_⟩, hsplit, hlength⟩
  · rw [DelimiterAt, List.drop_left]
    rfl
  · rw [hlength] at hlt
    refine hfirst j hj hlt ?_
    rw [hsplit]
    exact (delimiterAt_append hat'.le _).mpr hat'

/-- What has arrived of a stream before its first delimiter is complete holds none. -/
theorem findDelimiter_partial {front rest : Bytes} {i : Nat}
    (h : findDelimiter (front ++ rest) 0 = some i) (hshort : front.length < i + delimiter.length) :
    findDelimiter front 0 = none := by
  refine findDelimiter_eq_none.mpr fun j hat => ?_
  have hfirst := (findDelimiter_eq_some.mp h).2.2 j (Nat.zero_le j)
  have hends := hat.le
  exact hfirst (by omega) ((delimiterAt_append hends rest).mpr hat)

/-! ## Answers -/

/-- Once the bytes read exceed the limit and hold no delimiter, the stream is refused. -/
theorem readLoop_tooLarge (peer : Endpoint) {limit : Nat} {buffer : Bytes}
    {arrivals reads : List Arrival} (hsegmented : Segmented arrivals) (hreads : reads <+: arrivals)
    (hnone : findDelimiter (buffer ++ content reads) 0 = none)
    (hpast : limit < (buffer ++ content reads).length) :
    Refused limit (readLoop peer limit buffer 0 arrivals).1 := by
  induction reads generalizing buffer arrivals with
  | nil =>
    rw [content, List.append_nil] at hnone hpast
    exact ⟨buffer.length, hpast, by rw [readLoop_settled (settled?_long hnone hpast)]⟩
  | cons a reads ih =>
    have hbuffer : findDelimiter buffer 0 = none := findDelimiter_front hnone
    by_cases hlong : limit < buffer.length
    · exact ⟨buffer.length, hlong, by rw [readLoop_settled (settled?_long hbuffer hlong)]⟩
    · obtain ⟨more, rfl⟩ := hreads
      obtain ⟨chunk, rfl, hpos, _⟩ := hsegmented a List.mem_cons_self
      rw [content, ← List.append_assoc] at hnone hpast
      rw [List.cons_append, readLoop_bytes (settled?_short hbuffer (Nat.le_of_not_lt hlong))
        (List.ne_nil_of_length_pos hpos)]
      exact ih hsegmented.tail (List.prefix_append reads more) hnone hpast

/-- After some read, more than `low` bytes and fewer than `high` have arrived. -/
def PausesBetween (c : Connection) (low high : Nat) : Prop :=
  ∃ reads, reads <+: c.arrivals ∧ low < (content reads).length ∧ (content reads).length < high

/-- The first message exceeds the limit, and the read that brings the first byte behind the limit
also brings all that was missing of the message. -/
def Overshoots (c : Connection) (bytes : Bytes) : Prop :=
  ∃ i, findDelimiter bytes 0 = some i ∧ c.limit < i + delimiter.length ∧
    ¬ c.PausesBetween c.limit (i + delimiter.length)

section Fresh

variable {c : Connection} {bytes : Bytes} (h : c.Delivers bytes) (hempty : c.buffer = [])

include h hempty

theorem content_eq : content c.arrivals = bytes := by
  have hcontent := h.content
  rwa [hempty, List.nil_append] at hcontent

theorem readMessage_refused {reads : List Arrival} (hreads : reads <+: c.arrivals)
    (hnone : findDelimiter (content reads) 0 = none) (hpast : c.limit < (content reads).length) :
    Refused c.limit c.readMessage.2 := by
  rw [readMessage, hempty]
  exact readLoop_tooLarge c.peer h.segmented hreads hnone hpast

theorem readMessage_whole {i : Nat} (hfind : findDelimiter bytes 0 = some i)
    (hpause : ¬ c.PausesBetween c.limit (i + delimiter.length)) :
    c.readMessage.2 = .ok (some (bytes.take i)) := by
  obtain ⟨hframed, hsplit, hlength⟩ := framed_take hfind
  have hreads : ∀ reads, reads <+: c.arrivals → (c.buffer ++ content reads).length ≤ c.limit ∨
      (bytes.take i).length + delimiter.length ≤ (c.buffer ++ content reads).length := by
    intro reads hprefix
    rw [hempty, List.nil_append, hlength]
    by_cases hpast : c.limit < (content reads).length
    · exact .inr (Nat.le_of_not_lt fun hshort => hpause ⟨reads, hprefix, hpast, hshort⟩)
    · exact .inl (Nat.le_of_not_lt hpast)
  obtain ⟨buffer, arrivals, hloop, _⟩ :=
    readLoop_message c.peer hframed hreads h.segmented (h.content.trans hsplit)
  rw [readMessage, hloop]

/-- A connection that overshoots gives out a message that exceeds the limit, by no more than a read
takes. -/
theorem readMessage_overshoots (hover : c.Overshoots bytes) :
    ∃ i, findDelimiter bytes 0 = some i ∧ c.readMessage.2 = .ok (some (bytes.take i)) ∧
      c.limit < i + delimiter.length ∧ i + delimiter.length ≤ c.limit + Arrival.readSize := by
  obtain ⟨i, hfind, hlong, hpause⟩ := hover
  refine ⟨i, hfind, readMessage_whole h hempty hfind hpause, hlong, ?_⟩
  have hends := (findDelimiter_eq_some.mp hfind).2.1.le
  rw [← content_eq h hempty] at hends
  obtain ⟨reads, hprefix, hpast, hbound⟩ :=
    Arrival.exists_reads_past h.segmented (Nat.zero_le c.limit) (by omega)
  rw [Nat.zero_add] at hpast hbound
  exact Nat.le_trans (Nat.le_of_not_lt fun hshort => hpause ⟨reads, hprefix, hpast, hshort⟩) hbound

/-- A connection answers what its limit prescribes unless it overshoots. -/
theorem readMessage_prescribed_iff :
    Prescribed c.limit bytes c.readMessage.2 ↔ ¬ c.Overshoots bytes := by
  constructor
  · intro hprescribed hover
    obtain ⟨i, hfind, hanswer, hlong, _⟩ := readMessage_overshoots h hempty hover
    rw [Prescribed, ruling, hfind] at hprescribed
    simp only [if_neg (Nat.not_le_of_lt hlong), Option.elim_none, hanswer] at hprescribed
    obtain ⟨_, _, hrefused⟩ := hprescribed
    cases hrefused
  · intro hnot
    have hall := content_eq h hempty
    rw [Prescribed, ruling]
    cases hfind : findDelimiter bytes 0 with
    | none =>
      dsimp only
      by_cases hlong : c.limit < bytes.length
      · rw [if_pos hlong]
        exact readMessage_refused h hempty (List.prefix_refl _) (hall ▸ hfind) (hall ▸ hlong)
      · rw [if_neg hlong, Option.elim_some, h.readMessage_end hfind (Nat.le_of_not_lt hlong)]
        cases bytes.all Bytes.isAsciiBlank <;> rfl
    | some i =>
      dsimp only
      by_cases hpause : c.PausesBetween c.limit (i + delimiter.length)
      · obtain ⟨reads, ⟨more, hmore⟩, hpast, hshort⟩ := hpause
        rw [if_neg (by omega)]
        rw [← hmore, Arrival.content_append] at hall
        exact readMessage_refused h hempty ⟨more, hmore⟩
          (findDelimiter_partial (hall ▸ hfind) hshort) hpast
      · have hfits : i + delimiter.length ≤ c.limit :=
          Nat.le_of_not_lt fun hlong => hnot ⟨i, hfind, hlong, hpause⟩
        rw [if_pos hfits]
        exact readMessage_whole h hempty hfind hpause

/-- A connection answers what its limit prescribes, however the stream is cut, unless one read takes
it past the limit and completes the message. Then the message comes off the stream although it
exceeds the limit, by no more than a read takes. Two cuts of one stream that do not do this are
answered alike. -/
theorem message_size_limited :
    (Prescribed c.limit bytes c.readMessage.2 ↔ ¬ c.Overshoots bytes) ∧
    (c.Overshoots bytes → ∃ i, findDelimiter bytes 0 = some i ∧
      c.readMessage.2 = .ok (some (bytes.take i)) ∧ c.limit < i + delimiter.length ∧
      i + delimiter.length ≤ c.limit + Arrival.readSize) ∧
    ∀ c' : Connection, c'.Delivers bytes → c'.buffer = [] → c'.limit = c.limit →
      ¬ c.Overshoots bytes → ¬ c'.Overshoots bytes →
        Alike c.limit c.readMessage.2 c'.readMessage.2 := by
  refine ⟨readMessage_prescribed_iff h hempty, readMessage_overshoots h hempty, ?_⟩
  intro c' h' hempty' hlimit hnot hnot'
  have hprescribed := (readMessage_prescribed_iff h hempty).mpr hnot
  have hprescribed' := (readMessage_prescribed_iff h' hempty').mpr hnot'
  rw [hlimit] at hprescribed'
  exact hprescribed.alike hprescribed'

end Fresh

/-! ## One stream, two cuts -/

/-- A message of five bytes, at a connection that takes messages of four with their delimiters. -/
def hello : Bytes := Bytes.ofString "hello" ++ delimiter

def narrow (arrivals : List Arrival) : Connection :=
  { peer := { ip := .v4 #v[127, 0, 0, 1], port := 9000 }, limit := 4, arrivals }

def bytewise : Connection := narrow ((hello.map fun b => [b]).map .bytes)

theorem delivers_bytewise : bytewise.Delivers hello :=
  have h := delivers_bytes bytewise.peer hello
  ⟨h.segmented, h.content⟩

theorem bytewise_pauses : ¬ bytewise.Overshoots hello := by
  rintro ⟨i, hfind, _, hpause⟩
  have hi : some 5 = some i := hfind
  cases hi
  exact hpause ⟨bytewise.arrivals.take 5, List.take_prefix _ _, by decide, by decide⟩

theorem message_size_limited_bytewise :
    bytewise.Delivers hello ∧ bytewise.buffer = [] ∧ ¬ bytewise.Overshoots hello ∧
      Refused 4 bytewise.readMessage.2 :=
  ⟨delivers_bytewise, rfl, bytewise_pauses,
    (message_size_limited delivers_bytewise rfl).1.mpr bytewise_pauses⟩

/-- In one read the message comes off the stream, byte by byte it is refused. -/
theorem message_past_limit :
    let c := narrow [.bytes hello]
    c.Delivers hello ∧ c.buffer = [] ∧ c.limit = 4 ∧
      c.readMessage.2 = .ok (some (Bytes.ofString "hello")) ∧
      ¬ Prescribed 4 hello c.readMessage.2 ∧
      ¬ Alike 4 c.readMessage.2 bytewise.readMessage.2 := by
  intro c
  have hanswer : c.readMessage.2 = .ok (some (Bytes.ofString "hello")) := rfl
  have hrefused : ¬ Refused 4 c.readMessage.2 := by
    rintro ⟨_, _, h⟩
    cases h
  have hbytewise : bytewise.readMessage.2 = .error (.messageTooLarge 5 4) := rfl
  refine ⟨⟨fun a ha => ?_, rfl⟩, rfl, rfl, hanswer, hrefused, ?_⟩
  · exact ⟨hello, List.mem_singleton.mp ha, by decide, by decide⟩
  · rintro (h | h)
    · rw [hanswer, hbytewise] at h
      cases h
    · exact hrefused h.1

end Connection
end FloodMesh
