import FloodMesh.Proofs.Lease.Ledger
import FloodMesh.Proofs.Lease.Upkeep

/-!
# FloodMesh.Proofs.Lease.Refinement

A lease table behaves exactly like a ledger over any history, for every hash function and every
number of buckets: `performAll_agrees`.

`Tracks` is the relation that every operation keeps. A table holds gaps and no clock; `dues` turns
gaps into ticks of a given clock, so a tick that shortens the first gap by one is a clock that moves
on by one.
-/

namespace FloodMesh

/-! ## From gaps to ticks -/

section Dues

variable {κ ν : Type}

open Timeline (span defer)

/-- Contents of a table as leases on a clock. -/
def dues (clock : Nat) : List (κ × ν × Nat) → List (Lease κ ν)
  | [] => []
  | c :: rest => ⟨c.1, c.2.1, clock + c.2.2⟩ :: dues (clock + c.2.2) rest

@[simp] theorem dues_append (clock : Nat) (A B : List (κ × ν × Nat)) :
    dues clock (A ++ B) = dues clock A ++ dues (clock + span A) B := by
  induction A generalizing clock with
  | nil => rfl
  | cons c rest ih => simp [dues, ih, Nat.add_assoc]

theorem dues_defer (clock gap : Nat) (B : List (κ × ν × Nat)) :
    dues clock (defer gap B) = dues (clock + gap) B := by
  cases B with
  | nil => rfl
  | cons c rest =>
    have hsum : clock + (c.2.2 + gap) = clock + gap + c.2.2 := by omega
    simp [dues, defer, hsum]

@[simp] theorem length_dues (clock : Nat) (l : List (κ × ν × Nat)) :
    (dues clock l).length = l.length := by
  induction l generalizing clock with
  | nil => rfl
  | cons c rest ih => simp [dues, ih]

theorem map_dues (clock : Nat) (l : List (κ × ν × Nat)) :
    (dues clock l).map (fun x => (x.key, x.value)) = l.map fun c => (c.1, c.2.1) := by
  induction l generalizing clock with
  | nil => rfl
  | cons c rest ih => simp [dues, ih]

theorem mem_dues {clock : Nat} {l : List (κ × ν × Nat)} {x : Lease κ ν} (h : x ∈ dues clock l) :
    clock ≤ x.due ∧ ∃ c ∈ l, c.1 = x.key := by
  induction l generalizing clock with
  | nil => cases h
  | cons c rest ih =>
    rcases List.mem_cons.mp h with rfl | h
    · exact ⟨Nat.le_add_right _ _, c, List.mem_cons_self, rfl⟩
    · obtain ⟨hle, d, hd, hkey⟩ := ih h
      exact ⟨by omega, d, List.mem_cons_of_mem c hd, hkey⟩

theorem getLast?_dues (clock : Nat) (l : List (κ × ν × Nat)) :
    ((dues clock l).getLast?.map fun x => x.due - clock).getD 0 = span l := by
  rcases List.eq_nil_or_concat l with rfl | ⟨init, c, rfl⟩
  · rfl
  · have hdue : clock + span init + c.2.2 - clock = span init + c.2.2 := by omega
    simp [dues, hdue]

theorem filter_due (clock : Nat) (l : List (κ × ν × Nat)) :
    (dues clock l).filter (fun x => x.due ≤ clock) = dues clock (l.takeWhile (·.2.2 == 0)) ∧
      (dues clock l).filter (fun x => clock < x.due) = dues clock (l.dropWhile (·.2.2 == 0)) := by
  induction l with
  | nil => exact ⟨rfl, rfl⟩
  | cons c rest ih =>
    by_cases hgap : c.2.2 = 0
    · simp [dues, hgap, ih]
    · have hlater : ∀ x ∈ dues clock (c :: rest), clock < x.due := by
        intro x hx
        rcases List.mem_cons.mp hx with rfl | hx
        · show clock < clock + c.2.2
          omega
        · have hle := (mem_dues hx).1
          omega
      have hnone : (dues clock (c :: rest)).filter (fun x => x.due ≤ clock) = [] :=
        List.filter_eq_nil_iff.mpr fun x hx => by simpa using hlater x hx
      have hall : (dues clock (c :: rest)).filter (fun x => clock < x.due) =
          dues clock (c :: rest) :=
        List.filter_eq_self.mpr fun x hx => by simpa using hlater x hx
      rw [hnone, hall]
      simp [hgap, dues]

section Keyed

variable [BEq κ]

theorem find?_dues_none {clock : Nat} {l : List (κ × ν × Nat)} {key : κ}
    (h : ∀ c ∈ l, (c.1 == key) = false) : (dues clock l).find? (fun x => x.key == key) = none := by
  refine List.find?_eq_none.mpr fun x hx => ?_
  obtain ⟨_, c, hc, hkey⟩ := mem_dues hx
  simp [← hkey, h c hc]

/-- Where one key is equal, its lease is found, and deleting it leaves the other ones their ticks
if the next gap grows. -/
theorem find?_dues_split (clock : Nat) {A B : List (κ × ν × Nat)} {c : κ × ν × Nat} {key : κ}
    (hA : ∀ a ∈ A, (a.1 == key) = false) (hc : (c.1 == key) = true) :
    (dues clock (A ++ c :: B)).find? (fun x => x.key == key) =
        some ⟨c.1, c.2.1, clock + span A + c.2.2⟩ ∧
      (dues clock (A ++ c :: B)).eraseP (fun x => x.key == key) =
        dues clock (A ++ defer c.2.2 B) := by
  have hnone : ∀ x ∈ dues clock A, ¬ (x.key == key) = true := by
    intro x hx
    obtain ⟨_, a, ha, hkey⟩ := mem_dues hx
    simp [← hkey, hA a ha]
  rw [dues_append, dues_append, dues_defer]
  constructor
  · rw [List.find?_append, List.find?_eq_none.mpr hnone]
    simp [dues, hc]
  · rw [List.eraseP_append_right _ hnone]
    simp [dues, hc]

end Keyed

end Dues

section Views

variable {κ ν : Type}

/-- A visitor is shown the shortest prefix, of one entry at least, that is enough for it. -/
theorem Timeline.visit_eq (t : Timeline κ ν) (enough : List (κ × ν) → Bool) :
    t.visit enough = (t.toList.inits.tail.find? enough).getD t.toList := by
  have hgo : ∀ rest seen : List (κ × ν), Timeline.visit.go enough seen rest =
      ((rest.inits.tail.map (seen ++ ·)).find? enough).getD (seen ++ rest) := by
    intro rest
    induction rest with
    | nil => intro seen; simp [Timeline.visit.go]
    | cons e rest ih =>
      intro seen
      have hinits : (e :: rest).inits.tail = [e] :: rest.inits.tail.map (e :: ·) := by
        cases rest <;> simp
      have hmap : (rest.inits.tail.map (e :: ·)).map (seen ++ ·) =
          rest.inits.tail.map ((seen ++ [e]) ++ ·) := by
        rw [List.map_map]
        refine List.map_congr_left fun p _ => ?_
        simp
      rw [Timeline.visit.go, hinits, List.map_cons, hmap, ih (seen ++ [e])]
      by_cases h : enough (seen ++ [e]) = true <;> simp [h]
  simpa [Timeline.visit] using hgo t.toList []

theorem LeaseTable.releases_map (leases : List (Lease κ ν)) :
    LeaseTable.releases (leases.map fun x => (x.key, x.value)) = Ledger.releases leases := by
  simp [LeaseTable.releases, Ledger.releases]

end Views

/-! ## The relation that every operation keeps -/

section Tracks

variable {κ ν : Type} [BEq κ] [Hashable κ]

/-- The ledger holds what the table holds, and no hook touches the table. -/
structure Tracks (t : LeaseTable κ ν) (l : Ledger κ ν) : Prop where
  renewal : t.renewal = fun _ _ => none
  ttl : t.timeline.ttl = l.ttl
  holds : ∃ contents, t.timeline.Holds contents ∧ l.leases = dues l.clock contents

/-- What users of a table and of a ledger see without changing them. -/
structure Agrees (t : LeaseTable κ ν) (l : Ledger κ ν) : Prop where
  toList : t.toList = l.pairs
  get? : ∀ key, t.get? key = (l.find? key).map (·.value)
  contains : ∀ key, t.contains key = (l.find? key).isSome
  size : t.size = l.leases.length
  isEmpty : t.isEmpty = l.leases.isEmpty
  pending : t.pending = l.pending
  ttl : t.ttl = l.ttl

theorem tracks_empty (ttl buckets : Nat) :
    Tracks (LeaseTable.empty ttl buckets : LeaseTable κ ν) (Ledger.empty ttl) where
  renewal := rfl
  ttl := rfl
  holds := ⟨[], Timeline.holds_empty ttl buckets, rfl⟩

namespace Tracks

variable {t : LeaseTable κ ν} {l : Ledger κ ν}

theorem toList_eq (h : Tracks t l) : t.toList = l.pairs := by
  obtain ⟨contents, hc, hl⟩ := h.holds
  rw [LeaseTable.toList, hc.toList_eq, Ledger.pairs, hl, map_dues]

theorem distinct (h : Tracks t l) :
    l.leases.Pairwise fun x y => (x.key == y.key) = false := by
  obtain ⟨contents, hc, hl⟩ := h.holds
  have hkeys : l.leases.map (·.key) = contents.map (·.1) := by
    have hpairs := congrArg (List.map Prod.fst) (map_dues l.clock contents)
    rwa [List.map_map, List.map_map, ← hl] at hpairs
  have hdistinct : (contents.map (·.1)).Pairwise fun a b => (a == b) = false :=
    List.pairwise_map.mpr hc.distinct
  rw [← hkeys] at hdistinct
  exact List.pairwise_map.mp hdistinct

theorem clear (h : Tracks t l) :
    t.timeline.drain.2 = l.pairs ∧
      Tracks { t with timeline := t.timeline.drain.1 } { l with leases := [] } := by
  obtain ⟨contents, hc, hl⟩ := h.holds
  obtain ⟨hholds, hdrained, httl⟩ := hc.drain
  exact ⟨by rw [hdrained, Ledger.pairs, hl, map_dues], h.renewal, httl.trans h.ttl, [], hholds, rfl⟩

theorem tick (h : Tracks t l) :
    t.timeline.tick.2 =
        (l.leases.filter fun x => x.due ≤ l.clock + 1).map (fun x => (x.key, x.value)) ∧
      Tracks { t with timeline := t.timeline.tick.1 }
        { l with clock := l.clock + 1
                 leases := l.leases.filter fun x => l.clock + 1 < x.due } := by
  obtain ⟨contents, hc, hl⟩ := h.holds
  cases contents with
  | nil =>
    rw [hc.tick_nil, hl]
    exact ⟨rfl, h.renewal, h.ttl, [], hc, rfl⟩
  | cons c rest =>
    have hpos := hc.head_pos
    obtain ⟨hholds, hevicted, httl⟩ := hc.tick_cons
    have hmove : dues l.clock (c :: rest) =
        dues (l.clock + 1) ((c.1, c.2.1, c.2.2 - 1) :: rest) := by
      have hdue : l.clock + 1 + (c.2.2 - 1) = l.clock + c.2.2 := by omega
      simp [dues, hdue]
    obtain ⟨hdue, hlater⟩ := filter_due (l.clock + 1) ((c.1, c.2.1, c.2.2 - 1) :: rest)
    rw [hl, hmove, hdue, hlater]
    exact ⟨by rw [hevicted, map_dues], h.renewal, httl.trans h.ttl, _, hholds, rfl⟩

section Lawful

variable [EquivBEq κ] [LawfulHashable κ]

theorem lookup (h : Tracks t l) (key : κ) :
    t.timeline.get? key = (l.find? key).map (·.value) ∧
      t.timeline.contains key = (l.find? key).isSome ∧
      (t.timeline.remove key).2 = (l.find? key).map (fun x => (x.key, x.value)) ∧
      Tracks { t with timeline := (t.timeline.remove key).1 } (l.erase key) ∧
      (l.erase key).find? key = none := by
  obtain ⟨contents, hc, hl⟩ := h.holds
  rcases hc.lookup_cases key with ⟨hnone, hget, hhas, hremove⟩ |
    ⟨A, c, B, rfl, hkey, hother, hget, hhas, hremoved, hholds, httl⟩
  · have hfind : l.find? key = none := by rw [Ledger.find?, hl, find?_dues_none hnone]
    rw [hget, hhas, hremove, hfind, Ledger.erase_eq_self hfind]
    exact ⟨rfl, rfl, rfl, h, hfind⟩
  · obtain ⟨hfind, herase⟩ := find?_dues_split l.clock (B := B)
      (fun a ha => hother a (List.mem_append_left B ha)) hkey
    rw [← hl] at hfind herase
    have hgone := Timeline.forall_defer (P := fun k => (k == key) = false) hother c.2.2
    refine ⟨?_, ?_, ?_, ⟨h.renewal, httl.trans h.ttl, _, hholds, herase⟩, ?_⟩
    · rw [hget, Ledger.find?, hfind]
      rfl
    · rw [hhas, Ledger.find?, hfind]
      rfl
    · rw [hremoved, Ledger.find?, hfind]
      rfl
    · rw [Ledger.find?, Ledger.erase, herase, find?_dues_none hgone]

theorem push (h : Tracks t l) {key : κ} (value : ν) (habsent : l.find? key = none) :
    Tracks { t with timeline := t.timeline.append key value } (l.push key value) := by
  obtain ⟨contents, hc, hl⟩ := h.holds
  have hnone : ∀ c ∈ contents, (c.1 == key) = false := by
    rcases hc.lookup_cases key with ⟨hnone, _⟩ | ⟨A, c, B, rfl, hkey, hother, _⟩
    · exact hnone
    · obtain ⟨hfind, _⟩ := find?_dues_split l.clock (B := B)
        (fun a ha => hother a (List.mem_append_left B ha)) hkey
      rw [← hl] at hfind
      rw [Ledger.find?, hfind] at habsent
      cases habsent
  obtain ⟨hholds, httl⟩ := hc.append value hnone
  refine ⟨h.renewal, httl.trans h.ttl, _, hholds, ?_⟩
  have hdue : l.clock + l.ttl =
      l.clock + Timeline.span contents + (t.timeline.ttl - Timeline.span contents) := by
    have hle := hc.span_le
    rw [← h.ttl]
    omega
  rw [Ledger.push, hl, dues_append, dues, dues, hdue]

theorem insert (h : Tracks t l) (key : κ) (value : ν) :
    (t.timeline.insert key value).2 = (l.find? key).map (fun x => (x.key, x.value)) ∧
      Tracks { t with timeline := (t.timeline.insert key value).1 }
        ((l.erase key).push key value) := by
  obtain ⟨_, _, hremoved, herased, habsent⟩ := h.lookup key
  exact ⟨hremoved, herased.push value habsent⟩

theorem insertAll (h : Tracks t l) (entries : List (κ × ν)) :
    (LeaseTable.insertAll t.timeline entries).2 =
        (l.insertAll entries).2.map (fun x => (x.key, x.value)) ∧
      Tracks { t with timeline := (LeaseTable.insertAll t.timeline entries).1 }
        (l.insertAll entries).1 := by
  induction entries generalizing t l with
  | nil => exact ⟨rfl, h⟩
  | cons e rest ih =>
    obtain ⟨hreplaced, htracks⟩ := h.insert e.1 e.2
    obtain ⟨hdisplaced, hrest⟩ := ih htracks
    refine ⟨?_, hrest⟩
    show (t.timeline.insert e.1 e.2).2.toList ++ _ = _
    rw [hreplaced]
    simp only [Ledger.insertAll, List.map_append]
    rw [← hdisplaced]
    cases l.find? e.1 <;> rfl

end Lawful

end Tracks

/-! ## Operations -/

/-- Without a hook, what expires is released at once, one entry after another. -/
theorem expire_eq {t : LeaseTable κ ν} (h : t.renewal = fun _ _ => none)
    (leases : List (Lease κ ν)) :
    t.expire (leases.map fun x => (x.key, x.value)) = (t, Ledger.expiries leases) := by
  induction leases with
  | nil => rfl
  | cons x rest ih => simp [LeaseTable.expire, h, ih, Ledger.expiries]

section Lawful

variable [EquivBEq κ] [LawfulHashable κ] {t : LeaseTable κ ν} {l : Ledger κ ν}

theorem Tracks.agrees (h : Tracks t l) : Agrees t l := by
  obtain ⟨contents, hc, hl⟩ := h.holds
  have hsize : t.size = l.leases.length := by
    rw [LeaseTable.size, hc.size_eq, hl, length_dues]
  exact {
    toList := h.toList_eq
    get? := fun key => (h.lookup key).1
    contains := fun key => (h.lookup key).2.1
    size := hsize
    isEmpty := by
      rw [LeaseTable.isEmpty, hsize]
      cases l.leases <;> rfl
    pending := by
      rw [LeaseTable.pending, hc.pending_eq, Ledger.pending, hl, getLast?_dues]
    ttl := h.ttl }

/-- One operation: the same answer, the same events, and the ledger holds what the table holds. -/
theorem Tracks.perform (h : Tracks t l) (op : LeaseOp κ ν) :
    (t.perform op).answer = (l.perform op).answer ∧
      (t.perform op).events = (l.perform op).events ∧
      Tracks (t.perform op).table (l.perform op).ledger := by
  cases op with
  | insert k v =>
    obtain ⟨hreplaced, htracks⟩ := h.insert k v
    refine ⟨?_, ?_, htracks⟩
    · show LeaseAnswer.flag (t.timeline.insert k v).2.isSome = _
      rw [hreplaced, Option.isSome_map]
      rfl
    · show LeaseTable.releases (t.timeline.insert k v).2.toList = _
      rw [hreplaced]
      cases hfind : l.find? k <;> simp [Ledger.perform, hfind, LeaseTable.releases, Ledger.releases]
  | insertIfAbsent k v =>
    obtain ⟨_, hcontains, _⟩ := h.lookup k
    have hcontains : t.contains k = (l.find? k).isSome := hcontains
    cases hfind : l.find? k with
    | some x =>
      simp only [LeaseTable.perform, LeaseTable.insertIfAbsent, Ledger.perform, hcontains, hfind,
        Option.isSome_some, if_true]
      exact ⟨rfl, rfl, h⟩
    | none =>
      obtain ⟨_, htracks⟩ := h.insert k v
      rw [Ledger.erase_eq_self hfind] at htracks
      simp only [LeaseTable.perform, LeaseTable.insertIfAbsent, Ledger.perform, hcontains, hfind,
        Option.isSome_none]
      exact ⟨rfl, rfl, htracks⟩
  | get k =>
    refine ⟨?_, rfl, h⟩
    show LeaseAnswer.value (t.timeline.get? k) = _
    rw [(h.lookup k).1]
    rfl
  | contains k =>
    refine ⟨?_, rfl, h⟩
    show LeaseAnswer.flag (t.timeline.contains k) = _
    rw [(h.lookup k).2.1]
    rfl
  | remove k =>
    obtain ⟨_, _, hremoved, htracks, _⟩ := h.lookup k
    refine ⟨?_, rfl, htracks⟩
    show LeaseAnswer.value ((t.timeline.remove k).2.map (·.2)) = _
    rw [hremoved, Option.map_map]
    rfl
  | tick =>
    obtain ⟨hexpired, htracks⟩ := h.tick
    have hexpire := expire_eq (t := { t with timeline := t.timeline.tick.1 }) h.renewal
      (l.leases.filter fun x => x.due ≤ l.clock + 1)
    rw [← hexpired] at hexpire
    refine ⟨?_, ?_, ?_⟩
    · show LeaseAnswer.count t.timeline.tick.2.length = _
      rw [hexpired, List.length_map]
      rfl
    · show (LeaseTable.expire { t with timeline := t.timeline.tick.1 } t.timeline.tick.2).2 = _
      rw [hexpire]
      rfl
    · show Tracks (LeaseTable.expire { t with timeline := t.timeline.tick.1 }
        t.timeline.tick.2).1 _
      rw [hexpire]
      exact htracks
  | clear =>
    obtain ⟨hdrained, htracks⟩ := h.clear
    refine ⟨rfl, ?_, htracks⟩
    show LeaseTable.releases t.timeline.drain.2 = _
    rw [hdrained]
    exact LeaseTable.releases_map l.leases
  | replace entries =>
    obtain ⟨hdrained, htracks⟩ := h.clear
    obtain ⟨hdisplaced, htracks⟩ := htracks.insertAll entries
    refine ⟨rfl, ?_, htracks⟩
    show LeaseTable.releases (t.timeline.drain.2 ++
      (LeaseTable.insertAll t.timeline.drain.1 entries).2) = _
    rw [hdrained, hdisplaced]
    show LeaseTable.releases (l.leases.map _ ++ _) = _
    rw [← List.map_append]
    exact LeaseTable.releases_map _
  | visit enough =>
    refine ⟨?_, rfl, h⟩
    show LeaseAnswer.seen (t.timeline.visit enough) = _
    rw [Timeline.visit_eq]
    have hlist : t.timeline.toList = l.pairs := h.toList_eq
    rw [hlist]
    rfl

theorem Tracks.performAll (h : Tracks t l) (ops : List (LeaseOp κ ν)) :
    (t.performAll ops).2 = (l.performAll ops).2 ∧
      Tracks (t.performAll ops).1 (l.performAll ops).1 := by
  induction ops generalizing t l with
  | nil => exact ⟨rfl, h⟩
  | cons op ops ih =>
    obtain ⟨hanswer, hevents, htracks⟩ := h.perform op
    obtain ⟨hrest, htracks⟩ := ih htracks
    refine ⟨?_, htracks⟩
    show ((t.perform op).answer, (t.perform op).events) :: _ =
      ((l.perform op).answer, (l.perform op).events) :: _
    rw [hanswer, hevents]
    exact congrArg _ hrest

/-- A lease table is a ledger to its users: over any history both give the same answers and the
same events, and afterwards both show the same contents. -/
theorem performAll_agrees (ttl buckets : Nat) (ops : List (LeaseOp κ ν)) :
    ((LeaseTable.empty ttl buckets).performAll ops).2 = ((Ledger.empty ttl).performAll ops).2 ∧
      Agrees ((LeaseTable.empty ttl buckets).performAll ops).1
        ((Ledger.empty ttl).performAll ops).1 := by
  obtain ⟨hanswers, htracks⟩ := (tracks_empty ttl buckets).performAll ops
  exact ⟨hanswers, htracks.agrees⟩

end Lawful

/-- A name whose case does not count. -/
structure Caseless where
  letters : List Char

namespace Caseless

def folded (c : Caseless) : List Char := c.letters.map Char.toLower

instance : BEq Caseless := ⟨fun a b => a.folded == b.folded⟩

/-- One bucket for all names. -/
instance : Hashable Caseless := ⟨fun _ => 0⟩

theorem beq_iff {a b : Caseless} : (a == b) = true ↔ a.folded = b.folded :=
  beq_iff_eq (a := a.folded)

instance : EquivBEq Caseless where
  rfl := beq_iff.mpr rfl
  symm h := beq_iff.mpr (beq_iff.mp h).symm
  trans h h' := beq_iff.mpr ((beq_iff.mp h).trans (beq_iff.mp h'))

instance : LawfulHashable Caseless := ⟨fun _ _ _ => rfl⟩

end Caseless

/-- Names that differ in case only, two ticks, and entries of either age. -/
def Caseless.history : List (LeaseOp Caseless Nat) :=
  [.insert ⟨['A', 'b']⟩ 1, .insert ⟨['a', 'B']⟩ 2, .insertIfAbsent ⟨['a', 'b']⟩ 3, .tick,
    .insert ⟨['c']⟩ 4, .tick, .contains ⟨['C']⟩]

theorem performAll_agrees_caseless :
    EquivBEq Caseless ∧ LawfulHashable Caseless ∧
      ((LeaseTable.empty 2 0).performAll Caseless.history).2 =
        [(.flag false, []), (.flag true, [.released ⟨['A', 'b']⟩ 1]), (.flag false, []),
          (.count 0, []), (.flag false, []),
          (.count 1, [.expired ⟨['a', 'B']⟩ 2, .released ⟨['a', 'B']⟩ 2]), (.flag true, [])] ∧
      Agrees ((LeaseTable.empty 2 0).performAll Caseless.history).1
        ⟨2, 2, [⟨⟨['c']⟩, 4, 3⟩]⟩ :=
  ⟨inferInstance, inferInstance, performAll_agrees 2 0 Caseless.history⟩

end Tracks

end FloodMesh
