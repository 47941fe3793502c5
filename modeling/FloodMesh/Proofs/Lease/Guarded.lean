import FloodMesh.Proofs.Lease.Upkeep

/-!
# FloodMesh.Proofs.Lease.Guarded

The operations of the store once more, with all that could stop one halfway: a link that leads to an
empty slot, a slot that is missing from its chain, a walk without end, a number that leaves its
range. Where the plain operations go on regardless, these report a `Fault`.

Each of them has a lemma `..Guarded_eq`: in a store that is threaded no fault arises, and the plain
operation is what is carried out. The lemmas follow the steps of an operation, for it is between the
steps that the store is not threaded.
-/

namespace FloodMesh
namespace Timeline

/-- What could stop an operation halfway. -/
inductive Fault
  /-- A link leads to a slot without an entry. -/
  | dangling (slot : Nat)
  /-- A slot is missing from the chain of its bucket. -/
  | unchained (slot : Nat)
  /-- A walk goes on after as many steps as there are slots. -/
  | endless
  /-- A sum or a difference leaves the range of a 64-bit word. -/
  | range
  deriving DecidableEq, Repr

def checkedAdd (a b : Nat) : Except Fault Nat :=
  if a + b < UInt64.size then .ok (a + b) else .error .range

def checkedSub (a b : Nat) : Except Fault Nat :=
  if b ≤ a then .ok (a - b) else .error .range

theorem checkedAdd_eq {a b : Nat} (h : a + b < UInt64.size) : checkedAdd a b = .ok (a + b) :=
  if_pos h

theorem checkedSub_eq {a b : Nat} (h : b ≤ a) : checkedSub a b = .ok (a - b) := if_pos h

@[simp] theorem ok_bind {α β : Type} (a : α) (f : α → Except Fault β) :
    ((.ok a : Except Fault α) >>= f) = f a := rfl

variable {κ ν : Type}

/-! ## Following links -/

/-- The entry in a slot that has to have one. -/
def occupant (t : Timeline κ ν) (slot : Nat) : Except Fault (Entry κ ν) :=
  match t.entry? slot with
  | some e => .ok e
  | none => .error (.dangling slot)

/-- Change the entry in a slot that has to have one. -/
def amend (t : Timeline κ ν) (slot : Nat) (f : Entry κ ν → Except Fault (Entry κ ν)) :
    Except Fault (Timeline κ ν) := do
  let e ← f (← t.occupant slot)
  return t.adjust slot fun _ => e

/-- The entries from a slot on, in the order of expiry, with their slots. -/
def walkGuarded (t : Timeline κ ν) : Nat → Option Nat → Except Fault (List (Nat × Entry κ ν))
  | _, none => .ok []
  | 0, some _ => .error .endless
  | n + 1, some slot => do
    let e ← t.occupant slot
    let rest ← walkGuarded t n e.next
    return (slot, e) :: rest

/-- Empty the slots from one on, in the order of expiry. -/
def emptyOut (t : Timeline κ ν) : Nat → Option Nat → Except Fault (List (κ × ν))
  | _, none => .ok []
  | 0, some _ => .error .endless
  | n + 1, some slot => do
    let e ← t.occupant slot
    let rest ← emptyOut (t.vacate slot) n e.next
    return (e.key, e.value) :: rest

def drainGuarded (t : Timeline κ ν) : Except Fault (Timeline κ ν × List (κ × ν)) := do
  let drained ← t.emptyOut t.slots.size t.head
  return (t.drain.1, drained)

def chainBeforeGuarded (t : Timeline κ ν) (target : Nat) :
    Nat → Option Nat → Option Nat → Except Fault (Option Nat)
  | _, _, none => .error (.unchained target)
  | 0, _, some _ => .error .endless
  | n + 1, before, some slot =>
    if slot = target then .ok before
    else do
      let e ← t.occupant slot
      chainBeforeGuarded t target n (some slot) e.chain

section Links

variable {t : Timeline κ ν} {slot : Nat} {e : Entry κ ν}

theorem occupant_eq (he : t.entry? slot = some e) : t.occupant slot = .ok e := by
  rw [occupant, he]

theorem amend_eq {f : Entry κ ν → Except Fault (Entry κ ν)} {g : Entry κ ν → Entry κ ν}
    (he : t.entry? slot = some e) (hf : f e = .ok (g e)) :
    t.amend slot f = .ok (t.adjust slot g) := by
  have hsame : t.adjust slot (fun _ => g e) = t.adjust slot g := by
    unfold adjust
    congr 1
    refine Array.ext_getElem? fun i => ?_
    rw [Array.getElem?_modify, Array.getElem?_modify]
    by_cases hi : slot = i
    · subst hi
      rw [Timeline.entry?, Option.join_eq_some_iff] at he
      rw [if_pos rfl, if_pos rfl, he]
      rfl
    · rw [if_neg hi, if_neg hi]
  rw [amend, occupant_eq he, ok_bind, hf, ok_bind, hsame]
  rfl

theorem walkGuarded_eq {n : Nat} {start : Option Nat} {l : List Nat}
    (h : t.Trail (·.next) start l none) (hn : l.length ≤ n) :
    t.walkGuarded n start = .ok (t.walk n start) := by
  induction l generalizing n start with
  | nil =>
    cases h
    cases n <;> rfl
  | cons s rest ih =>
    obtain ⟨rfl, e, he, htail⟩ := h
    obtain ⟨n, rfl⟩ : ∃ m, n = m + 1 := ⟨n - 1, by simp at hn; omega⟩
    rw [walkGuarded, occupant_eq he, ok_bind, ih htail (by simpa using hn), ok_bind, walk]
    simp only [he]
    rfl

/-- Slots that are emptied on the way do not come up again. -/
theorem emptyOut_eq {n : Nat} {start : Option Nat} {l : List Nat}
    (h : t.Trail (·.next) start l none) (hnd : l.Nodup) (hn : l.length ≤ n) :
    t.emptyOut n start = .ok ((t.contents l).map fun c => (c.1, c.2.1)) := by
  induction l generalizing t n start with
  | nil =>
    cases h
    cases n <;> rfl
  | cons s rest ih =>
    obtain ⟨rfl, e, he, htail⟩ := h
    obtain ⟨hs, hnd⟩ := List.nodup_cons.mp hnd
    obtain ⟨n, rfl⟩ : ∃ m, n = m + 1 := ⟨n - 1, by simp at hn; omega⟩
    have hkept : ∀ x ∈ rest, Timeline.entry? (t.vacate s) x = t.entry? x := by
      intro x hx
      have hne : s ≠ x := fun heq => hs (heq ▸ hx)
      rw [entry?_vacate, if_neg hne]
    have htail' := htail.congr fun x hx => congrArg (Option.map (·.next)) (hkept x hx)
    have hcontents := contents_congr fun x hx => congrArg (Option.map content) (hkept x hx)
    rw [emptyOut, occupant_eq he, ok_bind, ih htail' hnd (by simpa using hn), ok_bind, hcontents,
      contents_cons he]
    rfl

theorem chainBeforeGuarded_eq {target : Nat} {l : List Nat} {n : Nat} (before : Option Nat)
    {start : Option Nat} (h : t.Trail (·.chain) start l none) (hmem : target ∈ l)
    (hn : l.length ≤ n) :
    t.chainBeforeGuarded target n before start = .ok (t.chainBefore target n before start) := by
  induction l generalizing n before start with
  | nil => cases hmem
  | cons s rest ih =>
    obtain ⟨rfl, e, he, htail⟩ := h
    obtain ⟨n, rfl⟩ : ∃ m, n = m + 1 := ⟨n - 1, by simp at hn; omega⟩
    rw [chainBeforeGuarded, chainBefore]
    by_cases hs : s = target
    · rw [if_pos hs, if_pos hs]
    · have hlater : target ∈ rest := (List.mem_cons.mp hmem).resolve_left (Ne.symm hs)
      rw [if_neg hs, if_neg hs, occupant_eq he, ok_bind,
        ih (some s) htail hlater (by simpa using hn)]
      simp only [he]

end Links

/-! ## Taking an entry out -/

def passChainGuarded (t : Timeline κ ν) (bucket : Nat) (before : Option Nat) (e : Entry κ ν) :
    Except Fault (Timeline κ ν) :=
  match before with
  | some p => t.amend p fun x => .ok { x with chain := e.chain }
  | none => .ok (t.setFirst bucket e.chain)

def passNextGuarded (t : Timeline κ ν) (e : Entry κ ν) : Except Fault (Timeline κ ν) :=
  match e.next with
  | some n =>
    t.amend n fun x => do
      let gap ← checkedAdd x.gap e.gap
      return { x with gap, prev := e.prev }
  | none => do
    let pending ← checkedSub t.pending e.gap
    return { t with pending, tail := e.prev }

def passPrevGuarded (t : Timeline κ ν) (e : Entry κ ν) : Except Fault (Timeline κ ν) :=
  match e.prev with
  | some p => t.amend p fun x => .ok { x with next := e.next }
  | none => .ok { t with head := e.next }

def detachGuarded (t : Timeline κ ν) (slot bucket : Nat) (before : Option Nat) :
    Except Fault (Timeline κ ν × Option (κ × ν)) := do
  let e ← t.occupant slot
  let t' ← (t.vacate slot).passChainGuarded bucket before e
  let t' ← t'.passNextGuarded e
  let t' ← t'.passPrevGuarded e
  let size ← checkedSub t.size 1
  return ({ t' with free := slot :: t.free, size }, some (e.key, e.value))

section Detach

variable {t : Timeline κ ν} {slot bucket : Nat} {before : Option Nat} {e : Entry κ ν}

theorem passChainGuarded_eq (h : ∀ p, before = some p → ∃ y, t.entry? p = some y) :
    t.passChainGuarded bucket before e = .ok (t.passChain bucket before e) := by
  cases before with
  | none => rfl
  | some p =>
    obtain ⟨y, hy⟩ := h p rfl
    exact amend_eq hy rfl

theorem passNextGuarded_eq
    (h : ∀ n, e.next = some n → ∃ y, t.entry? n = some y ∧ y.gap + e.gap < UInt64.size)
    (hend : e.next = none → e.gap ≤ t.pending) :
    t.passNextGuarded e = .ok (t.passNext e) := by
  unfold passNextGuarded passNext
  cases hnext : e.next with
  | none => exact congrArg (· >>= _) (checkedSub_eq (hend hnext))
  | some n =>
    obtain ⟨y, hy, hgap⟩ := h n hnext
    exact amend_eq hy (congrArg (· >>= _) (checkedAdd_eq hgap))

theorem passPrevGuarded_eq (h : ∀ p, e.prev = some p → ∃ y, t.entry? p = some y) :
    t.passPrevGuarded e = .ok (t.passPrev e) := by
  unfold passPrevGuarded passPrev
  cases hprev : e.prev with
  | none => rfl
  | some p =>
    obtain ⟨y, hy⟩ := h p hprev
    exact amend_eq hy rfl

/-- An entry can be taken out if its neighbours on both trails are other slots with entries, and the
numbers allow it. -/
theorem detachGuarded_eq (he : t.entry? slot = some e)
    (hbefore : ∀ p, before = some p → slot ≠ p ∧ ∃ y, t.entry? p = some y)
    (hnext : ∀ n, e.next = some n →
      slot ≠ n ∧ ∃ y, t.entry? n = some y ∧ y.gap + e.gap < UInt64.size)
    (hend : e.next = none → e.gap ≤ t.pending)
    (hprev : ∀ p, e.prev = some p → slot ≠ p ∧ ∃ y, t.entry? p = some y) (hsize : 1 ≤ t.size) :
    t.detachGuarded slot bucket before = .ok (t.detach slot bucket before) := by
  have hchain : (t.vacate slot).passChainGuarded bucket before e =
      .ok ((t.vacate slot).passChain bucket before e) := by
    refine passChainGuarded_eq fun p hp => ?_
    obtain ⟨hne, y, hy⟩ := hbefore p hp
    exact ⟨y, by rw [entry?_vacate, if_neg hne, hy]⟩
  have hpending : ((t.vacate slot).passChain bucket before e).pending = t.pending := by
    cases before with
    | none => cases hc : e.chain <;> simp [passChain, setFirst, hc, vacate]
    | some p => rfl
  have hnext' : ((t.vacate slot).passChain bucket before e).passNextGuarded e =
      .ok (((t.vacate slot).passChain bucket before e).passNext e) := by
    refine passNextGuarded_eq (fun n hn => ?_) fun hnone => hpending ▸ hend hnone
    obtain ⟨hne, y, hy, hgap⟩ := hnext n hn
    refine ⟨if before = some n then { y with chain := e.chain } else y, ?_, ?_⟩
    · rw [entry?_passChain, entry?_vacate, if_neg hne, hy]
      split <;> rfl
    · split <;> exact hgap
  have hprev' : (((t.vacate slot).passChain bucket before e).passNext e).passPrevGuarded e =
      .ok ((((t.vacate slot).passChain bucket before e).passNext e).passPrev e) := by
    refine passPrevGuarded_eq fun p hp => Option.isSome_iff_exists.mp ?_
    obtain ⟨hne, y, hy⟩ := hprev p hp
    rw [entry?_passNext, entry?_passChain, entry?_vacate, if_neg hne, hy]
    split <;> split <;> rfl
  rw [detachGuarded, occupant_eq he, ok_bind, hchain, ok_bind, hnext', ok_bind, hprev', ok_bind,
    checkedSub_eq hsize, ok_bind, detach_eq he]
  rfl

end Detach

/-! ## Putting an entry in -/

def placeGuarded (t : Timeline κ ν) (e : Entry κ ν) : Except Fault (Timeline κ ν × Nat) :=
  match t.free with
  | slot :: _ => if slot < t.slots.size then .ok (t.place e) else .error (.dangling slot)
  | [] => .ok (t.place e)

def followGuarded (t : Timeline κ ν) (tail : Option Nat) (slot : Nat) :
    Except Fault (Timeline κ ν) :=
  match tail with
  | some s => t.amend s fun x => .ok { x with next := some slot }
  | none => .ok { t with head := some slot }

/-- How long after the last expiry an entry put in now expires. -/
def gapGuarded (t : Timeline κ ν) : Except Fault Nat :=
  if t.head.isNone then .ok t.ttl else checkedSub t.ttl t.pending

section Keyed

variable [BEq κ] [Hashable κ]

/-! ## Operations by key -/

def seekGuarded (t : Timeline κ ν) (key : κ) :
    Nat → Option Nat → Option Nat → Except Fault (Option (Nat × Option Nat))
  | _, _, none => .ok none
  | 0, _, some _ => .error .endless
  | n + 1, before, some slot => do
    let e ← t.occupant slot
    if e.key == key then return some (slot, before) else seekGuarded t key n (some slot) e.chain

def findGuarded (t : Timeline κ ν) (key : κ) : Except Fault (Option (Nat × Option Nat)) :=
  t.seekGuarded key t.slots.size none (t.first? (t.bucketOf key))

def getGuarded (t : Timeline κ ν) (key : κ) : Except Fault (Option ν) := do
  match ← t.findGuarded key with
  | none => return none
  | some (slot, _) => return some (← t.occupant slot).value

def removeGuarded (t : Timeline κ ν) (key : κ) :
    Except Fault (Timeline κ ν × Option (κ × ν)) := do
  match ← t.findGuarded key with
  | none => return (t, none)
  | some (slot, before) => t.detachGuarded slot (t.bucketOf key) before

def appendGuarded (t : Timeline κ ν) (key : κ) (value : ν) : Except Fault (Timeline κ ν) := do
  let bucket := t.bucketOf key
  let gap ← t.gapGuarded
  let (t', slot) ← t.placeGuarded
    { key, value, gap, chain := t.first? bucket, prev := t.tail, next := none }
  let t' ← (t'.setFirst bucket (some slot)).followGuarded t.tail slot
  return { t' with tail := some slot, pending := t.ttl, size := t.size + 1 }

def insertGuarded (t : Timeline κ ν) (key : κ) (value : ν) :
    Except Fault (Timeline κ ν × Option (κ × ν)) := do
  let (t, replaced) ← t.removeGuarded key
  let t ← t.appendGuarded key value
  return (t, replaced)

def evictGuarded (t : Timeline κ ν) : Nat → Except Fault (Timeline κ ν × List (κ × ν))
  | 0 => if t.head.isNone then .ok (t, []) else .error .endless
  | n + 1 =>
    match t.head with
    | none => .ok (t, [])
    | some slot => do
      let e ← t.occupant slot
      if e.gap ≠ 0 then return (t, [])
      else
        let bucket := t.bucketOf e.key
        let before ← t.chainBeforeGuarded slot t.slots.size none (t.first? bucket)
        let (t, _) ← t.detachGuarded slot bucket before
        let (t, rest) ← evictGuarded t n
        return (t, (e.key, e.value) :: rest)

def tickGuarded (t : Timeline κ ν) : Except Fault (Timeline κ ν × List (κ × ν)) :=
  match t.head with
  | none => .ok (t, [])
  | some slot => do
    let t ← ({ t with pending := t.pending - 1 } : Timeline κ ν).amend slot fun e =>
      .ok { e with gap := e.gap - 1 }
    t.evictGuarded t.slots.size

/-! ## No fault arises -/

variable {t : Timeline κ ν} {slot : Nat} {e : Entry κ ν}

omit [Hashable κ] in
theorem seekGuarded_eq (key : κ) {l : List Nat} {n : Nat} (before : Option Nat)
    {start : Option Nat} (h : t.Trail (·.chain) start l none) (hn : l.length ≤ n) :
    t.seekGuarded key n before start = .ok (t.seek key n before start) := by
  induction l generalizing n before start with
  | nil =>
    cases h
    cases n <;> rfl
  | cons s rest ih =>
    obtain ⟨rfl, e, he, htail⟩ := h
    obtain ⟨n, rfl⟩ : ∃ m, n = m + 1 := ⟨n - 1, by simp at hn; omega⟩
    rw [seekGuarded, occupant_eq he, ok_bind, seek]
    simp only [he]
    by_cases hk : (e.key == key) = true
    · rw [if_pos hk, if_pos hk]
      rfl
    · rw [if_neg hk, if_neg hk]
      exact ih (some s) htail (by simpa using hn)

omit [BEq κ] in
theorem tickGuarded_of_head (hhead : t.head = some slot) (he : t.entry? slot = some e) :
    t.tickGuarded = (t.nearer slot).evictGuarded (t.nearer slot).slots.size := by
  have hnearer : ({ t with pending := t.pending - 1 } : Timeline κ ν).amend slot
      (fun e => .ok { e with gap := e.gap - 1 }) = .ok (t.nearer slot) := amend_eq he rfl
  have htick : t.tickGuarded =
      ({ t with pending := t.pending - 1 } : Timeline κ ν).amend slot
        (fun e => .ok { e with gap := e.gap - 1 }) >>= fun t' => t'.evictGuarded t'.slots.size := by
    simp only [tickGuarded, hhead]
  rw [htick, hnearer, ok_bind]

namespace Threaded

variable {order pre post cpre cpost : List Nat} {chains : Nat → List Nat}

theorem detachGuarded (pre : List Nat) (h : t.Threaded (pre ++ slot :: post) chains)
    (hword : t.ttl < UInt64.size) (he : t.entry? slot = some e)
    (hchain : chains (t.bucketOf e.key) = cpre ++ slot :: cpost) :
    t.detachGuarded slot (t.bucketOf e.key) cpre.getLast? =
      .ok (t.detach slot (t.bucketOf e.key) cpre.getLast?) := by
  have hnd := List.nodup_cons.mp (List.nodup_middle.mp h.order_nodup)
  have hother : ∀ x ∈ pre ++ post, slot ≠ x ∧ ∃ y, t.entry? x = some y := fun x hx =>
    ⟨fun heq => hnd.1 (heq ▸ hx), h.entry (by
      rcases List.mem_append.mp hx with hx | hx <;> simp [hx])⟩
  -- All gaps are parts of the time that is pending, which is no more than a time to live.
  have hspan := h.pending_eq
  have hpending := h.pending_le
  rw [contents_append, contents_cons he, span_append, span_cons] at hspan
  simp only [content] at hspan
  refine detachGuarded_eq he (fun p hp => ?_) (fun n hn => ?_) (fun _ => by omega)
    (fun p hp => ?_) ?_
  · have hmem : p ∈ cpre := List.mem_of_getLast? hp
    have hcnd := h.chains_nodup (t.bucketOf e.key)
    rw [hchain] at hcnd
    obtain ⟨y, hy, _⟩ := (h.hashed (t.bucketOf e.key) p).mp (by simp [hchain, hmem])
    exact ⟨((List.nodup_append.mp hcnd).2.2 p hmem slot List.mem_cons_self).symm, y, hy⟩
  · rw [h.next_eq he] at hn
    obtain ⟨rest, rfl⟩ := List.head?_eq_some_iff.mp hn
    obtain ⟨hne, y, hy⟩ := hother n (by simp)
    rw [contents_cons hy, span_cons] at hspan
    simp only [content] at hspan
    exact ⟨hne, y, hy, by omega⟩
  · rw [h.prev_eq he] at hp
    exact hother p (List.mem_append_left _ (List.mem_of_getLast? hp))
  · rw [h.size_eq, List.length_append, List.length_cons]
    omega

theorem findGuarded (h : t.Threaded order chains) (key : κ) :
    t.findGuarded key = .ok (t.find? key) :=
  seekGuarded_eq key none (h.chain _) (h.chain_length_le _)

theorem appendGuarded (h : t.Threaded order chains) (key : κ) (value : ν) :
    t.appendGuarded key value = .ok (t.append key value) := by
  have hplace : ∀ e, t.placeGuarded e = .ok (t.place e) := by
    intro e
    unfold placeGuarded
    split <;> rename_i hfree
    · exact if_pos ((h.free _).mp (by simp [hfree])).1
    · rfl
  have hgap : t.gapGuarded = .ok (t.entryFor key value).gap := by
    simp only [gapGuarded, entryFor]
    by_cases hhead : t.head.isNone = true
    · rw [if_pos hhead, if_pos hhead]
    · rw [if_neg hhead, if_neg hhead, checkedSub_eq h.pending_le]
  have hfollow : ∀ placed, placed = t.place (t.entryFor key value) →
      (placed.1.setFirst (t.bucketOf key) (some placed.2)).followGuarded t.tail placed.2 =
        .ok ((placed.1.setFirst (t.bucketOf key) (some placed.2)).follow t.tail placed.2) := by
    rintro placed rfl
    unfold followGuarded follow
    cases htail : t.tail with
    | none => rfl
    | some s =>
      -- The slot that the new entry took was empty, so the tail is another one.
      obtain ⟨y, hy⟩ := h.entry (List.mem_of_getLast? (h.tail_eq ▸ htail))
      refine amend_eq
        (e := if (t.place (t.entryFor key value)).2 = s then t.entryFor key value else y) ?_ rfl
      rw [entry?_setFirst, entry?_place fun s hs => ((h.free s).mp hs).1, hy]
      split <;> rfl
  rw [Timeline.appendGuarded, append_eq]
  simp only [hgap, ok_bind, hplace]
  exact congrArg (· >>= _) (hfollow _ rfl)

theorem chainBeforeGuarded (h : t.Threaded order chains) (he : t.entry? slot = some e) :
    t.chainBeforeGuarded slot t.slots.size none (t.first? (t.bucketOf e.key)) =
      .ok (t.chainBefore slot t.slots.size none (t.first? (t.bucketOf e.key))) :=
  chainBeforeGuarded_eq none (h.chain _) (h.mem_chain he) (h.chain_length_le _)

theorem evictGuarded {n : Nat} (h : t.Threaded order chains) (hword : t.ttl < UInt64.size)
    (hn : order.length ≤ n) : t.evictGuarded n = .ok (t.evict n) := by
  induction n generalizing t order chains with
  | zero =>
    obtain rfl : order = [] := List.length_eq_zero_iff.mp (Nat.le_zero.mp hn)
    rw [Timeline.evictGuarded, h.next.start_eq]
    rfl
  | succ n ih =>
    rw [Timeline.evictGuarded, evict]
    cases order with
    | nil =>
      rw [h.next.start_eq]
      rfl
    | cons s rest =>
      obtain ⟨e, he⟩ := h.entry List.mem_cons_self
      rw [h.next.start_eq]
      simp only [List.head?_cons, he, occupant_eq he, ok_bind]
      by_cases hgap : e.gap = 0
      · obtain ⟨cpre, cpost, hchain, hbefore⟩ := h.chainBefore_head he
        have hd := Timeline.detached (t.bucketOf e.key) cpre.getLast? he
        have hrest := h.detached [] he hchain hd
        rw [if_neg (not_not.mpr hgap), if_neg (not_not.mpr hgap), h.chainBeforeGuarded he, ok_bind,
          hbefore, h.detachGuarded [] hword he hchain, ok_bind]
        simp only [ih hrest (hd.ttl ▸ hword) (by simpa using hn), ok_bind]
        rfl
      · rw [if_pos hgap, if_pos hgap]
        rfl

end Threaded

/-! ## In a store between operations -/

namespace Holds

variable {l : List (κ × ν × Nat)} (h : t.Holds l)

include h

theorem findGuarded (key : κ) : t.findGuarded key = .ok (t.find? key) := by
  obtain ⟨_, _, ht, _⟩ := h
  exact ht.findGuarded key

theorem walkGuarded : t.walkGuarded t.slots.size t.head = .ok (t.walk t.slots.size t.head) := by
  obtain ⟨_, _, ht, _⟩ := h
  exact walkGuarded_eq ht.next ht.length_le

theorem drainGuarded : t.drainGuarded = .ok t.drain := by
  obtain ⟨order, chains, ht, _⟩ := h
  rw [Timeline.drainGuarded, emptyOut_eq ht.next ht.order_nodup ht.length_le, ok_bind,
    ← ht.toList_eq]
  rfl

theorem tickGuarded (hword : t.ttl < UInt64.size) : t.tickGuarded = .ok t.tick := by
  cases l with
  | nil =>
    obtain ⟨order, chains, ht, hl, _⟩ := h
    have hlen := ht.contents_length
    rw [hl] at hlen
    obtain rfl : order = [] := List.length_eq_zero_iff.mp hlen.symm
    rw [Timeline.tickGuarded, tick, ht.next.start_eq]
    rfl
  | cons c rest =>
    have hpos := h.head_pos
    obtain ⟨order, chains, ht, hl, _⟩ := h
    cases order with
    | nil => cases hl
    | cons s rest =>
      obtain ⟨e, he⟩ := ht.entry List.mem_cons_self
      rw [contents_cons he] at hl
      obtain ⟨rfl, rfl⟩ := List.cons.inj hl
      have hnear := ht.nearer he hpos
      rw [tickGuarded_of_head ht.next.start_eq he, tick_of_head ht.next.start_eq]
      exact hnear.evictGuarded hword hnear.length_le

section Lawful

variable [LawfulHashable κ]

theorem getGuarded (key : κ) : t.getGuarded key = .ok (t.get? key) := by
  obtain ⟨order, chains, ht, _⟩ := h
  rw [Timeline.getGuarded, ht.findGuarded, ok_bind, get?]
  rcases ht.find?_cases key with ⟨hnone, _⟩ | ⟨s, e, _, _, he, _, _, hfind⟩
  · rw [hnone]
    rfl
  · rw [hfind]
    simp only [occupant_eq he, ok_bind, Option.bind_some, he, Option.map_some]
    rfl

theorem removeGuarded (hword : t.ttl < UInt64.size) (key : κ) :
    t.removeGuarded key = .ok (t.remove key) := by
  obtain ⟨order, chains, ht, _⟩ := h
  rw [Timeline.removeGuarded, ht.findGuarded, ok_bind, Timeline.remove]
  rcases ht.find?_cases key with ⟨hnone, _⟩ | ⟨s, e, cpre, cpost, he, hk, hchain, hfind⟩
  · rw [hnone]
    rfl
  · obtain ⟨pre, post, rfl⟩ := List.append_of_mem (ht.mem_order he)
    have hbucket : t.bucketOf key = t.bucketOf e.key := (bucketOf_congr t hk).symm
    rw [hbucket] at hchain
    rw [hfind]
    simp only [hbucket]
    exact ht.detachGuarded pre hword he hchain

theorem insertGuarded [EquivBEq κ] (hword : t.ttl < UInt64.size) (key : κ) (value : ν) :
    t.insertGuarded key value = .ok (t.insert key value) := by
  obtain ⟨_, ⟨_, _, ht, _⟩, _⟩ := h.remove key
  rw [Timeline.insertGuarded, h.removeGuarded hword, ok_bind]
  simp only [ht.appendGuarded, ok_bind]
  rfl

end Lawful

end Holds

end Keyed

end Timeline
end FloodMesh
