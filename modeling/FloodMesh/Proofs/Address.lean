import FloodMesh.Address.Parser
import FloodMesh.Address.Printer

/-!
# FloodMesh.Proofs.Address

Every address is read back from its text. A reader of a numeral takes the whole of it when no digit
follows, and a reader of groups stops at a double colon or at the end.
-/

namespace FloodMesh
namespace Address

/-! ## Numerals -/

/-- No digit of any radix comes first. -/
def Ends (rest : List Char) : Prop := ∀ c ∈ rest.head?, hexDigit? c = none

theorem ends_nil : Ends [] := fun _ h => nomatch h

theorem ends_cons {c : Char} (h : hexDigit? c = none) (rest : List Char) : Ends (c :: rest) := by
  intro d hd
  cases hd
  exact h

theorem digits_of_ends {rest : List Char} (h : Ends rest) (radix : Nat) :
    digits radix rest = ([], rest) := by
  cases rest with
  | nil => rfl
  | cons c cs =>
    have hnone : digit? radix c = none := by rw [digit?, h c rfl, Option.bind_none]
    rw [digits, hnone]

theorem digits_append {radix : Nat} {front rest : List Char} {ds : List Nat} (h : Ends rest)
    (hfront : front.map (digit? radix) = ds.map some) :
    digits radix (front ++ rest) = (ds, rest) := by
  induction front generalizing ds with
  | nil =>
    cases ds with
    | nil => exact digits_of_ends h radix
    | cons d ds => cases hfront
  | cons c cs ih =>
    cases ds with
    | nil => cases hfront
    | cons d ds =>
      obtain ⟨hc, hcs⟩ := List.cons.inj hfront
      rw [List.cons_append, digits, hc, ih hcs]

theorem digit?_digitChar {radix n : Nat} (hradix : radix ≤ 16) (h : n < radix) :
    digit? radix n.digitChar = some n := by
  have hall : ∀ d : Fin 16, hexDigit? (Nat.digitChar d.val) = some d.val := by decide
  rw [digit?, hall ⟨n, by omega⟩, Option.bind_some, if_pos h]

/-- The digits that are written are those of the number, with no zero in front of others. -/
theorem exists_digits (radix : Nat) (hone : 1 < radix) (hradix : radix ≤ 16) (n : Nat) :
    ∃ ds, (Nat.toDigits radix n).map (digit? radix) = ds.map some ∧ digitsValue radix ds = n ∧
      (ds.head? = some 0 → ds = [0]) := by
  -- A numeral is that of the quotient by the radix and the digit of the remainder.
  induction n using Nat.strongRecOn with
  | ind n ih =>
    by_cases hn : n < radix
    · refine ⟨[n], ?_, ?_, ?_⟩
      · rw [Nat.toDigits_of_lt_base hn, List.map_singleton, digit?_digitChar hradix hn,
          List.map_singleton]
      · simp [digitsValue]
      · intro hzero
        rw [Option.some.inj hzero]
    · have hle : radix ≤ n := Nat.le_of_not_lt hn
      obtain ⟨ds, hmap, hvalue, hzero⟩ := ih (n / radix) (Nat.div_lt_self (by omega) hone)
      refine ⟨ds ++ [n % radix], ?_, ?_, ?_⟩
      · rw [Nat.toDigits_of_base_le hone hle, List.map_append, hmap, List.map_singleton,
          digit?_digitChar hradix (Nat.mod_lt n (by omega)), List.map_append, List.map_singleton]
      · rw [digitsValue, List.foldl_append, List.foldl_cons, List.foldl_nil]
        rw [digitsValue] at hvalue
        rw [hvalue, Nat.div_add_mod]
      · intro hhead
        cases ds with
        | nil => exact absurd hmap (by simp [Nat.toDigits_ne_nil])
        | cons d ds =>
          -- What stands in front of the last digit would be zero.
          have hquotient : n / radix = 0 := by rw [← hvalue, hzero hhead]; rfl
          have hpos := Nat.div_pos hle (by omega)
          omega

theorem octet_toDigits (b : UInt8) {rest : List Char} (h : Ends rest) :
    octet (Nat.toDigits 10 b.toNat ++ rest) = some (b, rest) := by
  obtain ⟨ds, hmap, hvalue, hzero⟩ := exists_digits 10 (by decide) (by decide) b.toNat
  have hlength := congrArg List.length hmap
  have hthree : (Nat.toDigits 10 b.toNat).length ≤ 3 :=
    (Nat.length_toDigits_le_iff (by decide) (by decide)).mpr
      (Nat.lt_trans b.toNat_lt (by decide))
  rw [List.length_map, List.length_map] at hlength
  rw [octet, digits_append h hmap]
  cases ds with
  | nil => exact absurd (List.length_eq_zero_iff.mp hlength) Nat.toDigits_ne_nil
  | cons d ds =>
    have hplain : ¬(2 < ds.length ∨ (d = 0 ∧ ds ≠ [])) := by
      rintro (hlong | ⟨rfl, hmore⟩)
      · rw [List.length_cons] at hlength
        omega
      · exact hmore (List.cons.inj (hzero rfl)).2
    simp only [hplain, if_false, hvalue, b.toNat_lt, if_true, UInt8.ofNat_toNat]

def hexText (g : UInt16) : List Char := Nat.toDigits 16 g.toNat

theorem group_hexText (g : UInt16) {rest : List Char} (h : Ends rest) :
    group (hexText g ++ rest) = some (g, rest) := by
  obtain ⟨ds, hmap, hvalue, _⟩ := exists_digits 16 (by decide) (by decide) g.toNat
  have hlength := congrArg List.length hmap
  have hfour : (Nat.toDigits 16 g.toNat).length ≤ 4 :=
    (Nat.length_toDigits_le_iff (by decide) (by decide)).mpr g.toNat_lt
  rw [List.length_map, List.length_map] at hlength
  rw [group, hexText, digits_append h hmap]
  cases ds with
  | nil => exact absurd (List.length_eq_zero_iff.mp hlength) Nat.toDigits_ne_nil
  | cons d ds =>
    rw [hlength] at hfour
    simp only [Nat.not_lt.mpr hfour, if_false, hvalue, UInt16.ofNat_toNat]

theorem point_not_mem (g : UInt16) : '.' ∉ hexText g := by
  obtain ⟨ds, hmap, _⟩ := exists_digits 16 (by decide) (by decide) g.toNat
  intro hmem
  have hdigit := List.mem_map_of_mem (f := digit? 16) hmem
  rw [hexText] at hdigit
  rw [hmap] at hdigit
  obtain ⟨d, _, hd⟩ := List.mem_map.mp hdigit
  have hnone : digit? 16 '.' = none := rfl
  rw [hnone] at hd
  cases hd

/-! ## Texts -/

theorem toList_joinWith (separator t : String) (ts : List String) :
    (joinWith separator (t :: ts)).toList =
      t.toList ++ ts.flatMap fun u => separator.toList ++ u.toList := by
  rw [joinWith]
  induction ts generalizing t with
  | nil => simp
  | cons u ts ih => rw [List.foldl_cons, ih]; simp [String.toList_append]

/-- Four octets between points. -/
def dottedText (a b c d : UInt8) : List Char :=
  Nat.toDigits 10 a.toNat ++ '.' :: (Nat.toDigits 10 b.toNat ++ '.' :: (Nat.toDigits 10 c.toNat ++
    '.' :: Nat.toDigits 10 d.toNat))

theorem toList_dotted (a b c d : UInt8) :
    (IpAddress.dotted [a, b, c, d]).toList = dottedText a b c d := by
  rw [IpAddress.dotted, List.map_cons, toList_joinWith]
  simp [dottedText]

/-- Groups, each behind a colon. -/
def hexTail (gs : List UInt16) : List Char := gs.flatMap fun g => ':' :: hexText g

theorem toList_colonGroups (g : UInt16) (gs : List UInt16) :
    (IpAddress.colonGroups (g :: gs)).toList = hexText g ++ hexTail gs := by
  rw [IpAddress.colonGroups, List.map_cons, toList_joinWith, List.flatMap_map]
  simp [hexText, hexTail, Text.hex]

/-! ## Octets -/

theorem octets_dotted (a b c d : UInt8) {rest : List Char} (h : Ends rest) :
    octets (dottedText a b c d ++ rest) = some (#v[a, b, c, d], rest) := by
  have hpoint : ∀ cs, Ends ('.' :: cs) := ends_cons rfl
  simp only [dottedText, List.append_assoc, List.cons_append]
  rw [octets, octet_toDigits a (hpoint _)]
  simp only [after, if_true, octet_toDigits b (hpoint _), octet_toDigits c (hpoint _),
    octet_toDigits d h]

theorem octet_left {cs rest : List Char} {b : UInt8} (h : octet cs = some (b, rest)) :
    (digits 10 cs).2 = rest := by
  rw [octet] at h
  split at h
  · cases h
  · rename_i hdigits
    rw [hdigits]
    split at h
    · cases h
    · simp only at h
      split at h
      · cases h
        rfl
      · cases h

/-- Octets need a point behind the first numeral. -/
theorem octets_eq_none {cs : List Char} (h : (digits 10 cs).2.head? ≠ some '.') :
    octets cs = none := by
  rw [octets]
  cases hoctet : octet cs with
  | none => rfl
  | some p =>
    obtain ⟨a, rest⟩ := p
    rw [octet_left hoctet] at h
    have hafter : after '.' octet rest = none := by
      cases rest with
      | nil => rfl
      | cons c cs => exact if_neg fun hc => h (congrArg some hc)
    simp only [hafter]

theorem digits_left_ne (radix : Nat) {front rest : List Char} (hfront : '.' ∉ front)
    (hends : Ends rest) (hrest : rest.head? ≠ some '.') :
    (digits radix (front ++ rest)).2.head? ≠ some '.' := by
  induction front with
  | nil => rwa [List.nil_append, digits_of_ends hends]
  | cons c cs ih =>
    rw [List.mem_cons, not_or] at hfront
    rw [List.cons_append, digits]
    cases digit? radix c with
    | none => exact fun hc => hfront.1 (Option.some.inj hc).symm
    | some d => exact ih hfront.2

/-! ## Groups -/

/-- The end, or a colon: what may stand behind a group. -/
def Apart (rest : List Char) : Prop := ∀ c ∈ rest.head?, c = ':'

namespace Apart

variable {rest : List Char}

theorem ends (h : Apart rest) : Ends rest := by
  intro c hc
  rw [h c hc]
  rfl

theorem head_ne (h : Apart rest) : rest.head? ≠ some '.' := by
  intro hpoint
  exact absurd (h '.' hpoint) (by decide)

theorem nil : Apart [] := fun _ h => nomatch h

theorem cons (rest : List Char) : Apart (':' :: rest) := by
  intro c hc
  cases hc
  rfl

theorem hexTail (h : Apart rest) (gs : List UInt16) : Apart (hexTail gs ++ rest) := by
  cases gs with
  | nil => exact h
  | cons g gs => exact .cons _

end Apart

theorem octets_hexText (g : UInt16) {rest : List Char} (h : Apart rest) :
    octets (hexText g ++ rest) = none :=
  octets_eq_none (digits_left_ne 10 (point_not_mem g) h.ends h.head_ne)

/-- A group is read as one, and the reading goes on behind it. -/
theorem groups_hexText (room : Nat) (first : Bool) (g : UInt16) {rest : List Char} (h : Apart rest) :
    groups (room + 1) first ((if first then [] else [':']) ++ (hexText g ++ rest)) =
      (g :: (groups room false rest).1, (groups room false rest).2) := by
  have hnext : ∀ {α : Type} (reader : Reader α),
      (if first = true then reader ((if first then [] else [':']) ++ (hexText g ++ rest))
        else after ':' reader ((if first then [] else [':']) ++ (hexText g ++ rest))) =
          reader (hexText g ++ rest) := by
    intro α reader
    cases first <;> rfl
  rw [groups]
  simp only [hnext, octets_hexText g h, ite_self, group_hexText g h.ends]

/-- No more groups are read. -/
def Halts (rest : List Char) : Prop :=
  ∀ room first, groups room first rest = ([], false, rest)

theorem halts_nil : Halts [] := by
  intro room first
  cases room with
  | zero => rfl
  | succ room => cases first <;> simp [groups, after, octets, octet, group, digits]

theorem halts_colons (rest : List Char) : Halts (':' :: ':' :: rest) := by
  have hcolon : ∀ radix cs, digits radix (':' :: cs) = ([], ':' :: cs) :=
    fun radix cs => digits_of_ends (ends_cons rfl cs) radix
  intro room first
  cases room with
  | zero => rfl
  | succ room => cases first <;> simp [groups, after, octets, octet, group, hcolon]

theorem groups_hexTail {gs : List UInt16} {room : Nat} {rest : List Char} (hroom : gs.length ≤ room)
    (h : Apart rest) (hhalts : Halts rest) :
    groups room false (hexTail gs ++ rest) = (gs, false, rest) := by
  induction gs generalizing room with
  | nil => exact hhalts room false
  | cons g gs ih =>
    cases room with
    | zero => cases hroom
    | succ room =>
      have htext : hexTail (g :: gs) ++ rest = [':'] ++ (hexText g ++ (hexTail gs ++ rest)) := by
        simp [hexTail]
      have hstep := groups_hexText room false g (h.hexTail gs)
      rw [ih (Nat.le_of_succ_le_succ hroom)] at hstep
      rw [htext]
      exact hstep

theorem groups_colonGroups (gs : List UInt16) {room : Nat} {rest : List Char}
    (hroom : gs.length ≤ room) (h : Apart rest) (hhalts : Halts rest) :
    groups room true ((IpAddress.colonGroups gs).toList ++ rest) = (gs, false, rest) := by
  cases gs with
  | nil => exact hhalts room true
  | cons g gs =>
    cases room with
    | zero => cases hroom
    | succ room =>
      have hstep := groups_hexText room true g (h.hexTail gs)
      rw [groups_hexTail (Nat.le_of_succ_le_succ hroom) h hhalts] at hstep
      rw [toList_colonGroups, List.append_assoc]
      exact hstep

/-! ## Runs of zeros -/

open IpAddress (zeroRun longestZeroRun)

theorem take_zeroRun (gs : List UInt16) :
    gs.take (zeroRun gs) = List.replicate (zeroRun gs) 0 := by
  have hprefix := List.prefix_iff_eq_take.mp (List.takeWhile_prefix (l := gs) (· == 0))
  rw [zeroRun, ← hprefix]
  refine List.eq_replicate_iff.mpr ⟨rfl, fun g hg => ?_⟩
  exact eq_of_beq (List.all_eq_true.mp List.all_takeWhile g hg)

theorem take_longestZeroRun (gs : List UInt16) :
    (gs.drop (longestZeroRun gs).1).take (longestZeroRun gs).2 =
      List.replicate (longestZeroRun gs).2 0 := by
  refine List.foldlRecOn (motive := fun best : Nat × Nat =>
    (gs.drop best.1).take best.2 = List.replicate best.2 0) _ _ rfl fun best hbest i _ => ?_
  dsimp only
  split
  · exact take_zeroRun (gs.drop i)
  · exact hbest

/-! ## Addresses -/

theorem eight_toList (v : Vector UInt16 8) : eight v.toList = v := by
  refine Vector.ext fun i hi => ?_
  rw [eight, Vector.getElem_ofFn]
  simp [List.getD, hi]

theorem ipv6_colonGroups {gs : List UInt16} (h : gs.length = 8) :
    ipv6 (IpAddress.colonGroups gs).toList = some (eight gs, []) := by
  have hread := groups_colonGroups gs (Nat.le_of_eq h) .nil halts_nil
  rw [List.append_nil] at hread
  rw [ipv6, hread]
  exact if_pos h

/-- The zeros between two lists of groups are left out. -/
theorem ipv6_compressed {front back : List UInt16} (h : front.length + back.length < 8) :
    ipv6 ((IpAddress.colonGroups front).toList ++ ':' :: ':' ::
        (IpAddress.colonGroups back).toList) =
      some (eight (front ++ List.replicate (8 - front.length - back.length) 0 ++ back), []) := by
  have hroom : front.length ≤ 8 := by omega
  have hleft : back.length ≤ 7 - front.length := by omega
  have hfront := groups_colonGroups front hroom (.cons _)
    (halts_colons (IpAddress.colonGroups back).toList)
  have hback := groups_colonGroups back hleft .nil halts_nil
  rw [List.append_nil] at hback
  have hshort : front.length ≠ 8 := by omega
  simp only [ipv6, hfront, hshort, if_false, hback, Bool.false_eq_true]

theorem octetPair_eq (g : UInt16) :
    (g >>> 8).toUInt8.toUInt16 <<< 8 ||| g.toUInt8.toUInt16 = g := by
  have hg := g.toNat_lt
  have hlow : g.toNat % 256 < 2 ^ 8 := Nat.mod_lt _ (by decide)
  have hhigh : g.toNat >>> 8 < 256 := by
    rw [Nat.shiftRight_eq_div_pow]
    omega
  have hshifted : (g.toNat >>> 8) <<< 8 < 65536 := by
    rw [Nat.shiftLeft_eq]
    omega
  have hnat : ((g >>> 8).toUInt8.toUInt16 <<< 8 ||| g.toUInt8.toUInt16).toNat =
      (g.toNat >>> 8 % 256) <<< 8 % 65536 ||| g.toNat % 256 := by simp
  refine UInt16.toNat_inj.mp ?_
  rw [hnat, Nat.mod_eq_of_lt hhigh, Nat.mod_eq_of_lt hshifted,
    ← Nat.shiftLeft_add_eq_or_of_lt hlow, Nat.shiftLeft_eq, Nat.shiftRight_eq_div_pow]
  omega

/-- Two groups in the form of octets. -/
def pairText (g h : UInt16) : List Char :=
  dottedText (g >>> 8).toUInt8 g.toUInt8 (h >>> 8).toUInt8 h.toUInt8

theorem groups_pairText (g h : UInt16) :
    groups 6 false (':' :: pairText g h) = ([g, h], true, []) := by
  have hdotted := octets_dotted (g >>> 8).toUInt8 g.toUInt8 (h >>> 8).toUInt8 h.toUInt8 ends_nil
  rw [List.append_nil] at hdotted
  have hpairs :
      octetPairs #v[(g >>> 8).toUInt8, g.toUInt8, (h >>> 8).toUInt8, h.toUInt8] = [g, h] := by
    show [(g >>> 8).toUInt8.toUInt16 <<< 8 ||| g.toUInt8.toUInt16,
      (h >>> 8).toUInt8.toUInt16 <<< 8 ||| h.toUInt8.toUInt16] = [g, h]
    rw [octetPair_eq, octetPair_eq]
  simp [groups, after, pairText, hdotted, hpairs]

theorem ipv6_mapped (g h : UInt16) :
    ipv6 (':' :: ':' :: (hexText 0xffff ++ ':' :: pairText g h)) =
      some (eight [0, 0, 0, 0, 0, 0xffff, g, h], []) := by
  have hfront := halts_colons (hexText 0xffff ++ ':' :: pairText g h) 8 true
  have hback := groups_hexText 6 true 0xffff (.cons (pairText g h))
  rw [groups_pairText] at hback
  simp only [if_true, List.nil_append] at hback
  simp [ipv6, hfront, hback]

theorem octets_colonGroups (gs : List UInt16) {rest : List Char} (h : Apart rest) :
    octets ((IpAddress.colonGroups gs).toList ++ rest) = none := by
  cases gs with
  | nil =>
    refine octets_eq_none ?_
    show (digits 10 rest).2.head? ≠ some '.'
    rw [digits_of_ends h.ends]
    exact h.head_ne
  | cons g gs =>
    rw [toList_colonGroups, List.append_assoc]
    exact octets_hexText g (h.hexTail gs)

theorem ip_of_ipv6 {cs : List Char} {v : Vector UInt16 8} (hoctets : octets cs = none)
    (h : ipv6 cs = some (v, [])) : ip cs = some (.v6 v, []) := by
  rw [ip, hoctets, h]
  rfl

section Formatted

variable {v : Vector UInt16 8}

theorem ip_mapped {bytes : List UInt8} (h : IpAddress.mapped? v.toList = some bytes) :
    ip ("::ffff:" ++ IpAddress.dotted bytes).toList = some (.v6 v, []) := by
  unfold IpAddress.mapped? at h
  split at h
  · rename_i g k hgroups
    cases h
    have htext : ("::ffff:" ++ IpAddress.dotted
        [(g >>> 8).toUInt8, g.toUInt8, (k >>> 8).toUInt8, k.toUInt8]).toList =
          ':' :: ':' :: (hexText 0xffff ++ ':' :: pairText g k) := by
      rw [String.toList_append, toList_dotted]
      rfl
    rw [htext]
    refine ip_of_ipv6 (octets_colonGroups [] (.cons _)) ?_
    rw [ipv6_mapped, ← hgroups, eight_toList]
  · cases h

theorem ip_compressed {start length : Nat} (hlong : 1 < length)
    (hrun : (v.toList.drop start).take length = List.replicate length 0) :
    ip (IpAddress.colonGroups (v.toList.take start) ++ "::" ++
      IpAddress.colonGroups (v.toList.drop (start + length))).toList = some (.v6 v, []) := by
  have height : v.toList.length = 8 := Vector.length_toList
  -- The run lies within the groups, and they are what is before it, the run and what is behind.
  have hlength := congrArg List.length hrun
  rw [List.length_take, List.length_drop, List.length_replicate, height] at hlength
  have hfront : (v.toList.take start).length = start := by
    rw [List.length_take]
    omega
  have hback : (v.toList.drop (start + length)).length = 8 - start - length := by
    rw [List.length_drop]
    omega
  have hmiddle : 8 - start - (8 - start - length) = length := by omega
  have hgroups : v.toList.take start ++ List.replicate (8 - start - (8 - start - length)) 0 ++
      v.toList.drop (start + length) = v.toList := by
    rw [hmiddle, ← hrun, List.append_assoc, ← List.drop_drop, List.take_append_drop,
      List.take_append_drop]
  rw [String.toList_append, String.toList_append, List.append_assoc]
  refine ip_of_ipv6 (octets_colonGroups _ (.cons _)) ?_
  refine (ipv6_compressed ?_).trans ?_
  · rw [hfront, hback]
    omega
  · rw [hfront, hback, hgroups, eight_toList]

theorem ip_colonGroups : ip (IpAddress.colonGroups v.toList).toList = some (.v6 v, []) := by
  have hnone := octets_colonGroups v.toList .nil
  rw [List.append_nil] at hnone
  refine ip_of_ipv6 hnone ?_
  rw [ipv6_colonGroups Vector.length_toList, eight_toList]

theorem ip_formatGroups (v : Vector UInt16 8) :
    ip (IpAddress.formatGroups v.toList).toList = some (.v6 v, []) := by
  rw [IpAddress.formatGroups]
  split
  · rename_i bytes hmapped
    exact ip_mapped hmapped
  · have hrun := take_longestZeroRun v.toList
    generalize longestZeroRun v.toList = run at hrun ⊢
    obtain ⟨start, length⟩ := run
    simp only
    split
    · rename_i hlong
      exact ip_compressed hlong hrun
    · exact ip_colonGroups

end Formatted

end Address

/-- Every address is read back from its text. -/
theorem IpAddress.ofString?_format (ip : IpAddress) : IpAddress.ofString? ip.format = some ip := by
  have hread : Address.ip ip.format.toList = some (ip, []) := by
    cases ip with
    | v4 v =>
      obtain ⟨a, b, c, d, hv⟩ : ∃ a b c d, v.toList = [a, b, c, d] := by
        match h : v.toList, v.length_toList with
        | [a, b, c, d], _ => exact ⟨a, b, c, d, rfl⟩
      have hoctets := Address.octets_dotted a b c d Address.ends_nil
      rw [List.append_nil] at hoctets
      rw [format, hv, Address.toList_dotted, Address.ip, hoctets]
      have hvector : v = #v[a, b, c, d] := Vector.toList_inj.mp hv
      rw [hvector]
    | v6 v => exact Address.ip_formatGroups v
  rw [ofString?, Address.whole?, hread]

end FloodMesh
