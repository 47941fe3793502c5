import FloodMesh.Bytes

/-!
# FloodMesh.Proofs.Bytes

The bytes of a text, piece by piece. An ASCII character is one byte.
-/

namespace FloodMesh
namespace Bytes

theorem ofString_append (a b : String) : ofString (a ++ b) = ofString a ++ ofString b := by
  simp [ofString, String.toByteArray_append]

theorem ofString_ofList (cs : List Char) :
    ofString (String.ofList cs) = cs.flatMap String.utf8EncodeChar := by
  simp [ofString, List.utf8Encode]

/-- The byte of an ASCII character. -/
def ofAscii (c : Char) : UInt8 := UInt8.ofNat c.toNat

theorem ofString_ascii {cs : List Char} (h : ∀ c ∈ cs, c.toNat < 128) :
    ofString (String.ofList cs) = cs.map ofAscii := by
  rw [ofString_ofList]
  induction cs with
  | nil => rfl
  | cons c cs ih =>
    have hc := h c List.mem_cons_self
    have hsize : c.utf8Size = 1 := by
      rw [Char.utf8Size_eq_one_iff]
      exact UInt32.le_iff_toNat_le.mpr (Nat.le_of_lt_succ hc)
    rw [List.flatMap_cons, ih fun c hc => h c (List.mem_cons_of_mem _ hc),
      String.utf8EncodeChar_eq_singleton hsize]
    rfl

theorem lt_of_isDigit {c : Char} (h : c.isDigit = true) : 48 ≤ c.toNat ∧ c.toNat < 58 := by
  simp only [Char.isDigit, Bool.and_eq_true, decide_eq_true_eq] at h
  have hlow := UInt32.le_iff_toNat_le.mp h.1
  have hhigh := UInt32.le_iff_toNat_le.mp h.2
  exact ⟨hlow, Nat.lt_succ_of_le hhigh⟩

theorem ofString_repr (n : Nat) : ofString (Nat.repr n) = (Nat.toDigits 10 n).map ofAscii := by
  rw [Nat.repr_eq_ofList_toDigits]
  refine ofString_ascii fun c hc => ?_
  have hdigit := lt_of_isDigit (Nat.isDigit_of_mem_toDigits (by decide) (by decide) hc)
  omega

end Bytes
end FloodMesh
