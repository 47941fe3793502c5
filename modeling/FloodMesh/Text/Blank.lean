/-!
# FloodMesh.Text.Blank

White space of a text: the characters with the Unicode property `White_Space`, and a text
without the white space at its two ends.
-/

namespace FloodMesh
namespace Text

/-- The character has the Unicode property `White_Space`. -/
def isBlank (c : Char) : Bool :=
  (0x09 ≤ c.val && c.val ≤ 0x0d) || c.val == 0x20 || c.val == 0x85 || c.val == 0xa0 ||
  c.val == 0x1680 || (0x2000 ≤ c.val && c.val ≤ 0x200a) || c.val == 0x2028 ||
  c.val == 0x2029 || c.val == 0x202f || c.val == 0x205f || c.val == 0x3000

/-- The characters without the white space at either end. -/
def trim (cs : List Char) : List Char :=
  ((cs.dropWhile isBlank).reverse.dropWhile isBlank).reverse

/-- Nothing but white space. -/
def allBlank (text : String) : Bool := text.toList.all isBlank

end Text
end FloodMesh
