/-!
# FloodMesh.Bytes

Byte strings, as they travel between peers. A text goes over the wire as its UTF-8 bytes;
`toString?_ofString` says that those bytes spell the text again.
-/

namespace FloodMesh

/-- A byte string. -/
abbrev Bytes := List UInt8

namespace Bytes

/-- The UTF-8 bytes of a text. -/
def ofString (text : String) : Bytes := text.toByteArray.data.toList

/-- The text that a byte string spells in UTF-8; `none` if it spells none. -/
def toString? (bytes : Bytes) : Option String := String.fromUTF8? ⟨bytes.toArray⟩

theorem toString?_ofString (text : String) : toString? (ofString text) = some text := by
  simp [toString?, ofString, String.fromUTF8?, text.isValidUTF8, String.fromUTF8]

/-- Space, tab, line feed, form feed and carriage return: white space of the ASCII range. -/
def isAsciiBlank (b : UInt8) : Bool :=
  b == 0x20 || b == 0x09 || b == 0x0a || b == 0x0c || b == 0x0d

end Bytes
end FloodMesh
