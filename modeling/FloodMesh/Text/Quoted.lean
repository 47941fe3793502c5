import FloodMesh.Text.Printable

/-!
# FloodMesh.Text.Quoted

A text as messages quote it: between double quotes, with a backslash before a quote or a
backslash, short escapes for NUL, tab, line feed and carriage return, and the code point in hex
for every other character that would not show by itself.
-/

namespace FloodMesh
namespace Text

/-- A number in lower-case hexadecimal, without leading zeros. -/
def hex (n : Nat) : String := String.ofList (Nat.toDigits 16 n)

/-- The escape that names a character by its code point. -/
def codePointEscape (c : Char) : String := "\\u\x7b" ++ hex c.toNat ++ "\x7d"

/-- One character inside quotes. -/
def quotedChar (c : Char) : String :=
  if c = '"' then "\\\""
  else if c = '\\' then "\\\\"
  else if c = '\n' then "\\n"
  else if c = '\r' then "\\r"
  else if c = '\t' then "\\t"
  else if c = '\x00' then "\\0"
  else if isExtending c || !isPrintable c then codePointEscape c
  else c.toString

/-- A text between quotes. -/
def quoted (text : String) : String :=
  text.toList.foldl (fun acc c => acc ++ quotedChar c) "\"" ++ "\""

end Text
end FloodMesh
