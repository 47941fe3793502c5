import FloodMesh.Text.Blank

/-!
# FloodMesh.Pattern.Escape

The smallest parts of a regular expression: characters, escapes, classes by a letter and assertions.
Only the form of expressions matters here, nothing is ever matched against them. They are about
characters or, after `(?-u)`, about bytes. No tables of Unicode properties are at hand: properties
are not possible at all, and classes by a letter, word boundaries and comparison without case for
bytes only. All that matches has to be UTF-8.
-/

namespace FloodMesh
namespace Pattern

/-- How a stretch of an expression is read. -/
structure Mode where
  /-- Letters match in either case. -/
  caseless : Bool := false
  /-- The expression is about bytes. -/
  bytewise : Bool := false
  /-- White space and comments are left out. -/
  spaced : Bool := false
  deriving DecidableEq, Repr

/-- Skip white space, and comments up to the end of their lines; `comment` says whether one has
begun. -/
def skipSpace (comment : Bool) : List Char → List Char
  | [] => []
  | c :: cs =>
    if comment then skipSpace (c ≠ '\n') cs
    else if Text.isBlank c then skipSpace false cs
    else if c = '#' then skipSpace true cs
    else c :: cs

/-- Skip what the mode leaves out. -/
def Mode.skip (m : Mode) (cs : List Char) : List Char := if m.spaced then skipSpace false cs else cs

/-- A smallest part. -/
inductive Atom
  /-- A character; `byte` if it was written as two hexadecimal digits. -/
  | literal (c : Char) (byte : Bool)
  /-- Any character. -/
  | any
  /-- Digits, white space or word characters, or all others. -/
  | perl (negated : Bool)
  /-- A place in the text; `word` if it depends on what word characters are. -/
  | assertion (word : Bool)
  deriving DecidableEq, Repr

def hexDigit? (c : Char) : Option Nat :=
  if c.isDigit then some (c.toNat - 48)
  else if 'a' ≤ c ∧ c ≤ 'f' then some (c.toNat - 87)
  else if 'A' ≤ c ∧ c ≤ 'F' then some (c.toNat - 55)
  else none

/-- Read a number of hexadecimal digits; `value` is that of the digits before. -/
def readHex (m : Mode) : Nat → Nat → List Char → Option (Nat × List Char)
  | 0, value, cs => some (value, cs)
  | n + 1, value, cs =>
    match cs with
    | [] => none
    | c :: cs => (hexDigit? c).bind fun d => readHex m n (16 * value + d) (m.skip cs)

/-- Read a character by its code point. A brace would have to be closed by one, and patterns come
without closing braces. -/
def readCodePoint (m : Mode) (digits : Nat) (cs : List Char) : Option (Atom × List Char) :=
  (readHex m digits 0 (m.skip cs)).bind fun (n, rest) =>
    if n.isValidChar then some (.literal (Char.ofNat n) (digits = 2), rest) else none

/-- Read an escape, whose backslash is gone. Letters and digits that are not listed stand for
nothing; all else of ASCII stands for itself. -/
def readEscape (m : Mode) : List Char → Option (Atom × List Char)
  | [] => none
  | c :: cs =>
    match c with
    | 'x' => readCodePoint m 2 cs
    | 'u' => readCodePoint m 4 cs
    | 'U' => readCodePoint m 8 cs
    | 'd' | 's' | 'w' => some (.perl false, cs)
    | 'D' | 'S' | 'W' => some (.perl true, cs)
    | 'a' => some (.literal '\x07' false, cs)
    | 'f' => some (.literal '\x0c' false, cs)
    | 't' => some (.literal '\t' false, cs)
    | 'n' => some (.literal '\n' false, cs)
    | 'r' => some (.literal '\r' false, cs)
    | 'v' => some (.literal '\x0b' false, cs)
    | 'A' | 'z' => some (.assertion false, cs)
    | 'b' | 'B' | '<' | '>' => some (.assertion true, cs)
    | _ => if c.val < 0x80 ∧ ¬ c.isAlphanum then some (.literal c false, cs) else none

/-- The atom can be had by itself. -/
def Atom.possible (m : Mode) : Atom → Bool
  | literal c byte => if m.bytewise then !byte || c.val < 0x80 else !m.caseless
  | any => !m.bytewise
  | perl negated => m.bytewise && !negated
  | assertion word => !word || m.bytewise

/-- The atom can be had within brackets. -/
def Atom.possibleWithin (m : Mode) : Atom → Bool
  | literal c _ => !m.bytewise || c.val < 0x80
  | perl negated => m.bytewise && !negated
  | _ => false

end Pattern
end FloodMesh
