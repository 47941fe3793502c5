/-!
# FloodMesh.Toml.Scanner

The pieces of TOML text below its values: blanks, comments, line ends, strings and keys. Only a
line feed, alone or after a carriage return, ends a line. Control characters other than the tab
stand nowhere, not even in comments.
-/

namespace FloodMesh
namespace Toml

/-- A reader of one piece of text: its value and the characters after it. -/
abbrev Reader (α : Type) := List Char → Option (α × List Char)

/-- Space and tab. -/
def isBlank (c : Char) : Bool := c == ' ' || c == '\t'

/-- The character may stand in a comment or a string. -/
def isPlain (c : Char) : Bool := c == '\t' || (0x20 ≤ c.val && c.val ≤ 0x7e) || 0x80 ≤ c.val

def skipBlank (cs : List Char) : List Char := cs.dropWhile isBlank

/-- What follows the end of a line. -/
def newline? : List Char → Option (List Char)
  | '\n' :: cs => some cs
  | '\r' :: '\n' :: cs => some cs
  | _ => none

/-- What follows the line break at the front, if there is one. -/
def dropNewline (cs : List Char) : List Char := (newline? cs).getD cs

/-- What follows the rest of a line that holds nothing more than a comment. -/
def endLine? (cs : List Char) : Option (List Char) :=
  let cs := match skipBlank cs with
    | '#' :: cs => cs.dropWhile isPlain
    | cs => cs
  if cs = [] then some [] else newline? cs

/-- What follows blanks, comments and line breaks, from inside a comment or outside. -/
def skipLines (comment : Bool) : List Char → Option (List Char)
  | [] => some []
  | '\n' :: cs => skipLines false cs
  | '\r' :: '\n' :: cs => skipLines false cs
  | c :: cs =>
    if comment then if isPlain c then skipLines true cs else none
    else if isBlank c then skipLines false cs
    else if c = '#' then skipLines true cs
    else some (c :: cs)

/-! ## Strings -/

/-- The value of a hexadecimal digit in either case. -/
def hexDigit? (c : Char) : Option Nat :=
  if '0' ≤ c ∧ c ≤ '9' then some (c.toNat - '0'.toNat)
  else if 'a' ≤ c ∧ c ≤ 'f' then some (c.toNat - 'a'.toNat + 10)
  else if 'A' ≤ c ∧ c ≤ 'F' then some (c.toNat - 'A'.toNat + 10)
  else none

/-- The character whose code point is written in hexadecimal. -/
def character? (digits : List Char) : Option Char :=
  match digits.mapM hexDigit? with
  | none => none
  | some ds =>
    let n := ds.foldl (fun n d => 16 * n + d) 0
    if n.isValidChar then some (Char.ofNat n) else none

/-- The character that a backslash and a letter stand for. -/
def shortEscape? (c : Char) : Option Char :=
  if c = 'b' then some '\x08'
  else if c = 't' then some '\t'
  else if c = 'n' then some '\n'
  else if c = 'f' then some '\x0c'
  else if c = 'r' then some '\r'
  else if c = '"' then some '"'
  else if c = '\\' then some '\\'
  else none

/-- Put characters before what a reader of the rest of a string yields. -/
def before (content : List Char) (r : Option (List Char × List Char)) :
    Option (List Char × List Char) :=
  r.map fun (more, rest) => (content ++ more, rest)

/-- The content of a string after its opening double quote. -/
def readBasic : List Char → Option (List Char × List Char)
  | [] => none
  | '"' :: cs => some ([], cs)
  | '\\' :: 'u' :: a :: b :: c :: d :: cs =>
    match character? [a, b, c, d] with
    | none => none
    | some x => before [x] (readBasic cs)
  | '\\' :: 'U' :: a :: b :: c :: d :: e :: f :: g :: h :: cs =>
    match character? [a, b, c, d, e, f, g, h] with
    | none => none
    | some x => before [x] (readBasic cs)
  | '\\' :: c :: cs =>
    match shortEscape? c with
    | none => none
    | some x => before [x] (readBasic cs)
  | c :: cs => if isPlain c ∧ c ≠ '\\' then before [c] (readBasic cs) else none

/-- Where in a string of several lines the reader is. -/
inductive Fold
  /-- Among the characters of the string. -/
  | off
  /-- After a backslash that has to end the line. -/
  | pending
  /-- In the blanks and line breaks that such a backslash takes away. -/
  | on
  deriving DecidableEq, Repr

/-- The content of a string of several lines after its opening double quotes. Up to two more quotes
may stand right before the three that close it. -/
def readBasicLines : Fold → List Char → Option (List Char × List Char)
  | _, [] => none
  | fold, '\n' :: cs =>
    if fold = .off then before ['\n'] (readBasicLines .off cs) else readBasicLines .on cs
  | fold, '\r' :: '\n' :: cs =>
    if fold = .off then before ['\n'] (readBasicLines .off cs) else readBasicLines .on cs
  | fold, c :: cs =>
    if fold ≠ .off ∧ isBlank c then readBasicLines fold cs
    else if fold = .pending then none
    else
      match c, cs with
      | '"', '"' :: '"' :: '"' :: '"' :: rest => some (['"', '"'], rest)
      | '"', '"' :: '"' :: '"' :: rest => some (['"'], rest)
      | '"', '"' :: '"' :: rest => some ([], rest)
      | '\\', 'u' :: a :: b :: c :: d :: rest =>
        match character? [a, b, c, d] with
        | none => none
        | some x => before [x] (readBasicLines .off rest)
      | '\\', 'U' :: a :: b :: c :: d :: e :: f :: g :: h :: rest =>
        match character? [a, b, c, d, e, f, g, h] with
        | none => none
        | some x => before [x] (readBasicLines .off rest)
      | '\\', e :: rest =>
        match shortEscape? e with
        | some x => before [x] (readBasicLines .off rest)
        | none => readBasicLines .pending (e :: rest)
      | c, cs => if isPlain c ∧ c ≠ '\\' then before [c] (readBasicLines .off cs) else none

/-- The content of a string after its opening single quote. -/
def readLiteral : List Char → Option (List Char × List Char)
  | [] => none
  | '\x27' :: cs => some ([], cs)
  | c :: cs => if isPlain c then before [c] (readLiteral cs) else none

/-- The content of a string of several lines after its opening single quotes. -/
def readLiteralLines : List Char → Option (List Char × List Char)
  | [] => none
  | '\x27' :: '\x27' :: '\x27' :: '\x27' :: '\x27' :: cs => some (['\x27', '\x27'], cs)
  | '\x27' :: '\x27' :: '\x27' :: '\x27' :: cs => some (['\x27'], cs)
  | '\x27' :: '\x27' :: '\x27' :: cs => some ([], cs)
  | '\n' :: cs => before ['\n'] (readLiteralLines cs)
  | '\r' :: '\n' :: cs => before ['\n'] (readLiteralLines cs)
  | c :: cs => if isPlain c then before [c] (readLiteralLines cs) else none

/-- A string on one line. -/
def readLineText : Reader String
  | '"' :: cs => (readBasic cs).map fun (s, rest) => (String.ofList s, rest)
  | '\x27' :: cs => (readLiteral cs).map fun (s, rest) => (String.ofList s, rest)
  | _ => none

/-- A string. A line break right after three opening quotes does not count. -/
def readText : Reader String
  | '"' :: '"' :: '"' :: cs =>
    (readBasicLines .off (dropNewline cs)).map fun (s, rest) => (String.ofList s, rest)
  | '\x27' :: '\x27' :: '\x27' :: cs =>
    (readLiteralLines (dropNewline cs)).map fun (s, rest) => (String.ofList s, rest)
  | cs => readLineText cs

/-! ## Keys -/

/-- ASCII letters, digits, underscores and dashes make up a key without quotes. -/
def isBare (c : Char) : Bool := c.isAlphanum || c == '_' || c == '-'

/-- One part of a key. -/
def readPart : Reader String := fun cs =>
  match cs.span isBare with
  | ([], _) => readLineText cs
  | (part, rest) => some (String.ofList part, rest)

/-- Up to `n` parts of a key between dots, with blanks around. -/
def readParts : Nat → Reader (List String)
  | 0, _ => none
  | n + 1, cs =>
    match readPart (skipBlank cs) with
    | none => none
    | some (part, rest) =>
      match skipBlank rest with
      | '.' :: rest => (readParts n rest).map fun (parts, rest) => (part :: parts, rest)
      | rest => some ([part], rest)

end Toml
end FloodMesh
