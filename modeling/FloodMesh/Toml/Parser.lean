import FloodMesh.Toml.Numeral

/-!
# FloodMesh.Toml.Parser

TOML documents. A document is a sequence of lines, each of which gives a key its value, opens a
table, or is empty. Only values between brackets go over several lines.
-/

namespace FloodMesh
namespace Toml

/-- How deep arrays and tables between braces may stand in each other, and how many parts a key may
have. -/
def depthLimit : Nat := 79

/-- A key. -/
def readKey : Reader Key := fun cs =>
  (readParts depthLimit cs).map fun (parts, rest) => (⟨parts.dropLast, parts.getLastD ""⟩, rest)

/-- A key, an equals sign, and what a reader reads after it. -/
def readPair {α : Type} (value : Reader α) : Reader (Key × α) := fun cs =>
  match readKey cs with
  | none => none
  | some (key, rest) =>
    match rest with
    | '=' :: rest => (value (skipBlank rest)).map fun (v, rest) => ((key, v), rest)
    | _ => none

/-- The items of an array after its opening bracket. At most `n` items are read. A comma may stand
behind the last one. -/
def readItems {α : Type} (item : Reader α) : Nat → Reader (List α)
  | 0, _ => none
  | n + 1, cs =>
    match skipLines false cs with
    | none => none
    | some (']' :: rest) => some ([], rest)
    | some cs =>
      match item cs with
      | none => none
      | some (v, rest) =>
        match skipLines false rest with
        | some (']' :: rest) => some ([v], rest)
        | some (',' :: rest) => (readItems item n rest).map fun (vs, rest) => (v :: vs, rest)
        | _ => none

/-- The pairs of a table between braces, of which there is at least one. At most `n` are read. -/
def readPairs {α : Type} (pair : Reader α) : Nat → Reader (List α)
  | 0, _ => none
  | n + 1, cs =>
    match pair cs with
    | none => none
    | some (p, rest) =>
      match skipBlank rest with
      | '}' :: rest => some ([p], rest)
      | ',' :: rest => (readPairs pair n rest).map fun (ps, rest) => (p :: ps, rest)
      | _ => none

/-- A table after its opening brace. -/
def readBraces (value : Reader Toml) : Reader Toml := fun cs =>
  match skipBlank cs with
  | '}' :: rest => some (table .braces [], rest)
  | cs =>
    match readPairs (readPair value) cs.length cs with
    | none => none
    | some (pairs, rest) =>
      (pairs.foldlM (fun entries (key, v) => assign key v .braces entries) []).map fun entries =>
        (table .braces entries, rest)

/-- A value in which arrays and tables stand in each other at most `depth` deep. -/
def readValue : Nat → Reader Toml
  | depth, cs =>
    match cs with
    | '"' :: _ => (readText cs).map fun (s, rest) => (text s, rest)
    | '\x27' :: _ => (readText cs).map fun (s, rest) => (text s, rest)
    | 't' :: 'r' :: 'u' :: 'e' :: rest => some (bool true, rest)
    | 'f' :: 'a' :: 'l' :: 's' :: 'e' :: rest => some (bool false, rest)
    | '[' :: rest =>
      match depth with
      | 0 => none
      | depth + 1 =>
        (readItems (readValue depth) (rest.length + 1) rest).map fun (vs, rest) => (array vs, rest)
    | '{' :: rest =>
      match depth with
      | 0 => none
      | depth + 1 => readBraces (readValue depth) rest
    | cs => readNumeral cs

/-- One line that is not empty. -/
def readStatement : Reader Statement
  | '[' :: '[' :: cs =>
    match readKey cs with
    | some (key, ']' :: ']' :: rest) => some (.rowHeader key, rest)
    | _ => none
  | '[' :: cs =>
    match readKey cs with
    | some (key, ']' :: rest) => some (.header key, rest)
    | _ => none
  | cs => (readPair (readValue depthLimit) cs).map fun ((key, v), rest) => (.entry key v, rest)

/-- The lines of a document, at most `n` of them. -/
def readStatements : Nat → List Char → Option (List Statement)
  | 0, _ => none
  | n + 1, cs =>
    match skipLines false cs with
    | none => none
    | some [] => some []
    | some cs =>
      match readStatement cs with
      | none => none
      | some (s, rest) =>
        match endLine? rest with
        | none => none
        | some rest => (readStatements n rest).map (s :: ·)

/-- The text without the mark that may stand at its front. -/
def dropMark : List Char → List Char
  | '\ufeff' :: cs => cs
  | cs => cs

/-- The tables of a document. Every line takes a character at least. -/
def parse? (text : String) : Option Entries :=
  let cs := dropMark text.toList
  match readStatements (cs.length + 1) cs with
  | none => none
  | some statements => ofStatements statements

end Toml
end FloodMesh
