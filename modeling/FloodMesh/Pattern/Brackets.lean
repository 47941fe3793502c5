import FloodMesh.Pattern.Escape

/-!
# FloodMesh.Pattern.Brackets

Classes of characters between brackets: characters, ranges, classes by name, and classes in
brackets of their own, combined by `&&`, `--` and `~~`. About bytes, no class may be negated, for it
would hold bytes that are no text. About characters, a class in which any are written cannot be
compared without case; without them a class holds nothing or everything, and has no case.
-/

namespace FloodMesh
namespace Pattern

/-- What is known of a class. -/
structure Brackets where
  /-- How deeply it is nested. -/
  depth : Nat := 0
  /-- Characters, ranges or classes by name are written in it. -/
  written : Bool := false
  deriving DecidableEq, Repr

namespace Brackets

/-- A single character, range or class by name. -/
def single : Brackets := { written := true }

/-- Items side by side, of which the first ones are counted and joined. -/
structure Union where
  items : Nat := 0
  all : Brackets := {}

/-- Add an item. -/
def Union.add (u : Union) (b : Brackets) : Union :=
  { items := u.items + 1
    all := { depth := max u.all.depth b.depth, written := u.all.written || b.written } }

/-- The items as one class. Two or more nest one deeper. -/
def Union.joined (u : Union) : Brackets :=
  if u.items ≤ 1 then u.all else { u.all with depth := u.all.depth + 1 }

/-- Two classes combined. -/
def combine (a b : Brackets) : Brackets :=
  { depth := max a.depth b.depth + 1, written := a.written || b.written }

/-- Items that are being read, after a class and an operator if there are any. -/
structure Draft where
  left : Option Brackets := none
  right : Union := {}

def Draft.add (d : Draft) (b : Brackets) : Draft := { d with right := d.right.add b }

/-- All that has been read. -/
def Draft.whole (d : Draft) : Brackets :=
  match d.left with
  | none => d.right.joined
  | some a => a.combine d.right.joined

/-- Names of the classes that have one. -/
def names : List String :=
  ["alnum", "alpha", "ascii", "blank", "cntrl", "digit", "graph", "lower", "print", "punct",
   "space", "upper", "word", "xdigit"]

/-- Read a class by name, `:name:]` or `:^name:]`, whose bracket is open: whether it is
negated. -/
def readName : List Char → Option (Bool × List Char)
  | ':' :: cs =>
    let (negated, cs) := match cs with
      | '^' :: cs => (true, cs)
      | cs => (false, cs)
    match cs.span (· ≠ ':') with
    | (name, ':' :: ']' :: rest) =>
      if names.contains (String.ofList name) then some (negated, rest) else none
    | _ => none
  | _ => none

/-- The next character that counts, past white space and one sign that begins a comment. -/
def ahead (m : Mode) (cs : List Char) : Option Char :=
  if m.spaced then
    match cs.dropWhile Text.isBlank with
    | '#' :: cs => (cs.dropWhile Text.isBlank).head?
    | cs => cs.head?
  else cs.head?

/-- Read an atom. -/
def readAtom (m : Mode) : List Char → Option (Atom × List Char)
  | [] => none
  | '\\' :: cs => readEscape m cs
  | c :: cs => some (.literal c false, cs)

/-- The atoms are the ends of a range. -/
def isRange : Atom → Atom → Bool
  | .literal a _, .literal b _ => a ≤ b
  | _, _ => false

/-- Read an atom or a range. A dash before a bracket or another dash makes no range. -/
def readItem (m : Mode) (cs : List Char) : Option (List Char) := do
  let (first, cs) ← readAtom m cs
  if !first.possibleWithin m then none
  match m.skip cs with
  | [] => none
  | '-' :: cs =>
    if ahead m cs = some ']' ∨ ahead m cs = some '-' then some ('-' :: cs)
    else
      let (last, rest) ← readAtom m (m.skip cs)
      if last.possibleWithin m && isRange first last then some rest else none
  | cs => some cs

/-- Read dashes that stand first, at most `n`. -/
def readDashes (m : Mode) : Nat → Draft → List Char → Draft × List Char
  | n + 1, d, '-' :: cs => readDashes m n (d.add single) (m.skip cs)
  | _, d, cs => (d, cs)

/-- Read what makes the class a class and not an item: a caret, dashes, and a closing bracket that
stands first. The caret makes it a negated one. -/
def readStart (m : Mode) (cs : List Char) : Bool × Draft × List Char :=
  let (negated, cs) := match m.skip cs with
    | '^' :: cs => (true, m.skip cs)
    | cs => (false, cs)
  match readDashes m cs.length {} cs with
  | ({ left := none, right := { items := 0, .. } }, ']' :: cs) =>
    (negated, ({} : Draft).add single, cs)
  | (d, cs) => (negated, d, cs)

/-- A class is closed: what the items are to the class around it. -/
def close (m : Mode) (negated : Bool) (b : Brackets) : Option Brackets :=
  if (if m.bytewise then negated else m.caseless && b.written) then none
  else some { b with depth := b.depth + 1 }

mutual

/-- Read a class whose bracket is open. -/
def readClass (m : Mode) : Nat → List Char → Option (Brackets × List Char)
  | 0, _ => none
  | n + 1, cs =>
    let (negated, d, cs) := readStart m cs
    match readItems m n d cs with
    | none => none
    | some (b, rest) => (close m negated b).map fun b => (b, rest)

/-- Read items up to the bracket that closes the class. -/
def readItems (m : Mode) : Nat → Draft → List Char → Option (Brackets × List Char)
  | 0, _, _ => none
  | n + 1, d, cs =>
    match m.skip cs with
    | [] => none
    | ']' :: cs => some (d.whole, cs)
    | '&' :: '&' :: cs | '-' :: '-' :: cs | '~' :: '~' :: cs =>
      readItems m n { left := some d.whole } cs
    | '[' :: cs =>
      match readName cs with
      | some (negated, rest) =>
        if m.bytewise && negated then none else readItems m n (d.add single) rest
      | none =>
        match readClass m n cs with
        | none => none
        | some (b, rest) => readItems m n (d.add b) rest
    | cs =>
      match readItem m cs with
      | none => none
      | some rest => readItems m n (d.add single) rest

end

/-- Read a class whose bracket is open: how deeply it is nested. -/
def read (m : Mode) (cs : List Char) : Option (Nat × List Char) :=
  (readClass m (2 * cs.length + 2) cs).map fun (b, rest) => (b.depth, rest)

end Brackets
end Pattern
end FloodMesh
