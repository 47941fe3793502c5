import FloodMesh.Pattern.Brackets
import FloodMesh.Text.Alphanumeric

/-!
# FloodMesh.Pattern.Expression

Whole expressions: items one after another, each of which may be repeated, alternatives, and groups,
which may have a name or change the mode. `isWellFormed` says whether an expression can be had.
Counted repetitions cannot be written, as patterns come without closing braces.
-/

namespace FloodMesh
namespace Pattern

/-- Items that are nested deeper than this are refused. -/
def maxDepth : Nat := 250

/-- A part of an expression between two bars. -/
structure Branch where
  items : Nat := 0
  /-- The greatest depth of the items but the last. -/
  depth : Nat := 0
  /-- The depth of the last item. -/
  last : Nat := 0
  /-- The last item may be repeated. -/
  repeatable : Bool := false

/-- Add an item. -/
def Branch.add (b : Branch) (depth : Nat) (repeatable : Bool) : Branch :=
  { items := b.items + 1, depth := max b.depth b.last, last := depth, repeatable }

/-- The depth of all items together. -/
def Branch.total (b : Branch) : Nat :=
  let deepest := max b.depth b.last
  if b.items ≤ 1 then deepest else deepest + 1

/-- What has been read of a group, or of the whole expression. -/
structure Section where
  mode : Mode := {}
  /-- Whether there are branches before this one. -/
  alternatives : Bool := false
  /-- The greatest depth of the branches before. -/
  depth : Nat := 0
  branch : Branch := {}

namespace Section

def add (s : Section) (depth : Nat) (repeatable : Bool) : Section :=
  { s with branch := s.branch.add depth repeatable }

/-- Begin another branch. -/
def bar (s : Section) : Section :=
  { s with alternatives := true, depth := max s.depth s.branch.total, branch := {} }

/-- The depth of all branches together. -/
def total (s : Section) : Nat :=
  if s.alternatives then max s.depth s.branch.total + 1 else s.branch.total

/-- Repeat the last item. -/
def again (s : Section) : Option Section :=
  if s.branch.repeatable then
    some { s with branch := { s.branch with last := s.branch.last + 1 } }
  else none

end Section

/-- What has been read of an expression. -/
structure Reading where
  current : Section := {}
  /-- The sections around the open groups. -/
  around : List Section := []
  /-- Names of groups. -/
  names : List (List Char) := []

namespace Reading

def add (r : Reading) (depth : Nat) (repeatable : Bool) : Reading :=
  { r with current := r.current.add depth repeatable }

/-- Open a group in a mode. -/
def openGroup (r : Reading) (mode : Mode) : Reading :=
  { r with current := { mode }, around := r.current :: r.around }

/-- Close the innermost group. -/
def closeGroup (r : Reading) : Option Reading :=
  match r.around with
  | [] => none
  | s :: around => some { r with current := s.add (r.current.total + 1) true, around }

/-- Change the mode. That is an item, but none that can be repeated. -/
def change (r : Reading) (mode : Mode) : Reading :=
  { r with current := { r.current.add 0 false with mode } }

end Reading

/-- Letters that change the mode. -/
def flags : List Char := ['i', 'm', 's', 'U', 'u', 'R', 'x']

/-- The letters before a dash and those behind it: what a mode becomes by them. -/
def Mode.change (m : Mode) (on off : List Char) : Mode :=
  let becomes (flag : Char) (now : Bool) : Bool :=
    if on.contains flag then true else if off.contains flag then false else now
  { caseless := becomes 'i' m.caseless
    bytewise := !becomes 'u' !m.bytewise
    spaced := becomes 'x' m.spaced }

/-- All letters are flags, and none stands there twice. -/
def areFlags (cs : List Char) : Bool := cs.all flags.contains && cs.eraseDups.length == cs.length

/-- Read flags: letters, and letters behind a dash, up to a colon or a closing parenthesis. -/
def readFlags (m : Mode) (cs : List Char) : Option (Mode × List Char) :=
  match cs.span fun c => c ≠ ':' ∧ c ≠ ')' with
  | (_, []) => none
  | (letters, rest) =>
    match letters.span (· ≠ '-') with
    | (on, []) => if areFlags on then some (m.change on [], rest) else none
    | (on, _ :: off) =>
      if off ≠ [] ∧ areFlags (on ++ off) then some (m.change on off, rest) else none

/-- The name of a group: letters, and behind the first one also numbers, dots and brackets. -/
def isName : List Char → Bool
  | [] => false
  | c :: cs =>
    (c == '_' || Text.isAlphabetic c) &&
      cs.all fun c => c == '_' || c == '.' || c == '[' || c == ']' || Text.isAlphanumeric c

/-- Read a name, which no other group has. -/
def readName (r : Reading) (cs : List Char) : Option (Reading × List Char) :=
  match cs.span (· ≠ '>') with
  | (name, '>' :: rest) =>
    if isName name && !r.names.contains name then
      some ({ r.openGroup r.current.mode with names := name :: r.names }, rest)
    else none
  | _ => none

/-- Read what stands behind the parenthesis that opens a group. -/
def readGroup (r : Reading) (cs : List Char) : Option (Reading × List Char) :=
  let mode := r.current.mode
  match mode.skip cs with
  | '?' :: '=' :: _ | '?' :: '!' :: _ | '?' :: '<' :: '=' :: _ | '?' :: '<' :: '!' :: _ => none
  | '?' :: 'P' :: '<' :: cs | '?' :: '<' :: cs => readName r cs
  | '?' :: ')' :: _ => none
  | '?' :: cs =>
    match readFlags mode cs with
    | some (mode, ':' :: rest) => some (r.openGroup mode, rest)
    | some (mode, _ :: rest) => some (r.change mode, rest)
    | _ => none
  | cs => some (r.openGroup mode, cs)

/-- Read a smallest part. -/
def readAtom (r : Reading) (cs : List Char) : Option (Reading × List Char) := do
  let (atom, rest) ← match cs with
    | '\\' :: cs => readEscape r.current.mode cs
    | '.' :: cs => some (.any, cs)
    | '^' :: cs | '$' :: cs => some (.assertion false, cs)
    | c :: cs => some (.literal c false, cs)
    | [] => none
  if atom.possible r.current.mode then some (r.add 0 true, rest) else none

/-- Read one item, operator or parenthesis. -/
def readNext (r : Reading) : List Char → Option (Reading × List Char)
  | '(' :: cs => readGroup r cs
  | ')' :: cs => r.closeGroup.map fun r => (r, cs)
  | '|' :: cs => some ({ r with current := r.current.bar }, cs)
  | '[' :: cs =>
    (Brackets.read r.current.mode cs).map fun (depth, rest) => (r.add depth true, rest)
  | '\x7b' :: _ => none
  | '?' :: '?' :: cs | '*' :: '?' :: cs | '+' :: '?' :: cs | '?' :: cs | '*' :: cs | '+' :: cs =>
    r.current.again.map fun current => ({ r with current }, cs)
  | cs => readAtom r cs

/-- Read an expression to its end; every step takes a character at least. -/
def readAll : Nat → Reading → List Char → Option Reading
  | 0, _, _ => none
  | n + 1, r, cs =>
    match r.current.mode.skip cs with
    | [] => some r
    | cs => (readNext r cs).bind fun (r, rest) => readAll n r rest

/-- The expression can be had: it is written as it should be, is not nested too deeply, and asks
for nothing that is not at hand. -/
def isWellFormed (expression : List Char) : Bool :=
  (readAll (expression.length + 1) {} expression).any fun r =>
    r.around.isEmpty && r.current.total ≤ maxDepth

end Pattern
end FloodMesh
