/-!
# FloodMesh.Toml.Basic

TOML values, and tables as a document builds them up. A table is found by a path of keys. What may
still be added to it depends on how it came to be: one that a dotted key has made takes more dotted
keys, one that a header has opened takes none from elsewhere, and one written between braces is
complete.
-/

namespace FloodMesh

/-- How a table came to be. -/
inductive Toml.Origin
  /-- By a header of its own. The document itself counts as one of these. -/
  | header
  /-- By the header of a table inside it. -/
  | implied
  /-- By a dotted key. -/
  | dotted
  /-- Between braces. -/
  | braces
  deriving DecidableEq, Repr

/-- TOML values. Of floats and of dates and times, only that they are well-formed is kept. -/
inductive Toml
  | text (s : String)
  | integer (n : Int)
  | float
  | bool (b : Bool)
  | moment
  | array (items : List Toml)
  | table (origin : Toml.Origin) (entries : List (String × Toml))
  /-- Tables that were opened one after another by headers in double brackets. -/
  | tables (rows : List (List (String × Toml)))
  deriving BEq, Repr

namespace Toml

/-- The entries of a table in the order of their keys' first appearance. -/
abbrev Entries := List (String × Toml)

/-- A key with dots: the tables it leads through, and its last part. -/
structure Key where
  path : List String
  last : String
  deriving DecidableEq, Repr

namespace Entries

/-- The value of a key. -/
def get? (entries : Entries) (key : String) : Option Toml :=
  (entries.find? fun e => e.1 == key).map (·.2)

/-- Change the value of a key, or give a new key its value. -/
def alter (key : String) (f : Option Toml → Option Toml) : Entries → Option Entries
  | [] => (f none).map fun v => [(key, v)]
  | e :: rest =>
    if e.1 = key then (f (some e.2)).map fun v => (key, v) :: rest
    else (alter key f rest).map (e :: ·)

end Entries

/-- Whether a path leads on through a table: of dotted keys not through one with a header, and no
path through one between braces. -/
def Origin.leadsOn (byDots : Bool) : Origin → Bool
  | header => !byDots
  | implied | dotted => true
  | braces => false

/-- Change the table that a path leads to, making those that are missing. Through a row of tables,
the path goes on in the last. -/
def within (byDots : Bool) (change : Origin → Entries → Option Entries) :
    List String → Origin → Entries → Option Entries
  | [], origin, entries => change origin entries
  | key :: path, _, entries =>
    Entries.alter key
      (fun
        | none =>
          let origin : Origin := if byDots then .dotted else .implied
          (within byDots change path origin []).map (table origin)
        | some (table origin inner) =>
          if origin.leadsOn byDots then
            (within byDots change path origin inner).map (table origin)
          else none
        | some (tables rows) =>
          match rows.getLast? with
          | none => none
          | some row =>
            (within byDots change path .header row).map fun row => tables (rows.dropLast ++ [row])
        | some _ => none)
      entries

/-- Give a new key its value. A key with dots adds only to tables that dotted keys have made. -/
def assign (key : Key) (value : Toml) : Origin → Entries → Option Entries :=
  within true
    (fun origin entries =>
      if (origin = .dotted) = (key.path = []) then none
      else entries.alter key.last fun
        | none => some value
        | some _ => none)
    key.path

/-- What a line of a document says. -/
inductive Statement
  /-- A key has a value. -/
  | entry (key : Key) (value : Toml)
  /-- The lines below are about a table. -/
  | header (key : Key)
  /-- The lines below are about one more table in a row of tables. -/
  | rowHeader (key : Key)

/-- A document so far: its tables, and the path of the one that its lines are about. -/
structure Document where
  entries : Entries := []
  current : List String := []

namespace Document

/-- Open a table, which may be there already if other tables' headers implied it. -/
def openTable (d : Document) (key : Key) : Option Document :=
  let step (entries : Entries) : Option Entries :=
    entries.alter key.last fun
      | none => some (table .header [])
      | some (table .implied inner) => some (table .header inner)
      | some _ => none
  (within false (fun _ => step) key.path .header d.entries).map fun entries =>
    { entries, current := key.path ++ [key.last] }

/-- Open one more table in a row. -/
def openRow (d : Document) (key : Key) : Option Document :=
  let step (entries : Entries) : Option Entries :=
    entries.alter key.last fun
      | none => some (tables [[]])
      | some (tables rows) => some (tables (rows ++ [[]]))
      | some _ => none
  (within false (fun _ => step) key.path .header d.entries).map fun entries =>
    { entries, current := key.path ++ [key.last] }

/-- Take in a statement. -/
def apply (d : Document) : Statement → Option Document
  | .header key => d.openTable key
  | .rowHeader key => d.openRow key
  | .entry key value =>
    (within false (assign key value) d.current .header d.entries).map fun entries =>
      { d with entries }

end Document

/-- The tables that statements build up. -/
def ofStatements (statements : List Statement) : Option Entries :=
  (statements.foldlM Document.apply {}).map Document.entries

end Toml
end FloodMesh
