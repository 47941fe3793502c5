import FloodMesh.Json.Parser

/-!
# FloodMesh.Json.Record

Records read from JSON text: an object whose members of known name hold a text or an integer, or an
array of those values in their order. A member of another name is skipped: its text has to follow
the grammar and need not have a value, so any depth, any size of number and any escape will do.
-/

namespace FloodMesh
namespace Json

/-- The rest after a string's closing quote, for a string whose content does not matter. -/
def skipContent : Bytes → Option (Unit × Bytes)
  | [] => none
  | 0x22 :: rest => some ((), rest)
  | 0x5c :: 0x75 :: a :: b :: c :: d :: rest =>
    if (hexUnit? a b c d).isSome then skipContent rest else none
  | 0x5c :: e :: rest => if (shortEscape? e).isSome then skipContent rest else none
  | b :: rest => if b < 0x20 then none else skipContent rest

/-- Skip a string. -/
def skipText : Reader Unit
  | 0x22 :: rest => skipContent rest
  | _ => none

/-- Skip a value with at most `depth` arrays and objects in each other. -/
def skipValue : Nat → Reader Unit
  | depth, bytes =>
    match bytes with
    | 0x6e :: 0x75 :: 0x6c :: 0x6c :: rest => some ((), rest)
    | 0x74 :: 0x72 :: 0x75 :: 0x65 :: rest => some ((), rest)
    | 0x66 :: 0x61 :: 0x6c :: 0x73 :: 0x65 :: rest => some ((), rest)
    | 0x22 :: _ => skipText bytes
    | 0x5b :: rest =>
      match depth with
      | 0 => none
      | depth + 1 => (readList 0x5d (skipValue depth) rest).map fun (_, rest) => ((), rest)
    | 0x7b :: rest =>
      match depth with
      | 0 => none
      | depth + 1 =>
        (readList 0x7d (readMember skipText fun _ => skipValue depth) rest).map
          fun (_, rest) => ((), rest)
    | _ => (scanNumeral bytes).map fun (_, rest) => ((), rest)

/-- Skip any value. There is room for no more arrays and objects than bytes. -/
def skip : Reader Unit := fun bytes => skipValue bytes.length bytes

/-- What a member of a record holds: a text, or an integer between two bounds; `optional` ones may
be missing or null. -/
inductive Slot
  | text (optional : Bool)
  | integer (optional : Bool) (least greatest : Int)
  deriving DecidableEq, Repr

/-- The value of a record's member. -/
inductive Datum
  | none
  | text (s : String)
  | integer (n : Int)
  deriving DecidableEq, Repr

def Slot.optional : Slot → Bool
  | .text o => o
  | .integer o _ _ => o

/-- A present value for a member. -/
def Slot.readPresent : Slot → Reader Datum
  | .text _, bytes => (readText bytes).map fun (s, rest) => (.text s, rest)
  | .integer _ least greatest, bytes =>
    match readNumber bytes with
    | some (.integer n, rest) =>
      if least ≤ n ∧ n ≤ greatest then some (.integer n, rest) else Option.none
    | _ => Option.none

/-- A value for a member. -/
def Slot.read (slot : Slot) : Reader Datum
  | 0x6e :: 0x75 :: 0x6c :: 0x6c :: rest =>
    if slot.optional then some (.none, rest) else Option.none
  | bytes => slot.readPresent bytes

/-- The members that a kind of record knows, in their order. -/
abbrev Schema := List (String × Slot)

/-- The value of a member: of a known name, what its slot reads; of another name, nothing. -/
def Schema.readField (schema : Schema) (name : String) : Reader (Option Datum) := fun bytes =>
  match schema.lookup name with
  | some slot => (slot.read bytes).map fun (d, rest) => (some d, rest)
  | none => (skip bytes).map fun (_, rest) => (none, rest)

/-- The values of a record from the members found: each known member at most once, and each that is
not optional exactly once. -/
def Schema.ofMembers? (schema : Schema) (found : List (String × Option Datum)) :
    Option (List Datum) :=
  schema.mapM fun (name, slot) =>
    match found.filter fun m => m.1 == name with
    | [] => if slot.optional then some .none else none
    | [(_, some d)] => some d
    | _ => none

/-- The values of a record that is written as an array: in the order of the schema, those that are
missing at the end optional. -/
def Schema.readPositions : Schema → Bool → Reader (List Datum)
  | [], _, bytes =>
    match skipBlank bytes with
    | 0x5d :: rest => some ([], rest)
    | _ => none
  | (_, slot) :: schema, first, bytes =>
    match skipBlank bytes with
    | 0x5d :: rest =>
      if slot.optional ∧ schema.all (fun m => m.2.optional) = true then
        some (.none :: schema.map fun _ => .none, rest)
      else none
    | b :: rest =>
      let item : Option Bytes :=
        if first then some (b :: rest) else if b = 0x2c then some rest else none
      match item with
      | none => none
      | some bytes =>
        match slot.read (skipBlank bytes) with
        | none => none
        | some (d, rest) =>
          (Schema.readPositions schema false rest).map fun (ds, rest) => (d :: ds, rest)
    | [] => none

/-- A record. -/
def Schema.read (schema : Schema) : Reader (List Datum)
  | 0x7b :: rest =>
    match readList 0x7d (readMember readText schema.readField) rest with
    | none => none
    | some (found, rest) => (schema.ofMembers? found).map fun ds => (ds, rest)
  | 0x5b :: rest => schema.readPositions true rest
  | _ => none

end Json
end FloodMesh
