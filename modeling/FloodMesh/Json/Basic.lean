import FloodMesh.Decimal.Binary64

/-!
# FloodMesh.Json.Basic

JSON values. The members of an object are kept in the order of their names, each name once, so two
objects with the same members are equal.
-/

namespace FloodMesh

/-- A number: an integer between -2 ^ 63 and 2 ^ 64 - 1, or a binary64 number. -/
inductive Number
  | integer (n : Int)
  | real (x : Binary64)
  deriving DecidableEq, Repr

inductive Json
  | null
  | bool (b : Bool)
  | number (n : Number)
  | text (s : String)
  | array (items : List Json)
  | object (members : List (String × Json))
  deriving BEq, Repr

/-- The members of an object, in the order of their names. -/
abbrev Fields := List (String × Json)

namespace Fields

/-- The value of the member called `name`. -/
def get? (fields : Fields) (name : String) : Option Json :=
  (fields.find? fun m => m.1 == name).map (·.2)

/-- Put a member in its place; one of the same name is replaced. -/
def insert (name : String) (value : Json) : Fields → Fields
  | [] => [(name, value)]
  | m :: rest =>
    if name < m.1 then (name, value) :: m :: rest
    else if name = m.1 then (name, value) :: rest
    else m :: insert name value rest

/-- Everything but the members with one of the given names. -/
def without (names : List String) (fields : Fields) : Fields :=
  fields.filter fun m => !names.contains m.1

/-- The object with the given members, of which the last one with a name counts. -/
def ofList (members : List (String × Json)) : Fields :=
  members.foldl (fun fields m => insert m.1 m.2 fields) []

end Fields

namespace Json

/-- An object with the given members. -/
def ofMembers (members : List (String × Json)) : Json := .object (Fields.ofList members)

/-- A natural number as a value. -/
def ofNat (n : Nat) : Json := .number (.integer n)

/-- The member of an object with a given name. -/
def member? (name : String) : Json → Option Json
  | object members => Fields.get? members name
  | _ => none

/-- What kind of value it is, as messages say it. -/
def kind : Json → String
  | null => "null"
  | bool _ => "a boolean"
  | number _ => "a number"
  | text _ => "a string"
  | array _ => "an array"
  | object _ => "an object"

end Json
end FloodMesh
