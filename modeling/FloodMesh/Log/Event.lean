/-!
# FloodMesh.Log.Event

What a program tells about itself while it runs. An event comes from a named part of the program
and has a message and fields; in the log it is one line, unless a field brings line breaks with it.
-/

namespace FloodMesh

/-- How much a log tells. Each level also tells what those before it tell. -/
inductive LogLevel
  | off
  | error
  | warn
  | info
  | debug
  | trace
  deriving DecidableEq, Repr

namespace LogLevel

def rank : LogLevel → Nat
  | off => 0
  | error => 1
  | warn => 2
  | info => 3
  | debug => 4
  | trace => 5

/-- The level whose rank is given. -/
def ofRank? : Nat → Option LogLevel
  | 0 => some off
  | 1 => some error
  | 2 => some warn
  | 3 => some info
  | 4 => some debug
  | 5 => some trace
  | _ => none

/-- The level by its name, in letters of any case. -/
def ofName? (name : String) : Option LogLevel :=
  match name.toLower with
  | "off" => some off
  | "error" => some error
  | "warn" => some warn
  | "info" => some info
  | "debug" => some debug
  | "trace" => some trace
  | _ => none

end LogLevel

structure LogEvent where
  /-- The part of the program that it comes from, a path with double colons. -/
  source : String
  message : String
  /-- Names and values. -/
  fields : List (String × String) := []
  level : LogLevel := .info
  deriving DecidableEq, Repr

namespace LogEvent

/-- The event has something of that name; the message is one of the fields. -/
def has (e : LogEvent) (name : String) : Bool := name == "message" || e.fields.any (·.1 == name)

/-- The event as the log shows it. -/
def line (e : LogEvent) : String :=
  e.fields.foldl (fun text (name, value) => text ++ " " ++ name ++ "=" ++ value)
    (e.source ++ ": " ++ e.message)

end LogEvent
end FloodMesh
