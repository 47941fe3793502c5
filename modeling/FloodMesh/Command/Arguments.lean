import FloodMesh.Text.Numeral

/-!
# FloodMesh.Command.Arguments

The arguments of a command line. Every option takes one value and may be given once: `--name value`,
`--name=value`, `-n value`, `-nvalue` or `-n=value`. Nothing else may be given, apart from the
requests for help and for the version, which count as soon as they are reached, if all before them
was in order.
-/

namespace FloodMesh

/-- Settings that a command line gives. -/
structure Arguments where
  /-- Path of the configuration file. -/
  config : Option String := none
  listenPort : Option UInt16 := none
  maxWorkers : Option Nat := none
  directoryAddress : Option String := none
  directoryPort : Option UInt16 := none
  hopLimit : Option Nat := none
  deriving DecidableEq, Repr

/-- An option. -/
structure CommandOption where
  long : String
  short : Char
  /-- The environment variable that stands in for the option. -/
  fallback : Option String := none
  /-- What a value changes; `none` for a value that is unusable. -/
  set : String → Arguments → Option Arguments

namespace CommandOption

/-- A number of few bits: a numeral below a bound. Minus zero is zero. -/
def smallNumber? (bound : Nat) (value : String) : Option Nat :=
  match value.toList with
  | '-' :: '+' :: _ => none
  | '-' :: digits => (Text.numeral? bound digits).bind fun n => if n = 0 then some 0 else none
  | cs => Text.numeral? bound cs

def config : CommandOption :=
  { long := "config", short := 'c', fallback := some "FLOODNET_CONFIG"
    set := fun v a => if v = "" then none else some { a with config := some v } }

def listenPort : CommandOption :=
  { long := "listen-port", short := 'p'
    set := fun v a =>
      (smallNumber? UInt16.size v).map fun n => { a with listenPort := some (UInt16.ofNat n) } }

def maxWorkers : CommandOption :=
  { long := "max-workers", short := 'w'
    set := fun v a =>
      (Text.numeral? UInt64.size v.toList).map fun n => { a with maxWorkers := some n } }

def directoryAddress : CommandOption :=
  { long := "directory-address", short := 'd', fallback := some "FLOODNET_DIRECTORY"
    set := fun v a => some { a with directoryAddress := some v } }

def directoryPort : CommandOption :=
  { long := "directory-port", short := 'P'
    set := fun v a =>
      (smallNumber? UInt16.size v).map fun n => { a with directoryPort := some (UInt16.ofNat n) } }

def hopLimit : CommandOption :=
  { long := "hop-limit", short := 'm'
    set := fun v a => (smallNumber? 256 v).map fun n => { a with hopLimit := some n } }

/-- The options of the directory. -/
def ofDirectory : List CommandOption := [config, listenPort, maxWorkers]

/-- The options of the router. -/
def ofRouter : List CommandOption :=
  [config, listenPort, maxWorkers, directoryAddress, directoryPort, hopLimit]

end CommandOption

/-- What a command line asks for. -/
inductive Invocation
  | run (arguments : Arguments)
  | help
  | version
  /-- It is not in order. -/
  | misuse
  deriving DecidableEq, Repr

namespace Invocation

/-- How far the arguments have been read. An option whose value may still follow is pending; its
value counts when the next option is reached or the line ends. -/
structure Progress where
  arguments : Arguments := {}
  /-- Options that have their value, by their letters. -/
  given : List Char := []
  pending : Option (CommandOption × Option String) := none

namespace Progress

/-- Give an option its value. -/
def give (p : Progress) (o : CommandOption) (value : String) : Option Progress :=
  if p.given.contains o.short then none
  else (o.set value p.arguments).map fun arguments =>
    { arguments, given := o.short :: p.given, pending := none }

/-- Give the pending option its value, which has to be there. -/
def settle (p : Progress) : Option Progress :=
  match p.pending with
  | none => some p
  | some (_, none) => none
  | some (o, some value) => p.give o value

/-- Reach an option, with a value or without. -/
def reach (p : Progress) (o : CommandOption) : Option String → Option Progress
  | none => p.settle.map fun p => { p with pending := some (o, none) }
  | some value => p.settle.bind fun p => p.give o value

end Progress

/-- What one argument is. -/
inductive Word
  /-- Two dashes, after which no options come. -/
  | dashes
  /-- An option by its name. -/
  | long (name : String) (value : Option String)
  /-- An option by its letter. -/
  | short (letter : Char) (value : Option String)
  | plain

/-- Split an argument. A dash alone is a plain word. -/
def Word.ofString (word : String) : Word :=
  match word.toList with
  | ['-', '-'] => .dashes
  | '-' :: '-' :: cs =>
    match cs.span (· ≠ '=') with
    | (name, '=' :: value) => .long (String.ofList name) (some (String.ofList value))
    | (name, _) => .long (String.ofList name) none
  | ['-', letter] => .short letter none
  | '-' :: letter :: '=' :: value => .short letter (some (String.ofList value))
  | '-' :: letter :: value => .short letter (some (String.ofList value))
  | _ => .plain

/-- Answer a request for help or for the version, if all before it was in order. -/
def inform (p : Progress) (answer : Invocation) : Invocation :=
  if p.settle.isSome then answer else misuse

/-- Let an environment variable stand in for an option that was not given. -/
def standIn (environment : String → Option String) (given : List Char) (a : Arguments)
    (o : CommandOption) : Option Arguments :=
  match (if given.contains o.short then none else o.fallback.bind environment) with
  | none => some a
  | some value => o.set value a

/-- What the arguments ask for once all are read. -/
def finish (options : List CommandOption) (environment : String → Option String) (p : Progress) :
    Invocation :=
  match p.settle with
  | none => misuse
  | some p =>
    match options.foldlM (standIn environment p.given) p.arguments with
    | none => misuse
    | some a => run a

/-- Read the arguments that are left. -/
def readFrom (options : List CommandOption) (environment : String → Option String) :
    Progress → List String → Invocation
  | p, [] => finish options environment p
  | p, word :: words =>
    let goOn : Option Progress → Invocation
      | none => misuse
      | some p => readFrom options environment p words
    match Word.ofString word with
    | .dashes => if words = [] then finish options environment p else misuse
    | .plain =>
      match p.pending with
      | some (o, none) => goOn (some { p with pending := some (o, some word) })
      | _ => misuse
    | .long name value =>
      match options.find? fun o => o.long == name with
      | some o => goOn (p.reach o value)
      | none =>
        if value.isSome then misuse
        else if name = "help" then inform p help
        else if name = "version" then inform p version
        else misuse
    | .short letter value =>
      match options.find? fun o => o.short == letter with
      | some o => goOn (p.reach o value)
      | none =>
        if letter = 'h' then inform p help
        else if letter = 'V' then inform p version
        else misuse

/-- Read a command line. -/
def read (options : List CommandOption) (environment : String → Option String)
    (words : List String) : Invocation :=
  readFrom options environment {} words

end Invocation
end FloodMesh
