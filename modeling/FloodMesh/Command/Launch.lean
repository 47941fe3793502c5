import FloodMesh.Command.Arguments
import FloodMesh.Config.File
import FloodMesh.Log.Filter
import FloodMesh.Node
import FloodMesh.Service.Directory
import FloodMesh.Service.Server

/-!
# FloodMesh.Command.Launch

The two programs, a directory and a router. Settings come from the program's section of the
configuration file, with the command line on top. A program runs until it is interrupted, or ends at
once with a report that gives the failure and its causes. It breaks off without a report where a
limit of the machine stands in its way.
-/

namespace FloodMesh

/-- Which program. -/
inductive Program
  | directory
  | router
  deriving DecidableEq, Repr

namespace Program

def name : Program → String
  | directory => "floodnet-directory"
  | router => "floodnet-router"

/-- What a request for the version is answered with. -/
def versionLine (p : Program) : String := p.name ++ " 0.1.0"

def options : Program → List CommandOption
  | directory => CommandOption.ofDirectory
  | router => CommandOption.ofRouter

end Program

/-- A failure as a program reports it: what it was doing, and the causes from the outermost on. -/
structure Report where
  context : String
  causes : List String
  deriving DecidableEq, Repr

namespace Report

/-- A text with every line but the first moved in. -/
def indent (margin text : String) : String :=
  String.intercalate ("\n" ++ margin) (text.splitOn "\n")

/-- One of several causes, after its number. -/
def numberedCause (n : Nat) (cause : String) : String :=
  let number := Nat.repr n
  "\n" ++ "".pushn ' ' (5 - number.length) ++ number ++ ": " ++ indent "       " cause

/-- The causes with numbers from `n` on. -/
def numberedCauses : Nat → List String → String
  | _, [] => ""
  | n, cause :: causes => numberedCause n cause ++ numberedCauses (n + 1) causes

/-- The report as printed. A single cause has no number. -/
def text (r : Report) : String :=
  "Error: " ++ r.context ++
    match r.causes with
    | [] => ""
    | [cause] => "\n\nCaused by:\n    " ++ indent "    " cause
    | causes => "\n\nCaused by:" ++ numberedCauses 0 causes

/-- The report of a failure. One that wraps another has that as a cause of its own. -/
def ofFailure (context : String) (f : Failure) : Report :=
  { context, causes := f.message ::
      match f with
      | .network e => [e.message]
      | .protocol e => [e.message]
      | .config e => [e.message]
      | .routing e => [e.message]
      | .io reason => [reason]
      | .invalidState .. => [] }

end Report

/-- A program that is ready to run. -/
inductive Ready
  | directory (settings : DirectorySettings)
  | router (node : Node)

/-- A limit that a program cannot get past. -/
inductive Limit
  /-- A part of the log's filter begins or ends within a character. -/
  | tornFilter
  /-- More workers than can be counted. -/
  | workers
  /-- More buckets in a table than can be addressed. -/
  | buckets
  /-- A table for which there is no memory. The machine stops the program. -/
  | memory
  deriving DecidableEq, Repr

namespace Limit

/-- What to say about it. -/
def message : Limit → String
  | tornFilter => "torn log filter"
  | workers => "too many workers"
  | buckets => "too many buckets"
  | memory => "out of memory"

/-- The code that a program ends with that gets to the limit. One that is stopped ends with none. -/
def exitCode? : Limit → Option Nat
  | memory => none
  | _ => some 101

/-- The limit that more workers than can be counted get to. -/
def ofWorkers? (maxWorkers : Nat) : Option Limit :=
  if UInt64.size / 8 ≤ maxWorkers then some workers else none

/-- The limit that a table gets to which needs more memory than there is. -/
def ofTable? (memory : Nat) (s : TableSettings) : Option Limit :=
  if Timeline.maxBuckets < s.buckets then some buckets
  else if memory < Timeline.bucketSize * s.buckets then some .memory
  else none

/-- The limit that the first of some tables gets to that gets to one. -/
def ofTables? (memory : Nat) (tables : List TableSettings) : Option Limit :=
  tables.findSome? (ofTable? memory)

end Limit

/-- What comes of starting a program. -/
inductive Launch
  /-- It prints something and ends. -/
  | help
  | version (line : String)
  /-- The command line is not in order. -/
  | misuse
  | failed (report : Report)
  /-- It breaks off. -/
  | broken (limit : Limit)
  | running (program : Ready) (log : LogFilter)

namespace Launch

/-- The code that the program ends with, which is zero also when it runs until it is
interrupted. -/
def exitCode? : Launch → Option Nat
  | help | version _ | running .. => some 0
  | failed _ => some 1
  | misuse => some 2
  | broken limit => limit.exitCode?

/-- What a program finds on the machine. -/
structure Machine where
  environment : String → Option String
  file : String → ConfigFile.Found
  lookup : Lookup := .numeric
  /-- Why the port cannot be had for connections. -/
  streams : UInt16 → Option SystemFault := fun _ => none
  /-- Why the port cannot be had for datagrams. -/
  datagrams : UInt16 → Option SystemFault := fun _ => none
  /-- Bytes that it has for a table. -/
  memory : Nat := Nat.pow 2 40

/-- The settings of a directory with those of the command line on top. -/
def directorySettings (a : Arguments) (s : DirectorySettings) : DirectorySettings :=
  { s with
    listenPort := a.listenPort.getD s.listenPort
    maxWorkers := a.maxWorkers.getD s.maxWorkers }

/-- The settings of a router with those of the command line on top. -/
def routerSettings (a : Arguments) (s : RouterSettings) : RouterSettings :=
  { s with
    listenPort := a.listenPort.getD s.listenPort
    maxWorkers := a.maxWorkers.getD s.maxWorkers
    directoryAddress := a.directoryAddress.getD s.directoryAddress
    directoryPort := a.directoryPort.getD s.directoryPort
    hopLimit := a.hopLimit.getD s.hopLimit }

/-- Listen on all interfaces. -/
def listen (m : Machine) (port : UInt16) : Except NetworkError Endpoint :=
  Endpoint.listen { ip := .unspecified, port } (m.streams port) (m.datagrams port)

/-- Start a directory. -/
def startDirectory (m : Machine) (log : LogFilter) (s : DirectorySettings) : Launch :=
  match s.validate with
  | .error e => failed (.ofFailure "starting directory" (.config e))
  | .ok () =>
    match listen m s.listenPort with
    | .error e => failed (.ofFailure "starting directory" (.network e))
    | .ok _ =>
      match (Limit.ofTables? m.memory [s.peers]).or (Limit.ofWorkers? s.maxWorkers) with
      | some limit => broken limit
      | none => running (.directory s) log

/-- Start a router. Its tables are there before it listens. -/
def startRouter (m : Machine) (log : LogFilter) (s : RouterSettings) : Launch :=
  match NodePlan.build { settings := s } with
  | .error e => failed (.ofFailure "invalid router configuration" e)
  | .ok node =>
    match Limit.ofTables? m.memory [s.clients, s.routers, s.messages] with
    | some limit => broken limit
    | none =>
      match node.start m.lookup (listen m s.listenPort) 0 with
      | .error e => failed (.ofFailure "starting router" e)
      | .ok node =>
        match Limit.ofWorkers? s.maxWorkers with
        | some limit => broken limit
        | none => running (.router node) log

/-- Where the configuration file is: where the command line says, or at the usual place. -/
def configPath (m : Machine) (a : Arguments) : String :=
  a.config.getD
    (ConfigFile.defaultPath ((m.environment "HOME").getD "") (m.environment "XDG_CONFIG_HOME"))

/-- Start a program with the settings of its command line. -/
def start (m : Machine) (log : LogFilter) (p : Program) (a : Arguments) : Launch :=
  let path := configPath m a
  match ConfigFile.loadOrDefault path (m.file path) with
  | .error e => failed { context := "loading " ++ path, causes := [e.message] }
  | .ok file =>
    match p with
    | .directory => startDirectory m log (directorySettings a (file.directory.getD {}))
    | .router => startRouter m log (routerSettings a (file.router.getD {}))

/-- Start a program with a command line. The log comes first of all. -/
def ofWords (m : Machine) (p : Program) (words : List String) : Launch :=
  match LogFilter.ofEnvironment? m.environment with
  | none => broken .tornFilter
  | some log =>
    match Invocation.read p.options m.environment words with
    | .help => help
    | .version => version p.versionLine
    | .misuse => misuse
    | .run a => start m log p a

end Launch

namespace Ready

/-- That the program listens, at a port and with so many workers. -/
def listeningEvent (port : String) (workers : Nat) : LogEvent :=
  { source := "floodnet::network::server", message := "listening"
    fields := [("address", "0.0.0.0:" ++ port), ("max_workers", Nat.repr workers)] }

/-- What the program tells when it starts; `port` is the port it got. -/
def startEvents (port : String) : Ready → List LogEvent
  | directory s =>
    [listeningEvent port s.maxWorkers,
     { source := "floodnet::api::directory", message := "directory started"
       fields := [("address", "0.0.0.0:" ++ port),
         ("peer_ttl", Nat.repr s.peers.lifetimeSecs ++ "s")] }]
  | router n =>
    [listeningEvent port n.settings.maxWorkers,
     { source := "floodnet::api::node", message := "router started"
       fields := [("address", "0.0.0.0:" ++ port), ("directory", n.directory.text),
         ("hop_limit", Nat.repr n.settings.hopLimit)] }]

/-- What the program tells when it is interrupted. -/
def stopEvents : Ready → List LogEvent
  | directory _ =>
    [{ source := "floodnet_directory", message := "shutting down" },
     { source := "floodnet::api::directory", message := "directory stopped" }]
  | router _ =>
    [{ source := "floodnet_router", message := "shutting down" },
     { source := "floodnet::api::node", message := "router stopped" }]

end Ready
end FloodMesh
