import FloodMesh.Command.Launch

/-!
# FloodMesh.Main

The command line: `directory` or `router`, and then the options of that program. A program that runs
serves one connection, on standard input and output, and ends with it. What it logs goes to standard
error.
-/

namespace FloodMesh
namespace Main

/-- What stands at a path. -/
def lookAt (path : String) : IO ConfigFile.Found := do
  try
    let bytes ← IO.FS.readBinFile path
    return .content bytes.data.toList
  catch
    | .noFileOrDirectory .. => return .nothing
    | .inappropriateType .. => return .folder
    | e => return .unreadable (toString e)

/-- The variables that a program asks for. -/
def readEnvironment : IO (String → Option String) := do
  let names := ["HOME", "XDG_CONFIG_HOME", "FLOODNET_CONFIG", "FLOODNET_DIRECTORY", "RUST_LOG"]
  let values ← names.mapM fun name => do return (name, ← IO.getEnv name)
  return fun name => (values.lookup name).join

/-- Write what a connection has for its peer. -/
def flushSink (c : Connection) : IO Connection := do
  let output ← IO.getStdout
  output.write ⟨c.sink.accepted.toArray⟩
  output.flush
  return { c with sink := { c.sink with accepted := [] } }

/-- Serve messages as they come in on standard input. -/
partial def serveInput {σ : Type} (service : Service σ) (state : σ) (c : Connection) : IO Unit := do
  if (Connection.settled? c.limit c.buffer 0).isSome then
    match Session.step service state c with
    | .next state c => serveInput service state (← flushSink c)
    | .ended _ c => discard (flushSink c)
  else
    let chunk ← (← IO.getStdin).read 1
    if chunk.isEmpty then
      discard (flushSink (Session.serve service state c).2)
    else serveInput service state { c with buffer := c.buffer ++ chunk.data.toList }

/-- Serve standard input. -/
def serveReady (r : Ready) : IO Unit :=
  let c : Connection := { peer := { ip := .unspecified, port := 0 } }
  match r with
  | .directory s => serveInput Directory.service { peers := .ofSettings "routers" s.peers } c
  | .router n => serveInput Router.service n.router c

/-- The code of a program that was stopped. -/
def abortCode : Nat := 134

/-- Run a program to its end and give the code that it ends with. -/
def run (p : Program) (words : List String) : IO UInt32 := do
  let environment ← readEnvironment
  let nothing : Launch.Machine := { environment, file := fun _ => .nothing }
  let found ← match Invocation.read p.options environment words with
    | .run a => lookAt (Launch.configPath nothing a)
    | _ => pure .nothing
  let launch := Launch.ofWords { nothing with file := fun _ => found } p words
  match launch with
  | .help => IO.println ("usage: " ++ p.name ++ " [options]")
  | .version line => IO.println line
  | .misuse => IO.eprintln ("usage: " ++ p.name ++ " [options]")
  | .failed report => IO.eprintln report.text
  | .broken limit => IO.eprintln limit.message
  | .running r log =>
    let port := match r with
      | .directory s => s.listenPort
      | .router n => n.settings.listenPort
    for line in log.lines (r.startEvents (toString port)) do IO.eprintln line
    serveReady r
    for line in log.lines r.stopEvents do IO.eprintln line
  return UInt32.ofNat (launch.exitCode?.getD abortCode)

end Main
end FloodMesh

def main (args : List String) : IO UInt32 :=
  match args with
  | "directory" :: words => FloodMesh.Main.run .directory words
  | "router" :: words => FloodMesh.Main.run .router words
  | _ => do
    IO.eprintln "usage: directory [options] or router [options]"
    return 2
