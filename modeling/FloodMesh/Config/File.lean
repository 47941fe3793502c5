import FloodMesh.Bytes
import FloodMesh.Config.Settings
import FloodMesh.SystemFault
import FloodMesh.Toml.Parser

/-!
# FloodMesh.Config.File

Configuration files. A file has a section for directories and one for routers, and needs to name
only the settings that it changes. Within a section, unknown names are refused; other sections are
passed over. A section may also be written as an array of its settings in their order.
-/

namespace FloodMesh

/-- A setting of a section: its name, and how a value changes it. -/
structure Setting (σ : Type) where
  name : String
  set : Toml → σ → Option σ

namespace Setting

variable {σ : Type}

/-- A setting that is a natural number below a bound. -/
def ofNat (name : String) (bound : Nat) (change : Nat → σ → σ) : Setting σ :=
  { name, set := fun v s =>
      match v with
      | .integer n => if 0 ≤ n ∧ n < bound then some (change n.toNat s) else none
      | _ => none }

/-- A setting that is a port. -/
def ofPort (name : String) (change : UInt16 → σ → σ) : Setting σ :=
  ofNat name UInt16.size fun n => change (UInt16.ofNat n)

/-- A setting that counts something, or seconds. -/
def ofCount (name : String) (change : Nat → σ → σ) : Setting σ := ofNat name UInt64.size change

/-- A setting that is a text. -/
def ofText (name : String) (change : String → σ → σ) : Setting σ :=
  { name, set := fun v s =>
      match v with
      | .text t => some (change t s)
      | _ => none }

/-- Set the settings that entries name. -/
def setAll (settings : List (Setting σ)) (s : σ) (entries : Toml.Entries) : Option σ :=
  entries.foldlM (fun s (name, v) =>
    match settings.find? fun x => x.name == name with
    | none => none
    | some x => x.set v s) s

/-- Set the first settings to values in their order. Further values do not matter. -/
def setInOrder (settings : List (Setting σ)) (s : σ) (values : List Toml) : Option σ :=
  (settings.zip values).foldlM (fun s (x, v) => x.set v s) s

/-- A section, starting from the defaults. -/
def readSection (settings : List (Setting σ)) (defaults : σ) : Toml → Option σ
  | .table _ entries => setAll settings defaults entries
  | .array values => setInOrder settings defaults values
  | .tables rows => setInOrder settings defaults (rows.map (.table .header))
  | _ => none

/-- A setting that is a section of its own. -/
def ofSection {τ : Type} (name : String) (settings : List (Setting τ)) (defaults : τ)
    (change : τ → σ → σ) : Setting σ :=
  { name, set := fun v s => (readSection settings defaults v).map fun t => change t s }

end Setting

open Setting

def TableSettings.settings : List (Setting TableSettings) :=
  [ofCount "ttl_ticks" fun n s => { s with ttlTicks := n },
   ofCount "resolution_secs" fun n s => { s with resolutionSecs := n },
   ofCount "buckets" fun n s => { s with buckets := n }]

/-- A setting that is a table's settings. Those that are not named have the defaults of any
table. -/
def tableSetting {σ : Type} (name : String) (change : TableSettings → σ → σ) : Setting σ :=
  ofSection name TableSettings.settings {} change

def DirectorySettings.settings : List (Setting DirectorySettings) :=
  [ofPort "listen_port" fun p s => { s with listenPort := p },
   ofCount "max_workers" fun n s => { s with maxWorkers := n },
   tableSetting "peers" fun t s => { s with peers := t }]

def RouterSettings.settings : List (Setting RouterSettings) :=
  [ofPort "listen_port" fun p s => { s with listenPort := p },
   ofCount "max_workers" fun n s => { s with maxWorkers := n },
   ofText "directory_address" fun t s => { s with directoryAddress := t },
   ofPort "directory_port" fun p s => { s with directoryPort := p },
   ofNat "hop_limit" 256 fun n s => { s with hopLimit := n },
   ofCount "outdegree" fun n s => { s with outdegree := n },
   ofCount "keepalive_interval_secs" fun n s => { s with keepaliveSecs := n },
   ofCount "router_refresh_interval_secs" fun n s => { s with refreshSecs := n },
   ofCount "directory_retry_interval_secs" fun n s => { s with retrySecs := n },
   tableSetting "clients" fun t s => { s with clients := t },
   tableSetting "messages" fun t s => { s with messages := t },
   tableSetting "routers" fun t s => { s with routers := t }]

/-- What a configuration file says; a section may be missing. -/
structure ConfigFile where
  directory : Option DirectorySettings := none
  router : Option RouterSettings := none
  deriving DecidableEq, Repr

namespace ConfigFile

/-- A section that may be missing. -/
def section? {σ : Type} (entries : Toml.Entries) (name : String) (settings : List (Setting σ))
    (defaults : σ) : Option (Option σ) :=
  match entries.get? name with
  | none => some none
  | some v => (readSection settings defaults v).map some

/-- The configuration that a text says. -/
def ofString? (text : String) : Option ConfigFile := do
  let entries ← Toml.parse? text
  let directory ← section? entries "directory" DirectorySettings.settings {}
  let router ← section? entries "router" RouterSettings.settings {}
  some { directory, router }

/-- The configuration that a text says, or the failure to read the file that holds it. -/
def parse (path text : String) : Except ConfigError ConfigFile :=
  match ofString? text with
  | some c => .ok c
  | none => .error (.unparseable path "not a configuration")

/-- What stands at a path. -/
inductive Found
  | nothing
  | unreadable (reason : String)
  | content (bytes : Bytes)
  deriving DecidableEq, Repr

/-- A folder cannot be read. -/
def Found.folder : Found := .unreadable SystemFault.isDirectory.reason

/-- Read a file. -/
def load (path : String) : Found → Except ConfigError ConfigFile
  | .nothing => .error (.unreadable path SystemFault.noSuchFile.reason)
  | .unreadable reason => .error (.unreadable path reason)
  | .content bytes =>
    match bytes.toString? with
    | none => .error (.unreadable path "stream did not contain valid UTF-8")
    | some text => parse path text

/-- Read a file; one that does not exist leaves everything at its default. -/
def loadOrDefault (path : String) : Found → Except ConfigError ConfigFile
  | .nothing => .ok {}
  | found => load path found

/-- A path below a folder. -/
def below (folder name : String) : String :=
  if folder = "" ∨ folder.endsWith "/" then folder ++ name else folder ++ "/" ++ name

/-- Where a user's configuration is: below the configuration folder that the environment names, if
its path is absolute, or else below the usual one in the user's home. -/
def defaultPath (home : String) (configHome : Option String) : String :=
  let usual := below home ".config"
  let folder :=
    match configHome with
    | some path => if path.startsWith "/" then path else usual
    | none => usual
  below (below folder "floodnet") "floodnet.toml"

end ConfigFile
end FloodMesh
