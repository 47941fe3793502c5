import FloodMesh.Bytes
import FloodMesh.Log.Event
import FloodMesh.Pattern.Expression
import FloodMesh.Text.Numeral

/-!
# FloodMesh.Log.Filter

Which events a log shows. A filter is written as directives with commas between them: `level`,
`source`, `source=level`, and either of the last two with `[span]` or `[{field}]` before the equals
sign. A directive applies to events from all sources that start with its own, and, if it names a
field, that have the field; one that names a span or the value of a field applies to no event
outside spans, and this program has none. Of the directives that apply, the most specific one
decides.
-/

namespace FloodMesh

structure LogDirective where
  /-- What the source starts with. -/
  source : String := ""
  /-- A field that the event has to have. -/
  field : Option String := none
  /-- It is about events within certain spans. -/
  spans : Bool := false
  level : LogLevel := .trace
  deriving DecidableEq, Repr

namespace LogDirective

def applies (d : LogDirective) (e : LogEvent) : Bool :=
  !d.spans && d.source.toList.isPrefixOf e.source.toList && d.field.all e.has

/-- The directive is less specific than another that applies to the same event: its source is
shorter, or else it has no field where the other has one, or one that comes earlier in the
alphabet. -/
def yields (d other : LogDirective) : Bool :=
  if d.source.length ≠ other.source.length then d.source.length < other.source.length
  else
    match d.field, other.field with
    | none, none => false
    | none, some _ => true
    | some _, none => false
    | some name, some name' => name < name'

/-- Read a level, by its rank or by its name. -/
def readLevel (text : String) : Option LogLevel :=
  ((Text.numeral? UInt64.size text.toList).bind LogLevel.ofRank?).or (LogLevel.ofName? text)

end LogDirective

/-- Why a filter cannot be had. -/
inductive LogFilterError
  | unreadable
  /-- A part would begin or end within a character. -/
  | torn
  deriving DecidableEq, Repr

/-- A directive that is being read. Blanks around it are left out in reading, but positions count
from the start of the text with the blanks, and its parts are cut from there: a blank in front
shifts them all. -/
structure DirectiveReader where
  /-- The text with the blanks. -/
  whole : Bytes
  directive : LogDirective := {}

namespace DirectiveReader

variable (r : DirectiveReader)

/-- A character begins at the position, or the text ends there. -/
def isBoundary (position : Nat) : Bool :=
  match r.whole[position]? with
  | some b => b < 0x80 || 0xc0 ≤ b
  | none => position = r.whole.length

/-- The part of the text between two positions. -/
def part (start stop : Nat) : Except LogFilterError String :=
  if r.isBoundary start && r.isBoundary stop then
    .ok ((Bytes.toString? ((r.whole.take stop).drop start)).getD "")
  else .error .torn

/-- Find the first character that stops, with its position. -/
def find (stops : Char → Bool) (position : Nat) : List Char → Nat × List Char
  | [] => (position, [])
  | c :: cs => if stops c then (position, c :: cs) else find stops (position + c.utf8Size) cs

/-- What stands after the equals sign, up to the end of the text. No level means all of them. -/
def readLimit (position : Nat) : Except LogFilterError LogDirective := do
  let text ← r.part position r.whole.length
  if text = "" then .ok r.directive
  else
    match LogDirective.readLevel text with
    | some level => .ok { r.directive with level }
    | none => .error .unreadable

/-- Read what stands behind the bracket that closes a span. -/
def readEnd (position : Nat) : List Char → Except LogFilterError LogDirective
  | [] => .ok r.directive
  | '=' :: _ => r.readLimit (position + 1)
  | _ => .error .unreadable

/-- The directive with a field. One with a value, up to a second equals sign, is about spans; the
value is a number or an expression, of which only those that begin with a plus are numbers and no
expressions. -/
def withField (text : String) : Except LogFilterError LogDirective :=
  match text.splitOn "=" with
  | name :: value :: _ =>
    let cs := value.toList
    if Pattern.isWellFormed cs || Text.isSignedNumber cs then
      .ok { r.directive with field := some name, spans := true }
    else .error .unreadable
  | _ => if text = "" then .error .unreadable else .ok { r.directive with field := some text }

/-- Read a field, whose brace is open. -/
def readField (position : Nat) (cs : List Char) : Except LogFilterError LogDirective :=
  match find (· = '}') position cs with
  | (_, []) => .error .unreadable
  | (stop, _ :: rest) => do
    let directive ← r.withField (← r.part position stop)
    match rest with
    | ']' :: rest => readEnd { r with directive } (stop + 2) rest
    | _ => .error .unreadable

/-- Read a span, whose bracket is open. One without a name is about events, too. -/
def readSpan (position : Nat) (cs : List Char) : Except LogFilterError LogDirective :=
  match find (fun c => c = ']' || c = '{') position cs with
  | (_, []) => .error .unreadable
  | (stop, c :: rest) => do
    let name ← r.part position stop
    if c = ']' then readEnd { r with directive.spans := true } (stop + 1) rest
    else readField { r with directive.spans := name ≠ "" } (stop + 1) rest

/-- Read a directive that begins with a source or a level. One word alone is a level, or else a
source. -/
def readWord (cs : List Char) : Except LogFilterError LogDirective :=
  match find (fun c => c = '=' || c = '[') 0 cs with
  | (_, []) => do
    let word ← r.part 0 r.whole.length
    match LogDirective.readLevel word with
    | some level => .ok { level }
    | none => .ok { source := word }
  | (stop, c :: rest) => do
    let source ← r.part 0 stop
    let r := { r with directive.source := source }
    if c = '=' then r.readLimit (stop + 1) else r.readSpan (stop + 1) rest

/-- A source or level may begin with the character. -/
def isInitial (c : Char) : Bool := c == '-' || c == ':' || c == '_' || Text.isAlphanumeric c

/-- Read a directive. -/
def read (text : String) : Except LogFilterError LogDirective :=
  let r : DirectiveReader := { whole := Bytes.ofString text }
  match Text.trim text.toList with
  | [] => .error .unreadable
  | '[' :: cs => r.readSpan 1 cs
  | c :: cs => if isInitial c then r.readWord (c :: cs) else .error .unreadable

end DirectiveReader

/-- The directives in the order in which they were given. -/
structure LogFilter where
  directives : List LogDirective
  deriving DecidableEq, Repr

namespace LogFilter

/-- Everything from `info` up. -/
def standard : LogFilter := ⟨[{ level := .info }]⟩

/-- Read a filter. Nothing between commas counts for nothing. -/
def parse (text : String) : Except LogFilterError LogFilter :=
  (((text.splitOn ",").filter (· ≠ "")).mapM DirectiveReader.read).map LogFilter.mk

/-- The filter that the environment asks for. One that cannot be read counts as none; there is
none at all if a part of it is torn. -/
def ofEnvironment? (environment : String → Option String) : Option LogFilter :=
  match environment "RUST_LOG" with
  | none => some standard
  | some text =>
    match parse text with
    | .ok f => some f
    | .error .unreadable => some standard
    | .error .torn => none

/-- The directive that decides about an event. Of two equally specific ones it is the later. -/
def directive? (f : LogFilter) (e : LogEvent) : Option LogDirective :=
  (f.directives.filter (·.applies e)).foldl
    (fun best d => if best.any d.yields then best else some d) none

/-- The log shows the event. -/
def shows (f : LogFilter) (e : LogEvent) : Bool :=
  (f.directive? e).any fun d => e.level.rank ≤ d.level.rank

/-- The log of some events. -/
def lines (f : LogFilter) (events : List LogEvent) : List String :=
  (events.filter f.shows).map LogEvent.line

end LogFilter
end FloodMesh
