import FederatedSearch.Command.Arguments
import FederatedSearch.Engine.Basic
import FederatedSearch.Index.Fixture
import FederatedSearch.Json.Writer
import FederatedSearch.Pattern.Standard
import FederatedSearch.Request.Json

/-!
# Commands

The commands work on files: a settings file, which is optional, a fixture with the cores, and for a
run a request. They are carried out in terms of a way to read files and to read the time, which is
all they need from outside. The groups of a search run in turn, and patterns are compiled by the standard
engines.

## Main definitions

* `Surroundings` — what a command needs from outside
* `CommandLine.execute` — carry out a command; the result is what to print
-/

namespace FederatedSearch

/-- What a command needs from outside. -/
structure Surroundings (m : Type → Type) where
  /-- The text of a file, if it can be read. -/
  fileText : String → m (Option String)
  /-- The time in microseconds. -/
  clock : m Nat
  /-- The default for the number of groups in a search. -/
  concurrency : Nat

/-- Why a command fails, in terms of its files. -/
inductive CommandFault where
  | settings (path : String) (cause : Failure)
  | cores (path : String) (cause : Failure)
  | unreadableRequest (path : String)
  | malformedRequest (path : String)
  | failed (failure : Failure)
deriving DecidableEq, Repr

namespace CommandFault

def message : CommandFault → String
  | settings path _ => "failed to load config " ++ path
  | cores path _ => "failed to load cores from " ++ path
  | unreadableRequest path => "failed to read query " ++ path
  | malformedRequest path => "invalid composed query in " ++ path
  | failed failure => failure.message

/-- What lies behind the fault, if that is something else. -/
def cause : CommandFault → Option Failure
  | settings _ cause => some cause
  | cores _ cause => some cause
  | unreadableRequest _ => some .unreadableFile
  | malformedRequest _ => some .malformedDocument
  | failed _ => none

/-- The text on the error channel. -/
def report (f : CommandFault) : String :=
  "Error: " ++ f.message ++
    (match f.cause with
      | some cause => "\n\nCaused by:\n    " ++ cause.message
      | none => "") ++ "\n"

end CommandFault

/-- What a finished command prints, and its exit code. -/
structure Printout where
  code : Nat := 0
  output : String := ""
  errors : String := ""
deriving DecidableEq, Inhabited, Repr

/-- Pad a text with blanks on the right. -/
def padRight (width : Nat) (s : String) : String :=
  s ++ String.ofList (List.replicate (width - s.length) ' ')

/-- Pad a text with blanks on the left. -/
def padLeft (width : Nat) (s : String) : String :=
  String.ofList (List.replicate (width - s.length) ' ') ++ s

/-- A row of the table of cores. -/
def statsRow (name segments docs : String) : String :=
  padRight 20 name ++ " " ++ padLeft 10 segments ++ " " ++ padLeft 12 docs ++ "\n"

/-- The table of cores. -/
def statsTable (stats : List CoreStats) : String :=
  statsRow "CORE" "SEGMENTS" "DOCS" ++
    String.join (stats.map fun s => statsRow s.name (toString s.segments) (toString s.docs))

/-- The text of a response. -/
def responseText (pretty : Bool) (r : Response) : String :=
  (if pretty then r.toJson.indented else r.toJson.compact) ++ "\n"

/-- Build the cores of a fixture. -/
def loadCores (fixtures : List CoreFixture) : List DocumentCore :=
  ((fixtures.mapM CoreFixture.load).run {}).1

namespace Surroundings

variable {m : Type → Type} [Monad m] (s : Surroundings m)

/-- Read a file for something that is made of its text. -/
def load {α : Type} (path : String) (make : String → Except Failure α) :
    m (Except Failure α) := do
  match ← s.fileText path with
  | some text => return make text
  | none => return .error .unreadableFile

def loadSettings (path : Option String) : ExceptT CommandFault m Settings := do
  let base := Settings.standard s.concurrency
  match path with
  | none => return base
  | some path =>
    match ← s.load path base.ofText? with
    | .ok settings => return settings
    | .error failure => throw (.settings path failure)

/-- An engine with the cores of a fixture. -/
def openEngine (settings : Settings) (path : String) : ExceptT CommandFault m Engine := do
  match ← s.load path CoreFixture.ofText? with
  | .error failure => throw (.cores path failure)
  | .ok fixtures =>
    match Engine.create settings with
    | .error failure => throw (.failed failure)
    | .ok engine =>
      return (loadCores fixtures).foldl (fun engine core => engine.register core.publish) engine

def loadRequest (path : String) : ExceptT CommandFault m Request := do
  match ← s.fileText path with
  | none => throw (.unreadableRequest path)
  | some text =>
    match (Json.read? text).bind Request.ofJson? with
    | some r => return r
    | none => throw (.malformedRequest path)

end Surroundings

namespace CommandLine

variable {m : Type → Type} [Monad m] (s : Surroundings m)

/-- The output of a command. -/
def output (c : CommandLine) : ExceptT CommandFault m String := do
  let settings ← s.loadSettings c.settings
  match c.action with
  | .run cores request pretty =>
    let engine ← s.openEngine settings cores
    let r ← s.loadRequest request
    match ← engine.execute s.clock (fun _ => false) r [] with
    | (.ok response, _) => return responseText pretty response
    | (.error failure, _) => throw (.failed failure)
  | .stats cores => return statsTable (← s.openEngine settings cores).stats

/-- Carry out a command. -/
def execute (c : CommandLine) : m Printout := do
  match ← (c.output s).run with
  | .ok text => return { output := text }
  | .error fault => return { code := 1, errors := fault.report }

/-- Carry out the command that a list of arguments stands for. -/
def executeArguments (arguments : List String) : m Printout :=
  match ofArguments? arguments with
  | .ok c => c.execute s
  | .error fault => return { code := 2, errors := "error: " ++ fault.message ++ "\n" }

end CommandLine

end FederatedSearch
