/-!
# Command lines

A command line names an action and gives it options. The settings file may be named before or after
the action; if it is named in both places the second one counts. All other options belong to the
action and come after it. An option that takes a value is followed by it, either as the next
argument or behind an equals sign; single-letter options may be joined.

## Main definitions

* `CommandLine` — an action with its options
* `CommandLine.ofArguments?` — the command line that a list of arguments stands for
-/

namespace FederatedSearch

/-- What is to be done. -/
inductive Action where
  /-- Answer the request in a file on the cores of a fixture. -/
  | run (cores request : String) (pretty : Bool)
  /-- List what the cores of a fixture hold. -/
  | stats (cores : String)
deriving DecidableEq, Inhabited, Repr

/-- A command line. -/
structure CommandLine where
  settings : Option String := none
  action : Action
deriving DecidableEq, Inhabited, Repr

/-- What is wrong with a command line. -/
inductive UsageFault where
  | unexpected (argument : String)
  | repeated (option : String)
  | missingValue (option : String)
  | missing (name : String)
deriving DecidableEq, Repr

def UsageFault.message : UsageFault → String
  | unexpected argument => "unexpected argument '" ++ argument ++ "' found"
  | repeated option => "the argument '" ++ option ++ "' cannot be used multiple times"
  | missingValue option => "a value is required for '" ++ option ++ "' but none was supplied"
  | missing name => "'" ++ name ++ "' is required but was not provided"

namespace CommandLine

inductive ActionName where
  | run
  | stats
deriving DecidableEq, Repr

/-- An option that takes a value. -/
inductive OptionName where
  | settings
  | cores
  | request
deriving DecidableEq, Repr

def OptionName.flag : OptionName → String
  | settings => "--config"
  | cores => "--cores"
  | request => "--query"

def prettyFlag : String := "--pretty"

/-- What has been read so far. -/
structure Options where
  action : Option ActionName := none
  /-- The settings file named before the action. -/
  outerSettings : Option String := none
  settings : Option String := none
  cores : Option String := none
  request : Option String := none
  pretty : Bool := false

namespace Options

/-- Whether an option may come at this point. -/
def admits (o : Options) : OptionName → Bool
  | .settings => true
  | .cores => o.action.isSome
  | .request => o.action == some .run

def get (o : Options) : OptionName → Option String
  | .settings => o.settings
  | .cores => o.cores
  | .request => o.request

/-- Give an option its value. -/
def set (o : Options) (name : OptionName) (value : String) : Except UsageFault Options :=
  if value.isEmpty then .error (.missingValue name.flag)
  else if (o.get name).isSome then .error (.repeated name.flag)
  else
    .ok <| match name with
      | .settings => { o with settings := some value }
      | .cores => { o with cores := some value }
      | .request => { o with request := some value }

def setPretty (o : Options) : Except UsageFault Options :=
  if o.action != some .run then .error (.unexpected prettyFlag)
  else if o.pretty then .error (.repeated prettyFlag)
  else .ok { o with pretty := true }

/-- Take the name of the action. -/
def setAction (o : Options) (word : String) : Except UsageFault Options :=
  let begin := fun name =>
    .ok { o with action := some name, outerSettings := o.settings, settings := none }
  match o.action, word with
  | none, "run" => begin .run
  | none, "stats" => begin .stats
  | _, _ => .error (.unexpected word)

end Options

/-- Options with the name of the option whose value comes next, if it does. -/
abbrev Reading := Options × Option OptionName

def longName? (word : String) : Option OptionName :=
  [.settings, .cores, .request].find? (·.flag = word)

/-- A long option, split at its first equals sign. -/
def readLong (o : Options) (argument : String) : Except UsageFault Reading := do
  let chars := argument.toList
  let word := String.ofList (chars.takeWhile (· ≠ '='))
  let value? :=
    match chars.dropWhile (· ≠ '=') with
    | [] => none
    | _ :: value => some (String.ofList value)
  match longName? word, value? with
  | some name, value? =>
    if o.admits name then
      match value? with
      | some value => return (← o.set name value, none)
      | none => return (o, some name)
    else throw (.unexpected word)
  | none, none => if word = prettyFlag then return (← o.setPretty, none) else throw (.unexpected word)
  | none, some _ => throw (.unexpected word)

/-- Joined single-letter options. -/
def readShort (o : Options) : List Char → Except UsageFault Reading
  | [] => .ok (o, none)
  | 'p' :: rest => do readShort (← o.setPretty) rest
  | ['c'] => .ok (o, some .settings)
  | 'c' :: '=' :: value => do return (← o.set .settings (String.ofList value), none)
  | 'c' :: value => do return (← o.set .settings (String.ofList value), none)
  | c :: _ => .error (.unexpected ("-" ++ c.toString))

def readArgument (o : Options) (argument : String) : Except UsageFault Reading :=
  match argument.toList with
  | '-' :: '-' :: _ => readLong o argument
  | '-' :: c :: rest => readShort o (c :: rest)
  | _ => do return (← o.setAction argument, none)

/-- Whether an argument reads as an option and not as a value. -/
def isOption (argument : String) : Bool :=
  match argument.toList with
  | '-' :: _ :: _ => true
  | _ => false

def readAll (o : Options) : List String → Except UsageFault Options
  | [] => .ok o
  | argument :: rest => do
    match ← readArgument o argument with
    | (o, none) => readAll o rest
    | (o, some name) =>
      match rest with
      | value :: rest =>
        if isOption value then throw (.missingValue name.flag)
        else readAll (← o.set name value) rest
      | [] => throw (.missingValue name.flag)

def demand (value : Option String) (name : String) : Except UsageFault String :=
  match value with
  | some s => .ok s
  | none => .error (.missing name)

/-- The command line that a list of arguments stands for. -/
def ofArguments? (arguments : List String) : Except UsageFault CommandLine := do
  let o ← readAll {} arguments
  let settings := o.settings.or o.outerSettings
  match o.action with
  | none => throw (.missing "run or stats")
  | some .run =>
    let cores ← demand o.cores OptionName.cores.flag
    let request ← demand o.request OptionName.request.flag
    return { settings, action := .run cores request o.pretty }
  | some .stats =>
    return { settings, action := .stats (← demand o.cores OptionName.cores.flag) }

end CommandLine

end FederatedSearch
