import DaxPlan.Report
import DaxPlan.Session.Json
import DaxPlan.Settings.Reader

/-!
# The command line

```
analyze FILE [-e EVENTS] [-t MILLISECONDS] [-s SETTINGS] [--json]
session FILE [-s SETTINGS] [--json]
help [COMMAND]
```

The first command reads a physical plan and its events, the second a saved session. Both report the plan as text or as JSON. The
settings file can be named before or after the command, or by an environment variable. Arguments are taken in their order: of two
reasons to make no report, the earlier counts.
-/

namespace DaxPlan.Command

/-! ## Arguments -/

/-- What to report on. -/
inductive Task where
  | analyze (file : String) (events : Option String) (totalMs : Float)
  | session (file : String)
  deriving Repr

/-- What a command line asks for. -/
structure Invocation where
  settings : Option String
  json : Bool
  task : Task
  deriving Repr

/-- What comes of reading a command line other than an invocation. -/
inductive Refusal where
  /-- The arguments are wrong. -/
  | usage
  /-- Help or the version is asked for. -/
  | help
  deriving DecidableEq, Repr

/-- The options of a command. -/
inductive Opt where
  | settings | json | events | totalMs | help | version
  deriving DecidableEq, Repr

/-- An option and its names; some take a value. -/
structure OptName where
  opt : Opt
  short : Option Char
  long : String
  takesValue : Bool

/-- The options that stand before a command or after it. -/
def globalOpts : List OptName := [
  ⟨.settings, some 's', "settings", true⟩,
  ⟨.json, none, "json", false⟩,
  ⟨.help, some 'h', "help", false⟩]

/-- The options before a command. -/
def topOpts : List OptName := globalOpts ++ [⟨.version, some 'V', "version", false⟩]

/-- The options of the command that analyzes a plan. -/
def analyzeOpts : List OptName :=
  globalOpts ++ [⟨.events, some 'e', "events", true⟩, ⟨.totalMs, some 't', "total-ms", true⟩]

/-- The options and the file of one level of a command line, as far as they have been read. -/
structure Level where
  settings : Option String := none
  json : Bool := false
  events : Option String := none
  totalMs : Option Float := none
  file : Option String := none

/-- Takes an option down. No option may be given twice, and no value may be empty. -/
def Level.give (level : Level) (opt : Opt) (value : String) : Except Refusal Level :=
  match opt with
  | .settings => if level.settings.isSome || value.isEmpty then .error .usage else .ok { level with settings := some value }
  | .json => if level.json then .error .usage else .ok { level with json := true }
  | .events => if level.events.isSome || value.isEmpty then .error .usage else .ok { level with events := some value }
  | .totalMs =>
    match level.totalMs, Number.float? value.toList with
    | none, some x => .ok { level with totalMs := some x }
    | _, _ => .error .usage
  | .help | .version => .error .help

/-- Gives an option the value it takes: one that is attached to it, or else the next argument, unless that looks like an
option. -/
def Level.giveValue (level : Level) (opt : Opt) (attached : Option String) (rest : List String) :
    Except Refusal (Level × List String) :=
  match attached, rest with
  | some value, rest => (level.give opt value).map (·, rest)
  | none, value :: rest =>
    if value.startsWith "-" && value != "-" then .error .usage else (level.give opt value).map (·, rest)
  | none, [] => .error .usage

/-- Reads options of one letter each; what follows the letter of an option that takes a value is its value. -/
def Level.shortOpts (opts : List OptName) (rest : List String) : List Char → Level → Except Refusal (Level × List String)
  | [], level => .ok (level, rest)
  | c :: letters, level =>
    match opts.find? (·.short == some c) with
    | none => .error .usage
    | some name =>
      if name.takesValue then
        let attached := match letters with
          | [] => none
          | '=' :: value => some (String.ofList value)
          | value => some (String.ofList value)
        level.giveValue name.opt attached rest
      else (level.give name.opt "").bind (shortOpts opts rest letters)

/-- Reads an option with a long name; its value may follow an equals sign. -/
def Level.longOpt (opts : List OptName) (body : List Char) (rest : List String) (level : Level) :
    Except Refusal (Level × List String) :=
  let name := String.ofList (body.takeWhile (· != '='))
  let attached := if body.contains '=' then some (String.ofList ((body.dropWhile (· != '=')).drop 1)) else none
  match opts.find? (·.long == name) with
  | none => .error .usage
  | some found =>
    if found.takesValue then level.giveValue found.opt attached rest
    else if attached.isSome then .error .usage
    else (level.give found.opt "").map (·, rest)

/-- Reads the options of a level up to its next positional argument. Answers with that argument, if there is one, and what
follows it, and whether two hyphens have ended the options. -/
def Level.options (opts : List OptName) : Nat → List String → Level → Except Refusal (Level × List String × Bool)
  | 0, args, level => .ok (level, args, false)
  | fuel + 1, args, level =>
    match args with
    | [] => .ok (level, [], false)
    | arg :: rest =>
      match arg.toList with
      | ['-', '-'] => .ok (level, rest, true)
      | '-' :: '-' :: body => (level.longOpt opts body rest).bind (fun r => options opts fuel r.2 r.1)
      | '-' :: c :: letters => (shortOpts opts rest (c :: letters) level).bind (fun r => options opts fuel r.2 r.1)
      | _ => .ok (level, arg :: rest, false)

/-- Takes the one file of a command down, which has a name. -/
def Level.giveFile (level : Level) (file : String) : Except Refusal Level :=
  if level.file.isSome || file.isEmpty then .error .usage else .ok { level with file := some file }

/-- Reads all arguments of a command. -/
def Level.all (opts : List OptName) : Nat → List String → Level → Except Refusal Level
  | 0, _, level => .ok level
  | fuel + 1, args, level => do
    let (level, rest, ended) ← options opts (args.length + 1) args level
    if ended then rest.foldlM giveFile level
    else match rest with
      | [] => return level
      | arg :: rest => all opts fuel rest (← level.giveFile arg)

/-- The file of a command, which must be given. -/
def Level.file? (level : Level) : Except Refusal String :=
  match level.file with
  | some file => .ok file
  | none => .error .usage

/-- What help can be asked for: all commands, or one of them. -/
def helpTopics : List (List String) := [[], ["analyze"], ["session"], ["help"]]

/-- The settings file: the one named after the command, else the one before it, else that of the environment. -/
def settingsFile (environment : Option String) (before after : Level) : Except Refusal (Option String) :=
  if environment == some "" && (before.settings.isNone || after.settings.isNone) then .error .usage
  else .ok ((after.settings.orElse (fun _ => before.settings)).orElse (fun _ => environment))

/-- Reads a command line; `environment` is the settings file that the environment names. -/
def parse (args : List String) (environment : Option String) : Except Refusal Invocation := do
  let (before, rest, ended) ← Level.options topOpts (args.length + 1) args {}
  if ended then throw .usage
  match rest with
  | "analyze" :: rest =>
    let level ← Level.all analyzeOpts (rest.length + 1) rest {}
    let file ← level.file?
    let settings ← settingsFile environment before level
    return ⟨settings, before.json || level.json, .analyze file level.events (level.totalMs.getD 0.0)⟩
  | "session" :: rest =>
    let level ← Level.all globalOpts (rest.length + 1) rest {}
    let file ← level.file?
    let settings ← settingsFile environment before level
    return ⟨settings, before.json || level.json, .session file⟩
  | "help" :: topic => throw (if helpTopics.contains topic then .help else .usage)
  | _ => throw .usage

/-! ## Failures -/

/-- Where an invocation failed, and why. -/
inductive Failure where
  | settings (file : String) (cause : Error Float)
  | plan (file : String) (failure : ReadFailure)
  | events (file : String) (failure : ReadFailure)
  | invalidEvents (file : String)
  | enrichment (cause : Error Float)
  | session (file : String) (cause : Error Float)
  | rederivation (activityId : String) (cause : Error Float)
  deriving Repr

/-- An error with what lies behind it. -/
def chain (e : Error Float) : String :=
  match e with
  | .io failure => e.message ++ ": " ++ failure.reason
  | _ => e.message

/-- The text of a failure. -/
def Failure.message : Failure → String
  | settings file cause => "failed to load settings from '" ++ file ++ "': " ++ chain cause
  | plan file failure => "failed to read plan '" ++ file ++ "': " ++ failure.reason
  | events file failure => "failed to read events '" ++ file ++ "': " ++ failure.reason
  | invalidEvents file => "invalid events in '" ++ file ++ "'"
  | enrichment cause => "enrichment failed: " ++ chain cause
  | session file cause => "failed to load session '" ++ file ++ "': " ++ chain cause
  | rederivation activityId cause => "failed to re-derive session " ++ activityId ++ ": " ++ chain cause

/-! ## Running -/

/-- Reads a file, by its path. -/
abbrev FileReader (m : Type → Type) := String → m (Except ReadFailure String)

/-- The name of a file without its last extension; a point at the beginning does not begin one. -/
def fileStem (path : String) : String :=
  let name := ((path.splitOn "/").filter (fun part => part != "" && part != ".")).getLast?.getD ""
  if name == "" || name == ".." then "plan"
  else
    let parts := name.splitOn "."
    let before := String.intercalate "." parts.dropLast
    if parts.length ≤ 1 || before == "" then name else before

section

variable {m : Type → Type} [Monad m]

/-- The settings of an invocation. -/
def loadSettings (read : FileReader m) : Option String → ExceptT Failure m (Settings Float)
  | none => return Settings.standard
  | some file => do
    match ← read file with
    | .error failure => throw (.settings file (.io failure))
    | .ok text =>
      match Settings.ofText text with
      | .error cause => throw (.settings file cause)
      | .ok settings => return settings

/-- The events of an invocation. -/
def loadEvents (read : FileReader m) : Option String → ExceptT Failure m (List (Event Float))
  | none => return []
  | some file => do
    match ← read file with
    | .error failure => throw (.events file failure)
    | .ok text =>
      match Event.listOfText text with
      | .error _ => throw (.invalidEvents file)
      | .ok events => return events

/-- Reports on a physical plan. -/
def analyze (read : FileReader m) (settings : Settings Float) (file : String) (events : Option String) (totalMs : Float) :
    ExceptT Failure m (Report Float) := do
  match ← read file with
  | .error failure => throw (.plan file failure)
  | .ok text =>
    let events ← loadEvents read events
    match (Enricher.ofSettings settings).physicalText text events none (fileStem file) totalMs with
    | .error cause => throw (.enrichment cause)
    | .ok plan => return Report.ofPlan settings.layout plan none

/-- Reports on a saved session. -/
def reportSession (read : FileReader m) (settings : Settings Float) (file : String) : ExceptT Failure m (Report Float) := do
  match ← read file with
  | .error failure => throw (.session file (.io failure))
  | .ok text =>
    match Session.ofText text with
    | .error cause => throw (.session file cause)
    | .ok session =>
      match session.rederive (Enricher.ofSettings settings) none with
      | .error cause => throw (.rederivation session.correlationId cause)
      | .ok (physical, logical) => return Report.ofPlan settings.layout physical logical

/-- Makes the report that an invocation asks for. -/
def run (read : FileReader m) (invocation : Invocation) : ExceptT Failure m (Report Float) := do
  let settings ← loadSettings read invocation.settings
  match invocation.task with
  | .analyze file events totalMs => analyze read settings file events totalMs
  | .session file => reportSession read settings file

end

/-! ## Texts -/

/-- How the program is called. -/
def usage : String :=
  "Usage: vqp [OPTIONS] <COMMAND>\n\n" ++
  "Commands:\n" ++
  "  analyze  Analyze a physical plan text file\n" ++
  "  session  Re-derive the plans stored in a saved session\n" ++
  "  help     Print this message or the help of the given subcommand(s)\n\n" ++
  "Options:\n" ++
  "  -s, --settings <SETTINGS>  Settings file (TOML)\n" ++
  "      --json                 Print a JSON report instead of text\n" ++
  "  -h, --help                 Print help\n" ++
  "  -V, --version              Print version\n"

end DaxPlan.Command
