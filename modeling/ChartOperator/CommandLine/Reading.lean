import ChartOperator.CommandLine.Setting
import ChartOperator.Text.Similar

set_option autoImplicit false

/-!
# Reading the command line

Arguments are read from left to right. A long setting may carry its value behind an equals sign, or the
next argument is its value unless it looks like a setting itself. A value is checked when the next setting
is met, so of two mistakes the first one is reported, except that an unknown argument is reported before a
mistake in the value just before it. What the command line leaves out is then looked up in the environment.
-/

namespace ChartOperator.CommandLine

/-- Why a command line is refused. -/
inductive Refusal
  /-- With a similar setting, and the settings that the hint on usage shows. -/
  | unexpectedArgument (argument : String) (similar : Option Setting) (used : List Setting)
  | unexpectedValue (value : String) (setting : Setting) (used : List Setting)
  | missingValue (setting : Setting)
  | repeated (setting : Setting)
  | invalidNumber (setting : Setting) (value : String) (fault : NumberFault)
  | invalidSwitch (setting : Setting) (value : String)
  deriving DecidableEq, Repr

/-- What ends the reading of a command line early. -/
inductive Stop
  | help
  | version
  | refused (r : Refusal)
  deriving DecidableEq, Repr

/-- How far a command line was read. -/
structure Reading where
  /-- The settings with their values, in the order in which they were first given. -/
  given : List (Setting × String) := []
  /-- A setting whose value was not checked yet; it may still have to come. -/
  pending : Option (Setting × Option String) := none
  /-- Behind a double dash nothing is a setting. -/
  dashed : Bool := false

/-- What is wrong with a value. -/
def valueFault (s : Setting) (value : String) : Option Refusal :=
  match s.description.kind with
  | .anyText => none
  | .seconds =>
    match readSeconds value with
    | .ok _ => none
    | .error fault => some (.invalidNumber s value fault)
  | .switch => if switchValues.contains value then none else some (.invalidSwitch s value)

namespace Reading

/-- The settings that were given. -/
def settings (r : Reading) : List Setting := r.given.map (·.1)

/-- Whether a setting was given. -/
def has (r : Reading) (s : Setting) : Bool := r.settings.contains s

/-- The value of a setting. -/
def value? (r : Reading) (s : Setting) : Option String := (r.given.find? (·.1 == s)).map (·.2)

/-- Takes a setting with its value, if it has one; given twice it is forgotten. -/
def accept (r : Reading) (s : Setting) : Option String → Reading × Option Refusal
  | none => (r, some (.missingValue s))
  | some value =>
    if r.has s then ({ r with given := r.given.filter (·.1 != s) }, some (.repeated s))
    else ({ r with given := r.given ++ [(s, value)] }, valueFault s value)

/-- Takes the setting whose value was not checked yet. -/
def settle (r : Reading) : Reading × Option Refusal :=
  match r.pending with
  | none => (r, none)
  | some (s, value) => { r with pending := none }.accept s value

/-- Goes on only if nothing is wrong. -/
def orRefuse : Reading × Option Refusal → Except Stop Reading
  | (r, none) => .ok r
  | (_, some refusal) => .error (.refused refusal)

/-- Takes a setting with its value after the one that is pending. -/
def take (r : Reading) (s : Setting) (value : String) : Except Stop Reading := do
  orRefuse ((← orRefuse r.settle).accept s (some value))

/-- Takes a setting that has no value. -/
def takeSwitch (r : Reading) (s : Setting) : Except Stop Reading :=
  match s with
  | .help => do
    let _ ← orRefuse r.settle
    .error .help
  | .version => do
    let _ ← orRefuse r.settle
    .error .version
  | s => r.take s "true"

/-- Settings with one more, each once. -/
def withSetting (ss : List Setting) (s : Setting) : List Setting := if ss.contains s then ss else ss ++ [s]

/-- Refuses a long name that is unknown. -/
def unknownLong (r : Reading) (name : String) : Refusal :=
  let used := r.settle.1.settings
  let similar := (Text.mostSimilar? name (Setting.all.map (·.description.long))).bind Setting.ofLong?
  .unexpectedArgument ("--" ++ name) similar
    (match similar with
      | some s => withSetting used s
      | none => used)

/-- Reads a long name, with what follows its equals sign. -/
def long (r : Reading) (name : String) (value : Option String) : Except Stop Reading :=
  match Setting.ofLong? name with
  | none => .error (.refused (r.unknownLong name))
  | some s =>
    if s.takesValue then
      match value with
      | some v => r.take s v
      | none => do return { ← orRefuse r.settle with pending := some (s, none) }
    else
      match value with
      | some v => .error (.refused (.unexpectedValue v s (withSetting r.settings s)))
      | none => r.takeSwitch s

/-- Reads letters behind a single dash. -/
def letters (r : Reading) : List Char → Except Stop Reading
  | [] => .ok r
  | c :: cs =>
    match Setting.ofShort? c with
    | none => .error (.refused (.unexpectedArgument (String.ofList ['-', c]) none []))
    | some s => do (← r.takeSwitch s).letters cs

/-- Reads an argument that is not a setting. -/
def word (r : Reading) (argument : String) : Except Stop Reading :=
  match r.pending with
  | some (s, none) => .ok { r with pending := some (s, some argument) }
  | _ => .error (.refused (.unexpectedArgument argument none []))

/-- Cuts a text at its first equals sign. -/
def cutAtEquals (cs : List Char) : String × Option String :=
  let name := cs.takeWhile (· ≠ '=')
  (String.ofList name, match cs.drop name.length with
    | [] => none
    | _ :: value => some (String.ofList value))

/-- Reads an argument. -/
def argument (r : Reading) (a : String) : Except Stop Reading :=
  if r.dashed then .error (.refused (.unexpectedArgument a none []))
  else
    match a.toList with
    | ['-', '-'] => .ok { r with dashed := true }
    | '-' :: '-' :: cs => let (name, value) := cutAtEquals cs; r.long name value
    | ['-'] => r.word a
    | '-' :: cs => r.letters cs
    | _ => r.word a

/-- Looks up a setting in the environment if it was not given. -/
def lookUp (environment : String → Option String) (r : Reading) (s : Setting) : Except Stop Reading :=
  if r.has s then .ok r
  else
    match s.description.environmentName.bind environment with
    | none => .ok r
    | some value => orRefuse (r.accept s (some value))

/-- Reads a command line and what it leaves out. -/
def ofArguments (arguments : List String) (environment : String → Option String) : Except Stop Reading := do
  let r ← arguments.foldlM argument {}
  let r ← orRefuse r.settle
  Setting.all.foldlM (lookUp environment) r

end Reading

/-- What the command line and the environment ask for. -/
structure Settings where
  config : Config
  probeAddress : String
  metricsAddress : String
  logLevel : String
  logJson : Bool
  printDefinition : Bool
  deriving Repr

/-- The settings that were read, and for the others the values that they have by themselves. -/
def Reading.finish (r : Reading) : Settings :=
  let text := fun s => (r.value? s).getD (s.description.default.getD "")
  let seconds := fun s => Duration.ofSeconds ((readSeconds (text s)).toOption.getD 0)
  let on := fun s => r.value? s = some "true"
  { config := {
      «namespace» := text .componentNamespace
      operatorComponent := text .operatorComponent
      repository := text .repository
      helmBinary := text .helmBinary
      helmTimeout := seconds .helmTimeout
      backoff := seconds .backoff
      syncInterval := seconds .syncInterval }
    probeAddress := text .probeAddress
    metricsAddress := text .metricsAddress
    logLevel := text .logLevel
    logJson := on .logJson
    printDefinition := on .printDefinition }

end ChartOperator.CommandLine
