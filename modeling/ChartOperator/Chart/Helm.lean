import ChartOperator.Chart.Dependencies
import ChartOperator.Chart.Metadata
import ChartOperator.Json.Fields
import ChartOperator.Json.Reader
import ChartOperator.Text.Utf8

set_option autoImplicit false

/-!
# Helm

Charts are managed by the helm program. Each operation is one or two `Invocation`s of it: the arguments,
and the values that it reads from its standard input. A `Completion` says how an invocation went, and the
operations read their results from what helm printed.

An operation is written for any monad in which helm can be invoked.
-/

namespace ChartOperator.Helm

/-- One run of helm. -/
structure Invocation where
  arguments : List String
  input : Option String
  deriving DecidableEq, Repr

/-- The subcommand of an invocation. -/
def Invocation.command (i : Invocation) : String := i.arguments.headD ""

/-- Whether an argument holds the null character, which ends an argument where programs are started. -/
def Invocation.holdsNull (i : Invocation) : Bool := i.arguments.any fun a => a.toList.contains '\x00'

/-- How a run of helm went. -/
inductive Completion
  /-- The program could not be started. -/
  | notStarted (reason : String)
  /-- The program did not take its input. -/
  | inputRefused (reason : String)
  | exited (code : Nat) (output errors : List UInt8)

/-- What a run printed, if it succeeded. -/
def Completion.result (command : String) : Completion → Except Failure (List UInt8)
  | notStarted reason => .error (.helmCommand command reason)
  | inputRefused reason => .error (.helmCommand command ("failed to write values: " ++ reason))
  | exited code output errors =>
    if code = 0 then .ok output
    else .error (.helmCommand command (Text.trim (String.ofList (Text.ofBytesLossy errors))))

/-! ## Invocations -/

/-- The arguments that choose the version of a chart. -/
def versionArguments (version : String) : List String := if version.isEmpty then [] else ["--version", version]

/-- The overlay that helm is given, unless it is blank. -/
def overlayInput (s : ChartSpec) : Option String := s.valuesOverlay.filter fun v => !Text.isBlankText v

/-- Installs a release, or upgrades it when it exists. -/
def installOrUpgrade (s : ChartSpec) : Invocation where
  arguments :=
    ["upgrade", "--install", s.releaseName, s.chartName, "--namespace", s.namespace, "--timeout",
      Text.decimal s.timeout.seconds ++ "s"] ++
    (if s.atomic then ["--atomic"] else []) ++
    (if s.createNamespace then ["--create-namespace"] else []) ++
    versionArguments s.version ++
    (if (overlayInput s).isSome then ["--values", "-"] else [])
  input := overlayInput s

/-- Uninstalls a release and waits for it to be gone. -/
def uninstall (release «namespace» : String) : Invocation :=
  ⟨["uninstall", release, "--namespace", «namespace», "--wait"], none⟩

/-- Lists the deployed releases. -/
def list : Invocation := ⟨["list", "--deployed", "--all-namespaces", "-o", "json"], none⟩

/-- Prints the values that were given for a release. -/
def getValues (r : Release) : Invocation :=
  ⟨["get", "values", r.name, "--namespace", r.namespace, "-o", "json"], none⟩

/-- Prints the description of a chart. -/
def showChart (s : ChartSpec) : Invocation :=
  ⟨["show", "chart", s.chartName] ++ versionArguments s.version, none⟩

/-! ## Results -/

/-- The fields of an entry of the list of releases. -/
def entryNames : List String := ["name", "namespace", "chart", "app_version"]

/-- An entry of the list of releases, of which the last field has a default. -/
def entry? (j : Json) : Option (String × String × String × String) := do
  let j ← j.record? entryNames 3
  return (← j.required? "name" Json.string?, ← j.required? "namespace" Json.string?,
    ← j.required? "chart" Json.string?, ← j.default? "app_version" Json.string? "")

/-- The release of an entry. -/
def releaseOf (e : String × String × String × String) : Release :=
  let (name, space, chart, app) := e
  let (chartName, chartVersion) := splitReference chart
  { name, «namespace» := space, chartName, chartVersion, appVersion := app }

/-- The releases that helm listed. -/
def readReleases (output : List UInt8) : Except Failure (List Release) :=
  match (Text.ofBytes? output).bind Json.readWritten? with
  | none => .error (.jsonParse "the list of releases")
  | some j =>
    match j.listOf? entry? with
    | none => .error (.jsonParse "the list of releases")
    | some es => .ok (es.map releaseOf)

/-- The values that helm printed; anything but an object is none. -/
def readValues (output : List UInt8) : Except Failure Values :=
  match (Text.ofBytes? output).bind Json.read? with
  | none => .error (.jsonParse "the values of a release")
  | some (.fields es) => .ok es
  | some _ => .ok []

/-- The annotations of a chart that helm described. -/
def readAnnotations (output : List UInt8) : Except Failure (List (String × String)) :=
  match (Text.ofBytes? output).bind ChartMetadata.annotations? with
  | none => .error (.yamlParse "the description of a chart")
  | some as => .ok as

/-! ## Operations -/

section

variable {m : Type → Type} [Monad m]

/-- What an invocation printed. -/
def run (helm : Invocation → m Completion) (i : Invocation) : ExceptT Failure m (List UInt8) :=
  ExceptT.mk do
    if i.holdsNull then return .error (.helmCommand i.command "nul byte found in provided data")
    return (← helm i).result i.command

/-- Installs or upgrades a release. -/
def applySpec (helm : Invocation → m Completion) (s : ChartSpec) : ExceptT Failure m Unit := do
  discard (run helm (installOrUpgrade s))

/-- Removes a release. -/
def removeRelease (helm : Invocation → m Completion) (release «namespace» : String) :
    ExceptT Failure m Unit := do
  discard (run helm (uninstall release «namespace»))

/-- The deployed releases. -/
def releases (helm : Invocation → m Completion) : ExceptT Failure m (List Release) := do
  readReleases (← run helm list)

/-- The values that were given for a release. -/
def releaseValues (helm : Invocation → m Completion) (r : Release) : ExceptT Failure m Values := do
  readValues (← run helm (getValues r))

/-- Fails unless the dependencies of a chart are deployed. -/
def satisfiesDependencies (helm : Invocation → m Completion) (s : ChartSpec) : ExceptT Failure m Unit := do
  let annotations ← readAnnotations (← run helm (showChart s))
  checkDependencies s.chartName annotations (← releases helm)

end

/-! ## A scripted program -/

/-- What a scripted program does: its output and exit code, and whether it reads its input. -/
structure Reply where
  output : List UInt8 := []
  errors : List UInt8 := []
  code : Nat := 0
  ignoresInput : Bool := false

/-- How much of its input a program can leave unread before the writer notices. -/
def pipeCapacity : Nat := 65536

/-- How an invocation of a scripted program goes. -/
def Reply.complete (r : Reply) (i : Invocation) : Completion :=
  let size := ((i.input.map Text.toBytes).getD []).length
  if r.ignoresInput && decide (pipeCapacity < size) then .inputRefused "Broken pipe (os error 32)"
  else .exited r.code r.output r.errors

/-- What a scripted program reads of the input of an invocation. -/
def Reply.inputRead (r : Reply) (i : Invocation) : String := if r.ignoresInput then "" else i.input.getD ""

/-- Why a path cannot be run as a program: it names a directory, or nothing. -/
def startFailure (path : String) : String :=
  if path.toList.getLast? == some '/' then "Permission denied (os error 13)"
  else "No such file or directory (os error 2)"

end ChartOperator.Helm
