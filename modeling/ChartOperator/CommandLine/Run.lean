import ChartOperator.CommandLine.Texts
import ChartOperator.Component.Definition
import ChartOperator.Log.Filter
import ChartOperator.Log.Line

set_option autoImplicit false

/-!
# Running the command line

What the operator prints before it works: help, version or the definition of components if these are asked
for, a refusal, or what it is about to do. It then needs a cluster; where it finds no configuration of one,
it ends with a failure.
-/

namespace ChartOperator.CommandLine

/-- Where the program runs. -/
structure Surroundings where
  /-- The variables of the environment. -/
  environment : List (String × String)
  /-- The present time as it is written to the log. -/
  time : String

/-- How a run ends. -/
structure Ending where
  code : Nat
  output : String := ""
  errors : String := ""
  deriving DecidableEq, Repr

namespace Surroundings

/-- The value of a variable. -/
def get (s : Surroundings) (name : String) : Option String := (s.environment.find? (·.1 == name)).map (·.2)

/-- The files that are looked for to find a cluster; the first one decides. -/
def clusterFile (s : Surroundings) : String :=
  match (((s.get "KUBECONFIG").getD "").splitOn ":").find? fun p => !p.isEmpty with
  | some path => path
  | none => (s.get "HOME").getD "/root" ++ "/.kube/config"

/-- How messages are written. -/
def style (s : Surroundings) (settings : Settings) : Log.Style :=
  if settings.logJson then .json
  else if ((s.get "NO_COLOR").getD "").isEmpty then .coloured
  else .plain

end Surroundings

/-- The target of the messages of the operator. -/
def logTarget : String := "component_operator"

/-- What the operator is about to do. -/
def startMessages (c : Config) : List String := [
  "Starting Component Operator",
  "  Version: " ++ operatorVersion,
  "  Namespace: " ++ c.namespace,
  "  Helm repository: " ++ c.repository,
  "  Requeue backoff: " ++ c.backoff.text,
  "  Health sync interval: " ++ c.syncInterval.text]

/-- The failure to find a cluster: there is none around the program, and no file at a path. -/
def noCluster (path : String) : String :=
  "Kube(InferConfig(InferConfigError \x7b in_cluster: ReadEnvironmentVariable(NotPresent), " ++
    "kubeconfig: ReadConfig(Os \x7b code: 2, kind: NotFound, message: \"No such file or directory\" \x7d, " ++ Text.quote path ++ ") \x7d))"

/-- Ends with a failure. -/
def fail (output complaints message : String) : Ending := ⟨1, output, complaints ++ "Error: " ++ message ++ "\n"⟩

/-- The filter of the log: what the environment asks for, with the level that is set in place of a level for
everything. -/
def logFilter (s : Surroundings) (settings : Settings) : List String × Log.Filter :=
  let (complaints, f) := Log.Filter.read ((s.get "RUST_LOG").getD "")
  (complaints, f ++ [{ level := Log.Level.asked settings.logLevel }])

/-- Starts the operator. -/
def start (s : Surroundings) (settings : Settings) : Ending :=
  let (complaints, filter) := logFilter s settings
  let complaints := String.join complaints
  match settings.config.validate with
  | .error (.configuration m) => fail "" complaints ("Configuration(" ++ Text.quote m ++ ")")
  | .error e => fail "" complaints e.message
  | .ok () =>
    let messages := if filter.shows logTarget .info then startMessages settings.config else []
    let lines := messages.map fun m => Log.line (s.style settings) s.time logTarget m ++ "\n"
    fail (String.join lines) complaints (noCluster s.clusterFile)

/-- Runs the program with its arguments. -/
def run (arguments : List String) (s : Surroundings) : Ending :=
  match Reading.ofArguments arguments s.get with
  | .error .help => { code := 0, output := helpText s.get }
  | .error .version => { code := 0, output := versionText }
  | .error (.refused r) => { code := 2, errors := r.text }
  | .ok r =>
    let settings := r.finish
    if settings.printDefinition then { code := 0, output := Component.definition.text } else start s settings

theorem code_fail (output complaints message : String) : (fail output complaints message).code = 1 := rfl

theorem code_start (s : Surroundings) (settings : Settings) : (start s settings).code = 1 := by
  unfold start
  dsimp only
  split <;> rfl

/-- A run ends well exactly when help, version or definition were asked for; a refused command line has a
code of its own. -/
theorem code_run (arguments : List String) (s : Surroundings) :
    (run arguments s).code =
      match Reading.ofArguments arguments s.get with
      | .error (.refused _) => 2
      | .error _ => 0
      | .ok r => if r.finish.printDefinition then 0 else 1 := by
  unfold run
  split
  · rename_i h
    rw [h]
  · rename_i h
    rw [h]
  · rename_i h
    rw [h]
  · rename_i h
    rw [h]
    dsimp only
    split
    · rfl
    · exact code_start s _

end ChartOperator.CommandLine
