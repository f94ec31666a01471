import ChartOperator.Config
import ChartOperator.Text.Digits

set_option autoImplicit false

/-!
# What can be set

Every setting of the operator with its names on the command line and in the environment, the value that
it has by itself, and what it means. The values that settings accept are decided here.
-/

namespace ChartOperator.CommandLine

/-- What can be asked for on the command line. -/
inductive Setting
  | componentNamespace | operatorComponent | repository | helmBinary | helmTimeout | backoff | syncInterval
  | probeAddress | metricsAddress | logLevel | logJson | printDefinition | help | version
  deriving DecidableEq, Repr

/-- The values that a setting accepts. -/
inductive ValueKind
  | anyText
  | seconds
  /-- The setting is on or off; on the command line it has no value. -/
  | switch
  deriving DecidableEq, Repr

/-- What is known of a setting. -/
structure Description where
  long : String
  short : Option Char := none
  kind : ValueKind
  /-- The variable of the environment that is read if the command line leaves the setting out. -/
  environmentName : Option String := none
  /-- The value of a setting that is left out everywhere. -/
  default : Option String := none
  help : String

namespace Setting

/-- The configuration of an operator that is told nothing. -/
def untold : Config := {}

/-- A duration as a number of seconds. -/
def secondsText (d : Duration) : String := Text.decimal d.seconds

/-- All settings, in the order of the help. -/
def all : List Setting := [componentNamespace, operatorComponent, repository, helmBinary, helmTimeout, backoff,
  syncInterval, probeAddress, metricsAddress, logLevel, logJson, printDefinition, help, version]

/-- The description of each setting. -/
def description : Setting → Description
  | componentNamespace => {
      long := "namespace", kind := .anyText, environmentName := some "NAMESPACE", default := some untold.namespace
      help := "Namespace holding the Components" }
  | operatorComponent => {
      long := "operator-component-name", kind := .anyText, environmentName := some "OPERATOR_COMPONENT_NAME"
      default := some untold.operatorComponent, help := "Name of the Component that deployed this operator" }
  | repository => {
      long := "helm-repository", kind := .anyText, environmentName := some "HELM_REPOSITORY"
      default := some untold.repository, help := "Helm repository prefixing every chart reference" }
  | helmBinary => {
      long := "helm-binary", kind := .anyText, environmentName := some "HELM_BINARY"
      default := some untold.helmBinary
      help := "Helm binary" }
  | helmTimeout => {
      long := "helm-timeout-secs", kind := .seconds, environmentName := some "HELM_TIMEOUT_SECS"
      default := some (secondsText untold.helmTimeout), help := "Timeout of a chart install or upgrade in seconds" }
  | backoff => {
      long := "requeue-backoff-secs", kind := .seconds, environmentName := some "REQUEUE_BACKOFF_SECS"
      default := some (secondsText untold.backoff), help := "Backoff before retrying a failed operation in seconds" }
  | syncInterval => {
      long := "health-sync-interval-secs", kind := .seconds, environmentName := some "HEALTH_SYNC_INTERVAL_SECS"
      default := some (secondsText untold.syncInterval), help := "Interval of the periodic health sync in seconds" }
  | probeAddress => {
      long := "probe-addr", kind := .anyText, environmentName := some "PROBE_ADDR", default := some "0.0.0.0:8081"
      help := "Health probe bind address" }
  | metricsAddress => {
      long := "metrics-addr", kind := .anyText, environmentName := some "METRICS_ADDR"
      default := some "0.0.0.0:8080", help := "Metrics server bind address" }
  | logLevel => {
      long := "log-level", kind := .anyText, environmentName := some "LOG_LEVEL", default := some "info"
      help := "Log level (trace, debug, info, warn, error)" }
  | logJson => {
      long := "log-json", kind := .switch, environmentName := some "LOG_JSON", help := "Output logs as JSON" }
  | printDefinition => {
      long := "print-crd", kind := .switch, help := "Print the Component CRD as YAML and exit" }
  | help => { long := "help", short := some 'h', kind := .switch, help := "Print help" }
  | version => { long := "version", short := some 'V', kind := .switch, help := "Print version" }

/-- The setting with a long name. -/
def ofLong? (name : String) : Option Setting := all.find? (·.description.long == name)

/-- The setting with a letter. -/
def ofShort? (c : Char) : Option Setting := all.find? (·.description.short == some c)

theorem mem_all (s : Setting) : s ∈ all := by cases s <;> decide

/-- No two settings share a long name. -/
theorem ofLong?_long (s : Setting) : ofLong? s.description.long = some s := by cases s <;> rfl

/-- A value has to follow on the command line. -/
def takesValue (s : Setting) : Bool := s.description.kind != .switch

/-- A setting as it is shown, with the place of its value. -/
def shown (s : Setting) : String :=
  let long := s.description.long
  let place := String.ofList (long.toList.map fun c => if c = '-' then '_' else c.toUpper)
  "--" ++ long ++ (if s.takesValue then " <" ++ place ++ ">" else "")

end Setting

/-- Why a text is not a number of seconds. -/
inductive NumberFault
  | empty | invalidDigit | tooLarge
  deriving DecidableEq, Repr

/-- The text of a fault. -/
def NumberFault.text : NumberFault → String
  | empty => "cannot parse integer from empty string"
  | invalidDigit => "invalid digit found in string"
  | tooLarge => "number too large to fit in target type"

/-- Numbers of seconds are below this limit. -/
def secondsLimit : Nat := twoTo 64

/-- Reads the next digit of a number. -/
def addDigit (n : Nat) (c : Char) : Except NumberFault Nat :=
  if !Text.isDigit c then .error .invalidDigit
  else if 10 * n + Text.digitValue c < secondsLimit then .ok (10 * n + Text.digitValue c)
  else .error .tooLarge

/-- Reads a number of seconds; the first fault from the left counts. -/
def readSeconds (s : String) : Except NumberFault Nat :=
  match s.toList with
  | [] => .error .empty
  | ['+'] => .error .invalidDigit
  | '+' :: cs => cs.foldlM addDigit 0
  | cs => cs.foldlM addDigit 0

/-- The values of a switch. -/
def switchValues : List String := ["true", "false"]

end ChartOperator.CommandLine
