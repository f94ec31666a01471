import ChartOperator.Program
import ChartOperator.Retry
import ChartOperator.World.Charts
import ChartOperator.World.Components
import ChartOperator.World.Workloads

set_option autoImplicit false

/-!
# A world to run programs in

A world holds the three stores that programs call, what programs left behind, a clock, and the faults that
calls will meet. `World.perform` answers one call, and `World.run` runs a program to its end. Every call is
traced before it is answered.
-/

namespace ChartOperator

/-- The channels that calls go through. -/
inductive Channel
  | componentGet | componentList | componentUpdate | componentUpdateStatus
  | workloadList | workloadGet
  | chartInstall | chartUninstall | chartList | chartDependencies | chartReleaseValues | chartSpecValues
  deriving DecidableEq, Repr

namespace Channel

/-- Every channel. -/
def all : List Channel := [componentGet, componentList, componentUpdate, componentUpdateStatus, workloadList,
  workloadGet, chartInstall, chartUninstall, chartList, chartDependencies, chartReleaseValues, chartSpecValues]

/-- The name of a channel. -/
def text : Channel → String
  | componentGet => "components.get"
  | componentList => "components.list"
  | componentUpdate => "components.update"
  | componentUpdateStatus => "components.update_status"
  | workloadList => "workloads.list"
  | workloadGet => "workloads.get"
  | chartInstall => "charts.install_or_upgrade"
  | chartUninstall => "charts.uninstall"
  | chartList => "charts.list"
  | chartDependencies => "charts.dependencies"
  | chartReleaseValues => "charts.release_values"
  | chartSpecValues => "charts.spec_values"

/-- The channel with a name. -/
def ofText? (s : String) : Option Channel := all.find? (·.text == s)

/-- Whether a channel leads to the store of components. -/
def ofComponents : Channel → Bool
  | componentGet | componentList | componentUpdate | componentUpdateStatus => true
  | _ => false

end Channel

/-- The channel of a call. -/
def Call.channel : Call → Channel
  | getComponent _ => .componentGet
  | listComponents => .componentList
  | updateComponent _ => .componentUpdate
  | updateStatus _ => .componentUpdateStatus
  | listWorkloads _ _ _ => .workloadList
  | getWorkload _ _ _ => .workloadGet
  | installOrUpgrade _ _ => .chartInstall
  | uninstall _ _ => .chartUninstall
  | listReleases => .chartList
  | checkDependencies _ => .chartDependencies
  | releaseValues _ => .chartReleaseValues
  | specValues _ => .chartSpecValues

/-- What may happen to a call. -/
inductive Fault
  /-- It fails instead of being answered. -/
  | error (e : Failure)
  /-- Another writer changes a component first. -/
  | touch (name : String)
  /-- It is answered as if nothing were deployed. -/
  | empty
  /-- It crashes. -/
  | crash

/-- How a call ends. -/
inductive Outcome (c : Call)
  | answered (a : c.Answer)
  | crashed
  /-- It waits for somebody. -/
  | held

/-- A call that was made, and its answer if it had one. -/
structure Traced where
  time : Nat
  call : Call
  answer : Option call.Answer

/-- A world. -/
structure World where
  components : ComponentStore
  workloads : WorkloadStore := {}
  charts : ChartStore := {}
  /-- What programs left behind, last first. -/
  events : List Event := []
  counts : List Metric := []
  /-- The faults that the calls on a channel will meet, in their order; none leaves a call alone. -/
  faults : List (Channel × List (Option Fault)) := []
  /-- Nanoseconds since the start. -/
  clock : Nat := 0
  /-- The calls that were made, last first. -/
  trace : List Traced := []

namespace World

/-- The faults that a channel will meet. -/
def faultsOf (w : World) (p : Channel) : List (Option Fault) :=
  ((w.faults.find? (·.1 == p)).map (·.2)).getD []

/-- Sets the faults that a channel will meet. -/
def setFaults (w : World) (p : Channel) (fs : List (Option Fault)) : World :=
  { w with faults := (p, fs) :: w.faults.filter fun e => e.1 ≠ p }

/-- Takes the fault that the next call on a channel meets. -/
def takeFault (w : World) (p : Channel) : Option Fault × World :=
  match w.faultsOf p with
  | [] => (none, w)
  | f :: fs => (f, w.setFaults p fs)

/-- A world with another store of components. -/
def withComponents {α : Type} (w : World) (r : α × ComponentStore) : α × World :=
  (r.1, { w with components := r.2 })

/-- A world with another chart client. -/
def withCharts {α : Type} (w : World) (r : α × ChartStore) : α × World := (r.1, { w with charts := r.2 })

/-- What the stores answer to a call; nothing if the call waits. -/
def serve (w : World) : (c : Call) → Option c.Answer × World
  | .getComponent name => (some (w.components.get name), w)
  | .listComponents => (some w.components.list, w)
  | .updateComponent c => let (r, w) := w.withComponents (w.components.update c); (some r, w)
  | .updateStatus c => let (r, w) := w.withComponents (w.components.updateStatus c); (some r, w)
  | .listWorkloads kind space selector => (some (w.workloads.list kind space selector), w)
  | .getWorkload kind space name => (some (w.workloads.get kind space name), w)
  | .installOrUpgrade spec detached => w.withCharts (w.charts.install spec detached)
  | .uninstall release space => let (r, w) := w.withCharts (w.charts.uninstall release space); (some r, w)
  | .listReleases => (some (.ok w.charts.releases), w)
  | .checkDependencies spec => let (r, w) := w.withCharts (w.charts.checkDependencies spec); (some r, w)
  | .releaseValues r => (some (.ok (w.charts.valuesOf r.name)), w)
  | .specValues spec => (some (Values.ofOverlay spec.valuesOverlay), w)

/-- The failure of a detached order that crashed. -/
def crashFailure : Failure := .internal "upgrade task failed: crashed"

/-- The crash of a call. A detached order reports it. -/
def crash : (c : Call) → Outcome c
  | .installOrUpgrade _ true => .answered (.error crashFailure)
  | _ => .crashed

/-- The answer as if nothing were deployed, for the call that asks for what is. -/
def emptyAnswer? : (c : Call) → Option c.Answer
  | .listReleases => some (.ok [])
  | _ => none

/-- The outcome of an answer. -/
def outcomeOf {c : Call} : Option c.Answer → Outcome c
  | some a => .answered a
  | none => .held

/-- How a call ends that meets a fault or none. -/
def meet (w : World) (c : Call) : Option Fault → Outcome c × World
  | none => let (a, w) := w.serve c; (outcomeOf a, w)
  | some (.error e) => (.answered (.error e), w)
  | some (.touch name) =>
    let w := if c.channel.ofComponents then { w with components := w.components.touch name } else w
    let (a, w) := w.serve c
    (outcomeOf a, w)
  | some .empty =>
    match emptyAnswer? c with
    | some a => (.answered a, w)
    | none => let (a, w) := w.serve c; (outcomeOf a, w)
  | some .crash =>
    if c.channel.ofComponents then let (a, w) := w.serve c; (outcomeOf a, w)
    else (crash c, w)

/-- The answer of an outcome. -/
def answerOf? {c : Call} : Outcome c → Option c.Answer
  | .answered a => some a
  | _ => none

/-- Makes a call. -/
def perform (w : World) (c : Call) : Outcome c × World :=
  let (fault, met) := w.takeFault c.channel
  let (outcome, after) := met.meet c fault
  (outcome, { after with trace := ⟨w.clock, c, answerOf? outcome⟩ :: w.trace })

/-- Leaves a note. -/
def leave (w : World) : Note → World
  | .event e => { w with events := e :: w.events }
  | .count m => { w with counts := m :: w.counts }

/-- A call that is always answered, since it neither crashes nor waits. -/
def ask (w : World) (c : Call) : c.Answer × World :=
  match w.perform c with
  | (.answered a, w) => (a, w)
  | (_, w) => (.error (.internal "unanswered"), w)

/-- Stores a write. -/
def store (w : World) : Write → Except Failure Component × World
  | .object c => w.ask (.updateComponent c)
  | .status c => w.ask (.updateStatus c)

/-- One attempt to make a change. -/
def attempt (m : Mutation) (w : World) : Except Failure (Option Component) × World :=
  match w.ask (.getComponent m.target) with
  | (.error e, w) => (if m.missingIsDone && e.isNotFound then .ok none else .error e, w)
  | (.ok fresh, w) =>
    match m.edit fresh with
    | none => (.ok none, w)
    | some write =>
      match w.store write with
      | (.ok stored, w) => (.ok (some stored), w)
      | (.error e, w) => (.error e, w)

/-- A bound on how many attempts may still lose a race. -/
def disturbances (w : World) : Nat :=
  w.components.pendingConflicts + (w.faults.flatMap (·.2)).length

/-- Makes a change. -/
def change (w : World) (m : Mutation) : Except Failure (Option Component) × World :=
  retryOnConflict (attempt m) w.disturbances w

/-- How a program ends. -/
inductive Ending (α : Type)
  | finished (result : α)
  | crashed
  /-- It waits for somebody, and is dropped. -/
  | held

/-- Runs a program. -/
def run {α : Type} (w : World) : Program α → Ending α × World
  | .done a => (.finished a, w)
  | .call c next =>
    match w.perform c with
    | (.answered a, w) => w.run (next a)
    | (.crashed, w) => (.crashed, w)
    | (.held, w) => (.held, w)
  | .mutate m next =>
    let (r, w) := w.change m
    w.run (next r)
  | .note n next => (w.leave n).run next

/-- Lets time pass. -/
def pass (w : World) (d : Duration) : World := { w with clock := w.clock + d.nanoseconds }

/-- Lets one order through the gate of the chart client, and what follows happen. -/
def letThrough (w : World) : World :=
  { w with charts := w.charts.letThrough }.pass (.ofMilliseconds 5)

end World

end ChartOperator
