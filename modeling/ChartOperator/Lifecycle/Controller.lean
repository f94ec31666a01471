import ChartOperator.Cluster.Client
import ChartOperator.Lifecycle.Reconcile
import ChartOperator.World.Watch

set_option autoImplicit false

/-!
# The controller of components

A watch over all components. A pass is made over each component that is reported, and another one when the
outcome of a pass asks for it. A report makes up for a pass that was still to come. A component that is
reported as deleted is forgotten, and a pass that falls due for it does nothing.
-/

namespace ChartOperator

/-- What a controller knows: the components that exist, and the passes to come. -/
structure Controller where
  known : List String := []
  /-- Names with the time of the next pass, each once, in the order in which they were planned. -/
  planned : List (String × Nat) := []

namespace Controller

/-- The pass that falls due first; of several the one that was planned first. -/
def first? : List (String × Nat) → Option (String × Nat)
  | [] => none
  | p :: ps =>
    match first? ps with
    | none => some p
    | some q => if p.2 ≤ q.2 then some p else some q

/-- Forgets the planned pass over a component. -/
def unplan (c : Controller) (name : String) : Controller :=
  { c with planned := c.planned.filter fun p => p.1 ≠ name }

/-- Plans the pass that the outcome of another one asks for. -/
def plan (c : Controller) (name : String) (now : Nat) : NextPass → Controller
  | .onChange => c
  | .after d => { c.unplan name with planned := (c.unplan name).planned ++ [(name, now + d.nanoseconds)] }

/-- Makes a pass over a component. -/
def pass (config : Config) (name : String) (c : Controller) (w : World) : Option Controller × World :=
  let c := c.unplan name
  match w.run (reconcile config name).run with
  | (.finished (.ok next), w) => (some (c.plan name w.clock next), w)
  | (.finished (.error e), w) => (some (c.plan name w.clock (.ofFailure config e)), w)
  | (.crashed, w) => (none, w)
  | (.held, w) => (some c, w)

/-- Makes a pass over each of several components. -/
def passEach (config : Config) : List String → Controller → World → Option Controller × World
  | [], c, w => (some c, w)
  | n :: ns, c, w =>
    match pass config n c w with
    | (some c, w) => passEach config ns c w
    | (none, w) => (none, w)

/-- Takes a report of the watch. -/
def take (config : Config) (report : Cluster.Report Component) (c : Controller) (w : World) :
    Option Controller × World :=
  match report with
  | .restarted cs => passEach config (cs.map Component.name) { c with known := cs.map Component.name } w
  | .applied x => pass config x.name { c with known := x.name :: c.known } w
  | .deleted x => (some { c with known := c.known.filter (· ≠ x.name) }, w)
  | .failed => (some c, w)

/-- Makes the pass that falls due first. -/
def work (config : Config) (c : Controller) (w : World) : Option Controller × World :=
  match first? c.planned with
  | none => (some c, w)
  | some (name, _) => if c.known.contains name then pass config name c w else (some (c.unplan name), w)

/-- Takes the reports of a watch over components. -/
def consumer (config : Config) : Consumer Component Controller where
  take := take config
  due? c := (first? c.planned).map (·.2)
  work := work config

/-- The watched components: all of a namespace. -/
def subject («namespace» : String) : Cluster.Subject Component where
  path := Cluster.componentsPath «namespace»
  label := none
  read := Component.ofJson?

end Controller

end ChartOperator
