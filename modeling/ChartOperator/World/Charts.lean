import ChartOperator.Chart

set_option autoImplicit false

/-!
# A chart client in memory

Deployed releases and the values that they were given. A release is known by its name alone. The client
records the orders that it gets, can be told to fail, and can hold installations at a gate: each waits
until it is let through, and one may be let through ahead of time.
-/

namespace ChartOperator

/-- An order that a chart client got. -/
inductive ChartOrder
  | installOrUpgrade (spec : ChartSpec)
  | uninstall (release «namespace» : String)
  | dependencies (chart : String)
  deriving DecidableEq, Repr

/-- A chart client in memory. -/
structure ChartStore where
  releases : List Release := []
  /-- The values by the name of the release. -/
  values : List (String × Values) := []
  /-- The orders, last first. -/
  orders : List ChartOrder := []
  /-- The version that an order without one gets. -/
  latestVersion : String := "1.0.0"
  installFailure : Option String := none
  uninstallFailure : Option String := none
  dependencyFailure : Option String := none
  /-- Installations wait at the gate. -/
  isGated : Bool := false
  /-- The next installation need not wait. -/
  mayPass : Bool := false
  /-- The orders at the gate that go on without their sender, in their order. -/
  waiting : List ChartSpec := []
  deriving Repr, Inhabited

namespace ChartStore

/-- Records an order. -/
def record (s : ChartStore) (o : ChartOrder) : ChartStore := { s with orders := o :: s.orders }

/-- Sets the values of a release. -/
def setValues (s : ChartStore) (name : String) (vs : Values) : ChartStore :=
  { s with values := (name, vs) :: s.values.filter fun e => e.1 ≠ name }

/-- Registers a release that is already deployed. -/
def register (s : ChartStore) (r : Release) (vs : Values) : ChartStore :=
  { s with releases := s.releases ++ [r] }.setValues r.name vs

/-- The release that an order leads to. -/
def releaseOf (s : ChartStore) (spec : ChartSpec) : Release :=
  let version := if spec.version.isEmpty then s.latestVersion else spec.version
  { name := spec.releaseName, «namespace» := spec.namespace, chartName := spec.chartName,
    chartVersion := version, appVersion := version }

/-- Deploys a release in place of those with its name. Nothing is deployed if its overlay cannot be read. -/
def deploy (s : ChartStore) (spec : ChartSpec) : Except Failure Unit × ChartStore :=
  match Values.ofOverlay spec.valuesOverlay with
  | .error e => (.error e, s)
  | .ok vs =>
    let kept := s.releases.filter fun r => r.name ≠ spec.releaseName
    (.ok (), { s with releases := kept ++ [s.releaseOf spec] }.setValues spec.releaseName vs)

/-- Installs or upgrades a release; no answer means that the order waits at the gate, where a detached one
stays. -/
def install (s : ChartStore) (spec : ChartSpec) (detached : Bool) :
    Option (Except Failure Unit) × ChartStore :=
  let s := s.record (.installOrUpgrade spec)
  match s.installFailure with
  | some m => (some (.error (.chartClient m)), s)
  | none =>
    if s.isGated && !s.mayPass then
      (none, if detached then { s with waiting := s.waiting ++ [spec] } else s)
    else
      let (r, s) := { s with mayPass := s.mayPass && !s.isGated }.deploy spec
      (some r, s)

/-- Lets one order through the gate: the first that waits, else the next that comes. -/
def letThrough (s : ChartStore) : ChartStore :=
  match s.waiting with
  | [] => { s with mayPass := true }
  | spec :: rest => ({ s with waiting := rest }.deploy spec).2

/-- Removes the releases with a name. -/
def uninstall (s : ChartStore) (release «namespace» : String) : Except Failure Unit × ChartStore :=
  let s := s.record (.uninstall release «namespace»)
  match s.uninstallFailure with
  | some m => (.error (.chartClient m), s)
  | none =>
    (.ok (), { s with
      releases := s.releases.filter fun r => r.name ≠ release
      values := s.values.filter fun e => e.1 ≠ release })

/-- Fails if it was told so. -/
def checkDependencies (s : ChartStore) (spec : ChartSpec) : Except Failure Unit × ChartStore :=
  let s := s.record (.dependencies spec.chartName)
  match s.dependencyFailure with
  | some m => (.error (.unsatisfiedDependencies spec.chartName m), s)
  | none => (.ok (), s)

/-- The values that a release was given. -/
def valuesOf (s : ChartStore) (name : String) : Values :=
  ((s.values.find? (·.1 == name)).map (·.2)).getD []

end ChartStore

end ChartOperator
