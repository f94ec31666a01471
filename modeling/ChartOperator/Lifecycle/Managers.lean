import ChartOperator.Health.Update
import ChartOperator.Lifecycle.Operation

set_option autoImplicit false

/-!
# Carrying out an operation

The three operations, step by step. A status is persisted before the chart client is called, and every
failed step is taken up again later; its name tells which one it was.
-/

namespace ChartOperator

/-- The order that a component gives. -/
def chartSpecOf (config : Config) (c : Component) : ChartSpec :=
  .forComponent c config.repository config.helmTimeout

/-- The deployed release of a component, if there is one. -/
def findRelease (c : Component) : Errand (Option Release) := do
  return releaseOf? c (← Errand.ask .listReleases)

/-- Persists a lifecycle status, and the installed version if one is given. -/
def persistStatus (c : Component) (status : Lifecycle) (installed : Option String) :
    Errand (Option Component) :=
  Errand.change (.setStatus c.name status installed)

/-- The version that was deployed for a component that asks for none. -/
def deployedVersionOf (c : Component) : Errand String := do
  match ← findRelease c with
  | some r => return r.appVersion
  | none => throw (.notFound "Release" c.spec.name)

/-- The version that an installation led to. If the component asked for none, the deployed one is recorded
as the wanted one. -/
def settledVersion (c : Component) : Errand String := do
  if !c.spec.version.isEmpty then return c.spec.version
  let version ← (deployedVersionOf c).orRequeue "failed to read deployed version"
  discard ((Errand.change (.setVersion c.name version)).orRequeue "failed to update version in component spec")
  return version

/-- Installs a component. The finalizer is added before the release is made. -/
def install (config : Config) (c : Component) : Errand Unit := do
  let chart := chartSpecOf config c
  (Errand.ask (.checkDependencies chart)).orRequeue "failed to check dependencies"
  discard ((persistStatus c .installing none).orRequeue "failed to set status installing")
  discard ((Errand.change (.addFinalizer c.name)).orRequeue "failed to add finalizer")
  (Errand.ask (.installOrUpgrade chart false)).orRequeue "failed to install chart"
  let version ← settledVersion c
  discard ((persistStatus c .installed none).orRequeue "failed to set status installed")
  let space := c.metadata.namespace.getD config.namespace
  discard ((updateHealth c.name space (some version)).orRequeue "failed to update health status")

/-- The order of an upgrade. A component that asks for no version keeps the deployed one. -/
def upgradeSpec (config : Config) (c : Component) : Errand ChartSpec := do
  let chart := chartSpecOf config c
  if !chart.version.isEmpty then return chart
  match ← (findRelease c).orRequeue "failed to find deployed release" with
  | some r => return { chart with version := r.appVersion }
  | none => return chart

/-- Upgrades a component. The upgrade itself goes on even if nobody waits for it any more. -/
def upgrade (config : Config) (c : Component) : Errand Unit := do
  let chart ← upgradeSpec config c
  (Errand.ask (.checkDependencies chart)).orRequeue "failed to check dependencies"
  discard ((persistStatus c .upgrading none).orRequeue "failed to set status upgrading")
  (Errand.ask (.installOrUpgrade chart true)).orRequeue "failed to upgrade chart"
  let installed := if chart.version.isEmpty then none else some chart.version
  discard ((persistStatus c .installed installed).orRequeue "failed to set status installed")

/-- Removes the release of a component, and then the finalizer. -/
def delete (c : Component) : Errand Unit := do
  discard ((persistStatus c .deleting none).orRequeue "failed to set status deleting")
  match ← (findRelease c).orRequeue "failed to list deployed releases" with
  | some r => (Errand.ask (.uninstall r.name r.namespace)).orRequeue "failed to uninstall chart"
  | none => pure ()
  discard ((Errand.change (.removeFinalizer c.name)).orRequeue "failed to remove finalizer")

end ChartOperator
