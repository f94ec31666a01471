import ChartOperator.Program

set_option autoImplicit false

/-!
# Changes of a stored component

The changes that the lifecycle operations make. Each is made on a fresh copy and touches nothing but what
its name says.
-/

namespace ChartOperator

/-- Sets the lifecycle status, and the installed version if one is given. -/
def ComponentStatus.advanced (status : Lifecycle) (installed : Option String) (s : ComponentStatus) :
    ComponentStatus :=
  { s with lifecycle := status, installedVersion := installed.orElse fun _ => s.installedVersion }

namespace Mutation

/-- A change of the status. -/
def ofStatus (target : String) (missingIsDone : Bool) (f : ComponentStatus → ComponentStatus) : Mutation where
  target := target
  missingIsDone := missingIsDone
  edit c := some (.status (c.mapStatus f))

/-- Persists a lifecycle status. -/
def setStatus (target : String) (status : Lifecycle) (installed : Option String) : Mutation :=
  ofStatus target false (.advanced status installed)

/-- Adds the own finalizer. -/
def addFinalizer (target : String) : Mutation where
  target := target
  missingIsDone := false
  edit c := if c.hasFinalizer then none else some (.object c.addFinalizer)

/-- Removes the own finalizer. A component that is gone needs none. -/
def removeFinalizer (target : String) : Mutation where
  target := target
  missingIsDone := true
  edit c := if c.hasFinalizer then some (.object c.removeFinalizer) else none

/-- Records a version as the wanted one. -/
def setVersion (target version : String) : Mutation where
  target := target
  missingIsDone := false
  edit c := some (.object { c with spec := { c.spec with version } })

/-- Falls back to a lifecycle status with a backoff, of which 64 bits are kept. -/
def fallBack (target : String) (status : Lifecycle) (backoff : Duration) : Mutation :=
  ofStatus target false fun s =>
    { s with lifecycle := status, backoffNanos := backoff.nanoseconds % twoTo 64 }

/-- Clears the backoff. A component that is gone has none. -/
def clearBackoff (target : String) : Mutation :=
  ofStatus target true fun s => { s with backoffNanos := 0 }

/-- Persists a health verdict, and the installed version if one is given. -/
def setHealth (target : String) (verdict : Health) (installed : Option String) : Mutation :=
  ofStatus target false fun s =>
    { s with health := verdict, installedVersion := installed.orElse fun _ => s.installedVersion }

end Mutation

end ChartOperator
