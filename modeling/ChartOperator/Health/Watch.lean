import ChartOperator.Health.Update
import ChartOperator.Workload.Changes
import ChartOperator.Cluster.Client
import ChartOperator.World.Watch

set_option autoImplicit false

/-!
# Keeping health in step with workloads

A watch over the workloads of one kind. Its reports go through a tracker, and for each relevant workload
the health of the component that it belongs to is updated. An update that fails is left to the next
periodic round.
-/

namespace ChartOperator

/-- The workloads that a report makes relevant, and what is known after it. -/
def relevantWorkloads (t : Tracker) : Cluster.Report Workload → List Workload × Tracker
  | .applied w =>
    let (relevant, t) := t.applied w
    (if relevant then [w] else [], t)
  | .deleted w =>
    let (relevant, t) := t.deleted w
    (if relevant then [w] else [], t)
  | .restarted ws =>
    let ((present, gone), t) := t.restarted ws
    (present ++ gone, t)
  | .failed => ([], t)

/-- Updates health for workloads one by one; false if that crashes. -/
def refreshEach : List Workload → World → Bool × World
  | [], w => (true, w)
  | x :: xs, w =>
    match w.run (refreshSeen x).run with
    | (.finished _, w) => refreshEach xs w
    | (_, w) => (false, w)

/-- Takes the reports of a watch over workloads. -/
def healthConsumer : Consumer Workload Tracker where
  take report t w :=
    let (relevant, t) := relevantWorkloads t report
    let (fine, w) := refreshEach relevant w
    (if fine then some t else none, w)
  due? _ := none
  work t w := (some t, w)

/-- The watched workloads: those of a kind that name a component. -/
def workloadSubject (kind : WorkloadKind) («namespace» : String) : Cluster.Subject Workload where
  path := Cluster.workloadsPath kind «namespace»
  label := some Component.nameLabel
  read := Workload.ofObject? kind

end ChartOperator
