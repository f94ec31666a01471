import ChartOperator.Chart.Helm
import ChartOperator.Chart.Json
import ChartOperator.Cluster.Client
import ChartOperator.CommandLine.Run
import ChartOperator.Health.Sync
import ChartOperator.Health.Watch
import ChartOperator.Lifecycle.Controller
import ChartOperator.Lifecycle.Reconcile
import ChartOperator.Main
import ChartOperator.Workload.Changes
import ChartOperator.Workload.Json
import ChartOperator.World
import ChartOperator.Proofs.World.Stored
import ChartOperator.Proofs.World.Calls
import ChartOperator.Proofs.World.Moments
import ChartOperator.Proofs.World.Rules
import ChartOperator.Proofs.World.Changes
import ChartOperator.Proofs.World.Confined
import ChartOperator.Proofs.Lifecycle.Quiet
import ChartOperator.Proofs.Lifecycle.Orders
import ChartOperator.Proofs.Lifecycle.Namespaces
import ChartOperator.Proofs.Lifecycle.StepOrder
import ChartOperator.Proofs.Concurrency.Turns
import ChartOperator.Proofs.Concurrency.LostUpdates
import ChartOperator.Proofs.World.Assurances
import ChartOperator.Proofs.Lifecycle.Edits
import ChartOperator.Proofs.Lifecycle.Successes
import ChartOperator.Proofs.Lifecycle.Outcomes
import ChartOperator.Proofs.Lifecycle.InFlight
import ChartOperator.Proofs.Lifecycle.Deployments
import ChartOperator.Proofs.Lifecycle.Convergence
import ChartOperator.Proofs.Lifecycle.KeptVersions
import ChartOperator.Proofs.Concurrency.Cores
import ChartOperator.Proofs.Concurrency.Tasks
import ChartOperator.Proofs.Concurrency.Twins
import ChartOperator.Proofs.Concurrency.HealthWriters
import ChartOperator.Proofs.Concurrency.Interleaving
import ChartOperator.Proofs.Chart.Values
import ChartOperator.Proofs.Lifecycle.Choice
import ChartOperator.Proofs.Lifecycle.Refusals
import ChartOperator.Proofs.Lifecycle.Policy
import ChartOperator.Proofs.World.Smooth
import ChartOperator.Proofs.World.Failures
import ChartOperator.Proofs.World.Plain
import ChartOperator.Proofs.Lifecycle.Retries
import ChartOperator.Proofs.Health.Verdicts
import ChartOperator.Proofs.Health.Races
import ChartOperator.Proofs.Health.Shutdown
import ChartOperator.Proofs.Health.Refreshes
import ChartOperator.Proofs.Health.Tracking
import ChartOperator.Proofs.Health.Watches
import ChartOperator.Proofs.Health.Filtering
import ChartOperator.Proofs.Health.Restarts
import ChartOperator.Proofs.Health.Listings
import ChartOperator.Proofs.Health.Sweeps
import ChartOperator.Proofs.Lifecycle.Removals
import ChartOperator.Proofs.World.Optimistic
import ChartOperator.Proofs.Yaml.Suffixes
import ChartOperator.Proofs.Yaml.Padding
import ChartOperator.Proofs.Yaml.Fences
import ChartOperator.Proofs.Yaml.Scanning
import ChartOperator.Proofs.Yaml.Framing
import ChartOperator.Proofs.Chart.Overlays
import ChartOperator.Proofs.Chart.References
import ChartOperator.Proofs.Chart.Dependencies
import ChartOperator.Proofs.Lifecycle.Backoffs
import ChartOperator.Proofs.Lifecycle.RecordedVersions
import ChartOperator.Proofs.Concurrency.Recordings
import ChartOperator.Proofs.Chart.AppVersions
import ChartOperator.Proofs.Concurrency.LostRaces
import ChartOperator.Proofs.Json.Written
import ChartOperator.Proofs.Json.Objects
import ChartOperator.Proofs.Json.Equality
import ChartOperator.Proofs.Component.Timestamps
import ChartOperator.Proofs.Component.RoundTrip
import ChartOperator.Proofs.Chart.SettledValues
import ChartOperator.Proofs.Failure.Layers
