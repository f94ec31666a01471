import ChartOperator.Health.Update
import ChartOperator.World

set_option autoImplicit false

/-!
# Periodic health updates

The health of all components is updated at fixed intervals, and marked as no longer observed when the
updates are cancelled. The first round is one interval after the start, since everything was updated when
the operator started. A round that fails does not end the updates.
-/

namespace ChartOperator

/-- Runs rounds of updates, one interval apart, while they start before the end. -/
def syncRounds (config : Config) (interval : Duration) : (rounds : Nat) → World → World.Ending Unit × World
  | 0, w => (.finished (), w)
  | rounds + 1, w =>
    match (w.pass interval).run (updateAllHealth config).run with
    | (.finished _, w) => syncRounds config interval rounds w
    | (.crashed, w) => (.crashed, w)
    | (.held, w) => (.held, w)

/-- How many rounds start within a time. -/
def roundsWithin (interval time : Duration) : Nat := time.nanoseconds / interval.nanoseconds

/-- Updates health periodically for a time, and marks it as no longer observed in the end. Without an
interval this crashes. -/
def syncHealth (config : Config) (interval time : Duration) (w : World) :
    World.Ending (Except Failure Unit) × World :=
  if interval.isZero then (.crashed, w) else
  match syncRounds config interval (roundsWithin interval time) w with
  | (.crashed, w) => (.crashed, w)
  | (.held, w) => (.held, w)
  | (.finished _, after) => { after with clock := w.clock + time.nanoseconds }.run (endSync config).run

end ChartOperator
