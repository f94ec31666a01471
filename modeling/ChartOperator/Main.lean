import ChartOperator.CommandLine.Run
import ChartOperator.Timestamp
import Std.Time

set_option autoImplicit false

/-!
# The program

Reads the arguments, the environment and the clock, and prints what the run of the command line says.
-/

namespace ChartOperator

/-- The present time with microseconds. -/
def presentTime : IO String := do
  let now := (← Std.Time.Timestamp.now).toNanosecondsSinceUnixEpoch.val
  let whole := ({ seconds := now / 1000000000 } : Timestamp).text
  let fraction := String.ofList (Text.paddedDigits 6 ((now % 1000000000) / 1000).toNat)
  return String.ofList (whole.toList.dropLast) ++ "." ++ fraction ++ "Z"

/-- The variables of the environment that the program reads. -/
def readVariables : IO (List (String × String)) := do
  let names := CommandLine.Setting.all.filterMap (·.description.environmentName)
  (names ++ ["KUBECONFIG", "HOME", "NO_COLOR", "RUST_LOG"]).filterMapM fun n => do
    return (← IO.getEnv n).map fun v => (n, v)

end ChartOperator

/-- Runs the program. -/
def main (arguments : List String) : IO UInt32 := do
  let surroundings := ⟨← ChartOperator.readVariables, ← ChartOperator.presentTime⟩
  let ending := ChartOperator.CommandLine.run arguments surroundings
  (← IO.getStdout).putStr ending.output
  (← IO.getStderr).putStr ending.errors
  return ending.code.toUInt32
