import ChartOperator.Failure

set_option autoImplicit false

/-!
# Lost races

An attempt that loses a race against another writer is run again, and any other outcome stands. The
attempts act on a state, and `room` bounds how many of them may lose; the last one stands whatever it is.

`retryOnConflict_of_decided` says that an outcome which is no lost race is returned as it is, and
`retryOnConflict_of_conflict` that a lost race is followed by a new attempt.
-/

namespace ChartOperator

/-- Whether an outcome is a lost race. -/
def isLostRace {α : Type} : Except Failure α → Bool
  | .ok _ => false
  | .error e => e.isConflict

/-- Runs an attempt until it loses no race, with room for so many that do. -/
def retryOnConflict {σ α : Type} (attempt : σ → Except Failure α × σ) : (room : Nat) → σ → Except Failure α × σ
  | 0, s => attempt s
  | room + 1, s =>
    let (outcome, s') := attempt s
    if isLostRace outcome then retryOnConflict attempt room s' else (outcome, s')

theorem retryOnConflict_of_decided {σ α : Type} {attempt : σ → Except Failure α × σ} {s : σ}
    (h : isLostRace (attempt s).1 = false) (room : Nat) :
    retryOnConflict attempt room s = attempt s := by
  cases room with
  | zero => rfl
  | succ room => simp [retryOnConflict, h]

theorem retryOnConflict_of_conflict {σ α : Type} {attempt : σ → Except Failure α × σ} {s : σ}
    (h : isLostRace (attempt s).1 = true) (room : Nat) :
    retryOnConflict attempt (room + 1) s = retryOnConflict attempt room (attempt s).2 := by
  simp [retryOnConflict, h]

/-- The attempts of a fixed list of failures, each with its position; behind the list an attempt
succeeds with its position. The state holds what is left and the next position. -/
def listedAttempt : List (Option Failure) × Nat → Except Failure Nat × (List (Option Failure) × Nat)
  | (some e :: rest, n) => (.error e, rest, n + 1)
  | (none :: rest, n) => (.ok n, rest, n + 1)
  | ([], n) => (.ok n, [], n + 1)

/-- The outcome of retried attempts that fail as listed, and how many there were. -/
def retryListed (failures : List (Option Failure)) : Except Failure Nat × Nat :=
  let (outcome, _, count) := retryOnConflict listedAttempt failures.length (failures, 0)
  (outcome, count)

/-- How long to wait before a lost race is run again: the first pause, the factor by which pauses grow,
in tenths, and the longest pause. The number of attempts is not limited. -/
structure RetryPolicy where
  first : Duration
  growthTenths : Nat
  longest : Duration
  deriving DecidableEq, Repr

/-- The policy for lost races. -/
def conflictPolicy : RetryPolicy := ⟨.ofMilliseconds 1500, 15, .ofSeconds 30⟩

end ChartOperator
