import ChartOperator.Proofs.Concurrency.Turns

set_option autoImplicit false

/-!
# Attempts until no race is lost

`Attempts` is the loop that runs an attempt again and again: behind a lost race a policy is asked for a pause, and
the next attempt follows it. How long the pauses are is left to the policy; all that counts is that it offers one
however many there were before. `LostRace` says which outcomes are lost races, whatever the failure is wrapped in.

With such a policy the loop ends with the first outcome that is no lost race, and has made the attempts up to that
one (`retried_until_decided`). It says the same of `retryOnConflict`, which bounds the lost races, where the bound
leaves room for them. For a change in a world there is always room, so the bound cuts nothing off
(`World.attempts_change_iff`).
-/

namespace ChartOperator

/-! ## Lost races -/

/-- Another writer was faster: the store says so, or the cluster does, whatever steps the failure is wrapped in. -/
inductive Failure.Lost : Failure → Prop
  | conflict (kind name : String) : Lost (.conflict kind name)
  | refused {s : ApiStatus} (hcode : s.code = 409) : Lost (.cluster (.api s))
  | context (message : String) {e : Failure} (h : Lost e) : Lost (.context message e)
  | evaluation (component : String) {e : Failure} (h : Lost e) : Lost (.evaluation component e)
  | requeueable (message : String) {e : Failure} (h : Lost e) : Lost (.requeueable message e)

theorem Failure.isConflict_eq_true_iff {e : Failure} : e.isConflict = true ↔ e.Lost := by
  constructor
  · intro h
    fun_induction isConflict e with
    | case1 kind name => exact .conflict kind name
    | case2 message e ih => exact .context message (ih h)
    | case3 component e ih => exact .evaluation component (ih h)
    | case4 message e ih => exact .requeueable message (ih h)
    | case5 s => exact .refused (eq_of_beq h)
    | case6 => cases h
  · intro h
    induction h with
    | conflict => rfl
    | refused hcode => exact beq_iff_eq.2 hcode
    | context _ _ ih => exact ih
    | evaluation _ _ ih => exact ih
    | requeueable _ _ ih => exact ih

/-- An attempt ends with a lost race. -/
def LostRace {α : Type} (o : Except Failure α) : Prop := ∃ e, o = .error e ∧ e.Lost

theorem isLostRace_eq_true_iff {α : Type} {o : Except Failure α} : isLostRace o = true ↔ LostRace o := by
  cases o with
  | ok a => exact ⟨nofun, nofun⟩
  | error e =>
    refine Failure.isConflict_eq_true_iff.trans ⟨fun h => ⟨e, rfl, h⟩, ?_⟩
    rintro ⟨e', he, h⟩
    obtain rfl := Except.error.inj he
    exact h

theorem isLostRace_eq_false_iff {α : Type} {o : Except Failure α} : isLostRace o = false ↔ ¬ LostRace o := by
  rw [← isLostRace_eq_true_iff, Bool.not_eq_true]

/-! ## The loop -/

section

variable {π σ α : Type} {pause? : π → Option (Duration × π)} {attempt : σ → Except Failure α × σ} {p : π} {s : σ}
  {k n : Nat} {r : Except Failure α × σ}

/-- The state behind a number of attempts. -/
def stateAt (attempt : σ → Except Failure α × σ) (s : σ) : Nat → σ
  | 0 => s
  | n + 1 => stateAt attempt (attempt s).2 n

/-- The outcome of the attempt with a position, counted from zero. -/
def outcomeAt (attempt : σ → Except Failure α × σ) (s : σ) (n : Nat) : Except Failure α :=
  (attempt (stateAt attempt s n)).1

/-- The runs of an attempt, with their number and the result: one that loses no race ends them, and so does one
behind which the policy offers no pause. -/
inductive Attempts (pause? : π → Option (Duration × π)) (attempt : σ → Except Failure α × σ) :
    π → σ → Nat → Except Failure α × σ → Prop
  | decided {p : π} {s : σ} (hdecided : isLostRace (attempt s).1 = false) : Attempts pause? attempt p s 1 (attempt s)
  | given {p : π} {s : σ} (hlost : isLostRace (attempt s).1 = true) (hnone : pause? p = none) :
    Attempts pause? attempt p s 1 (attempt s)
  | again {p p' : π} {s : σ} {d : Duration} {k : Nat} {r : Except Failure α × σ}
    (hlost : isLostRace (attempt s).1 = true) (hpause : pause? p = some (d, p'))
    (hrest : Attempts pause? attempt p' (attempt s).2 k r) : Attempts pause? attempt p s (k + 1) r

/-- The first outcome that is no lost race is the one that the attempts end with, and the one behind which no
attempt is made. -/
theorem attempts_iff (hpause : ∀ p, (pause? p).isSome = true)
    (hlost : ∀ i < n, isLostRace (outcomeAt attempt s i) = true)
    (hdecided : isLostRace (outcomeAt attempt s n) = false) :
    Attempts pause? attempt p s k r ↔ k = n + 1 ∧ r = (outcomeAt attempt s n, stateAt attempt s (n + 1)) := by
  induction n generalizing p s k with
  | zero =>
    constructor
    · intro h
      cases h with
      | decided => exact ⟨rfl, rfl⟩
      | given hrace | again hrace =>
        rw [outcomeAt, stateAt, hrace] at hdecided
        cases hdecided
    · rintro ⟨rfl, rfl⟩
      exact .decided hdecided
  | succ n ih =>
    have hfirst : isLostRace (attempt s).1 = true := hlost 0 (Nat.succ_pos n)
    have hlater : ∀ i < n, isLostRace (outcomeAt attempt (attempt s).2 i) = true :=
      fun i hi => hlost (i + 1) (Nat.succ_lt_succ hi)
    obtain ⟨⟨d, p'⟩, hp⟩ := Option.isSome_iff_exists.1 (hpause p)
    constructor
    · intro h
      cases h with
      | decided hrace =>
        rw [hfirst] at hrace
        cases hrace
      | given _ hnone =>
        rw [hp] at hnone
        cases hnone
      | again _ _ hrest =>
        obtain ⟨rfl, rfl⟩ := (ih hlater hdecided).1 hrest
        exact ⟨rfl, rfl⟩
    · rintro ⟨rfl, rfl⟩
      exact .again hfirst hp ((ih hlater hdecided).2 ⟨rfl, rfl⟩)

/-- Where a bound leaves room for the lost races, it makes no difference. -/
theorem retryOnConflict_eq (hlost : ∀ i < n, isLostRace (outcomeAt attempt s i) = true)
    (hdecided : isLostRace (outcomeAt attempt s n) = false) {room : Nat} (hroom : n ≤ room) :
    retryOnConflict attempt room s = (outcomeAt attempt s n, stateAt attempt s (n + 1)) := by
  induction n generalizing s room with
  | zero => exact retryOnConflict_of_decided hdecided room
  | succ n ih =>
    cases room with
    | zero => cases hroom
    | succ room =>
      have hfirst : isLostRace (attempt s).1 = true := hlost 0 (Nat.succ_pos n)
      rw [retryOnConflict_of_conflict hfirst]
      exact ih (fun i hi => hlost (i + 1) (Nat.succ_lt_succ hi)) hdecided (Nat.le_of_succ_le_succ hroom)

/-- What a bounded loop ends with is the first outcome that is no lost race, unless it is one itself. -/
theorem exists_decided_of_retryOnConflict {room : Nat}
    (h : isLostRace (retryOnConflict attempt room s).1 = false) :
    ∃ n ≤ room, (∀ i < n, isLostRace (outcomeAt attempt s i) = true) ∧
      isLostRace (outcomeAt attempt s n) = false := by
  induction room generalizing s with
  | zero => exact ⟨0, Nat.le_refl 0, nofun, h⟩
  | succ room ih =>
    cases hfirst : isLostRace (attempt s).1 with
    | false => exact ⟨0, Nat.zero_le _, nofun, hfirst⟩
    | true =>
      rw [retryOnConflict_of_conflict hfirst] at h
      obtain ⟨n, hn, hlost, hdecided⟩ := ih h
      refine ⟨n + 1, Nat.succ_le_succ hn, fun i hi => ?_, hdecided⟩
      cases i with
      | zero => exact hfirst
      | succ i => exact hlost i (Nat.lt_of_succ_lt_succ hi)

/-- Attempts are made up to the first outcome that is no lost race, with position `n`: exactly these, whatever comes
behind it, as long as the policy offers a pause behind every lost race. That outcome is the result as it is, success
or failure. A bound on the lost races changes nothing if it leaves room for those. -/
theorem retried_until_decided (hpause : ∀ p, (pause? p).isSome = true) (attempt : σ → Except Failure α × σ) (s : σ)
    (n : Nat) (hlost : ∀ i < n, LostRace (outcomeAt attempt s i)) (hdecided : ¬ LostRace (outcomeAt attempt s n)) :
    (∀ p k r, Attempts pause? attempt p s k r ↔
      k = n + 1 ∧ r = (outcomeAt attempt s n, stateAt attempt s (n + 1))) ∧
    ∀ room, n ≤ room →
      retryOnConflict attempt room s = (outcomeAt attempt s n, stateAt attempt s (n + 1)) := by
  have hraces : ∀ i < n, isLostRace (outcomeAt attempt s i) = true :=
    fun i hi => isLostRace_eq_true_iff.2 (hlost i hi)
  have hnone : isLostRace (outcomeAt attempt s n) = false := isLostRace_eq_false_iff.2 hdecided
  exact ⟨fun p k r => attempts_iff hpause hraces hnone, fun room => retryOnConflict_eq hraces hnone⟩

end

/-- Two lost races, one of them in two wrappings, and a refusal: three attempts, and the refusal is the result. -/
theorem retried_until_refused :
    let lost := Failure.conflict "Component" "dogu-op"
    let refused := Failure.cluster (.api ⟨"Failure", "forbidden", "Forbidden", 403⟩)
    let listed := [some (lost.requeueable "failed to set status" |>.context "pass"), some lost, some refused, none]
    let pause? := fun longest : Duration => some (longest, longest)
    (∀ p, (pause? p).isSome = true) ∧ (∀ i < 2, LostRace (outcomeAt listedAttempt (listed, 0) i)) ∧
      ¬ LostRace (outcomeAt listedAttempt (listed, 0) 2) ∧
      Attempts pause? listedAttempt (.ofSeconds 30) (listed, 0) 3 (.error refused, [none], 3) ∧
      retryOnConflict listedAttempt 4 (listed, 0) = (.error refused, [none], 3) := by
  intro lost refused listed pause?
  have hpause : ∀ p, (pause? p).isSome = true := fun _ => rfl
  have hlost : ∀ i < 2, LostRace (outcomeAt listedAttempt (listed, 0) i) := by
    intro i hi
    match i, hi with
    | 0, _ => exact ⟨_, rfl, .context _ (.requeueable _ (.conflict _ _))⟩
    | 1, _ => exact ⟨_, rfl, .conflict _ _⟩
  have hdecided : ¬ LostRace (outcomeAt listedAttempt (listed, 0) 2) := by
    rw [← isLostRace_eq_false_iff]
    rfl
  obtain ⟨hattempts, hbounded⟩ := retried_until_decided hpause listedAttempt (listed, 0) 2 hlost hdecided
  exact ⟨hpause, hlost, hdecided, (hattempts _ _ _).2 ⟨rfl, rfl⟩, hbounded 4 (by decide)⟩

/-! ## Attempts of a fixed sequence -/

section

variable {α : Type} {es : List (Option Failure)} {n : Nat}

/-- The attempts whose outcomes are a sequence; the state is the number of those that were made. -/
def attemptsOf (outcomes : Nat → Except Failure α) (n : Nat) : Except Failure α × Nat := (outcomes n, n + 1)

theorem stateAt_attemptsOf (outcomes : Nat → Except Failure α) (m n : Nat) :
    stateAt (attemptsOf outcomes) m n = m + n := by
  induction n generalizing m with
  | zero => rfl
  | succ n ih =>
    rw [stateAt, attemptsOf, ih]
    omega

/-- Every sequence of outcomes is that of some attempts. -/
theorem outcomeAt_attemptsOf (outcomes : Nat → Except Failure α) (n : Nat) :
    outcomeAt (attemptsOf outcomes) 0 n = outcomes n := by
  rw [outcomeAt, stateAt_attemptsOf, Nat.zero_add, attemptsOf]

/-- The outcome that a list of failures has for an attempt. -/
def listedOutcome (es : List (Option Failure)) (n : Nat) : Except Failure Nat :=
  match es[n]? with
  | some (some e) => .error e
  | _ => .ok n

theorem stateAt_listedAttempt (es : List (Option Failure)) (m n : Nat) :
    stateAt listedAttempt (es, m) n = (es.drop n, m + n) := by
  induction n generalizing es m with
  | zero => rfl
  | succ n ih =>
    match es with
    | [] | some e :: es | none :: es =>
      simp only [stateAt, listedAttempt, ih, List.drop_nil, List.drop_succ_cons, Nat.add_assoc, Nat.add_comm 1]

theorem outcomeAt_listedAttempt (es : List (Option Failure)) (n : Nat) :
    outcomeAt listedAttempt (es, 0) n = listedOutcome es n := by
  rw [outcomeAt, stateAt_listedAttempt, Nat.zero_add, listedOutcome, ← List.head?_drop]
  match es.drop n with
  | [] | some e :: _ | none :: _ => rfl

/-- Attempts that fail as listed are made up to the first that is not listed with a lost race. -/
theorem retryListed_eq (hlost : ∀ i < n, LostRace (listedOutcome es i)) (hdecided : ¬ LostRace (listedOutcome es n)) :
    retryListed es = (listedOutcome es n, n + 1) := by
  have hroom : n ≤ es.length := by
    refine Nat.le_of_not_lt fun hlong => ?_
    obtain ⟨e, he, -⟩ := hlost es.length hlong
    simp [listedOutcome] at he
  have heq : retryOnConflict listedAttempt es.length (es, 0) =
      (outcomeAt listedAttempt (es, 0) n, stateAt listedAttempt (es, 0) (n + 1)) := by
    refine retryOnConflict_eq (fun i hi => ?_) ?_ hroom
    · rw [outcomeAt_listedAttempt]
      exact isLostRace_eq_true_iff.2 (hlost i hi)
    · rw [outcomeAt_listedAttempt]
      exact isLostRace_eq_false_iff.2 hdecided
  rw [retryListed, heq, outcomeAt_listedAttempt, stateAt_listedAttempt, Nat.zero_add]

end

/-! ## Changes -/

/-- A change in a world ends as it would if its attempts were not bounded. -/
theorem World.attempts_change_iff {π : Type} {pause? : π → Option (Duration × π)}
    (hpause : ∀ p, (pause? p).isSome = true) {m : Mutation} (hm : m.Sound) (w : World) (p : π)
    (r : Except Failure (Option Component) × World) :
    (∃ k, Attempts pause? (attempt m) p w k r) ↔ r = w.change m := by
  obtain ⟨n, hroom, hlost, hdecided⟩ := exists_decided_of_retryOnConflict (isLostRace_change hm w)
  have hchange : w.change m = (outcomeAt (attempt m) w n, stateAt (attempt m) w (n + 1)) :=
    retryOnConflict_eq hlost hdecided hroom
  rw [hchange]
  constructor
  · rintro ⟨k, h⟩
    exact ((attempts_iff hpause hlost hdecided).1 h).2
  · rintro rfl
    exact ⟨n + 1, (attempts_iff hpause hlost hdecided).2 ⟨rfl, rfl⟩⟩

end ChartOperator
