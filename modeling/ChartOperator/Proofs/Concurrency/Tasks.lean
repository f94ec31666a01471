import ChartOperator.Proofs.Concurrency.Cores

set_option autoImplicit false

/-!
# Programs that take turns

`World.run` runs a program in one go. Here programs take turns in one world: in a turn a task makes its next
call at most, and a change is taken apart into its reads and its writes as in `Mutation.turn`. Where no call
meets a fault, the turn of a change in a world is that on its store (`World.turn_of_faultFree`), and what it
leaves alone is said by `World.Beside`.
-/

namespace ChartOperator

open ComponentStore (settled)

/-- A program between two of its turns. -/
inductive Task (α : Type)
  | running (p : Program α)
  /-- A change is being made, and this follows it. -/
  | changing (m : Mutation) (stage : Stage) (next : Except Failure (Option Component) → Program α)
  | ended (ending : World.Ending α)

namespace World

/-- One turn of a change in a world. -/
def turn (w : World) (m : Mutation) : Stage → Stage × World
  | .reading =>
    match w.ask (.getComponent m.target) with
    | (.error e, w) => (if m.missingIsDone && e.isNotFound then .returned (.ok none) else .failed e, w)
    | (.ok fresh, w) =>
      match m.edit fresh with
      | none => (.returned (.ok none), w)
      | some wr => (.writing wr, w)
  | .writing wr =>
    match w.store wr with
    | (.ok stored, w) => (.returned (.ok (some stored)), w)
    | (.error e, w) => (.failed e, w)
  | .returned r => (.returned r, w)

end World

namespace Task

variable {α : Type}

/-- One turn of a task: it leaves a note, or makes a call, or goes on with what it was told. -/
def turn (w : World) : Task α → Task α × World
  | running (.done a) => (ended (.finished a), w)
  | running (.note i next) => (running next, w.leave i)
  | running (.call c next) =>
    match w.perform c with
    | (.answered a, w) => (running (next a), w)
    | (.crashed, w) => (ended .crashed, w)
    | (.held, w) => (ended .held, w)
  | running (.mutate m next) => (changing m .reading next, w)
  | changing _ (.returned r) next => (running (next r), w)
  | changing m stage next => let (stage, w) := w.turn m stage; (changing m stage next, w)
  | ended ending => (ended ending, w)

/-- What follows a call. -/
def after {c : Call} (next : c.Answer → Program α) : Outcome c → Task α
  | .answered a => running (next a)
  | .crashed => ended .crashed
  | .held => ended .held

theorem turn_call (w : World) (c : Call) (next : c.Answer → Program α) :
    (running (.call c next)).turn w = (after next (w.perform c).1, (w.perform c).2) := by
  rw [turn]
  rcases w.perform c with ⟨_ | _ | _, w'⟩ <;> rfl

/-- A change that has not returned takes its turn. -/
theorem turn_changing {w : World} {m : Mutation} {stage : Stage}
    {next : Except Failure (Option Component) → Program α} (hopen : ∀ r, stage ≠ .returned r) :
    (changing m stage next).turn w = (changing m (w.turn m stage).1 next, (w.turn m stage).2) := by
  cases stage with
  | returned r => exact (hopen r rfl).elim
  | _ => rfl

/-- Turn by turn a task that is alone comes to an end. -/
inductive Ends : World → Task α → Prop
  | ended (w : World) (ending : World.Ending α) : Ends w (.ended ending)
  | turn {w : World} {t : Task α} (h : Ends (t.turn w).2 (t.turn w).1) : Ends w t

end Task

/-- The task has ended with this result. -/
def Task.succeedsWith {α : Type} [DecidableEq α] (a : α) : Task (Except Failure α) → Bool
  | ended ending => ending.succeedsWith a
  | _ => false

theorem Task.eq_of_succeedsWith {α : Type} [DecidableEq α] {a : α} {t : Task (Except Failure α)}
    (h : t.succeedsWith a = true) : t = .ended (.finished (.ok a)) := by
  unfold succeedsWith World.Ending.succeedsWith at h
  split at h
  · split at h
    · rw [of_decide_eq_true h]
    · cases h
  · cases h

/-! ## Turns in worlds without faults -/

namespace World

variable {w w' w'' : World} {c : Call} {m : Mutation} {stage : Stage} {wr : Write}

/-- Beside its components the world is the same, and calls meet no faults. -/
structure Beside (w w' : World) : Prop where
  charts : w'.charts = w.charts
  workloads : w'.workloads = w.workloads
  events : w'.events = w.events
  free : w'.FaultFree

theorem Beside.trans (h : Beside w w') (h' : Beside w' w'') : Beside w w'' :=
  ⟨h'.charts.trans h.charts, h'.workloads.trans h.workloads, h'.events.trans h.events, h'.free⟩

theorem beside_perform (hfree : w.FaultFree) (hserve : (w.serve c).2.charts = w.charts)
    (hworkloads : (w.serve c).2.workloads = w.workloads) : Beside w (w.perform c).2 := by
  obtain ⟨-, -, hworks, hcharts, hfree'⟩ := perform_of_faultFree hfree c
  exact ⟨hcharts.trans hserve, hworks.trans hworkloads, (w.notes_perform c).1, hfree'⟩

theorem read_of_faultFree (hfree : w.FaultFree) (n : String) :
    (w.ask (.getComponent n)).1 = w.components.get n ∧ (w.ask (.getComponent n)).2.components = w.components ∧
      Beside w (w.ask (.getComponent n)).2 := by
  obtain ⟨hans, hcomponents, -, -, -⟩ := perform_of_faultFree hfree (.getComponent n)
  rw [ask_snd]
  exact ⟨ask_fst hans, hcomponents, beside_perform hfree rfl rfl⟩

theorem store_of_faultFree (hfree : w.FaultFree) (wr : Write) :
    (w.store wr).1 = (w.components.write wr).1 ∧ (w.store wr).2.components = (w.components.write wr).2 ∧
      Beside w (w.store wr).2 := by
  obtain ⟨hans, hcomponents, -, -, -⟩ := perform_of_faultFree hfree wr.call
  obtain ⟨hres, hafter⟩ := store_of_served hans hcomponents
  refine ⟨hres, hafter, ?_⟩
  rw [store_snd]
  cases wr <;> exact beside_perform hfree rfl rfl

/-- Without faults a turn of a change is made on the store. -/
theorem turn_of_faultFree (hfree : w.FaultFree) (m : Mutation) (stage : Stage) :
    (w.turn m stage).1 = (m.turn w.components stage).1 ∧
      (w.turn m stage).2.components = (m.turn w.components stage).2 ∧ Beside w (w.turn m stage).2 := by
  cases stage with
  | reading =>
    obtain ⟨hans, hcomponents, hbeside⟩ := read_of_faultFree hfree m.target
    unfold turn Mutation.turn
    rcases hread : w.ask (.getComponent m.target) with ⟨e | x, w'⟩
    · rw [hread] at hans hcomponents hbeside
      simp only [← hans]
      exact ⟨trivial, hcomponents, hbeside⟩
    · rw [hread] at hans hcomponents hbeside
      simp only [← hans]
      cases m.edit x <;> exact ⟨rfl, hcomponents, hbeside⟩
  | writing wr =>
    obtain ⟨hans, hcomponents, hbeside⟩ := store_of_faultFree hfree wr
    unfold turn Mutation.turn
    rcases hwrite : w.components.write wr with ⟨r, s⟩
    rcases hstore : w.store wr with ⟨e | x, w'⟩
    · rw [hstore, hwrite] at hans hcomponents
      obtain rfl : r = .error e := hans.symm
      rw [hstore] at hbeside
      simp only [hstore, hwrite]
      exact ⟨trivial, hcomponents, hbeside⟩
    · rw [hstore, hwrite] at hans hcomponents
      obtain rfl : r = .ok x := hans.symm
      rw [hstore] at hbeside
      simp only [hstore, hwrite]
      exact ⟨trivial, hcomponents, hbeside⟩
  | returned r => exact ⟨rfl, rfl, ⟨rfl, rfl, rfl, hfree⟩⟩

/-- A change leaves what is beside the components. -/
theorem beside_change (hfree : w.FaultFree) (m : Mutation) : Beside w (w.change m).2 := by
  have hkept : Errand.Obeys (fun _ _ => True) (fun _ _ v => Beside w v) (Errand.change m) [] w := by
    refine Errand.obeys_change (fun _ v => Beside w v) ⟨rfl, rfl, rfl, hfree⟩ fun past v hv => ?_
    have hread : ∀ r v', v.ask (.getComponent m.target) = (r, v') → Beside w v' := by
      intro r v' h
      obtain rfl : (v.ask (.getComponent m.target)).2 = v' := congrArg Prod.snd h
      exact hv.trans (read_of_faultFree hv.free m.target).2.2
    have hwrite : ∀ r v' wr, v.ask (.getComponent m.target) = (r, v') → Beside w (v'.store wr).2 :=
      fun r v' wr h => (hread r v' h).trans (store_of_faultFree (hread r v' h).free wr).2.2
    exact {
      read := trivial
      failed := fun e v' h => ⟨hread _ _ h, hread _ _ h⟩
      unneeded := fun fresh v' h _ => hread _ _ h
      write := fun fresh v' wr _ _ => trivial
      refused := fun fresh v' wr e h _ _ => ⟨hwrite _ v' wr h, hwrite _ v' wr h⟩
      accepted := fun fresh v' wr y h _ _ => hwrite _ v' wr h }
  exact hkept.ending _ _ rfl

end World

/-! ## Ends -/

section Ends

variable {α : Type} {m : Mutation} {next : Except Failure (Option Component) → Program α}

/-- The turns of a change that is alone, the first one apart. -/
theorem Mutation.turns_succ (m : Mutation) (k : Nat) (p : Stage × ComponentStore) :
    m.turns (k + 1) p = m.turns k (m.turn p.2 p.1) := by
  induction k with
  | zero => rfl
  | succ k ih => rw [turns, ih, turns]

theorem ends_returned {w : World} {r : Except Failure (Option Component)} (hfree : w.FaultFree)
    (hnext : ∀ r v, World.Beside w v → Task.Ends v (.running (next r))) :
    Task.Ends w (.changing m (.returned r) next) :=
  .turn (hnext r w ⟨rfl, rfl, rfl, hfree⟩)

/-- A change whose turns on the store come to an end does so in a world. -/
theorem ends_of_turns {k : Nat} {w : World} {stage : Stage} {r : Except Failure (Option Component)}
    {s : ComponentStore} (hfree : w.FaultFree) (hturns : m.turns k (stage, w.components) = (.returned r, s))
    (hnext : ∀ r v, World.Beside w v → Task.Ends v (.running (next r))) :
    Task.Ends w (.changing m stage next) := by
  induction k generalizing w stage with
  | zero =>
    cases hturns
    exact ends_returned hfree hnext
  | succ k ih =>
    by_cases hopen : ∀ r, stage ≠ .returned r
    · obtain ⟨hstage, hcomponents, hbeside⟩ := World.turn_of_faultFree hfree m stage
      refine .turn ?_
      rw [Task.turn_changing hopen]
      refine ih hbeside.free ?_ fun r v hv => hnext r v (hbeside.trans hv)
      rw [hstage, hcomponents, ← hturns, Mutation.turns_succ]
    · obtain ⟨r', hr'⟩ := Classical.not_forall.1 hopen
      obtain rfl := Classical.not_not.1 hr'
      exact ends_returned hfree hnext

/-- A change that is alone ends if what follows it does. -/
theorem ends_changing (hm : m.Sound) {w : World} (hfree : w.FaultFree) (stage : Stage)
    (hnext : ∀ r v, World.Beside w v → Task.Ends v (.running (next r))) :
    Task.Ends w (.changing m stage next) := by
  have hreading : ∀ v, World.Beside w v → Task.Ends v (.changing m .reading next) := by
    intro v hv
    obtain ⟨k, hk⟩ := World.turns_change hm hv.free
    exact ends_of_turns hv.free hk fun r v' hv' => hnext r v' (hv.trans hv')
  cases stage with
  | reading => exact hreading w ⟨rfl, rfl, rfl, hfree⟩
  | returned r => exact ends_returned hfree hnext
  | writing wr =>
    -- Behind the write the change has returned, or starts anew.
    obtain ⟨hstage, -, hbeside⟩ := World.turn_of_faultFree hfree m (.writing wr)
    have hreturned : ∀ r, Task.Ends (w.turn m (.writing wr)).2 (.changing m (.returned r) next) :=
      fun r => ends_returned hbeside.free fun r v hv => hnext r v (hbeside.trans hv)
    refine .turn ?_
    rw [Task.turn_changing fun r h => Stage.noConfusion h, hstage]
    rcases hwrite : w.components.write wr with ⟨e | y, s⟩ <;> simp only [Mutation.turn, hwrite]
    · unfold Stage.failed
      split
      · exact hreading _ hbeside
      · exact hreturned _
    · exact hreturned _

end Ends

end ChartOperator
