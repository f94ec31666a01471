import ChartOperator.Proofs.Concurrency.HealthWriters
import ChartOperator.Proofs.Concurrency.Twins

set_option autoImplicit false

/-!
# A pass among writers of health

A pass and any number of writers of health take turns in one world (`Interleaving`). The pass comes to the end
that it comes to alone, and what it leaves behind differs in nothing but health and versions (`undisturbed`).

The argument runs the pass a second time, alone, in step with the first. Between two turns the worlds mirror
each other (`Mirrors`), and what is left to do here is a twin of what is left to do there; a change that is
under way here is still to be made there, as a whole (`Follows`). A turn of the pass leads from such a point to
the next (`InStep.turn`), and a turn of a writer does not matter (`InStep.others`).

How many writes came between a read and its write must stay below the number of versions. Those of the others
are counted, and a pass makes six at most.
-/

namespace ChartOperator

open ComponentStore (settled)

/-- A pass takes turns with writers of health, who may join at any time, and of whom so many writes were
accepted. -/
inductive Interleaving (config : Config) (name : String) (start : World) :
    Task (Except Failure NextPass) → (others : List (Task (Except Failure Unit))) → World →
      (writes : Nat) → Prop
  | start : Interleaving config name start (.running (reconcile config name).run) [] start 0
  | join {pass others w k} (h : Interleaving config name start pass others w k) (writer : HealthWriter) :
    Interleaving config name start pass (.running (writer.errand config).run :: others) w k
  | pass {pass others w k} (h : Interleaving config name start pass others w k) :
    Interleaving config name start (pass.turn w).1 others (pass.turn w).2 k
  | other {pass before t after w k} (h : Interleaving config name start pass (before ++ t :: after) w k) :
    Interleaving config name start pass (before ++ (t.turn w).1 :: after) (t.turn w).2
      (k + ((t.turn w).2.components.writes - w.components.writes))
  | wait {pass others w k} (h : Interleaving config name start pass others w k) (d : Duration) :
    Interleaving config name start pass others (w.pass d) k

/-- A pass and one writer between two turns. -/
structure Duet where
  pass : Task (Except Failure NextPass)
  writer : Task (Except Failure Unit)
  world : World
  writes : Nat

/-- A turn of the pass, or of the writer. -/
def Duet.turn (d : Duet) (ofPass : Bool) : Duet :=
  if ofPass then
    let (pass, world) := d.pass.turn d.world
    { d with pass, world }
  else
    let (writer, world) := d.writer.turn d.world
    { d with writer, world, writes := d.writes + (world.components.writes - d.world.components.writes) }

/-- Turns that follow a schedule are an interleaving. -/
theorem interleaving_turns {config : Config} {name : String} {start : World} {d : Duet}
    (h : Interleaving config name start d.pass [d.writer] d.world d.writes) (schedule : List Bool) :
    Interleaving config name start (schedule.foldl Duet.turn d).pass [(schedule.foldl Duet.turn d).writer]
      (schedule.foldl Duet.turn d).world (schedule.foldl Duet.turn d).writes := by
  induction schedule generalizing d with
  | nil => exact h
  | cons ofPass schedule ih =>
    refine ih ?_
    cases ofPass with
    | true => exact h.pass
    | false =>
      change Interleaving config name start d.pass ([] ++ d.writer :: []) d.world d.writes at h
      exact h.other

/-! ## Worlds that mirror each other -/

section Mirrors

variable {n : String} {j : Nat} {u u' w w' : World}

/-- Without faults, and for one that does not look at the health and the version of an object, nor at other
objects, the worlds are the same. -/
structure Mirrors (n : String) (u w : World) : Prop where
  alone : u.FaultFree
  free : w.FaultFree
  charts : w.charts = u.charts
  workloads : w.workloads = u.workloads
  readFailure : w.components.readFailure = u.components.readFailure
  writeFailure : w.components.writeFailure = u.components.writeFailure
  events : w.events.map Event.core = u.events.map Event.core
  core : (w.components.find? n).map Component.core = (u.components.find? n).map Component.core
  firm : w.components.Firm n

theorem Mirrors.refl (hfree : w.FaultFree) (hfirm : w.components.Firm n) : Mirrors n w w :=
  ⟨hfree, hfree, rfl, rfl, rfl, rfl, rfl, rfl, hfirm⟩

theorem Mirrors.others (h : Mirrors n u w) (hspares : ComponentStore.Spares n j w.components w'.components)
    (hbeside : w.Beside w') : Mirrors n u w' where
  alone := h.alone
  free := hbeside.free
  charts := hbeside.charts.trans h.charts
  workloads := hbeside.workloads.trans h.workloads
  readFailure := hspares.readFailure.trans h.readFailure
  writeFailure := hspares.writeFailure.trans h.writeFailure
  events := by rw [hbeside.events, h.events]
  core := hspares.core.trans h.core
  firm := hspares.firm h.firm

theorem Mirrors.leave (h : Mirrors n u w) {i i' : Note} (hi : i.core = i'.core) :
    Mirrors n (u.leave i') (w.leave i) := by
  cases i with
  | event e =>
    cases i' with
    | event e' =>
      refine { h with alone := h.alone, free := h.free, events := ?_ }
      show (e :: w.events).map Event.core = (e' :: u.events).map Event.core
      rw [List.map_cons, List.map_cons, h.events, Note.event.inj hi]
    | count m => cases hi
  | count m =>
    cases i' with
    | event e => cases hi
    | count m' => exact { h with alone := h.alone, free := h.free }

/-- A call that writes no component keeps the worlds alike. -/
theorem Mirrors.perform (h : Mirrors n u w) {c : Call} (hc : c.isWrite = false) :
    (w.perform c).2.components = w.components ∧ Mirrors n (u.perform c).2 (w.perform c).2 := by
  have hserve : ∀ v : World, (v.serve c).2.workloads = v.workloads := by
    intro v
    cases c <;> rfl
  have hsame : (w.serve c).2.charts = (u.serve c).2.charts := by
    cases c <;> simp only [World.serve, World.withCharts, World.withComponents, h.charts]
  obtain ⟨-, hcomponents, hworkloads, hcharts, hfree⟩ := World.perform_of_faultFree h.free c
  obtain ⟨-, hcomponents', hworkloads', hcharts', hfree'⟩ := World.perform_of_faultFree h.alone c
  rw [w.components_serve hc] at hcomponents
  rw [u.components_serve hc] at hcomponents'
  refine ⟨hcomponents, ?_⟩
  exact {
    alone := hfree'
    free := hfree
    charts := by rw [hcharts, hcharts', hsame]
    workloads := by rw [hworkloads, hworkloads', hserve w, hserve u, h.workloads]
    readFailure := by rw [hcomponents, hcomponents', h.readFailure]
    writeFailure := by rw [hcomponents, hcomponents', h.writeFailure]
    events := by rw [(w.notes_perform c).1, (u.notes_perform c).1, h.events]
    core := by rw [hcomponents, hcomponents', h.core]
    firm := by rw [hcomponents]; exact h.firm }

/-- What is asked beside the components is answered alike. -/
theorem Mirrors.answer (h : Mirrors n u w) {c : Call} (hc : c.channel.ofComponents = false) :
    (w.perform c).1 = (u.perform c).1 := by
  have hsame : (w.serve c).1 = (u.serve c).1 := by
    cases c with
    | getComponent | listComponents | updateComponent | updateStatus => cases hc
    | _ => simp only [World.serve, World.withCharts, h.charts, h.workloads]
  rw [(World.perform_of_faultFree h.free c).1, (World.perform_of_faultFree h.alone c).1, hsame]

/-- The object is read with the same core. -/
theorem Mirrors.get (h : Mirrors n u w) :
    (w.components.get n).map Component.core = (u.components.get n).map Component.core := by
  have hcore := h.core
  unfold ComponentStore.get
  rw [h.readFailure]
  cases u.components.readFailure with
  | some text => rfl
  | none =>
    cases hu : u.components.find? n with
    | none =>
      rw [hu, Option.map_none, Option.map_eq_none_iff] at hcore
      rw [hcore]
    | some y =>
      rw [hu] at hcore
      obtain ⟨x, hx, hxy⟩ := Option.map_eq_some_iff.1 hcore
      rw [hx]
      exact congrArg Except.ok hxy

/-- A change that comes to the outcome of its edit here mirrors the one that is made there. -/
theorem Mirrors.change (h : Mirrors n u w) {e : Edit} {r : Except Failure (Option Component)}
    (hbeside : w.Beside w') (hread : w'.components.readFailure = w.components.readFailure)
    (hwrite : w'.components.writeFailure = w.components.writeFailure)
    (houtcome : (r.map fun _ => (), w'.components.find? n) = e.outcome n w.components) :
    (r.map fun _ => ()) = ((u.change (e.mutation n)).1.map fun _ => ()) ∧
      Mirrors n (u.change (e.mutation n)).2 w' := by
  obtain ⟨⟨hread', hwrite'⟩, houtcome'⟩ := World.outcome_change h.alone e n
  have hbeside' := World.beside_change h.alone (e.mutation n)
  obtain ⟨hres, hcore⟩ := Edit.outcome_congr e h.readFailure h.writeFailure h.core
  obtain ⟨hr, hfind⟩ := Prod.ext_iff.1 houtcome
  obtain ⟨hr', hfind'⟩ := Prod.ext_iff.1 houtcome'
  dsimp only at hr hfind hr' hfind'
  refine ⟨by rw [hr, hr', hres], ?_⟩
  exact {
    alone := hbeside'.free
    free := hbeside.free
    charts := by rw [hbeside.charts, hbeside'.charts, h.charts]
    workloads := by rw [hbeside.workloads, hbeside'.workloads, h.workloads]
    readFailure := by rw [hread, hread', h.readFailure]
    writeFailure := by rw [hwrite, hwrite', h.writeFailure]
    events := by rw [hbeside.events, hbeside'.events, h.events]
    core := by rw [hfind, hfind', hcore]
    firm := fun x hx => Edit.outcome_stays (hfind.symm.trans hx) h.firm }

end Mirrors

/-! ## Two passes in step -/

section InStep

variable {α : Type} {n : String} {K j left : Nat} {u w w' : World} {t : Task α} {q : Program α}
  {alone : World.Ending α × World}

/-- What is left of a task, with so many edits at most, is a twin of a program that is left to run elsewhere. -/
inductive Follows (n : String) (K : Nat) (s : ComponentStore) : (left : Nat) → Task α → Program α → Prop
  | running {left p q} (h : p.Twins n left q) : Follows n K s left (.running p) q
  | changing {left e stage next next'} (hpoised : Poised e n K s stage)
    (hnext : ∀ r r' : Except Failure (Option Component), (r.map fun _ => ()) = (r'.map fun _ => ()) →
      (next r).Twins n left (next' r')) :
    Follows n K s (left + 1) (.changing (e.mutation n) stage next) (.mutate (e.mutation n) next')
  | returned {left m r next q} (h : (next r).Twins n left q) :
    Follows n K s left (.changing m (.returned r) next) q

/-- The task is in step with a run that is alone: it follows what is left of that, or both are at their end. -/
inductive InStep (n : String) (alone : World.Ending α × World) (K : Nat) (w : World) : Nat → Task α → Prop
  | going {left : Nat} {u : World} {q : Program α} {t : Task α} (hrun : u.run q = alone)
    (hmirrors : Mirrors n u w) (hfollows : Follows n K w.components left t q) : InStep n alone K w left t
  | ended {left : Nat} (hmirrors : Mirrors n alone.2 w) : InStep n alone K w left (.ended alone.1)

theorem InStep.mirrors (h : InStep n alone K w left t) : ∃ u, Mirrors n u w := by
  cases h with
  | going _ hmirrors _ => exact ⟨_, hmirrors⟩
  | ended hmirrors => exact ⟨_, hmirrors⟩

/-- Whatever spares the object leaves the task in step. -/
theorem InStep.others (h : InStep n alone K w left t)
    (hspares : ComponentStore.Spares n j w.components w'.components) (hbeside : w.Beside w') :
    InStep n alone (K + j) w' left t := by
  cases h with
  | ended hmirrors => exact .ended (hmirrors.others hspares hbeside)
  | going hrun hmirrors hfollows =>
    refine .going hrun (hmirrors.others hspares hbeside) ?_
    cases hfollows with
    | running h => exact .running h
    | changing hpoised hnext =>
      exact .changing (hpoised.others hspares.moves hspares.readFailure hspares.core) hnext
    | returned h => exact .returned h

/-- A turn that goes on with a twin. -/
theorem InStep.turn_running {p : Program α} (htwins : p.Twins n left q) (hrun : u.run q = alone)
    (hmirrors : Mirrors n u w) :
    ((Task.running p).turn w).2.components = w.components ∧
      InStep n alone K ((Task.running p).turn w).2 left ((Task.running p).turn w).1 := by
  cases htwins with
  | done a =>
    subst hrun
    exact ⟨rfl, .ended hmirrors⟩
  | @note _ i i' next next' hi hnext =>
    have hcomponents : (w.leave i).components = w.components := by cases i <;> rfl
    exact ⟨hcomponents, .going (u := u.leave i') (q := next') hrun (hmirrors.leave hi) (.running hnext)⟩
  | edit e hnext => exact ⟨rfl, .going hrun hmirrors (.changing (e := e) trivial hnext)⟩
  | @read _ next next' hnext =>
    obtain ⟨hcomponents, hafter⟩ := hmirrors.perform (c := .getComponent n) rfl
    rw [World.run_call, (World.perform_of_faultFree hmirrors.alone _).1] at hrun
    rw [Task.turn_call, (World.perform_of_faultFree hmirrors.free _).1]
    refine ⟨hcomponents, .going hrun hafter (.running (hnext _ _ hmirrors.get fun x hx => ?_))⟩
    exact ComponentStore.name_of_find? (ComponentStore.find?_of_get hx)
  | @call _ c next next' hc hnext =>
    have hquiet : c.isWrite = false := by cases c <;> first | rfl | cases hc
    obtain ⟨hcomponents, hafter⟩ := hmirrors.perform hquiet
    rw [World.run_call, ← hmirrors.answer hc] at hrun
    rw [Task.turn_call]
    refine ⟨hcomponents, ?_⟩
    cases hout : (w.perform c).1 with
    | answered a =>
      rw [hout] at hrun
      exact .going hrun hafter (.running (hnext a))
    | crashed =>
      rw [hout] at hrun
      subst hrun
      exact .ended hafter
    | held =>
      rw [hout] at hrun
      subst hrun
      exact .ended hafter

/-- A turn of a change that has not returned: it returns, and with it that of the other run, or it stands at
another point before that. -/
theorem InStep.turn_changing {e : Edit} {stage : Stage}
    {next next' : Except Failure (Option Component) → Program α} (hpoised : Poised e n K w.components stage)
    (hnext : ∀ r r' : Except Failure (Option Component), (r.map fun _ => ()) = (r'.map fun _ => ()) →
      (next r).Twins n left (next' r'))
    (hrun : u.run (.mutate (e.mutation n) next') = alone) (hmirrors : Mirrors n u w) (hK : K < twoTo 64) :
    ∃ j left', j + left' ≤ left + 1 ∧ w.components.Moves (w.turn (e.mutation n) stage).2.components j ∧
      InStep n alone (K + j) (w.turn (e.mutation n) stage).2 left'
        (.changing (e.mutation n) (w.turn (e.mutation n) stage).1 next) := by
  obtain ⟨hstage, hcomponents, hbeside⟩ := World.turn_of_faultFree hmirrors.free (e.mutation n) stage
  obtain ⟨j, hmoves, hj⟩ := (e.mutation n).moves_turn w.components stage
  obtain ⟨⟨hread, hwrite⟩, hturn⟩ := hpoised.turn hK
  rw [← hcomponents] at hmoves hread hwrite hturn
  rw [← hstage] at hj hturn
  have hgoes : ∀ stage', (∀ r, stage' ≠ .returned r) → (w.turn (e.mutation n) stage).1 = stage' →
      (w.turn (e.mutation n) stage).2.components.find? n = w.components.find? n ∧
        Poised e n K (w.turn (e.mutation n) stage).2.components stage' →
      ∃ j left', j + left' ≤ left + 1 ∧ w.components.Moves (w.turn (e.mutation n) stage).2.components j ∧
        InStep n alone (K + j) (w.turn (e.mutation n) stage).2 left' (.changing (e.mutation n) stage' next) := by
    rintro stage' hopen hafter ⟨hfind, hpoised'⟩
    -- Nothing was written, since the change would have returned.
    obtain rfl : j = 0 := hj.resolve_right fun ⟨_, r, hr⟩ => hopen r (hafter.symm.trans hr)
    have hmirrors' := hmirrors.others ⟨hmoves, hread, hwrite, by rw [hfind]⟩ hbeside
    exact ⟨0, left + 1, by omega, hmoves, .going hrun hmirrors' (.changing hpoised' hnext)⟩
  cases hafter : (w.turn (e.mutation n) stage).1 with
  | returned r =>
    rw [hafter] at hturn
    obtain ⟨hr, hmirrors'⟩ := hmirrors.change hbeside hread hwrite hturn
    refine ⟨j, left, by omega, hmoves, .going ?_ hmirrors' (.returned (hnext _ _ hr))⟩
    exact hrun
  | reading =>
    rw [hafter] at hturn
    exact hgoes _ (fun r h => Stage.noConfusion h) hafter hturn
  | writing wr =>
    rw [hafter] at hturn
    exact hgoes _ (fun r h => Stage.noConfusion h) hafter hturn

/-- A turn of a task keeps it in step, and an edit is spent on a write. -/
theorem InStep.turn (h : InStep n alone K w left t) (hK : K < twoTo 64) :
    ∃ j left', j + left' ≤ left ∧ w.components.Moves (t.turn w).2.components j ∧
      InStep n alone (K + j) (t.turn w).2 left' (t.turn w).1 := by
  cases h with
  | ended hmirrors => exact ⟨0, left, by omega, .refl _, .ended hmirrors⟩
  | going hrun hmirrors hfollows =>
    cases hfollows with
    | running h =>
      obtain ⟨hcomponents, hstep⟩ := InStep.turn_running (K := K) h hrun hmirrors
      refine ⟨0, left, by omega, ?_, hstep⟩
      rw [hcomponents]
      exact .refl _
    | returned h => exact ⟨0, left, by omega, .refl _, .going hrun hmirrors (.running h)⟩
    | changing hpoised hnext =>
      rw [Task.turn_changing fun r hr => by subst hr; exact hpoised]
      exact InStep.turn_changing hpoised hnext hrun hmirrors hK

/-- A program that has a twin comes to an end if it is alone. -/
theorem Program.Twins.ends {p : Program α} (h : p.Twins n left q) (hfree : w.FaultFree) :
    Task.Ends w (.running p) := by
  induction h generalizing w with
  | done a => exact .turn (.ended _ _)
  | @note _ i _ _ _ _ _ ih =>
    have hleft : (w.leave i).FaultFree := by cases i <;> exact hfree
    exact .turn (ih hleft)
  | edit e _ ih =>
    exact .turn (ends_changing (e.sound_mutation n) hfree .reading fun r _ hbeside => ih r r rfl hbeside.free)
  | @read _ next _ _ ih =>
    obtain ⟨hans, -, -, -, hfree'⟩ := World.perform_of_faultFree hfree (.getComponent n)
    refine .turn ?_
    rw [Task.turn_call, hans]
    -- Any read is a twin of itself.
    refine ih _ _ rfl (fun x hx => ?_) hfree'
    exact ComponentStore.name_of_find? (ComponentStore.find?_of_get hx)
  | @call _ c _ _ _ _ ih =>
    obtain ⟨-, -, -, -, hfree'⟩ := World.perform_of_faultFree hfree c
    refine .turn ?_
    rw [Task.turn_call]
    cases (w.perform c).1 with
    | answered a => exact ih a hfree'
    | crashed => exact .ended _ _
    | held => exact .ended _ _

/-- So does a task that is in step. -/
theorem InStep.ends (h : InStep n alone K w left t) : Task.Ends w t := by
  cases h with
  | ended hmirrors => exact .ended _ _
  | going _ hmirrors hfollows =>
    cases hfollows with
    | running h => exact h.ends hmirrors.free
    | @changing _ e stage _ _ _ hnext =>
      exact ends_changing (e.sound_mutation n) hmirrors.free stage fun r _ hbeside => (hnext r r rfl).ends hbeside.free
    | returned h => exact .turn (h.ends hmirrors.free)

end InStep

/-! ## Passes -/

section Passes

variable {config : Config} {name : String} {start w : World} {pass : Task (Except Failure NextPass)}
  {others : List (Task (Except Failure Unit))} {k : Nat}

/-- Between any two turns the pass is in step with the one that is alone, of whose six writes some are made, and
the others are harmless. -/
theorem Interleaving.inStep (h : Interleaving config name start pass others w k) (hfree : start.FaultFree)
    (hfirm : start.components.Firm name) (hk : k < twoTo 63) :
    ∃ l left, l + left ≤ 6 ∧ InStep name (start.run (reconcile config name).run) (k + l) w left pass ∧
      ∀ t ∈ others, t.Harmless (k + l) w.components := by
  have hroom : ∀ k l left, k < twoTo 63 → l + left ≤ 6 → k + l < twoTo 64 := by
    intro k l left hk hl
    have hsmall : twoTo 63 = 9223372036854775808 := rfl
    have hlarge : twoTo 64 = 18446744073709551616 := rfl
    omega
  induction h with
  | start =>
    refine ⟨0, 6, by omega, ?_, fun t ht => (List.not_mem_nil ht).elim⟩
    exact .going rfl (.refl hfree hfirm) (.running (twins_reconcile config name))
  | join h writer ih =>
    obtain ⟨l, left, hl, hstep, hothers⟩ := ih hk
    refine ⟨l, left, hl, hstep, fun t ht => ?_⟩
    rcases List.mem_cons.1 ht with rfl | ht
    · exact harmless_errand config writer
    · exact hothers t ht
  | pass h ih =>
    obtain ⟨l, left, hl, hstep, hothers⟩ := ih hk
    obtain ⟨j, left', hj, hmoves, hstep'⟩ := hstep.turn (hroom _ l left hk hl)
    rw [Nat.add_assoc] at hstep'
    refine ⟨l + j, left', by omega, hstep', fun t ht => ?_⟩
    rw [← Nat.add_assoc]
    exact (hothers t ht).others hmoves
  | @other pass before t after w k h ih =>
    have hk' : k < twoTo 63 := by omega
    obtain ⟨l, left, hl, hstep, hothers⟩ := ih hk'
    obtain ⟨u, hmirrors⟩ := hstep.mirrors
    obtain ⟨j, hspares, hbeside, hharmless⟩ := (hothers t List.mem_append_cons_self).turn hmirrors.free
      (hroom _ l left hk' hl) hmirrors.firm
    have hwrites : (t.turn w).2.components.writes - w.components.writes = j := by
      rw [hspares.moves.writes, Nat.add_sub_cancel_left]
    -- What the turn wrote counts for the others, and in every bound on what came behind a copy.
    have hcount : k + j + l = k + l + j := by omega
    rw [hwrites]
    refine ⟨l, left, hl, ?_, fun t' ht' => ?_⟩
    · rw [hcount]
      exact hstep.others hspares hbeside
    · rw [hcount]
      rcases List.mem_append.1 ht' with ht' | ht'
      · exact (hothers t' (List.mem_append_left _ ht')).others hspares.moves
      · rcases List.mem_cons.1 ht' with rfl | ht'
        · exact hharmless
        · exact (hothers t' (List.mem_append_right _ (List.mem_cons_of_mem _ ht'))).others hspares.moves
  | @wait pass others w k h d ih =>
    obtain ⟨l, left, hl, hstep, hothers⟩ := ih hk
    obtain ⟨u, hmirrors⟩ := hstep.mirrors
    have hstays : w.Beside (w.pass d) := ⟨rfl, rfl, rfl, hmirrors.free⟩
    have hspares : ComponentStore.Spares name 0 w.components (w.pass d).components := .refl _ _
    exact ⟨l, left, hl, hstep.others hspares hstays, hothers⟩

/-- A pass that takes turns with writers of health comes to an end once it is left alone. That end is the one
that it comes to alone, with the same events and the same deployed releases, and the component differs in
nothing but its health and its version. -/
theorem undisturbed (hfree : start.FaultFree)
    (hfirm : ∀ x, start.components.find? name = some x → ¬ (x.isBeingDeleted = true ∧ x.finalizers = []))
    (h : Interleaving config name start pass others w k) (hk : k < twoTo 63) :
    Task.Ends w pass ∧ ∀ ending, pass = .ended ending →
      let alone := start.run (reconcile config name).run
      ending = alone.1 ∧ w.charts = alone.2.charts ∧
        w.events.map Event.core = alone.2.events.map Event.core ∧
        (w.components.find? name).map Component.core = (alone.2.components.find? name).map Component.core := by
  have hstays : start.components.Firm name := by
    intro x hx hgone
    simp only [settled, Bool.and_eq_true, List.isEmpty_iff, ite_eq_left_iff] at hgone
    by_cases hdeleted : x.isBeingDeleted = true ∧ x.finalizers = []
    · exact hfirm x hx hdeleted
    · cases hgone hdeleted
  obtain ⟨l, left, -, hstep, -⟩ := h.inStep hfree hstays hk
  refine ⟨hstep.ends, ?_⟩
  rintro ending rfl
  cases hstep with
  | ended hmirrors => exact ⟨rfl, hmirrors.charts, hmirrors.events, hmirrors.core⟩
  | going _ _ hfollows => cases hfollows

/-- The health of a component is written between the read and the write of an upgrade, which reads it again and
comes to its end. -/
theorem undisturbed_upgrade :
    let start := sampleWorld (sampleComponent "0.2.0" .installed []) [sampleRelease "k8s" "0.1.0"]
    let alone := start.run (reconcile {} "dogu-op").run
    ∃ others w, Interleaving {} "dogu-op" start (.ended (.finished (.ok .onChange))) others w 1 ∧
      alone.1 = .finished (.ok .onChange) ∧ w.charts = alone.2.charts ∧
      (w.components.find? "dogu-op").map Component.core =
        (alone.2.components.find? "dogu-op").map Component.core := by
  intro start alone
  let writer := HealthWriter.update "dogu-op" "ecosystem"
  let d : Duet := ⟨.running (reconcile {} "dogu-op").run, .running (writer.errand {}).run, start, 0⟩
  let schedule := List.replicate 7 true ++ List.replicate 7 false ++ List.replicate 11 true
  have hstart : Interleaving {} "dogu-op" start d.pass [d.writer] d.world d.writes := .join .start writer
  have hcourse := interleaving_turns hstart schedule
  have hwrites : (schedule.foldl Duet.turn d).writes = 1 := by decide +kernel
  have hended := Task.eq_of_succeedsWith (a := NextPass.onChange) (t := (schedule.foldl Duet.turn d).pass)
    (by decide +kernel)
  rw [hended, hwrites] at hcourse
  have halive : ∀ x, start.components.find? "dogu-op" = some x →
      ¬ (x.isBeingDeleted = true ∧ x.finalizers = []) := by
    intro x hx
    obtain rfl : sampleComponent "0.2.0" .installed [] = x :=
      Option.some.inj ((find?_sampleWorld _ _).symm.trans hx)
    decide
  obtain ⟨-, hsame⟩ := undisturbed (faultFree_sampleWorld _ _) halive hcourse (by decide)
  obtain ⟨hending, hcharts, -, hcore⟩ := hsame _ rfl
  exact ⟨_, _, hcourse, hending.symm, hcharts, hcore⟩

end Passes

end ChartOperator
