import ChartOperator.Proofs.World.Calls

set_option autoImplicit false

/-!
# The calls of a run

`World.moments` lists the calls that a run of a program makes, each with the world in which it is made, so
that what held at a call and what was done before it can be spoken of. The list is no second account of
the run: with its calls and their answers it is what the run leaves in the trace (`trace_run`).
-/

namespace ChartOperator

/-- A call of a run, at the moment at which it is made. -/
structure Moment where
  before : World
  call : Call

namespace Moment

/-- How the call ends. -/
def outcome (m : Moment) : Outcome m.call := (m.before.perform m.call).1

/-- The world behind the call. -/
def after (m : Moment) : World := (m.before.perform m.call).2

/-- What the call leaves in the trace. -/
def traced (m : Moment) : Traced := ⟨m.before.clock, m.call, World.answerOf? m.outcome⟩

/-- The call is this one, and this is its answer. -/
def Answered (m : Moment) (c : Call) (a : c.Answer) : Prop :=
  m.call = c ∧ (m.before.perform c).1 = .answered a

/-- The call is this write, and the store accepted it. -/
def Accepted (m : Moment) (wr : Write) (written : Component) : Prop :=
  m.call = wr.call ∧ (m.before.store wr).1 = .ok written

end Moment

namespace World

variable {α β : Type}

theorem run_call (w : World) (c : Call) (next : c.Answer → Program α) :
    w.run (.call c next) =
      match (w.perform c).1 with
      | .answered a => (w.perform c).2.run (next a)
      | .crashed => (.crashed, (w.perform c).2)
      | .held => (.held, (w.perform c).2) := by
  rw [run]
  rcases w.perform c with ⟨_ | _ | _, w'⟩ <;> rfl

/-- The calls of one attempt to make a change. -/
def attemptMoments (m : Mutation) (w : World) : List Moment :=
  match w.ask (.getComponent m.target) with
  | (.error _, _) => [⟨w, .getComponent m.target⟩]
  | (.ok fresh, w') =>
    match m.edit fresh with
    | none => [⟨w, .getComponent m.target⟩]
    | some wr => [⟨w, .getComponent m.target⟩, ⟨w', wr.call⟩]

/-- An attempt fails to read, finds nothing to do, or makes a write. -/
theorem attempt_cases {P : Except Failure (Option Component) × World → List Moment → Prop} (m : Mutation)
    (w : World)
    (failed : ∀ e w', w.ask (.getComponent m.target) = (.error e, w') →
      P (if m.missingIsDone && e.isNotFound then .ok none else .error e, w') [⟨w, .getComponent m.target⟩])
    (unneeded : ∀ fresh w', w.ask (.getComponent m.target) = (.ok fresh, w') → m.edit fresh = none →
      P (.ok none, w') [⟨w, .getComponent m.target⟩])
    (written : ∀ fresh w' wr, w.ask (.getComponent m.target) = (.ok fresh, w') → m.edit fresh = some wr →
      P ((w'.store wr).1.map some, (w'.store wr).2) [⟨w, .getComponent m.target⟩, ⟨w', wr.call⟩]) :
    P (attempt m w) (attemptMoments m w) := by
  unfold attempt attemptMoments
  cases hread : w.ask (.getComponent m.target) with
  | mk r w' =>
    cases r with
    | error e => exact failed e w' hread
    | ok fresh =>
      cases hedit : m.edit fresh with
      | none =>
        simp only [hedit]
        exact unneeded fresh w' hread hedit
      | some wr =>
        have h := written fresh w' wr hread hedit
        simp only [hedit]
        cases hstore : w'.store wr with
        | mk r w'' =>
          rw [hstore] at h
          cases r <;> exact h

/-- The calls of a change, with room for so many attempts that lose a race. -/
def changeMoments (m : Mutation) : (room : Nat) → World → List Moment
  | 0, w => attemptMoments m w
  | room + 1, w =>
    attemptMoments m w ++
      if isLostRace (attempt m w).1 then changeMoments m room (attempt m w).2 else []

/-- The calls of a run, in their order. -/
def moments (w : World) : Program α → List Moment
  | .done _ => []
  | .call c next =>
    ⟨w, c⟩ ::
      match w.perform c with
      | (.answered a, w) => w.moments (next a)
      | _ => []
  | .mutate m next =>
    changeMoments m w.disturbances w ++ moments (w.change m).2 (next (w.change m).1)
  | .note n next => (w.leave n).moments next

/-- A call of the run is made at some moment of it. -/
theorem exists_moment {w : World} {p : Program α} {c : Call} (h : c ∈ (w.moments p).map Moment.call) :
    ∃ earlier m later, w.moments p = earlier ++ m :: later ∧ m.call = c := by
  obtain ⟨m, hm, hcall⟩ := List.mem_map.1 h
  obtain ⟨earlier, later, hrun⟩ := List.append_of_mem hm
  exact ⟨earlier, m, later, hrun, hcall⟩

/-! ## Runs that only ask -/

theorem alike_attempt (m : Mutation) (w : World) (h : ∀ p ∈ attemptMoments m w, p.call.IsQuery) :
    w.components.Alike (attempt m w).2.components := by
  have hread : w.components.Alike (w.ask (.getComponent m.target)).2.components := by
    rw [ask_snd]
    exact alike_perform w rfl
  refine attempt_cases (P := fun r ms => (∀ p ∈ ms, p.call.IsQuery) → w.components.Alike r.2.components) m w
    ?_ ?_ ?_ h
  · intro e w' hask _
    rw [hask] at hread
    exact hread
  · intro fresh w' hask _ _
    rw [hask] at hread
    exact hread
  · intro fresh w' wr _ _ hquery
    have hwrite := (hquery ⟨w', wr.call⟩ (by simp)).1
    cases wr <;> cases hwrite

theorem alike_retry (m : Mutation) (room : Nat) (w : World) (h : ∀ p ∈ changeMoments m room w, p.call.IsQuery) :
    w.components.Alike (retryOnConflict (attempt m) room w).2.components := by
  induction room generalizing w with
  | zero => exact alike_attempt m w h
  | succ room ih =>
    have hfirst := alike_attempt m w fun p hp => h p (List.mem_append_left _ hp)
    simp only [retryOnConflict]
    split
    · next hlost =>
      refine hfirst.trans (ih _ fun p hp => h p (List.mem_append_right _ ?_))
      rw [if_pos hlost]
      exact hp
    · exact hfirst

/-- A run that only asks leaves the objects as they are, apart from versions. -/
theorem alike_run (w : World) (p : Program α) (h : ∀ m ∈ w.moments p, m.call.IsQuery) :
    w.components.Alike (w.run p).2.components := by
  induction p generalizing w with
  | done a => exact .refl _
  | call c next ih =>
    simp only [moments] at h
    obtain ⟨hquery, hnext⟩ := List.forall_mem_cons.1 h
    have hcall := w.alike_perform hquery.1
    rcases hperf : w.perform c with ⟨a | _ | _, w'⟩
    · rw [hperf] at hcall
      rw [run, hperf]
      rw [hperf] at hnext
      exact hcall.trans (ih a w' hnext)
    · rw [hperf] at hcall
      rw [run, hperf]
      exact hcall
    · rw [hperf] at hcall
      rw [run, hperf]
      exact hcall
  | mutate m next ih =>
    have hchange := alike_retry m w.disturbances w fun p hp => h p (List.mem_append_left _ hp)
    exact hchange.trans (ih _ _ fun p hp => h p (List.mem_append_right _ hp))
  | note n next ih =>
    have hleave : (w.leave n).components = w.components := by cases n <;> rfl
    have hrest := ih (w.leave n) h
    rw [hleave] at hrest
    exact hrest

/-! ## The trace -/

/-- What calls leave in a trace, last first. -/
def tracesOf (ms : List Moment) : List Traced := (ms.map Moment.traced).reverse

theorem tracesOf_append (ms ns : List Moment) : tracesOf (ms ++ ns) = tracesOf ns ++ tracesOf ms := by
  simp [tracesOf]

theorem trace_perform (w : World) (c : Call) : (w.perform c).2.trace = tracesOf [⟨w, c⟩] ++ w.trace := rfl

theorem trace_store (w : World) (wr : Write) : (w.store wr).2.trace = tracesOf [⟨w, wr.call⟩] ++ w.trace := by
  cases wr with
  | object c => exact congrArg trace (w.ask_snd _)
  | status c => exact congrArg trace (w.ask_snd _)

theorem trace_attempt (m : Mutation) (w : World) :
    (attempt m w).2.trace = tracesOf (attemptMoments m w) ++ w.trace := by
  have hread : (w.ask (.getComponent m.target)).2.trace = tracesOf [⟨w, .getComponent m.target⟩] ++ w.trace :=
    congrArg trace (w.ask_snd _)
  refine attempt_cases (P := fun r ms => r.2.trace = tracesOf ms ++ w.trace) m w ?_ ?_ ?_
  · intro e w' h
    rw [h] at hread
    exact hread
  · intro fresh w' h _
    rw [h] at hread
    exact hread
  · intro fresh w' wr h _
    rw [h] at hread
    rw [trace_store, hread]
    rfl

theorem trace_retry (m : Mutation) (room : Nat) (w : World) :
    (retryOnConflict (attempt m) room w).2.trace = tracesOf (changeMoments m room w) ++ w.trace := by
  induction room generalizing w with
  | zero => exact trace_attempt m w
  | succ room ih =>
    simp only [retryOnConflict, changeMoments]
    split
    · rw [ih, trace_attempt, tracesOf_append, List.append_assoc]
    · rw [List.append_nil]
      exact trace_attempt m w

/-- A run leaves its calls in the trace, and nothing else. -/
theorem trace_run (w : World) (p : Program α) :
    (w.run p).2.trace = tracesOf (w.moments p) ++ w.trace := by
  induction p generalizing w with
  | done a => rfl
  | call c next ih =>
    have htrace := w.trace_perform c
    cases h : w.perform c with
    | mk o w' =>
      rw [h] at htrace
      cases o with
      | answered a =>
        simp only [run, moments, h]
        rw [ih a w', htrace, ← List.append_assoc, ← tracesOf_append]
        rfl
      | crashed =>
        simp only [run, moments, h]
        exact htrace
      | held =>
        simp only [run, moments, h]
        exact htrace
  | mutate m next ih =>
    have htrace : (w.change m).2.trace = tracesOf (changeMoments m w.disturbances w) ++ w.trace :=
      trace_retry m w.disturbances w
    simp only [run, moments]
    rw [ih, htrace, tracesOf_append, List.append_assoc]
  | note n next ih =>
    have hleave : (w.leave n).trace = w.trace := by cases n <;> rfl
    simp only [run, moments]
    rw [ih, hleave]

end World

end ChartOperator
