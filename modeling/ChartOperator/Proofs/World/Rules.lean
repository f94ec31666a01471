import ChartOperator.Proofs.World.Moments

set_option autoImplicit false

/-!
# Runs that keep to a rule

A rule says of a call what must have been done before it, and in which world it may be made. `Program.Obeys`
says that every call of a run keeps to a rule, and that the run, if it finishes, ends as promised. It is
proved along the program, with one law for each way in which programs are made: `Program.obeys_andThen` is
that of the sequence, and `Errand.obeys_bind` that of a step which may fail.
-/

namespace ChartOperator

/-- What must hold of a call behind those that were made before it. -/
abbrev Rule : Type := List Moment → Moment → Prop

namespace Rule

variable {rule : Rule} {past ms ns : List Moment}

/-- Each of a list of calls keeps to the rule, behind those that were made before. -/
def Along (rule : Rule) : (past : List Moment) → List Moment → Prop
  | _, [] => True
  | past, m :: ms => rule past m ∧ rule.Along (past ++ [m]) ms

theorem along_append : rule.Along past (ms ++ ns) ↔ rule.Along past ms ∧ rule.Along (past ++ ms) ns := by
  induction ms generalizing past with
  | nil => simp [Along]
  | cons m ms ih =>
    simp only [List.cons_append, Along, ih, and_assoc, List.append_assoc, List.nil_append]

/-- A call in the list keeps to the rule behind those in front of it. -/
theorem Along.at {earlier later : List Moment} {m : Moment} (h : rule.Along past (earlier ++ m :: later)) :
    rule (past ++ earlier) m :=
  (along_append.1 h).2.1

/-- A rule that does not look back holds of each of the calls. -/
theorem Along.forall {P : Moment → Prop} (h : Rule.Along (fun _ => P) past ms) : ∀ m ∈ ms, P m := by
  intro m hm
  obtain ⟨earlier, later, rfl⟩ := List.append_of_mem hm
  exact h.at

end Rule

namespace World

variable {α β : Type}

theorem run_andThen (w : World) (p : Program α) (f : α → Program β) :
    w.run (p.andThen f) =
      match w.run p with
      | (.finished a, w) => w.run (f a)
      | (.crashed, w) => (.crashed, w)
      | (.held, w) => (.held, w) := by
  induction p generalizing w with
  | done a => rfl
  | call c next ih =>
    simp only [Program.andThen, run]
    cases w.perform c with
    | mk o w' =>
      cases o with
      | answered a => exact ih a w'
      | crashed => rfl
      | held => rfl
  | mutate m next ih =>
    simp only [Program.andThen, run]
    exact ih _ _
  | note n next ih =>
    simp only [Program.andThen, run]
    exact ih _

theorem moments_andThen (w : World) (p : Program α) (f : α → Program β) :
    w.moments (p.andThen f) =
      w.moments p ++
        match w.run p with
        | (.finished a, w) => w.moments (f a)
        | _ => [] := by
  induction p generalizing w with
  | done a => rfl
  | call c next ih =>
    simp only [Program.andThen, run, moments]
    cases w.perform c with
    | mk o w' =>
      cases o with
      | answered a => exact congrArg (List.cons _) (ih a w')
      | crashed => rfl
      | held => rfl
  | mutate m next ih =>
    simp only [Program.andThen, run, moments, ih, List.append_assoc]
  | note n next ih =>
    simp only [Program.andThen, run, moments]
    exact ih _

/-- What follows without calls adds none. -/
theorem moments_andThen_of_silent (w : World) {p : Program α} {f : α → Program β}
    (hf : ∀ a v, moments v (f a) = []) : w.moments (p.andThen f) = w.moments p := by
  rw [moments_andThen]
  rcases w.run p with ⟨a | _ | _, w'⟩
  · simp only [hf, List.append_nil]
  · exact List.append_nil _
  · exact List.append_nil _

section Binds

variable {t : Errand α} {f : α → Errand β} {w w' : World}

/-- Behind a step that succeeds an errand goes on with what follows. -/
theorem run_bind_of_ok {a : α} (h : w.run t.run = (.finished (.ok a), w')) :
    w.run (t >>= f).run = w'.run (f a).run ∧ w.moments (t >>= f).run = w.moments t.run ++ w'.moments (f a).run := by
  have hrun := w.run_andThen t.run (ExceptT.bindCont f)
  have hmoments := w.moments_andThen t.run (ExceptT.bindCont f)
  rw [h] at hrun hmoments
  exact ⟨hrun, hmoments⟩

/-- An errand ends with the failure of its first step. -/
theorem run_bind_of_error {e : Failure} (h : w.run t.run = (.finished (.error e), w')) :
    w.run (t >>= f).run = (.finished (.error e), w') ∧ w.moments (t >>= f).run = w.moments t.run := by
  have hrun := w.run_andThen t.run (ExceptT.bindCont f)
  have hmoments := w.moments_andThen t.run (ExceptT.bindCont f)
  rw [h] at hrun hmoments
  exact ⟨hrun, hmoments.trans (List.append_nil _)⟩

theorem run_bind_of_crashed (h : w.run t.run = (.crashed, w')) :
    w.run (t >>= f).run = (.crashed, w') ∧ w.moments (t >>= f).run = w.moments t.run := by
  have hrun := w.run_andThen t.run (ExceptT.bindCont f)
  have hmoments := w.moments_andThen t.run (ExceptT.bindCont f)
  rw [h] at hrun hmoments
  exact ⟨hrun, hmoments.trans (List.append_nil _)⟩

/-- A call is made, and its answer is the result. -/
theorem run_ask {c : Call} {a : c.Answer} (h : w.perform c = (.answered a, w')) :
    w.run (Errand.ask c).run = (.finished a, w') ∧ w.moments (Errand.ask c).run = [⟨w, c⟩] := by
  constructor
  · change w.run (.call c .done) = _
    rw [run, h]
    rfl
  · change w.moments (.call c .done) = _
    rw [moments, h]
    rfl

/-- Rewording a failure changes nothing else. -/
theorem run_mapFailure {g : Failure → Failure} {r : Except Failure α} (h : w.run t.run = (.finished r, w')) :
    w.run (t.mapFailure g).run = (.finished (r.mapError g), w') := by
  have hrun := w.run_andThen t.run fun r => .done (r.mapError g)
  rw [h] at hrun
  exact hrun

theorem run_discard {r : Except Failure α} (h : w.run t.run = (.finished r, w')) :
    w.run (discard t).run = (.finished (r.map fun _ => ()), w') := by
  have hrun := w.run_andThen t.run (ExceptT.bindCont fun _ => pure ())
  rw [h] at hrun
  cases r <;> exact hrun

theorem moments_mapFailure (w : World) (t : Errand α) (g : Failure → Failure) :
    w.moments (t.mapFailure g).run = w.moments t.run :=
  w.moments_andThen_of_silent fun _ _ => rfl

theorem moments_discard (w : World) (t : Errand α) : w.moments (discard t).run = w.moments t.run :=
  w.moments_andThen_of_silent fun r _ => by cases r <;> rfl

theorem run_outcome {r : Except Failure α} (h : w.run t.run = (.finished r, w')) :
    w.run t.outcome.run = (.finished (.ok r), w') ∧ w.moments t.outcome.run = w.moments t.run := by
  have hrun := w.run_andThen t.run fun r => .done (Except.ok (ε := Failure) r)
  have hmoments := w.moments_andThen t.run fun r => .done (Except.ok (ε := Failure) r)
  rw [h] at hrun hmoments
  exact ⟨hrun, hmoments.trans (List.append_nil _)⟩

end Binds

end World

namespace Program

variable {α β : Type} {rule : Rule} {post post' : α → List Moment → World → Prop} {past : List Moment}
    {w : World}

/-- The calls of the run keep to the rule, and the run ends as promised if it finishes. -/
structure Obeys (rule : Rule) (post : α → List Moment → World → Prop) (p : Program α) (past : List Moment)
    (w : World) : Prop where
  calls : rule.Along past (w.moments p)
  ending : ∀ a w', w.run p = (.finished a, w') → post a (past ++ w.moments p) w'

theorem Obeys.mono {p : Program α} (h : p.Obeys rule post past w)
    (himp : ∀ a past w, post a past w → post' a past w) : p.Obeys rule post' past w :=
  ⟨h.calls, fun a w' hrun => himp _ _ _ (h.ending a w' hrun)⟩

theorem Obeys.and {p : Program α} (h : p.Obeys rule post past w) (h' : p.Obeys rule post' past w) :
    p.Obeys rule (fun a past w => post a past w ∧ post' a past w) past w :=
  ⟨h.calls, fun a w' hrun => ⟨h.ending a w' hrun, h'.ending a w' hrun⟩⟩

/-- What the run leads to may be told by the run itself. -/
theorem Obeys.run {p : Program α} (h : p.Obeys rule post past w) :
    p.Obeys rule (fun a past' w' => post a past' w' ∧ w.run p = (.finished a, w')) past w :=
  ⟨h.calls, fun a w' hrun => ⟨h.ending a w' hrun, hrun⟩⟩

theorem obeys_done {a : α} (h : post a past w) : (done a).Obeys rule post past w := by
  refine ⟨trivial, fun b w' hrun => ?_⟩
  cases hrun
  simpa [World.moments] using h

theorem obeys_call {c : Call} {next : c.Answer → Program α} (hrule : rule past ⟨w, c⟩)
    (hnext : ∀ a w', w.perform c = (.answered a, w') → (next a).Obeys rule post (past ++ [⟨w, c⟩]) w') :
    (call c next).Obeys rule post past w := by
  cases hperf : w.perform c with
  | mk o w' =>
    cases o with
    | answered a =>
      have h := hnext a w' hperf
      refine ⟨?_, fun b w'' hrun => ?_⟩
      · simp only [World.moments, hperf]
        exact ⟨hrule, h.calls⟩
      · simp only [World.run, hperf] at hrun
        have hpost := h.ending b w'' hrun
        rw [List.append_assoc] at hpost
        simp only [World.moments, hperf]
        exact hpost
    | crashed =>
      refine ⟨?_, fun b w'' hrun => ?_⟩
      · simp only [World.moments, hperf]
        exact ⟨hrule, trivial⟩
      · simp only [World.run, hperf] at hrun
        cases hrun
    | held =>
      refine ⟨?_, fun b w'' hrun => ?_⟩
      · simp only [World.moments, hperf]
        exact ⟨hrule, trivial⟩
      · simp only [World.run, hperf] at hrun
        cases hrun

theorem obeys_note {n : Note} {next : Program α} (h : next.Obeys rule post past (w.leave n)) :
    (note n next).Obeys rule post past w :=
  ⟨h.calls, h.ending⟩

theorem obeys_mutate {m : Mutation} {next : Except Failure (Option Component) → Program α}
    (hrule : rule.Along past (World.changeMoments m w.disturbances w))
    (hnext : (next (w.change m).1).Obeys rule post (past ++ World.changeMoments m w.disturbances w)
      (w.change m).2) :
    (mutate m next).Obeys rule post past w := by
  refine ⟨?_, fun a w' hrun => ?_⟩
  · exact Rule.along_append.2 ⟨hrule, hnext.calls⟩
  · have hpost := hnext.ending a w' hrun
    rw [List.append_assoc] at hpost
    exact hpost

/-- A sequence keeps to a rule if its first part leads to where the second one does. -/
theorem obeys_andThen {p : Program α} {f : α → Program β} {post : β → List Moment → World → Prop}
    (h : p.Obeys rule (fun a past w => (f a).Obeys rule post past w) past w) :
    (p.andThen f).Obeys rule post past w := by
  cases hrun : w.run p with
  | mk o w' =>
    cases o with
    | finished a =>
      have hf := h.ending a w' hrun
      refine ⟨?_, fun b w'' hrun' => ?_⟩
      · rw [World.moments_andThen, hrun]
        exact Rule.along_append.2 ⟨h.calls, hf.calls⟩
      · rw [World.run_andThen, hrun] at hrun'
        have hpost := hf.ending b w'' hrun'
        rw [World.moments_andThen, hrun, ← List.append_assoc]
        exact hpost
    | crashed =>
      refine ⟨?_, fun b w'' hrun' => ?_⟩
      · rw [World.moments_andThen, hrun, List.append_nil]
        exact h.calls
      · rw [World.run_andThen, hrun] at hrun'
        cases hrun'
    | held =>
      refine ⟨?_, fun b w'' hrun' => ?_⟩
      · rw [World.moments_andThen, hrun, List.append_nil]
        exact h.calls
      · rw [World.run_andThen, hrun] at hrun'
        cases hrun'

end Program

namespace Errand

variable {α β : Type} {rule : Rule} {post post' : Except Failure α → List Moment → World → Prop}
  {past : List Moment} {w : World}

/-- The calls of the errand keep to the rule, and it ends as promised if it finishes. -/
abbrev Obeys (rule : Rule) (post : Except Failure α → List Moment → World → Prop) (t : Errand α)
    (past : List Moment) (w : World) : Prop :=
  Program.Obeys rule post t.run past w

/-- What a step promises: its result leads to what follows, and its failure to the end. -/
def Leading (rule : Rule) (post : Except Failure β → List Moment → World → Prop) (f : α → Errand β) :
    Except Failure α → List Moment → World → Prop
  | .ok a, past, w => Obeys rule post (f a) past w
  | .error e, past, w => post (.error e) past w

theorem obeys_pure {a : α} (h : post (.ok a) past w) : Obeys rule post (pure a) past w :=
  Program.obeys_done h

theorem obeys_throw {e : Failure} (h : post (.error e) past w) : Obeys rule post (throw e) past w :=
  Program.obeys_done h

theorem obeys_lift {r : Except Failure α} (h : post r past w) : Obeys rule post (liftM r : Errand α) past w :=
  Program.obeys_done h

theorem obeys_bind {t : Errand α} {f : α → Errand β} {post : Except Failure β → List Moment → World → Prop}
    (h : Obeys rule (Leading rule post f) t past w) : Obeys rule post (t >>= f) past w := by
  refine Program.obeys_andThen (h.mono fun r past w hr => ?_)
  cases r with
  | ok a => exact hr
  | error e => exact Program.obeys_done hr

/-- Rewording changes no success. -/
theorem mapError_ok (f : Failure → Failure) (a : α) :
    (Except.ok a : Except Failure α).mapError f = .ok a :=
  rfl

theorem obeys_mapFailure {t : Errand α} {f : Failure → Failure}
    (h : Obeys rule (fun r => post (r.mapError f)) t past w) : Obeys rule post (t.mapFailure f) past w :=
  Program.obeys_andThen (h.mono fun _ _ _ hr => Program.obeys_done hr)

theorem obeys_outcome {t : Errand α} {post : Except Failure (Except Failure α) → List Moment → World → Prop}
    (h : Obeys rule (fun r => post (.ok r)) t past w) : Obeys rule post t.outcome past w :=
  Program.obeys_andThen (h.mono fun _ _ _ hr => Program.obeys_done hr)

theorem obeys_discard {t : Errand α} {post : Except Failure Unit → List Moment → World → Prop}
    (h : Obeys rule (fun r => post (r.map fun _ => ())) t past w) : Obeys rule post (discard t) past w := by
  refine Program.obeys_andThen (h.mono fun r past w hr => ?_)
  cases r with
  | ok a => exact Program.obeys_done hr
  | error e => exact Program.obeys_done hr

theorem obeys_ask {c : Call} {post : c.Answer → List Moment → World → Prop} (hrule : rule past ⟨w, c⟩)
    (h : ∀ a w', w.perform c = (.answered a, w') → post a (past ++ [⟨w, c⟩]) w') :
    Obeys rule post (ask c) past w :=
  Program.obeys_call hrule fun a w' hperf => Program.obeys_done (h a w' hperf)

theorem obeys_announce {c : Component} {severity : Severity} {reason message : String}
    {post : Except Failure Unit → List Moment → World → Prop}
    (h : post (.ok ()) past (w.leave (.event ⟨c, severity, reason, message⟩))) :
    Obeys rule post (announce c severity reason message) past w :=
  Program.obeys_note (Program.obeys_done h)

theorem obeys_count {m : Metric} {post : Except Failure Unit → List Moment → World → Prop}
    (h : post (.ok ()) past (w.leave (.count m))) : Obeys rule post (count m) past w :=
  Program.obeys_note (Program.obeys_done h)

end Errand

end ChartOperator
