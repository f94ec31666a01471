import ChartOperator.Proofs.World.Confined

set_option autoImplicit false

/-!
# What a run comes to if its reads are truthful

Faults may answer any failure, also that a component does not exist which is stored. A read is `Truthful` if
it is not lied to in this way. `Errand.Assures` says how a run ends whose reads are all truthful. It obeys
the laws of `Errand.Obeys`, and has its own for the sequence (`Errand.assures_bind`), since what is assumed of
all calls is known of the calls of each part. `Errand.Yields` says so of the runs that succeed.

Where no fault makes such a claim every read is truthful (`World.truthful_moments`).
-/

namespace ChartOperator

/-- A read that fails since there is no such component finds none. -/
def Moment.Truthful (m : Moment) : Prop :=
  ∀ n e, m.Answered (.getComponent n) (.error e) → e.isNotFound = true → m.before.components.find? n = none

namespace Errand

variable {α β : Type} {past : List Moment} {w : World}

/-- If the calls were truthful, the run ends as promised. -/
abbrev Assures (post : Except Failure α → List Moment → World → Prop) (t : Errand α) (past : List Moment)
    (w : World) : Prop :=
  Obeys (fun _ _ => True) (fun r past w => (∀ m ∈ past, m.Truthful) → post r past w) t past w

theorem along_true (past ms : List Moment) : Rule.Along (fun _ _ => True) past ms := by
  induction ms generalizing past with
  | nil => trivial
  | cons m ms ih => exact ⟨trivial, ih _⟩

/-- Behind a call that was lied to nothing is promised. -/
theorem assures_of_not_truthful {post : Except Failure α → List Moment → World → Prop} {t : Errand α}
    (h : ¬ ∀ m ∈ past, m.Truthful) : Assures post t past w :=
  ⟨along_true _ _, fun _ _ _ hall => (h fun m hm => hall m (List.mem_append_left _ hm)).elim⟩

/-- The first part is assured to lead to where the second one is. -/
theorem assures_bind {t : Errand α} {f : α → Errand β} {post : Except Failure β → List Moment → World → Prop}
    (h : Assures
      (fun r past w =>
        match r with
        | .ok a => Assures post (f a) past w
        | .error e => post (.error e) past w)
      t past w) :
    Assures post (t >>= f) past w := by
  refine obeys_bind (h.mono fun r past w hr => ?_)
  cases r with
  | error e => exact hr
  | ok a =>
    by_cases hall : ∀ m ∈ past, m.Truthful
    · exact hr hall
    · exact assures_of_not_truthful hall

theorem assures_ask {c : Call} {post : c.Answer → List Moment → World → Prop}
    (h : ∀ a w', w.perform c = (.answered a, w') → post a (past ++ [⟨w, c⟩]) w') :
    Assures post (ask c) past w :=
  obeys_ask trivial fun a w' hperf _ => h a w' hperf

/-- If the run succeeds and its calls were truthful, it ends as promised. -/
abbrev Yields (post : α → World → Prop) (t : Errand α) (past : List Moment) (w : World) : Prop :=
  Assures (fun r _ w' => ∀ a, r = .ok a → post a w') t past w

theorem yields_pure {a : α} {post : α → World → Prop} (h : post a w) :
    Yields post (pure a : Errand α) past w := by
  refine obeys_pure fun _ b hb => ?_
  cases hb
  exact h

theorem yields_throw {e : Failure} {post : α → World → Prop} : Yields post (throw e : Errand α) past w :=
  obeys_throw fun _ _ hb => by cases hb

/-- The success of the first part leads to that of the second one. -/
theorem yields_bind {t : Errand α} {f : α → Errand β} {post : β → World → Prop}
    (h : Yields (fun a w' => ∀ past', Yields post (f a) past' w') t past w) :
    Yields post (t >>= f) past w := by
  refine assures_bind (h.mono fun r past' w' hr hall => ?_)
  cases r with
  | error e => exact fun b hb => by cases hb
  | ok a => exact hr hall a rfl past'

theorem yields_mapFailure {t : Errand α} {g : Failure → Failure} {post : α → World → Prop}
    (h : Yields post t past w) : Yields post (t.mapFailure g) past w := by
  refine obeys_mapFailure (h.mono fun r past' w' hr hall a ha => ?_)
  cases r with
  | error e => cases ha
  | ok b => exact hr hall a ha

theorem yields_discard {t : Errand α} {post : Unit → World → Prop} (h : Yields (fun _ => post ()) t past w) :
    Yields post (discard t) past w := by
  refine obeys_discard (h.mono fun r past' w' hr hall a ha => ?_)
  cases r with
  | error e => cases ha
  | ok b => exact hr hall b rfl

theorem yields_ask {c : Call} {post : c.Result → World → Prop}
    (h : ∀ a w', w.perform c = (.answered (.ok a), w') → post a w') : Yields post (ask c) past w := by
  refine assures_ask fun a w' hperf b hb => ?_
  rw [hb] at hperf
  exact h b w' hperf

end Errand

namespace World

variable {α : Type} {w : World}

theorem faults_meet (w : World) (c : Call) (f : Option Fault) : (w.meet c f).2.faults = w.faults := by
  rcases w.meet_cases c f with he | he | ⟨n, he⟩
  · rw [he]
  · rw [he]
    exact w.faults_serve c
  · rw [he]
    exact (w.touched n).faults_serve c

/-- What holds of all faults that calls will meet holds of those that are left behind a call. -/
theorem forall_perform {P : Channel → Option Fault → Prop} (h : ∀ q, ∀ f ∈ w.faultsOf q, P q f) (c : Call) :
    ∀ q, ∀ f ∈ (w.perform c).2.faultsOf q, P q f := by
  intro q f hf
  refine (forall_takeFault h c.channel).2 q f ?_
  have hfaults := faults_meet (w.takeFault c.channel).2 c (w.takeFault c.channel).1
  have hafter : (w.perform c).2.faults = (w.takeFault c.channel).2.faults := hfaults
  rw [faultsOf, hafter] at hf
  exact hf

/-- The failures that calls will meet are of this kind. -/
def FailsWith (P : Failure → Prop) (w : World) : Prop :=
  ∀ p, ∀ f ∈ w.faultsOf p, ∀ e, f = some (.error e) → P e

theorem FailsWith.perform {P : Failure → Prop} (h : w.FailsWith P) (c : Call) : (w.perform c).2.FailsWith P :=
  forall_perform h c

/-- The failure that the next call on a channel will meet. -/
theorem FailsWith.next {P : Failure → Prop} {p : Channel} {e : Failure} (h : w.FailsWith P)
    (he : (w.takeFault p).1 = some (.error e)) : P e := by
  rcases (forall_takeFault h p).1 with hnone | hfault
  · rw [hnone] at he
    cases he
  · exact hfault e he

/-- No fault that a call will meet claims that something does not exist. -/
def Honest (w : World) : Prop := ∀ p, ∀ f ∈ w.faultsOf p, ∀ e, f = some (.error e) → e.isNotFound = false

theorem FaultFree.honest (h : w.FaultFree) : w.Honest := by
  intro p f hf e he
  rw [h p f hf] at he
  cases he

theorem Honest.perform (h : w.Honest) (c : Call) : (w.perform c).2.Honest :=
  FailsWith.perform (P := fun e => e.isNotFound = false) h c

/-- Among honest faults a read that finds nothing tells the truth. -/
theorem Honest.truthful (h : w.Honest) (c : Call) : Moment.Truthful ⟨w, c⟩ := by
  rintro n e ⟨rfl, hans⟩ he
  have hmet := w.components_takeFault Channel.componentGet
  have hserved : ∀ v : World, outcomeOf (v.serve (.getComponent n)).1 = .answered (.error e) →
      v.components.find? n = none := by
    intro v hv
    cases hget : v.components.get n with
    | ok x =>
      simp only [serve, outcomeOf, hget] at hv
      cases hv
    | error e' =>
      simp only [serve, outcomeOf, hget] at hv
      cases hv
      exact ComponentStore.find?_of_get_notFound hget he
  change ((w.takeFault Channel.componentGet).2.meet (.getComponent n) (w.takeFault Channel.componentGet).1).1 =
    .answered (.error e) at hans
  rcases meet_component (c := .getComponent n) (w.takeFault Channel.componentGet).2 rfl
    (w.takeFault Channel.componentGet).1 with ⟨e', hfault, hmeet⟩ | hmeet | ⟨m, -, hmeet⟩
  · rw [hmeet] at hans
    cases hans
    rw [FailsWith.next (P := fun e => e.isNotFound = false) h hfault] at he
    cases he
  · rw [hmeet] at hans
    rw [← hmet]
    exact hserved _ hans
  · rw [hmeet] at hans
    have hgone := hserved _ hans
    rw [← hmet]
    exact ComponentStore.find?_eq_none_of_touch hgone

/-- A change among honest faults makes its calls among them. -/
theorem honest_change (m : Mutation) {past : List Moment} (h : w.Honest) :
    Errand.Obeys (fun _ p => p.before.Honest) (fun _ _ w => w.Honest) (Errand.change m) past w := by
  refine Errand.obeys_change_kept (fun _ _ _ _ hw => hw) ?_ ?_ h
  · intro _ w r w' hw hask
    obtain rfl : (w.ask (.getComponent m.target)).2 = w' := congrArg Prod.snd hask
    rw [ask_snd]
    exact hw.perform _
  · intro _ w fresh wr hw _ _
    rw [store_snd]
    exact hw.perform _

/-- Among honest faults all reads of a run are truthful. -/
theorem truthful_moments (p : Program α) (h : w.Honest) : ∀ m ∈ w.moments p, m.Truthful := by
  have hcalls : p.Obeys (fun _ m => m.before.Honest) (fun _ _ w => w.Honest) [] w := by
    refine Program.obeys_of_confined p.confined_true ?_ (fun _ _ m _ => honest_change m) ?_ h
    · exact fun _ w c _ hw => ⟨hw, hw.perform c⟩
    · exact fun _ w note hw => by cases note <;> exact hw
  exact fun m hm => (hcalls.calls.forall m hm).truthful m.call

end World

end ChartOperator
