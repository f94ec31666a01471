import ChartOperator.Proofs.World.Notes

set_option autoImplicit false

/-!
# Programs that only make calls

A program that makes no changes and leaves no notes is a dialogue: what it comes to depends on the answers to
its calls alone. `Program.Comes` says so without a world. Answers are a relation, so that it speaks of a chart
client that answers each call in one way (`Answers`) as well as of the calls of a run (`Said`).

A dialogue of inquiries changes nothing in the world that answers it (`World.unchanged_run`), and without faults
it comes to its result by what the stores answer (`World.comes_of_faultFree`).
-/

namespace ChartOperator

/-! ## What a dialogue comes to -/

/-- What may be answered to calls. -/
abbrev Replies : Type := (d : Call) → d.Answer → Prop

/-- A chart client gives this answer to a call. -/
def Answers (client : (d : Call) → d.Answer) : Replies := fun d a => client d = a

/-- A call of the run was answered so. -/
def Said (ms : List Moment) : Replies := fun d a => ∃ m ∈ ms, m.Answered d a

namespace Program

variable {α β : Type} {replies replies' : Replies} {p : Program α} {calls : List Call} {a : α}

/-- The program makes no changes and leaves no notes. -/
def OnlyCalls : Program α → Prop
  | done _ => True
  | call _ next => ∀ a, (next a).OnlyCalls
  | mutate _ _ => False
  | note _ _ => False

/-- Answered so, the program makes these calls and comes to this result. It does nothing else on its way. -/
inductive Comes (replies : Replies) : Program α → List Call → α → Prop
  | done (a : α) : Comes replies (done a) [] a
  | call {d : Call} {next : d.Answer → Program α} {answer : d.Answer} {calls : List Call} {a : α}
    (hreply : replies d answer) (hnext : Comes replies (next answer) calls a) :
    Comes replies (call d next) (d :: calls) a

theorem Comes.mono (h : p.Comes replies calls a) (hreply : ∀ d x, replies d x → replies' d x) :
    p.Comes replies' calls a := by
  induction h with
  | done a => exact .done a
  | call hanswer _ ih => exact .call (hreply _ _ hanswer) ih

/-- If each call has one answer at most, a program comes to one end. -/
theorem Comes.unique {calls' : List Call} {a' : α} (hreplies : ∀ d x y, replies d x → replies d y → x = y)
    (h : p.Comes replies calls a) (h' : p.Comes replies calls' a') : calls = calls' ∧ a = a' := by
  induction h generalizing calls' a' with
  | done a =>
    cases h'
    exact ⟨rfl, rfl⟩
  | call hanswer _ ih =>
    cases h' with
    | call hanswer' hnext' =>
      obtain rfl := hreplies _ _ _ hanswer hanswer'
      obtain ⟨rfl, rfl⟩ := ih hnext'
      exact ⟨rfl, rfl⟩

theorem OnlyCalls.exists_comes (h : p.OnlyCalls) (client : (d : Call) → d.Answer) :
    ∃ calls a, p.Comes (Answers client) calls a := by
  induction p with
  | done a => exact ⟨[], a, .done a⟩
  | call d next ih =>
    obtain ⟨calls, a, hcomes⟩ := ih (client d) (h (client d))
    exact ⟨d :: calls, a, .call rfl hcomes⟩
  | mutate => exact h.elim
  | note => exact h.elim

/-- A run that finishes comes to its result by what its calls were answered. -/
theorem OnlyCalls.comes_of_run {w w' : World} (h : p.OnlyCalls) (hrun : w.run p = (.finished a, w')) :
    p.Comes (Said (w.moments p)) ((w.moments p).map Moment.call) a := by
  induction p generalizing w with
  | done =>
    cases hrun
    exact .done a
  | call d next ih =>
    cases hperf : w.perform d with
    | mk o w₁ =>
      cases o with
      | answered answer =>
        simp only [World.run, hperf] at hrun
        simp only [World.moments, hperf]
        have hsaid : Said (⟨w, d⟩ :: w₁.moments (next answer)) d answer :=
          ⟨_, List.mem_cons_self, rfl, congrArg Prod.fst hperf⟩
        refine .call hsaid ((ih answer (h answer) hrun).mono ?_)
        rintro d' x ⟨m, hm, hanswered⟩
        exact ⟨m, List.mem_cons_of_mem _ hm, hanswered⟩
      | crashed =>
        simp only [World.run, hperf] at hrun
        cases hrun
      | held =>
        simp only [World.run, hperf] at hrun
        cases hrun
  | mutate => exact h.elim
  | note => exact h.elim

/-- What only makes calls tells nothing. -/
theorem OnlyCalls.discreet (h : p.OnlyCalls) : p.Discreet := by
  induction p with
  | done a => trivial
  | call d next ih => exact fun a => ih a (h a)
  | mutate => exact h.elim
  | note => exact h.elim

/-- What comes to a result in two parts comes to one in the first part, and goes on from there. -/
theorem comes_of_andThen {f : α → Program β} {b : β} (h : (p.andThen f).Comes replies calls b) :
    ∃ a first rest, p.Comes replies first a ∧ (f a).Comes replies rest b ∧ calls = first ++ rest := by
  induction p generalizing calls with
  | done a => exact ⟨a, [], calls, .done a, h, rfl⟩
  | call d next ih =>
    obtain _ | ⟨hreply, hnext⟩ := h
    obtain ⟨a, first, rest, hfirst, hrest, rfl⟩ := ih _ hnext
    exact ⟨a, d :: first, rest, .call hreply hfirst, hrest, rfl⟩
  | mutate => cases h
  | note => cases h

theorem onlyCalls_andThen {f : α → Program β} (h : p.OnlyCalls) (hf : ∀ a, (f a).OnlyCalls) :
    (p.andThen f).OnlyCalls := by
  induction p with
  | done a => exact hf a
  | call d next ih => exact fun a => ih a (h a)
  | mutate => exact h.elim
  | note => exact h.elim

end Program

namespace Errand

variable {α β : Type} {replies : Replies} {t : Errand α} {f : α → Errand β}
  {calls : List Call}

/-- The errand makes no changes and leaves no notes. -/
abbrev OnlyCalls (t : Errand α) : Prop := Program.OnlyCalls t.run

theorem onlyCalls_bind (h : OnlyCalls t) (hf : ∀ a, OnlyCalls (f a)) : OnlyCalls (t >>= f) := by
  refine Program.onlyCalls_andThen h fun r => ?_
  cases r with
  | ok a => exact hf a
  | error e => trivial

theorem onlyCalls_askIn (d : Call) (g : Failure → Failure) : OnlyCalls ((ask d).mapFailure g) :=
  fun _ => trivial

theorem onlyCalls_outcome (h : OnlyCalls t) : OnlyCalls t.outcome :=
  Program.onlyCalls_andThen h fun _ => trivial

/-- Answered so, the errand makes these calls and ends like this. -/
abbrev Comes (replies : Replies) (t : Errand α) (calls : List Call) (r : Except Failure α) : Prop :=
  Program.Comes replies t.run calls r

/-- An errand in two parts fails in the first one, or goes on with what that one returned. -/
theorem comes_of_bind {r : Except Failure β} (h : Comes replies (t >>= f) calls r) :
    (∃ e, Comes replies t calls (.error e) ∧ r = .error e) ∨
      ∃ a first rest, Comes replies t first (.ok a) ∧ Comes replies (f a) rest r ∧ calls = first ++ rest := by
  obtain ⟨o, first, rest, hfirst, hrest, rfl⟩ := Program.comes_of_andThen h
  cases o with
  | error e =>
    cases hrest
    exact .inl ⟨e, by rwa [List.append_nil], rfl⟩
  | ok a => exact .inr ⟨a, first, rest, hfirst, hrest, rfl⟩

theorem comes_of_ask {d : Call} {r : d.Answer} (h : Comes replies (ask d) calls r) : replies d r := by
  obtain _ | ⟨hreply, hnext⟩ := h
  cases hnext
  exact hreply

theorem comes_of_outcome {r : Except Failure (Except Failure α)} (h : Comes replies t.outcome calls r) :
    ∃ o, Comes replies t calls o ∧ r = .ok o := by
  obtain ⟨o, first, rest, hfirst, hrest, rfl⟩ := Program.comes_of_andThen h
  cases hrest
  exact ⟨o, by rwa [List.append_nil], rfl⟩

theorem comes_pure_iff {a : α} {r : Except Failure α} :
    Comes replies (pure a : Errand α) calls r ↔ calls = [] ∧ r = .ok a := by
  constructor
  · rintro (_ | _)
    exact ⟨rfl, rfl⟩
  · rintro ⟨rfl, rfl⟩
    exact .done _

theorem comes_lift_bind_ok {o : Except Failure α} {a : α} {r : Except Failure β} (h : o = .ok a) :
    Comes replies ((liftM o : Errand α) >>= f) calls r ↔ Comes replies (f a) calls r := by
  rw [h]
  exact Iff.rfl

theorem comes_lift_bind_error {o : Except Failure α} {e : Failure} {r : Except Failure β} (h : o = .error e) :
    Comes replies ((liftM o : Errand α) >>= f) calls r ↔ calls = [] ∧ r = .error e := by
  rw [h]
  constructor
  · rintro (_ | _)
    exact ⟨rfl, rfl⟩
  · rintro ⟨rfl, rfl⟩
    exact .done _

/-- A call in a context ends the errand with its failure, or leads on with its answer. -/
theorem comes_ask_bind_iff {d : Call} {g : Failure → Failure} {f : d.Result → Errand β} {r : Except Failure β} :
    Comes replies ((ask d).mapFailure g >>= f) calls r ↔
      (∃ e, replies d (.error e) ∧ calls = [d] ∧ r = .error (g e)) ∨
        ∃ a rest, replies d (.ok a) ∧ calls = d :: rest ∧ Comes replies (f a) rest r := by
  constructor
  · rintro (_ | @⟨_, _, answer, rest, _, hreply, hnext⟩)
    cases answer with
    | error e =>
      cases hnext
      exact .inl ⟨e, hreply, rfl, rfl⟩
    | ok a => exact .inr ⟨a, rest, hreply, rfl, hnext⟩
  · rintro (⟨e, hreply, rfl, rfl⟩ | ⟨a, rest, hreply, rfl, hrest⟩)
    · exact .call hreply (.done _)
    · exact .call hreply hrest

end Errand

/-! ## Runs that change nothing -/

namespace World

variable {α : Type} {w w' w'' : World} {c : Call}

/-- Nothing else is stored, deployed, told or counted. -/
structure Unchanged (w w' : World) : Prop where
  components : w'.components = w.components
  workloads : w'.workloads = w.workloads
  charts : w'.charts = w.charts
  events : w'.events = w.events
  counts : w'.counts = w.counts

theorem Unchanged.refl (w : World) : w.Unchanged w := ⟨rfl, rfl, rfl, rfl, rfl⟩

theorem Unchanged.trans (h : w.Unchanged w') (h' : w'.Unchanged w'') : w.Unchanged w'' where
  components := h'.components.trans h.components
  workloads := h'.workloads.trans h.workloads
  charts := h'.charts.trans h.charts
  events := h'.events.trans h.events
  counts := h'.counts.trans h.counts

theorem unchanged_takeFault (w : World) (p : Channel) : w.Unchanged (w.takeFault p).2 := by
  unfold takeFault
  split <;> exact ⟨rfl, rfl, rfl, rfl, rfl⟩

/-- The components that the next read finds: another writer may be faster. -/
def foundComponents (w : World) : ComponentStore :=
  match (w.takeFault .componentGet).1 with
  | some (.touch n) => w.components.touch n
  | _ => w.components

/-- Reading a component changes nothing but what another writer changed before. -/
theorem unchanged_get (w : World) (n : String) :
    Unchanged { w with components := w.foundComponents } (w.perform (.getComponent n)).2 := by
  obtain ⟨hcomponents, hworkloads, hcharts, hevents, hcounts⟩ := w.unchanged_takeFault .componentGet
  unfold foundComponents perform
  rcases hf : w.takeFault .componentGet with ⟨f, met⟩
  rw [hf] at hcomponents hworkloads hcharts hevents hcounts
  have htaken : w.takeFault (Call.getComponent n).channel = (f, met) := hf
  rw [htaken]
  match f with
  | none | some .empty | some .crash | some (.error e) =>
    exact ⟨hcomponents, hworkloads, hcharts, hevents, hcounts⟩
  | some (.touch m) => exact ⟨congrArg (·.touch m) hcomponents, hworkloads, hcharts, hevents, hcounts⟩

/-- The stores answer an inquiry. -/
theorem serve_inquiry (w : World) (h : c.isInquiry = true) : ∃ a, (w.serve c).1 = some a := by
  cases c <;> first | exact ⟨_, rfl⟩ | cases h

/-- What the stores of a world answer. -/
def Served (w : World) : Replies := fun d x => (w.serve d).1 = some x

theorem served_unique (d : Call) (x y : d.Answer) (hx : w.Served d x) (hy : w.Served d y) : x = y :=
  Option.some.inj (hx.symm.trans hy)

/-- An inquiry fails instead of being answered, is answered by the stores, is told that nothing is deployed, or
crashes. It leaves the world as it is. -/
theorem meet_inquiry (w : World) (hc : c.isInquiry = true) (f : Option Fault) :
    (∃ e, f = some (.error e) ∧ w.meet c f = (.answered (.error e), w)) ∨
      (∃ a, w.Served c a ∧ w.meet c f = (.answered a, w)) ∨
      (∃ r, w.meet c f = (.answered (.ok r), w)) ∨
      w.meet c f = (.crashed, w) := by
  have hchannel : c.channel.ofComponents = false := by cases c <;> first | rfl | cases hc
  have hcrash : crash c = .crashed := by cases c <;> first | rfl | cases hc
  obtain ⟨a, ha⟩ := w.serve_inquiry hc
  have hserved : (outcomeOf (w.serve c).1, (w.serve c).2) = (.answered a, w) := by
    rw [ha, w.serve_of_isRead (Call.isRead_of_isInquiry hc)]
    rfl
  cases f with
  | none => exact .inr (.inl ⟨a, ha, hserved⟩)
  | some fault =>
    cases fault with
    | error e => exact .inl ⟨e, rfl, rfl⟩
    | touch n =>
      refine .inr (.inl ⟨a, ha, ?_⟩)
      simp only [meet, hchannel]
      exact hserved
    | empty =>
      cases c with
      | listReleases => exact .inr (.inr (.inl ⟨[], rfl⟩))
      | _ => exact .inr (.inl ⟨a, ha, hserved⟩)
    | crash =>
      refine .inr (.inr (.inr ?_))
      simp only [meet, hchannel, hcrash]
      rfl

/-- An inquiry changes nothing, and is answered unless it crashes. -/
theorem unchanged_inquiry (w : World) (h : c.isInquiry = true) :
    w.Unchanged (w.perform c).2 ∧ (w.perform c).1 ≠ .held := by
  have htaken := w.unchanged_takeFault c.channel
  unfold perform
  rcases hf : w.takeFault c.channel with ⟨f, met⟩
  rw [hf] at htaken
  have hmet : ∃ out, met.meet c f = (out, met) ∧ out ≠ .held := by
    rcases met.meet_inquiry h f with ⟨e, -, he⟩ | ⟨a, -, ha⟩ | ⟨r, hr⟩ | hcrashed
    · exact ⟨_, he, nofun⟩
    · exact ⟨_, ha, nofun⟩
    · exact ⟨_, hr, nofun⟩
    · exact ⟨_, hcrashed, nofun⟩
  obtain ⟨out, hout, hheld⟩ := hmet
  simp only [hout]
  exact ⟨⟨htaken.components, htaken.workloads, htaken.charts, htaken.events, htaken.counts⟩, hheld⟩

/-- A run that only inquires changes nothing, and ends unless a call crashes. -/
theorem unchanged_run {p : Program α} (hcalls : p.OnlyCalls)
    (hinquires : p.Confined (fun c => c.isInquiry = true) fun _ => False) :
    w.Unchanged (w.run p).2 ∧ (w.run p).1 ≠ .held := by
  induction p generalizing w with
  | done a => exact ⟨.refl w, nofun⟩
  | call c next ih =>
    obtain ⟨hunchanged, hheld⟩ := w.unchanged_inquiry hinquires.1
    rw [run_call]
    cases hout : (w.perform c).1 with
    | answered a =>
      obtain ⟨hrest, hend⟩ := ih a (w := (w.perform c).2) (hcalls a) (hinquires.2 a)
      exact ⟨hunchanged.trans hrest, hend⟩
    | crashed => exact ⟨hunchanged, nofun⟩
    | held => exact absurd hout hheld
  | mutate => exact hcalls.elim
  | note => exact hcalls.elim

/-- Without faults a run that only inquires comes to its result by what the stores answer. -/
theorem comes_of_faultFree {p : Program α} (hfree : w.FaultFree) (hcalls : p.OnlyCalls)
    (hinquires : p.Confined (fun c => c.isInquiry = true) fun _ => False) :
    ∃ calls a, (w.run p).1 = .finished a ∧ p.Comes w.Served calls a ∧ (w.run p).2.FaultFree := by
  induction p generalizing w with
  | done a => exact ⟨[], a, rfl, .done a, hfree⟩
  | call c next ih =>
    obtain ⟨answer, hserved⟩ := w.serve_inquiry hinquires.1
    have hsame := (w.unchanged_inquiry hinquires.1).1
    have hfree' := (perform_of_faultFree hfree c).2.2.2.2
    obtain ⟨calls, a, hrun, hcomes, hfree''⟩ := ih answer hfree' (hcalls answer) (hinquires.2 answer)
    rw [run_call, hfree.answer hserved]
    refine ⟨c :: calls, a, hrun, .call hserved (hcomes.mono fun d x hx => ?_), hfree''⟩
    exact (serve_congr hsame.components hsame.workloads hsame.charts d).1.symm.trans hx
  | mutate => exact hcalls.elim
  | note => exact hcalls.elim

/-- Without faults a read finds what is stored. -/
theorem FaultFree.foundComponents_eq (h : w.FaultFree) : w.foundComponents = w.components := by
  have hnone := or_self_iff.1 (forall_takeFault (P := fun _ f => f = none) h .componentGet).1
  rw [foundComponents, hnone]

end World

end ChartOperator
