import ChartOperator.Proofs.World.Confined

set_option autoImplicit false

/-!
# What a run leaves behind

Calls and changes leave no notes, so the events and counts of a run are those that the program itself leaves.
`World.Noted` says what was added between two worlds; the health verdicts that were counted on the way are
left out. A program that leaves nothing but them is `Discreet`, which is read off the program.
-/

namespace ChartOperator

namespace World

variable {w w' w'' : World} {events events' : List Event} {counts counts' : List Metric}

/-- These events were added, in their order, and beside verdicts these counts. -/
structure Noted (w w' : World) (events : List Event) (counts : List Metric) : Prop where
  events : w'.events = events.reverse ++ w.events
  counts : ∀ m, (∀ h, m ≠ .health h) → w'.counts.count m = w.counts.count m + counts.count m

theorem noted_of_eq (hevents : w'.events = w.events) (hcounts : w'.counts = w.counts) : Noted w w' [] [] :=
  ⟨hevents, fun m _ => by rw [hcounts, List.count_nil, Nat.add_zero]⟩

theorem Noted.refl (w : World) : Noted w w [] [] := noted_of_eq rfl rfl

theorem Noted.trans (h : Noted w w' events counts) (h' : Noted w' w'' events' counts') :
    Noted w w'' (events ++ events') (counts ++ counts') where
  events := by rw [h'.events, h.events, List.reverse_append, List.append_assoc]
  counts m hm := by rw [h'.counts m hm, h.counts m hm, List.count_append, Nat.add_assoc]

theorem noted_event (w : World) (e : Event) : Noted w (w.leave (.event e)) [e] [] := ⟨rfl, fun _ _ => rfl⟩

theorem noted_count (w : World) (m : Metric) : Noted w (w.leave (.count m)) [] [m] := by
  refine ⟨rfl, fun m' _ => ?_⟩
  have hcounts : (w.leave (.count m)).counts = m :: w.counts := rfl
  rw [hcounts, List.count_cons, List.count_singleton]

/-- The count of a verdict is left out. -/
theorem noted_verdict (w : World) (h : Health) : Noted w (w.leave (.count (.health h))) [] [] := by
  refine ⟨rfl, fun m hm => ?_⟩
  have hcounts : (w.leave (.count (.health h))).counts = .health h :: w.counts := rfl
  rw [hcounts, List.count_cons_of_ne (Ne.symm (hm h)), List.count_nil, Nat.add_zero]

theorem noted_perform (w : World) (c : Call) : Noted w (w.perform c).2 [] [] :=
  noted_of_eq (w.notes_perform c).1 (w.notes_perform c).2

theorem noted_change (w : World) (m : Mutation) : Noted w (w.change m).2 [] [] := by
  have hchange : Errand.Obeys (fun _ _ => True) (fun _ _ w' => Noted w w' [] []) (Errand.change m) [] w := by
    refine Errand.obeys_change_of_perform (fun _ _ _ => trivial) ?_ (.refl w)
    exact fun _ v c _ hv => hv.trans (noted_perform v c)
  exact hchange.ending _ _ rfl

end World

namespace Program

variable {α β : Type}

/-- The program leaves no notes but the counts of health verdicts. -/
def Discreet : Program α → Prop
  | done _ => True
  | call _ next => ∀ a, (next a).Discreet
  | mutate _ next => ∀ r, (next r).Discreet
  | note n next => (∃ h, n = .count (.health h)) ∧ next.Discreet

theorem discreet_andThen {p : Program α} {f : α → Program β} (h : p.Discreet) (hf : ∀ a, (f a).Discreet) :
    (p.andThen f).Discreet := by
  induction p with
  | done a => exact hf a
  | call c next ih => exact fun a => ih a (h a)
  | mutate m next ih => exact fun r => ih r (h r)
  | note n next ih => exact ⟨h.1, ih h.2⟩

/-- The run of a discreet program adds nothing. -/
theorem Discreet.noted {p : Program α} (h : p.Discreet) (w : World) : World.Noted w (w.run p).2 [] [] := by
  induction p generalizing w with
  | done a => exact .refl w
  | call c next ih =>
    have hcall := w.noted_perform c
    rw [World.run_call]
    cases (w.perform c).1 with
    | answered a => exact hcall.trans (ih a (h a) _)
    | crashed => exact hcall
    | held => exact hcall
  | mutate m next ih => exact (w.noted_change m).trans (ih _ (h _) _)
  | note n next ih =>
    obtain ⟨⟨v, rfl⟩, hnext⟩ := h
    exact (w.noted_verdict v).trans (ih hnext _)

end Program

namespace Errand

variable {α β : Type} {t : Errand α} {f : α → Errand β}

/-- The errand leaves no notes but the counts of health verdicts. -/
abbrev Discreet (t : Errand α) : Prop := Program.Discreet t.run

theorem discreet_pure (a : α) : Discreet (pure a : Errand α) := trivial

theorem discreet_throw (e : Failure) : Discreet (throw e : Errand α) := trivial

theorem discreet_lift (r : Except Failure α) : Discreet (liftM r : Errand α) := trivial

theorem discreet_bind (h : Discreet t) (hf : ∀ a, Discreet (f a)) : Discreet (t >>= f) := by
  refine Program.discreet_andThen h fun r => ?_
  cases r with
  | ok a => exact hf a
  | error e => trivial

theorem discreet_mapFailure {g : Failure → Failure} (h : Discreet t) : Discreet (t.mapFailure g) :=
  Program.discreet_andThen h fun _ => trivial

theorem discreet_outcome (h : Discreet t) : Discreet t.outcome := Program.discreet_andThen h fun _ => trivial

theorem discreet_discard (h : Discreet t) : Discreet (discard t) :=
  Program.discreet_andThen h fun r => by cases r <;> trivial

theorem discreet_ask (c : Call) : Discreet (ask c) := fun _ => trivial

theorem discreet_change (m : Mutation) : Discreet (change m) := fun _ => trivial

theorem discreet_verdict (h : Health) : Discreet (count (.health h)) := ⟨⟨h, rfl⟩, trivial⟩

theorem discreet_forAll {ι : Type} {t : ι → Errand α} (h : ∀ i, Discreet (t i)) (items : List ι) :
    Discreet (forAll items t) := by
  have hfailures : (failuresOf t items).Discreet := by
    induction items with
    | nil => trivial
    | cons i items ih =>
      exact Program.discreet_andThen (h i) fun _ => Program.discreet_andThen ih fun _ => trivial
  exact Program.discreet_andThen hfailures fun _ => trivial

end Errand

end ChartOperator
