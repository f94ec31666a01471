import ChartOperator.Proofs.Lifecycle.Choice
import ChartOperator.Proofs.Lifecycle.Outcomes

set_option autoImplicit false

/-!
# Passes that carry out nothing

A pass carries out nothing if it chooses no operation, one that asks for nothing, or one that it refuses: a
downgrade, or any operation on a component that is not named after its chart. `Refrained` lists how such a
pass ends, what it tells and what it counts, and `nothing_carried_out` says that this is all: nothing is
written and nothing is ordered, so every component and every release is left as it was.

Another writer may touch a component while the pass reads it, so the components are left as that one read
found them (`World.foundComponents`).
-/

namespace ChartOperator

open Errand

/-! ## How such a pass ends -/

/-- The pass carries out nothing: if it chooses an operation, then one that asks for nothing, or one that it
refuses. -/
def Refrains (config : Config) (name : String) (w : World) : Prop :=
  ∀ c op, chosen? config name w = some (c, op) →
    op = .ignore ∨ (∃ installed requested, op = .downgrade installed requested) ∨ c.name ≠ c.spec.name

/-- The event of an operation that is refused. -/
def refusalEvent (c : Component) (reason : String) (e : Failure) : Event := ⟨c, .warning, reason, e.message⟩

/-- How a pass ends that carries out nothing, with the events that it leaves and what it counts. -/
inductive Refrained (config : Config) (name : String) (w : World) :
    World.Ending (Except Failure NextPass) → List Event → List Metric → Prop
  /-- There is no such component. -/
  | missing {e : Failure} (hread : (w.ask (.getComponent name)).1 = .error e) (hgone : e.isNotFound = true) :
    Refrained config name w (.finished (.ok .onChange)) [] []
  /-- The component could not be read. -/
  | unread {e : Failure} (hread : (w.ask (.getComponent name)).1 = .error e) (hfailed : e.isNotFound = false) :
    Refrained config name w (.finished (.error e)) [] []
  /-- No operation could be chosen. -/
  | unchosen {c : Component} {e : Failure} {w₁ w₂ : World} (hread : w.ask (.getComponent name) = (.ok c, w₁))
    (hchoice : w₁.run (requiredOperation c (chartSpecOf config c)).run = (.finished (.error e), w₂)) :
    Refrained config name w (.finished (.error e)) [] []
  /-- The choice crashed. -/
  | crashed {c : Component} {w₁ w₂ : World} (hread : w.ask (.getComponent name) = (.ok c, w₁))
    (hchoice : w₁.run (requiredOperation c (chartSpecOf config c)).run = (.crashed, w₂)) :
    Refrained config name w .crashed [] []
  | ignored {c : Component} (hchosen : chosen? config name w = some (c, .ignore)) :
    Refrained config name w (.finished (.ok .onChange)) [] [.reconciliations Operation.ignore.text]
  | downgrade {c : Component} {installed requested : String}
    (hchosen : chosen? config name w = some (c, .downgrade installed requested)) :
    Refrained config name w (.finished (.error (.downgrade c.name installed requested)))
      [refusalEvent c downgradeReason (.downgrade c.name installed requested)]
      [.reconciliations (Operation.downgrade installed requested).text]
  | misnamed {c : Component} {op : Operation} {t : Errand Unit} {reason : String} {fallback : Lifecycle}
    (hchosen : chosen? config name w = some (c, op)) (hop : Executes config c op t reason fallback)
    (hname : c.name ≠ c.spec.name) :
    Refrained config name w (.finished (.error (.nameMismatch c.name c.spec.name)))
      [refusalEvent c validationReason (.nameMismatch c.name c.spec.name)] [.reconciliations op.text]

/-- The pass only asks, ends like this, and leaves these events and counts. Nothing else is changed but by
another writer who is faster than its read. -/
structure Leaves (config : Config) (name : String) (w : World) (ending : World.Ending (Except Failure NextPass))
    (events : List Event) (counts : List Metric) : Prop where
  calls : ∀ m ∈ w.moments (reconcile config name).run, m.call.IsQuery
  ending : (w.run (reconcile config name).run).1 = ending
  unchanged : World.Unchanged
    { w with components := w.foundComponents, events := events ++ w.events, counts := counts ++ w.counts }
    (w.run (reconcile config name).run).2

section Pass

variable {config : Config} {name : String} {c : Component} {op : Operation} {t : Errand Unit} {reason : String}
  {fallback : Lifecycle} {w w₁ w₂ : World} {e : Failure}

/-- A component that is not named after its chart is told so, and nothing else is done. -/
theorem dispatch_of_misnamed (hop : Executes config c op t reason fallback) (hname : c.name ≠ c.spec.name) :
    w.run (dispatch config c op).run = (.finished (.error (.nameMismatch c.name c.spec.name)),
        w.leave (.event (refusalEvent c validationReason (.nameMismatch c.name c.spec.name)))) ∧
      w.moments (dispatch config c op).run = [] := by
  rw [hop.dispatch_eq, carryOut_of_misnamed config op t reason fallback hname]
  exact ⟨rfl, rfl⟩

theorem leaves_of_unread (config : Config) (hread : w.ask (.getComponent name) = (.error e, w₁)) :
    Leaves config name w (.finished (if e.isNotFound then .ok .onChange else .error e)) [] [] := by
  obtain ⟨hrun, hmoments⟩ := reconcile_of_unread config hread
  have hfound := w.unchanged_get name
  rw [← World.ask_snd, hread] at hfound
  refine ⟨?_, congrArg Prod.fst hrun, ?_⟩
  · rw [hmoments]
    exact fun m hm => List.mem_singleton.1 hm ▸ ⟨rfl, rfl⟩
  · rw [hrun]
    exact hfound

/-- What a pass has done when it has made its choice: it has read the component, and inquired. -/
theorem unchanged_choice (config : Config) (hread : w.ask (.getComponent name) = (.ok c, w₁)) :
    World.Unchanged { w with components := w.foundComponents }
        (w₁.run (requiredOperation c (chartSpecOf config c)).run).2 ∧
      (w₁.run (requiredOperation c (chartSpecOf config c)).run).1 ≠ .held ∧
      ∀ m ∈ ⟨w, .getComponent name⟩ :: w₁.moments (requiredOperation c (chartSpecOf config c)).run,
        m.call.IsQuery := by
  have hfound := w.unchanged_get name
  rw [← World.ask_snd, hread] at hfound
  obtain ⟨hchoice, hheld⟩ := World.unchanged_run (w := w₁) (onlyCalls_requiredOperation c (chartSpecOf config c))
    (inquires_requiredOperation c _)
  refine ⟨hfound.trans hchoice, hheld, List.forall_mem_cons.2 ⟨⟨rfl, rfl⟩, ?_⟩⟩
  exact Program.calls_of_confined (asks_requiredOperation c _) w₁

/-- The choice of an operation does not wait. -/
theorem choice_ne_held (config : Config) (hread : w.ask (.getComponent name) = (.ok c, w₁)) :
    w₁.run (requiredOperation c (chartSpecOf config c)).run ≠ (.held, w₂) := by
  intro hchoice
  obtain ⟨-, hheld, -⟩ := unchanged_choice config hread
  exact hheld (congrArg Prod.fst hchoice)

/-- A pass whose choice comes to no operation ends with it. -/
theorem leaves_of_unchosen {stop : World.Ending (Except Failure Operation)}
    {ending : World.Ending (Except Failure NextPass)} (hread : w.ask (.getComponent name) = (.ok c, w₁))
    (hchoice : w₁.run (requiredOperation c (chartSpecOf config c)).run = (stop, w₂))
    (hstops : ∀ f : Operation → Errand NextPass,
      w₁.run (requiredOperation c (chartSpecOf config c) >>= f).run = (ending, w₂) ∧
        w₁.moments (requiredOperation c (chartSpecOf config c) >>= f).run =
          w₁.moments (requiredOperation c (chartSpecOf config c)).run) :
    Leaves config name w ending [] [] := by
  obtain ⟨hrun, hmoments⟩ := reconcile_of_read config hread
  obtain ⟨hrest, hrestMoments⟩ := hstops fun op => do
    Errand.count (.reconciliations op.text)
    dispatch config c op
  obtain ⟨hunchanged, -, hqueries⟩ := unchanged_choice config hread
  rw [hchoice] at hunchanged
  rw [hrest] at hrun
  refine ⟨?_, congrArg Prod.fst hrun, ?_⟩
  · rw [hmoments, hrestMoments]
    exact hqueries
  · rw [hrun]
    exact hunchanged

/-- A pass that acts on its choice without a call leaves what it tells then, and the count of the choice. -/
theorem leaves_of_chosen {ending : World.Ending (Except Failure NextPass)} {events : List Event}
    (hchosen : chosen? config name w = some (c, op))
    (hrun : (choiceEnd config name w c op).run (dispatch config c op).run =
      (ending, { choiceEnd config name w c op with events := events ++ (choiceEnd config name w c op).events }))
    (hmoments : (choiceEnd config name w c op).moments (dispatch config c op).run = []) :
    Leaves config name w ending events [.reconciliations op.text] := by
  obtain ⟨w₁, w₂, hread, hchoice, hend⟩ := exists_choice hchosen
  obtain ⟨hunchanged, -, -⟩ := unchanged_choice config hread
  rw [hchoice] at hunchanged
  obtain ⟨hcomponents, hworkloads, hcharts, hevents, hcounts⟩ := hunchanged
  obtain ⟨hpass, asked, hasked, hpassMoments⟩ := run_reconcile hchosen
  rw [hrun] at hpass
  rw [hmoments, List.append_nil] at hpassMoments
  refine ⟨hpassMoments ▸ hasked, congrArg Prod.fst hpass, ?_⟩
  rw [hpass, hend]
  exact ⟨hcomponents, hworkloads, hcharts, congrArg (events ++ ·) hevents,
    congrArg (Metric.reconciliations op.text :: ·) hcounts⟩

/-- A pass that carries out nothing changes nothing: it only asks, and components, workloads and releases are as
its read found them. All that it leaves are the event of a refusal and the count of its choice, if it came to
one. -/
theorem nothing_carried_out (h : Refrains config name w) :
    ∃ ending events counts, Refrained config name w ending events counts ∧
      Leaves config name w ending events counts := by
  rcases hread : w.ask (.getComponent name) with ⟨e | c, w₁⟩
  · have herror : (w.ask (.getComponent name)).1 = .error e := congrArg Prod.fst hread
    have hleaves := leaves_of_unread config hread
    cases hgone : e.isNotFound with
    | true =>
      rw [hgone] at hleaves
      exact ⟨_, _, _, .missing herror hgone, hleaves⟩
    | false =>
      rw [hgone] at hleaves
      exact ⟨_, _, _, .unread herror hgone, hleaves⟩
  rcases hchoice : w₁.run (requiredOperation c (chartSpecOf config c)).run with ⟨(e | op) | _ | _, w₂⟩
  · have hleaves := leaves_of_unchosen hread hchoice fun _ => World.run_bind_of_error hchoice
    exact ⟨_, _, _, .unchosen hread hchoice, hleaves⟩
  · have hchosen := chosen?_of_choice hread (congrArg Prod.fst hchoice)
    have hmisnamed : ∀ {t reason fallback}, Executes config c op t reason fallback → c.name ≠ c.spec.name →
        ∃ ending events counts, Refrained config name w ending events counts ∧
          Leaves config name w ending events counts := by
      intro t reason fallback hop hname
      obtain ⟨hrun, hmoments⟩ := dispatch_of_misnamed (w := choiceEnd config name w c op) hop hname
      exact ⟨_, [_], _, .misnamed hchosen hop hname, leaves_of_chosen hchosen hrun hmoments⟩
    rcases h c op hchosen with rfl | ⟨installed, requested, rfl⟩ | hname
    · exact ⟨_, [], _, .ignored hchosen, leaves_of_chosen hchosen rfl rfl⟩
    · exact ⟨_, [_], _, .downgrade hchosen, leaves_of_chosen hchosen rfl rfl⟩
    · cases op with
      | ignore => exact ⟨_, [], _, .ignored hchosen, leaves_of_chosen hchosen rfl rfl⟩
      | downgrade => exact ⟨_, [_], _, .downgrade hchosen, leaves_of_chosen hchosen rfl rfl⟩
      | install => exact hmisnamed .install hname
      | upgrade => exact hmisnamed .upgrade hname
      | delete => exact hmisnamed .delete hname
  · have hleaves := leaves_of_unchosen hread hchoice fun _ => World.run_bind_of_crashed hchoice
    exact ⟨_, _, _, .crashed hread hchoice, hleaves⟩
  · exact absurd hchoice (choice_ne_held config hread)

/-- A downgrade is told, and changes nothing. -/
theorem nothing_carried_out_downgrade :
    let c := sampleComponent "0.1.0" .installed []
    let w := sampleWorld c [sampleRelease "ecosystem" "0.2.0"]
    let refusal := Failure.downgrade "dogu-op" "0.2.0" "0.1.0"
    Refrains {} "dogu-op" w ∧
      Leaves {} "dogu-op" w (.finished (.error refusal)) [refusalEvent c downgradeReason refusal]
        [.reconciliations "downgrade"] := by
  intro c w refusal
  have hchosen : chosen? {} "dogu-op" w = some (c, .downgrade "0.2.0" "0.1.0") := by decide +kernel
  have hrefrains : Refrains {} "dogu-op" w := by
    intro c' op h
    cases hchosen.symm.trans h
    exact .inr (.inl ⟨_, _, rfl⟩)
  obtain ⟨w₁, w₂, hread, hchoice, -⟩ := exists_choice hchosen
  obtain ⟨ending, events, counts, hrefrained, hleaves⟩ := nothing_carried_out hrefrains
  refine ⟨hrefrains, ?_⟩
  -- The component was read and an operation was chosen, so only the row of a downgrade is left.
  cases hrefrained with
  | downgrade h =>
    cases hchosen.symm.trans h
    exact hleaves
  | missing hfailed | unread hfailed =>
    rw [hread] at hfailed
    cases hfailed
  | unchosen hread' hstopped | crashed hread' hstopped =>
    cases hread.symm.trans hread'
    cases hchoice.symm.trans hstopped
  | ignored h => cases hchosen.symm.trans h
  | misnamed h hop =>
    cases hchosen.symm.trans h
    cases hop

end Pass

end ChartOperator
