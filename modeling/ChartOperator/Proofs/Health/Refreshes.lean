import ChartOperator.Health.Watch
import ChartOperator.Proofs.Health.Verdicts

set_option autoImplicit false

/-!
# Updates of health one at a time

Where nothing acts beside it, an update stores the verdict on the workloads that are there, and does nothing to
other components (`World.run_updateHealth`). So does a watch that handles workloads one by one, for the
components that these belong to (`World.refreshEach_eq`): it does not crash, and leaves behind what
`ComponentStore.Refreshed` says. An update fails only where the component is missing, and is then passed over.
-/

namespace ChartOperator

section Refreshing

variable {n space : String} {ns ms : List String} {verdict : String → Health} {s s' s'' : ComponentStore}
  {w w' : World}

/-- The health of some components was set, and every other component is as it was. Of a component with a comma
in its name nothing is said, since no selector picks its workloads out. -/
structure ComponentStore.Refreshed (ns : List String) (verdict : String → Health) (s s' : ComponentStore) : Prop where
  stored : ∀ n ∈ ns, ',' ∉ n.toList → ∀ x, s'.find? n = some x → x.health = verdict n
  others : ∀ n, n ∉ ns → s'.find? n = s.find? n
  stays : s.Stays s'

namespace ComponentStore

theorem Stays.refl (s : ComponentStore) : s.Stays s := fun _ x hx hstays => ⟨x, hx, hstays⟩

theorem Stays.trans (h : s.Stays s') (h' : s'.Stays s'') : s.Stays s'' := by
  intro n x hx hstays
  obtain ⟨y, hy, hstays'⟩ := h n x hx hstays
  exact h' n y hy hstays'

theorem Refreshed.nil (verdict : String → Health) (s : ComponentStore) : Refreshed [] verdict s s :=
  ⟨fun _ h => (List.not_mem_nil h).elim, fun _ _ => rfl, .refl s⟩

theorem Refreshed.append (h : Refreshed ns verdict s s') (h' : Refreshed ms verdict s' s'') :
    Refreshed (ns ++ ms) verdict s s'' where
  stored := by
    intro n hn hname x hx
    by_cases hlater : n ∈ ms
    · exact h'.stored n hlater hname x hx
    · rw [h'.others n hlater] at hx
      exact h.stored n ((List.mem_append.1 hn).resolve_right hlater) hname x hx
  others := by
    intro n hn
    obtain ⟨hfirst, hlater⟩ := not_or.1 (mt List.mem_append.2 hn)
    exact (h'.others n hlater).trans (h.others n hfirst)
  stays := h.stays.trans h'.stays

/-- A store without the component is refreshed as it is. -/
theorem refreshed_of_items (hitems : s'.items = s.items) (hmissing : ',' ∉ n.toList → s.find? n = none) :
    Refreshed [n] verdict s s' where
  stored := by
    intro k hk hname x hx
    obtain rfl := List.mem_singleton.1 hk
    rw [find?_congr hitems, hmissing hname] at hx
    cases hx
  others := fun k _ => find?_congr hitems k
  stays := (Stays.refl s).same hitems

theorem Judges.refreshed {v : Health} (h : Judges n v s s') (hv : ',' ∉ n.toList → v = verdict n) :
    Refreshed [n] verdict s s' where
  stored := by
    intro k hk hname x hx
    obtain rfl := List.mem_singleton.1 hk
    rw [h.health hx, hv hname]
  others := fun k hk => h.others k (mt List.mem_singleton.2 hk)
  stays := (Stays.refl s).judges h

end ComponentStore

/-! ## One update -/

/-- A change that sets health and is alone has stored it, or the component is missing. -/
theorem Mutation.turns_setHealth {v : Health} {k : Nat} {stage : Stage} (hworking : s.Working)
    (hturns : (Mutation.setHealth n v none).turns k (.reading, s) = (stage, s')) :
    s'.Working ∧
      ((s'.items = s.items ∧ stage.Carries n v ∧ (∀ o, stage ≠ .returned (.ok o)) ∧
          ∀ e, stage = .returned (.error e) → s.find? n = none) ∨
        (ComponentStore.Judges n v s s' ∧ ∃ y, stage = .returned (.ok (some y)))) := by
  induction k generalizing stage s' with
  | zero =>
    cases hturns
    exact ⟨hworking, .inl ⟨rfl, fun wr h => Stage.noConfusion h, fun o h => Stage.noConfusion h,
      fun e h => Stage.noConfusion h⟩⟩
  | succ k ih =>
    rcases hbefore : (Mutation.setHealth n v none).turns k (.reading, s) with ⟨stage₁, s₁⟩
    obtain ⟨hworking₁, hcases⟩ := ih hbefore
    rw [turns, hbefore] at hturns
    have hturn : (Mutation.setHealth n v none).turn s₁ stage₁ = (stage, s') := hturns
    have hworking' := hworking₁.turn (Mutation.setHealth n v none) stage₁
    rw [hturn] at hworking'
    refine ⟨hworking', ?_⟩
    rcases hcases with ⟨hitems, hcarries, hopen, hmissing⟩ | ⟨hjudges, y, rfl⟩
    · by_cases hreturned : ∃ e, stage₁ = .returned (.error e)
      · obtain ⟨e, rfl⟩ := hreturned
        cases hturns
        exact .inl ⟨hitems, hcarries, hopen, hmissing⟩
      · have hnone : ∀ r, stage₁ ≠ .returned r := by
          intro r hr
          cases r with
          | ok o => exact hopen o hr
          | error e => exact hreturned ⟨e, hr⟩
        have hfind : ∀ k, s₁.find? k = s.find? k := ComponentStore.find?_congr hitems
        rcases hcarries.turn hnone hturns with ⟨hsame, -, hcarries', hopen', hmissing'⟩ | ⟨hjudges, -, hy⟩
        · refine .inl ⟨hsame.trans hitems, hcarries', hopen', fun e he => ?_⟩
          rw [← hfind]
          exact hmissing' hworking₁ e he
        · obtain ⟨x, y, hx, hrest⟩ := hjudges.stored
          exact .inr ⟨⟨⟨x, y, hfind n ▸ hx, hrest⟩, fun k hk => (hjudges.others k hk).trans (hfind k)⟩, hy⟩
    · cases hturns
      exact .inr ⟨hjudges, y, rfl⟩

namespace World

/-- What an update of health leaves where nothing acts beside it. -/
structure Refreshes (ns : List String) (space : String) (w w' : World) : Prop where
  keeps : w.KeepsWorkloads w'
  working : w'.components.Working
  refreshed : ComponentStore.Refreshed ns (fun n => Workload.verdict (w.workloads.belonging n space))
    w.components w'.components

theorem Refreshes.append {w'' : World} (h : w.Refreshes ns space w') (h' : w'.Refreshes ms space w'') :
    w.Refreshes (ns ++ ms) space w'' where
  keeps := ⟨h'.keeps.workloads.trans h.keeps.workloads, h'.keeps.free⟩
  working := h'.working
  refreshed := by
    have hlater := h'.refreshed
    rw [h.keeps.workloads] at hlater
    exact h.refreshed.append hlater

theorem change_setHealth {v : Health} (hfree : w.FaultFree) (hworking : w.components.Working) :
    w.Beside (w.change (.setHealth n v none)).2 ∧ (w.change (.setHealth n v none)).2.components.Working ∧
      (((w.change (.setHealth n v none)).2.components.items = w.components.items ∧ w.components.find? n = none) ∨
        ComponentStore.Judges n v w.components (w.change (.setHealth n v none)).2.components) := by
  obtain ⟨k, hk⟩ := turns_change ((Edit.setHealth v none).sound_mutation n) hfree
  obtain ⟨hworking', hcases⟩ := Mutation.turns_setHealth hworking hk
  refine ⟨beside_change hfree _, hworking', hcases.imp ?_ And.left⟩
  rintro ⟨hitems, -, hopen, hmissing⟩
  cases hresult : (w.change (.setHealth n v none)).1 with
  | ok o => exact (hopen o (congrArg Stage.returned hresult)).elim
  | error e => exact ⟨hitems, hmissing e (congrArg Stage.returned hresult)⟩

/-- An update stores the verdict on the workloads that are there, or its component is missing. -/
theorem run_updateHealth (hfree : w.FaultFree) (hworking : w.components.Working)
    (hlistable : w.workloads.failing = []) (n space : String) :
    ∃ r w', w.run (updateHealth n space none).run = (.finished r, w') ∧ w.Refreshes [n] space w' := by
  obtain ⟨calls, r, hrun, hcomes, hfree₁⟩ :=
    comes_of_faultFree hfree (onlyCalls_findWorkloads n space) (inquires_findWorkloads n space)
  obtain ⟨hsame, -⟩ := unchanged_run (w := w) (onlyCalls_findWorkloads n space) (inquires_findWorkloads n space)
  rcases hfound : w.run (findWorkloads n space).run with ⟨ending, w₁⟩
  rw [hfound] at hrun hsame hfree₁
  obtain rfl : ending = .finished r := hrun
  have hverdict : ',' ∉ n.toList → _ := fun hname => verdict_of_comes hname (hcomes.mono fun _ _ => lists_of_served)
  cases r with
  | error e =>
    refine ⟨_, w₁, (run_bind_of_error hfound).1, ⟨hsame.workloads, hfree₁⟩, hsame.components ▸ hworking, ?_⟩
    refine ComponentStore.refreshed_of_items (congrArg ComponentStore.items hsame.components) fun hname => ?_
    obtain ⟨ws, hws⟩ := (hverdict hname).2 hlistable
    cases hws
  | ok ws =>
    have hworking₁ : w₁.components.Working := hsame.components ▸ hworking
    obtain ⟨hbeside, hworking₂, hcases⟩ := change_setHealth (n := n) (v := Workload.verdict ws) hfree₁ hworking₁
    rw [hsame.components] at hcases
    have hrefreshed : ComponentStore.Refreshed [n] (fun n => Workload.verdict (w.workloads.belonging n space))
        w.components (w₁.change (.setHealth n (Workload.verdict ws) none)).2.components := by
      rcases hcases with ⟨hitems, hmissing⟩ | hjudges
      · exact ComponentStore.refreshed_of_items hitems fun _ => hmissing
      · exact hjudges.refreshed fun hname => (hverdict hname).1 ws rfl
    have hchanged : w₁.run (Errand.change (.setHealth n (Workload.verdict ws) none)).run =
        (.finished (w₁.change (.setHealth n (Workload.verdict ws) none)).1,
          (w₁.change (.setHealth n (Workload.verdict ws) none)).2) := rfl
    rcases hchange : w₁.change (.setHealth n (Workload.verdict ws) none) with ⟨res, w₂⟩
    rw [hchange] at hbeside hworking₂ hrefreshed hchanged
    have hpersisted : w₁.run (discard (persistHealth n (Workload.verdict ws) none)).run = _ :=
      run_discard (run_mapFailure hchanged)
    have hkeeps : w.KeepsWorkloads w₂ := ⟨hbeside.workloads.trans hsame.workloads, hbeside.free⟩
    unfold updateHealth
    rw [(run_bind_of_ok hfound).1]
    cases res with
    | error e => exact ⟨_, w₂, (run_bind_of_error hpersisted).1, hkeeps, hworking₂, hrefreshed⟩
    | ok o =>
      refine ⟨.ok (Workload.verdict ws), w₂.leave (.count (.health (Workload.verdict ws))), ?_,
        ⟨hkeeps.workloads, hkeeps.free⟩, hworking₂, hrefreshed⟩
      rw [(run_bind_of_ok hpersisted).1]
      rfl

/-- The present state of a workload is looked up. -/
theorem run_currentWorkload (hfree : w.FaultFree) (hlistable : w.workloads.failing = []) (kind : WorkloadKind)
    (space name : String) :
    ∃ found w', w.run (currentWorkload kind space name).run = (.finished (.ok found), w') ∧ w.KeepsWorkloads w' ∧
      w'.components = w.components ∧
      ∀ x, found = some x → x ∈ w.workloads.items ∧ WorkloadStore.isAt kind space name x = true := by
  let call : Call := .getWorkload kind space name
  have hserved : w.Served call (w.workloads.get kind space name) := rfl
  have hasked := (run_ask (hfree.answer hserved)).1
  have hsame := (w.unchanged_inquiry (c := call) rfl).1
  have hkeeps : w.KeepsWorkloads (w.perform call).2 :=
    ⟨hsame.workloads, (perform_of_faultFree hfree call).2.2.2.2⟩
  have hgoes : w.run (currentWorkload kind space name).run = _ := (run_bind_of_ok (run_outcome hasked).1).1
  rw [hgoes]
  unfold WorkloadStore.get
  rw [hlistable, if_neg (by simp)]
  cases hfind : w.workloads.items.find? (WorkloadStore.isAt kind space name) with
  | none => exact ⟨none, _, rfl, hkeeps, hsame.components, fun x hx => by cases hx⟩
  | some y =>
    refine ⟨some y, _, rfl, hkeeps, hsame.components, fun x hx => ?_⟩
    cases hx
    exact ⟨List.mem_of_find?_eq_some hfind, List.find?_some hfind⟩

/-- The component of a seen workload is refreshed, if what became of the workload belongs to it. -/
theorem run_refreshSeen {seen : Workload} (hfree : w.FaultFree) (hworking : w.components.Working)
    (hlistable : w.workloads.failing = []) (hspace : seen.namespace = space) (hcomponent : seen.component = some n)
    (hsame : ∀ x ∈ w.workloads.items, WorkloadStore.isAt seen.kind seen.namespace seen.name x = true →
      x.component = seen.component) :
    ∃ r w', w.run (refreshSeen seen).run = (.finished r, w') ∧ w.Refreshes [n] space w' := by
  obtain ⟨found, w₁, hfound, hkeeps, hcomponents, hcurrent⟩ :=
    run_currentWorkload hfree hlistable seen.kind seen.namespace seen.name
  obtain ⟨r, w₂, hrun, hrefreshes⟩ := run_updateHealth hkeeps.free (hcomponents ▸ hworking)
    (hkeeps.workloads ▸ hlistable) n space
  have howner : ∀ x : Workload, x.namespace = space → x.component = some n →
      w₁.run (updateOwner x).run = (.finished (r.map fun _ => ()), w₂) := by
    intro x hx hn
    unfold updateOwner
    rw [hn, hx]
    exact run_discard hrun
  have hgoes : w.run (refreshSeen seen).run = _ := (run_bind_of_ok hfound).1
  refine ⟨r.map fun _ => (), w₂, ?_, ⟨hrefreshes.keeps.workloads.trans hkeeps.workloads, hrefreshes.keeps.free⟩,
    hrefreshes.working, ?_⟩
  · rw [hgoes]
    cases found with
    | none => exact howner seen hspace hcomponent
    | some x =>
      obtain ⟨hx, hat⟩ := hcurrent x rfl
      have hplace : x.namespace = space := by
        simp only [WorkloadStore.isAt, Bool.and_eq_true, beq_iff_eq] at hat
        exact hat.1.2.trans hspace
      exact howner x hplace ((hsame x hx hat).trans hcomponent)
  · have hrefreshed := hrefreshes.refreshed
    rw [hkeeps.workloads, hcomponents] at hrefreshed
    exact hrefreshed

/-- A watch handles workloads one by one, and does not crash. -/
theorem refreshEach_eq {ws : List Workload} (hfree : w.FaultFree) (hworking : w.components.Working)
    (hlistable : w.workloads.failing = [])
    (hws : ∀ x ∈ ws, x.namespace = space ∧ x.component ≠ none ∧
      ∀ y ∈ w.workloads.items, WorkloadStore.isAt x.kind x.namespace x.name y = true → y.component = x.component) :
    ∃ w', refreshEach ws w = (true, w') ∧ w.Refreshes (ws.filterMap Workload.component) space w' := by
  induction ws generalizing w with
  | nil => exact ⟨w, rfl, ⟨rfl, hfree⟩, hworking, .nil _ _⟩
  | cons x ws ih =>
    obtain ⟨hspace, hlabelled, hsame⟩ := hws x List.mem_cons_self
    obtain ⟨n, hn⟩ := Option.ne_none_iff_exists'.1 hlabelled
    obtain ⟨r, w₁, hrun, hfirst⟩ := run_refreshSeen hfree hworking hlistable hspace hn hsame
    obtain ⟨w', heach, hrest⟩ := ih hfirst.keeps.free hfirst.working (hfirst.keeps.workloads ▸ hlistable)
      fun y hy => hfirst.keeps.workloads ▸ hws y (List.mem_cons_of_mem x hy)
    refine ⟨w', ?_, ?_⟩
    · rw [refreshEach, hrun]
      exact heach
    · rw [List.filterMap_cons_some hn]
      exact hfirst.append hrest

end World

end Refreshing

end ChartOperator
