import ChartOperator.Proofs.Lifecycle.Deployments
import ChartOperator.Proofs.Lifecycle.InFlight

set_option autoImplicit false

/-!
# A pass that succeeds is the last one

In a world without faults an operation that succeeds brings the component and its release together
(`converges`): what is deployed is what the component asks for, and its status tells so. The next pass compares
just these, so it only asks, and waits for the component to change (`AtRest`).
-/

namespace ChartOperator

open ComponentStore (VersionFree withVersion)
open Errand

section Rest

variable {config : Config} {name : String} {x : Component} {r : Release} {P : ChartStore → Prop} {w : World}
  {V : Version}

end Rest

/-! ## Behind an operation -/

section Behind

variable {config : Config} {name : String} {c : Component} {op : Operation} {t : Errand Unit} {reason : String}
  {fallback : Lifecycle} {outcome : Except Failure Unit} {res : Except Failure NextPass}
  {D : World → Prop} {w w₁ w' : World}

/-- What is stable is kept by an errand that orders nothing. -/
theorem Stable.run {α : Type} {t : Errand α} {r : Except Failure α} {changes : Mutation → Prop} (hD : Stable D)
    (ht : Confined Call.IsQuery changes t) (hrun : w.run t.run = (.finished r, w')) (hw : D w) : D w' := by
  have hkept : Obeys (fun _ _ => True) (fun _ _ w' => D w') t [] w := by
    refine Program.obeys_of_confined ht (fun _ _ _ hc hw => ⟨trivial, hD.call hc.2 hw⟩) (fun _ _ _ _ hw => ?_)
      (fun _ _ note hw => hD.note note hw) hw
    exact obeys_change_of_perform (fun _ _ _ => trivial) (fun _ _ _ hc hw => hD.call hc hw) hw
  exact hkept.ending _ _ hrun

/-- A pass that chooses an operation has kept what is stable. -/
theorem Stable.choiceEnd (hD : Stable D) (hchosen : chosen? config name w = some (c, op)) (hw : D w) :
    D (choiceEnd config name w c op) := by
  obtain ⟨w₁, w₂, hread, hchoice, hend⟩ := exists_choice hchosen
  have hw₁ : D w₁ := by
    obtain rfl : (w.ask (.getComponent name)).2 = w₁ := congrArg Prod.snd hread
    rw [World.ask_snd]
    exact hD.call rfl hw
  rw [hend]
  exact hD.note _ (hD.run (asks_requiredOperation c _) hchoice hw₁)

/-- The operation apart, a pass keeps what is stable. -/
theorem Stable.conclude (hD : Stable D) (hchosen : chosen? config name w = some (c, op))
    (hop : Executes config c op t reason fallback) (hname : c.name = c.spec.name)
    (hoperation : ((ChartOperator.choiceEnd config name w c op).leave (.event (startEvent c op reason))).run t.run =
      (.finished outcome, w₁))
    (hrun : w.run (reconcile config name).run = (.finished res, w')) (hw₁ : D w₁) : D w' := by
  rw [(run_reconcile hchosen).1, hop.dispatch_of_named hname,
    (World.run_bind_of_ok (w := ChartOperator.choiceEnd config name w c op) (a := ()) rfl).1] at hrun
  have hrest := (World.run_bind_of_ok (World.run_outcome hoperation).1).1.symm.trans hrun
  exact hD.run (quiet_conclude config c op reason fallback outcome) hrest hw₁

/-- Without faults the operation that is chosen suits the component. -/
theorem suits_of_chosen (hfree : w.FaultFree) (hchosen : chosen? config name w = some (c, op)) :
    Suits c w.charts.releases op := by
  obtain ⟨w₁, w₂, hread, hchoice, -⟩ := exists_choice hchosen
  obtain ⟨-, -, -, hcharts, hfree₁⟩ := World.perform_of_faultFree hfree (.getComponent name)
  obtain rfl : (w.ask (.getComponent name)).2 = w₁ := congrArg Prod.snd hread
  rw [World.ask_snd] at hchoice
  exact suits_of_run hfree₁ (congrArg ChartStore.releases hcharts) hchoice

/-- A component is read from a world without faults only if components can be read. -/
theorem untroubled_of_chosen (hfree : w.FaultFree) (hchosen : chosen? config name w = some (c, op)) :
    Untroubled (· = w.charts.deployed) w := by
  obtain ⟨w₁, w₂, hread, -, -⟩ := exists_choice hchosen
  refine ⟨hfree, ?_, rfl⟩
  have hans := (World.perform_of_faultFree hfree (.getComponent name)).1
  rw [perform_of_ask hread] at hans
  injection hans with hget
  replace hget : w.components.get name = .ok c := hget.symm
  unfold ComponentStore.get at hget
  split at hget
  · cases hget
  · assumption

/-- A pass that succeeds has carried out its operation, and cleared the backoff. -/
theorem operation_of_success (hfree : w.FaultFree) (hchosen : chosen? config name w = some (c, op))
    (hop : Executes config c op t reason fallback) (hname : c.name = c.spec.name)
    (hrun : w.run (reconcile config name).run = (.finished (.ok .onChange), w')) :
    ∃ w₁,
      ((ChartOperator.choiceEnd config name w c op).leave (.event (startEvent c op reason))).run t.run =
        (.finished (.ok ()), w₁) ∧
      w'.Holds c.name (Edit.leavesAll (clearEdits c) (w₁.components.find? c.name)) ∧
      ∀ x, w'.components.find? c.name = some x → x.backoff = ⟨0⟩ := by
  obtain ⟨outcome, w₁, hoperation, -, hconcluded⟩ := concluded_reconcile hchosen hop hname hrun
    (World.truthful_moments _ hfree.honest)
  cases hconcluded with
  | cleared hbackoff hheld hnoted => exact ⟨w₁, hoperation, hheld, hbackoff⟩

/-- What is stored behind a pass is what the edits of its operation left, apart from the backoff. -/
theorem holds_of_cleared {es : List Edit} {o : Option Component}
    (hcleared : w'.Holds c.name (Edit.leavesAll (clearEdits c) (w₁.components.find? c.name)))
    (hheld : w₁.Holds c.name (Edit.leavesAll es o)) :
    w'.Holds c.name (Edit.leavesAll (es ++ clearEdits c) o) := by
  have hsame := hcleared.trans (Edit.leavesAll_congr (clearEdits c) hheld)
  rw [Edit.leavesAll, Edit.leavesAll, ← List.foldl_append] at hsame
  exact hsame

end Behind

/-! ## What is fulfilled -/

section Fulfilled

variable {config : Config} {name : String} {c x : Component} {w w₁ w' : World}

theorem spec_addFinalizer (x : Component) : x.addFinalizer.spec = x.spec := by
  rw [Component.addFinalizer]
  split <;> rfl

theorem readVersion_empty (V : Version) : readVersion "" ≠ .ok V := by
  have herror : ∃ e, readVersion "" = .error e := ⟨_, rfl⟩
  obtain ⟨e, he⟩ := herror
  rw [he]
  nofun

/-- An object on which edits were made that keep it: what the edits make of it is stored, apart from the
backoff. -/
theorem exists_stored {es : List Edit} (halive : c.isBeingDeleted = false)
    (hes : ∀ e ∈ es, e ≠ .removeFinalizer)
    (hheld : w'.Holds c.name (Edit.leavesAll (es ++ clearEdits c) (some c))) :
    ∃ x, w'.components.find? c.name = some x ∧ x.isBeingDeleted = false ∧
      x.deployNamespace = c.deployNamespace ∧
      ∀ {α : Type} {field : Component → α}, VersionFree field →
        (∀ y, field (Edit.clearBackoff.apply y) = field y) → field x = field (Edit.applyAll es c) := by
  have hcleared : ∀ e ∈ clearEdits c, e = .clearBackoff := by
    unfold clearEdits
    split <;> simp
  have hkept : ∀ e ∈ es ++ clearEdits c, e ≠ .removeFinalizer := by
    intro e he
    rcases List.mem_append.1 he with he | he
    · exact hes e he
    · rw [hcleared e he]
      nofun
  have hsame := hheld.trans (Edit.leavesAll_of_alive halive hkept)
  obtain ⟨x, hx, halike⟩ := Option.map_eq_some_iff.1 hsame
  have hfield : ∀ {α : Type} {field : Component → α}, VersionFree field →
      field x = field (Edit.applyAll (es ++ clearEdits c) c) := fun hfree => hfree.eq_of_alike halike
  refine ⟨x, hx, ?_, ?_, fun {α field} hfree hspared => ?_⟩
  · refine (hfield fun _ _ => rfl).trans ((Edit.field_applyAll fun e _ x => ?_).trans halive)
    exact Edit.isBeingDeleted_apply e x
  · refine (hfield fun _ _ => rfl).trans (Edit.field_applyAll fun e _ x => ?_)
    exact Edit.deployNamespace_apply e x
  · rw [hfield hfree, Edit.applyAll, List.foldl_append]
    exact Edit.field_applyAll fun e he => by rw [hcleared e he]; exact hspared

/-- What is known behind an order that was carried out. -/
def Carried (chart : ChartSpec) (latest : String) : World → Prop :=
  Untroubled fun s => s.Carries chart ∧ s.latestVersion = latest

theorem carried_of_ordered {chart : ChartSpec} {detached : Bool} {u : Unit} {v v' : World}
    (hv : Untroubled (· = w.charts.deployed) v)
    (hperf : v.perform (.installOrUpgrade chart detached) = (.answered (.ok u), v')) :
    Carried chart w.charts.latestVersion v' := by
  have hlatest : v.charts.latestVersion = w.charts.latestVersion := by
    show v.charts.deployed.latestVersion = w.charts.deployed.latestVersion
    rw [hv.deployed]
  rw [← hlatest]
  exact hv.carries hperf

/-- An object with the edits of an operation is fulfilled by the release that the operation ordered. -/
theorem exists_fulfilled {es : List Edit} {chart : ChartSpec} {latest : String} (version : String)
    (halive : c.isBeingDeleted = false) (hes : ∀ e ∈ es, e ≠ .removeFinalizer)
    (hheld : w'.Holds c.name (Edit.leavesAll (es ++ clearEdits c) (some c)))
    (hbackoff : ∀ x, w'.components.find? c.name = some x → x.backoff = ⟨0⟩) (hw' : Carried chart latest w')
    (hchart : chart = { chartSpecOf config c with version := chart.version })
    (hversion : version ≠ "" → (w'.charts.releaseOf chart).appVersion = version)
    (hspec : (Edit.applyAll es c).spec = { c.spec with version })
    (hstatus : (Edit.applyAll es c).lifecycle = .installed)
    (hrecorded : (Edit.applyAll es c).installedVersion = some (w'.charts.releaseOf chart).appVersion) :
    ∃ x, w'.components.find? c.name = some x ∧ x.isBeingDeleted = false ∧
      x.spec = { c.spec with version := x.spec.version } ∧
      Fulfilled x (w'.charts.releaseOf chart) w'.charts.deployed := by
  obtain ⟨x, hx, hxalive, hspace, hfield⟩ := exists_stored halive hes hheld
  have hxspec : x.spec = { c.spec with version } := (hfield (fun _ _ => rfl) fun _ => rfl).trans hspec
  obtain ⟨hcarries, -⟩ := hw'.deployed
  refine ⟨x, hx, hxalive, by rw [hxspec], ?_⟩
  have hname : chart.releaseName = x.spec.name := by rw [hchart, hxspec]; rfl
  have hoverlay : chart.valuesOverlay = x.spec.valuesOverlay := by rw [hchart, hxspec]; rfl
  exact {
    only := hname ▸ hcarries.only
    space := by
      rw [hspace, hchart]
      rfl
    values := hoverlay ▸ hname ▸ hcarries.values
    version := by
      rw [hxspec]
      exact hversion
    status := (hfield (fun _ _ => rfl) fun _ => rfl).trans hstatus
    backoff := hbackoff x hx
    recorded := (hfield (fun _ _ => rfl) fun _ => rfl).trans hrecorded }

end Fulfilled

/-! ## Operations that succeed -/

section Operations

variable {config : Config} {name : String} {c : Component} {op : Operation} {t : Errand Unit} {reason : String}
  {fallback : Lifecycle} {w w₁ w' : World}

/-- The pass over the component succeeded with the operation. -/
structure Succeeds (config : Config) (name : String) (w : World) (c : Component) (op : Operation)
    (w' : World) : Prop where
  free : w.FaultFree
  named : c.name = c.spec.name
  chosen : chosen? config name w = some (c, op)
  run : w.run (reconcile config name).run = (.finished (.ok .onChange), w')

/-- What the operation yields is there when its pass has succeeded. -/
theorem Succeeds.yields (h : Succeeds config name w c op w') (hop : Executes config c op t reason fallback)
    {D' : World → Prop} (hD' : Stable D') {E : List Edit → Prop}
    (hyields : ∀ v, Scene c.name (some c) (Untroubled (· = w.charts.deployed)) v →
      Yields (fun _ w₁ => ∃ es, E es ∧ Scene c.name (Edit.leavesAll es (some c)) D' w₁) t [] v) :
    ∃ es, E es ∧ D' w' ∧ w'.Holds c.name (Edit.leavesAll (es ++ clearEdits c) (some c)) ∧
      ∀ x, w'.components.find? c.name = some x → x.backoff = ⟨0⟩ := by
  obtain ⟨w₁, hoperation, hcleared, hbackoff⟩ := operation_of_success h.free h.chosen hop h.named h.run
  have hstable := stable_untroubled (· = w.charts.deployed)
  have hchoice := hstable.choiceEnd h.chosen (untroubled_of_chosen h.free h.chosen)
  have hheld : (choiceEnd config name w c op).Holds c.name (some c) := by
    rw [name_of_chosen h.chosen]
    exact (choiceEnd_frame h.chosen).2.1
  -- The operation starts with the copy that the pass read, and with nothing deployed since.
  have hstart := Scene.leave hstable ⟨hheld, hchoice⟩ (.event (startEvent c op reason))
  obtain ⟨es, hes, hscene⟩ := (hyields _ hstart).ending _ _ hoperation
    (World.truthful_moments _ hstart.2.free.honest) () rfl
  exact ⟨es, hes, hD'.conclude h.chosen hop h.named hoperation h.run hscene.2,
    holds_of_cleared hcleared hscene.1, hbackoff⟩

/-- The version that is asked for, or else the one that an order without a version gets. -/
def orderedVersion (c : Component) (s : ChartStore) : String :=
  if c.spec.version.isEmpty then s.latestVersion else c.spec.version

/-- An installation settles on the version that it ordered. -/
theorem version_of_settlesOn {latest version : String}
    (h : SettlesOn (Carried (chartSpecOf config c) latest) c version) :
    version = if c.spec.version.isEmpty then latest else c.spec.version := by
  unfold SettlesOn at h
  split
  · next hempty =>
    rw [if_pos hempty] at h
    obtain ⟨rs, r, hlisted, hfound, rfl⟩ := h
    obtain ⟨s, ⟨hcarries, rfl⟩, rfl⟩ := deployed_of_listed hlisted
    have honly := releaseOf?_of_filter (x := c) hcarries.only
    obtain rfl : s.releaseOf (chartSpecOf config c) = r := Option.some.inj (honly.symm.trans hfound)
    exact if_pos hempty
  · next hgiven =>
    rw [if_neg hgiven] at h
    exact h

theorem installEdits_keep (c : Component) (version : String) (verdict : Health) :
    ∀ e ∈ installEdits c version verdict, e ≠ .removeFinalizer := by
  unfold installEdits
  split <;> simp

/-- The edits of an installation, on the component that they are made of. -/
theorem applyAll_installEdits (version : String) (verdict : Health)
    (hversion : ¬ c.spec.version.isEmpty = true → version = c.spec.version) :
    (Edit.applyAll (installEdits c version verdict) c).spec = { c.spec with version } ∧
      (Edit.applyAll (installEdits c version verdict) c).lifecycle = .installed ∧
      (Edit.applyAll (installEdits c version verdict) c).installedVersion = some version := by
  have hadded : (Edit.addFinalizer.apply ((Edit.setStatus .installing none).apply c)).spec = c.spec :=
    (spec_addFinalizer _).trans rfl
  unfold installEdits
  by_cases hempty : c.spec.version.isEmpty = true
  · rw [if_pos hempty]
    refine ⟨?_, rfl, rfl⟩
    show { (Edit.addFinalizer.apply ((Edit.setStatus .installing none).apply c)).spec with version } = _
    rw [hadded]
  · rw [if_neg hempty]
    refine ⟨?_, rfl, rfl⟩
    obtain rfl := hversion hempty
    exact hadded

theorem fulfilled_of_install (h : Succeeds config name w c .install w') :
    ∃ x r, w'.components.find? c.name = some x ∧ x.isBeingDeleted = false ∧
      x.spec = { c.spec with version := x.spec.version } ∧ Untroubled (Fulfilled x r) w' ∧
      r.appVersion = orderedVersion c w.charts := by
  have halive : c.isBeingDeleted = false := by
    cases suits_of_chosen h.free h.chosen with
    | install halive => exact halive
  let chart := chartSpecOf config c
  let latest := w.charts.latestVersion
  have hstable : Stable (Carried chart latest) := stable_untroubled _
  obtain ⟨es, ⟨verdict, rfl⟩, hcarried, hheld, hbackoff⟩ := h.yields .install hstable
    (E := fun es => ∃ verdict, es = installEdits c (orderedVersion c w.charts) verdict) fun v hv => by
      refine (yields_install (stable_untroubled _) hstable ?_ hv).mono fun r past w₁ hleft htrue a ha => ?_
      · exact fun v v' u hv hperf => carried_of_ordered hv hperf
      · obtain ⟨version, verdict, hsettles, hscene⟩ := hleft htrue a ha
        obtain rfl := version_of_settlesOn hsettles
        exact ⟨_, ⟨verdict, rfl⟩, hscene⟩
  have hversion : (w'.charts.releaseOf chart).appVersion = orderedVersion c w.charts := by
    show (if c.spec.version.isEmpty then w'.charts.latestVersion else c.spec.version) = _
    rw [show w'.charts.latestVersion = latest from hcarried.deployed.2]
    rfl
  obtain ⟨hspec, hstatus, hrecorded⟩ := applyAll_installEdits (orderedVersion c w.charts) verdict
    fun hgiven => if_neg hgiven
  obtain ⟨x, hx, hxalive, hxspec, hfulfilled⟩ := exists_fulfilled (orderedVersion c w.charts) halive
    (installEdits_keep c _ verdict) hheld hbackoff hcarried rfl (fun _ => hversion) hspec hstatus
    (hversion.symm ▸ hrecorded)
  exact ⟨x, _, hx, hxalive, hxspec, ⟨hcarried.free, hcarried.readable, hfulfilled⟩, hversion⟩

/-- The order of an upgrade asks for the version that was compared with that of the release. -/
theorem eq_of_orders {s : ChartStore} {chart : ChartSpec} {r : Release}
    (h : Orders (Untroubled (· = s.deployed)) config c chart) (hfound : releaseOf? c s.releases = some r) :
    chart = { chartSpecOf config c with version := requestedVersion c r } := by
  unfold Orders at h
  unfold requestedVersion
  split at h
  · next hempty =>
    obtain ⟨rs, hlisted, rfl⟩ := h
    obtain ⟨_, rfl, rfl⟩ := deployed_of_listed hlisted
    have hfound' : releaseOf? c s.deployed.releases = some r := hfound
    rw [if_pos hempty, hfound']
    rfl
  · next hgiven =>
    rw [if_neg hgiven]
    exact h

theorem fulfilled_of_upgrade (h : Succeeds config name w c .upgrade w') :
    ∃ x r, w'.components.find? c.name = some x ∧ x.isBeingDeleted = false ∧
      x.spec = { c.spec with version := x.spec.version } ∧ Untroubled (Fulfilled x r) w' ∧
      ∃ V, readVersion r.appVersion = .ok V := by
  cases suits_of_chosen h.free h.chosen with
  | @upgrade r₀ halive hstatus hfound hatLeast =>
    obtain ⟨V, -, hV, -, -⟩ := hatLeast
    let chart := { chartSpecOf config c with version := requestedVersion c r₀ }
    have hgiven : ¬ chart.version.isEmpty = true := by
      intro hempty
      rw [String.isEmpty_iff] at hempty
      exact readVersion_empty V (hempty ▸ hV)
    have hstable : Stable (Carried chart w.charts.latestVersion) := stable_untroubled _
    obtain ⟨es, rfl, hcarried, hheld, hbackoff⟩ := h.yields .upgrade hstable
      (E := fun es => es = upgradeEdits chart) fun v hv => by
        refine (yields_upgrade (stable_untroubled _) (fun _ => hstable) ?_ hv).mono ?_
        · intro chart' v v' u horders hv hperf
          obtain rfl := eq_of_orders horders hfound
          exact carried_of_ordered hv hperf
        · intro r past w₁ hleft htrue a ha
          obtain ⟨chart', horders, hscene⟩ := hleft htrue a ha
          obtain rfl := eq_of_orders horders hfound
          exact ⟨_, rfl, hscene⟩
    have hversion : (w'.charts.releaseOf chart).appVersion = chart.version := if_neg hgiven
    have hrecorded : (Edit.applyAll (upgradeEdits chart) c).installedVersion = some chart.version := by
      unfold upgradeEdits
      rw [if_neg hgiven]
      rfl
    obtain ⟨x, hx, hxalive, hxspec, hfulfilled⟩ := exists_fulfilled c.spec.version halive
      (show ∀ e ∈ upgradeEdits chart, e ≠ .removeFinalizer by simp [upgradeEdits]) hheld hbackoff hcarried rfl
      (fun hne => hversion.trans (if_neg fun hempty => hne (String.isEmpty_iff.1 hempty))) rfl rfl
      (hversion.symm ▸ hrecorded)
    exact ⟨x, _, hx, hxalive, hxspec, ⟨hcarried.free, hcarried.readable, hfulfilled⟩, V, hversion ▸ hV⟩

/-- Behind a removal no release is left, and the object is there only if somebody else keeps it. -/
theorem removed_of_delete (h : Succeeds config name w c .delete w') :
    Untroubled (fun s => ∀ r ∈ s.releases, r.name ≠ c.spec.name) w' ∧
      ∀ x, w'.components.find? c.name = some x → x.lifecycle = .deleting ∧ KeptByOthers x := by
  have hstable := stable_untroubled fun s => ∀ r ∈ s.releases, r.name ≠ c.spec.name
  obtain ⟨es, rfl, hremoved, hheld, -⟩ := h.yields .delete hstable
    (E := fun es => es = deleteEdits) fun v hv => by
      refine (yields_delete (stable_untroubled _) hstable ?_ ?_ hv).mono fun r past w₁ hleft htrue a ha => ?_
      · intro rs v hlisted hnone hv
        obtain ⟨_, rfl, rfl⟩ := deployed_of_listed hlisted
        refine ⟨hv.free, hv.readable, fun r hr hname => ?_⟩
        rw [hv.deployed] at hr
        exact List.find?_eq_none.1 hnone r hr (by simp [hname])
      · intro rs r v v' u hlisted hfound hv hperf
        have hname : r.name = c.spec.name := by simpa using List.find?_some hfound
        exact hname ▸ hv.uninstalled hperf
      · exact ⟨_, rfl, hleft htrue a ha⟩
  refine ⟨hremoved, fun x hx => ?_⟩
  obtain ⟨y, hy, halike⟩ := hheld.of_find? hx
  rw [Edit.leavesAll, List.foldl_append] at hy
  obtain ⟨z, hz, hspared⟩ := field_of_cleared versionFree_standing (fun _ => rfl) hy
  have hstanding := (versionFree_standing.eq_of_alike halike).trans hspared
  have hkept := finalizers_of_deleteEdits (beingDeleted_of_chosen h.chosen) hz
  refine ⟨?_, (keptByOthers_congr hstanding).2 hkept⟩
  have hfree : VersionFree Component.lifecycle := fun _ _ => rfl
  obtain ⟨z', hz', hlifecycle⟩ := Edit.field_of_leaves (e := .removeFinalizer) hfree (fun _ => rfl) hz
  rw [(Prod.mk.inj hstanding).1, hlifecycle]
  exact lifecycle_of_setStatus hz'

end Operations

end ChartOperator
