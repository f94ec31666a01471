import ChartOperator.Proofs.Lifecycle.Choice
import ChartOperator.Proofs.World.Sample

set_option autoImplicit false

/-!
# What a pass orders

In a world without faults the operation that is chosen suits what is stored and deployed
(`suits_of_run`), and the chart client gets at most the order of that operation: a new
installation, or an upgrade, of a release that is in its place, to the version that was compared with the
deployed one (`OrderFor`).

The finalizer is added by an installation alone. So what a release is changed under is known before the pass
starts: `guard` tells it, `obeys_reconcile` proves it.
-/

namespace ChartOperator

open ComponentStore (VersionFree)
open Errand

/-- Both texts are versions, and the wanted one is not below the deployed one. -/
def AtLeast (requested deployed : String) : Prop :=
  ∃ W V, readVersion requested = .ok W ∧ readVersion deployed = .ok V ∧ (W.order V).isGE = true

/-- An operation suits a component, given what is deployed. -/
inductive Suits (c : Component) (rs : List Release) : Operation → Prop
  | install (halive : c.isBeingDeleted = false)
      (hnew : c.lifecycle = .tryToInstall ∨ releaseOf? c rs = none) :
    Suits c rs .install
  | upgrade {r : Release} (halive : c.isBeingDeleted = false) (hstatus : c.lifecycle ≠ .tryToInstall)
    (hfound : releaseOf? c rs = some r) (hversion : AtLeast (requestedVersion c r) r.appVersion)
    (hplace : InPlace c r) :
    Suits c rs .upgrade
  | delete (hdeleted : c.isBeingDeleted = true) : Suits c rs .delete
  | downgrade (installed requested : String) : Suits c rs (.downgrade installed requested)
  | ignore : Suits c rs .ignore

/-- The order of a pass over a component, given what is deployed when the pass starts. -/
inductive OrderFor (config : Config) (c : Component) (rs : List Release) : ChartSpec → Bool → Prop
  | install (hnew : c.lifecycle = .tryToInstall ∨ releaseOf? c rs = none) :
    OrderFor config c rs (chartSpecOf config c) false
  | upgrade {r : Release} (hstatus : c.lifecycle ≠ .tryToInstall) (hfound : releaseOf? c rs = some r)
    (hversion : AtLeast (requestedVersion c r) r.appVersion) (hplace : InPlace c r) :
    OrderFor config c rs { chartSpecOf config c with version := requestedVersion c r } true

/-- Whether the finalizer is there when the release of a component is changed. -/
def guard (c : Component) (rs : List Release) : Bool :=
  c.hasFinalizer || c.lifecycle == .tryToInstall || (releaseOf? c rs).isNone

/-- Nobody deletes the component, and it has the finalizer or not. -/
def KeptAs (guarded : Bool) (x : Component) : Prop := x.isBeingDeleted = false ∧ x.hasFinalizer = guarded

theorem lasting_keptAs (guarded : Bool) : Lasting (KeptAs guarded) where
  versionFree _ _ := rfl
  alive hx := hx.1
  status _ hx := hx
  version _ hx := hx

/-- What an order of a pass keeps to. -/
def orderRule (config : Config) (c : Component) (rs : List Release) : Rule := fun _ m =>
  ∀ spec detached, m.call = .installOrUpgrade spec detached →
    OrderFor config c rs spec detached ∧ m.before.Stores c.name (KeptAs (guard c rs))

theorem orderRule_of_not_order {config : Config} {c : Component} {rs : List Release} (past : List Moment)
    (m : Moment) (h : m.call.isOrder = false) : orderRule config c rs past m := by
  intro spec detached hcall
  rw [hcall] at h
  cases h

section Choice

variable {c : Component} {rs : List Release} {r : Release} {rule : Rule} {past : List Moment} {w w' : World}

/-- Without faults the releases are answered that are deployed. -/
theorem answer_listReleases {a : Except Failure (List Release)} (hfree : w.FaultFree)
    (h : w.perform .listReleases = (.answered a, w')) : a = .ok w.charts.releases := by
  have hans := (World.perform_of_faultFree hfree .listReleases).1
  rw [h] at hans
  cases hans
  rfl

/-- What the table says suits the component. -/
theorem suits_of_decides {replies : Replies} {chart : ChartSpec} {calls : List Call} {op : Operation}
    (hlists : ∀ rs', replies .listReleases (.ok rs') → rs' = rs)
    (h : Decides replies c chart calls (.ok op)) : Suits c rs op := by
  cases h with
  | inFlight => exact .ignore
  | deleted _ hdeleted => exact .delete hdeleted
  | again halive htried => exact .install halive (.inl htried)
  | absent hopen hlisted habsent =>
    obtain rfl := hlists _ hlisted
    exact .install hopen.alive (.inr (releaseOf?_eq_none_iff.2 habsent))
  | found hopen hlisted hfirst hcompares =>
    obtain rfl := hlists _ hlisted
    have hfound := releaseOf?_eq_some_iff.2 hfirst
    have hupgrade : ∀ {installed requested}, Comparable c _ installed requested →
        requested.order installed ≠ .lt → Suits c _ .upgrade := fun hread horder =>
      .upgrade hopen.alive hopen.tried hfound
        ⟨_, _, hread.requested, hread.installed, Ordering.isGE_iff_ne_lt.2 horder⟩ hread.space
    cases hcompares with
    | older => exact .downgrade _ _
    | unchanged => exact .ignore
    | newer hread horder => exact hupgrade hread (by rw [horder]; nofun)
    | changed hread horder => exact hupgrade hread (by rw [horder]; nofun)

/-- Without faults the operation that is chosen suits the component. -/
theorem suits_of_run {chart : ChartSpec} {op : Operation} (hfree : w.FaultFree) (hrs : w.charts.releases = rs)
    (hrun : w.run (requiredOperation c chart).run = (.finished (.ok op), w')) : Suits c rs op := by
  obtain ⟨calls, res, hended, hdecides⟩ := decides_of_faultFree hfree c chart
  rw [hrun] at hended
  cases hended
  refine suits_of_decides (fun rs' hlisted => ?_) hdecides
  exact (Except.ok.inj (Option.some.inj hlisted)).symm.trans hrs

/-- The order of an upgrade asks for the version that was compared with the deployed one. -/
theorem obeys_upgradeSpec (config : Config) (hrule : ∀ past p, p.call.isOrder = false → rule past p)
    (hfree : w.FaultFree) (hrs : w.charts.releases = rs) (hfound : releaseOf? c rs = some r) :
    Obeys rule
      (fun res _ _ => ∀ spec, res = .ok spec →
        spec = { chartSpecOf config c with version := requestedVersion c r })
      (upgradeSpec config c) past w := by
  unfold upgradeSpec
  extract_lets chart
  have hversion : chart.version = c.spec.version := rfl
  split
  · next hgiven =>
    refine obeys_pure fun spec h => ?_
    cases h
    have hrequested : requestedVersion c r = c.spec.version := if_neg (by simpa [hversion] using hgiven)
    rw [hrequested]
    rfl
  · next hempty =>
    have hrequested : requestedVersion c r = r.appVersion := if_pos (by simpa [hversion] using hempty)
    refine obeys_bind (obeys_mapFailure (obeys_bind (obeys_ask (hrule _ _ rfl) fun a w' hperf => ?_)))
    rw [answer_listReleases hfree hperf, hrs]
    refine obeys_pure ?_
    rw [hfound]
    refine obeys_pure fun spec h => ?_
    cases h
    rw [hrequested]

end Choice

/-! ## The managers -/

section Managers

variable {config : Config} {c : Component} {rs : List Release} {past : List Moment} {w : World}

/-- What holds until a pass orders something. -/
def Calm (c : Component) (rs : List Release) (past : List Moment) (w : World) : Prop :=
  ((Unordered past ∧ w.FaultFree) ∧ w.charts.releases = rs) ∧ w.Stores c.name (KeptAs c.hasFinalizer)

/-- Nothing was ordered, or the component is guarded as was known before the pass. -/
def Accounted (c : Component) (rs : List Release) (past : List Moment) (w : World) : Prop :=
  Unordered past ∨ w.Stores c.name (KeptAs (guard c rs))

theorem steady_calm : Steady c.name (Calm c rs) :=
  ((steady_unordered.and steady_faultFree).and (steady_releases rs)).and (steady_stores (lasting_keptAs _))

theorem steady_accounted : Steady c.name (Accounted c rs) :=
  steady_unordered.or (steady_stores (lasting_keptAs _))

theorem Calm.accounted (h : Calm c rs past w) : Accounted c rs past w := .inl h.1.1.1

/-- A quiet step before the order leads to the next one. -/
theorem obeys_quiet_step {α β : Type} {t : Errand α} {f : α → Errand β} (ht : Quiet c.name t)
    (hcalm : Calm c rs past w)
    (hnext : ∀ a past w, Calm c rs past w →
      Obeys (orderRule config c rs) (fun _ => Accounted c rs) (f a) past w) :
    Obeys (orderRule config c rs) (fun _ => Accounted c rs) (t >>= f) past w :=
  steady_calm.bind orderRule_of_not_order ht hcalm (fun _ _ _ => Calm.accounted) hnext

/-- What follows an order is quiet, and leaves the component guarded as it was. -/
theorem obeys_quiet_end {α : Type} {t : Errand α} (ht : Quiet c.name t)
    (hw : w.Stores c.name (KeptAs (guard c rs))) :
    Obeys (orderRule config c rs) (fun _ => Accounted c rs) t past w :=
  ((steady_stores (lasting_keptAs _)).obeys orderRule_of_not_order ht hw).mono fun _ _ _ => .inr

theorem obeys_order {spec : ChartSpec} {detached : Bool} (horder : OrderFor config c rs spec detached)
    (hw : w.Stores c.name (KeptAs (guard c rs))) :
    Obeys (orderRule config c rs) (fun _ _ w => w.Stores c.name (KeptAs (guard c rs)))
      (ask (.installOrUpgrade spec detached)) past w := by
  refine obeys_ask (fun spec' detached' hcall => ?_) fun a w' hperf => ?_
  · cases hcall
    exact ⟨horder, hw⟩
  · have halike := w.alike_perform (c := .installOrUpgrade spec detached) rfl
    rw [hperf] at halike
    exact World.stores_of_alike (lasting_keptAs _).versionFree halike hw

/-- Adding the finalizer, if it succeeds, leaves the component with it. -/
theorem obeys_addFinalizer (hcalm : Calm c rs past w) :
    Obeys (orderRule config c rs)
      (fun r past w => Unordered past ∧ ∀ o, r = .ok o → w.Stores c.name (KeptAs true))
      (change (.addFinalizer c.name)) past w := by
  have hunordered : Obeys (orderRule config c rs) (fun _ past _ => Unordered past)
      (change (.addFinalizer c.name)) past w :=
    obeys_change_of_perform orderRule_of_not_order (fun _ _ _ hd hpast => hpast.snoc hd) hcalm.1.1.1
  have halive : Obeys (orderRule config c rs) (fun _ _ w => w.Stores c.name fun x => x.isBeingDeleted = false)
      (change (.addFinalizer c.name)) past w := by
    obtain ⟨x, hx, hxalive, -⟩ := hcalm.2
    refine obeys_change_stores Mutation.sound_addFinalizer (fun _ _ => rfl) orderRule_of_not_order ?_
      ⟨x, hx, hxalive⟩
    intro x wr hx hedit
    obtain ⟨-, rfl⟩ := Mutation.edit_addFinalizer hedit
    exact ⟨hx, ComponentStore.settled_ne_none hx⟩
  have hadded : Obeys (orderRule config c rs) (Changed (.addFinalizer c.name) past)
      (change (.addFinalizer c.name)) past w :=
    obeys_change_onward (fun _ _ _ => orderRule_of_not_order _ _ rfl)
      fun _ _ _ _ _ _ _ => orderRule_of_not_order _ _ (isOrder_call _)
  refine ((hunordered.and halive).and hadded).mono ?_
  intro r past w h
  obtain ⟨⟨hpast, x, hx, hxalive⟩, hchanged⟩ := h
  refine ⟨hpast, fun o ho => ?_⟩
  rw [ho] at hchanged
  obtain ⟨y, hy, hyhas⟩ := hchanged.guards
  obtain rfl : x = y := Option.some.inj (hx.symm.trans hy)
  exact ⟨x, hx, hxalive, hyhas⟩

/-- An installation orders a new release, under the finalizer that it has just added. -/
theorem obeys_install (hnew : c.lifecycle = .tryToInstall ∨ releaseOf? c rs = none)
    (hcalm : Calm c rs past w) :
    Obeys (orderRule config c rs) (fun _ => Accounted c rs) (install config c) past w := by
  have hguard : guard c rs = true := by
    rcases hnew with h | h <;> simp [guard, h]
  unfold install
  extract_lets chart space
  refine obeys_quiet_step (confined_mapFailure (confined_ask ⟨rfl, rfl⟩)) hcalm ?_
  intro _ past w hcalm
  refine obeys_quiet_step (confined_discard (confined_mapFailure (quiet_persistStatus c _ _))) hcalm ?_
  intro _ past w hcalm
  refine obeys_bind (obeys_discard (obeys_mapFailure ((obeys_addFinalizer hcalm).mono ?_)))
  rintro (e | o) past w ⟨hpast, hguarded⟩
  · exact .inl hpast
  have hstored : w.Stores c.name (KeptAs (guard c rs)) := hguard ▸ hguarded o rfl
  refine obeys_bind (obeys_mapFailure ((obeys_order (.install hnew) hstored).mono ?_))
  -- Whatever the answer, the order was made, and only quiet steps follow it.
  rintro (e | o) past w hstored
  · exact .inr hstored
  refine obeys_quiet_end ?_ hstored
  refine confined_bind (quiet_settledVersion c) fun version => ?_
  refine confined_bind (confined_discard (confined_mapFailure (quiet_persistStatus c _ _))) fun _ => ?_
  exact confined_discard (confined_mapFailure (quiet_updateHealth _ _ _))

/-- An upgrade orders the version that was compared, under the finalizer if the component has it already. -/
theorem obeys_upgrade {r : Release} (hstatus : c.lifecycle ≠ .tryToInstall)
    (hfound : releaseOf? c rs = some r)
    (hversion : AtLeast (requestedVersion c r) r.appVersion) (hplace : InPlace c r)
    (hcalm : Calm c rs past w) :
    Obeys (orderRule config c rs) (fun _ => Accounted c rs) (upgrade config c) past w := by
  have hguard : guard c rs = c.hasFinalizer := by simp [guard, hstatus, hfound]
  have hspec : Obeys (orderRule config c rs) _ (upgradeSpec config c) past w :=
    obeys_upgradeSpec config orderRule_of_not_order hcalm.1.1.2 hcalm.1.2 hfound
  unfold upgrade
  have hquiet : Obeys (orderRule config c rs) (fun _ => Calm c rs) (upgradeSpec config c) past w :=
    steady_calm.obeys orderRule_of_not_order (quiet_upgradeSpec config _ c) hcalm
  refine obeys_bind ((hspec.and hquiet).mono ?_)
  rintro (e | chart) past w ⟨hchart, hcalm⟩
  · exact hcalm.accounted
  refine obeys_quiet_step (confined_mapFailure (confined_ask ⟨rfl, rfl⟩)) hcalm ?_
  intro _ past w hcalm
  refine obeys_quiet_step (confined_discard (confined_mapFailure (quiet_persistStatus c _ _))) hcalm ?_
  intro _ past w hcalm
  have horder : OrderFor config c rs chart true := by
    rw [hchart chart rfl]
    exact .upgrade hstatus hfound hversion hplace
  refine obeys_bind (obeys_mapFailure ((obeys_order horder (hguard ▸ hcalm.2)).mono ?_))
  rintro (e | o) past w hstored
  · exact .inr hstored
  extract_lets installed
  refine obeys_quiet_end ?_ hstored
  exact confined_discard (confined_mapFailure (quiet_persistStatus c _ _))

theorem obeys_carryOut {op : Operation} {operation : Errand Unit} {reason : String} {fallback : Lifecycle}
    (hoperation : ∀ past w, Calm c rs past w →
      Obeys (orderRule config c rs) (fun _ => Accounted c rs) operation past w) (hcalm : Calm c rs past w) :
    Obeys (orderRule config c rs) (fun _ => Accounted c rs) (carryOut config c op operation reason fallback)
      past w := by
  unfold carryOut
  refine obeys_quiet_step (quiet_validateName c) hcalm ?_
  intro _ past w hcalm
  refine obeys_quiet_step (confined_announce _ _ _ _) hcalm ?_
  intro _ past w hcalm
  refine obeys_bind (obeys_outcome ((hoperation past w hcalm).mono fun outcome past w haccounted => ?_))
  exact steady_accounted.obeys orderRule_of_not_order
    (quiet_conclude config c op reason fallback outcome) haccounted

/-- The removal of a component orders no installation and no upgrade. -/
theorem confined_delete (c : Component) :
    Confined (fun d => ∀ spec detached, d ≠ .installOrUpgrade spec detached) (fun _ => True) (delete c) := by
  unfold delete
  refine confined_bind (confined_discard (confined_mapFailure (confined_change trivial))) fun _ => ?_
  refine confined_bind (confined_mapFailure (confined_bind (confined_ask nofun) fun _ => confined_pure _)) ?_
  intro found
  have hremove : Confined (fun d => ∀ spec detached, d ≠ .installOrUpgrade spec detached) (fun _ => True)
      (discard ((change (.removeFinalizer c.name)).orRequeue "failed to remove finalizer")) :=
    confined_discard (confined_mapFailure (confined_change trivial))
  split
  · exact confined_bind (confined_mapFailure (confined_ask nofun)) fun _ => hremove
  · exact hremove

theorem confined_carryOut_delete (config : Config) (c : Component) :
    Confined (fun d => ∀ spec detached, d ≠ .installOrUpgrade spec detached) (fun _ => True)
      (carryOut config c .delete (delete c) deleteReason .tryToDelete) := by
  refine confined_carryOut (fun d hd spec detached heq => ?_) (confined_delete c) config c _ _ _
  rw [heq] at hd
  cases hd.2

/-- An operation that suits the component keeps to the rule of orders, and its end is accounted for. -/
theorem obeys_dispatch {op : Operation} (hop : Suits c rs op)
    (hcalm : c.isBeingDeleted = false → Calm c rs past w) :
    Obeys (orderRule config c rs) (fun _ past w => c.isBeingDeleted = false → Accounted c rs past w)
      (dispatch config c op) past w := by
  cases hop with
  | install halive hnew =>
    exact (obeys_carryOut (fun _ _ => obeys_install hnew) (hcalm halive)).mono fun _ _ _ h _ => h
  | upgrade halive hstatus hfound hversion hplace =>
    exact (obeys_carryOut (fun _ _ => obeys_upgrade hstatus hfound hversion hplace) (hcalm halive)).mono
      fun _ _ _ h _ => h
  | delete hdeleted =>
    have hconfined : Obeys (orderRule config c rs) (fun _ _ _ => True)
        (carryOut config c .delete (delete c) deleteReason .tryToDelete) past w := by
      refine Program.obeys_of_confined (confined_carryOut_delete config c) ?_ ?_ (fun _ _ _ => id) trivial
      · exact fun _ _ d hd _ => ⟨fun spec detached hcall => (hd spec detached hcall).elim, trivial⟩
      · intro _ _ _ _ _
        exact obeys_change_of_perform orderRule_of_not_order (fun _ _ _ _ _ => trivial) trivial
    refine hconfined.mono fun _ _ _ _ halive => ?_
    rw [halive] at hdeleted
    cases hdeleted
  | downgrade installed requested =>
    exact obeys_bind (obeys_announce (obeys_throw fun halive => (hcalm halive).accounted))
  | ignore => exact obeys_pure fun halive => (hcalm halive).accounted

end Managers

/-- A pass keeps to the rule of orders for the component that is stored when it starts. -/
theorem obeys_reconcile (config : Config) {name : String} {c : Component} {w : World} (hfree : w.FaultFree)
    (hstored : w.components.find? name = some c) :
    Obeys (orderRule config c w.charts.releases)
      (fun _ past w' => c.isBeingDeleted = false → Accounted c w.charts.releases past w')
      (reconcile config name) [] w := by
  have hname : c.name = name := ComponentStore.name_of_find? hstored
  have hsteady : Steady c.name fun past w' => c.isBeingDeleted = false → Calm c w.charts.releases past w' :=
    steady_calm.imp _
  have hcalm : c.isBeingDeleted = false → Calm c w.charts.releases [] w := fun halive =>
    ⟨⟨⟨fun p hp => (List.not_mem_nil hp).elim, hfree⟩, rfl⟩, c, hname.symm ▸ hstored, halive, rfl⟩
  obtain ⟨hans, hcomponents, -, hcharts, hfree'⟩ := World.perform_of_faultFree hfree (.getComponent name)
  unfold reconcile
  refine obeys_bind (obeys_outcome (obeys_ask (c := .getComponent name) (orderRule_of_not_order _ _ rfl) ?_))
  intro found w' hperf
  have hcalm' := hsteady.ask (c := .getComponent name) ⟨rfl, rfl⟩ hcalm
  rw [hperf] at hans hcomponents hcharts hfree' hcalm'
  cases found with
  | error e =>
    dsimp only [Leading]
    split
    · exact obeys_pure fun halive => (hcalm' halive).accounted
    · exact obeys_throw fun halive => (hcalm' halive).accounted
  | ok x =>
    have hx : w'.components.find? name = some x := by
      refine World.find?_of_ask (w := w) ?_
      unfold World.ask
      rw [hperf]
    obtain rfl : x = c := by
      rw [hcomponents] at hx
      exact Option.some.inj (hx.symm.trans hstored)
    refine obeys_bind ?_
    have hrs : w'.charts.releases = w.charts.releases := congrArg ChartStore.releases hcharts
    have hkept : Obeys (orderRule config x w.charts.releases)
        (fun _ past w'' => x.isBeingDeleted = false → Calm x w.charts.releases past w'')
        (requiredOperation x (chartSpecOf config x)) _ w' :=
      hsteady.obeys orderRule_of_not_order ((asks_requiredOperation x _).mono (fun _ h => h) nofun) hcalm'
    refine hkept.run.mono ?_
    rintro (e | op) past w'' ⟨hcalm'', hrun⟩
    · exact fun halive => (hcalm'' halive).accounted
    · exact obeys_bind (obeys_count (obeys_dispatch (suits_of_run hfree' hrs hrun) (hsteady.leave _ hcalm'')))

/-! ## No downgrades -/

section Results

variable {config : Config} {name : String} {w : World} {c : Component} {r : Release} {spec : ChartSpec}
  {detached : Bool} {earlier later : List Moment} {m : Moment} {V W : Version}

/-- No pass orders a version below that of the first release which is listed for the component, unless the
component is to be installed whatever is deployed. Then it gets the version that it asks for. -/
theorem ordered_version_at_least (hfree : w.FaultFree) (hstored : w.components.find? name = some c)
    (hfound : releaseOf? c w.charts.releases = some r) (hdeployed : readVersion r.appVersion = .ok V)
    (hrun : w.moments (reconcile config name).run = earlier ++ m :: later)
    (hcall : m.call = .installOrUpgrade spec detached) (hordered : readVersion spec.version = .ok W) :
    if c.lifecycle = .tryToInstall then spec.version = c.spec.version else (W.order V).isGE = true := by
  have hcalls := (obeys_reconcile config hfree hstored).calls
  rw [hrun] at hcalls
  obtain ⟨horder, -⟩ := hcalls.at spec detached hcall
  cases horder with
  | install hnew =>
    rcases hnew with htry | hnone
    · rw [if_pos htry]
      rfl
    · rw [hfound] at hnone
      cases hnone
  | @upgrade r' hstatus hfound' hversion =>
    rw [if_neg hstatus]
    obtain rfl : r = r' := Option.some.inj (hfound.symm.trans hfound')
    obtain ⟨W', V', hW', hV', hge⟩ := hversion
    obtain rfl : W' = W := Except.ok.inj (hW'.symm.trans hordered)
    obtain rfl : V' = V := Except.ok.inj (hV'.symm.trans hdeployed)
    exact hge

/-- The bound holds of the upgrade of an installed component. -/
theorem ordered_version_at_least_upgrade :
    ∃ spec, .installOrUpgrade spec true ∈
        ((sampleWorld (sampleComponent "0.2.0" .installed []) [sampleRelease "ecosystem" "0.1.0"]).moments
          (reconcile {} "dogu-op").run).map Moment.call ∧
      spec.version = "0.2.0" ∧ (Version.order ⟨0, 2, 0, [], []⟩ ⟨0, 1, 0, [], []⟩).isGE = true := by
  let c := sampleComponent "0.2.0" .installed []
  let r := sampleRelease "ecosystem" "0.1.0"
  have hordered : .installOrUpgrade (chartSpecOf {} c) true ∈
      ((sampleWorld c [r]).moments (reconcile {} "dogu-op").run).map Moment.call := by decide +kernel
  obtain ⟨earlier, m, later, hrun, hcall⟩ := World.exists_moment hordered
  have hV : readVersion "0.1.0" = .ok ⟨0, 1, 0, [], []⟩ := rfl
  have hW : readVersion "0.2.0" = .ok ⟨0, 2, 0, [], []⟩ := rfl
  have hbound := ordered_version_at_least (faultFree_sampleWorld c [r]) (find?_sampleWorld c [r]) (r := r)
    (by rfl) hV hrun hcall hW
  rw [if_neg (by decide)] at hbound
  exact ⟨chartSpecOf {} c, hordered, rfl, hbound⟩

/-- A pass over a component, in a world without faults, orders a version below one that is deployed for it. -/
def World.Downgrades (w : World) (config : Config) (name : String) : Prop :=
  ∃ c r spec detached V W, w.FaultFree ∧ w.components.find? name = some c ∧
    r ∈ w.charts.releases ∧ r.name = c.spec.name ∧ readVersion r.appVersion = .ok V ∧
    .installOrUpgrade spec detached ∈ (w.moments (reconcile config name).run).map Moment.call ∧
    readVersion spec.version = .ok W ∧ W.order V = .lt

/-- A component that is to be installed whatever is deployed may be downgraded. So may one of which there
are releases in two namespaces, since only the first of them is looked at. -/
theorem downgrades_of_tryToInstall_or_second_release :
    (sampleWorld (sampleComponent "0.1.0" .tryToInstall []) [sampleRelease "ecosystem" "0.2.0"]).Downgrades
      {} "dogu-op" ∧
    (sampleWorld (sampleComponent "0.2.0" .installed [])
      [sampleRelease "ecosystem" "0.1.0", sampleRelease "other" "0.5.0"]).Downgrades {} "dogu-op" := by
  have hread1 : readVersion "0.1.0" = .ok ⟨0, 1, 0, [], []⟩ := rfl
  have hread2 : readVersion "0.2.0" = .ok ⟨0, 2, 0, [], []⟩ := rfl
  have hread5 : readVersion "0.5.0" = .ok ⟨0, 5, 0, [], []⟩ := rfl
  constructor
  · let c := sampleComponent "0.1.0" .tryToInstall []
    refine ⟨c, sampleRelease "ecosystem" "0.2.0", chartSpecOf {} c, false, _, _, faultFree_sampleWorld c _,
      find?_sampleWorld c _, List.mem_cons_self, rfl, hread2, ?_, hread1, by decide⟩
    decide +kernel
  · let c := sampleComponent "0.2.0" .installed []
    refine ⟨c, sampleRelease "other" "0.5.0", chartSpecOf {} c, true, _, _, faultFree_sampleWorld c _,
      find?_sampleWorld c _, List.mem_cons_of_mem _ List.mem_cons_self, rfl, hread5, ?_, hread2, by decide⟩
    decide +kernel

/-! ## The finalizer at an order -/

theorem guards_iff_of_stores {b : Bool} (h : w.Stores name (KeptAs b)) : w.Guards name ↔ b = true := by
  obtain ⟨x, hx, -, hhas⟩ := h
  constructor
  · rintro ⟨y, hy, hyhas⟩
    obtain rfl : x = y := Option.some.inj (hx.symm.trans hy)
    exact hhas ▸ hyhas
  · exact fun hb => ⟨x, hx, hhas.trans hb⟩

theorem guard_eq_true : guard c w.charts.releases = true ↔
    c.hasFinalizer = true ∨ c.lifecycle = .tryToInstall ∨ releaseOf? c w.charts.releases = none := by
  simp [guard, or_assoc]

/-- When a pass changes a release, and still when it ends, the component has the finalizer if and only if it
had it before the pass or the pass is an installation. An upgrade does not add it. -/
theorem guards_at_order_iff (hfree : w.FaultFree) (hstored : w.components.find? name = some c)
    (halive : c.isBeingDeleted = false) (hrun : w.moments (reconcile config name).run = earlier ++ m :: later)
    (hcall : m.call = .installOrUpgrade spec detached) :
    (m.before.Guards name ↔
      c.hasFinalizer = true ∨ c.lifecycle = .tryToInstall ∨ releaseOf? c w.charts.releases = none) ∧
    ∀ res w', w.run (reconcile config name).run = (.finished res, w') →
      (w'.Guards name ↔
        c.hasFinalizer = true ∨ c.lifecycle = .tryToInstall ∨ releaseOf? c w.charts.releases = none) := by
  have hname : c.name = name := ComponentStore.name_of_find? hstored
  have hobeys := obeys_reconcile config hfree hstored
  have hcalls := hobeys.calls
  rw [hrun] at hcalls
  obtain ⟨-, hbefore⟩ := hcalls.at spec detached hcall
  rw [hname] at hbefore
  refine ⟨(guards_iff_of_stores hbefore).trans guard_eq_true, fun res w' hend => ?_⟩
  rcases hobeys.ending res w' hend halive with hunordered | hafter
  · have horder := hunordered m (by rw [hrun]; simp)
    rw [hcall] at horder
    cases horder
  · rw [hname] at hafter
    exact (guards_iff_of_stores hafter).trans guard_eq_true

/-- The release of a component without the finalizer is upgraded, and the component has none then. -/
theorem not_guards_at_upgrade :
    ∃ m ∈ (sampleWorld (sampleComponent "0.2.0" .installed []) [sampleRelease "ecosystem" "0.1.0"]).moments
        (reconcile {} "dogu-op").run,
      (∃ spec, m.call = .installOrUpgrade spec true) ∧ ¬ m.before.Guards "dogu-op" := by
  let c := sampleComponent "0.2.0" .installed []
  let r := sampleRelease "ecosystem" "0.1.0"
  have hordered : .installOrUpgrade (chartSpecOf {} c) true ∈
      ((sampleWorld c [r]).moments (reconcile {} "dogu-op").run).map Moment.call := by decide +kernel
  obtain ⟨earlier, m, later, hrun, hcall⟩ := World.exists_moment hordered
  have hguards := (guards_at_order_iff (faultFree_sampleWorld c [r]) (find?_sampleWorld c [r]) (by decide)
    hrun hcall).1
  refine ⟨m, by rw [hrun]; simp, ⟨_, hcall⟩, fun hguarded => ?_⟩
  rcases hguards.1 hguarded with h | h | h <;> revert h <;> decide

end Results

end ChartOperator
