import ChartOperator.Proofs.Lifecycle.Convergence

set_option autoImplicit false

/-!
# A component that asks for no version

What is deployed for a component that asks for no version is kept at its version: a pass orders just that version, and
takes nothing away (`kept_chartVersion`). So neither other values nor an upgrade that is tried again move it.

A release tells two versions, that of the chart and that of the application in it. Here they are the same. A component
that is to be installed whatever is deployed is left out as well: it gets the latest chart, since nobody looks at its
release.
-/

namespace ChartOperator

open Errand

section Releases

variable {α : Type} {c : Component} {spec : ChartSpec} {detached : Bool} {w : World}

/-- What an order leaves deployed for a component of its name: what was there, or the release that it leads to. -/
theorem releaseOf?_deploy (s : ChartStore) (hname : spec.releaseName = c.spec.name) :
    releaseOf? c (s.deploy spec).2.releases = releaseOf? c s.releases ∨
      releaseOf? c (s.deploy spec).2.releases = some (s.releaseOf spec) := by
  unfold ChartStore.deploy
  split
  · exact .inl rfl
  · right
    have hothers : (s.releases.filter fun r => decide (r.name ≠ spec.releaseName)).find?
        (·.name == c.spec.name) = none := by
      simp [List.find?_filter, hname]
    have hnew : (s.releaseOf spec).name == c.spec.name := beq_iff_eq.2 hname
    simp only [releaseOf?, ChartStore.setValues, List.find?_append, hothers, Option.none_or]
    exact List.find?_cons_of_pos hnew

theorem releaseOf?_install (s : ChartStore) (hname : spec.releaseName = c.spec.name) :
    releaseOf? c (s.install spec detached).2.releases = releaseOf? c s.releases ∨
      releaseOf? c (s.install spec detached).2.releases = some (s.releaseOf spec) := by
  unfold ChartStore.install
  extract_lets recorded
  split
  · exact .inl rfl
  · split
    · left
      cases detached <;> rfl
    · exact releaseOf?_deploy _ hname

/-- The same of the call, whatever fault it meets. -/
theorem releaseOf?_perform (w : World) (hname : spec.releaseName = c.spec.name) :
    releaseOf? c (w.perform (.installOrUpgrade spec detached)).2.charts.releases = releaseOf? c w.charts.releases ∨
      releaseOf? c (w.perform (.installOrUpgrade spec detached)).2.charts.releases =
        some (w.charts.releaseOf spec) := by
  let call : Call := .installOrUpgrade spec detached
  have hcharts := w.charts_takeFault call.channel
  have hmet : (w.perform call).2.charts = w.charts ∨
      (w.perform call).2.charts = (w.charts.install spec detached).2 := by
    show ((w.takeFault call.channel).2.meet call (w.takeFault call.channel).1).2.charts = _ ∨
      ((w.takeFault call.channel).2.meet call (w.takeFault call.channel).1).2.charts = _
    generalize (w.takeFault call.channel).2 = met at hcharts
    rw [← hcharts]
    rcases World.meet_cases met call (w.takeFault call.channel).1 with he | he | ⟨n, he⟩
    · exact .inl (congrArg World.charts he)
    · exact .inr (congrArg (fun o => o.2.charts) he)
    · exact .inr (congrArg (fun o => o.2.charts) he)
  rcases hmet with hmet | hmet
  · exact .inl (by rw [hmet])
  · rw [hmet]
    exact releaseOf?_install w.charts hname

theorem releases_change (w : World) (m : Mutation) : (w.change m).2.charts.releases = w.charts.releases := by
  have hkept : Obeys (fun _ _ => True) (fun _ _ v => v.charts.releases = w.charts.releases) (change m) [] w :=
    obeys_change_of_perform (fun _ _ _ => trivial) (fun _ v _ hd hv => (World.releases_perform v hd).trans hv) rfl
  exact hkept.ending (w.change m).1 (w.change m).2 rfl

/-- What holds of the releases holds after a run, if no order of the run breaks it. -/
theorem releases_run {P : List Release → Prop} (p : Program α) (hw : P w.charts.releases)
    (horders : ∀ m ∈ w.moments p, m.call.isOrder = true → P m.before.charts.releases → P m.after.charts.releases) :
    P (w.run p).2.charts.releases := by
  induction p generalizing w with
  | done a => exact hw
  | call c next ih =>
    simp only [World.moments] at horders
    obtain ⟨hcall, hnext⟩ := List.forall_mem_cons.1 horders
    have hafter : P (w.perform c).2.charts.releases := by
      cases horder : c.isOrder with
      | true => exact hcall horder hw
      | false => rwa [World.releases_perform w horder]
    rcases hperf : w.perform c with ⟨a | _ | _, w'⟩
    · rw [hperf] at hafter hnext
      rw [World.run, hperf]
      exact ih a hafter hnext
    · rw [hperf] at hafter
      rw [World.run, hperf]
      exact hafter
    · rw [hperf] at hafter
      rw [World.run, hperf]
      exact hafter
  | mutate m next ih =>
    have hafter : P (w.change m).2.charts.releases := by rwa [releases_change]
    exact ih (w.change m).1 hafter fun p hp => horders p (List.mem_append_right _ hp)
  | note n next ih =>
    have hleave : (w.leave n).charts = w.charts := by cases n <;> rfl
    exact ih (hleave ▸ hw) horders

end Releases

section Results

variable {config : Config} {name : String} {w : World} {c : Component} {r : Release}

/-- An upgrade takes nothing away. -/
theorem confined_carryOut_upgrade (config : Config) (c : Component) :
    Confined (fun d => ∀ release space, d ≠ .uninstall release space) (fun _ => True)
      (carryOut config c .upgrade (upgrade config c) upgradeReason .tryToUpgrade) := by
  have hcalls : ∀ d : Call, d.IsQuery → ∀ release space, d ≠ .uninstall release space := by
    intro d hd release space heq
    rw [heq] at hd
    cases hd.2
  have hpersist := fun status installed => confined_of_quiet (quiet_persistStatus c status installed) hcalls
  refine confined_carryOut hcalls ?_ config c _ _ _
  unfold upgrade
  refine confined_bind (confined_of_quiet (quiet_upgradeSpec config c.name c) hcalls) fun chart => ?_
  refine confined_bind (confined_mapFailure (confined_ask nofun)) fun _ => ?_
  refine confined_bind (confined_discard (confined_mapFailure (hpersist _ _))) fun _ => ?_
  refine confined_bind (confined_mapFailure (confined_ask nofun)) fun _ => ?_
  exact confined_discard (confined_mapFailure (hpersist _ _))

/-- A pass over a component that has a release, and is neither being deleted nor to be installed whatever is deployed,
takes nothing away. -/
theorem not_uninstall_of_deployed (hfree : w.FaultFree) (hstored : w.components.find? name = some c)
    (halive : c.isBeingDeleted = false) (hstatus : c.lifecycle ≠ .tryToInstall)
    (hfound : releaseOf? c w.charts.releases = some r) {m : Moment}
    (hm : m ∈ w.moments (reconcile config name).run) (release space : String) : m.call ≠ .uninstall release space := by
  rcases asks_or_executes config name w with hasks | ⟨x, op, t, reason, fallback, hchosen, hop, -⟩
  · intro hcall
    have horder := (hasks m hm).2
    rw [hcall] at horder
    cases horder
  obtain ⟨-, asked, hasked, hmoments⟩ := run_reconcile hchosen
  rw [hmoments] at hm
  rcases List.mem_append.1 hm with hm | hm
  · intro hcall
    have horder := (hasked m hm).2
    rw [hcall] at horder
    cases horder
  have hx : x = c := by
    obtain ⟨w₁, -, hread, -⟩ := exists_choice hchosen
    have hfind := World.find?_of_ask hread
    obtain rfl : (w.ask (.getComponent name)).2 = w₁ := congrArg Prod.snd hread
    rw [World.ask_snd, (World.perform_of_faultFree hfree (.getComponent name)).2.1] at hfind
    exact Option.some.inj (hfind.symm.trans hstored)
  subst hx
  obtain rfl : op = .upgrade := by
    have hsuits := suits_of_chosen hfree hchosen
    cases hop with
    | install =>
      cases hsuits with
      | install _ hnew =>
        rcases hnew with htry | hnone
        · exact (hstatus htry).elim
        · cases hnone.symm.trans hfound
    | upgrade => rfl
    | delete =>
      cases hsuits with
      | delete hdeleted => cases halive.symm.trans hdeleted
  have hkept : Obeys (fun _ m => ∀ release space, m.call ≠ .uninstall release space) (fun _ _ _ => True)
      (dispatch config x .upgrade) [] (choiceEnd config name w x .upgrade) := by
    refine Program.obeys_of_confined (confined_carryOut_upgrade config x) (fun _ _ _ hd _ => ⟨hd, trivial⟩) ?_
      (fun _ _ _ => id) trivial
    intro _ _ _ _ _
    refine obeys_change_of_perform (fun _ p hp release space hcall => ?_) (fun _ _ _ _ _ => trivial) trivial
    rw [hcall] at hp
    cases hp
  exact hkept.calls.forall m hm release space

theorem readVersion_of_atLeast {requested deployed : String} (h : AtLeast requested deployed) : requested ≠ "" := by
  obtain ⟨W, -, hW, -⟩ := h
  rintro rfl
  exact readVersion_empty W hW

/-- What a pass orders for a component that asks for no version, and has a release that is to be kept, is the version
of that release. What is deployed for the component stays at the version of its chart. -/
theorem kept_chartVersion (hfree : w.FaultFree) (hstored : w.components.find? name = some c)
    (halive : c.isBeingDeleted = false) (hstatus : c.lifecycle ≠ .tryToInstall) (hopen : c.spec.version = "")
    (hfound : releaseOf? c w.charts.releases = some r) (hsame : r.chartVersion = r.appVersion) :
    (∀ spec detached, .installOrUpgrade spec detached ∈ (w.moments (reconcile config name).run).map Moment.call →
      spec.version = r.chartVersion) ∧
    ∃ r', releaseOf? c (w.run (reconcile config name).run).2.charts.releases = some r' ∧
      r'.chartVersion = r.chartVersion := by
  have horder : ∀ m ∈ w.moments (reconcile config name).run, ∀ spec detached,
      m.call = .installOrUpgrade spec detached →
        spec.version = r.chartVersion ∧ spec.version ≠ "" ∧ spec.releaseName = c.spec.name := by
    intro m hm spec detached hcall
    obtain ⟨earlier, later, hrun⟩ := List.append_of_mem hm
    have hcalls := (obeys_reconcile config hfree hstored).calls
    rw [hrun] at hcalls
    obtain ⟨hordered, -⟩ := hcalls.at spec detached hcall
    cases hordered with
    | install hnew =>
      rcases hnew with htry | hnone
      · exact (hstatus htry).elim
      · cases hnone.symm.trans hfound
    | @upgrade r' _ hfound' hversion =>
      obtain rfl : r = r' := Option.some.inj (hfound.symm.trans hfound')
      have hrequested : requestedVersion c r = r.appVersion := if_pos (by rw [hopen]; rfl)
      exact ⟨hrequested.trans hsame.symm, readVersion_of_atLeast hversion, rfl⟩
  constructor
  · intro spec detached hordered
    obtain ⟨m, hm, hcall⟩ := List.mem_map.1 hordered
    exact (horder m hm spec detached hcall).1
  · let P : List Release → Prop := fun rs => ∃ r', releaseOf? c rs = some r' ∧ r'.chartVersion = r.chartVersion
    refine releases_run (P := P) (reconcile config name).run ⟨r, hfound, rfl⟩ ?_
    rintro ⟨before, call⟩ hm hisOrder hbefore
    cases call with
    | installOrUpgrade spec detached =>
      obtain ⟨hversion, hgiven, hname⟩ := horder _ hm spec detached rfl
      show P (before.perform (.installOrUpgrade spec detached)).2.charts.releases
      rcases @releaseOf?_perform _ _ detached before hname with hsame | hnew
      · obtain ⟨r', hr', hkept⟩ := hbefore
        exact ⟨r', hsame.trans hr', hkept⟩
      · refine ⟨_, hnew, ?_⟩
        have hordered : (before.charts.releaseOf spec).chartVersion = spec.version :=
          if_neg (by simpa [String.isEmpty_iff] using hgiven)
        exact hordered.trans hversion
    | uninstall release space =>
      exact (not_uninstall_of_deployed hfree hstored halive hstatus hfound hm release space rfl).elim
    | _ => cases hisOrder

/-- The component, which is to be deployed with other values. -/
def Component.valued (c : Component) (overlay : String) : Component :=
  { c with spec := { c.spec with valuesOverlay := some overlay } }

/-- Other values are deployed with the chart that is there. -/
theorem kept_chartVersion_valued :
    let c := (sampleComponent "" .installed []).valued "a: 2\n"
    let w := sampleWorld c [sampleRelease "ecosystem" "0.1.0"]
    ∃ spec, .installOrUpgrade spec true ∈ (w.moments (reconcile {} "dogu-op").run).map Moment.call ∧
      spec.version = "0.1.0" ∧
      ∃ r', releaseOf? c (w.run (reconcile {} "dogu-op").run).2.charts.releases = some r' ∧
        r'.chartVersion = "0.1.0" := by
  intro c w
  have hordered : .installOrUpgrade { chartSpecOf {} c with version := "0.1.0" } true ∈
      (w.moments (reconcile {} "dogu-op").run).map Moment.call := by decide +kernel
  have hfound : releaseOf? c w.charts.releases = some (sampleRelease "ecosystem" "0.1.0") := by decide
  obtain ⟨hversion, hkept⟩ := @kept_chartVersion {} "dogu-op" w c _ (faultFree_sampleWorld c _)
    (find?_sampleWorld c _) rfl (by decide) rfl hfound rfl
  exact ⟨_, hordered, hversion _ _ hordered, hkept⟩

/-- A pass over a component that asks for no version and is not being deleted, in a world without faults, orders
another version than that of the chart that is deployed for it. -/
def World.MovesChart (w : World) (config : Config) (name : String) : Prop :=
  ∃ c r spec detached, w.FaultFree ∧ w.components.find? name = some c ∧ c.isBeingDeleted = false ∧
    c.spec.version = "" ∧ releaseOf? c w.charts.releases = some r ∧
    .installOrUpgrade spec detached ∈ (w.moments (reconcile config name).run).map Moment.call ∧
    spec.version ≠ r.chartVersion

/-- A component that is to be installed whatever is deployed is moved to the latest chart. One that gets other values
is moved where chart and application have different versions. -/
theorem movesChart_of_tryToInstall_or_appVersion :
    (sampleWorld (sampleComponent "" .tryToInstall []) [sampleRelease "ecosystem" "0.1.0"]).MovesChart
      {} "dogu-op" ∧
    (sampleWorld ((sampleComponent "" .installed []).valued "a: 2\n")
      [{ sampleRelease "ecosystem" "0.1.0" with chartVersion := "0.1.0-2" }]).MovesChart {} "dogu-op" := by
  constructor
  · let c := sampleComponent "" .tryToInstall []
    refine ⟨c, sampleRelease "ecosystem" "0.1.0", chartSpecOf {} c, false, faultFree_sampleWorld c _,
      find?_sampleWorld c _, rfl, rfl, rfl, ?_, by decide⟩
    decide +kernel
  · let c := (sampleComponent "" .installed []).valued "a: 2\n"
    let r := { sampleRelease "ecosystem" "0.1.0" with chartVersion := "0.1.0-2" }
    refine ⟨c, r, { chartSpecOf {} c with version := "0.1.0" }, true, faultFree_sampleWorld c _,
      find?_sampleWorld c _, rfl, rfl, rfl, ?_, by decide⟩
    decide +kernel

end Results

end ChartOperator
