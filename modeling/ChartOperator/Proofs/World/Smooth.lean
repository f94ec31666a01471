import ChartOperator.Proofs.Concurrency.Turns

set_option autoImplicit false

/-!
# Worlds in which errands succeed

In a smooth world (`World.Smooth`) no call meets a fault, and the stores were told neither to fail nor to make
orders wait. Writes may still lose races: a change of an object that is there is attempted until it succeeds
(`World.Smooth.change_ok`).

`Errand.Achieves` says that an errand succeeds wherever something holds, and to what it leads. `Errand.Obeys`
tells of the runs that end; this promises the end as well.
-/

namespace ChartOperator

namespace ChartStore

variable {s : ChartStore} {chart : ChartSpec}

/-- The client was told neither to fail nor to make orders wait. -/
structure Willing (s : ChartStore) : Prop where
  installs : s.installFailure = none
  uninstalls : s.uninstallFailure = none
  checks : s.dependencyFailure = none
  ungated : s.isGated = false

theorem Willing.deploy (h : s.Willing) (chart : ChartSpec) : (s.deploy chart).2.Willing := by
  unfold ChartStore.deploy
  split
  · exact h
  · exact ⟨h.installs, h.uninstalls, h.checks, h.ungated⟩

/-- An order is carried out at once. -/
theorem Willing.install (h : s.Willing) (chart : ChartSpec) (detached : Bool) :
    ∃ t : ChartStore, t.Willing ∧
      s.install chart detached = (some (t.deploy chart).1, (t.deploy chart).2) := by
  let recorded := s.record (.installOrUpgrade chart)
  refine ⟨{ recorded with mayPass := recorded.mayPass && !recorded.isGated }, ?_, ?_⟩
  · exact ⟨h.installs, h.uninstalls, h.checks, h.ungated⟩
  · have hopen : (recorded.isGated && !recorded.mayPass) = false := by
      rw [show recorded.isGated = false from h.ungated, Bool.false_and]
    have hinstalls : recorded.installFailure = none := h.installs
    simp only [ChartStore.install]
    rw [hinstalls]
    exact if_neg (Bool.eq_false_iff.1 hopen)

/-- An order succeeds if its overlay can be read. -/
theorem Willing.install_ok {vs : Values} {detached : Bool} (h : s.Willing)
    (hoverlay : Values.ofOverlay chart.valuesOverlay = .ok vs) :
    (s.install chart detached).1 = some (.ok ()) := by
  obtain ⟨t, -, hinstall⟩ := h.install chart detached
  rw [hinstall, ChartStore.deploy, hoverlay]

theorem Willing.uninstall_ok (h : s.Willing) (release space : String) : (s.uninstall release space).1 = .ok () := by
  have htold : (s.record (.uninstall release space)).uninstallFailure = none := h.uninstalls
  simp only [ChartStore.uninstall, htold]

theorem Willing.checkDependencies_ok (h : s.Willing) (chart : ChartSpec) :
    (s.checkDependencies chart).1 = .ok () := by
  have htold : (s.record (.dependencies chart.chartName)).dependencyFailure = none := h.checks
  simp only [ChartStore.checkDependencies, htold]

end ChartStore

namespace World

variable {w w' : World} {c : Call} {m : Mutation}

/-- Nothing keeps a call from its answer: no call meets a fault, and the stores were told neither to fail nor to
make orders wait. -/
structure Smooth (w : World) : Prop where
  free : w.FaultFree
  readable : w.components.readFailure = none
  writable : w.components.writeFailure = none
  listable : w.workloads.failing = []
  willing : w.charts.Willing

theorem willing_serve (h : w.charts.Willing) (c : Call) : (w.serve c).2.charts.Willing := by
  cases c with
  | installOrUpgrade chart detached =>
    obtain ⟨t, ht, hinstall⟩ := h.install chart detached
    simp only [serve, withCharts, hinstall]
    exact ht.deploy chart
  | uninstall release space =>
    simp only [serve, withCharts, ChartStore.uninstall]
    split <;> exact ⟨h.installs, h.uninstalls, h.checks, h.ungated⟩
  | checkDependencies chart =>
    simp only [serve, withCharts, ChartStore.checkDependencies]
    split <;> exact ⟨h.installs, h.uninstalls, h.checks, h.ungated⟩
  | _ => exact h

/-- A smooth world stays smooth, whatever is called. -/
theorem Smooth.perform (h : w.Smooth) (c : Call) : (w.perform c).2.Smooth := by
  obtain ⟨-, hcomponents, hworkloads, hcharts, hfree⟩ := perform_of_faultFree h.free c
  obtain ⟨hread, hwrite⟩ := w.failures_serve c
  have hserved : (w.serve c).2.workloads = w.workloads := by cases c <;> rfl
  exact {
    free := hfree
    readable := by rw [hcomponents, hread, h.readable]
    writable := by rw [hcomponents, hwrite, h.writable]
    listable := by rw [hworkloads, hserved, h.listable]
    willing := hcharts ▸ willing_serve h.willing c }

theorem Smooth.leave (h : w.Smooth) (n : Note) : (w.leave n).Smooth := by
  cases n <;> exact ⟨h.free, h.readable, h.writable, h.listable, h.willing⟩

/-- The object of a change is there, or a missing one needs no change. -/
def Suited (m : Mutation) (w : World) : Prop := m.missingIsDone = true ∨ w.components.find? m.target ≠ none

theorem suited_of_find? {x : Component} (h : w.components.find? m.target = some x) : Suited m w :=
  .inr (h ▸ Option.some_ne_none x)

/-- In a smooth world an attempt at a change fails by a lost race alone. -/
theorem Smooth.attempted {past : List Moment} (h : w.Smooth) (hm : m.Sound) (hsuited : Suited m w) :
    Errand.Attempted (fun _ _ => True) (fun _ w => w.Smooth ∧ Suited m w)
      (fun r _ _ => ∀ e, r = .error e → e.isConflict = true) m past w := by
  have hread := h.free.read m.target
  have hread' : ∀ r w', w.ask (.getComponent m.target) = (r, w') → w'.Smooth := by
    intro r w' hasked
    cases hread.symm.trans hasked
    exact h.perform _
  refine ⟨trivial, fun e w' hasked => ?_, fun _ _ _ _ => nofun, fun _ _ _ _ _ => trivial, ?_,
    fun _ _ _ _ _ _ _ => nofun⟩
  · cases hfind : w.components.find? m.target with
    | some x =>
      rw [ComponentStore.get_of_find? h.readable hfind] at hread
      cases hread.symm.trans hasked
    | none =>
      have hdone : m.missingIsDone = true := hsuited.resolve_right fun hne => hne hfind
      have hsmooth := hread' _ _ hasked
      rw [ComponentStore.get_of_find?_none h.readable hfind] at hread
      cases hread.symm.trans hasked
      refine ⟨⟨hsmooth, .inl hdone⟩, ?_⟩
      rw [hdone]
      nofun
  · intro fresh w' wr e hasked hedit hres
    have hsmooth := hread' _ _ hasked
    have hfresh := find?_of_ask hasked
    refine ⟨⟨?_, ?_⟩, ?_⟩
    · rw [store_snd]
      exact hsmooth.perform _
    · obtain ⟨y, hy, -⟩ := (alike_store_error hres).find? hfresh
      exact suited_of_find? hy
    · rintro _ ⟨⟩
      refine Bool.of_not_eq_false fun hdecided => ?_
      obtain ⟨hans, hafter, -⟩ := perform_of_faultFree hsmooth.free wr.call
      have hwritten := (store_of_served hans hafter).1.symm.trans hres
      have hname : wr.component.name = m.target :=
        (hm.name hedit).trans (ComponentStore.name_of_find? hfresh)
      obtain ⟨text, htold, -⟩ :=
        ComponentStore.writeFailure_of_write_error (Prod.ext hwritten rfl) (hname ▸ hfresh) hdecided
      rw [hsmooth.writable] at htold
      cases htold

/-- A change succeeds if its object is there, or if a missing one needs none: it does not end with a lost
race. -/
theorem Smooth.change_ok (h : w.Smooth) (hm : m.Sound) (hsuited : Suited m w) :
    ∃ r, (w.change m).1 = .ok r := by
  have hattempts : Errand.Obeys (fun _ _ => True) (fun r _ _ => ∀ e, r = .error e → e.isConflict = true)
      (Errand.change m) [] w :=
    Errand.obeys_change (fun _ w => w.Smooth ∧ Suited m w) ⟨h, hsuited⟩ fun _ _ hw => hw.1.attempted hm hw.2
  cases hres : (w.change m).1 with
  | ok r => exact ⟨r, rfl⟩
  | error e =>
    have hlost : e.isConflict = true := hattempts.ending _ _ rfl e hres
    have hdecided := isLostRace_change hm w
    rw [hres, isLostRace, hlost] at hdecided
    cases hdecided

end World

/-! ## Errands that succeed -/

namespace Errand

open ComponentStore (VersionFree settled)

variable {α β : Type} {D D' : World → Prop} {t : Errand α} {f : α → Errand β} {m : Mutation}

/-- The errand succeeds wherever `D` holds, and leads to where `Q` holds of its result. -/
def Achieves (D : World → Prop) (t : Errand α) (Q : α → World → Prop) : Prop :=
  ∀ w, D w → ∃ a w', w.run t.run = (.finished (.ok a), w') ∧ Q a w'

theorem Achieves.mono {Q Q' : α → World → Prop} (h : Achieves D t Q)
    (hD : ∀ w, D' w → D w) (hQ : ∀ a w, Q a w → Q' a w) : Achieves D' t Q' := by
  intro w hw
  obtain ⟨a, w', hrun, ha⟩ := h w (hD w hw)
  exact ⟨a, w', hrun, hQ a w' ha⟩

/-- What does not depend on the world may be assumed. -/
theorem achieves_and {p : Prop} {Q : α → World → Prop} (h : p → Achieves D t Q) :
    Achieves (fun w => D w ∧ p) t Q :=
  fun w hw => h hw.2 w hw.1

theorem achieves_pure {a : α} {Q : α → World → Prop} (h : ∀ w, D w → Q a w) :
    Achieves D (pure a : Errand α) Q :=
  fun w hw => ⟨a, w, rfl, h w hw⟩

/-- The first part leads to where the second one succeeds. -/
theorem achieves_bind {M : α → World → Prop} {Q : β → World → Prop} (h : Achieves D t M)
    (hf : ∀ a, Achieves (M a) (f a) Q) : Achieves D (t >>= f) Q := by
  intro w hw
  obtain ⟨a, w₁, hrun, ha⟩ := h w hw
  rw [(World.run_bind_of_ok hrun).1]
  exact hf a w₁ ha

theorem achieves_mapFailure {Q : α → World → Prop} {g : Failure → Failure} (h : Achieves D t Q) :
    Achieves D (t.mapFailure g) Q := by
  intro w hw
  obtain ⟨a, w', hrun, ha⟩ := h w hw
  exact ⟨a, w', World.run_mapFailure hrun, ha⟩

theorem achieves_outcome {Q : α → World → Prop} (h : Achieves D t Q) :
    Achieves D t.outcome fun r w => ∃ a, r = .ok a ∧ Q a w := by
  intro w hw
  obtain ⟨a, w', hrun, ha⟩ := h w hw
  exact ⟨.ok a, w', (World.run_outcome hrun).1, a, rfl, ha⟩

theorem achieves_discard {Q : Unit → World → Prop} (h : Achieves D t fun _ => Q ()) :
    Achieves D (discard t) Q := by
  intro w hw
  obtain ⟨a, w', hrun, ha⟩ := h w hw
  exact ⟨(), w', World.run_discard hrun, ha⟩

theorem achieves_announce {c : Component} {severity : Severity} {reason message : String}
    {Q : Unit → World → Prop}
    (h : ∀ w, D w → Q () (w.leave (.event ⟨c, severity, reason, message⟩))) :
    Achieves D (announce c severity reason message) Q :=
  fun w hw => ⟨(), _, rfl, h w hw⟩

theorem achieves_count {metric : Metric} {Q : Unit → World → Prop}
    (h : ∀ w, D w → Q () (w.leave (.count metric))) : Achieves D (count metric) Q :=
  fun w hw => ⟨(), _, rfl, h w hw⟩

/-- A call that the stores answer succeeds. -/
theorem achieves_ask {c : Call} {Q : c.Result → World → Prop} (hsmooth : ∀ w, D w → w.Smooth)
    (h : ∀ w, D w → ∃ a, (w.serve c).1 = some (.ok a) ∧ Q a (w.perform c).2) :
    Achieves D (ask c) Q := by
  intro w hw
  obtain ⟨a, hserved, ha⟩ := h w hw
  exact ⟨a, _, (World.run_ask ((hsmooth w hw).free.answer hserved)).1, ha⟩

/-- In a smooth world, which stays one, a change succeeds if its object is there or none is needed. -/
theorem achieves_change (hm : m.Sound) :
    Achieves (fun w => w.Smooth ∧ World.Suited m w) (change m) fun _ w => w.Smooth := by
  rintro w ⟨hw, hsuited⟩
  obtain ⟨r, hr⟩ := hw.change_ok hm hsuited
  have hsmooth : Obeys (fun _ _ => True) (fun _ _ w => w.Smooth) (change m) [] w :=
    obeys_change_of_perform (fun _ _ _ => trivial) (fun _ _ c _ hw => hw.perform c) hw
  exact ⟨r, _, congrArg (fun r => (World.Ending.finished r, (w.change m).2)) hr, hsmooth.ending _ _ rfl⟩

/-- A change that succeeds keeps the properties of the stored object that its edit keeps. -/
theorem achieves_change_stores {P : Component → Prop} (hm : m.Sound) (hP : VersionFree P)
    (hedit : ∀ x wr, P x → m.edit x = some wr → P (wr.onto x) ∧ settled (wr.onto x) ≠ none) :
    Achieves (fun w => w.Smooth ∧ w.Stores m.target P) (change m) fun _ w => w.Smooth ∧ w.Stores m.target P := by
  rintro w ⟨hw, hstored⟩
  obtain ⟨r, w', hrun, hsmooth⟩ := achieves_change hm w ⟨hw, World.suited_of_find? hstored.choose_spec.1⟩
  have hkept : Obeys (fun _ _ => True) (fun _ _ w => w.Stores m.target P) (change m) [] w :=
    obeys_change_stores hm hP (fun _ _ _ => trivial) hedit hstored
  exact ⟨r, w', hrun, hsmooth, hkept.ending _ _ hrun⟩

end Errand

end ChartOperator
