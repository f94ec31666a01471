import ChartOperator.Proofs.Lifecycle.Orders

set_option autoImplicit false

/-!
# Where a pass orders

Every order of a pass goes to the namespace that the component asks for. That is the namespace of its release
if the component names one and is not to be installed whatever is deployed: the choice of an upgrade has
compared the two (`InPlace`).

Nothing compares them for a component that names no namespace. It asks for its own, wherever its release is.
-/

namespace ChartOperator

/-- The component says where its release is to be. -/
def Component.NamesNamespace (c : Component) : Prop :=
  ∃ wanted, c.spec.deployNamespace = some wanted ∧ wanted ≠ ""

theorem Component.deployNamespace_of_named {c : Component} {wanted : String}
    (hwanted : c.spec.deployNamespace = some wanted) (hgiven : wanted ≠ "") : c.deployNamespace = wanted := by
  rw [Component.deployNamespace, hwanted]
  exact if_neg (mt String.isEmpty_iff.1 hgiven)

theorem Component.deployNamespace_of_unnamed {c : Component} (h : ¬ c.NamesNamespace) :
    c.deployNamespace = c.metadata.namespace.getD "" := by
  unfold Component.deployNamespace
  split
  · next wanted hwanted =>
    split
    · rfl
    · next hgiven => exact (h ⟨wanted, hwanted, mt String.isEmpty_iff.2 hgiven⟩).elim
  · rfl

/-- A release that is in its place is where the component asks for it, if the component says where. -/
theorem InPlace.namespace_eq {c : Component} {r : Release} (h : InPlace c r) (hnames : c.NamesNamespace) :
    c.deployNamespace = r.namespace := by
  obtain ⟨wanted, hwanted, hgiven⟩ := hnames
  have hplace : wanted = r.namespace := (h wanted hwanted).resolve_left hgiven
  exact (Component.deployNamespace_of_named hwanted hgiven).trans hplace

section Results

variable {config : Config} {name : String} {w : World} {c : Component} {spec : ChartSpec} {detached : Bool}
  {earlier later : List Moment} {m : Moment}

/-- A pass orders into the namespace that the component names, or into the component's own if it names none. If
something is deployed for the component, this is the namespace of the first such release, unless the component is to
be installed whatever is deployed or names no namespace. -/
theorem ordered_namespace (hfree : w.FaultFree) (hstored : w.components.find? name = some c)
    (hrun : w.moments (reconcile config name).run = earlier ++ m :: later)
    (hcall : m.call = .installOrUpgrade spec detached) :
    (∀ wanted, c.spec.deployNamespace = some wanted → wanted ≠ "" → spec.namespace = wanted) ∧
      (¬ c.NamesNamespace → spec.namespace = c.metadata.namespace.getD "") ∧
      ∀ r, releaseOf? c w.charts.releases = some r → c.lifecycle ≠ .tryToInstall → c.NamesNamespace →
        spec.namespace = r.namespace := by
  have hcalls := (obeys_reconcile config hfree hstored).calls
  rw [hrun] at hcalls
  obtain ⟨horder, -⟩ := hcalls.at spec detached hcall
  cases horder with
  | install hnew =>
    refine ⟨fun _ => Component.deployNamespace_of_named, Component.deployNamespace_of_unnamed,
      fun r hfound hstatus _ => ?_⟩
    rcases hnew with htry | hnone
    · exact (hstatus htry).elim
    · rw [hfound] at hnone
      cases hnone
  | @upgrade r' _ hfound' _ hplace =>
    refine ⟨fun _ => Component.deployNamespace_of_named, Component.deployNamespace_of_unnamed,
      fun r hfound _ hnames => ?_⟩
    obtain rfl : r = r' := Option.some.inj (hfound.symm.trans hfound')
    exact hplace.namespace_eq hnames

/-- The component, which is to be deployed to a namespace. -/
def Component.deployedTo (c : Component) («namespace» : String) : Component :=
  { c with spec := { c.spec with deployNamespace := some «namespace» } }

/-- The upgrade of a component goes to the namespace that it names and that its release is in. -/
theorem ordered_namespace_upgrade :
    ∃ spec, .installOrUpgrade spec true ∈
        ((sampleWorld ((sampleComponent "0.2.0" .installed []).deployedTo "other")
          [sampleRelease "other" "0.1.0"]).moments (reconcile {} "dogu-op").run).map Moment.call ∧
      spec.namespace = "other" := by
  let c := (sampleComponent "0.2.0" .installed []).deployedTo "other"
  let r := sampleRelease "other" "0.1.0"
  have hordered : .installOrUpgrade (chartSpecOf {} c) true ∈
      ((sampleWorld c [r]).moments (reconcile {} "dogu-op").run).map Moment.call := by decide +kernel
  obtain ⟨earlier, m, later, hrun, hcall⟩ := World.exists_moment hordered
  obtain ⟨-, -, hplace⟩ := ordered_namespace (faultFree_sampleWorld c [r]) (find?_sampleWorld c [r]) hrun hcall
  exact ⟨_, hordered, hplace r rfl (by decide) ⟨"other", rfl, by decide⟩⟩

/-- A pass over a component, in a world without faults, orders into another namespace than that of the one
release of its name. -/
def World.Relocates (w : World) (config : Config) (name : String) : Prop :=
  ∃ c r spec detached, w.FaultFree ∧ w.components.find? name = some c ∧
    w.charts.releases.filter (·.name == c.spec.name) = [r] ∧
    .installOrUpgrade spec detached ∈ (w.moments (reconcile config name).run).map Moment.call ∧
    spec.namespace ≠ r.namespace

/-- A component that is to be installed whatever is deployed may be ordered into another namespace than its
release is in. So may one that names no namespace: it is upgraded into its own. -/
theorem relocates_of_tryToInstall_or_unnamed :
    (sampleWorld ((sampleComponent "0.1.0" .tryToInstall []).deployedTo "other")
      [sampleRelease "ecosystem" "0.1.0"]).Relocates {} "dogu-op" ∧
    (sampleWorld (sampleComponent "0.2.0" .installed []) [sampleRelease "other" "0.1.0"]).Relocates
      {} "dogu-op" := by
  constructor
  · let c := (sampleComponent "0.1.0" .tryToInstall []).deployedTo "other"
    refine ⟨c, sampleRelease "ecosystem" "0.1.0", chartSpecOf {} c, false, faultFree_sampleWorld c _,
      find?_sampleWorld c _, rfl, ?_, by decide⟩
    decide +kernel
  · let c := sampleComponent "0.2.0" .installed []
    refine ⟨c, sampleRelease "other" "0.1.0", chartSpecOf {} c, true, faultFree_sampleWorld c _,
      find?_sampleWorld c _, rfl, ?_, by decide⟩
    decide +kernel

end Results

end ChartOperator
