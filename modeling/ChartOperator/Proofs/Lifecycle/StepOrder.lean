import ChartOperator.Proofs.Lifecycle.Quiet
import ChartOperator.Proofs.World.Failures
import ChartOperator.Proofs.World.Sample

set_option autoImplicit false

/-!
# The order of the steps of an operation

Whatever faults the calls of a pass meet, none of the steps of an operation is taken before those that it
depends on. `InstallOrder`, `UpgradeOrder` and `DeleteOrder` say of a call what was done before it in the
same pass; `stepOrder` is that of the operation which the pass chose, and `obeys_reconcile_order` proves it
along the pass.

The steps before a call are known by what succeeded: a call that was answered (`Succeeded`), a status that
the store accepted (`Persisted`), a release that was made (`Deployed`). What is known stays known, however
often a step is attempted again.
-/

namespace ChartOperator

open Errand

/-! ## What was done before -/

section Known

variable {past past' : List Moment}

/-- The call was answered, and without a failure. -/
def Succeeded (c : Call) (past : List Moment) : Prop := ∃ p ∈ past, ∃ a, p.Answered c (.ok a)

/-- The store accepted a write that gives the component the status. -/
def Persisted (n : String) (l : Lifecycle) (past : List Moment) : Prop :=
  ∃ p ∈ past, ∃ x y, p.Accepted (.status x) y ∧ x.name = n ∧ x.lifecycle = l

/-- The chart client installed or upgraded a release. -/
def Deployed (past : List Moment) : Prop := ∃ spec detached, Succeeded (.installOrUpgrade spec detached) past

/-- Behind a release that was made, the releases were listed, and that of the component has the version. -/
def Relisted (c : Component) (v : String) (past : List Moment) : Prop :=
  ∃ start rest, past = start ++ rest ∧ Deployed start ∧
    ∃ q ∈ rest, ∃ rs r, q.Answered .listReleases (.ok rs) ∧ releaseOf? c rs = some r ∧ r.appVersion = v

/-- The releases were listed, and that of the component is gone: there was none, or it was removed. -/
def Released (c : Component) (past : List Moment) : Prop :=
  ∃ p ∈ past, ∃ rs, p.Answered .listReleases (.ok rs) ∧
    ∀ r, releaseOf? c rs = some r → Succeeded (.uninstall r.name r.namespace) past

/-- The call is a write that would give a stored component another value of the field. -/
def Moment.Rewrites {α : Type} (m : Moment) (field : Component → α) (a : α) : Prop :=
  ∃ (wr : Write) (stored : Component), m.call = wr.call ∧
    m.before.components.find? wr.component.name = some stored ∧ field (wr.onto stored) = a ∧ field stored ≠ a

theorem Succeeded.mono {c : Call} (h : Succeeded c past) (hpast : past <+: past') : Succeeded c past' := by
  obtain ⟨p, hp, hanswered⟩ := h
  exact ⟨p, hpast.subset hp, hanswered⟩

theorem succeeded_snoc {w w' : World} {c : Call} {a : c.Result} (h : w.perform c = (.answered (.ok a), w')) :
    Succeeded c (past ++ [⟨w, c⟩]) :=
  ⟨⟨w, c⟩, by simp, a, rfl, congrArg Prod.fst h⟩

theorem Persisted.mono {n : String} {l : Lifecycle} (h : Persisted n l past) (hpast : past <+: past') :
    Persisted n l past' := by
  obtain ⟨p, hp, hpersisted⟩ := h
  exact ⟨p, hpast.subset hp, hpersisted⟩

theorem Deployed.mono (h : Deployed past) (hpast : past <+: past') : Deployed past' := by
  obtain ⟨spec, detached, h⟩ := h
  exact ⟨spec, detached, h.mono hpast⟩

theorem Relisted.mono {c : Component} {v : String} (h : Relisted c v past) (hpast : past <+: past') :
    Relisted c v past' := by
  obtain ⟨start, rest, rfl, hdeployed, q, hq, hlisted⟩ := h
  obtain ⟨more, rfl⟩ := hpast
  exact ⟨start, rest ++ more, List.append_assoc _ _ _, hdeployed, q, List.mem_append_left _ hq, hlisted⟩

theorem Released.mono {c : Component} (h : Released c past) (hpast : past <+: past') : Released c past' := by
  obtain ⟨p, hp, rs, hlisted, hremoved⟩ := h
  exact ⟨p, hpast.subset hp, rs, hlisted, fun r hr => (hremoved r hr).mono hpast⟩

/-- A status that was set is persisted. -/
theorem persisted_of_changed {n : String} {l : Lifecycle} {v : Option String} {r : Option Component}
    {w : World} (h : Changed (.setStatus n l v) past (.ok r) past' w) : Persisted n l past' := by
  obtain ⟨-, h⟩ := h
  cases r with
  | none =>
    rcases h with h | ⟨x, -, hnone⟩
    · cases h
    · cases hnone
  | some y =>
    obtain ⟨p, hp, x, wr, hx, hedit, haccepted, -⟩ := h
    cases hedit
    have hname : x.name = n := ComponentStore.name_of_find? hx
    exact ⟨p, hp, _, y, haccepted, hname, rfl⟩

/-- A write of an edited copy rewrites what the edit changes. -/
theorem rewrites_of_edit {α : Type} {field : Component → α} {a : α} {m : Mutation} {wr : Write} {w : World}
    {n : String} {x : Component} (hm : m.Sound) (hx : w.components.find? n = some x)
    (hedit : m.edit x = some wr) (h : Moment.Rewrites ⟨w, wr.call⟩ field a) :
    field (wr.onto x) = a ∧ field x ≠ a := by
  obtain ⟨wr', stored, hcall, hstored, ha, hne⟩ := h
  obtain rfl : wr' = wr := by
    cases wr' <;> cases wr <;> first | exact (by cases hcall; rfl) | cases hcall
  have hname : wr'.component.name = n := (hm.name hedit).trans (ComponentStore.name_of_find? hx)
  obtain rfl : stored = x := by
    rw [hname] at hstored
    exact Option.some.inj (hstored.symm.trans hx)
  exact ⟨ha, hne⟩

theorem not_rewrites_of_query {α : Type} {field : Component → α} {a : α} {m : Moment} (h : m.call.IsQuery) :
    ¬ m.Rewrites field a := by
  rintro ⟨wr, -, hcall, -⟩
  have hwrite := h.1
  rw [hcall] at hwrite
  cases wr <;> cases hwrite

end Known

/-! ## What each step depends on -/

/-- What an installation did before a call. -/
structure InstallOrder (config : Config) (c : Component) (earlier : List Moment) (m : Moment) : Prop where
  /-- A release is ordered when its dependencies are there, the status is persisted, and the finalizer is in
  place at that very moment. -/
  order : ∀ spec detached, m.call = .installOrUpgrade spec detached →
    Succeeded (.checkDependencies spec) earlier ∧ Persisted c.name .installing earlier ∧
      m.before.Guards c.name
  /-- A wanted version is recorded for a component without one, and it is the one that was deployed. -/
  version : ∀ v, m.Rewrites (·.spec.version) v → c.spec.version = "" ∧ Relisted c v earlier
  installed : ∀ x, m.call = .updateStatus x → x.lifecycle = .installed → Deployed earlier
  /-- An installed version is recorded when all workloads could be listed. -/
  installedVersion : ∀ v, m.Rewrites Component.installedVersion v →
    Persisted c.name .installed earlier ∧ ∀ kind, Succeeded (.listWorkloads kind
      (c.metadata.namespace.getD config.namespace) (Workload.selectorOf c.name)) earlier

/-- What an upgrade did before a call. -/
structure UpgradeOrder (c : Component) (earlier : List Moment) (m : Moment) : Prop where
  order : ∀ spec detached, m.call = .installOrUpgrade spec detached →
    Succeeded (.checkDependencies spec) earlier ∧ Persisted c.name .upgrading earlier
  installed : ∀ x, m.call = .updateStatus x → x.lifecycle = .installed → Deployed earlier
  installedVersion : ∀ v, m.Rewrites Component.installedVersion v → Deployed earlier

/-- What a removal did before a call. -/
structure DeleteOrder (c : Component) (earlier : List Moment) (m : Moment) : Prop where
  order : ∀ spec detached, m.call ≠ .installOrUpgrade spec detached
  uninstall : ∀ release space, m.call = .uninstall release space → Persisted c.name .deleting earlier
  /-- The finalizer goes when nothing is deployed any more. -/
  finalizer : m.Rewrites Component.hasFinalizer false → Released c earlier

/-- What an operation on a component did before a call. One that is refused or ignored only asks. -/
def stepOrder (config : Config) (c : Component) : Operation → Rule
  | .install => InstallOrder config c
  | .upgrade => UpgradeOrder c
  | .delete => DeleteOrder c
  | _ => fun _ m => m.call.IsQuery

section Steps

variable {config : Config} {c : Component} {earlier : List Moment} {m : Moment} {op : Operation}

theorem stepOrder_of_query (h : m.call.IsQuery) : stepOrder config c op earlier m := by
  have horder : ∀ spec detached, m.call ≠ .installOrUpgrade spec detached := by
    intro spec detached hcall
    have hquery := h.2
    rw [hcall] at hquery
    cases hquery
  have hwrite : ∀ x, m.call ≠ .updateStatus x := by
    intro x hcall
    have hquery := h.1
    rw [hcall] at hquery
    cases hquery
  cases op with
  | install =>
    exact {
      order := fun spec detached hcall => (horder spec detached hcall).elim
      version := fun v hv => (not_rewrites_of_query h hv).elim
      installed := fun x hcall => (hwrite x hcall).elim
      installedVersion := fun v hv => (not_rewrites_of_query h hv).elim }
  | upgrade =>
    exact {
      order := fun spec detached hcall => (horder spec detached hcall).elim
      installed := fun x hcall => (hwrite x hcall).elim
      installedVersion := fun v hv => (not_rewrites_of_query h hv).elim }
  | delete =>
    refine ⟨horder, fun release space hcall => ?_, fun hv => (not_rewrites_of_query h hv).elim⟩
    have hquery := h.2
    rw [hcall] at hquery
    cases hquery
  | downgrade => exact h
  | ignore => exact h

variable {mu : Mutation} {w : World} {n : String} {x : Component} {wr : Write}

/-- An edit keeps to the order of an installation if what it changes may be changed. -/
theorem installOrder_of_edit (hmu : mu.Sound) (hx : w.components.find? n = some x)
    (hedit : mu.edit x = some wr)
    (hversion : (wr.onto x).spec.version ≠ x.spec.version →
      c.spec.version = "" ∧ Relisted c (wr.onto x).spec.version earlier)
    (hinstalled : ∀ y, wr = .status y → y.lifecycle = .installed → Deployed earlier)
    (hinstalledVersion : (wr.onto x).installedVersion ≠ x.installedVersion →
      Persisted c.name .installed earlier ∧ ∀ kind, Succeeded (.listWorkloads kind
        (c.metadata.namespace.getD config.namespace) (Workload.selectorOf c.name)) earlier) :
    InstallOrder config c earlier ⟨w, wr.call⟩ where
  order spec detached hcall := by cases wr <;> cases hcall
  version v hv := by
    obtain ⟨rfl, hne⟩ := rewrites_of_edit hmu hx hedit hv
    exact hversion hne.symm
  installed y hcall hy := by
    cases wr with
    | object z => cases hcall
    | status z =>
      cases hcall
      exact hinstalled y rfl hy
  installedVersion v hv := by
    obtain ⟨rfl, hne⟩ := rewrites_of_edit hmu hx hedit hv
    exact hinstalledVersion hne.symm

theorem upgradeOrder_of_edit (hmu : mu.Sound) (hx : w.components.find? n = some x)
    (hedit : mu.edit x = some wr)
    (hinstalled : ∀ y, wr = .status y → y.lifecycle = .installed → Deployed earlier)
    (hinstalledVersion : (wr.onto x).installedVersion ≠ x.installedVersion → Deployed earlier) :
    UpgradeOrder c earlier ⟨w, wr.call⟩ where
  order spec detached hcall := by cases wr <;> cases hcall
  installed y hcall hy := by
    cases wr with
    | object z => cases hcall
    | status z =>
      cases hcall
      exact hinstalled y rfl hy
  installedVersion v hv := by
    obtain ⟨rfl, hne⟩ := rewrites_of_edit hmu hx hedit hv
    exact hinstalledVersion hne.symm

theorem deleteOrder_of_edit (hmu : mu.Sound) (hx : w.components.find? n = some x)
    (hedit : mu.edit x = some wr)
    (hfinalizer : (wr.onto x).hasFinalizer = false → x.hasFinalizer ≠ false → Released c earlier) :
    DeleteOrder c earlier ⟨w, wr.call⟩ where
  order spec detached hcall := by cases wr <;> cases hcall
  uninstall release space hcall := by cases wr <;> cases hcall
  finalizer hv := by
    obtain ⟨hgone, hne⟩ := rewrites_of_edit hmu hx hedit hv
    exact hfinalizer hgone hne

end Steps

/-! ## Steps that are taken up again -/

section Ends

variable {α β : Type} {rule : Rule} {known : List Moment → Prop} {t : Errand α} {step : String}
  {past : List Moment} {w : World}

/-- An operation ends with something known, or with a failed step that is taken up again. -/
def Ends (known : List Moment → Prop) : Except Failure α → List Moment → World → Prop
  | .ok _, past, _ => known past
  | .error e, _, _ => e.isRequeueable = true

theorem obeys_step {f : α → Errand β}
    (h : Obeys rule (fun r past w => ∀ a, r = .ok a → Obeys rule (Ends known) (f a) past w) t past w) :
    Obeys rule (Ends known) (t.orRequeue step >>= f) past w := by
  refine obeys_bind (obeys_mapFailure (h.mono fun r past w hr => ?_))
  cases r with
  | ok a => exact hr a rfl
  | error e => rfl

theorem obeys_discarded_step {f : Unit → Errand β}
    (h : Obeys rule (fun r past w => ∀ a, r = .ok a → Obeys rule (Ends known) (f ()) past w) t past w) :
    Obeys rule (Ends known) (discard (t.orRequeue step) >>= f) past w := by
  refine obeys_bind (obeys_discard (obeys_mapFailure (h.mono fun r past w hr => ?_)))
  cases r with
  | ok a => exact hr a rfl
  | error e => rfl

theorem obeys_last_step (h : Obeys rule (fun r past _ => ∀ a, r = .ok a → known past) t past w) :
    Obeys rule (Ends known) (discard (t.orRequeue step)) past w := by
  refine obeys_discard (obeys_mapFailure (h.mono fun r past w hr => ?_))
  cases r with
  | ok a => exact hr a rfl
  | error e => rfl

end Ends

/-! ## Listing workloads -/

section Workloads

variable {rule : Rule} {past : List Moment} {w : World}

/-- Where no failure was collected, each kind of workloads could be listed. -/
theorem obeys_listKinds (hquery : ∀ past m, m.call.IsQuery → rule past m) (component space : String)
    (kinds : List WorkloadKind) :
    Obeys rule (fun r past' _ => past <+: past' ∧ ∀ ws, r = .ok (ws, []) →
      ∀ kind ∈ kinds, Succeeded (.listWorkloads kind space (Workload.selectorOf component)) past')
      (listKinds component space kinds) past w := by
  induction kinds generalizing past w with
  | nil => exact obeys_pure ⟨List.prefix_refl past, fun ws hws kind hkind => by cases hkind⟩
  | cons kind kinds ih =>
    unfold listKinds
    let listing : Call := .listWorkloads kind space (Workload.selectorOf component)
    refine obeys_bind (obeys_outcome
      (obeys_ask (c := listing) (hquery _ _ ⟨rfl, rfl⟩) fun found w' hperf => ?_))
    refine obeys_bind (ih.mono fun r past' w'' hrest => ?_)
    obtain ⟨hpast', hlisted⟩ := hrest
    have hpast : past <+: past' := (List.prefix_append _ _).trans hpast'
    rcases r with e | ⟨ws, failures⟩
    · exact ⟨hpast, fun ws hws => by cases hws⟩
    · rcases found with e | more
      · exact obeys_pure ⟨hpast, fun ws' hws' => by cases hws'⟩
      · refine obeys_pure ⟨hpast, fun ws' hws' kind' hkind' => ?_⟩
        obtain ⟨-, rfl⟩ := Prod.ext_iff.1 (Except.ok.inj hws')
        rcases List.mem_cons.1 hkind' with rfl | hkind'
        · exact (succeeded_snoc hperf).mono hpast'
        · exact hlisted ws rfl kind' hkind'

theorem failures_of_join {failures : List Failure} {u : Unit} (h : Failure.join failures = .ok u) :
    failures = [] := by
  match failures with
  | [] => rfl
  | [_] => cases h
  | _ :: _ :: _ => cases h

/-- The workloads of a component are known when all kinds of them were listed. -/
theorem obeys_findWorkloads (hquery : ∀ past m, m.call.IsQuery → rule past m) (component space : String) :
    Obeys rule (fun r past' _ => past <+: past' ∧ ∀ ws, r = .ok ws →
      ∀ kind, Succeeded (.listWorkloads kind space (Workload.selectorOf component)) past')
      (findWorkloads component space) past w := by
  unfold findWorkloads
  refine obeys_bind ((obeys_listKinds hquery component space _).mono fun r past' w' hlisted => ?_)
  obtain ⟨hpast, hlisted⟩ := hlisted
  rcases r with e | ⟨ws, failures⟩
  · exact ⟨hpast, fun ws hws => by cases hws⟩
  · refine obeys_bind (obeys_lift ?_)
    cases hjoin : Failure.join failures with
    | error e => exact ⟨hpast, fun ws hws => by cases hws⟩
    | ok u =>
      obtain rfl := failures_of_join hjoin
      exact obeys_pure ⟨hpast, fun _ _ kind => hlisted ws rfl kind (WorkloadKind.mem_all kind)⟩

end Workloads

/-! ## Installations -/

section Install

variable {config : Config} {c : Component} {past : List Moment} {w : World}

theorem installOrder_of_query {earlier : List Moment} {m : Moment} (h : m.call.IsQuery) :
    InstallOrder config c earlier m :=
  (stepOrder_of_query h : stepOrder config c .install earlier m)

/-- A status may be written before the release is made, if it is not that of an installed component. -/
theorem obeys_status_install {n : String} {missingIsDone : Bool} {f : ComponentStatus → ComponentStatus}
    (hlifecycle : ∀ st, (f st).lifecycle = .installed → Deployed past)
    (hversion : ∀ st, (f st).installedVersion ≠ st.installedVersion →
      Persisted c.name .installed past ∧ ∀ kind, Succeeded (.listWorkloads kind
        (c.metadata.namespace.getD config.namespace) (Workload.selectorOf c.name)) past) :
    Obeys (InstallOrder config c) (Changed (.ofStatus n missingIsDone f) past)
      (change (.ofStatus n missingIsDone f)) past w := by
  refine obeys_change_onward (fun _ _ _ => installOrder_of_query ⟨rfl, rfl⟩) ?_
  intro past' w x wr hpast hx hedit
  refine installOrder_of_edit Mutation.sound_ofStatus hx hedit ?_ ?_ ?_
  · cases hedit
    exact fun hne => (hne rfl).elim
  · cases hedit
    rintro y ⟨⟩ hy
    exact (hlifecycle _ hy).mono hpast
  · cases hedit
    intro hne
    obtain ⟨hinstalled, hlisted⟩ := hversion _ hne
    exact ⟨hinstalled.mono hpast, fun kind => (hlisted kind).mono hpast⟩

theorem obeys_addFinalizer_install (n : String) :
    Obeys (InstallOrder config c) (Changed (.addFinalizer n) past) (change (.addFinalizer n)) past w := by
  refine obeys_change_onward (fun _ _ _ => installOrder_of_query ⟨rfl, rfl⟩) fun past' w x wr _ hx hedit => ?_
  obtain ⟨-, rfl⟩ := Mutation.edit_addFinalizer hedit
  refine installOrder_of_edit Mutation.sound_addFinalizer hx hedit ?_ (fun y hy => by cases hy) ?_
  · exact fun hne => (hne rfl).elim
  · exact fun hne => (hne rfl).elim

/-- The version that was deployed is recorded for a component that asks for none. -/
theorem obeys_settledVersion_install (hdeployed : Deployed past) :
    Obeys (InstallOrder config c) (Ends Deployed) (settledVersion c) past w := by
  unfold settledVersion
  split
  · exact obeys_pure hdeployed
  next hempty =>
  have hempty : c.spec.version = "" := by simpa using hempty
  refine obeys_step ?_
  unfold deployedVersionOf findRelease
  refine obeys_bind (obeys_bind (obeys_ask (installOrder_of_query ⟨rfl, rfl⟩) fun a w' hperf => ?_))
  rcases a with e | rs
  · exact fun v hv => by cases hv
  refine obeys_pure ?_
  dsimp only [Leading]
  split
  · next r hr =>
    refine obeys_pure ?_
    rintro v ⟨⟩
    have hrelisted : Relisted c r.appVersion (past ++ [⟨w, .listReleases⟩]) :=
      ⟨past, _, rfl, hdeployed, _, List.mem_singleton_self _, rs, r, ⟨rfl, congrArg Prod.fst hperf⟩, hr, rfl⟩
    refine obeys_discarded_step ((obeys_change_onward ?_ ?_).mono ?_)
    · exact fun _ _ _ => installOrder_of_query ⟨rfl, rfl⟩
    · intro past' w x wr hpast hx hedit
      refine installOrder_of_edit Mutation.sound_setVersion hx hedit ?_ ?_ ?_
      · cases hedit
        exact fun _ => ⟨hempty, hrelisted.mono hpast⟩
      · cases hedit
        exact fun y hy => by cases hy
      · cases hedit
        exact fun hne => (hne rfl).elim
    · intro o past' w' hchanged y hy
      exact obeys_pure ((hdeployed.mono (List.prefix_append _ _)).mono hchanged.1)
  · exact obeys_throw fun v hv => by cases hv

/-- The health of what was installed is recorded when the status was persisted and the workloads are known. -/
theorem obeys_updateHealth_install (version : Option String) (hdeployed : Deployed past)
    (hinstalled : Persisted c.name .installed past) :
    Obeys (InstallOrder config c) (fun r past' _ => ∀ h, r = .ok h → Deployed past')
      (updateHealth c.name (c.metadata.namespace.getD config.namespace) version) past w := by
  unfold updateHealth persistHealth
  refine obeys_bind ((obeys_findWorkloads (fun _ _ => installOrder_of_query) _ _).mono ?_)
  intro r past' w' hfound
  obtain ⟨hpast, hlisted⟩ := hfound
  rcases r with e | ws
  · exact fun h hh => by cases hh
  refine obeys_bind (obeys_discard (obeys_mapFailure ((obeys_status_install ?_ ?_).mono ?_)))
  · exact fun _ _ => hdeployed.mono hpast
  · exact fun _ _ => ⟨hinstalled.mono hpast, hlisted ws rfl⟩
  · intro r past'' w'' hchanged
    rcases r with e | o
    · exact fun h hh => by cases hh
    · exact obeys_bind (obeys_count (obeys_pure fun _ _ => (hdeployed.mono hpast).mono hchanged.1))

/-- An installation takes its steps in order, and if it succeeds the release was made. -/
theorem obeys_install_order : Obeys (InstallOrder config c) (Ends Deployed) (install config c) past w := by
  unfold install
  extract_lets chart space
  refine obeys_step (obeys_ask (c := .checkDependencies chart) (installOrder_of_query ⟨rfl, rfl⟩) ?_)
  intro a w' hperf b hb
  cases hb
  have hchecked : Succeeded (.checkDependencies chart) (past ++ [⟨w, .checkDependencies chart⟩]) :=
    succeeded_snoc hperf
  generalize past ++ [⟨w, .checkDependencies chart⟩] = past at hchecked ⊢
  refine obeys_discarded_step ((obeys_status_install ?_ ?_).mono fun r past₁ w₁ hset y hy => ?_)
  · exact fun st h => by cases h
  · exact fun st hne => (hne rfl).elim
  rw [hy] at hset
  have hpersisted : Persisted c.name .installing past₁ := persisted_of_changed hset
  have hchecked := hchecked.mono hset.1
  refine obeys_discarded_step ((obeys_addFinalizer_install c.name).mono fun r past₂ w₂ hadded z hz => ?_)
  rw [hz] at hadded
  have hpersisted := hpersisted.mono hadded.1
  have hchecked := hchecked.mono hadded.1
  refine obeys_step (obeys_ask (c := .installOrUpgrade chart false) ?_ fun a w₃ hperf b hb => ?_)
  · exact {
      order := fun spec detached hcall => by
        cases hcall
        exact ⟨hchecked, hpersisted, hadded.guards⟩
      version := fun v ⟨wr, _, hcall, _⟩ => by cases wr <;> cases hcall
      installed := fun x hcall => by cases hcall
      installedVersion := fun v ⟨wr, _, hcall, _⟩ => by cases wr <;> cases hcall }
  cases hb
  have hdeployed : Deployed (past₂ ++ [⟨w₂, .installOrUpgrade chart false⟩]) :=
    ⟨chart, false, succeeded_snoc hperf⟩
  refine obeys_bind ((obeys_settledVersion_install hdeployed).mono fun r past₄ w₄ hsettled => ?_)
  rcases r with e | version
  · exact hsettled
  refine obeys_discarded_step ((obeys_status_install ?_ ?_).mono fun r past₅ w₅ hset y hy => ?_)
  · exact fun st _ => hsettled
  · exact fun st hne => (hne rfl).elim
  rw [hy] at hset
  exact obeys_last_step (obeys_updateHealth_install _ (Deployed.mono hsettled hset.1)
    (persisted_of_changed hset))

end Install

/-! ## Upgrades -/

section Upgrade

variable {config : Config} {c : Component} {past : List Moment} {w : World}

theorem upgradeOrder_of_query {earlier : List Moment} {m : Moment} (h : m.call.IsQuery) :
    UpgradeOrder c earlier m :=
  (stepOrder_of_query h : stepOrder {} c .upgrade earlier m)

theorem obeys_status_upgrade {n : String} {missingIsDone : Bool} {f : ComponentStatus → ComponentStatus}
    (hlifecycle : ∀ st, (f st).lifecycle = .installed → Deployed past)
    (hversion : ∀ st, (f st).installedVersion ≠ st.installedVersion → Deployed past) :
    Obeys (UpgradeOrder c) (Changed (.ofStatus n missingIsDone f) past)
      (change (.ofStatus n missingIsDone f)) past w := by
  refine obeys_change_onward (fun _ _ _ => upgradeOrder_of_query ⟨rfl, rfl⟩) ?_
  intro past' w x wr hpast hx hedit
  refine upgradeOrder_of_edit Mutation.sound_ofStatus hx hedit ?_ ?_
  · cases hedit
    rintro y ⟨⟩ hy
    exact (hlifecycle _ hy).mono hpast
  · cases hedit
    exact fun hne => (hversion _ hne).mono hpast

theorem obeys_upgradeSpec_order :
    Obeys (UpgradeOrder c) (Ends fun _ => True) (upgradeSpec config c) past w := by
  unfold upgradeSpec findRelease
  extract_lets chart
  split
  · exact obeys_pure trivial
  refine obeys_step (obeys_bind (obeys_ask (upgradeOrder_of_query ⟨rfl, rfl⟩) fun a w' _ => ?_))
  rcases a with e | rs
  · exact fun r hr => by cases hr
  · refine obeys_pure fun found _ => ?_
    cases found <;> exact obeys_pure trivial

/-- An upgrade takes its steps in order, and if it succeeds the release was made. -/
theorem obeys_upgrade_order : Obeys (UpgradeOrder c) (Ends Deployed) (upgrade config c) past w := by
  unfold upgrade
  refine obeys_bind (obeys_upgradeSpec_order.mono fun r past w hspec => ?_)
  rcases r with e | chart
  · exact hspec
  refine obeys_step (obeys_ask (c := .checkDependencies chart) (upgradeOrder_of_query ⟨rfl, rfl⟩) ?_)
  intro a w' hperf b hb
  cases hb
  have hchecked : Succeeded (.checkDependencies chart) (past ++ [⟨w, .checkDependencies chart⟩]) :=
    succeeded_snoc hperf
  generalize past ++ [⟨w, .checkDependencies chart⟩] = past at hchecked ⊢
  refine obeys_discarded_step ((obeys_status_upgrade ?_ ?_).mono fun r past₁ w₁ hset y hy => ?_)
  · exact fun st h => by cases h
  · exact fun st hne => (hne rfl).elim
  rw [hy] at hset
  have hpersisted : Persisted c.name .upgrading past₁ := persisted_of_changed hset
  have hchecked := hchecked.mono hset.1
  refine obeys_step (obeys_ask (c := .installOrUpgrade chart true) ?_ fun a w₂ hperf b hb => ?_)
  · exact {
      order := fun spec detached hcall => by
        cases hcall
        exact ⟨hchecked, hpersisted⟩
      installed := fun x hcall => by cases hcall
      installedVersion := fun v ⟨wr, _, hcall, _⟩ => by cases wr <;> cases hcall }
  cases hb
  have hdeployed : Deployed (past₁ ++ [⟨w₁, .installOrUpgrade chart true⟩]) :=
    ⟨chart, true, succeeded_snoc hperf⟩
  extract_lets installed
  refine obeys_last_step ((obeys_status_upgrade ?_ ?_).mono fun r past₂ w₂ hset y hy => ?_)
  · exact fun _ _ => hdeployed
  · exact fun _ _ => hdeployed
  · exact hdeployed.mono hset.1

end Upgrade

/-! ## Removals -/

section Delete

variable {c : Component} {past : List Moment} {w : World}

theorem deleteOrder_of_query {earlier : List Moment} {m : Moment} (h : m.call.IsQuery) :
    DeleteOrder c earlier m :=
  (stepOrder_of_query h : stepOrder {} c .delete earlier m)

theorem obeys_status_delete {n : String} {missingIsDone : Bool} {f : ComponentStatus → ComponentStatus} :
    Obeys (DeleteOrder c) (Changed (.ofStatus n missingIsDone f) past)
      (change (.ofStatus n missingIsDone f)) past w := by
  refine obeys_change_onward (fun _ _ _ => deleteOrder_of_query ⟨rfl, rfl⟩) ?_
  intro past' w x wr hpast hx hedit
  refine deleteOrder_of_edit Mutation.sound_ofStatus hx hedit ?_
  cases hedit
  exact fun hgone hne => (hne hgone).elim

/-- Where the release is gone the finalizer may go. -/
theorem obeys_removeFinalizer_delete {step : String} (hreleased : Released c past) :
    Obeys (DeleteOrder c) (Ends fun _ => True) (discard ((change (.removeFinalizer c.name)).orRequeue step))
      past w := by
  refine obeys_last_step ((obeys_change_onward ?_ ?_).mono fun _ _ _ _ _ _ => trivial)
  · exact fun _ _ _ => deleteOrder_of_query ⟨rfl, rfl⟩
  · intro past' w x wr hpast hx hedit
    exact deleteOrder_of_edit Mutation.sound_removeFinalizer hx hedit fun _ _ => hreleased.mono hpast

/-- A removal takes its steps in order. -/
theorem obeys_delete_order : Obeys (DeleteOrder c) (Ends fun _ => True) (delete c) past w := by
  unfold delete findRelease
  refine obeys_discarded_step (obeys_status_delete.mono fun r past₁ w₁ hset y hy => ?_)
  rw [hy] at hset
  have hpersisted : Persisted c.name .deleting past₁ := persisted_of_changed hset
  refine obeys_step (obeys_bind (obeys_ask (deleteOrder_of_query ⟨rfl, rfl⟩) fun a w₂ hperf => ?_))
  rcases a with e | rs
  · exact fun r hr => by cases hr
  refine obeys_pure fun found hfound => ?_
  have hlisted : Moment.Answered ⟨w₁, .listReleases⟩ .listReleases (.ok rs) := ⟨rfl, congrArg Prod.fst hperf⟩
  have hpersisted := hpersisted.mono (List.prefix_append past₁ [⟨w₁, .listReleases⟩])
  have hmem : ⟨w₁, .listReleases⟩ ∈ past₁ ++ [⟨w₁, .listReleases⟩] := by simp
  generalize past₁ ++ [⟨w₁, .listReleases⟩] = past₂ at hpersisted hmem ⊢
  obtain rfl : releaseOf? c rs = found := Except.ok.inj hfound
  cases hr : releaseOf? c rs with
  | none =>
    refine obeys_removeFinalizer_delete ⟨_, hmem, rs, hlisted, fun r h => ?_⟩
    rw [hr] at h
    cases h
  | some r =>
    refine obeys_step (obeys_ask (c := .uninstall r.name r.namespace) ?_ fun a w₃ hperf b hb => ?_)
    · exact {
        order := fun spec detached hcall => by cases hcall
        uninstall := fun release space hcall => hpersisted
        finalizer := fun ⟨wr, _, hcall, _⟩ => by cases wr <;> cases hcall }
    cases hb
    refine obeys_removeFinalizer_delete ⟨_, List.mem_append_left _ hmem, rs, hlisted, fun r' h => ?_⟩
    obtain rfl : r = r' := Option.some.inj (hr.symm.trans h)
    exact succeeded_snoc hperf

end Delete

/-! ## The pass -/

section Pass

variable {config : Config} {c : Component} {rule : Rule} {known : List Moment → Prop} {past : List Moment}
  {w : World}

/-- The status may be written as long as the installed version stays, and what an installed component stands
for is known. -/
def AllowsStatus (rule : Rule) (n : String) (known : List Moment → Prop) : Prop :=
  ∀ {missingIsDone : Bool} {f : ComponentStatus → ComponentStatus} {past : List Moment} {w : World},
    (∀ st, (f st).lifecycle = .installed → known past) →
    (∀ st, (f st).installedVersion = st.installedVersion) →
    Obeys rule (Changed (.ofStatus n missingIsDone f) past) (change (.ofStatus n missingIsDone f)) past w

theorem obeys_clearBackoff_order (hstatus : AllowsStatus rule c.name known) (hknown : known past) :
    Obeys rule (fun _ _ _ => True) (clearBackoff c) past w := by
  unfold clearBackoff
  split
  · exact obeys_pure trivial
  · refine obeys_discard (obeys_mapFailure ((hstatus ?_ ?_).mono fun _ _ _ _ => trivial))
    · exact fun _ _ => hknown
    · exact fun _ => rfl

/-- A step that failed falls back to a status which is not that of an installed component. -/
theorem obeys_settle_order (hstatus : AllowsStatus rule c.name known) {outcome : Except Failure Unit}
    {w' : World} (hend : Ends known outcome past w') {fallback : Lifecycle}
    (hfallback : fallback ≠ .installed) :
    Obeys rule (fun _ _ _ => True) (settle config outcome c fallback) past w := by
  unfold settle
  split
  · refine obeys_bind ((obeys_clearBackoff_order hstatus hend).mono fun r past w _ => ?_)
    cases r <;> first | trivial | exact obeys_pure trivial
  · refine obeys_bind (obeys_discard (obeys_mapFailure ((hstatus ?_ ?_).mono fun r past w _ => ?_)))
    · exact fun _ h => (hfallback h).elim
    · exact fun _ => rfl
    · cases r with
      | error e => trivial
      | ok o => exact obeys_bind (obeys_announce (obeys_bind (obeys_count (obeys_pure trivial))))
  · next e hnot =>
    cases e with
    | requeueable step source => exact (hnot step source rfl).elim
    | _ => cases hend

/-- An operation that takes its steps in order does so also within its pass. -/
theorem obeys_carryOut_order (hstatus : AllowsStatus rule c.name known) {op : Operation}
    {operation : Errand Unit} (hoperation : ∀ past w, Obeys rule (Ends known) operation past w)
    {reason : String} {fallback : Lifecycle} (hfallback : fallback ≠ .installed) :
    Obeys rule (fun _ _ _ => True) (carryOut config c op operation reason fallback) past w := by
  have hvalid : Obeys rule (fun _ _ _ => True) (validateName c) past w := by
    unfold validateName
    split
    · exact obeys_pure trivial
    · exact obeys_bind (obeys_announce (obeys_throw trivial))
  unfold carryOut
  refine obeys_bind (hvalid.mono fun r past w _ => ?_)
  cases r with
  | error e => trivial
  | ok u =>
    refine obeys_bind (obeys_announce (obeys_bind (obeys_outcome ((hoperation past _).mono ?_))))
    intro outcome past w hend
    cases outcome with
    | ok u => exact obeys_bind (obeys_announce (obeys_settle_order hstatus hend hfallback))
    | error e =>
      refine obeys_bind (obeys_count (obeys_bind (obeys_announce ?_)))
      exact obeys_settle_order hstatus hend hfallback

/-- The operation that was chosen takes its steps in order. -/
theorem obeys_dispatch_order (op : Operation) :
    Obeys (stepOrder config c op) (fun _ _ _ => True) (dispatch config c op) past w := by
  cases op with
  | install =>
    have hstatus : AllowsStatus (InstallOrder config c) c.name Deployed := fun hl hv =>
      obeys_status_install hl fun st hne => (hne (hv st)).elim
    exact obeys_carryOut_order hstatus (fun _ _ => obeys_install_order) (by decide)
  | upgrade =>
    have hstatus : AllowsStatus (UpgradeOrder c) c.name Deployed := fun hl hv =>
      obeys_status_upgrade hl fun st hne => (hne (hv st)).elim
    exact obeys_carryOut_order hstatus (fun _ _ => obeys_upgrade_order) (by decide)
  | delete =>
    have hstatus : AllowsStatus (DeleteOrder c) c.name fun _ => True := fun _ _ => obeys_status_delete
    exact obeys_carryOut_order hstatus (fun _ _ => obeys_delete_order) (by decide)
  | downgrade installed requested => exact obeys_bind (obeys_announce (obeys_throw trivial))
  | ignore => exact obeys_pure trivial

/-- The component that a pass reads, and the operation that it chooses for it. -/
def chosen? (config : Config) (name : String) (w : World) : Option (Component × Operation) :=
  match w.ask (.getComponent name) with
  | (.error _, _) => none
  | (.ok c, w) =>
    match w.run (requiredOperation c (chartSpecOf config c)).run with
    | (.finished (.ok op), _) => some (c, op)
    | _ => none

theorem chosen?_of_choice {name : String} {w₁ : World} (hread : w.ask (.getComponent name) = (.ok c, w₁))
    {op : Operation}
    (hchoice : (w₁.run (requiredOperation c (chartSpecOf config c)).run).1 = .finished (.ok op)) :
    chosen? config name w = some (c, op) := by
  simp only [chosen?, hread]
  rcases hrun : w₁.run (requiredOperation c (chartSpecOf config c)).run with ⟨ending, w₂⟩
  rw [hrun] at hchoice
  obtain rfl : ending = .finished (.ok op) := hchoice
  rfl

/-- What a pass did before a call. -/
def passOrder (config : Config) (name : String) (w : World) : Rule :=
  match chosen? config name w with
  | some (c, op) => stepOrder config c op
  | none => fun _ m => m.call.IsQuery

theorem passOrder_of_query {name : String} {earlier : List Moment} {m : Moment} (h : m.call.IsQuery) :
    passOrder config name w earlier m := by
  unfold passOrder
  cases chosen? config name w with
  | none => exact h
  | some chosen => exact stepOrder_of_query h

/-- A pass takes the steps of its operation in order. -/
theorem obeys_reconcile_order (config : Config) (name : String) (w : World) :
    Obeys (passOrder config name w) (fun _ _ _ => True) (reconcile config name) [] w := by
  unfold reconcile
  refine obeys_bind (obeys_outcome (obeys_ask (c := .getComponent name) (passOrder_of_query ⟨rfl, rfl⟩) ?_))
  intro found w₁ hread
  rcases found with e | c
  · dsimp only [Leading]
    split
    · exact obeys_pure trivial
    · exact obeys_throw trivial
  have hread : w.ask (.getComponent name) = (.ok c, w₁) := by
    rw [World.ask, hread]
  have hchoice : Obeys (passOrder config name w) (fun _ _ _ => True)
      (requiredOperation c (chartSpecOf config c)) [⟨w, .getComponent name⟩] w₁ :=
    Program.obeys_of_confined (asks_requiredOperation c _)
      (fun _ _ _ hd _ => ⟨passOrder_of_query hd, trivial⟩) (fun _ _ _ hm => hm.elim) (fun _ _ _ => id) trivial
  refine obeys_bind (hchoice.run.mono fun r past w₂ hr => ?_)
  rcases r with e | op
  · trivial
  have hchosen : chosen? config name w = some (c, op) := chosen?_of_choice hread (congrArg Prod.fst hr.2)
  have horder : passOrder config name w = stepOrder config c op := by
    simp only [passOrder, hchosen]
  rw [horder]
  exact obeys_bind (obeys_count (obeys_dispatch_order op))

end Pass

/-- Whatever faults the calls of a pass meet, each of them is made behind the steps on which it depends. -/
theorem calls_in_order {config : Config} {name : String} {w : World} {earlier later : List Moment}
    {m : Moment}
    (hrun : w.moments (reconcile config name).run = earlier ++ m :: later) :
    passOrder config name w earlier m := by
  have hcalls := (obeys_reconcile_order config name w).calls
  rw [hrun] at hcalls
  exact hcalls.at

/-- An installation whose first status is refused, for somebody else wrote to the component, and whose order fails:
the order is given under the finalizer, with the status persisted by the second attempt. -/
theorem calls_in_order_install :
    let w := { sampleWorld (sampleComponent "" .notInstalled []) [] with
      faults := [(.componentUpdateStatus, [some (.touch "dogu-op")]),
        (.chartInstall, [some (.error (.chartClient "timed out"))])] }
    ∃ earlier m later,
      w.moments (reconcile {} "dogu-op").run = earlier ++ m :: later ∧
      (∃ p ∈ earlier, p.call.isWrite = true ∧ ∃ e, p.failure? = some e ∧ e.isConflict = true) ∧
      (∃ spec, m.call = .installOrUpgrade spec false) ∧ m.failure?.isSome = true ∧
      Persisted "dogu-op" .installing earlier ∧ m.before.Guards "dogu-op" := by
  intro w
  let c := sampleComponent "" .notInstalled []
  let ms := w.moments (reconcile {} "dogu-op").run
  -- The order is the tenth call; the write that is refused is one of those before it.
  have hordered : (ms[9]?.any fun m =>
      decide (m.call = .installOrUpgrade (chartSpecOf {} c) false) && m.failure?.isSome) = true := by decide +kernel
  obtain ⟨m, hm, hcall, hfailed⟩ : ∃ m, ms[9]? = some m ∧ m.call = .installOrUpgrade (chartSpecOf {} c) false ∧
      m.failure?.isSome = true := by
    simpa [Option.any_eq_true] using hordered
  have hlost : ∃ p ∈ ms.take 9, p.call.isWrite = true ∧ ∃ e, p.failure? = some e ∧ e.isConflict = true := by
    have hany : ((ms.take 9).any fun p => p.call.isWrite && p.failure?.any Failure.isConflict) = true := by
      decide +kernel
    simpa [Option.any_eq_true] using hany
  have hrun : w.moments (reconcile {} "dogu-op").run = ms.take 9 ++ m :: ms.drop 10 := by
    obtain ⟨h, rfl⟩ := List.getElem?_eq_some_iff.1 hm
    rw [List.getElem_cons_drop, List.take_append_drop]
  have horder := calls_in_order hrun
  have hchosen : chosen? {} "dogu-op" w = some (c, .install) := by decide +kernel
  rw [passOrder, hchosen] at horder
  obtain ⟨-, hpersisted, hguards⟩ := horder.order _ _ hcall
  exact ⟨ms.take 9, m, ms.drop 10, hrun, hlost, ⟨_, hcall⟩, hfailed, hpersisted, hguards⟩

end ChartOperator
