import ChartOperator.Proofs.Lifecycle.Convergence
import ChartOperator.Proofs.Lifecycle.Refusals
import ChartOperator.Proofs.World.Smooth

set_option autoImplicit false

/-!
# What becomes of a failed operation

An operation that failed leaves a component to be tried again. In a smooth world the next pass makes it good
(`MadeGood`), from whatever state the failure left: the operation that is chosen takes all its steps anew, and
each succeeds (`Executes.achieves`).

One component is passed over. If the failed operation had deployed the release already, nothing is left to
compare, and the status is not looked at unless it is that of a failed installation (`Overlooked`).
`made_good_iff` says that this is the only exception, and that no later pass makes up for it.
-/

namespace ChartOperator

open Errand

/-! ## Operations in a smooth world -/

/-- The world is smooth, and the object is there and is not being deleted. -/
def Ready (n : String) (w : World) : Prop := w.Smooth ∧ w.Stores n fun x => x.isBeingDeleted = false

section Steps

variable {D : World → Prop} {config : Config} {c : Component} {n : String} {w : World}

theorem Ready.perform (h : Ready n w) {d : Call} (hd : d.isWrite = false) : Ready n (w.perform d).2 :=
  ⟨h.1.perform d, World.stores_of_alike (fun _ _ => rfl) (World.alike_perform w hd) h.2⟩

theorem Ready.leave (h : Ready n w) (note : Note) : Ready n (w.leave note) :=
  ⟨h.1.leave note, by cases note <;> exact h.2⟩

/-- No edit touches what a world is ready for. -/
theorem achieves_edit (e : Edit) : Achieves (Ready n) (change (e.mutation n)) fun _ => Ready n := by
  have hchange := achieves_change_stores (P := fun x => x.isBeingDeleted = false) (e.sound_mutation n)
    (fun _ _ => rfl) fun x wr hx hedit => by
      rw [Edit.onto_of_edit hedit]
      have halive := (Edit.isBeingDeleted_apply e x).trans hx
      exact ⟨halive, ComponentStore.settled_ne_none halive⟩
  rw [e.target_mutation n] at hchange
  exact hchange

theorem achieves_edit_step (e : Edit) {g : Failure → Failure} :
    Achieves (Ready n) (discard ((change (e.mutation n)).mapFailure g)) fun _ => Ready n :=
  achieves_discard (achieves_mapFailure (achieves_edit e))

/-- The release that is found is the deployed one. -/
theorem achieves_findRelease (hsmooth : ∀ w, D w → w.Smooth) (hasked : ∀ w, D w → D (w.perform .listReleases).2) :
    Achieves D (findRelease c) fun found w => D w ∧ found = releaseOf? c w.charts.releases := by
  refine achieves_bind (M := fun rs w => D w ∧ rs = w.charts.releases)
    (achieves_ask hsmooth fun w hw => ⟨w.charts.releases, rfl, hasked w hw, ?_⟩) fun rs => ?_
  · exact (World.releases_perform w rfl).symm
  · rintro w ⟨hw, rfl⟩
    exact ⟨_, w, rfl, hw, rfl⟩

/-- The version that an installation led to can be told when the release is there. -/
theorem achieves_settledVersion :
    Achieves (fun w => Ready c.name w ∧ ∃ r, releaseOf? c w.charts.releases = some r) (settledVersion c)
      fun _ => Ready c.name := by
  unfold settledVersion
  split
  · exact achieves_pure fun w hw => hw.1
  refine achieves_bind (M := fun _ => Ready c.name) (achieves_mapFailure ?_) fun version => ?_
  · refine achieves_bind (achieves_findRelease (c := c) (fun w hw => hw.1.1) fun w hw => ?_) fun found => ?_
    · obtain ⟨r, hr⟩ := hw.2
      exact ⟨hw.1.perform rfl, r, by rw [World.releases_perform w rfl]; exact hr⟩
    · rintro w ⟨⟨hw, r, hr⟩, rfl⟩
      rw [hr]
      exact ⟨_, w, rfl, hw⟩
  · exact achieves_bind (achieves_edit_step (.setVersion version)) fun _ => achieves_pure fun _ => id

theorem achieves_listKinds (component space : String) (kinds : List WorkloadKind) :
    Achieves (Ready n) (listKinds component space kinds) fun found w => Ready n w ∧ found.2 = [] := by
  induction kinds with
  | nil => exact achieves_pure fun w hw => ⟨hw, rfl⟩
  | cons kind kinds ih =>
    let call : Call := .listWorkloads kind space (Workload.selectorOf component)
    have hlisted : ∀ w, Ready n w → ∃ ws : List Workload, (w.serve call).1 = some (.ok ws) := by
      intro w hw
      refine ⟨_, congrArg some (if_neg ?_)⟩
      rw [hw.1.listable]
      nofun
    refine achieves_bind (achieves_outcome (Q := fun _ => Ready n) (achieves_ask (fun _ hw => hw.1) fun w hw => ?_))
      fun found => ?_
    · obtain ⟨ws, hws⟩ := hlisted w hw
      exact ⟨ws, hws, hw.perform rfl⟩
    · rintro w ⟨ws, rfl, hw⟩
      refine achieves_bind ih (fun rest => ?_) w hw
      rintro w ⟨hw, hrest⟩
      exact ⟨_, w, rfl, hw, hrest⟩

theorem achieves_updateHealth (space : String) (installed : Option String) :
    Achieves (Ready n) (updateHealth n space installed) fun _ => Ready n := by
  unfold updateHealth findWorkloads
  refine achieves_bind (M := fun _ => Ready n) ?_ fun ws => ?_
  · refine achieves_bind (achieves_listKinds n space _) fun ⟨found, failures⟩ => ?_
    rintro w ⟨hw, rfl⟩
    exact ⟨_, w, rfl, hw⟩
  · refine achieves_bind (achieves_edit_step (.setHealth (Workload.verdict ws) installed)) fun _ => ?_
    refine achieves_bind (achieves_count (Q := fun _ => Ready n) fun w hw => hw.leave _) fun _ => ?_
    exact achieves_pure fun _ => id

end Steps

section Operations

variable {config : Config} {c : Component} {op : Operation} {t : Errand Unit} {reason : String}
  {fallback : Lifecycle} {vs : Values} {w : World}

theorem achieves_checkDependencies (chart : ChartSpec) {n : String} {g : Failure → Failure} :
    Achieves (Ready n) ((ask (.checkDependencies chart)).mapFailure g) fun _ => Ready n :=
  achieves_mapFailure (achieves_ask (fun _ hw => hw.1) fun _ hw =>
    ⟨(), congrArg some (hw.1.willing.checkDependencies_ok chart), hw.perform rfl⟩)

/-- An order whose overlay can be read is carried out, and then the release is there. -/
theorem achieves_order {chart : ChartSpec} {detached : Bool} {g : Failure → Failure}
    (hoverlay : Values.ofOverlay chart.valuesOverlay = .ok vs) (hname : chart.releaseName = c.spec.name) :
    Achieves (Ready c.name) ((ask (.installOrUpgrade chart detached)).mapFailure g)
      fun _ w => Ready c.name w ∧ ∃ r, releaseOf? c w.charts.releases = some r := by
  refine achieves_mapFailure (achieves_ask (fun _ hw => hw.1) fun w hw => ?_)
  have hserved : (w.serve (.installOrUpgrade chart detached)).1 = some (.ok ()) := hw.1.willing.install_ok hoverlay
  refine ⟨(), hserved, hw.perform rfl, ?_⟩
  have huntroubled : Untroubled (fun _ => True) w := ⟨hw.1.free, hw.1.readable, trivial⟩
  obtain ⟨hcarries, -⟩ := (huntroubled.carries (hw.1.free.answer hserved)).deployed
  exact ⟨_, releaseOf?_of_filter (hname ▸ hcarries.only)⟩

theorem achieves_install (config : Config) (hoverlay : Values.ofOverlay c.spec.valuesOverlay = .ok vs) :
    Achieves (Ready c.name) (install config c) fun _ w => w.Smooth := by
  unfold install
  extract_lets chart space
  refine achieves_bind (achieves_checkDependencies chart) fun _ => ?_
  refine achieves_bind (achieves_edit_step (.setStatus .installing none)) fun _ => ?_
  refine achieves_bind (achieves_edit_step .addFinalizer) fun _ => ?_
  refine achieves_bind (achieves_order hoverlay rfl) fun _ => ?_
  refine achieves_bind achieves_settledVersion fun version => ?_
  refine achieves_bind (achieves_edit_step (.setStatus .installed none)) fun _ => ?_
  refine achieves_discard (achieves_mapFailure ?_)
  exact (achieves_updateHealth space (some version)).mono (fun _ => id) fun _ _ hw => hw.1

theorem achieves_upgrade (config : Config) (hoverlay : Values.ofOverlay c.spec.valuesOverlay = .ok vs) :
    Achieves (Ready c.name) (upgrade config c) fun _ w => w.Smooth := by
  have hspec : Achieves (Ready c.name) (upgradeSpec config c) fun chart w => Ready c.name w ∧
      (chart.valuesOverlay = c.spec.valuesOverlay ∧ chart.releaseName = c.spec.name) := by
    unfold upgradeSpec
    extract_lets chart
    split
    · exact achieves_pure fun w hw => ⟨hw, rfl, rfl⟩
    · refine achieves_bind (achieves_mapFailure (achieves_findRelease (fun _ hw => hw.1) fun w hw => hw.perform rfl))
        fun found => ?_
      cases found with
      | none => exact achieves_pure fun w hw => ⟨hw.1, rfl, rfl⟩
      | some r => exact achieves_pure fun w hw => ⟨hw.1, rfl, rfl⟩
  unfold upgrade
  refine achieves_bind hspec fun chart => achieves_and fun ⟨hvalues, hname⟩ => ?_
  refine achieves_bind (achieves_checkDependencies chart) fun _ => ?_
  refine achieves_bind (achieves_edit_step (.setStatus .upgrading none)) fun _ => ?_
  refine achieves_bind (achieves_order (hvalues ▸ hoverlay) hname) fun _ => ?_
  extract_lets installed
  refine (achieves_edit_step (.setStatus .installed installed)).mono (fun _ hw => hw.1) fun _ _ hw => hw.1

/-- A removal goes on if the object is gone after its first step. -/
theorem achieves_delete :
    Achieves (fun w => w.Smooth ∧ w.components.find? c.name ≠ none) (delete c) fun _ w => w.Smooth := by
  unfold delete
  refine achieves_bind (M := fun _ w => w.Smooth) ?_ fun _ => ?_
  · refine achieves_discard (achieves_mapFailure ?_)
    exact (achieves_change Mutation.sound_ofStatus).mono (fun w hw => ⟨hw.1, .inr hw.2⟩) fun _ _ => id
  refine achieves_bind (achieves_mapFailure (achieves_findRelease (fun _ => id) fun w hw => hw.perform _))
    fun found => ?_
  have hremove : Achieves World.Smooth
      (discard ((change (.removeFinalizer c.name)).orRequeue "failed to remove finalizer")) fun _ w => w.Smooth := by
    refine achieves_discard (achieves_mapFailure ?_)
    exact (achieves_change Mutation.sound_removeFinalizer).mono (fun w hw => ⟨hw, .inl rfl⟩) fun _ _ => id
  cases found with
  | none => exact hremove.mono (fun _ hw => hw.1) fun _ _ => id
  | some r =>
    refine achieves_bind (M := fun _ w => w.Smooth) (achieves_mapFailure ?_) fun _ => hremove
    exact achieves_ask (fun _ hw => hw.1) fun w hw =>
      ⟨(), congrArg some (hw.1.willing.uninstall_ok r.name r.namespace), hw.1.perform _⟩

/-- In a smooth world every operation succeeds on an object that is there, if only its overlay can be read. -/
theorem Executes.achieves (hop : Executes config c op t reason fallback)
    (hoverlay : Values.ofOverlay c.spec.valuesOverlay = .ok vs)
    (halive : op ≠ .delete → c.isBeingDeleted = false) :
    Achieves (fun w => w.Smooth ∧ w.Holds c.name (some c)) t fun _ w => w.Smooth := by
  have hstored : ∀ w : World, w.Holds c.name (some c) → ∃ x, w.components.find? c.name = some x ∧
      x.isBeingDeleted = c.isBeingDeleted := by
    intro w hheld
    obtain ⟨x, hx, halike⟩ := Option.map_eq_some_iff.1 hheld
    have hfree : ComponentStore.VersionFree Component.isBeingDeleted := fun _ _ => rfl
    exact ⟨x, hx, hfree.eq_of_alike halike⟩
  have hready : c.isBeingDeleted = false → ∀ w : World, w.Smooth ∧ w.Holds c.name (some c) → Ready c.name w := by
    rintro hc w ⟨hw, hheld⟩
    obtain ⟨x, hx, hsame⟩ := hstored w hheld
    exact ⟨hw, x, hx, hsame.trans hc⟩
  cases hop with
  | install => exact (achieves_install config hoverlay).mono (hready (halive nofun)) fun _ _ => id
  | upgrade => exact (achieves_upgrade config hoverlay).mono (hready (halive nofun)) fun _ _ => id
  | delete =>
    refine achieves_delete.mono ?_ fun _ _ => id
    rintro w ⟨hw, hheld⟩
    obtain ⟨x, hx, -⟩ := hstored w hheld
    exact ⟨hw, hx ▸ Option.some_ne_none x⟩

/-- A pass whose operation succeeds waits for the component to change. -/
theorem Executes.achieves_dispatch (hop : Executes config c op t reason fallback) (hname : c.name = c.spec.name)
    {D : World → Prop} (hleave : ∀ w note, D w → D (w.leave note))
    (ht : Achieves D t fun _ w => w.Smooth) :
    Achieves D (dispatch config c op) fun next _ => next = .onChange := by
  rw [hop.dispatch_of_named hname]
  refine achieves_bind (achieves_announce (Q := fun _ => D) fun w hw => hleave w _ hw) fun _ => ?_
  refine achieves_bind (achieves_outcome ht) fun outcome => ?_
  rintro w ⟨u, rfl, hw⟩
  refine achieves_bind (achieves_announce (D := World.Smooth) (Q := fun _ w => w.Smooth)
    fun w hw => hw.leave _) (fun _ => ?_) w hw
  refine achieves_bind (M := fun _ _ => True) ?_ fun _ => achieves_pure fun _ _ => rfl
  unfold clearBackoff
  split
  · exact achieves_pure fun _ _ => trivial
  · refine achieves_discard (achieves_mapFailure ?_)
    exact (achieves_change Mutation.sound_ofStatus).mono (fun w hw => ⟨hw, .inl rfl⟩) fun _ _ _ => trivial

end Operations

/-! ## The retry of a failed operation -/

/-- An operation on the component failed, and can be tried again: the object is named after its chart, its
overlay can be read, and if there is a release, the component asks for no older version and no other place. -/
structure Retriable (c : Component) (s : ChartStore) : Prop where
  status : c.lifecycle ∈ [Lifecycle.tryToInstall, .tryToUpgrade, .tryToDelete]
  named : c.name = c.spec.name
  overlay : ∃ vs, Values.ofOverlay c.spec.valuesOverlay = .ok vs
  version : ∀ r, releaseOf? c s.releases = some r →
    ∃ installed requested, Comparable c r installed requested ∧ requested.order installed ≠ .lt

/-- The component is passed over: its release is as asked, and neither its removal nor its status is a reason to
do anything. -/
structure Overlooked (c : Component) (s : ChartStore) : Prop where
  undecided : Undecided c
  asked : AsAsked c s

/-- The operation of the retry: none if the component is overlooked. -/
inductive Retries (c : Component) (s : ChartStore) : Operation → Prop
  | delete (hdeleted : c.isBeingDeleted = true) : Retries c s .delete
  | install (halive : c.isBeingDeleted = false) (hseen : ¬ Overlooked c s) : Retries c s .install
  | upgrade (halive : c.isBeingDeleted = false) (hseen : ¬ Overlooked c s) : Retries c s .upgrade
  | ignore (hoverlooked : Overlooked c s) : Retries c s .ignore

/-- The operation was made good: the one release of the component is what the component asks for, and its status
tells so; or, if the component is being deleted, no release is left, and the object is gone unless somebody
else keeps it. -/
def MadeGood (c : Component) (w : World) : Prop :=
  if c.isBeingDeleted then
    (∀ r ∈ w.charts.releases, r.name ≠ c.spec.name) ∧
      ∀ x, w.components.find? c.name = some x → KeptByOthers x
  else
    ∃ x r, w.components.find? c.name = some x ∧ x.spec = { c.spec with version := x.spec.version } ∧
      Fulfilled x r w.charts

/-- The world behind so many passes over a component. -/
def passes (config : Config) (name : String) : Nat → World → World
  | 0, w => w
  | k + 1, w => passes config name k (w.run (reconcile config name).run).2

section Retry

variable {config : Config} {name : String} {c : Component} {op : Operation} {t : Errand Unit} {reason : String}
  {fallback : Lifecycle} {r : Release} {chart : ChartSpec} {calls : List Call}
  {res : Except Failure Operation} {s : ChartStore} {w w' : World}

theorem Retriable.idle (h : Retriable c s) : c.lifecycle.isInFlight = false := by
  have hall : ∀ l ∈ [Lifecycle.tryToInstall, .tryToUpgrade, .tryToDelete], l.isInFlight = false := by decide
  exact hall _ h.status

theorem Retriable.not_installed (h : Retriable c s) : c.lifecycle ≠ .installed := by
  have hall : ∀ l ∈ [Lifecycle.tryToInstall, .tryToUpgrade, .tryToDelete], l ≠ .installed := by decide
  exact hall _ h.status

/-- The comparison of the retry, by what the stores answer: it never fails, and it asks for an upgrade unless the
component is overlooked. -/
theorem upgrade_of_compares (h : Retriable c w.charts) (hopen : Undecided c) (hseen : ¬ Overlooked c w.charts)
    (hfound : releaseOf? c w.charts.releases = some r)
    (hchart : chart.valuesOverlay = c.spec.valuesOverlay)
    (hcompares : Compares w.Served c chart r calls res) : res = .ok .upgrade := by
  obtain ⟨installed, requested, hread, hnewer⟩ := h.version r hfound
  obtain ⟨vs, hoverlay⟩ := h.overlay
  have hdesired : ∀ {x}, w.Served (.specValues chart) x → x = .ok vs := fun hserved =>
    World.served_unique (.specValues chart) _ (.ok vs) hserved (congrArg some (hchart ▸ hoverlay))
  cases hcompares with
  | installedUnreadable hunreadable => cases hunreadable.symm.trans hread.installed
  | requestedUnreadable _ hgiven hunreadable =>
    rw [← requestedVersion_of_given (r := r) hgiven] at hunreadable
    cases hunreadable.symm.trans hread.requested
  | elsewhere _ _ hwanted hgiven hother => exact ((hread.space _ hwanted).elim hgiven hother).elim
  | older hread' horder =>
    cases hread'.installed.symm.trans hread.installed
    cases hread'.requested.symm.trans hread.requested
    exact (hnewer horder).elim
  | deployedUnread _ _ hunread => cases hunread
  | desiredUnread _ _ _ hunread => cases hdesired hunread
  | newer | changed => rfl
  | unchanged hread' horder hdeployed hserved hsame =>
    cases hdeployed
    cases hdesired hserved
    exact (hseen ⟨hopen, r, _, _, vs, hfound, hread', horder, hoverlay, hsame⟩).elim

/-- The choice of the retry, by what the stores answer. -/
theorem retries_of_decides (h : Retriable c w.charts) (hchart : chart.valuesOverlay = c.spec.valuesOverlay)
    (hdecides : Decides w.Served c chart calls res) : ∃ op, res = .ok op ∧ Retries c w.charts op := by
  by_cases hoverlooked : Overlooked c w.charts
  · exact ⟨_, ignored_of_asAsked hoverlooked.undecided hoverlooked.asked hchart hdecides, .ignore hoverlooked⟩
  cases hdecides with
  | inFlight hflight => cases h.idle.symm.trans hflight
  | deleted _ hdeleted => exact ⟨_, rfl, .delete hdeleted⟩
  | again halive => exact ⟨_, rfl, .install halive hoverlooked⟩
  | unlisted _ hlisted => cases hlisted
  | absent hopen => exact ⟨_, rfl, .install hopen.alive hoverlooked⟩
  | found hopen hlisted hfirst hcompares =>
    cases hlisted
    have hupgrade := upgrade_of_compares h hopen hoverlooked (releaseOf?_eq_some_iff.2 hfirst) hchart hcompares
    exact ⟨_, hupgrade, .upgrade hopen.alive hoverlooked⟩

/-- In a smooth world a pass over the component chooses the operation of its retry. -/
theorem chosen_of_retriable (config : Config) (hw : w.Smooth) (hstored : w.components.find? name = some c)
    (h : Retriable c w.charts) : ∃ op, chosen? config name w = some (c, op) ∧ Retries c w.charts op := by
  have hread := hw.free.read name
  rw [ComponentStore.get_of_find? hw.readable hstored] at hread
  have hsmooth := hw.perform (.getComponent name)
  obtain ⟨-, -, -, hserved, -⟩ := World.perform_of_faultFree hw.free (.getComponent name)
  have hcharts : (w.perform (.getComponent name)).2.charts = w.charts := hserved
  generalize (w.perform (.getComponent name)).2 = w₁ at hread hcharts hsmooth
  rw [← hcharts] at h ⊢
  obtain ⟨calls, res, hrun, hdecides⟩ := decides_of_faultFree hsmooth.free c (chartSpecOf config c)
  obtain ⟨op, rfl, hop⟩ := retries_of_decides h rfl hdecides
  exact ⟨op, chosen?_of_choice hread hrun, hop⟩

theorem stable_smooth : Stable World.Smooth where
  call _ hw := hw.perform _
  note n hw := hw.leave n

/-- A pass over an overlooked component does nothing: neither components nor releases change. -/
theorem run_of_overlooked (config : Config) (hw : w.Smooth) (hstored : w.components.find? name = some c)
    (h : Retriable c w.charts) (hoverlooked : Overlooked c w.charts) :
    ∃ w', w.run (reconcile config name).run = (.finished (.ok .onChange), w') ∧ w'.Smooth ∧
      w'.components = w.components ∧ w'.charts = w.charts := by
  obtain ⟨op, hchosen, hop⟩ := chosen_of_retriable config hw hstored h
  cases hop with
  | delete hdeleted => cases hoverlooked.undecided.alive.symm.trans hdeleted
  | install _ hseen => exact (hseen hoverlooked).elim
  | upgrade _ hseen => exact (hseen hoverlooked).elim
  | ignore =>
    have hrun := (run_reconcile hchosen).1
    have hleaves : Leaves config name w (.finished (.ok .onChange)) [] [.reconciliations Operation.ignore.text] :=
      leaves_of_chosen hchosen rfl rfl
    have hunchanged := hleaves.unchanged
    rw [hw.free.foundComponents_eq, hrun] at hunchanged
    exact ⟨_, hrun, stable_smooth.choiceEnd hchosen hw, hunchanged.components, hunchanged.charts⟩

/-- However many passes are made over it, an overlooked component stays as it is. -/
theorem components_passes_of_overlooked (config : Config) (k : Nat) (hw : w.Smooth)
    (hstored : w.components.find? name = some c) (h : Retriable c w.charts) (hoverlooked : Overlooked c w.charts) :
    (passes config name k w).components = w.components := by
  induction k generalizing w with
  | zero => rfl
  | succ k ih =>
    obtain ⟨w', hrun, hw', hcomponents, hcharts⟩ := run_of_overlooked config hw hstored h hoverlooked
    have hrest := ih hw' (hcomponents ▸ hstored) (hcharts ▸ h) (hcharts ▸ hoverlooked)
    rw [passes, hrun, hrest, hcomponents]

/-- A retry that carries out its operation succeeds. -/
theorem succeeds_of_retriable (hw : w.Smooth) (h : Retriable c w.charts)
    (hchosen : chosen? config name w = some (c, op)) (hop : Executes config c op t reason fallback)
    (halive : op ≠ .delete → c.isBeingDeleted = false) : ∃ w', Succeeds config name w c op w' := by
  obtain ⟨vs, hoverlay⟩ := h.overlay
  have hheld : (choiceEnd config name w c op).Holds c.name (some c) := by
    rw [name_of_chosen hchosen]
    exact (choiceEnd_frame hchosen).2.1
  have hdispatch := hop.achieves_dispatch h.named (fun w note hw => ⟨hw.1.leave note, hw.2.leave note⟩)
    (hop.achieves hoverlay halive)
  obtain ⟨_, w', hrun, rfl⟩ := hdispatch _ ⟨stable_smooth.choiceEnd hchosen hw, hheld⟩
  exact ⟨w', hw.free, h.named, hchosen, (run_reconcile hchosen).1.trans hrun⟩

/-- A component that is not being deleted is made good by an operation that fulfils it. -/
theorem madeGood_of_fulfilled {x : Component} (halive : c.isBeingDeleted = false)
    (hx : w.components.find? c.name = some x) (hspec : x.spec = { c.spec with version := x.spec.version })
    (hw : Untroubled (Fulfilled x r) w) : MadeGood c w := by
  rw [MadeGood, if_neg (Bool.eq_false_iff.1 halive)]
  exact ⟨x, r, hx, hspec, hw.deployed.of_deployed⟩

/-- In a smooth world the next pass over a component whose operation failed waits for the component to change, and
it makes the operation good unless the component is overlooked. An overlooked component stays as it is, however
many passes are made over it. -/
theorem made_good_iff (config : Config) (hw : w.Smooth) (hstored : w.components.find? name = some c)
    (h : Retriable c w.charts) :
    ∃ w', w.run (reconcile config name).run = (.finished (.ok .onChange), w') ∧
      (MadeGood c w' ↔ ¬ Overlooked c w.charts) ∧
      (Overlooked c w.charts → ∀ k, (passes config name k w).components = w.components) := by
  obtain rfl : c.name = name := ComponentStore.name_of_find? hstored
  obtain ⟨op, hchosen, hop⟩ := chosen_of_retriable config hw hstored h
  have hkept : Overlooked c w.charts → ∀ k, (passes config c.name k w).components = w.components :=
    fun hoverlooked k => components_passes_of_overlooked config k hw hstored h hoverlooked
  cases hop with
  | ignore hoverlooked =>
    obtain ⟨w', hrun, -, hcomponents, -⟩ := run_of_overlooked config hw hstored h hoverlooked
    refine ⟨w', hrun, ⟨fun hgood => ?_, fun hseen => (hseen hoverlooked).elim⟩, hkept⟩
    -- What is stored is still the component with the status of the failure.
    rw [MadeGood, if_neg (Bool.eq_false_iff.1 hoverlooked.undecided.alive), hcomponents] at hgood
    obtain ⟨x, r, hx, -, hfulfilled⟩ := hgood
    obtain rfl : c = x := Option.some.inj (hstored.symm.trans hx)
    exact (h.not_installed hfulfilled.status).elim
  | delete hdeleted =>
    obtain ⟨w', hsucceeds⟩ := succeeds_of_retriable hw h hchosen .delete nofun
    have hseen : ¬ Overlooked c w.charts := fun hover => by cases hover.undecided.alive.symm.trans hdeleted
    obtain ⟨hremoved, hothers⟩ := removed_of_delete hsucceeds
    refine ⟨w', hsucceeds.run, iff_of_true ?_ hseen, hkept⟩
    rw [MadeGood, if_pos hdeleted]
    exact ⟨hremoved.deployed, fun x hx => (hothers x hx).2⟩
  | install halive hseen =>
    obtain ⟨w', hsucceeds⟩ := succeeds_of_retriable hw h hchosen .install fun _ => halive
    obtain ⟨x, r, hx, -, hspec, hw', -⟩ := fulfilled_of_install hsucceeds
    exact ⟨w', hsucceeds.run, iff_of_true (madeGood_of_fulfilled halive hx hspec hw') hseen, hkept⟩
  | upgrade halive hseen =>
    obtain ⟨w', hsucceeds⟩ := succeeds_of_retriable hw h hchosen .upgrade fun _ => halive
    obtain ⟨x, r, hx, -, hspec, hw', -⟩ := fulfilled_of_upgrade hsucceeds
    exact ⟨w', hsucceeds.run, iff_of_true (madeGood_of_fulfilled halive hx hspec hw') hseen, hkept⟩

/-- An upgrade that failed when it recorded its success is overlooked from then on, and the status to which it
fell back remains. -/
theorem not_made_good_upgrade :
    let asked := sampleComponent "0.2.0" .installed []
    let broken := { sampleWorld asked [sampleRelease "ecosystem" "0.1.0"] with
      faults := [(.componentUpdateStatus, [none, some (.error (.internal "unavailable"))])] }
    let w := (broken.run (reconcile {} "dogu-op").run).2
    ∃ c w', w.Smooth ∧ w.components.find? "dogu-op" = some c ∧ Retriable c w.charts ∧
      c.lifecycle = .tryToUpgrade ∧ Overlooked c w.charts ∧
      w.run (reconcile {} "dogu-op").run = (.finished (.ok .onChange), w') ∧ ¬ MadeGood c w' ∧
      ∀ k, (passes {} "dogu-op" k w).components = w.components := by
  intro asked broken w
  let failed := (sampleComponent "0.2.0" .tryToUpgrade []).mapStatus fun s => { s with backoffNanos := 60000000000 }
  let c := ComponentStore.withVersion failed "3"
  let r : Release := ⟨"dogu-op", "ecosystem", "oci://registry.cloudogu.com/k8s/dogu-op", "0.2.0", "0.2.0"⟩
  have hsmooth : w.Smooth := {
    free := World.faultFree_of_all (by decide +kernel)
    readable := by decide +kernel
    writable := by decide +kernel
    listable := by decide +kernel
    willing := ⟨by decide +kernel, by decide +kernel, by decide +kernel, by decide +kernel⟩ }
  have hstored : w.components.find? "dogu-op" = some c := by decide +kernel
  have hfound : releaseOf? c w.charts.releases = some r := by decide +kernel
  have hsame : Values.same (w.charts.valuesOf r.name) [] = true := by decide +kernel
  -- The rest is not about how the world came to be.
  clear_value w
  have hversion : readVersion "0.2.0" = .ok ⟨0, 2, 0, [], []⟩ := rfl
  have hrequested : requestedVersion c r = "0.2.0" := by decide
  have hread : Comparable c r ⟨0, 2, 0, [], []⟩ ⟨0, 2, 0, [], []⟩ :=
    ⟨hversion, by rw [hrequested, hversion], nofun⟩
  have hretriable : Retriable c w.charts := by
    refine ⟨by decide, rfl, ⟨[], rfl⟩, fun r' hr' => ?_⟩
    obtain rfl : r = r' := Option.some.inj (hfound.symm.trans hr')
    exact ⟨_, _, hread, by decide⟩
  have hoverlooked : Overlooked c w.charts :=
    ⟨⟨rfl, rfl, by decide⟩, r, _, _, [], hfound, hread, by decide, rfl, hsame⟩
  obtain ⟨w', hrun, hgood, hkept⟩ := made_good_iff {} hsmooth hstored hretriable
  exact ⟨c, w', hsmooth, hstored, hretriable, rfl, hoverlooked, hrun,
    fun h => hgood.1 h hoverlooked, hkept hoverlooked⟩

end Retry

end ChartOperator
