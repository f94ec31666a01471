import ChartOperator.Proofs.Lifecycle.Choice
import ChartOperator.Proofs.Lifecycle.StepOrder
import ChartOperator.Proofs.Lifecycle.Successes

set_option autoImplicit false

/-!
# What becomes of an operation

A pass that carries out an operation ends in one of three ways, whatever faults its calls meet: the operation
succeeded and the backoff is cleared, it failed and the status to fall back to is persisted, or one of these
could not be persisted. `Concluded` says of each what is returned, stored, told and counted, and
`outcome_of_operation` that there is no other.

An object that is being deleted and has no finalizers is removed by the write of the fallback.
-/

namespace ChartOperator

open ComponentStore (VersionFree settled)
open Errand

/-! ## Operations tell nothing -/

section Discreet

theorem discreet_findRelease (c : Component) : Discreet (findRelease c) :=
  discreet_bind (discreet_ask _) fun _ => discreet_pure _

theorem discreet_persistStatus (c : Component) (status : Lifecycle) (installed : Option String) (step : String) :
    Discreet (discard ((persistStatus c status installed).orRequeue step)) :=
  discreet_discard (discreet_mapFailure (discreet_change _))

theorem discreet_settledVersion (c : Component) : Discreet (settledVersion c) := by
  unfold settledVersion
  split
  · exact discreet_pure _
  refine discreet_bind (discreet_mapFailure (discreet_bind (discreet_findRelease c) fun found => ?_)) ?_
  · cases found with
    | none => exact discreet_throw _
    | some r => exact discreet_pure _
  · intro version
    exact discreet_bind (discreet_discard (discreet_mapFailure (discreet_change _))) fun _ => discreet_pure _

theorem discreet_listKinds (component space : String) (kinds : List WorkloadKind) :
    Discreet (listKinds component space kinds) := by
  induction kinds with
  | nil => exact discreet_pure _
  | cons kind kinds ih =>
    refine discreet_bind (discreet_outcome (discreet_ask _)) fun found => ?_
    refine discreet_bind ih fun ⟨ws, failures⟩ => ?_
    cases found <;> exact discreet_pure _

theorem discreet_updateHealth (n space : String) (installed : Option String) :
    Discreet (updateHealth n space installed) := by
  unfold updateHealth findWorkloads persistHealth
  refine discreet_bind (discreet_bind (discreet_listKinds n space _) fun ⟨ws, failures⟩ => ?_) fun ws => ?_
  · exact discreet_bind (discreet_lift (Failure.join failures)) fun _ => discreet_pure _
  · refine discreet_bind (discreet_discard (discreet_mapFailure (discreet_change _))) fun _ => ?_
    exact discreet_bind (discreet_verdict _) fun _ => discreet_pure _

theorem discreet_install (config : Config) (c : Component) : Discreet (install config c) := by
  unfold install
  extract_lets chart space
  refine discreet_bind (discreet_mapFailure (discreet_ask _)) fun _ => ?_
  refine discreet_bind (discreet_persistStatus c _ _ _) fun _ => ?_
  refine discreet_bind (discreet_discard (discreet_mapFailure (discreet_change _))) fun _ => ?_
  refine discreet_bind (discreet_mapFailure (discreet_ask _)) fun _ => ?_
  refine discreet_bind (discreet_settledVersion c) fun version => ?_
  refine discreet_bind (discreet_persistStatus c _ _ _) fun _ => ?_
  exact discreet_discard (discreet_mapFailure (discreet_updateHealth _ _ _))

theorem discreet_upgrade (config : Config) (c : Component) : Discreet (upgrade config c) := by
  unfold upgrade upgradeSpec
  extract_lets chart
  refine discreet_bind ?_ fun chart => ?_
  · split
    · exact discreet_pure _
    · refine discreet_bind (discreet_mapFailure (discreet_findRelease c)) fun found => ?_
      cases found <;> exact discreet_pure _
  refine discreet_bind (discreet_mapFailure (discreet_ask _)) fun _ => ?_
  refine discreet_bind (discreet_persistStatus c _ _ _) fun _ => ?_
  refine discreet_bind (discreet_mapFailure (discreet_ask _)) fun _ => ?_
  exact discreet_persistStatus c _ _ _

theorem discreet_delete (c : Component) : Discreet (delete c) := by
  unfold delete
  refine discreet_bind (discreet_persistStatus c _ _ _) fun _ => ?_
  refine discreet_bind (discreet_mapFailure (discreet_findRelease c)) fun found => ?_
  have hremove : Discreet (discard ((change (.removeFinalizer c.name)).orRequeue "failed to remove finalizer")) :=
    discreet_discard (discreet_mapFailure (discreet_change _))
  cases found with
  | none => exact hremove
  | some r => exact discreet_bind (discreet_mapFailure (discreet_ask _)) fun _ => hremove

end Discreet

/-! ## The operation of a pass -/

/-- An operation on a component is this errand. Its events have this reason, and if it fails the component
falls back to this status. -/
inductive Executes (config : Config) (c : Component) : Operation → Errand Unit → String → Lifecycle → Prop
  | install : Executes config c .install (install config c) installReason .tryToInstall
  | upgrade : Executes config c .upgrade (upgrade config c) upgradeReason .tryToUpgrade
  | delete : Executes config c .delete (delete c) deleteReason .tryToDelete

/-- The edits of an operation that succeeds. -/
inductive EditsOf (c : Component) : Operation → List Edit → Prop
  | install (version : String) (verdict : Health) : EditsOf c .install (installEdits c version verdict)
  | upgrade (chart : ChartSpec) : EditsOf c .upgrade (upgradeEdits chart)
  | delete : EditsOf c .delete deleteEdits

/-- The edit leaves the backoff alone. -/
def Edit.SparesBackoff : Edit → Prop
  | fallBack _ _ | clearBackoff => False
  | _ => True

theorem versionFree_backoff : VersionFree Component.backoff := fun _ _ => rfl

theorem Edit.backoff_apply {e : Edit} (h : e.SparesBackoff) (x : Component) : (e.apply x).backoff = x.backoff := by
  cases e with
  | addFinalizer =>
    rw [apply, Component.addFinalizer]
    split <;> rfl
  | fallBack => exact h.elim
  | clearBackoff => exact h.elim
  | _ => rfl

section Operations

variable {config : Config} {c : Component} {op : Operation} {t : Errand Unit} {reason : String}
  {fallback : Lifecycle} {o : Option Component} {past : List Moment} {w : World}

theorem EditsOf.sparesBackoff {es : List Edit} (h : EditsOf c op es) : ∀ e ∈ es, e.SparesBackoff := by
  cases h with
  | install version verdict =>
    unfold installEdits
    split <;> simp [Edit.SparesBackoff]
  | upgrade chart => simp [upgradeEdits, Edit.SparesBackoff]
  | delete => simp [deleteEdits, Edit.SparesBackoff]

theorem Executes.dispatch_eq (h : Executes config c op t reason fallback) :
    dispatch config c op = carryOut config c op t reason fallback := by
  cases h <;> rfl

theorem Executes.dispatch_of_named (h : Executes config c op t reason fallback) (hname : c.name = c.spec.name) :
    dispatch config c op = (do
      announce c .normal reason ("Starting " ++ op.text ++ "...")
      let outcome ← t.outcome
      conclude config c op reason fallback outcome) :=
  h.dispatch_eq.trans (carryOut_of_named config op t reason fallback hname)

theorem Executes.discreet (h : Executes config c op t reason fallback) : Discreet t := by
  cases h with
  | install => exact discreet_install config c
  | upgrade => exact discreet_upgrade config c
  | delete => exact discreet_delete c

/-- An operation that fails is taken up again. -/
theorem Executes.ends (h : Executes config c op t reason fallback) :
    Obeys (fun _ _ => True) (fun r _ _ => ∀ e, r = .error e → e.isRequeueable = true) t past w := by
  have hends : ∀ {rule : Rule} {known : List Moment → Prop}, Obeys rule (Ends known) t past w →
      Obeys (fun _ _ => True) (fun r _ _ => ∀ e, r = .error e → e.isRequeueable = true) t past w := by
    intro rule known hobeys
    refine ⟨along_true _ _, fun r w' hrun e he => ?_⟩
    have hend := hobeys.ending r w' hrun
    rw [he] at hend
    exact hend
  cases h with
  | install => exact hends obeys_install_order
  | upgrade => exact hends obeys_upgrade_order
  | delete => exact hends obeys_delete_order

/-- An operation that succeeds leaves what its edits make of the object. -/
theorem Executes.yields (h : Executes config c op t reason fallback) (hheld : w.Holds c.name o) :
    Yields (fun _ w' => ∃ es, EditsOf c op es ∧ w'.Holds c.name (Edit.leavesAll es o)) t past w := by
  have hs : Scene c.name o (fun _ => True) w := ⟨hheld, trivial⟩
  cases h with
  | install =>
    refine (yields_install stable_true stable_true (fun _ _ _ _ _ => trivial) hs).mono ?_
    intro r _ w' hleft htrue a ha
    obtain ⟨version, verdict, -, hheld', -⟩ := hleft htrue a ha
    exact ⟨_, .install version verdict, hheld'⟩
  | upgrade =>
    refine (yields_upgrade stable_true (fun _ => stable_true)
      (fun _ _ _ _ _ _ _ => trivial) hs).mono ?_
    intro r _ w' hleft htrue a ha
    obtain ⟨chart, -, hheld', -⟩ := hleft htrue a ha
    exact ⟨_, .upgrade chart, hheld'⟩
  | delete =>
    refine (yields_delete stable_true stable_true (fun _ _ _ _ _ => trivial)
      (fun _ _ _ _ _ _ _ _ _ => trivial) hs).mono ?_
    intro r _ w' hleft htrue a ha
    exact ⟨_, .delete, (hleft htrue a ha).1⟩

end Operations

/-! ## Settling an outcome -/

/-- What was to be persisted was not: the last call on the component failed for good, and every object is as
it was. -/
def Unsettled (n : String) (w : World) (past : List Moment) (w' : World) (e : Failure) : Prop :=
  ∃ context f, e = .context context f ∧ f.isConflict = false ∧
    (∃ earlier m, past = earlier ++ [m] ∧ m.Fails n f) ∧ w.components.Alike w'.components

/-- The edit was made of the object that was stored, and it was made last. -/
def Persists (n : String) (e : Edit) (past : List Moment) (w' : World) : Prop :=
  ∃ m ∈ past, ∃ x y, m.before.components.find? n = some x ∧ m.Accepted (.status (e.apply x)) y ∧
    w'.components.find? n = settled (e.apply x)

/-- The event that tells of a fallback. -/
def requeueEvent (c : Component) (fallback : Lifecycle) (backoff : Duration) : Event :=
  ⟨c, .normal, requeueReason,
    "Falling back to component status " ++ fallback.text ++ " and retrying in " ++ backoff.text⟩

section Settling

variable {config : Config} {c : Component} {fallback : Lifecycle} {m : Mutation} {o : Option Component}
  {past : List Moment} {w : World}

/-- A change that is made in a context succeeds, or leaves everything unsettled. -/
theorem obeys_persist (hm : m.Sound) (context : String) :
    Obeys (fun _ _ => True)
      (fun r past' w' => World.Noted w w' [] [] ∧ ∀ e, r = .error e → Unsettled m.target w past' w' e)
      (discard ((change m).inContext context)) past w := by
  have hdecided : Obeys (fun _ _ => True) (fun r _ w' => World.Noted w w' [] [] ∧ isLostRace r = false)
      (change m) past w := by
    refine ⟨along_true _ _, fun r w' hrun => ?_⟩
    obtain ⟨hr, rfl⟩ := Prod.ext_iff.1 hrun
    cases hr
    exact ⟨w.noted_change m, World.isLostRace_change hm w⟩
  refine obeys_discard (obeys_mapFailure (((obeys_change_error hm).and hdecided).mono ?_))
  rintro r past' w' ⟨herror, hnoted, hlost⟩
  refine ⟨hnoted, fun e he => ?_⟩
  cases r with
  | ok y => cases he
  | error f =>
    cases he
    obtain ⟨halike, hlast⟩ := herror f rfl
    exact ⟨context, f, rfl, hlost, hlast, halike⟩

/-- The edits that clear a backoff. -/
def clearEdits (c : Component) : List Edit := if c.backoff.isZero then [] else [.clearBackoff]

/-- Behind them there is no backoff, if it was that of the component. -/
theorem backoff_of_cleared {x : Component} (ho : ∀ y, o = some y → y.backoff = c.backoff)
    (h : Edit.leavesAll (clearEdits c) o = some x) : x.backoff = ⟨0⟩ := by
  unfold clearEdits at h
  split at h
  · next hzero =>
    rw [ho x h]
    exact congrArg Duration.mk ((Duration.isZero_iff _).1 hzero)
  · obtain ⟨y, -, ⟨hplace, -⟩ | ⟨-, rfl⟩⟩ := Edit.of_leaves (e := .clearBackoff) h
    · exact hplace.elim
    · rfl

/-- Behind a success the backoff is cleared, unless that could not be persisted. -/
theorem assures_settle_ok :
    Assures
      (fun r past' w' => World.Noted w w' [] [] ∧
        match r with
        | .ok next => next = .onChange ∧
            w'.Holds c.name (Edit.leavesAll (clearEdits c) (w.components.find? c.name))
        | .error e => Unsettled c.name w past' w' e)
      (settle config (.ok ()) c fallback) past w := by
  change Obeys _ _ (clearBackoff c >>= fun _ => pure NextPass.onChange) past w
  refine obeys_bind ?_
  unfold clearBackoff clearEdits
  split
  · exact obeys_pure (obeys_pure fun _ => ⟨.refl w, rfl, w.holds_self c.name⟩)
  · have hedit : ∀ context, Yields
        (fun _ w' => Scene c.name (Edit.clearBackoff.leaves (w.components.find? c.name)) (fun _ => True) w')
        (discard ((change (.clearBackoff c.name)).inContext context)) past w := fun _ =>
      yields_discard (yields_mapFailure (yields_edit stable_true .clearBackoff ⟨w.holds_self c.name, trivial⟩))
    refine ((obeys_persist Mutation.sound_ofStatus _).and (hedit _)).mono ?_
    rintro (e | u) past' w' ⟨⟨hnoted, hfailed⟩, hcleared⟩
    · exact fun _ => ⟨hnoted, hfailed e rfl⟩
    · exact obeys_pure fun htrue => ⟨hnoted, rfl, (hcleared htrue u rfl).1⟩

/-- Behind a failed step the component falls back, unless that could not be persisted. -/
theorem obeys_settle_error {e : Failure} (he : e.isRequeueable = true) :
    Obeys (fun _ _ => True)
      (fun r past' w' =>
        match r with
        | .ok next => next = .after config.backoff ∧
            Persists c.name (.fallBack fallback config.backoff) past' w' ∧
            World.Noted w w' [requeueEvent c fallback config.backoff] [.requeues]
        | .error e => Unsettled c.name w past' w' e ∧ World.Noted w w' [] [])
      (settle config (.error e) c fallback) past w := by
  cases e with
  | requeueable step source =>
    have hchanged : Obeys (fun _ _ => True) (Changed (.fallBack c.name fallback config.backoff) past)
        (change (.fallBack c.name fallback config.backoff)) past w :=
      obeys_change_onward (fun _ _ _ => trivial) fun _ _ _ _ _ _ _ => trivial
    have hstored : Obeys (fun _ _ => True)
        (fun r past' w' => ∀ u, r = .ok u → Persists c.name (.fallBack fallback config.backoff) past' w')
        (discard ((change (.fallBack c.name fallback config.backoff)).inContext
          ("failed to update requeue status of component " ++ c.name))) past w := by
      refine obeys_discard (obeys_mapFailure (hchanged.mono fun r past' w' h u hu => ?_))
      rcases r with e | _ | y
      · cases hu
      · rcases h.2 with h | ⟨x, -, hnone⟩
        · cases h
        · cases hnone
      · obtain ⟨-, p, hp, x, wr, hx, hedit, ⟨hcall, hres⟩, rfl⟩ := h
        have hfind := World.find?_store Mutation.sound_ofStatus hx hedit hres
        cases hedit
        refine ⟨p, hp, x, y, hx, ⟨hcall, hres⟩, ?_⟩
        rw [Moment.after, hcall, ← World.store_snd]
        exact hfind
    refine obeys_bind (((obeys_persist Mutation.sound_ofStatus _).and hstored).mono ?_)
    rintro (e | u) past' w' ⟨⟨hnoted, hfailed⟩, hpersists⟩
    · exact ⟨hfailed e rfl, hnoted⟩
    · obtain ⟨p, hp, x, y, hx, haccepted, hfind⟩ := hpersists u rfl
      refine obeys_bind (obeys_announce (obeys_bind (obeys_count (obeys_pure ⟨rfl, ?_, ?_⟩))))
      · exact ⟨p, hp, x, y, hx, haccepted, hfind⟩
      · exact (hnoted.trans (World.noted_event _ _)).trans (World.noted_count _ _)
  | _ => cases he

end Settling

/-! ## The pass -/

/-- The event that tells of the start of an operation. -/
def startEvent (c : Component) (op : Operation) (reason : String) : Event :=
  ⟨c, .normal, reason, "Starting " ++ op.text ++ "..."⟩

/-- The event that tells how an operation ended. -/
def outcomeEvent (c : Component) (op : Operation) (reason : String) : Except Failure Unit → Event
  | .ok () => ⟨c, .normal, reason, op.capitalText ++ " successful."⟩
  | .error e => ⟨c, .warning, reason, op.capitalText ++ " failed. Reason: " ++ e.message ++ "."⟩

/-- A failure is counted. -/
def outcomeCounts (op : Operation) : Except Failure Unit → List Metric
  | .ok () => []
  | .error _ => [.failures op.text]

/-- What a pass over a component comes to whose operation had an outcome. The pass started in `w` and made the
calls `past`; the operation ended in `w₁`, and the pass in `w'`. The result tells the cases apart. -/
inductive Concluded (config : Config) (c : Component) (op : Operation) (reason : String)
    (fallback : Lifecycle) (w w₁ : World) (past : List Moment) (w' : World) :
    (outcome : Except Failure Unit) → (result : Except Failure NextPass) → Prop
  /-- The operation succeeded, and no backoff is stored. -/
  | cleared (hbackoff : ∀ x, w'.components.find? c.name = some x → x.backoff = ⟨0⟩)
    (hheld : w'.Holds c.name (Edit.leavesAll (clearEdits c) (w₁.components.find? c.name)))
    (hnoted : w.Noted w' [startEvent c op reason, outcomeEvent c op reason (.ok ())]
      [.reconciliations op.text]) :
    Concluded config c op reason fallback w w₁ past w' (.ok ()) (.ok .onChange)
  /-- The operation failed, and the component fell back. -/
  | fellBack {e : Failure} (hstored : Persists c.name (.fallBack fallback config.backoff) past w')
    (hnoted : w.Noted w'
      [startEvent c op reason, outcomeEvent c op reason (.error e), requeueEvent c fallback config.backoff]
      [.reconciliations op.text, .failures op.text, .requeues]) :
    Concluded config c op reason fallback w w₁ past w' (.error e) (.ok (.after config.backoff))
  /-- Whatever was to be persisted was not. -/
  | unsettled {outcome : Except Failure Unit} {e : Failure} (hunsettled : Unsettled c.name w₁ past w' e)
    (hnoted : w.Noted w' [startEvent c op reason, outcomeEvent c op reason outcome]
      (.reconciliations op.text :: outcomeCounts op outcome)) :
    Concluded config c op reason fallback w w₁ past w' outcome (.error e)

section Pass

variable {config : Config} {name : String} {c : Component} {op : Operation} {t : Errand Unit} {reason : String}
  {fallback : Lifecycle} {past : List Moment} {w w' : World} {res : Except Failure NextPass}

/-- The world in which a pass has chosen its operation. -/
def choiceEnd (config : Config) (name : String) (w : World) (c : Component) (op : Operation) : World :=
  ((w.ask (.getComponent name)).2.run (requiredOperation c (chartSpecOf config c)).run).2.leave
    (.count (.reconciliations op.text))

theorem perform_of_ask {n : String} {r : Except Failure Component} (hread : w.ask (.getComponent n) = (r, w')) :
    w.perform (.getComponent n) = (.answered r, w') := by
  refine Prod.ext ?_ ?_
  · rw [World.answered_perform w rfl, hread]
  · rw [← World.ask_snd, hread]

/-- A pass that cannot read its component is over. -/
theorem reconcile_of_unread (config : Config) {e : Failure} (hread : w.ask (.getComponent name) = (.error e, w')) :
    w.run (reconcile config name).run = (.finished (if e.isNotFound then .ok .onChange else .error e), w') ∧
      w.moments (reconcile config name).run = [⟨w, .getComponent name⟩] := by
  have hperf := perform_of_ask hread
  constructor
  · change w.run (.call (.getComponent name) _) = _
    rw [World.run, hperf]
    change w'.run (if e.isNotFound then pure NextPass.onChange else throw e : Errand NextPass).run = _
    split <;> rfl
  · change w.moments (.call (.getComponent name) _) = _
    rw [World.moments, hperf]
    change _ :: w'.moments (if e.isNotFound then pure NextPass.onChange else throw e : Errand NextPass).run = _
    split <;> rfl

/-- A pass that has read its component goes on with the copy. -/
theorem reconcile_of_read (config : Config) (hread : w.ask (.getComponent name) = (.ok c, w')) :
    let rest : Errand NextPass := do
      let op ← requiredOperation c (chartSpecOf config c)
      Errand.count (.reconciliations op.text)
      dispatch config c op
    w.run (reconcile config name).run = w'.run rest.run ∧
      w.moments (reconcile config name).run = ⟨w, .getComponent name⟩ :: w'.moments rest.run := by
  have hperf := perform_of_ask hread
  constructor
  · change w.run (.call (.getComponent name) _) = _
    rw [World.run, hperf]
    rfl
  · change w.moments (.call (.getComponent name) _) = _
    rw [World.moments, hperf]
    rfl

/-- A choice is made by the calls of `requiredOperation` on the component that was read. -/
theorem exists_choice (hchosen : chosen? config name w = some (c, op)) :
    ∃ w₁ w₂, w.ask (.getComponent name) = (.ok c, w₁) ∧
      w₁.run (requiredOperation c (chartSpecOf config c)).run = (.finished (.ok op), w₂) ∧
      choiceEnd config name w c op = w₂.leave (.count (.reconciliations op.text)) := by
  unfold chosen? at hchosen
  split at hchosen
  · cases hchosen
  next x w₁ hread =>
    split at hchosen
    · next op' w₂ hchoice =>
      cases hchosen
      refine ⟨w₁, w₂, hread, hchoice, ?_⟩
      simp only [choiceEnd, hread, hchoice]
    · cases hchosen

theorem name_of_chosen (hchosen : chosen? config name w = some (c, op)) : c.name = name := by
  obtain ⟨w₁, w₂, hread, -, -⟩ := exists_choice hchosen
  exact ComponentStore.name_of_find? (World.find?_of_ask hread)

/-- A pass chooses an operation and acts on it. -/
theorem run_reconcile (hchosen : chosen? config name w = some (c, op)) :
    w.run (reconcile config name).run = (choiceEnd config name w c op).run (dispatch config c op).run ∧
      ∃ asked, (∀ m ∈ asked, m.call.IsQuery) ∧ w.moments (reconcile config name).run =
        asked ++ (choiceEnd config name w c op).moments (dispatch config c op).run := by
  obtain ⟨w₁, w₂, hread, hchoice, hend⟩ := exists_choice hchosen
  obtain ⟨hrest, hrestMoments⟩ := reconcile_of_read config hread
  obtain ⟨hrun, hmoments⟩ := World.run_bind_of_ok (f := fun op => do
    Errand.count (.reconciliations op.text)
    dispatch config c op) hchoice
  rw [hrest, hrestMoments, hend, hrun, hmoments]
  refine ⟨rfl, ⟨w, .getComponent name⟩ :: w₁.moments (requiredOperation c (chartSpecOf config c)).run, ?_, rfl⟩
  exact List.forall_mem_cons.2 ⟨⟨rfl, rfl⟩, Program.calls_of_confined (asks_requiredOperation c _) w₁⟩

/-- While it chooses an operation, a pass leaves the objects as they are, and tells nothing. -/
theorem choiceEnd_frame (hchosen : chosen? config name w = some (c, op)) :
    w.components.Alike (choiceEnd config name w c op).components ∧
      (choiceEnd config name w c op).Holds name (some c) ∧
      w.Noted (choiceEnd config name w c op) [] [.reconciliations op.text] := by
  obtain ⟨w₁, w₂, hread, hchoice, hend⟩ := exists_choice hchosen
  have halike : w.components.Alike w₁.components := by
    have hasked := World.alike_ask (w := w) (c := .getComponent name) rfl
    rw [hread] at hasked
    exact hasked
  have hheld : w₁.Holds name (some c) := by rw [World.Holds, World.find?_of_ask hread]
  have hkept : Obeys (fun _ _ => True) (fun _ _ v => w.components.Alike v.components ∧ v.Holds name (some c))
      (requiredOperation c (chartSpecOf config c)) [] w₁ := by
    refine Program.obeys_of_confined (asks_requiredOperation c _) ?_ (fun _ _ _ hm => hm.elim) ?_ ⟨halike, hheld⟩
    · rintro _ v d hd ⟨hv, hvheld⟩
      exact ⟨trivial, hv.trans (World.alike_perform v hd.1), hvheld.of_alike (World.alike_perform v hd.1)⟩
    · rintro _ v note ⟨hv, hvheld⟩
      exact ⟨by cases note <;> exact hv, hvheld.leave note⟩
  obtain ⟨halike', hheld'⟩ := hkept.ending _ _ hchoice
  have hread' : World.Noted w w₁ [] [] := by
    have hnoted := w.noted_perform (.getComponent name)
    rw [← World.ask_snd, hread] at hnoted
    exact hnoted
  have hchoice' := (onlyCalls_requiredOperation c (chartSpecOf config c)).discreet.noted w₁
  rw [hchoice] at hchoice'
  rw [hend]
  exact ⟨halike', hheld', (hread'.trans hchoice').trans (World.noted_count _ _)⟩

/-- The edits of an operation that succeeded leave the backoff as it was. -/
theorem backoff_of_edits {es : List Edit} {w₁ : World} {z : Component} (hes : EditsOf c op es)
    (hheld : w₁.Holds c.name (Edit.leavesAll es (some c))) (hz : w₁.components.find? c.name = some z) :
    z.backoff = c.backoff := by
  obtain ⟨y, hy, halike⟩ := hheld.of_find? hz
  obtain ⟨d, hd, hbackoff⟩ := Edit.field_of_leavesAll (fun _ _ => rfl)
    (fun e he => Edit.backoff_apply (hes.sparesBackoff e he)) hy
  cases hd
  exact (versionFree_backoff.eq_of_alike halike).trans hbackoff

/-- An operation that is carried out comes to one of its ends. -/
theorem assures_dispatch {w₀ : World} (hop : Executes config c op t reason fallback)
    (hname : c.name = c.spec.name) (hheld : w.Holds c.name (some c))
    (hnoted : w₀.Noted w [] [.reconciliations op.text]) :
    Assures
      (fun res past' w' => ∃ outcome w₁,
        (w.leave (.event (startEvent c op reason))).run t.run = (.finished outcome, w₁) ∧
          (∀ u, outcome = .ok u → ∃ es, EditsOf c op es ∧ w₁.Holds c.name (Edit.leavesAll es (some c))) ∧
          Concluded config c op reason fallback w₀ w₁ past' w' outcome res)
      (dispatch config c op) past w := by
  rw [hop.dispatch_of_named hname]
  refine obeys_bind (obeys_announce (obeys_bind (obeys_outcome ?_)))
  refine ((hop.ends.and (hop.yields (hheld.leave (.event (startEvent c op reason))))).run).mono ?_
  rintro outcome past₁ w₁ ⟨⟨hends, hyields⟩, hrun⟩
  have hnoted₁ : w₀.Noted w₁ [startEvent c op reason] [.reconciliations op.text] := by
    have hdone := hop.discreet.noted (w.leave (.event (startEvent c op reason)))
    rw [hrun] at hdone
    exact (hnoted.trans (w.noted_event _)).trans hdone
  cases outcome with
  | ok u =>
    refine obeys_bind (obeys_announce ?_)
    -- What the operation left is known only if no call denied what is stored.
    by_cases hall : ∀ m ∈ past₁, m.Truthful
    case neg => exact assures_of_not_truthful hall
    obtain ⟨es, hes, hheld₁⟩ := hyields hall u rfl
    refine assures_settle_ok.mono fun r past' w' hsettled htrue => ?_
    obtain ⟨hnoted', hr⟩ := hsettled htrue
    have hnoted' := (hnoted₁.trans (w₁.noted_event (outcomeEvent c op reason (.ok ())))).trans hnoted'
    refine ⟨.ok u, w₁, hrun, fun _ _ => ⟨es, hes, hheld₁⟩, ?_⟩
    cases r with
    | error e => exact .unsettled hr hnoted'
    | ok next =>
      obtain ⟨rfl, hheld'⟩ := hr
      refine .cleared (fun x hx => ?_) hheld' hnoted'
      obtain ⟨y, hy, halike⟩ := hheld'.of_find? hx
      have hcleared := backoff_of_cleared (fun z hz => backoff_of_edits hes hheld₁ hz) hy
      exact (versionFree_backoff.eq_of_alike halike).trans hcleared
  | error e =>
    refine obeys_bind (obeys_count (obeys_bind (obeys_announce ?_)))
    refine (obeys_settle_error (hends e rfl)).mono fun r past' w' hsettled _ => ?_
    have hnoted₂ := (hnoted₁.trans (w₁.noted_count (.failures op.text))).trans
      ((w₁.leave (.count (.failures op.text))).noted_event (outcomeEvent c op reason (.error e)))
    refine ⟨.error e, w₁, hrun, nofun, ?_⟩
    cases r with
    | ok next =>
      obtain ⟨rfl, hpersists, hnoted'⟩ := hsettled
      exact .fellBack hpersists (hnoted₂.trans hnoted')
    | error e' =>
      obtain ⟨hunsettled, hnoted'⟩ := hsettled
      exact .unsettled hunsettled (hnoted₂.trans hnoted')

/-- What becomes of a pass that carries out an operation: the operation's own run is told apart from what is made
of its outcome. -/
theorem concluded_reconcile (hchosen : chosen? config name w = some (c, op))
    (hop : Executes config c op t reason fallback) (hname : c.name = c.spec.name)
    (hrun : w.run (reconcile config name).run = (.finished res, w'))
    (htrue : ∀ m ∈ w.moments (reconcile config name).run, m.Truthful) :
    ∃ outcome w₁,
      ((choiceEnd config name w c op).leave (.event (startEvent c op reason))).run t.run =
        (.finished outcome, w₁) ∧
      (∀ u, outcome = .ok u → ∃ es, EditsOf c op es ∧ w₁.Holds c.name (Edit.leavesAll es (some c))) ∧
      Concluded config c op reason fallback w w₁ (w.moments (reconcile config name).run) w' outcome res := by
  obtain ⟨-, hheld, hnoted⟩ := choiceEnd_frame hchosen
  obtain ⟨hpass, asked, -, hmoments⟩ := run_reconcile hchosen
  rw [hpass] at hrun
  rw [hmoments] at htrue ⊢
  exact (assures_dispatch hop hname (name_of_chosen hchosen ▸ hheld) hnoted).ending res w' hrun htrue

/-- A pass that carries out an operation on a component and returns has come to one of three ends, whatever
faults its calls met, as long as none claimed that a stored component does not exist. -/
theorem outcome_of_operation (hchosen : chosen? config name w = some (c, op))
    (hop : Executes config c op t reason fallback) (hname : c.name = c.spec.name)
    (hrun : w.run (reconcile config name).run = (.finished res, w'))
    (htrue : ∀ m ∈ w.moments (reconcile config name).run, m.Truthful) :
    ∃ outcome w₁,
      ((choiceEnd config name w c op).leave (.event (startEvent c op reason))).run t.run =
        (.finished outcome, w₁) ∧
      Concluded config c op reason fallback w w₁ (w.moments (reconcile config name).run) w' outcome res := by
  obtain ⟨outcome, w₁, hoperation, -, hconcluded⟩ := concluded_reconcile hchosen hop hname hrun htrue
  exact ⟨outcome, w₁, hoperation, hconcluded⟩

end Pass

/-- An upgrade whose order crashes is told, counted and taken up again. -/
theorem outcome_of_operation_crashed :
    let c := sampleComponent "0.2.0" .installed []
    let w := { sampleWorld c [sampleRelease "ecosystem" "0.1.0"] with faults := [(.chartInstall, [some .crash])] }
    ∃ e w', w.run (reconcile {} "dogu-op").run = (.finished (.ok (.after (.ofSeconds 60))), w') ∧
      w'.events = [
        ⟨c, .normal, "Requeue", "Falling back to component status tryToUpgrade and retrying in 60s"⟩,
        ⟨c, .warning, "Upgrade", "Upgrade" ++ " failed. Reason: " ++ Failure.message e ++ "."⟩,
        ⟨c, .normal, "Upgrade", "Starting upgrade..."⟩] ∧
      w'.counts.count .requeues = 1 ∧ w'.counts.count (.failures "upgrade") = 1 := by
  intro c w
  have hhonest : w.Honest := by
    intro p f hf e he
    by_cases hp : Channel.chartInstall = p <;> simp [w, World.faultsOf, hp, he] at hf
  have hchosen : chosen? {} "dogu-op" w = some (c, .upgrade) := by decide +kernel
  have hrun := World.run_of_succeedsWith (w := w) (t := reconcile {} "dogu-op") (a := .after (.ofSeconds 60))
    (by decide +kernel)
  obtain ⟨outcome, w₁, -, hconcluded⟩ := outcome_of_operation hchosen .upgrade (by decide) hrun
    (World.truthful_moments _ hhonest)
  have hrequeue : requeueEvent c .tryToUpgrade (.ofSeconds 60) =
      ⟨c, .normal, "Requeue", "Falling back to component status tryToUpgrade and retrying in 60s"⟩ := by decide
  have hstart : startEvent c .upgrade upgradeReason = ⟨c, .normal, "Upgrade", "Starting upgrade..."⟩ := by decide
  cases hconcluded with
  | @fellBack e _ hnoted =>
    have hrequeues := hnoted.counts .requeues (by rintro _ ⟨⟩)
    have hfailures := hnoted.counts (.failures "upgrade") (by rintro _ ⟨⟩)
    refine ⟨e, _, hrun, ?_, hrequeues, hfailures⟩
    rw [hnoted.events, ← hrequeue, ← hstart]
    rfl

/-- The fallback of a component that is being deleted without finalizers is not stored: the write that was to
persist it removes the component. -/
theorem not_stored_of_fallback :
    let w := (sampleWorld (sampleComponent "0.1.0" .installed []).toBeRemoved []).failing .componentUpdateStatus
    chosen? {} "dogu-op" w = some ((sampleComponent "0.1.0" .installed []).toBeRemoved, .delete) ∧ w.Honest ∧
      (w.run (reconcile {} "dogu-op").run).1 = .finished (.ok (.after (.ofSeconds 60))) ∧
      ¬ (w.run (reconcile {} "dogu-op").run).2.Stores "dogu-op" fun x => x.lifecycle = .tryToDelete := by
  intro w
  have hgone : (w.run (reconcile {} "dogu-op").run).2.components.find? "dogu-op" = none := by decide +kernel
  have hrun := World.run_of_succeedsWith (w := w) (t := reconcile {} "dogu-op") (a := .after (.ofSeconds 60))
    (by decide +kernel)
  refine ⟨by decide +kernel, World.honest_failing _ _, congrArg Prod.fst hrun, ?_⟩
  rintro ⟨x, hx, -⟩
  rw [hgone] at hx
  cases hx

end ChartOperator
