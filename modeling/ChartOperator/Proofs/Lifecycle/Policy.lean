import ChartOperator.Proofs.Lifecycle.Refusals

set_option autoImplicit false

/-!
# What is not retried

The failure of a pass decides whether there is another pass. In a world where calls fail for transient causes
alone, no pass follows in two cases (`waits_iff`): the pass met data that only a person can mend (`BadData`), or
it could not choose an operation since a call to the chart client failed. The second one is a failure like any
other of a call, and everywhere else such a failure is retried: at the read of the component, in an operation,
and while its outcome is persisted.
-/

namespace ChartOperator

open Errand

/-! ## Faults of one kind -/

/-- A failure of what surrounds the operator: it may be over at the next attempt. -/
def Failure.isTransient : Failure → Bool
  | .helmCommand _ _ | .chartClient _ | .io _ | .internal _ | .cluster _ => true
  | _ => false

theorem Failure.action_of_isTransient {e : Failure} (h : e.isTransient = true) : e.action ≠ .wait := by
  unfold action
  split
  · nofun
  · cases e <;> first | cases h; done | nofun

theorem Failure.action_of_context (message : String) (e : Failure) : (context message e).action ≠ .wait := by
  unfold action
  split <;> nofun

namespace World

variable {P : Failure → Prop} {w w' : World} {c : Call} {e : Failure}

/-- A component is not read for a fault, since the store fails, or since there is none. -/
theorem FailsWith.read_error {n : String} (h : w.FailsWith P)
    (hread : w.ask (.getComponent n) = (.error e, w')) :
    P e ∨ (∃ m, e = .internal m) ∨ e.isNotFound = true := by
  have hget : ∀ v : World, outcomeOf (v.serve (.getComponent n)).1 = .answered (.error e) →
      (∃ m, e = .internal m) ∨ e.isNotFound = true := by
    intro v hv
    have hs : v.components.get n = .error e := Outcome.answered.inj hv
    unfold ComponentStore.get at hs
    split at hs
    · cases hs
      exact .inl ⟨_, rfl⟩
    · split at hs
      · cases hs
      · cases hs
        exact .inr rfl
  have hans := congrArg Prod.fst (perform_of_ask hread)
  unfold World.perform at hans
  rcases hf : w.takeFault (Call.getComponent n).channel with ⟨f, met⟩
  rw [hf] at hans
  dsimp only at hans
  rcases met.meet_component (c := .getComponent n) rfl f with ⟨e', rfl, he⟩ | he | ⟨m, -, he⟩
  · rw [he] at hans
    cases hans
    exact .inl (h.next (congrArg Prod.fst hf))
  · rw [he] at hans
    exact .inr (hget _ hans)
  · rw [he] at hans
    exact .inr (hget _ hans)

/-- An inquiry fails for a fault, or since the stores refuse it. -/
theorem FailsWith.inquiry_error (h : w.FailsWith P) (hc : c.isInquiry = true)
    (hans : (w.perform c).1 = .answered (.error e)) :
    P e ∨ ∃ v : World, v.Served c (.error e) := by
  unfold World.perform at hans
  rcases hf : w.takeFault c.channel with ⟨f, met⟩
  rw [hf] at hans
  dsimp only at hans
  rcases met.meet_inquiry hc f with ⟨e', rfl, he⟩ | ⟨a, hserved, ha⟩ | ⟨r, hr⟩ | hcrashed
  · rw [he] at hans
    cases hans
    exact .inl (h.next (congrArg Prod.fst hf))
  · rw [ha] at hans
    cases hans
    exact .inr ⟨met, hserved⟩
  · rw [hr] at hans
    cases hans
  · rw [hcrashed] at hans
    cases hans

/-- The failures that the calls of a run will meet are of the kind of those that the run started among. -/
theorem FailsWith.moments {α : Type} {p : Program α} {calls : Call → Prop} (h : w.FailsWith P)
    (hp : p.Confined calls fun _ => False) : ∀ m ∈ w.moments p, m.before.FailsWith P := by
  have hcalls : p.Obeys (fun _ m => m.before.FailsWith P) (fun _ _ w => w.FailsWith P) [] w := by
    refine Program.obeys_of_confined hp (fun _ w c _ hw => ⟨hw, hw.perform c⟩) (fun _ _ _ hm => hm.elim) ?_ h
    exact fun _ w note hw => by cases note <;> exact hw
  exact hcalls.calls.forall

/-- What an inquiry of a run failed for. -/
theorem FailsWith.inquired {α : Type} {p : Program α} (h : w.FailsWith P)
    (hp : p.Confined (fun c => c.isInquiry = true) fun _ => False) {d : Call}
    (hsaid : Said (w.moments p) d (.error e)) : P e ∨ ∃ v : World, v.Served d (.error e) := by
  obtain ⟨m, hm, rfl, hanswered⟩ := hsaid
  exact (h.moments hp m hm).inquiry_error (Program.calls_of_confined hp w m hm) hanswered

end World

/-! ## Data that only a person can mend -/

/-- The failure of a pass tells of data that only a person can mend: in the component, or in the release that
the pass was told of. -/
inductive BadData (replies : Replies) (c : Component) : Failure → Prop
  | installedVersion {rs : List Release} {r : Release} {e : Failure} (hlisted : replies .listReleases (.ok rs))
    (hfirst : FirstNamed c.spec.name rs r) (hversion : readVersion r.appVersion = .error e) :
    BadData replies c (.evaluation c.name e)
  | requestedVersion {e : Failure} (hgiven : c.spec.version ≠ "")
    (hversion : readVersion c.spec.version = .error e) :
    BadData replies c (.evaluation c.name e)
  | elsewhere {rs : List Release} {r : Release} {wanted : String} (hlisted : replies .listReleases (.ok rs))
    (hfirst : FirstNamed c.spec.name rs r) (hwanted : c.spec.deployNamespace = some wanted)
    (hgiven : wanted ≠ "") (hother : wanted ≠ r.namespace) :
    BadData replies c (.namespaceMismatch c.name r.namespace wanted)
  | overlay {e : Failure} (hoverlay : Values.ofOverlay c.spec.valuesOverlay = .error e) :
    BadData replies c (.evaluation c.name e)
  | downgrade {rs : List Release} {r : Release} {installed requested : Version}
    (hlisted : replies .listReleases (.ok rs)) (hfirst : FirstNamed c.spec.name rs r)
    (hread : Comparable c r installed requested) (horder : requested.order installed = .lt) :
    BadData replies c (.downgrade c.name r.appVersion (requestedVersion c r))
  | misnamed (hname : c.name ≠ c.spec.name) : BadData replies c (.nameMismatch c.name c.spec.name)

/-- The choice of an operation failed since one of its calls did. -/
def ChoiceFailed (replies : Replies) (c : Component) (e : Failure) : Prop :=
  ∃ d f, replies d (.error f) ∧ d.channel ∈ [.chartList, .chartReleaseValues, .chartSpecValues] ∧
    f.isTransient = true ∧ f.isConflict = false ∧ e = .evaluation c.name f

section Data

variable {replies replies' : Replies} {c : Component} {e : Failure}

theorem BadData.mono (h : BadData replies c e) (hreplies : ∀ d x, replies d x → replies' d x) :
    BadData replies' c e := by
  cases h with
  | installedVersion hlisted hfirst hversion =>
    exact .installedVersion (hreplies _ _ hlisted) hfirst hversion
  | requestedVersion hgiven hversion => exact .requestedVersion hgiven hversion
  | elsewhere hlisted hfirst hwanted hgiven hother =>
    exact .elsewhere (hreplies _ _ hlisted) hfirst hwanted hgiven hother
  | overlay hoverlay => exact .overlay hoverlay
  | downgrade hlisted hfirst hread horder => exact .downgrade (hreplies _ _ hlisted) hfirst hread horder
  | misnamed hname => exact .misnamed hname

/-- An overlay that cannot be read is no lost race. -/
theorem isConflict_of_ofOverlay {overlay : Option String} (h : Values.ofOverlay overlay = .error e) :
    e.isConflict = false := by
  have hjson : ∀ j, Values.ofJson j = .error e → e.isConflict = false := by
    intro j hj
    unfold Values.ofJson at hj
    split at hj <;> cases hj
    rfl
  unfold Values.ofOverlay at h
  split at h
  · cases h
  · extract_lets text at h
    split at h
    · cases h
    · split at h
      · cases h
        rfl
      · exact hjson _ h

theorem action_of_evaluation {f : Failure} (h : f.isConflict = false) :
    (Failure.evaluation c.name f).action = .wait := by
  have hconflict : ¬ (Failure.evaluation c.name f).isConflict = true := Bool.eq_false_iff.1 h
  unfold Failure.action
  rw [if_neg hconflict]

/-- Bad data is not retried. -/
theorem BadData.action (h : BadData replies c e) : e.action = .wait := by
  cases h with
  | installedVersion hlisted hfirst hversion =>
    obtain ⟨reason, rfl⟩ := versionParse_of_readVersion hversion
    exact action_of_evaluation rfl
  | requestedVersion hgiven hversion =>
    obtain ⟨reason, rfl⟩ := versionParse_of_readVersion hversion
    exact action_of_evaluation rfl
  | overlay hoverlay => exact action_of_evaluation (isConflict_of_ofOverlay hoverlay)
  | elsewhere | downgrade | misnamed => rfl

theorem ChoiceFailed.action (h : ChoiceFailed replies c e) : e.action = .wait := by
  obtain ⟨d, f, -, -, -, hdecided, rfl⟩ := h
  exact action_of_evaluation hdecided

theorem ChoiceFailed.mono (h : ChoiceFailed replies c e) (hreplies : ∀ d x, replies d x → replies' d x) :
    ChoiceFailed replies' c e := by
  obtain ⟨d, f, hsaid, hrest⟩ := h
  exact ⟨d, f, hreplies _ _ hsaid, hrest⟩

/-- A downgrade is chosen for the data that the table names. -/
theorem badData_of_downgrade {chart : ChartSpec} {calls : List Call} {installed requested : String}
    (h : Decides replies c chart calls (.ok (.downgrade installed requested))) :
    BadData replies c (.downgrade c.name installed requested) := by
  cases h with
  | found hopen hlisted hfirst hcompares =>
    cases hcompares with
    | older hread horder => exact .downgrade hlisted hfirst hread horder

/-- A lost race is retried, whatever it is wrapped in. -/
theorem isConflict_of_waits (h : e.action = .wait) : e.isConflict = false := by
  cases hconflict : e.isConflict with
  | false => rfl
  | true =>
    unfold Failure.action at h
    rw [if_pos hconflict] at h
    cases h

end Data

/-! ## The ends of a pass -/

section Ends

variable {config : Config} {name : String} {c : Component} {op : Operation} {t : Errand Unit} {reason : String}
  {fallback : Lifecycle} {e : Failure} {past : List Moment} {w w' : World}

/-- A choice that fails without being retried met bad data, or a call that failed. -/
theorem cause_of_unchosen {chart : ChartSpec} (hw : w.FailsWith fun f => f.isTransient = true)
    (hoverlay : chart.valuesOverlay = c.spec.valuesOverlay)
    (hrun : w.run (requiredOperation c chart).run = (.finished (.error e), w')) (hwaits : e.action = .wait) :
    BadData (Said (w.moments (requiredOperation c chart).run)) c e ∨
      ChoiceFailed (Said (w.moments (requiredOperation c chart).run)) c e := by
  have hinquired : ∀ {d : Call} {f : Failure}, Said (w.moments (requiredOperation c chart).run) d (.error f) →
      f.isTransient = true ∨ ∃ v : World, v.Served d (.error f) :=
    fun hsaid => hw.inquired (inquires_requiredOperation c chart) hsaid
  have hdecides := decides_of_run hrun
  generalize Said (w.moments (requiredOperation c chart).run) = replies at hinquired hdecides
  generalize (w.moments (requiredOperation c chart).run).map Moment.call = calls at hdecides
  have hfailed : ∀ {d f}, replies d (.error f) → d.channel ∈ [.chartList, .chartReleaseValues, .chartSpecValues] →
      e = .evaluation c.name f → f.isTransient = true → ChoiceFailed replies c e := by
    rintro d f hsaid hchannel rfl htransient
    have hdecided : (Failure.evaluation c.name f).isConflict = false := isConflict_of_waits hwaits
    exact ⟨d, f, hsaid, hchannel, htransient, hdecided, rfl⟩
  cases hdecides with
  | unlisted hopen hlisted =>
    rcases hinquired hlisted with htransient | ⟨v, hv⟩
    · exact .inr (hfailed hlisted (by simp [Call.channel]) rfl htransient)
    · cases hv
  | found hopen hlisted hfirst hcompares =>
    cases hcompares with
    | installedUnreadable hinstalled => exact .inl (.installedVersion hlisted hfirst hinstalled)
    | requestedUnreadable hinstalled hgiven hrequested => exact .inl (.requestedVersion hgiven hrequested)
    | elsewhere hinstalled hrequested hwanted hgiven hother =>
      exact .inl (.elsewhere hlisted hfirst hwanted hgiven hother)
    | deployedUnread hread horder hdeployed =>
      rcases hinquired hdeployed with htransient | ⟨v, hv⟩
      · exact .inr (hfailed hdeployed (by simp [Call.channel]) rfl htransient)
      · cases hv
    | desiredUnread hread horder hdeployed hdesired =>
      rcases hinquired hdesired with htransient | ⟨v, hv⟩
      · exact .inr (hfailed hdesired (by simp [Call.channel]) rfl htransient)
      · -- The values that are asked for are those of the overlay.
        refine .inl (.overlay ?_)
        rw [← hoverlay]
        exact Option.some.inj hv

/-- What is returned behind an operation is a failure to persist its outcome. -/
theorem obeys_settle_context (config : Config) (c : Component) (fallback : Lifecycle)
    {outcome : Except Failure Unit} (houtcome : ∀ e, outcome = .error e → e.isRequeueable = true) :
    Obeys (fun _ _ => True) (fun r _ _ => ∀ e, r = .error e → ∃ context f, e = .context context f)
      (settle config outcome c fallback) past w := by
  cases outcome with
  | error e =>
    refine (obeys_settle_error (houtcome e rfl)).mono fun r past' w' h e' he' => ?_
    subst he'
    obtain ⟨⟨context, f, rfl, -⟩, -⟩ := h
    exact ⟨context, f, rfl⟩
  | ok u =>
    change Obeys _ _ (clearBackoff c >>= fun _ => pure NextPass.onChange) past w
    refine obeys_bind ?_
    unfold clearBackoff
    split
    · exact obeys_pure (obeys_pure nofun)
    · refine (obeys_persist Mutation.sound_ofStatus _).mono ?_
      rintro (e | u) past' w' ⟨-, hunsettled⟩
      · obtain ⟨context, f, rfl, -⟩ := hunsettled e rfl
        rintro _ ⟨⟩
        exact ⟨context, f, rfl⟩
      · exact obeys_pure nofun

/-- An operation that is carried out is not what the pass fails with. -/
theorem context_of_dispatch (hop : Executes config c op t reason fallback) (hname : c.name = c.spec.name)
    (hrun : w.run (dispatch config c op).run = (.finished (.error e), w')) :
    ∃ context f, e = .context context f := by
  have hcarried : Obeys (fun _ _ => True) (fun r _ _ => ∀ e, r = .error e → ∃ context f, e = .context context f)
      (dispatch config c op) [] w := by
    rw [hop.dispatch_of_named hname]
    refine obeys_bind (obeys_announce (obeys_bind (obeys_outcome (hop.ends.mono ?_))))
    rintro (e | u) past₁ w₁ hends
    · refine obeys_bind (obeys_count (obeys_bind (obeys_announce ?_)))
      exact obeys_settle_context config c fallback hends
    · exact obeys_bind (obeys_announce (obeys_settle_context config c fallback hends))
  exact hcarried.ending _ _ hrun e rfl

/-- The calls of the choice are calls of the pass. -/
theorem said_of_choice {w₁ : World} (hread : w.ask (.getComponent name) = (.ok c, w₁)) {d : Call} {x : d.Answer}
    (h : Said (w₁.moments (requiredOperation c (chartSpecOf config c)).run) d x) :
    Said (w.moments (reconcile config name).run) d x := by
  obtain ⟨m, hm, hanswered⟩ := h
  refine ⟨m, ?_, hanswered⟩
  rw [(reconcile_of_read config hread).2]
  refine List.mem_cons_of_mem _ ?_
  exact World.moments_andThen w₁ _ _ ▸ List.mem_append_left _ hm

/-- A pass that chose an operation and is not retried has refused the operation. -/
theorem badData_of_chosen {w₁ w₂ : World}
    (hchoice : w₁.run (requiredOperation c (chartSpecOf config c)).run = (.finished (.ok op), w₂))
    (hrun : (choiceEnd config name w c op).run (dispatch config c op).run = (.finished (.error e), w'))
    (hwaits : e.action = .wait) :
    BadData (Said (w₁.moments (requiredOperation c (chartSpecOf config c)).run)) c e := by
  have hexecutes : ∀ {t reason fallback}, Executes config c op t reason fallback →
      BadData (Said (w₁.moments (requiredOperation c (chartSpecOf config c)).run)) c e := by
    intro t reason fallback hop
    by_cases hname : c.name = c.spec.name
    · obtain ⟨context, f, rfl⟩ := context_of_dispatch hop hname hrun
      exact absurd hwaits (Failure.action_of_context context f)
    · rw [(dispatch_of_misnamed hop hname).1] at hrun
      cases hrun
      exact .misnamed hname
  cases op with
  | ignore => cases hrun
  | install => exact hexecutes .install
  | upgrade => exact hexecutes .upgrade
  | delete => exact hexecutes .delete
  | downgrade installed requested =>
    cases hrun
    exact badData_of_downgrade (decides_of_run hchoice)

/-- Where calls fail for transient causes alone, no pass follows a failure if and only if the pass met data that
only a person can mend, or a call failed while it chose an operation. Every other call that fails is retried. -/
theorem waits_iff (hw : w.FailsWith fun f => f.isTransient = true)
    (hrun : w.run (reconcile config name).run = (.finished (.error e), w')) :
    e.action = .wait ↔
      ∃ c, (w.ask (.getComponent name)).1 = .ok c ∧
        (BadData (Said (w.moments (reconcile config name).run)) c e ∨
          ChoiceFailed (Said (w.moments (reconcile config name).run)) c e) := by
  constructor
  · intro hwaits
    rcases hread : w.ask (.getComponent name) with ⟨f | c, w₁⟩
    · -- The read of the component failed, which is retried.
      rw [(reconcile_of_unread config hread).1] at hrun
      split at hrun
      · cases hrun
      next hfound =>
      cases hrun
      rcases hw.read_error hread with htransient | ⟨m, rfl⟩ | hgone
      · exact absurd hwaits (Failure.action_of_isTransient htransient)
      · exact absurd hwaits (Failure.action_of_isTransient rfl)
      · exact absurd hgone hfound
    refine ⟨c, rfl, ?_⟩
    have hsaid : ∀ d x, Said (w₁.moments (requiredOperation c (chartSpecOf config c)).run) d x →
      Said (w.moments (reconcile config name).run) d x := fun _ _ => said_of_choice hread
    have hw₁ : w₁.FailsWith fun f => f.isTransient = true := by
      obtain rfl : (w.ask (.getComponent name)).2 = w₁ := congrArg Prod.snd hread
      rw [World.ask_snd]
      exact hw.perform _
    rcases hchoice : w₁.run (requiredOperation c (chartSpecOf config c)).run with ⟨(f | op) | _ | _, w₂⟩
    · rw [(reconcile_of_read config hread).1, (World.run_bind_of_error hchoice).1] at hrun
      cases hrun
      exact (cause_of_unchosen hw₁ rfl hchoice hwaits).imp (·.mono hsaid) (·.mono hsaid)
    · have hchosen := chosen?_of_choice hread (congrArg Prod.fst hchoice)
      rw [(run_reconcile hchosen).1] at hrun
      exact .inl ((badData_of_chosen hchoice hrun hwaits).mono hsaid)
    · rw [(reconcile_of_read config hread).1, (World.run_bind_of_crashed hchoice).1] at hrun
      cases hrun
    · exact absurd hchoice (choice_ne_held config hread)
  · rintro ⟨c, -, hbad | hfailed⟩
    · exact hbad.action
    · exact hfailed.action

/-- A listing that fails once, while an operation is chosen, stops the retries of a component whose data are
good. -/
theorem waits_unlisted :
    let c := sampleComponent "0.2.0" .installed []
    let w := (sampleWorld c [sampleRelease "ecosystem" "0.1.0"]).failing .chartList
    let e := Failure.evaluation "dogu-op" (.internal "unavailable")
    ∃ w', w.run (reconcile {} "dogu-op").run = (.finished (.error e), w') ∧ e.action = .wait ∧
      ChoiceFailed (Said (w.moments (reconcile {} "dogu-op").run)) c e := by
  intro c w e
  have hrun : w.run (reconcile {} "dogu-op").run = (.finished (.error e), (w.run (reconcile {} "dogu-op").run).2) :=
    rfl
  have hread : (w.ask (.getComponent "dogu-op")).1 = .ok c := rfl
  obtain ⟨c', hread', hcause⟩ := (waits_iff (World.failsWith_failing _ _ rfl) hrun).1 rfl
  obtain rfl : c = c' := Except.ok.inj (hread.symm.trans hread')
  refine ⟨_, hrun, rfl, hcause.resolve_left fun hbad => ?_⟩
  obtain ⟨e', he, hbad⟩ : ∃ e', Failure.evaluation "dogu-op" (.internal "unavailable") = e' ∧ BadData _ c e' :=
    ⟨_, rfl, hbad⟩
  cases hbad with
  | installedVersion _ _ hversion | requestedVersion _ hversion =>
    obtain ⟨reason, rfl⟩ := versionParse_of_readVersion hversion
    cases (Failure.evaluation.inj he).2
  | overlay hoverlay => cases hoverlay
  | elsewhere | downgrade | misnamed => cases he

end Ends

end ChartOperator
