import ChartOperator.Proofs.Lifecycle.Orders
import ChartOperator.Proofs.Lifecycle.StepOrder

set_option autoImplicit false

/-!
# Which release a removal takes away

A release is known by its name and its namespace, and releases are listed from all namespaces. The own release
of a component has the name of the chart and is in the namespace that the component asks for
(`Component.Owns`). A removal looks for the name alone, and takes away the first release that has it,
wherever it is.

So a removal keeps to the own release (`KeepsToOwn`) if and only if that is listed before its namesakes, or
nothing is taken away at all (`keepsToOwn_iff`). No order of the list is promised, and where a namesake stands
in front, it is the namesake that goes. The finalizer follows it, and the own release stays.
-/

namespace ChartOperator

open Errand

/-! ## The own release -/

section Owning

variable {c : Component} {rs : List Release}

/-- The release is that of the component: the name and the namespace are those that an installation asks
for. -/
structure Component.Owns (c : Component) (r : Release) : Prop where
  name : r.name = c.spec.name
  space : r.namespace = c.deployNamespace

/-- The own release of a component is listed, and none of its namesakes in front of it. -/
def Foremost (c : Component) (rs : List Release) : Prop := ∃ r, FirstNamed c.spec.name rs r ∧ c.Owns r

/-- Where the own release is listed, some release is the first of the name. -/
theorem exists_firstNamed_of_owns (hown : ∃ r ∈ rs, c.Owns r) : ∃ r, FirstNamed c.spec.name rs r := by
  obtain ⟨r, hr, howns⟩ := hown
  cases hfirst : releaseOf? c rs with
  | none => exact (releaseOf?_eq_none_iff.1 hfirst r hr howns.name).elim
  | some s => exact ⟨s, releaseOf?_eq_some_iff.1 hfirst⟩

end Owning

/-! ## What is listed -/

/-- The releases that a call lists, if it does. -/
def Moment.listed? (m : Moment) : Option (List Release) :=
  match m.call with
  | .listReleases =>
    match (m.before.perform .listReleases).1 with
    | .answered (.ok rs) => some rs
    | _ => none
  | _ => none

theorem Moment.listed?_of_answered {m : Moment} {rs : List Release} (h : m.Answered .listReleases (.ok rs)) :
    m.listed? = some rs := by
  obtain ⟨hcall, hanswer⟩ := h
  simp only [listed?, hcall, hanswer]

/-! ## What a removal orders -/

section Orders

variable {c : Component} {past : List Moment} {w : World}

/-- A removal orders once, and what it takes away is the first release of the name in a list that it got. -/
def removalRule (c : Component) : Rule := fun earlier m =>
  m.call.isOrder = true → Unordered earlier ∧
    ∃ p ∈ earlier, ∃ rs r, p.Answered .listReleases (.ok rs) ∧ FirstNamed c.spec.name rs r ∧
      m.call = .uninstall r.name r.namespace

theorem removalRule_of_not_order (past : List Moment) (m : Moment) (h : m.call.isOrder = false) :
    removalRule c past m := by
  intro horder
  rw [h] at horder
  cases horder

theorem Unordered.not_uninstall {m : Moment} {release space : String} (h : Unordered past) (hm : m ∈ past) :
    m.call ≠ .uninstall release space := by
  intro hcall
  have hquiet := h m hm
  rw [hcall] at hquiet
  cases hquiet

theorem unordered_or (ms : List Moment) : Unordered ms ∨ ∃ m ∈ ms, m.call.isOrder = true := by
  by_cases hordered : ∃ m ∈ ms, m.call.isOrder = true
  · exact .inr hordered
  · exact .inl fun m hm => Bool.eq_false_iff.2 fun horder => hordered ⟨m, hm, horder⟩

/-- Changes of the component are no orders. -/
theorem obeys_change_removal (m : Mutation) : Obeys (removalRule c) (fun _ _ _ => True) (change m) past w :=
  obeys_change_of_perform removalRule_of_not_order (fun _ _ _ _ _ => trivial) trivial

theorem obeys_delete_removal (hpast : Unordered past) :
    Obeys (removalRule c) (fun _ _ _ => True) (delete c) past w := by
  have hfinalizer : ∀ step past w, Obeys (removalRule c) (fun _ _ _ => True)
      (discard ((change (.removeFinalizer c.name)).orRequeue step)) past w := fun _ _ _ =>
    obeys_discard (obeys_mapFailure ((obeys_change_removal _).mono fun _ _ _ _ => trivial))
  unfold delete findRelease
  refine steady_unordered.bind removalRule_of_not_order
    (confined_discard (confined_mapFailure (quiet_persistStatus c _ _))) hpast (fun _ _ _ _ => trivial) ?_
  intro _ past w hpast
  refine obeys_bind (obeys_mapFailure (obeys_bind
    (obeys_ask (removalRule_of_not_order _ _ rfl) fun a w' hperf => ?_)))
  rcases a with e | rs
  · trivial
  have hlisted : Moment.Answered ⟨w, .listReleases⟩ .listReleases (.ok rs) := ⟨rfl, congrArg Prod.fst hperf⟩
  refine obeys_pure ?_
  cases hfirst : releaseOf? c rs with
  | none => exact hfinalizer _ _ _
  | some r =>
    refine obeys_bind (obeys_mapFailure (obeys_ask (c := .uninstall r.name r.namespace) ?_ ?_))
    · exact fun _ => ⟨hpast.snoc rfl, _, by simp, rs, r, hlisted, releaseOf?_eq_some_iff.1 hfirst, rfl⟩
    · rintro (e | u) w'' -
      · trivial
      · exact hfinalizer _ _ _

theorem obeys_carryOut_removal {config : Config} (hpast : Unordered past) :
    Obeys (removalRule c) (fun _ _ _ => True) (dispatch config c .delete) past w := by
  have hend : Steady c.name fun _ _ => True :=
    steady_of_perform (fun _ _ _ _ _ => trivial) fun _ _ _ _ => trivial
  unfold dispatch carryOut
  refine steady_unordered.bind removalRule_of_not_order (quiet_validateName c) hpast
    (fun _ _ _ _ => trivial) fun _ past w hpast => ?_
  refine obeys_bind (obeys_announce (obeys_bind (obeys_outcome ((obeys_delete_removal hpast).mono ?_))))
  intro outcome past w _
  exact hend.obeys removalRule_of_not_order (quiet_conclude config c .delete _ _ outcome) trivial

/-- The orders of a pass that chose the removal. -/
theorem obeys_reconcile_removal {config : Config} {name : String}
    (hchosen : chosen? config name w = some (c, .delete)) :
    Obeys (removalRule c) (fun _ _ _ => True) (reconcile config name) [] w := by
  have hnone : Unordered [] := fun p hp => by cases hp
  unfold reconcile
  refine obeys_bind (obeys_outcome (obeys_ask (c := .getComponent name) (removalRule_of_not_order _ _ rfl) ?_))
  intro found w₁ hread
  have hpast : Unordered [⟨w, .getComponent name⟩] := hnone.snoc rfl
  have hasked : w.ask (.getComponent name) = (found, w₁) := by
    rw [World.ask, hread]
  rcases found with e | x
  · simp only [chosen?, hasked] at hchosen
    cases hchosen
  have hchoice : Obeys (removalRule c) (fun _ past _ => Unordered past)
      (requiredOperation x (chartSpecOf config x)) [⟨w, .getComponent name⟩] w₁ :=
    steady_unordered.obeys (n := x.name) removalRule_of_not_order
      ((asks_requiredOperation x _).mono (fun _ h => h) fun _ h => h.elim) hpast
  refine obeys_bind (hchoice.run.mono fun r past w₂ hr => ?_)
  rcases r with e | op
  · trivial
  have hchosen' : chosen? config name w = some (x, op) := chosen?_of_choice hasked (congrArg Prod.fst hr.2)
  obtain ⟨rfl, rfl⟩ : c = x ∧ .delete = op := by
    rw [hchosen] at hchosen'
    exact Prod.ext_iff.1 (Option.some.inj hchosen')
  exact obeys_bind (obeys_count (obeys_carryOut_removal hr.1))

end Orders

/-! ## Removals that keep to the own release -/

/-- Nothing but the own release of the component is taken away, and the finalizer goes only behind it. -/
structure KeepsToOwn (c : Component) (ms : List Moment) : Prop where
  uninstall : ∀ m ∈ ms, ∀ release space, m.call = .uninstall release space →
    release = c.spec.name ∧ space = c.deployNamespace
  finalizer : ∀ earlier m later, ms = earlier ++ m :: later → m.Rewrites Component.hasFinalizer false →
    Succeeded (.uninstall c.spec.name c.deployNamespace) earlier

section Results

variable {config : Config} {name : String} {w : World} {c : Component} {rs : List Release}
  {earlier later : List Moment} {m : Moment}

/-- An order of a removal is its first, and takes away the first release that was listed under the name. -/
theorem removal_orders (hchosen : chosen? config name w = some (c, .delete))
    (hlisted : ∀ m ∈ w.moments (reconcile config name).run, ∀ rs' ∈ m.listed?, rs' = rs)
    (hrun : w.moments (reconcile config name).run = earlier ++ m :: later) (horder : m.call.isOrder = true) :
    Unordered earlier ∧ ∃ r, FirstNamed c.spec.name rs r ∧ m.call = .uninstall r.name r.namespace := by
  have hcalls := (obeys_reconcile_removal hchosen).calls
  rw [hrun] at hcalls
  obtain ⟨hfirst, p, hp, rs', r, hanswered, hr, hcall⟩ := hcalls.at horder
  have hmem : p ∈ w.moments (reconcile config name).run := hrun ▸ List.mem_append_left _ hp
  obtain rfl : rs' = rs := hlisted p hmem rs' (Moment.listed?_of_answered hanswered)
  exact ⟨hfirst, r, hr, hcall⟩

/-- The finalizer goes when that release was taken away. -/
theorem removal_finalizer (hchosen : chosen? config name w = some (c, .delete))
    (hlisted : ∀ m ∈ w.moments (reconcile config name).run, ∀ rs' ∈ m.listed?, rs' = rs)
    (hown : ∃ r ∈ rs, c.Owns r) (hrun : w.moments (reconcile config name).run = earlier ++ m :: later)
    (hgone : m.Rewrites Component.hasFinalizer false) :
    ∃ r, FirstNamed c.spec.name rs r ∧ Succeeded (.uninstall r.name r.namespace) earlier := by
  have hcalls := (obeys_reconcile_order config name w).calls
  simp only [passOrder, hchosen] at hcalls
  rw [hrun] at hcalls
  have horder : DeleteOrder c earlier m := hcalls.at
  obtain ⟨p, hp, rs', hanswered, hremoved⟩ := horder.finalizer hgone
  have hmem : p ∈ w.moments (reconcile config name).run := hrun ▸ List.mem_append_left _ hp
  obtain rfl : rs' = rs := hlisted p hmem rs' (Moment.listed?_of_answered hanswered)
  obtain ⟨r, hr⟩ := exists_firstNamed_of_owns hown
  exact ⟨r, hr, hremoved r (releaseOf?_eq_some_iff.2 hr)⟩

/-- A removal that keeps to the own release, and takes it away, found it listed first. -/
theorem foremost_of_keepsToOwn (hchosen : chosen? config name w = some (c, .delete))
    (hlisted : ∀ m ∈ w.moments (reconcile config name).run, ∀ rs' ∈ m.listed?, rs' = rs)
    (hkeeps : KeepsToOwn c (w.moments (reconcile config name).run))
    (hm : m ∈ w.moments (reconcile config name).run) (horder : m.call.isOrder = true) : Foremost c rs := by
  obtain ⟨earlier, later, hrun⟩ := List.append_of_mem hm
  obtain ⟨-, r, hr, hcall⟩ := removal_orders hchosen hlisted hrun horder
  obtain ⟨hname, hspace⟩ := hkeeps.uninstall m hm _ _ hcall
  exact ⟨r, hr, hname, hspace⟩

/-- Where the own release is listed first, a removal keeps to it. -/
theorem keepsToOwn_of_foremost (hchosen : chosen? config name w = some (c, .delete))
    (hlisted : ∀ m ∈ w.moments (reconcile config name).run, ∀ rs' ∈ m.listed?, rs' = rs)
    (hown : ∃ r ∈ rs, c.Owns r) (hforemost : Foremost c rs) :
    KeepsToOwn c (w.moments (reconcile config name).run) := by
  obtain ⟨own, hfirst, howns⟩ := hforemost
  refine ⟨fun m hm release space hcall => ?_, fun earlier m later hrun hgone => ?_⟩
  · obtain ⟨earlier, later, hrun⟩ := List.append_of_mem hm
    obtain ⟨-, r, hr, hcall'⟩ := removal_orders hchosen hlisted hrun (by rw [hcall]; rfl)
    obtain rfl := hr.unique hfirst
    cases hcall.symm.trans hcall'
    exact ⟨howns.name, howns.space⟩
  · obtain ⟨r, hr, hremoved⟩ := removal_finalizer hchosen hlisted hown hrun hgone
    obtain rfl := hr.unique hfirst
    rw [howns.name, howns.space] at hremoved
    exact hremoved

/-- Where nothing is taken away the finalizer stays, since the own release is there. -/
theorem keepsToOwn_of_unordered (hchosen : chosen? config name w = some (c, .delete))
    (hlisted : ∀ m ∈ w.moments (reconcile config name).run, ∀ rs' ∈ m.listed?, rs' = rs)
    (hown : ∃ r ∈ rs, c.Owns r) (hunordered : Unordered (w.moments (reconcile config name).run)) :
    KeepsToOwn c (w.moments (reconcile config name).run) := by
  refine ⟨fun m hm release space hcall => ?_, fun earlier m later hrun hgone => ?_⟩
  · exact (hunordered.not_uninstall hm hcall).elim
  · obtain ⟨r, -, p, hp, a, hcall, -⟩ := removal_finalizer hchosen hlisted hown hrun hgone
    exact (hunordered.not_uninstall (hrun ▸ List.mem_append_left _ hp) hcall).elim

/-- Whatever faults its calls meet, a removal orders at most once, and takes away the first release that is
listed under the name; the finalizer goes only behind it. This is the own release of the component if none of
its namesakes is listed in front of it, and otherwise a removal that takes something away takes what is not
its own. -/
theorem keepsToOwn_iff (hchosen : chosen? config name w = some (c, .delete))
    (hlisted : ∀ m ∈ w.moments (reconcile config name).run, ∀ rs' ∈ m.listed?, rs' = rs)
    (hown : ∃ r ∈ rs, c.Owns r) :
    (∀ earlier m later, w.moments (reconcile config name).run = earlier ++ m :: later →
      (m.call.isOrder = true →
        Unordered earlier ∧ ∃ r, FirstNamed c.spec.name rs r ∧ m.call = .uninstall r.name r.namespace) ∧
      (m.Rewrites Component.hasFinalizer false →
        ∃ r, FirstNamed c.spec.name rs r ∧ Succeeded (.uninstall r.name r.namespace) earlier)) ∧
    (KeepsToOwn c (w.moments (reconcile config name).run) ↔
      Unordered (w.moments (reconcile config name).run) ∨ Foremost c rs) := by
  refine ⟨fun earlier m later hrun =>
    ⟨removal_orders hchosen hlisted hrun, removal_finalizer hchosen hlisted hown hrun⟩, fun hkeeps => ?_, ?_⟩
  · rcases unordered_or (w.moments (reconcile config name).run) with hunordered | ⟨m, hm, horder⟩
    · exact .inl hunordered
    · exact .inr (foremost_of_keepsToOwn hchosen hlisted hkeeps hm horder)
  · rintro (hunordered | hforemost)
    · exact keepsToOwn_of_unordered hchosen hlisted hown hunordered
    · exact keepsToOwn_of_foremost hchosen hlisted hown hforemost

/-- A namesake in another namespace that is listed first is taken away in place of the own release. -/
theorem not_keepsToOwn_of_namesake :
    ¬ KeepsToOwn ((sampleComponent "0.1.0" .installed [Component.finalizerName]).toBeRemoved)
      ((sampleWorld ((sampleComponent "0.1.0" .installed [Component.finalizerName]).toBeRemoved)
        [sampleRelease "other" "0.1.0", sampleRelease "ecosystem" "0.1.0"]).moments
          (reconcile {} "dogu-op").run) := by
  let c := (sampleComponent "0.1.0" .installed [Component.finalizerName]).toBeRemoved
  let rs := [sampleRelease "other" "0.1.0", sampleRelease "ecosystem" "0.1.0"]
  have hchosen : chosen? {} "dogu-op" (sampleWorld c rs) = some (c, .delete) := by decide +kernel
  have hlisted : ∀ m ∈ (sampleWorld c rs).moments (reconcile {} "dogu-op").run, ∀ rs' ∈ m.listed?,
      rs' = rs := by decide +kernel
  have hordered : .uninstall "dogu-op" "other" ∈
      ((sampleWorld c rs).moments (reconcile {} "dogu-op").run).map Moment.call := by decide +kernel
  obtain ⟨-, hiff⟩ := keepsToOwn_iff hchosen hlisted ⟨sampleRelease "ecosystem" "0.1.0", by simp [rs], rfl, rfl⟩
  intro hkeeps
  rcases hiff.1 hkeeps with hunordered | ⟨r, hr, howns⟩
  · obtain ⟨m, hm, hcall⟩ := List.mem_map.1 hordered
    exact hunordered.not_uninstall hm hcall
  · have hfirst : FirstNamed c.spec.name rs (sampleRelease "other" "0.1.0") := releaseOf?_eq_some_iff.1 rfl
    obtain rfl := hr.unique hfirst
    exact absurd howns.space (by decide)

end Results

end ChartOperator
