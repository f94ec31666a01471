import ChartOperator.Proofs.Lifecycle.Orders
import ChartOperator.Proofs.Lifecycle.Outcomes

set_option autoImplicit false

/-!
# Components that are left in flight

A component in flight is ignored by every later pass, until somebody else changes its status
(`Later.idle`). So a pass should not leave one. `left_in_flight` names the two ways in which it does: the
fallback of a failed operation could not be persisted, or a removal succeeded and the object is kept by the
finalizer of somebody else.
-/

namespace ChartOperator

open ComponentStore (VersionFree bump settled)
open Errand

section Acting

variable {config : Config} {name : String} {c : Component} {op : Operation} {past : List Moment} {w : World}

/-- What is not ignored is deleted if and only if somebody asked for that. -/
def Heeds (c : Component) (op : Operation) : Prop := op = .ignore ∨ (op = .delete ↔ c.isBeingDeleted = true)

theorem heeds_of_decides {replies : Replies} {chart : ChartSpec} {calls : List Call}
    (h : Decides replies c chart calls (.ok op)) : Heeds c op := by
  have hother : ∀ {op}, c.isBeingDeleted = false → op ≠ .delete → Heeds c op := fun halive hne =>
    .inr ⟨fun hop => (hne hop).elim, fun hdeleted => by cases halive.symm.trans hdeleted⟩
  cases h with
  | inFlight => exact .inl rfl
  | deleted _ hdeleted => exact .inr ⟨fun _ => hdeleted, fun _ => rfl⟩
  | again halive => exact hother halive nofun
  | absent hopen => exact hother hopen.alive nofun
  | found hopen _ _ hcompares =>
    refine hother hopen.alive ?_
    cases hcompares <;> nofun

theorem beingDeleted_of_chosen (hchosen : chosen? config name w = some (c, .delete)) :
    c.isBeingDeleted = true := by
  obtain ⟨w₁, w₂, -, hchoice, -⟩ := exists_choice hchosen
  rcases heeds_of_decides (decides_of_run hchoice) with h | h
  · cases h
  · exact h.1 rfl

/-- A pass only asks, or it carries out the operation that it chose. -/
theorem asks_or_executes (config : Config) (name : String) (w : World) :
    (∀ m ∈ w.moments (reconcile config name).run, m.call.IsQuery) ∨
      ∃ c op t reason fallback, chosen? config name w = some (c, op) ∧
        Executes config c op t reason fallback ∧ c.name = c.spec.name := by
  cases hchosen : chosen? config name w with
  | none =>
    have horder := (obeys_reconcile_order config name w).calls
    rw [passOrder, hchosen] at horder
    exact .inl horder.forall
  | some chosen =>
    obtain ⟨c, op⟩ := chosen
    obtain ⟨-, asked, hasked, hmoments⟩ := run_reconcile hchosen
    have hidle : (choiceEnd config name w c op).moments (dispatch config c op).run = [] →
        ∀ m ∈ w.moments (reconcile config name).run, m.call.IsQuery := by
      intro hnone m hm
      rw [hmoments, hnone, List.append_nil] at hm
      exact hasked m hm
    have hacts : ∀ {t reason fallback}, Executes config c op t reason fallback →
        (∀ m ∈ w.moments (reconcile config name).run, m.call.IsQuery) ∨
          ∃ c' op' t reason fallback, some (c, op) = some (c', op') ∧
            Executes config c' op' t reason fallback ∧ c'.name = c'.spec.name := by
      intro t reason fallback hop
      by_cases hname : c.name = c.spec.name
      · exact .inr ⟨c, op, t, reason, fallback, rfl, hop, hname⟩
      · refine .inl (hidle ?_)
        rw [hop.dispatch_eq]
        rw [carryOut_of_misnamed config op t reason fallback hname]
        rfl
    cases op with
    | install => exact hacts .install
    | upgrade => exact hacts .upgrade
    | delete => exact hacts .delete
    | downgrade installed requested => exact .inl (hidle rfl)
    | ignore => exact .inl (hidle rfl)

end Acting

/-! ## What a success leaves in flight -/

/-- Nobody but others keeps the object. -/
def KeptByOthers (x : Component) : Prop := x.hasFinalizer = false ∧ x.finalizers ≠ []

section Success

variable {c x : Component} {op : Operation} {o : Option Component} {es : List Edit}

theorem lifecycle_of_setStatus {l : Lifecycle} {v : Option String} (h : (Edit.setStatus l v).leaves o = some x) :
    x.lifecycle = l := by
  obtain ⟨y, -, ⟨hplace, -⟩ | ⟨-, rfl⟩⟩ := Edit.of_leaves h
  · exact hplace.elim
  · rfl

/-- Behind an installation or an upgrade the status is that of an installed component. -/
theorem lifecycle_of_edits (hes : EditsOf c op es) (hop : op ≠ .delete)
    (h : Edit.leavesAll es o = some x) : x.lifecycle = .installed := by
  cases hes with
  | install version verdict =>
    rw [installEdits, Edit.leavesAll, List.foldl_append] at h
    have hfree : VersionFree Component.lifecycle := fun _ _ => rfl
    obtain ⟨y, hy, hspared⟩ := Edit.field_of_leaves (e := .setHealth verdict (some version)) hfree
      (fun _ => rfl) h
    exact hspared.trans (lifecycle_of_setStatus hy)
  | upgrade chart => exact lifecycle_of_setStatus h
  | delete => exact (hop rfl).elim

/-- A component that is still there behind its removal is kept by somebody else. -/
theorem finalizers_of_deleteEdits (hdeleted : c.isBeingDeleted = true)
    (h : Edit.leavesAll deleteEdits (some c) = some x) : KeptByOthers x := by
  have hremoved : Edit.removeFinalizer.leaves ((Edit.setStatus .deleting none).leaves (some c)) = some x := h
  obtain ⟨y, hy, hx⟩ := Edit.of_leaves hremoved
  obtain ⟨c', hc', ⟨hplace, -⟩ | ⟨hkept, rfl⟩⟩ := Edit.of_leaves hy
  · exact hplace.elim
  obtain rfl : c = c' := Option.some.inj hc'
  rcases hx with ⟨hnot, rfl⟩ | ⟨hkept', rfl⟩
  · refine ⟨hnot, ?_⟩
    rcases hkept with hnot | hkept
    · exact (hnot hdeleted).elim
    · exact hkept
  · refine ⟨Component.hasFinalizer_removeFinalizer _, ?_⟩
    rcases hkept' with hnot | hkept'
    · exact (hnot hdeleted).elim
    · exact hkept'

/-- Clearing the backoff changes nothing else. -/
theorem field_of_cleared {α : Type} {field : Component → α} (hfield : VersionFree field)
    (hspared : ∀ x, field (Edit.clearBackoff.apply x) = field x)
    (h : Edit.leavesAll (clearEdits c) o = some x) : ∃ y, o = some y ∧ field x = field y := by
  refine Edit.field_of_leavesAll hfield (fun e he => ?_) h
  unfold clearEdits at he
  split at he
  · cases he
  · rw [List.mem_singleton.1 he]
    exact hspared

end Success

/-! ## Later passes -/

section Later

variable {config : Config} {name : String} {w u : World}

/-- The component is stored, and an operation on it is in flight. -/
def World.InFlight (w : World) (name : String) : Prop := w.Stores name fun x => x.lifecycle.isInFlight = true

/-- What may become of a world: passes over a component are made in it, and anything else happens that keeps
the component and its status, also to the faults that calls will meet. -/
inductive Later (config : Config) (name : String) (w : World) : World → Prop
  | now : Later config name w w
  | pass {u : World} (h : Later config name w u) :
    Later config name w (u.run (reconcile config name).run).2
  | other {u v : World} (h : Later config name w u)
    (hstatus : ∀ x, u.components.find? name = some x →
      ∃ y, v.components.find? name = some y ∧ y.lifecycle = x.lifecycle) :
    Later config name w v

/-- A pass reads the component and does nothing else: the read fails, or the component is ignored. -/
structure Idle (config : Config) (name : String) (u : World) : Prop where
  calls : u.moments (reconcile config name).run = [⟨u, .getComponent name⟩]
  ending : (∃ e, (u.ask (.getComponent name)).1 = .error e) ∨
    (∃ c, chosen? config name u = some (c, .ignore)) ∧
      (u.run (reconcile config name).run).1 = .finished (.ok .onChange)
  kept : u.components.Alike (u.run (reconcile config name).run).2.components

/-- A pass over a component in flight is idle. -/
theorem idle_of_inFlight (h : u.InFlight name) : Idle config name u := by
  have hcalls : u.moments (reconcile config name).run = [⟨u, .getComponent name⟩] ∧
      ((∃ e, (u.ask (.getComponent name)).1 = .error e) ∨
        (∃ c, chosen? config name u = some (c, .ignore)) ∧
          (u.run (reconcile config name).run).1 = .finished (.ok .onChange)) := by
    rcases hread : u.ask (.getComponent name) with ⟨e | x, u₁⟩
    · exact ⟨(reconcile_of_unread config hread).2, .inl ⟨e, rfl⟩⟩
    · have hflight : x.lifecycle.isInFlight = true := by
        have halike := World.alike_ask (w := u) (c := .getComponent name) rfl
        rw [hread] at halike
        obtain ⟨y, hy, hyflight⟩ := World.stores_of_alike (fun _ _ => rfl) halike h
        obtain rfl : x = y := Option.some.inj ((World.find?_of_ask hread).symm.trans hy)
        exact hyflight
      have hignored : requiredOperation x (chartSpecOf config x) = pure .ignore :=
        requiredOperation_of_inFlight hflight
      obtain ⟨hrun, hmoments⟩ := reconcile_of_read config hread
      rw [hignored] at hrun hmoments
      refine ⟨hmoments, .inr ⟨⟨x, ?_⟩, congrArg Prod.fst hrun⟩⟩
      exact chosen?_of_choice hread (by rw [hignored]; rfl)
  refine ⟨hcalls.1, hcalls.2, World.alike_run _ _ fun m hm => ?_⟩
  rw [hcalls.1] at hm
  rw [List.mem_singleton.1 hm]
  exact ⟨rfl, rfl⟩

/-- A component in flight stays in flight. -/
theorem Later.inFlight (h : Later config name w u) (hw : w.InFlight name) : u.InFlight name := by
  induction h with
  | now => exact hw
  | pass _ ih => exact World.stores_of_alike (fun _ _ => rfl) (idle_of_inFlight ih).kept ih
  | other _ hstatus ih =>
    obtain ⟨x, hx, hflight⟩ := ih
    obtain ⟨y, hy, hsame⟩ := hstatus x hx
    refine ⟨y, hy, ?_⟩
    change y.lifecycle.isInFlight = true
    rw [hsame]
    exact hflight

/-- Every later pass over a component in flight is idle. -/
theorem Later.idle (h : Later config name w u) (hw : w.InFlight name) : Idle config name u :=
  idle_of_inFlight (h.inFlight hw)

end Later

/-! ## Which components are left in flight -/

section Left

variable {config : Config} {name : String} {c x y : Component} {op : Operation} {es : List Edit}
  {outcome : Except Failure Unit} {res : Except Failure NextPass} {w w₁ w' : World}

/-- The operation that a pass over the component carries out ends with this outcome, in this world. -/
def OperationEnds (config : Config) (name : String) (w : World) (c : Component) (op : Operation)
    (outcome : Except Failure Unit) (w₁ : World) : Prop :=
  ∃ t reason fallback, chosen? config name w = some (c, op) ∧ Executes config c op t reason fallback ∧
    ((choiceEnd config name w c op).leave (.event (startEvent c op reason))).run t.run = (.finished outcome, w₁)

/-- No fallback leaves a component in flight. -/
theorem Executes.fallback_not_inFlight {t : Errand Unit} {reason : String} {fallback : Lifecycle}
    (h : Executes config c op t reason fallback) : fallback.isInFlight = false := by cases h <;> rfl

/-- The fields of an object that tell whether it is left in flight. -/
def standing (x : Component) : Lifecycle × Bool × List String := (x.lifecycle, x.hasFinalizer, x.finalizers)

theorem versionFree_standing : VersionFree standing := fun _ _ => rfl

theorem keptByOthers_congr (h : standing x = standing y) : KeptByOthers x ↔ KeptByOthers y := by
  obtain ⟨hlifecycle, hrest⟩ := Prod.mk.inj h
  obtain ⟨hhas, hfinalizers⟩ := Prod.mk.inj hrest
  rw [KeptByOthers, KeptByOthers, hhas, hfinalizers]

/-- What stands in flight behind a successful operation is being deleted, and kept by somebody else. -/
theorem kept_of_success (hchosen : chosen? config name w = some (c, op)) (hes : EditsOf c op es)
    (hheld : w₁.Holds c.name (Edit.leavesAll es (some c))) (hy : w₁.components.find? c.name = some y)
    (hx : standing x = standing y) (hflight : x.lifecycle.isInFlight = true) :
    op = .delete ∧ KeptByOthers x := by
  obtain ⟨z, hz, halike⟩ := hheld.of_find? hy
  have hx := hx.trans (versionFree_standing.eq_of_alike halike)
  by_cases hop : op = .delete
  · subst hop
    cases hes
    exact ⟨rfl, (keptByOthers_congr hx).2 (finalizers_of_deleteEdits (beingDeleted_of_chosen hchosen) hz)⟩
  · rw [(Prod.mk.inj hx).1, lifecycle_of_edits hes hop hz] at hflight
    cases hflight

/-- A pass over a component that is not in flight leaves it so in two cases only: the operation failed, and the
last call on the component failed for good, which was to persist the fallback; or the removal succeeded, and
the object is kept by the finalizer of somebody else. Every later pass over the component is idle then. -/
theorem left_in_flight (hstored : w.Stores name fun x => x.lifecycle.isInFlight = false)
    (hrun : w.run (reconcile config name).run = (.finished res, w'))
    (htrue : ∀ m ∈ w.moments (reconcile config name).run, m.Truthful) (hleft : w'.InFlight name) :
    (∃ c op outcome w₁, OperationEnds config name w c op outcome w₁ ∧
      ((∃ e e', outcome = .error e ∧ res = .error e' ∧
          Unsettled name w₁ (w.moments (reconcile config name).run) w' e') ∨
        op = .delete ∧ outcome = .ok () ∧ w'.Stores name KeptByOthers)) ∧
    ∀ u, Later config name w' u → Idle config name u := by
  refine ⟨?_, fun u hu => hu.idle hleft⟩
  obtain ⟨x, hx, hflight⟩ := hleft
  rcases asks_or_executes config name w with hasks | ⟨c, op, t, reason, fallback, hchosen, hop, hname⟩
  · -- The pass only asked, so the status is what it was.
    have halike := World.alike_run w _ hasks
    rw [hrun] at halike
    obtain ⟨y, hy, hyflight⟩ := World.stores_of_alike (fun _ _ => rfl) halike hstored
    obtain rfl : x = y := Option.some.inj (hx.symm.trans hy)
    rw [hflight] at hyflight
    cases hyflight
  obtain ⟨outcome, w₁, hoperation, hsuccess, hconcluded⟩ := concluded_reconcile hchosen hop hname hrun htrue
  have hends : OperationEnds config name w c op outcome w₁ := ⟨t, reason, fallback, hchosen, hop, hoperation⟩
  obtain rfl : c.name = name := name_of_chosen hchosen
  refine ⟨c, op, outcome, w₁, hends, ?_⟩
  cases hconcluded with
  | fellBack hpersists _ =>
    obtain ⟨m, -, y, z, -, -, hfind⟩ := hpersists
    have hfallback : x.lifecycle = fallback := by
      rw [ComponentStore.settled_eq_some (hfind.symm.trans hx)]
      rfl
    rw [hfallback, hop.fallback_not_inFlight] at hflight
    cases hflight
  | cleared _ hheld _ =>
    obtain ⟨es, hes, hheld₁⟩ := hsuccess () rfl
    obtain ⟨y, hy, halike⟩ := hheld.of_find? hx
    obtain ⟨z, hz, hspared⟩ := field_of_cleared versionFree_standing (fun _ => rfl) hy
    have hsame := (versionFree_standing.eq_of_alike halike).trans hspared
    obtain ⟨hdelete, hkept⟩ := kept_of_success hchosen hes hheld₁ hz hsame hflight
    exact .inr ⟨hdelete, rfl, x, hx, hkept⟩
  | @unsettled outcome e hunsettled _ =>
    cases outcome with
    | error f => exact .inl ⟨f, e, rfl, rfl, hunsettled⟩
    | ok u =>
      -- The backoff could not be cleared, so the object is as the operation left it.
      obtain ⟨es, hes, hheld₁⟩ := hsuccess u rfl
      obtain ⟨-, -, -, -, -, halike⟩ := hunsettled
      obtain ⟨y, hy, hsame⟩ := World.Holds.of_find? (halike c.name) hx
      obtain ⟨hdelete, hkept⟩ := kept_of_success hchosen hes hheld₁ hy
        (versionFree_standing.eq_of_alike hsame) hflight
      exact .inr ⟨hdelete, rfl, x, hx, hkept⟩

/-- A removal is left in flight by the finalizer of somebody else. -/
theorem left_in_flight_deleting :
    let w := sampleWorld (sampleComponent "0.1.0" .installed ["component-finalizer", "other"]).toBeRemoved []
    ∃ w', w.run (reconcile {} "dogu-op").run = (.finished (.ok .onChange), w') ∧
      w'.Stores "dogu-op" KeptByOthers ∧
      ∀ u, Later {} "dogu-op" w' u → Idle {} "dogu-op" u := by
  intro w
  have hrun := World.run_of_succeedsWith (w := w) (t := reconcile {} "dogu-op") (a := .onChange)
    (by decide +kernel)
  have hleft : ((w.run (reconcile {} "dogu-op").run).2.components.find? "dogu-op").map Component.lifecycle =
      some .deleting := by decide +kernel
  obtain ⟨x, hx, hdeleting⟩ := Option.map_eq_some_iff.1 hleft
  obtain ⟨⟨c, op, outcome, w₁, -, ⟨e, e', -, hfailed, -⟩ | ⟨-, -, hkept⟩⟩, hlater⟩ := left_in_flight
    ⟨_, find?_sampleWorld _ _, by decide⟩ hrun (World.truthful_moments _ (faultFree_sampleWorld _ _).honest)
    ⟨x, hx, (congrArg Lifecycle.isInFlight hdeleting).trans rfl⟩
  · cases hfailed
  · exact ⟨_, hrun, hkept, hlater⟩

end Left

end ChartOperator
