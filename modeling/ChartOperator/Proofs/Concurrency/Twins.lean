import ChartOperator.Lifecycle.Reconcile
import ChartOperator.Proofs.Concurrency.Tasks
import ChartOperator.Proofs.Lifecycle.Quiet

set_option autoImplicit false

/-!
# Passes over objects with the same core

Two programs are twins if they do the same as long as they read objects with the same core: they make the same
calls, the same edits of one component whose answers they do not look at, and leave notes with the same core.
A pass is its own twin (`twins_reconcile`). The edits are counted, since each is a write at most.
-/

namespace ChartOperator

/-- The note, of whose component only the core is told. -/
def Note.core : Note → Note
  | .event e => .event e.core
  | .count m => .count m

namespace Program

/-- The programs do the same where they read objects of a name that have the same core, with so many edits at
most. -/
inductive Twins {α : Type} (n : String) : Nat → Program α → Program α → Prop
  | done {k} (a : α) : Twins n k (done a) (done a)
  | read {k next next'}
    (h : ∀ a b : Except Failure Component, a.map Component.core = b.map Component.core →
      (∀ x, a = .ok x → x.name = n) → Twins n k (next a) (next' b)) :
    Twins n k (call (.getComponent n) next) (call (.getComponent n) next')
  | call {k c next next'} (hc : c.channel.ofComponents = false) (h : ∀ a, Twins n k (next a) (next' a)) :
    Twins n k (call c next) (call c next')
  | edit {k next next'} (e : Edit)
    (h : ∀ r r' : Except Failure (Option Component), (r.map fun _ => ()) = (r'.map fun _ => ()) →
      Twins n k (next r) (next' r')) :
    Twins n (k + 1) (mutate (e.mutation n) next) (mutate (e.mutation n) next')
  | note {k i i' next next'} (hi : i.core = i'.core) (h : Twins n k next next') :
    Twins n k (note i next) (note i' next')

variable {α β : Type} {n : String} {k l : Nat} {p q : Program α}

theorem Twins.mono {k' : Nat} (h : Twins n k p q) (hk : k ≤ k') : Twins n k' p q := by
  induction h generalizing k' with
  | done a => exact .done a
  | read _ ih => exact .read fun a b hab hname => ih a b hab hname hk
  | call hc _ ih => exact .call hc fun a => ih a hk
  | edit e _ ih =>
    obtain ⟨k', rfl⟩ := Nat.exists_eq_add_of_lt hk
    exact .edit e fun r r' hr => ih r r' hr (by omega)
  | note hi _ ih => exact .note hi (ih hk)

theorem twins_andThen {f g : α → Program β} (h : Twins n k p q) (hf : ∀ a, Twins n l (f a) (g a)) :
    Twins n (k + l) (p.andThen f) (q.andThen g) := by
  induction h with
  | done a => exact (hf a).mono (Nat.le_add_left _ _)
  | read _ ih => exact .read ih
  | call hc _ ih => exact .call hc ih
  | edit e _ ih =>
    rw [Nat.add_right_comm]
    exact .edit e ih
  | note hi _ ih => exact .note hi ih

/-- A program that inquires is its own twin. -/
theorem twins_self (h : p.Confined (fun c => c.isInquiry = true) fun _ => False) : Twins n 0 p p := by
  induction p with
  | done a => exact .done a
  | call c next ih =>
    obtain ⟨hc, hnext⟩ := h
    refine .call ?_ fun a => ih a (hnext a)
    cases c <;> first | rfl | cases hc
  | mutate m next ih => exact h.1.elim
  | note i next ih => exact .note rfl (ih h)

end Program

namespace Errand

variable {α β : Type} {n : String} {k l : Nat} {t t' : Errand α} {f f' : α → Errand β}

/-- The errands do the same where they read objects of a name that have the same core. -/
abbrev Twins (n : String) (k : Nat) (t t' : Errand α) : Prop := Program.Twins n k t.run t'.run

theorem twins_pure (a : α) : Twins n k (pure a : Errand α) (pure a) := .done _

theorem twins_throw (e : Failure) : Twins n k (throw e : Errand α) (throw e) := .done _

theorem twins_bind (h : Twins n k t t') (hf : ∀ a, Twins n l (f a) (f' a)) :
    Twins n (k + l) (t >>= f) (t' >>= f') := by
  refine Program.twins_andThen h fun r => ?_
  cases r with
  | ok a => exact hf a
  | error e => exact .done _

theorem twins_outcome (h : Twins n k t t') : Twins n k t.outcome t'.outcome :=
  Program.twins_andThen (l := 0) h fun _ => .done _

theorem twins_mapFailure {g : Failure → Failure} (h : Twins n k t t') :
    Twins n k (t.mapFailure g) (t'.mapFailure g) :=
  Program.twins_andThen (l := 0) h fun _ => .done _

theorem twins_discard (h : Twins n k t t') : Twins n k (discard t) (discard t') :=
  Program.twins_andThen (l := 0) h fun r => by cases r <;> exact .done _

theorem twins_of_inquires (h : Inquires t) : Twins n 0 t t := Program.twins_self h

/-- A step that inquires. -/
theorem twins_inquiry (ht : Inquires t) (hf : ∀ a, Twins n k (f a) (f' a)) :
    Twins n k (t >>= f) (t >>= f') := by
  have hbind := twins_bind (twins_of_inquires (n := n) ht) hf
  rwa [Nat.zero_add] at hbind

/-- A step that asks about the charts, or orders. -/
theorem twins_ask {c : Call} {g : Failure → Failure} {f f' : c.Result → Errand β}
    (hc : c.channel.ofComponents = false) (hf : ∀ a, Twins n k (f a) (f' a)) :
    Twins n k ((ask c).mapFailure g >>= f) ((ask c).mapFailure g >>= f') := by
  refine .call hc fun a => ?_
  cases a with
  | ok a => exact hf a
  | error e => exact .done _

/-- An edit whose answer is not looked at. -/
theorem twins_edit (e : Edit) {g : Failure → Failure} :
    Twins n 1 (discard ((change (e.mutation n)).mapFailure g)) (discard ((change (e.mutation n)).mapFailure g)) := by
  refine .edit e fun r r' hr => ?_
  cases r with
  | ok y =>
    cases r' with
    | ok y' => exact .done _
    | error f => cases hr
  | error f =>
    cases r' with
    | ok y' => cases hr
    | error f' =>
      cases hr
      exact .done _

theorem twins_edit_step (e : Edit) {g : Failure → Failure} {f f' : Unit → Errand β}
    (hf : ∀ a, Twins n k (f a) (f' a)) :
    Twins n (k + 1) (discard ((change (e.mutation n)).mapFailure g) >>= f)
      (discard ((change (e.mutation n)).mapFailure g) >>= f') := by
  rw [Nat.add_comm]
  exact twins_bind (twins_edit e) hf

theorem twins_announce {c c' : Component} {severity : Severity} {reason message : String}
    {f f' : Unit → Errand β} (hc : c.core = c'.core) (hf : ∀ a, Twins n k (f a) (f' a)) :
    Twins n k (announce c severity reason message >>= f) (announce c' severity reason message >>= f') := by
  refine .note ?_ (hf ())
  show Note.event ⟨c.core, severity, reason, message⟩ = .event ⟨c'.core, severity, reason, message⟩
  rw [hc]

theorem twins_count {m : Metric} {f f' : Unit → Errand β} (hf : ∀ a, Twins n k (f a) (f' a)) :
    Twins n k (count m >>= f) (count m >>= f') :=
  .note rfl (hf ())

end Errand

/-! ## The parts of a pass -/

section Pass

open Errand

variable {config : Config} {n : String} {c c' : Component}

theorem twins_settledVersion (c : Component) : Twins c.name 1 (settledVersion c) (settledVersion c) := by
  unfold settledVersion
  split
  · exact twins_pure _
  · refine twins_inquiry (confined_mapFailure (inquires_deployedVersionOf c)) fun version => ?_
    exact twins_edit_step (.setVersion version) fun _ => twins_pure _

theorem twins_updateHealth (n space : String) (installed : Option String) :
    Twins n 1 (updateHealth n space installed) (updateHealth n space installed) := by
  unfold updateHealth
  refine twins_inquiry (inquires_findWorkloads n space) fun ws => ?_
  refine twins_edit_step (.setHealth (Workload.verdict ws) installed) fun _ => ?_
  exact twins_count fun _ => twins_pure _

theorem twins_install (config : Config) (c : Component) :
    Twins c.name 5 (install config c) (install config c) := by
  unfold install
  extract_lets chart space
  refine twins_ask rfl fun _ => ?_
  refine twins_edit_step (.setStatus .installing none) fun _ => ?_
  refine twins_edit_step .addFinalizer fun _ => ?_
  refine twins_ask rfl fun _ => ?_
  refine twins_bind (k := 1) (l := 2) (twins_settledVersion c) fun version => ?_
  refine twins_edit_step (.setStatus .installed none) fun _ => ?_
  exact twins_discard (twins_mapFailure (twins_updateHealth c.name space (some version)))

theorem twins_upgrade (config : Config) (c : Component) :
    Twins c.name 2 (upgrade config c) (upgrade config c) := by
  unfold upgrade
  refine twins_inquiry (inquires_upgradeSpec config c) fun chart => ?_
  refine twins_ask rfl fun _ => ?_
  refine twins_edit_step (.setStatus .upgrading none) fun _ => ?_
  refine twins_ask rfl fun _ => ?_
  exact twins_edit (.setStatus .installed _)

theorem twins_delete (c : Component) : Twins c.name 2 (delete c) (delete c) := by
  unfold delete
  refine twins_edit_step (.setStatus .deleting none) fun _ => ?_
  refine twins_inquiry (confined_mapFailure (inquires_findRelease c)) fun found => ?_
  cases found with
  | none => exact twins_edit .removeFinalizer
  | some r => exact twins_ask rfl fun _ => twins_edit .removeFinalizer

theorem twins_settle (hc : c.core = c'.core) (outcome : Except Failure Unit) (fallback : Lifecycle) :
    Twins c.name 1 (settle config outcome c fallback) (settle config outcome c' fallback) := by
  have hname : c.name = c'.name := Component.field_of_core (fun _ => rfl) hc
  have hclear : clearBackoff c = clearBackoff c' := Component.field_of_core (fun _ => rfl) hc
  have hcleared : Twins c.name 1 (clearBackoff c) (clearBackoff c) := by
    unfold clearBackoff
    split
    · exact twins_pure _
    · exact twins_edit .clearBackoff
  unfold settle
  split
  · rw [← hclear]
    exact twins_bind (l := 0) hcleared fun _ => twins_pure _
  · rw [← hname]
    refine twins_edit_step (.fallBack fallback config.backoff) fun _ => ?_
    refine twins_announce hc fun _ => ?_
    exact twins_count fun _ => twins_pure _
  · rw [← hclear]
    exact twins_bind (l := 0) hcleared fun _ => twins_throw _

theorem twins_carryOut (hc : c.core = c'.core) (op : Operation) {t : Errand Unit} (reason : String)
    (fallback : Lifecycle) (ht : Twins c.name 5 t t) :
    Twins c.name 6 (carryOut config c op t reason fallback) (carryOut config c' op t reason fallback) := by
  have hnames : (c.name, c.spec.name) = (c'.name, c'.spec.name) :=
    Component.field_of_core (f := fun x => (x.name, x.spec.name)) (fun _ => rfl) hc
  obtain ⟨hname, hspec⟩ := Prod.mk.inj hnames
  have hvalid : Twins c.name 0 (validateName c) (validateName c') := by
    unfold validateName
    rw [hname, hspec]
    split
    · exact twins_pure _
    · exact twins_announce hc fun _ => twins_throw _
  refine twins_bind (k := 0) (l := 6) hvalid fun _ => ?_
  refine twins_announce hc fun _ => ?_
  refine twins_bind (k := 5) (l := 1) (twins_outcome ht) fun outcome => ?_
  cases outcome with
  | ok u => exact twins_announce hc fun _ => twins_settle hc _ fallback
  | error e =>
    refine twins_count fun _ => ?_
    exact twins_announce hc fun _ => twins_settle hc _ fallback

theorem twins_dispatch (hc : c.core = c'.core) (op : Operation) :
    Twins c.name 6 (dispatch config c op) (dispatch config c' op) := by
  have hname : c.name = c'.name := Component.field_of_core (fun _ => rfl) hc
  cases op with
  | install =>
    have hsame : install config c = install config c' := Component.field_of_core (fun _ => rfl) hc
    unfold dispatch
    rw [← hsame]
    exact twins_carryOut hc .install _ _ (twins_install config c)
  | upgrade =>
    have hsame : upgrade config c = upgrade config c' := Component.field_of_core (fun _ => rfl) hc
    unfold dispatch
    rw [← hsame]
    exact twins_carryOut hc .upgrade _ _ ((twins_upgrade config c).mono (by decide))
  | delete =>
    have hsame : delete c = delete c' := Component.field_of_core (fun _ => rfl) hc
    unfold dispatch
    rw [← hsame]
    exact twins_carryOut hc .delete _ _ ((twins_delete c).mono (by decide))
  | downgrade installed requested =>
    unfold dispatch
    rw [← hname]
    exact twins_announce hc fun _ => twins_throw _
  | ignore => exact twins_pure _

/-- A pass does the same over objects with the same core. -/
theorem twins_reconcile (config : Config) (name : String) :
    Twins name 6 (reconcile config name) (reconcile config name) := by
  refine .read fun a b hab hname => ?_
  cases a with
  | error e =>
    cases b with
    | ok y => cases hab
    | error f =>
      cases hab
      show Twins name 6 (if e.isNotFound then pure NextPass.onChange else throw e : Errand NextPass)
        (if e.isNotFound then pure NextPass.onChange else throw e : Errand NextPass)
      split
      · exact twins_pure _
      · exact twins_throw _
  | ok c =>
    cases b with
    | error f => cases hab
    | ok c' =>
      have hc : c.core = c'.core := Except.ok.inj hab
      obtain rfl := hname c rfl
      have hsame : requiredOperation c (chartSpecOf config c) = requiredOperation c' (chartSpecOf config c') :=
        Component.field_of_core (f := fun x => requiredOperation x (chartSpecOf config x)) (fun _ => rfl) hc
      show Twins c.name 6 (requiredOperation c (chartSpecOf config c) >>= _)
        (requiredOperation c' (chartSpecOf config c') >>= _)
      rw [← hsame]
      refine twins_inquiry (inquires_requiredOperation c _) fun op => ?_
      exact twins_count fun _ => twins_dispatch hc op

end Pass

end ChartOperator
