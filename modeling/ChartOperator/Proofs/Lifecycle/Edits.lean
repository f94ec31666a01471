import ChartOperator.Proofs.Concurrency.LostUpdates
import ChartOperator.Proofs.Lifecycle.Quiet
import ChartOperator.Proofs.World.Assurances

set_option autoImplicit false

/-!
# What edits leave of a stored object

Versions apart, what a world holds under a name (`World.Holds`) after a change is known from what it held
before: `Edit.leaves` computes it, and `assures_edit` says that a change which succeeds leaves just that,
however many races it lost. One that fails leaves the object as it was.

A failure is told by the last call of the change (`obeys_change_error`).
-/

namespace ChartOperator

open ComponentStore (VersionFree bump settled withVersion)
open Errand

/-! ## Edits of objects -/

theorem ComponentStore.VersionFree.eq_of_alike {α : Type} {field : Component → α} {x y : Component}
    (hfield : VersionFree field) (h : withVersion x "" = withVersion y "") : field x = field y := by
  rw [← hfield x "", h, hfield y ""]

/-- Whether an object is removed or stored depends on the object apart from its version, and so does what is
stored. -/
theorem map_settled_congr {x y : Component} (h : withVersion x "" = withVersion y "") :
    (settled x).map (withVersion · "") = (settled y).map (withVersion · "") := by
  have hfree : VersionFree fun z => z.isBeingDeleted && z.finalizers.isEmpty := fun _ _ => rfl
  have hgone : (x.isBeingDeleted && x.finalizers.isEmpty) = (y.isBeingDeleted && y.finalizers.isEmpty) :=
    hfree.eq_of_alike h
  rw [settled, settled, hgone]
  split
  · rfl
  · exact congrArg some h

namespace Mutation

/-- What a change leaves of an object: it need not be written, or what is written is settled. -/
def leaves (m : Mutation) (o : Option Component) : Option Component :=
  o.bind fun x =>
    match m.edit x with
    | none => some x
    | some wr => settled (wr.onto x)

theorem leaves_unneeded {m : Mutation} {x : Component} (h : m.edit x = none) :
    m.leaves (some x) = some x := by
  simp only [leaves, Option.bind_some, h]

theorem leaves_written {m : Mutation} {x : Component} {wr : Write} (h : m.edit x = some wr) :
    m.leaves (some x) = settled (wr.onto x) := by
  simp only [leaves, Option.bind_some, h]

/-- A change does not look at the version of an object. -/
def Blind (m : Mutation) : Prop :=
  ∀ x y, withVersion x "" = withVersion y "" →
    (m.leaves (some x)).map (withVersion · "") = (m.leaves (some y)).map (withVersion · "")

theorem Blind.leaves {m : Mutation} (hm : m.Blind) {o o' : Option Component}
    (h : o.map (withVersion · "") = o'.map (withVersion · "")) :
    (m.leaves o).map (withVersion · "") = (m.leaves o').map (withVersion · "") := by
  cases o with
  | none =>
    cases o' with
    | none => rfl
    | some y => cases h
  | some x =>
    cases o' with
    | none => cases h
    | some y => exact hm x y (Option.some.inj h)

end Mutation

namespace Edit

variable {e : Edit} {n : String} {x y : Component} {o : Option Component}

instance (e : Edit) (x : Component) : Decidable (e.InPlace x) :=
  match e with
  | addFinalizer => inferInstanceAs (Decidable (x.hasFinalizer = true))
  | removeFinalizer => inferInstanceAs (Decidable (x.hasFinalizer = false))
  | setStatus _ _ | setVersion _ | setHealth _ _ | fallBack _ _ | clearBackoff =>
    inferInstanceAs (Decidable False)

theorem not_inPlace_of_edit {wr : Write} (h : (e.mutation n).edit x = some wr) : ¬ e.InPlace x := by
  cases e with
  | addFinalizer =>
    obtain ⟨hnot, -⟩ := Mutation.edit_addFinalizer h
    exact Bool.eq_false_iff.1 hnot
  | removeFinalizer =>
    obtain ⟨hhas, -⟩ := Mutation.edit_removeFinalizer h
    exact fun hnot => Bool.eq_false_iff.1 hnot hhas
  | _ => exact id

theorem inPlace_congr (e : Edit) (h : withVersion x "" = withVersion y "") : e.InPlace x ↔ e.InPlace y := by
  have hhas : x.hasFinalizer = y.hasFinalizer := ComponentStore.VersionFree.eq_of_alike (fun _ _ => rfl) h
  cases e with
  | addFinalizer => exact iff_of_eq (congrArg (· = true) hhas)
  | removeFinalizer => exact iff_of_eq (congrArg (· = false) hhas)
  | _ => exact Iff.rfl

/-- An edit does not look at the version. -/
theorem withVersion_apply (e : Edit) (x : Component) (v : String) :
    withVersion (e.apply x) v = e.apply (withVersion x v) := by
  cases e with
  | addFinalizer =>
    have hhas : (withVersion x v).hasFinalizer = x.hasFinalizer := rfl
    rw [apply, apply, Component.addFinalizer, Component.addFinalizer, hhas]
    split <;> rfl
  | _ => rfl

theorem apply_congr (e : Edit) (h : withVersion x "" = withVersion y "") :
    withVersion (e.apply x) "" = withVersion (e.apply y) "" := by
  rw [withVersion_apply, h, ← withVersion_apply]

/-- What an edit leaves of an object. -/
def leaves (e : Edit) (o : Option Component) : Option Component :=
  o.bind fun x => if e.InPlace x then some x else settled (e.apply x)

/-- What edits leave, one after the other. -/
def leavesAll (es : List Edit) (o : Option Component) : Option Component := es.foldl (fun o e => e.leaves o) o

theorem leaves_mutation (e : Edit) (n : String) (o : Option Component) :
    (e.mutation n).leaves o = e.leaves o := by
  refine congrArg o.bind (funext fun x => ?_)
  cases hedit : (e.mutation n).edit x with
  | none => exact (if_pos (inPlace_of_edit hedit)).symm
  | some wr =>
    dsimp only
    rw [if_neg (not_inPlace_of_edit hedit), onto_of_edit hedit]

theorem blind_mutation (e : Edit) (n : String) : (e.mutation n).Blind := by
  intro x y h
  rw [leaves_mutation, leaves_mutation]
  change (if e.InPlace x then some x else settled (e.apply x)).map (withVersion · "") =
    (if e.InPlace y then some y else settled (e.apply y)).map (withVersion · "")
  by_cases hx : e.InPlace x
  · rw [if_pos hx, if_pos ((inPlace_congr e h).1 hx)]
    exact congrArg some h
  · rw [if_neg hx, if_neg (mt (inPlace_congr e h).2 hx)]
    exact map_settled_congr (apply_congr e h)

theorem leaves_congr {o' : Option Component} (e : Edit)
    (h : o.map (withVersion · "") = o'.map (withVersion · "")) :
    (e.leaves o).map (withVersion · "") = (e.leaves o').map (withVersion · "") := by
  have hblind := (e.blind_mutation "").leaves h
  rw [leaves_mutation, leaves_mutation] at hblind
  exact hblind

theorem leavesAll_congr {o' : Option Component} (es : List Edit)
    (h : o.map (withVersion · "") = o'.map (withVersion · "")) :
    (leavesAll es o).map (withVersion · "") = (leavesAll es o').map (withVersion · "") := by
  induction es generalizing o o' with
  | nil => exact h
  | cons e es ih => exact ih (leaves_congr e h)

/-- What an edit leaves is the object with the edit in place, or the edited object with a new version. -/
theorem of_leaves (h : e.leaves o = some y) :
    ∃ x, o = some x ∧ ((e.InPlace x ∧ y = x) ∨
      (¬ (e.apply x).isBeingDeleted = true ∨ (e.apply x).finalizers ≠ []) ∧ y = bump (e.apply x)) := by
  obtain ⟨x, rfl, hx⟩ := Option.bind_eq_some_iff.1 h
  refine ⟨x, rfl, ?_⟩
  split at hx
  · next hplace => exact .inl ⟨hplace, (Option.some.inj hx).symm⟩
  · refine .inr ⟨?_, ComponentStore.settled_eq_some hx⟩
    by_cases hdeleted : (e.apply x).isBeingDeleted = true
    · refine .inr fun hempty => ?_
      simp [settled, hdeleted, hempty] at hx
    · exact .inl hdeleted

/-- A field that an edit spares is that of the object before it. -/
theorem field_of_leaves {α : Type} {field : Component → α} (hfield : VersionFree field)
    (hspared : ∀ x, field (e.apply x) = field x) (h : e.leaves o = some y) :
    ∃ x, o = some x ∧ field y = field x := by
  obtain ⟨x, rfl, ⟨-, rfl⟩ | ⟨-, rfl⟩⟩ := of_leaves h
  · exact ⟨y, rfl, rfl⟩
  · exact ⟨x, rfl, (hfield.bump _).trans (hspared x)⟩

theorem field_of_leavesAll {α : Type} {field : Component → α} (hfield : VersionFree field) {es : List Edit}
    (hspared : ∀ e ∈ es, ∀ x, field (Edit.apply e x) = field x) (h : leavesAll es o = some y) :
    ∃ x, o = some x ∧ field y = field x := by
  induction es generalizing o with
  | nil => exact ⟨y, h, rfl⟩
  | cons e es ih =>
    obtain ⟨x, hx, hy⟩ := ih (fun e' he' => hspared e' (List.mem_cons_of_mem _ he')) h
    obtain ⟨x', rfl, hx'⟩ := field_of_leaves hfield (hspared e List.mem_cons_self) hx
    exact ⟨x', rfl, hy.trans hx'⟩

/-! ### Objects that nobody deletes -/

/-- The object with edits made, one after the other. -/
def applyAll (es : List Edit) (x : Component) : Component := es.foldl (fun x e => e.apply x) x

/-- No edit asks for the object to be removed. -/
theorem isBeingDeleted_apply (e : Edit) (x : Component) : (e.apply x).isBeingDeleted = x.isBeingDeleted := by
  cases e with
  | addFinalizer =>
    rw [apply, Component.addFinalizer]
    split <;> rfl
  | _ => rfl

/-- A field that the edits spare is that of the object before them. -/
theorem field_applyAll {α : Type} {field : Component → α} {es : List Edit}
    (hspared : ∀ e ∈ es, ∀ x, field (Edit.apply e x) = field x) : field (applyAll es x) = field x := by
  induction es generalizing x with
  | nil => rfl
  | cons e es ih =>
    exact (ih fun e' he' => hspared e' (List.mem_cons_of_mem _ he')).trans (hspared e List.mem_cons_self x)

/-- No edit says where the release of an object belongs. -/
theorem deployNamespace_apply (e : Edit) (x : Component) :
    (e.apply x).deployNamespace = x.deployNamespace := by
  cases e with
  | addFinalizer =>
    rw [apply, Component.addFinalizer]
    split <;> rfl
  | _ => rfl

/-- Of an object that nobody deletes an edit leaves the edited object. -/
theorem leaves_of_alive (halive : x.isBeingDeleted = false) (he : e ≠ .removeFinalizer) :
    (e.leaves (some x)).map (withVersion · "") = some (withVersion (e.apply x) "") := by
  rw [leaves, Option.bind_some]
  split
  · next hplace =>
    cases e with
    | addFinalizer =>
      have hhas : x.hasFinalizer = true := hplace
      rw [apply, Component.addFinalizer, if_pos hhas]
      rfl
    | removeFinalizer => exact (he rfl).elim
    | _ => exact hplace.elim
  · rw [ComponentStore.settled_of_not_deleted ((isBeingDeleted_apply e x).trans halive)]
    rfl

theorem leavesAll_of_alive {es : List Edit} (halive : x.isBeingDeleted = false)
    (hes : ∀ e ∈ es, e ≠ .removeFinalizer) :
    (leavesAll es (some x)).map (withVersion · "") = some (withVersion (applyAll es x) "") := by
  induction es generalizing x with
  | nil => rfl
  | cons e es ih =>
    have hfirst : (e.leaves (some x)).map (withVersion · "") = (some (e.apply x)).map (withVersion · "") :=
      leaves_of_alive halive (hes e List.mem_cons_self)
    have hrest := ih ((isBeingDeleted_apply e x).trans halive) fun e' he' => hes e' (List.mem_cons_of_mem _ he')
    exact (leavesAll_congr es hfirst).trans hrest

end Edit

/-! ## What a world holds -/

namespace World

variable {w w' : World} {n : String} {o o' : Option Component}

/-- Versions apart, this is what the world stores under a name. -/
def Holds (w : World) (n : String) (o : Option Component) : Prop :=
  (w.components.find? n).map (withVersion · "") = o.map (withVersion · "")

theorem holds_self (w : World) (n : String) : w.Holds n (w.components.find? n) := rfl

theorem Holds.of_alike (h : w.Holds n o) (halike : w.components.Alike w'.components) : w'.Holds n o :=
  (halike n).trans h

/-- What is stored is what is held, a version of it. -/
theorem Holds.of_find? {x : Component} (h : w.Holds n o) (hx : w.components.find? n = some x) :
    ∃ y, o = some y ∧ withVersion x "" = withVersion y "" := by
  rw [Holds, hx] at h
  obtain ⟨y, rfl, hy⟩ := Option.map_eq_some_iff.1 h.symm
  exact ⟨y, rfl, hy.symm⟩

theorem Holds.eq_none (h : w.Holds n o) (hnone : w.components.find? n = none) : o = none := by
  rw [Holds, hnone] at h
  exact Option.map_eq_none_iff.1 h.symm

theorem Holds.leave (h : w.Holds n o) (note : Note) : (w.leave note).Holds n o := by cases note <;> exact h

end World

/-! ## Changes -/

namespace Moment

/-- The call reads or writes the component with a name, and fails. -/
def Fails (m : Moment) (n : String) (e : Failure) : Prop :=
  m.Answered (.getComponent n) (.error e) ∨
    ∃ wr : Write, wr.component.name = n ∧ m.call = wr.call ∧ (m.before.store wr).1 = .error e

end Moment

section Changes

variable {m : Mutation} {e : Edit} {n : String} {o : Option Component} {past : List Moment} {w : World}

/-- A change that succeeds leaves what it makes of the object; one that fails leaves the object. A change for which a
missing object needs none may be lied to about that. -/
theorem obeys_change_leaves (hm : m.Sound) (hblind : m.Blind) (hheld : w.Holds m.target o) :
    Obeys (fun _ _ => True)
      (fun r past' w' => (m.missingIsDone = true → ∀ p ∈ past', p.Truthful) →
        match r with
        | .ok _ => w'.Holds m.target (m.leaves o)
        | .error _ => w'.Holds m.target o)
      (change m) past w := by
  refine obeys_change (fun _ w => w.Holds m.target o) hheld fun past w hheld => ?_
  have hread : ∀ r w', w.ask (.getComponent m.target) = (r, w') → w'.Holds m.target o := by
    intro r w' h
    obtain rfl : (w.ask (.getComponent m.target)).2 = w' := congrArg Prod.snd h
    exact hheld.of_alike (World.alike_ask rfl)
  have hmade : ∀ fresh w', w.ask (.getComponent m.target) = (.ok fresh, w') →
      (m.leaves (some fresh)).map (withVersion · "") = (m.leaves o).map (withVersion · "") := by
    intro fresh w' h
    obtain ⟨y, rfl, hy⟩ := (hread _ _ h).of_find? (World.find?_of_ask h)
    exact hblind fresh y hy
  refine ⟨trivial, ?_, ?_, fun _ _ _ _ _ => trivial, ?_, ?_⟩
  · intro f w' h
    refine ⟨hread _ _ h, fun htrue => ?_⟩
    by_cases hdone : (m.missingIsDone && f.isNotFound) = true
    · rw [if_pos hdone]
      obtain ⟨hmissing, hgone⟩ := Bool.and_eq_true_iff.1 hdone
      have hanswer : (w.perform (.getComponent m.target)).1 = .answered (.error f) := by
        rw [World.answered_perform w rfl, h]
      have hnone := htrue hmissing ⟨w, .getComponent m.target⟩ (by simp) m.target f ⟨rfl, hanswer⟩ hgone
      obtain rfl := hheld.eq_none hnone
      exact hread _ _ h
    · rw [if_neg hdone]
      exact hread _ _ h
  · intro fresh w' h hedit _
    have hleft := hmade fresh w' h
    rw [Mutation.leaves_unneeded hedit] at hleft
    have hheld' : w'.Holds m.target (some fresh) := by
      rw [World.Holds, World.find?_of_ask h]
    exact hheld'.trans hleft
  · intro fresh w' wr f h hedit hres
    have hafter := (hread _ _ h).of_alike (World.alike_store_error hres)
    exact ⟨hafter, fun _ => hafter⟩
  · intro fresh w' wr y h hedit hres _
    have hleft := hmade fresh w' h
    rw [Mutation.leaves_written hedit] at hleft
    have hfind := World.find?_store hm (World.find?_of_ask h) hedit hres
    exact (congrArg (Option.map (withVersion · "")) hfind).trans hleft

/-- The same, if no read was lied to. -/
theorem assures_change (hm : m.Sound) (hblind : m.Blind) (hheld : w.Holds m.target o) :
    Assures
      (fun r _ w' =>
        match r with
        | .ok _ => w'.Holds m.target (m.leaves o)
        | .error _ => w'.Holds m.target o)
      (change m) past w :=
  (obeys_change_leaves hm hblind hheld).mono fun _ _ _ h htrue => h fun _ => htrue

/-- A change leaves what its edit makes of the object. -/
theorem assures_edit (e : Edit) (hheld : w.Holds n o) :
    Assures
      (fun r _ w' =>
        match r with
        | .ok _ => w'.Holds n (e.leaves o)
        | .error _ => w'.Holds n o)
      (change (e.mutation n)) past w := by
  have hheld' : w.Holds (e.mutation n).target o := (e.target_mutation n).symm ▸ hheld
  refine (assures_change (e.sound_mutation n) (e.blind_mutation n) hheld').mono fun r _ w' h htrue => ?_
  have h := h htrue
  rw [e.target_mutation n, e.leaves_mutation n] at h
  exact h

/-- A change that fails leaves every object as it was, and fails with its last call. -/
theorem obeys_change_error (hm : m.Sound) :
    Obeys (fun _ _ => True)
      (fun r past' w' => ∀ f, r = .error f →
        w.components.Alike w'.components ∧ ∃ earlier p, past' = earlier ++ [p] ∧ p.Fails m.target f)
      (change m) past w := by
  refine obeys_change (fun _ v => w.components.Alike v.components) (.refl _) fun past v halike => ?_
  have hread : ∀ r w', v.ask (.getComponent m.target) = (r, w') → w.components.Alike w'.components := by
    intro r w' h
    obtain rfl : (v.ask (.getComponent m.target)).2 = w' := congrArg Prod.snd h
    exact halike.trans (World.alike_ask rfl)
  refine ⟨trivial, ?_, fun _ _ _ _ => nofun, fun _ _ _ _ _ => trivial, ?_, fun _ _ _ _ _ _ _ => nofun⟩
  · intro f w' h
    refine ⟨hread _ _ h, fun f' hf' => ⟨hread _ _ h, past, _, rfl, .inl ⟨rfl, ?_⟩⟩⟩
    split at hf'
    · cases hf'
    · cases hf'
      rw [World.answered_perform v rfl, h]
  · intro fresh w' wr f h hedit hres
    have hafter := (hread _ _ h).trans (World.alike_store_error hres)
    refine ⟨hafter, fun f' hf' => ?_⟩
    cases hf'
    have hname : wr.component.name = m.target :=
      (hm.name hedit).trans (ComponentStore.name_of_find? (World.find?_of_ask h))
    exact ⟨hafter, past ++ [⟨v, .getComponent m.target⟩], ⟨w', wr.call⟩, by simp,
      .inr ⟨wr, hname, rfl, hres⟩⟩

end Changes

end ChartOperator
