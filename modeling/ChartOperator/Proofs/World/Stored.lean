import ChartOperator.World.Components

set_option autoImplicit false

/-!
# What a store of components holds

The laws of the store are laws of `ComponentStore.find?`: what a write, a touch and a removal do to the
object with a name, and that they leave every other one alone. Each new version of an object is one further
than the last (`versionNumber_bump`), as far as 64 bits hold it.

Two objects that differ in nothing but their versions are told apart by no one but the store itself. A
field that does not read the version is `VersionFree`.
-/

namespace ChartOperator

namespace ComponentStore

variable {s s' : ComponentStore} {c x y : Component} {n : String}

/-! ## Objects by name -/

theorem find?_congr (h : s'.items = s.items) (n : String) : s'.find? n = s.find? n := by
  rw [find?, find?, h]

/-- An object is found under its own name. -/
theorem name_of_find? (h : s.find? n = some c) : c.name = n := by
  simpa using List.find?_some h

theorem find?_setItem_self (c : Component) (items : List Component) :
    (setItem c items).find? (·.name == c.name) = some c := by
  induction items with
  | nil => simp [setItem]
  | cons x rest ih =>
    unfold setItem
    split
    · simp
    · next hne =>
      split
      · simp
      · simp [hne, ih]

theorem find?_setItem_ne (items : List Component) (h : n ≠ c.name) :
    (setItem c items).find? (·.name == n) = items.find? (·.name == n) := by
  induction items with
  | nil => simp [setItem, h.symm]
  | cons x rest ih =>
    unfold setItem
    split
    · next he => simp [he, h.symm]
    · split
      · simp [h.symm]
      · simp only [List.find?_cons, ih]

@[simp] theorem find?_put_self (s : ComponentStore) (c : Component) : (s.put c).find? c.name = some c :=
  find?_setItem_self c s.items

theorem find?_put_ne (s : ComponentStore) (h : n ≠ c.name) : (s.put c).find? n = s.find? n :=
  find?_setItem_ne s.items h

@[simp] theorem find?_erase_self (s : ComponentStore) (n : String) : (s.erase n).find? n = none := by
  simp [erase, find?]

theorem find?_erase_ne (s : ComponentStore) {m : String} (h : n ≠ m) : (s.erase m).find? n = s.find? n := by
  simp only [erase, find?, List.find?_filter]
  refine congrArg (fun p => s.items.find? p) (funext fun x => ?_)
  by_cases hx : x.name = n
  · simp [hx, h]
  · simp [hx]

/-- An object that a read returns is stored. -/
theorem find?_of_get (h : s.get n = .ok x) : s.find? n = some x := by
  unfold get at h
  split at h
  · cases h
  · split at h
    · next hfound =>
      cases h
      exact hfound
    · cases h

/-- A read that finds no object found none in the store. -/
theorem find?_of_get_notFound {e : Failure} (h : s.get n = .error e) (he : e.isNotFound = true) :
    s.find? n = none := by
  unfold get at h
  split at h
  · cases h
    cases he
  · split at h
    · cases h
    · assumption

theorem get_of_find? (hread : s.readFailure = none) (hx : s.find? n = some x) : s.get n = .ok x := by
  simp only [get, hread, hx]

theorem get_of_find?_none (hread : s.readFailure = none) (hnone : s.find? n = none) :
    s.get n = .error (missing n) := by
  simp only [get, hread, hnone]

/-! ## Versions -/

/-- The field does not read the version of an object. -/
def VersionFree {α : Type} (field : Component → α) : Prop := ∀ c v, field (withVersion c v) = field c

theorem VersionFree.bump {α : Type} {field : Component → α} (h : VersionFree field) (c : Component) :
    field (bump c) = field c :=
  h c _

@[simp] theorem name_bump (c : Component) : (bump c).name = c.name := rfl

theorem versionNumber_eq_of_resourceVersion_eq (h : c.metadata.resourceVersion = x.metadata.resourceVersion) :
    versionNumber c = versionNumber x := by
  rw [versionNumber, versionNumber, h]

theorem versionNumber_lt (c : Component) : versionNumber c < twoTo 64 := by
  unfold versionNumber
  cases h : ((c.metadata.resourceVersion.bind fun v => Text.readNat? v.toList).filter (· < twoTo 64)) with
  | none => exact twoTo_pos 64
  | some n => simpa using (Option.filter_eq_some_iff.1 h).2

theorem versionNumber_withVersion (c : Component) {k : Nat} (h : k < twoTo 64) :
    versionNumber (withVersion c (Text.decimal k)) = k := by
  simp only [versionNumber, withVersion, Option.bind_some, Text.readNat?_decimal]
  rw [Option.filter_some, if_pos (decide_eq_true h), Option.getD_some]

/-- The version behind another one has the number behind its own, as far as 64 bits hold it. -/
theorem versionNumber_bump (c : Component) : versionNumber (bump c) = (versionNumber c + 1) % twoTo 64 :=
  versionNumber_withVersion c (Nat.mod_lt _ (twoTo_pos 64))

/-- A new version is another version. -/
theorem resourceVersion_bump_ne (c : Component) :
    (bump c).metadata.resourceVersion ≠ c.metadata.resourceVersion := by
  intro h
  have hnum : versionNumber c = (versionNumber c + 1) % twoTo 64 :=
    (versionNumber_eq_of_resourceVersion_eq h).symm.trans (versionNumber_bump c)
  have hlt := versionNumber_lt c
  have htwo : twoTo 64 = 18446744073709551616 := rfl
  rw [htwo] at hnum hlt
  omega

/-- What becomes of an object that is to be stored: it gets a new version, or is removed because it is
being deleted and nothing keeps it. -/
def settled (c : Component) : Option Component :=
  if c.isBeingDeleted && c.finalizers.isEmpty then none else some (bump c)

theorem settled_eq_some (h : settled c = some x) : x = bump c := by
  unfold settled at h
  split at h
  · cases h
  · exact (Option.some.inj h).symm

theorem settled_of_finalizers (h : c.finalizers ≠ []) : settled c = some (bump c) := by
  simp [settled, h]

theorem settled_of_hasFinalizer (h : c.hasFinalizer = true) : settled c = some (bump c) := by
  refine settled_of_finalizers fun hempty => ?_
  rw [Component.hasFinalizer, hempty] at h
  cases h

theorem settled_of_not_deleted (h : c.isBeingDeleted = false) : settled c = some (bump c) := by
  simp [settled, h]

theorem settled_ne_none (h : c.isBeingDeleted = false) : settled c ≠ none := by
  rw [settled_of_not_deleted h]
  exact Option.some_ne_none _

/-- Storing settles the object and leaves the others alone. -/
theorem find?_accept (s : ComponentStore) (c : Component) (n : String) :
    (s.accept c).2.find? n = if n = c.name then settled c else s.find? n := by
  unfold accept settled
  split
  · split
    · next he => rw [he, find?_erase_self]
    · next hne => exact find?_erase_ne s hne
  · split
    · next he => rw [he]; exact find?_put_self s (bump c)
    · next hne => exact find?_put_ne s (c := bump c) hne

/-- A touch changes the version of one object and nothing else. -/
theorem find?_touch (s : ComponentStore) (m n : String) :
    (s.touch m).find? n = if n = m then (s.find? n).map bump else s.find? n := by
  unfold touch
  split
  · next c hc =>
    have hname : (bump c).name = m := (name_bump c).trans (name_of_find? hc)
    split
    · next he => rw [he, hc, ← hname, find?_put_self, Option.map_some]
    · next hne => exact find?_put_ne s (hname ▸ hne)
  · next hnone =>
    split
    · next he => rw [he, hnone, Option.map_none]
    · rfl

/-- A touch does not make an object go. -/
theorem find?_eq_none_of_touch {m : String} (h : (s.touch m).find? n = none) : s.find? n = none := by
  rw [find?_touch] at h
  split at h
  · exact Option.map_eq_none_iff.1 h
  · exact h

end ComponentStore

end ChartOperator
