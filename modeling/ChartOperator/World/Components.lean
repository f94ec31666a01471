import ChartOperator.Component
import ChartOperator.Failure

set_option autoImplicit false

/-!
# A store of components

The store keeps a version of every object, and accepts the write of a copy only if the copy has the
version that is stored: of two writers with the same copy one fails with a conflict. A write of the object
leaves the stored status alone, and a write of the status all else. An object that is being deleted is
removed by the write that leaves it without finalizers.

The store can be told to fail, and to report conflicts.
-/

namespace ChartOperator

/-- A store of components. -/
structure ComponentStore where
  «namespace» : String
  /-- The stored objects. -/
  items : List Component := []
  /-- They stand in ascending order of their names, so that no name is stored twice. -/
  ascending : items.Pairwise (fun a b => a.name < b.name) := by exact .nil
  /-- How many writes of objects and of statuses were accepted. -/
  updates : Nat := 0
  statusUpdates : Nat := 0
  /-- So many writes to come report a conflict. -/
  pendingConflicts : Nat := 0
  writeFailure : Option String := none
  readFailure : Option String := none
  deriving Repr, Inhabited

namespace ComponentStore

/-- Sets an object in an ordered list. -/
def setItem (c : Component) : List Component → List Component
  | [] => [c]
  | x :: rest =>
    if x.name = c.name then c :: rest
    else if c.name < x.name then c :: x :: rest
    else x :: setItem c rest

theorem eq_or_mem_of_mem_setItem {c y : Component} {items : List Component} (h : y ∈ setItem c items) :
    y = c ∨ y ∈ items := by
  induction items with
  | nil => simpa [setItem] using h
  | cons x rest ih =>
    unfold setItem at h
    split at h
    · rcases List.mem_cons.1 h with rfl | h
      · exact .inl rfl
      · exact .inr (List.mem_cons_of_mem _ h)
    · split at h
      · simpa using h
      · rcases List.mem_cons.1 h with rfl | h
        · exact .inr List.mem_cons_self
        · exact (ih h).imp_right (List.mem_cons_of_mem _)

theorem ascending_setItem (c : Component) {items : List Component}
    (h : items.Pairwise (fun a b => a.name < b.name)) :
    (setItem c items).Pairwise (fun a b => a.name < b.name) := by
  induction items with
  | nil => simp [setItem]
  | cons x rest ih =>
    obtain ⟨hx, hrest⟩ := List.pairwise_cons.1 h
    unfold setItem
    split
    · next he => exact List.pairwise_cons.2 ⟨fun y hy => he ▸ hx y hy, hrest⟩
    · next hne =>
      split
      · next hlt =>
        refine List.pairwise_cons.2 ⟨fun y hy => ?_, h⟩
        rcases List.mem_cons.1 hy with rfl | hy
        · exact hlt
        · exact Std.lt_trans hlt (hx y hy)
      · next hle =>
        refine List.pairwise_cons.2 ⟨fun y hy => ?_, ih hrest⟩
        rcases eq_or_mem_of_mem_setItem hy with rfl | hy
        · exact Std.lt_of_le_of_ne (Std.not_lt.1 hle) hne
        · exact hx y hy

/-- The stored object with a name. -/
def find? (s : ComponentStore) (name : String) : Option Component := s.items.find? (·.name == name)

/-- All stored objects. -/
def components (s : ComponentStore) : List Component := s.items

/-- Stores an object under its name. -/
def put (s : ComponentStore) (c : Component) : ComponentStore :=
  { s with items := setItem c s.items, ascending := ascending_setItem c s.ascending }

/-- Removes the object with a name. -/
def erase (s : ComponentStore) (name : String) : ComponentStore :=
  { s with items := s.items.filter fun c => c.name ≠ name, ascending := s.ascending.filter _ }

/-- The object with another version. -/
def withVersion (c : Component) (v : String) : Component :=
  { c with metadata := { c.metadata with resourceVersion := some v } }

/-- The number that an object has for its version, of 64 bits; any other text counts as zero. -/
def versionNumber (c : Component) : Nat :=
  ((c.metadata.resourceVersion.bind fun v => Text.readNat? v.toList).filter (· < twoTo 64)).getD 0

/-- The version behind the one that an object has. -/
def nextVersion (c : Component) : String := Text.decimal ((versionNumber c + 1) % twoTo 64)

/-- The object with the version behind its own. -/
def bump (c : Component) : Component := withVersion c (nextVersion c)

/-- Stores a new object. -/
def insert (s : ComponentStore) (c : Component) : ComponentStore :=
  s.put (withVersion { c with metadata := { c.metadata with «namespace» := some s.namespace } } "1")

/-- Another writer changes an object, of which only the version is seen. -/
def touch (s : ComponentStore) (name : String) : ComponentStore :=
  match s.find? name with
  | some c => s.put (bump c)
  | none => s

/-- The failure for a name that is not stored. -/
def missing (name : String) : Failure := .notFound Component.kind name

/-- Reads an object. -/
def get (s : ComponentStore) (name : String) : Except Failure Component :=
  match s.readFailure with
  | some m => .error (.internal m)
  | none =>
    match s.find? name with
    | some c => .ok c
    | none => .error (missing name)

/-- Reads all objects. -/
def list (s : ComponentStore) : Except Failure (List Component) :=
  match s.readFailure with
  | some m => .error (.internal m)
  | none => .ok s.components

/-- What a write of a copy finds: the stored object, or why the write is refused. -/
def examine (s : ComponentStore) (c : Component) : Except Failure Component × ComponentStore :=
  match s.writeFailure with
  | some m => (.error (.internal m), s)
  | none =>
    if 0 < s.pendingConflicts then
      (.error (.conflict Component.kind c.name), { s with pendingConflicts := s.pendingConflicts - 1 })
    else
      match s.find? c.name with
      | none => (.error (missing c.name), s)
      | some stored =>
        if stored.metadata.resourceVersion = c.metadata.resourceVersion then (.ok stored, s)
        else (.error (.conflict Component.kind c.name), s)

/-- Stores what was accepted. -/
def accept (s : ComponentStore) (c : Component) : Component × ComponentStore :=
  if c.isBeingDeleted && c.finalizers.isEmpty then (c, s.erase c.name)
  else (bump c, s.put (bump c))

/-- Writes metadata and spec. -/
def update (s : ComponentStore) (c : Component) : Except Failure Component × ComponentStore :=
  match s.examine c with
  | (.error e, s) => (.error e, s)
  | (.ok stored, s) =>
    let (written, s) := { s with updates := s.updates + 1 }.accept { c with status := stored.status }
    (.ok written, s)

/-- Writes the status. -/
def updateStatus (s : ComponentStore) (c : Component) : Except Failure Component × ComponentStore :=
  match s.examine c with
  | (.error e, s) => (.error e, s)
  | (.ok stored, s) =>
    let (written, s) := { s with statusUpdates := s.statusUpdates + 1 }.accept { stored with status := c.status }
    (.ok written, s)

end ComponentStore

end ChartOperator
