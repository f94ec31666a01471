import ChartOperator.Workload

set_option autoImplicit false

/-!
# Changes of workloads

A watch reports single changes and, after an interruption, the whole list. The tracker remembers the
last state of each workload of one kind and tells which reports can change the health of a component:
those of workloads with a component, when they appear, disappear or change their counters.

`Tracker.get?` is the view of a tracker; the lemmas beside the operations say what each does to it.
-/

namespace ChartOperator

/-- A change of a workload. -/
inductive WorkloadChange
  | created (workload : Workload)
  | updated (old new : Workload)
  | deleted (workload : Workload)
  deriving DecidableEq, Repr

/-- The change can alter the health of a component. -/
def WorkloadChange.isRelevant : WorkloadChange → Bool
  | created w | deleted w => w.component.isSome
  | updated old new => new.component.isSome && old.replicas != new.replicas

/-- What tells workloads of one kind apart: namespace and name. -/
abbrev WorkloadKey := String × String

/-- The key of a workload. -/
def Workload.key (w : Workload) : WorkloadKey := (w.namespace, w.name)

/-- The order of keys: by namespace, then by name. -/
def precedes (a b : WorkloadKey) : Bool := decide (a.1 < b.1) || (a.1 == b.1 && decide (a.2 < b.2))

/-- The last seen workloads in the order of their keys, each key once. -/
structure Tracker where
  seen : List Workload
  deriving DecidableEq, Repr

namespace Tracker

/-- The tracker that has seen nothing. -/
def empty : Tracker := ⟨[]⟩

/-- The last seen state of a workload. -/
def get? (t : Tracker) (key : WorkloadKey) : Option Workload := t.seen.find? (·.key == key)

/-- Forgets a workload. -/
def erase (t : Tracker) (key : WorkloadKey) : Tracker := ⟨t.seen.filter (·.key != key)⟩

/-- Puts a workload where its key belongs. -/
def place (w : Workload) : List Workload → List Workload
  | [] => [w]
  | x :: xs => if precedes w.key x.key then w :: x :: xs else x :: place w xs

/-- Remembers a workload in place of its last state. -/
def insert (t : Tracker) (w : Workload) : Tracker := ⟨place w (t.erase w.key).seen⟩

/-- The change that the present state of a workload is. -/
def changeTo (t : Tracker) (w : Workload) : WorkloadChange :=
  match t.get? w.key with
  | some old => .updated old w
  | none => .created w

/-- A workload was added or changed: whether that is relevant. -/
def applied (t : Tracker) (w : Workload) : Bool × Tracker := ((t.changeTo w).isRelevant, t.insert w)

/-- A workload was removed: whether that is relevant. -/
def deleted (t : Tracker) (w : Workload) : Bool × Tracker :=
  ((WorkloadChange.deleted w).isRelevant, t.erase w.key)

/-- Takes the workloads of a new list one by one. `previous` are those known before that were not
listed yet, `found` the relevant ones so far. -/
def relist (previous : Tracker) (found : List Workload) (now : Tracker) :
    List Workload → List Workload × Tracker × Tracker
  | [] => (found, previous, now)
  | w :: ws =>
    let found := if (previous.changeTo w).isRelevant then found ++ [w] else found
    relist (previous.erase w.key) found (now.insert w) ws

/-- The state of all workloads after an interruption: the relevant ones of the list in its order, and
those that disappeared in the order of their keys. -/
def restarted (t : Tracker) (ws : List Workload) : (List Workload × List Workload) × Tracker :=
  let (present, left, now) := relist t [] empty ws
  ((present, left.seen.filter fun w => (WorkloadChange.deleted w).isRelevant), now)

theorem get?_erase_self (t : Tracker) (key : WorkloadKey) : (t.erase key).get? key = none := by
  simp [get?, erase]

theorem get?_erase_ne (t : Tracker) {key other : WorkloadKey} (h : other ≠ key) :
    (t.erase key).get? other = t.get? other := by
  simp only [get?, erase, List.find?_filter]
  congr 1
  funext w
  by_cases hk : w.key = other
  · simp [hk, h]
  · simp [hk]

theorem find?_place_self {w : Workload} {xs : List Workload} (h : ∀ x ∈ xs, x.key ≠ w.key) :
    (place w xs).find? (·.key == w.key) = some w := by
  induction xs with
  | nil => simp [place]
  | cons x xs ih =>
    have hx : x.key ≠ w.key := h x (by simp)
    have ih := ih fun y hy => h y (by simp [hy])
    by_cases hp : precedes w.key x.key = true
    · simp [place, hp]
    · simp [place, hp, hx, ih]

theorem find?_place_ne {w : Workload} {key : WorkloadKey} (h : key ≠ w.key) (xs : List Workload) :
    (place w xs).find? (·.key == key) = xs.find? (·.key == key) := by
  have hw : (w.key == key) = false := by simpa using Ne.symm h
  induction xs with
  | nil => simp [place, hw]
  | cons x xs ih =>
    by_cases hp : precedes w.key x.key = true
    · simp [place, hp, hw]
    · rw [place, if_neg hp, List.find?_cons, List.find?_cons, ih]

theorem get?_insert_self (t : Tracker) (w : Workload) : (t.insert w).get? w.key = some w := by
  refine find?_place_self fun x hx => ?_
  simp only [erase, List.mem_filter] at hx
  simpa using hx.2

theorem get?_insert_ne (t : Tracker) (w : Workload) {key : WorkloadKey} (h : key ≠ w.key) :
    (t.insert w).get? key = t.get? key := by
  have kept := get?_erase_ne t h
  simp only [get?] at kept
  simp only [get?, insert, find?_place_ne h, kept]

end Tracker

end ChartOperator
