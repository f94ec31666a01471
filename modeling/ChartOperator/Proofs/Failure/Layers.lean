import ChartOperator.Cluster.Client

set_option autoImplicit false

/-!
# Failures in their wrappings

A failure is a bare one in a list of wrappings, a `Layer` for each, and it is so in one way only: the bare one is its
core (`eq_within_iff`). Whether it is a lost race, and whether it says that an object does not exist, is decided by
the core (`classified_by_core`). So the steps that a failure is reported through change neither answer, and it does
not matter at which of them a refusal of the cluster gets a name of its own (`Cluster.objectFailure`).

What is done about a failure is not decided by its core: bad data waits for a person, but the same data met in a step
of an operation is tried again. The lost race alone comes through every wrapping.
-/

namespace ChartOperator

/-- A wrapping of a failure, with what it adds to the wording. -/
inductive Layer
  | context (message : String)
  | evaluation (component : String)
  | requeueable (message : String)
  deriving DecidableEq, Repr

/-- A failure in a wrapping. -/
def Layer.around : Layer → Failure → Failure
  | context message, e => .context message e
  | evaluation component, e => .evaluation component e
  | requeueable message, e => .requeueable message e

namespace Failure

variable {e c : Failure} {ls : List Layer}

/-! ## The one way to take a failure apart -/

/-- A failure in wrappings, the outermost first. -/
def within (e : Failure) (ls : List Layer) : Failure := ls.foldr Layer.around e

/-- A failure that is in no wrapping. -/
def IsBare (e : Failure) : Prop := ∀ (l : Layer) (inner : Failure), e ≠ l.around inner

/-- The wrappings of a failure, the outermost first. -/
def layers : Failure → List Layer
  | context message source => .context message :: source.layers
  | evaluation component source => .evaluation component :: source.layers
  | requeueable message source => .requeueable message :: source.layers
  | _ => []

@[simp] theorem within_nil (e : Failure) : e.within [] = e := rfl

@[simp] theorem within_cons (e : Failure) (l : Layer) (ls : List Layer) :
    e.within (l :: ls) = l.around (e.within ls) := rfl

@[simp] theorem core_around (l : Layer) (e : Failure) : (l.around e).core = e.core := by
  cases l <;> rfl

@[simp] theorem layers_around (l : Layer) (e : Failure) : (l.around e).layers = l :: e.layers := by
  cases l <;> rfl

theorem IsBare.core_eq (h : e.IsBare) : e.core = e := by
  fun_cases core e with
  | case1 message source => exact absurd rfl (h (.context message) source)
  | case2 message source => exact absurd rfl (h (.requeueable message) source)
  | case3 component source => exact absurd rfl (h (.evaluation component) source)
  | case4 => rfl

theorem IsBare.layers_eq (h : e.IsBare) : e.layers = [] := by
  fun_cases layers e with
  | case1 message source => exact absurd rfl (h (.context message) source)
  | case2 component source => exact absurd rfl (h (.evaluation component) source)
  | case3 message source => exact absurd rfl (h (.requeueable message) source)
  | case4 => rfl

/-- What holds of bare failures, and of a failure in a wrapping if it holds of the failure, holds of all. -/
theorem byLayers {motive : Failure → Prop} (bare : ∀ e, e.IsBare → motive e)
    (around : ∀ l e, motive e → motive (Layer.around l e)) (e : Failure) : motive e := by
  fun_induction core e with
  | case1 message source ih => exact around (.context message) source ih
  | case2 message source ih => exact around (.requeueable message) source ih
  | case3 component source ih => exact around (.evaluation component) source ih
  | case4 e hcontext hrequeueable hevaluation =>
    refine bare e fun l inner he => ?_
    cases l with
    | context message => exact hcontext message inner he
    | evaluation component => exact hevaluation component inner he
    | requeueable message => exact hrequeueable message inner he

theorem isBare_core (e : Failure) : e.core.IsBare := by
  induction e using byLayers with
  | bare e h => rwa [h.core_eq]
  | around l e ih => rwa [core_around]

/-- The wrappings and the core are all that there is to a failure. -/
@[simp] theorem core_within_layers (e : Failure) : e.core.within e.layers = e := by
  induction e using byLayers with
  | bare e h => rw [h.core_eq, h.layers_eq, within_nil]
  | around l e ih => rw [core_around, layers_around, within_cons, ih]

@[simp] theorem core_within (e : Failure) (ls : List Layer) : (e.within ls).core = e.core := by
  induction ls with
  | nil => rfl
  | cons l ls ih => rw [within_cons, core_around, ih]

@[simp] theorem layers_within (e : Failure) (ls : List Layer) : (e.within ls).layers = ls ++ e.layers := by
  induction ls with
  | nil => rfl
  | cons l ls ih => rw [within_cons, layers_around, ih, List.cons_append]

/-- A failure is a bare one in wrappings in one way only. -/
theorem eq_within_iff : c.IsBare ∧ e = c.within ls ↔ c = e.core ∧ ls = e.layers := by
  constructor
  · rintro ⟨h, rfl⟩
    rw [core_within, h.core_eq, layers_within, h.layers_eq, List.append_nil]
    exact ⟨rfl, rfl⟩
  · rintro ⟨rfl, rfl⟩
    exact ⟨isBare_core e, (core_within_layers e).symm⟩

/-! ## What the core decides -/

/-- The cluster's answer to a request was an error with a code. -/
def RefusedWith (code : Nat) (e : Failure) : Prop := ∃ s : ApiStatus, e = .cluster (.api s) ∧ s.code = code

theorem isConflict_within (e : Failure) (ls : List Layer) : (e.within ls).isConflict = e.isConflict := by
  rw [← isConflict_core, core_within, isConflict_core]

theorem isNotFound_within (e : Failure) (ls : List Layer) : (e.within ls).isNotFound = e.isNotFound := by
  rw [← isNotFound_core, core_within, isNotFound_core]

theorem IsBare.isConflict_iff (h : c.IsBare) :
    c.isConflict = true ↔ (∃ kind name, c = .conflict kind name) ∨ c.RefusedWith 409 := by
  cases c with
  | conflict kind name => exact ⟨fun _ => .inl ⟨kind, name, rfl⟩, fun _ => rfl⟩
  | cluster error => cases error <;> simp [isConflict, RefusedWith]
  | context message source => exact absurd rfl (h (.context message) source)
  | evaluation component source => exact absurd rfl (h (.evaluation component) source)
  | requeueable message source => exact absurd rfl (h (.requeueable message) source)
  | _ => simp [isConflict, RefusedWith]

theorem IsBare.isNotFound_iff (h : c.IsBare) :
    c.isNotFound = true ↔ (∃ kind name, c = .notFound kind name) ∨ c.RefusedWith 404 := by
  cases c with
  | notFound kind name => exact ⟨fun _ => .inl ⟨kind, name, rfl⟩, fun _ => rfl⟩
  | cluster error => cases error <;> simp [isNotFound, RefusedWith]
  | context message source => exact absurd rfl (h (.context message) source)
  | evaluation component source => exact absurd rfl (h (.evaluation component) source)
  | requeueable message source => exact absurd rfl (h (.requeueable message) source)
  | _ => simp [isNotFound, RefusedWith]

theorem isConflict_iff_core :
    e.isConflict = true ↔ (∃ kind name, e.core = .conflict kind name) ∨ e.core.RefusedWith 409 := by
  rw [← isConflict_core]
  exact (isBare_core e).isConflict_iff

theorem isNotFound_iff_core :
    e.isNotFound = true ↔ (∃ kind name, e.core = .notFound kind name) ∨ e.core.RefusedWith 404 := by
  rw [← isNotFound_core]
  exact (isBare_core e).isNotFound_iff

/-- A lost race is about an object that exists. -/
theorem isNotFound_of_isConflict (h : e.isConflict = true) : e.isNotFound = false := by
  rw [← isNotFound_core]
  rcases isConflict_iff_core.1 h with ⟨kind, name, hcore⟩ | ⟨s, hcore, hcode⟩
  · rw [hcore]
    rfl
  · rw [hcore, isNotFound, hcode]
    rfl

/-- A lost race is run again after a fixed time, and nothing else is. -/
theorem action_eq_retryAfter_iff {delay : Duration} :
    e.action = .retryAfter delay ↔ e.isConflict = true ∧ delay = conflictDelay := by
  unfold action
  split
  next h => exact ⟨fun hdelay => ⟨h, (Action.retryAfter.inj hdelay).symm⟩, fun hdelay => by rw [hdelay.2]⟩
  next h => split <;> exact ⟨nofun, fun hdelay => absurd hdelay.1 h⟩

theorem isConflict_objectFailure (kind name : String) (error : ClusterError) :
    (Cluster.objectFailure kind name error).isConflict = (cluster error).isConflict := by
  fun_cases Cluster.objectFailure kind name error with
  | case1 s hcode => rw [isConflict, hcode]; rfl
  | case2 s _ hcode => rw [isConflict, isConflict, hcode]; rfl
  | case3 => rfl
  | case4 => rfl

theorem isNotFound_objectFailure (kind name : String) (error : ClusterError) :
    (Cluster.objectFailure kind name error).isNotFound = (cluster error).isNotFound := by
  fun_cases Cluster.objectFailure kind name error with
  | case1 s hcode => rw [isNotFound, isNotFound, hcode]; rfl
  | case2 s _ hcode => rw [isNotFound, hcode]; rfl
  | case3 => rfl
  | case4 => rfl

/-- A failure has one core, and that decides both questions. It is a lost race iff its core says so, as a conflict or
as the cluster's answer 409, and is about an object that does not exist iff its core says so, as a missing object or
as the answer 404: never both, and neither for joined failures, whatever they are. A lost race is what is run again
after a fixed time. More wrappings change neither answer, nor does the name that a refusal of the cluster gets. -/
theorem classified_by_core (e : Failure) :
    (∀ c ls, c.IsBare ∧ e = c.within ls ↔ c = e.core ∧ ls = e.layers) ∧
    (e.isConflict = true ↔ (∃ kind name, e.core = .conflict kind name) ∨ e.core.RefusedWith 409) ∧
    (e.isNotFound = true ↔ (∃ kind name, e.core = .notFound kind name) ∨ e.core.RefusedWith 404) ∧
    ¬ (e.isConflict = true ∧ e.isNotFound = true) ∧
    (∀ es ls, ((joined es).within ls).isConflict = false ∧ ((joined es).within ls).isNotFound = false) ∧
    (∀ delay, e.action = .retryAfter delay ↔ e.isConflict = true ∧ delay = .ofSeconds 1) ∧
    (∀ ls, (e.within ls).isConflict = e.isConflict ∧ (e.within ls).isNotFound = e.isNotFound) ∧
    ∀ kind name error ls,
      ((Cluster.objectFailure kind name error).within ls).isConflict = (cluster error).isConflict ∧
      ((Cluster.objectFailure kind name error).within ls).isNotFound = (cluster error).isNotFound := by
  refine ⟨fun _ _ => eq_within_iff, isConflict_iff_core, isNotFound_iff_core, ?never_both, ?joined,
    fun _ => action_eq_retryAfter_iff, fun ls => ⟨isConflict_within e ls, isNotFound_within e ls⟩, ?named⟩
  case never_both =>
    rintro ⟨hconflict, hmissing⟩
    rw [isNotFound_of_isConflict hconflict] at hmissing
    cases hmissing
  case joined =>
    intro es ls
    rw [isConflict_within, isNotFound_within]
    exact ⟨rfl, rfl⟩
  case named =>
    intro kind name error ls
    rw [isConflict_within, isNotFound_within]
    exact ⟨isConflict_objectFailure kind name error, isNotFound_objectFailure kind name error⟩

/-- The answer 409, reported through two steps. -/
example :
    ((cluster (.api ⟨"Failure", "the object was modified", "Conflict", 409⟩)).within
      [.requeueable "failed to set status installing", .context "failed to update component dogu-op"]).action =
      .retryAfter (.ofSeconds 1) := by decide

end Failure

end ChartOperator
