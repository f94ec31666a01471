import ChartOperator.Program.Call

set_option autoImplicit false

/-!
# Programs over the surroundings

A `Program` is a run of calls of which each may depend on the answers before it. Programs are data: what
surrounds them decides what the answers are, and other programs may act between any two calls.

A `Mutation` is a change of a stored component that is made on a fresh copy, again and again until no
other writer was faster.

An `Errand` is a program that may fail; the failure of a step can be given its context.
-/

namespace ChartOperator

/-- A changed copy of a component that is to be stored: the object without its status, or the status. -/
inductive Write
  | object (c : Component)
  | status (c : Component)
  deriving DecidableEq, Repr

/-- The component that a write holds. -/
def Write.component : Write → Component
  | object c => c
  | status c => c

/-- The call that stores a write. -/
def Write.call : Write → Call
  | object c => .updateComponent c
  | status c => .updateStatus c

/-- A change of a stored component. -/
structure Mutation where
  /-- The name of the component. -/
  target : String
  /-- A component that does not exist needs no change. -/
  missingIsDone : Bool
  /-- What to store for a fresh copy, or that nothing need be stored. -/
  edit : Component → Option Write

/-- A program. -/
inductive Program (α : Type) : Type
  | done (result : α)
  | call (c : Call) (next : c.Answer → Program α)
  /-- Makes a change; the answer is what was stored, if something was. -/
  | mutate (m : Mutation) (next : Except Failure (Option Component) → Program α)
  | note (n : Note) (next : Program α)

namespace Program

variable {α β : Type}

/-- Goes on with the result of a program. -/
def andThen (p : Program α) (f : α → Program β) : Program β :=
  match p with
  | done a => f a
  | call c next => call c fun r => (next r).andThen f
  | mutate m next => mutate m fun r => (next r).andThen f
  | note n next => note n (next.andThen f)

instance : Monad Program where
  pure := done
  bind := andThen

@[simp] theorem done_andThen (a : α) (f : α → Program β) : (done a).andThen f = f a := rfl

theorem andThen_assoc {γ : Type} (p : Program α) (f : α → Program β) (g : β → Program γ) :
    (p.andThen f).andThen g = p.andThen fun a => (f a).andThen g := by
  induction p with
  | done a => rfl
  | call c next ih => simp only [andThen, ih]
  | mutate m next ih => simp only [andThen, ih]
  | note n next ih => simp only [andThen, ih]

end Program

/-- A program that may fail. -/
abbrev Errand (α : Type) : Type := ExceptT Failure Program α

namespace Errand

variable {α : Type}

/-- Makes a call. -/
def ask (c : Call) : Errand c.Result := ExceptT.mk (.call c .done)

/-- Makes a change. -/
def change (m : Mutation) : Errand (Option Component) := ExceptT.mk (.mutate m .done)

/-- The outcome of a program, which does not itself fail. -/
def outcome (t : Errand α) : Errand (Except Failure α) := ExceptT.mk (t.run.andThen fun r => .done (.ok r))

/-- Rewords the failure of a program. -/
def mapFailure (f : Failure → Failure) (t : Errand α) : Errand α :=
  ExceptT.mk (t.run.andThen fun r => .done (r.mapError f))

/-- A failure of the program is a failure of the step that is named. -/
def orRequeue (t : Errand α) (step : String) : Errand α := t.mapFailure (.requeueable step)

/-- A failure of the program is reported with what was tried. -/
def inContext (t : Errand α) (context : String) : Errand α := t.mapFailure (.context context)

/-- Leaves an event. -/
def announce (c : Component) (severity : Severity) (reason message : String) : Errand Unit :=
  ExceptT.mk (.note (.event ⟨c, severity, reason, message⟩) (.done (.ok ())))

/-- Counts. -/
def count (m : Metric) : Errand Unit := ExceptT.mk (.note (.count m) (.done (.ok ())))

/-- Runs a program on each item, and gives the failures in the order of the items. -/
def failuresOf {ι : Type} (t : ι → Errand α) : List ι → Program (List Failure)
  | [] => .done []
  | i :: is => (t i).run.andThen fun r => (failuresOf t is).andThen fun es =>
    .done (match r with
      | .ok _ => es
      | .error e => e :: es)

/-- Runs a program on each item, whatever becomes of the others, and joins the failures in the end. -/
def forAll {ι : Type} (items : List ι) (t : ι → Errand α) : Errand Unit :=
  ExceptT.mk ((failuresOf t items).andThen fun es => .done (Failure.join es))

end Errand

end ChartOperator
