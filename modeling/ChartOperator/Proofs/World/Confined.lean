import ChartOperator.Proofs.World.Changes

set_option autoImplicit false

/-!
# Programs that are confined to some calls

A program is confined to calls and changes if it makes no others, whatever it is answered. This is read off
the program alone. An invariant that those calls and changes keep is kept by the program
(`Program.obeys_of_confined`), in every world and whatever faults it meets.
-/

namespace ChartOperator

namespace Program

variable {α β : Type} {calls : Call → Prop} {changes : Mutation → Prop}

/-- The program makes no other calls and changes. -/
def Confined (calls : Call → Prop) (changes : Mutation → Prop) : Program α → Prop
  | done _ => True
  | call c next => calls c ∧ ∀ a, (next a).Confined calls changes
  | mutate m next => changes m ∧ ∀ r, (next r).Confined calls changes
  | note _ next => next.Confined calls changes

theorem confined_andThen {p : Program α} {f : α → Program β} (h : p.Confined calls changes)
    (hf : ∀ a, (f a).Confined calls changes) : (p.andThen f).Confined calls changes := by
  induction p with
  | done a => exact hf a
  | call c next ih => exact ⟨h.1, fun a => ih a (h.2 a)⟩
  | mutate m next ih => exact ⟨h.1, fun r => ih r (h.2 r)⟩
  | note n next ih => exact ih h

theorem Confined.mono {p : Program α} {calls' : Call → Prop} {changes' : Mutation → Prop}
    (h : p.Confined calls changes) (hcalls : ∀ c, calls c → calls' c)
    (hchanges : ∀ m, changes m → changes' m) :
    p.Confined calls' changes' := by
  induction p with
  | done a => trivial
  | call c next ih => exact ⟨hcalls c h.1, fun a => ih a (h.2 a)⟩
  | mutate m next ih => exact ⟨hchanges m h.1, fun r => ih r (h.2 r)⟩
  | note n next ih => exact ih h

/-- No program makes other calls and changes than any. -/
theorem confined_true (p : Program α) : p.Confined (fun _ => True) (fun _ => True) := by
  induction p with
  | done a => trivial
  | call c next ih => exact ⟨trivial, ih⟩
  | mutate m next ih => exact ⟨trivial, ih⟩
  | note n next ih => exact ih

/-- A program keeps to a rule, and keeps an invariant, if the calls and changes to which it is confined do. -/
theorem obeys_of_confined {p : Program α} (h : p.Confined calls changes) {rule : Rule}
    {inv : List Moment → World → Prop}
    (hcall : ∀ past w c, calls c → inv past w →
      rule past ⟨w, c⟩ ∧ inv (past ++ [⟨w, c⟩]) (w.perform c).2)
    (hchange : ∀ past w m, changes m → inv past w →
      Errand.Obeys rule (fun _ => inv) (Errand.change m) past w)
    (hleave : ∀ past w n, inv past w → inv past (w.leave n)) {past : List Moment} {w : World}
    (hinv : inv past w) : p.Obeys rule (fun _ => inv) past w := by
  induction p generalizing past w with
  | done a => exact obeys_done hinv
  | call c next ih =>
    obtain ⟨hrule, hafter⟩ := hcall past w c h.1 hinv
    refine obeys_call hrule fun a w' hperf => ih a (h.2 a) ?_
    rw [hperf] at hafter
    exact hafter
  | mutate m next ih =>
    have hstep := hchange past w m h.1 hinv
    exact obeys_andThen (p := mutate m done) (hstep.mono fun r _ _ hinv' => ih r (h.2 r) hinv')
  | note n next ih => exact obeys_note (ih h (hleave past w n hinv))

/-- A program without changes makes the calls to which it is confined, in every run. -/
theorem calls_of_confined {p : Program α} (h : p.Confined calls fun _ => False) (w : World) :
    ∀ m ∈ w.moments p, calls m.call := by
  have hcalls : p.Obeys (fun _ m => calls m.call) (fun _ _ _ => True) [] w :=
    obeys_of_confined h (fun _ _ _ hc _ => ⟨hc, trivial⟩) (fun _ _ _ hm => hm.elim) (fun _ _ _ => id) trivial
  exact hcalls.calls.forall

end Program

namespace Errand

variable {α β : Type} {calls : Call → Prop} {changes : Mutation → Prop} {t : Errand α} {f : α → Errand β}

/-- The errand makes no other calls and changes. -/
abbrev Confined (calls : Call → Prop) (changes : Mutation → Prop) (t : Errand α) : Prop :=
  Program.Confined calls changes t.run

theorem confined_pure (a : α) : Confined calls changes (pure a : Errand α) := trivial

theorem confined_throw (e : Failure) : Confined calls changes (throw e : Errand α) := trivial

theorem confined_lift (r : Except Failure α) : Confined calls changes (liftM r : Errand α) := trivial

theorem confined_bind (h : Confined calls changes t) (hf : ∀ a, Confined calls changes (f a)) :
    Confined calls changes (t >>= f) := by
  refine Program.confined_andThen h fun r => ?_
  cases r with
  | ok a => exact hf a
  | error e => trivial

theorem confined_mapFailure {g : Failure → Failure} (h : Confined calls changes t) :
    Confined calls changes (t.mapFailure g) :=
  Program.confined_andThen h fun _ => trivial

theorem confined_outcome (h : Confined calls changes t) : Confined calls changes t.outcome :=
  Program.confined_andThen h fun _ => trivial

theorem confined_discard (h : Confined calls changes t) : Confined calls changes (discard t) :=
  Program.confined_andThen h fun r => by cases r <;> trivial

theorem confined_ask {c : Call} (h : calls c) : Confined calls changes (ask c) := ⟨h, fun _ => trivial⟩

theorem confined_change {m : Mutation} (h : changes m) : Confined calls changes (change m) :=
  ⟨h, fun _ => trivial⟩

theorem confined_announce (c : Component) (severity : Severity) (reason message : String) :
    Confined calls changes (announce c severity reason message) :=
  trivial

theorem confined_count (m : Metric) : Confined calls changes (count m) := trivial

theorem confined_forAll {ι : Type} {t : ι → Errand α} (h : ∀ i, Confined calls changes (t i)) (items : List ι) :
    Confined calls changes (forAll items t) := by
  have hfailures : (failuresOf t items).Confined calls changes := by
    induction items with
    | nil => trivial
    | cons i items ih =>
      exact Program.confined_andThen (h i) fun _ => Program.confined_andThen ih fun _ => trivial
  exact Program.confined_andThen hfailures fun _ => trivial

end Errand

end ChartOperator
