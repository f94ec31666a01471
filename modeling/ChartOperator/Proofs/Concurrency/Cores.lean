import ChartOperator.Proofs.Lifecycle.Edits

set_option autoImplicit false

/-!
# What the lifecycle sees of a component

Health writers change the health of a component and nothing else, and every write changes its version. What is
left of the object without the two is its core. Edits make of objects with the same core objects with the same
core (`Edit.core_apply_congr`), so that what an edit comes to on a store is known from cores
(`Edit.outcome_congr`).

`Mutation.turn` comes to that outcome as well, as long as the copy that it is about to write tracks the stored
object (`Poised.turn`): so does a change that is alone (`World.outcome_change`).
-/

namespace ChartOperator

open ComponentStore (bump settled missing withVersion)

/-- The component without its health and its version. A status that was never written counts as the initial
one. -/
def Component.core (x : Component) : Component :=
  withVersion (x.mapStatus fun s => { s with health := .pending }) ""

/-- The event, of whose component only the core is told. -/
def Event.core (e : Event) : Event := { e with component := e.component.core }

namespace Component

variable {x y : Component}

/-- What is read off the core is a field of the component. -/
theorem field_of_core {α : Type} {f : Component → α} (hf : ∀ z, f z.core = f z) (h : x.core = y.core) :
    f x = f y := by
  rw [← hf x, h, hf y]

theorem core_setHealth (verdict : Health) (x : Component) :
    ((Edit.setHealth verdict none).apply x).core = x.core := rfl

/-- Whether an object is removed or stored depends on its core, and so does the core of what is stored. -/
theorem map_core_settled (h : x.core = y.core) : (settled x).map core = (settled y).map core := by
  have hgone : (x.isBeingDeleted && x.finalizers.isEmpty) = (y.isBeingDeleted && y.finalizers.isEmpty) :=
    field_of_core (f := fun z => z.isBeingDeleted && z.finalizers.isEmpty) (fun _ => rfl) h
  rw [settled, settled, hgone]
  split
  · rfl
  · exact congrArg some h

/-- What was just stored is none that a write removes. -/
theorem settled_of_settled (h : settled x = some y) : settled y ≠ none := by
  intro hgone
  have hsame : (settled (bump x)).map core = (settled x).map core := map_core_settled rfl
  rw [← ComponentStore.settled_eq_some h, hgone, h] at hsame
  cases hsame

end Component

namespace Edit

variable {e : Edit} {n : String} {x y : Component} {s s' : ComponentStore}

theorem inPlace_core_congr (e : Edit) (h : x.core = y.core) : e.InPlace x ↔ e.InPlace y := by
  have hhas : x.hasFinalizer = y.hasFinalizer := Component.field_of_core (fun _ => rfl) h
  cases e with
  | addFinalizer => exact iff_of_eq (congrArg (· = true) hhas)
  | removeFinalizer => exact iff_of_eq (congrArg (· = false) hhas)
  | _ => exact Iff.rfl

/-- An edit does not look at health and version. -/
theorem core_apply (e : Edit) (x : Component) : (e.apply x).core = (e.apply x.core).core := by
  cases e with
  | addFinalizer =>
    have hhas : x.core.hasFinalizer = x.hasFinalizer := rfl
    rw [apply, apply, Component.addFinalizer, Component.addFinalizer, hhas]
    split <;> rfl
  | _ => rfl

theorem core_apply_congr (e : Edit) (h : x.core = y.core) : (e.apply x).core = (e.apply y).core := by
  rw [core_apply, h, ← core_apply]

/-- What an edit comes to on a store that reports no conflict: its result, and what is stored then. -/
def outcome (e : Edit) (n : String) (s : ComponentStore) : Except Failure Unit × Option Component :=
  match s.readFailure with
  | some text => (.error (.internal text), s.find? n)
  | none =>
    match s.find? n with
    | none => (if (e.mutation n).missingIsDone then .ok () else .error (missing n), none)
    | some x =>
      if e.InPlace x then (.ok (), some x)
      else
        match s.writeFailure with
        | some text => (.error (.internal text), some x)
        | none => (.ok (), settled (e.apply x))

/-- What an edit comes to depends on the core of what is stored. -/
theorem outcome_congr (e : Edit) (hread : s'.readFailure = s.readFailure)
    (hwrite : s'.writeFailure = s.writeFailure)
    (h : (s'.find? n).map Component.core = (s.find? n).map Component.core) :
    (e.outcome n s').1 = (e.outcome n s).1 ∧
      (e.outcome n s').2.map Component.core = (e.outcome n s).2.map Component.core := by
  unfold outcome
  rw [hread, hwrite]
  cases s.readFailure with
  | some text => exact ⟨rfl, h⟩
  | none =>
    cases hy : s.find? n with
    | none =>
      rw [hy, Option.map_none, Option.map_eq_none_iff] at h
      rw [h]
      exact ⟨rfl, rfl⟩
    | some y =>
      rw [hy] at h
      obtain ⟨x, hx, hcore⟩ := Option.map_eq_some_iff.1 h
      rw [hx]
      dsimp only
      by_cases hplace : e.InPlace y
      · rw [if_pos hplace, if_pos ((e.inPlace_core_congr hcore).2 hplace)]
        exact ⟨rfl, congrArg some hcore⟩
      · rw [if_neg hplace, if_neg (mt (e.inPlace_core_congr hcore).1 hplace)]
        cases s.writeFailure with
        | some text => exact ⟨rfl, congrArg some hcore⟩
        | none => exact ⟨rfl, Component.map_core_settled (e.core_apply_congr hcore)⟩

/-- Behind an edit the object is gone, is the one that was there, or was just stored. -/
theorem outcome_stays (h : (e.outcome n s).2 = some y) (hkept : ∀ x, s.find? n = some x → settled x ≠ none) :
    settled y ≠ none := by
  unfold outcome at h
  split at h
  · exact hkept y h
  · split at h
    · cases h
    · next x hx =>
      split at h
      · exact hkept y (hx.trans h)
      · split at h
        · exact hkept y (hx.trans h)
        · exact Component.settled_of_settled h

end Edit

/-! ## Turns of a change -/

section Turns

variable {m : Mutation} {e : Edit} {n : String} {k j : Nat} {x : Component} {s s' : ComponentStore}
  {stage : Stage}

/-- A store has moved on by so many accepted writes. -/
structure ComponentStore.Moves (s s' : ComponentStore) (j : Nat) : Prop where
  writes : s'.writes = s.writes + j
  tracks : ∀ {n x k}, Tracks n x k s → Tracks n x (k + j) s'

theorem ComponentStore.Moves.refl (s : ComponentStore) : s.Moves s 0 := ⟨rfl, fun h => h⟩

theorem ComponentStore.moves_of_write_error {wr : Write} {f : Failure} (h : s.write wr = (.error f, s')) :
    s.Moves s' 0 ∧ ∀ n, s'.find? n = s.find? n := by
  have hfind : ∀ n, s'.find? n = s.find? n := find?_congr (items_of_write_error h)
  exact ⟨⟨writes_of_write_error h, fun htracks => htracks.of_find? (hfind _)⟩, hfind⟩

/-- A read leaves the store alone. -/
theorem Mutation.turn_reading_snd (m : Mutation) (s : ComponentStore) : (m.turn s .reading).2 = s := by
  simp only [turn]
  split
  · rfl
  · split <;> rfl

theorem Mutation.turn_writing_snd (m : Mutation) (s : ComponentStore) {wr : Write} :
    (m.turn s (.writing wr)).2 = (s.write wr).2 := by
  simp only [turn]
  rcases s.write wr with ⟨_ | _, s'⟩ <;> rfl

/-- A turn moves the store on by a write at most, and then the change returns. -/
theorem Mutation.moves_turn (m : Mutation) (s : ComponentStore) (stage : Stage) :
    ∃ j, s.Moves (m.turn s stage).2 j ∧ (j = 0 ∨ j = 1 ∧ ∃ r, (m.turn s stage).1 = .returned r) := by
  cases stage with
  | reading =>
    rw [m.turn_reading_snd s]
    exact ⟨0, .refl s, .inl rfl⟩
  | writing wr =>
    rcases hwrite : s.write wr with ⟨f | y, s'⟩
    · simp only [turn, hwrite]
      exact ⟨0, (ComponentStore.moves_of_write_error hwrite).1, .inl rfl⟩
    · simp only [turn, hwrite]
      exact ⟨1, ⟨ComponentStore.writes_of_write_ok hwrite, fun h => h.write hwrite⟩, .inr ⟨rfl, _, rfl⟩⟩
  | returned r => exact ⟨0, .refl s, .inl rfl⟩

/-- A change stands at a point from which it comes to the outcome of its edit: it is about to read, or the copy
that it is about to write tracks the stored object, which has the core of the copy. -/
def Poised (e : Edit) (n : String) (k : Nat) (s : ComponentStore) : Stage → Prop
  | .reading => True
  | .writing wr => s.readFailure = none ∧
      ∃ x, (e.mutation n).edit x = some wr ∧ x.name = n ∧ Tracks n x k s ∧
        (s.find? n).map Component.core = some x.core
  | .returned _ => False

/-- Others may move the store on, if they leave the core of the object. -/
theorem Poised.others (h : Poised e n k s stage) (hmoves : s.Moves s' j) (hread : s'.readFailure = s.readFailure)
    (hcore : (s'.find? n).map Component.core = (s.find? n).map Component.core) :
    Poised e n (k + j) s' stage := by
  cases stage with
  | reading => trivial
  | writing wr =>
    obtain ⟨hreads, x, hedit, hname, htracks, hx⟩ := h
    exact ⟨hread.trans hreads, x, hedit, hname, hmoves.tracks htracks, hcore.trans hx⟩
  | returned r => exact h.elim

/-- From a store a change came to the outcome of its edit, or it still stands at such a point, and the object is
the one that it was. -/
def Proceeds (e : Edit) (n : String) (k : Nat) (s : ComponentStore) (stage : Stage) (s' : ComponentStore) :
    Prop :=
  match stage with
  | .returned r => (r.map fun _ => (), s'.find? n) = e.outcome n s
  | stage => s'.find? n = s.find? n ∧ Poised e n k s' stage

theorem proceeds_reading (e : Edit) (n : String) (k : Nat) (s : ComponentStore) :
    Proceeds e n k s ((e.mutation n).turn s .reading).1 s := by
  simp only [Mutation.turn, e.target_mutation n]
  cases hread : s.readFailure with
  | some text =>
    simp only [ComponentStore.get, hread]
    cases (e.mutation n).missingIsDone <;> simp only [Proceeds, Edit.outcome, hread] <;> rfl
  | none =>
    cases hfind : s.find? n with
    | none =>
      rw [ComponentStore.get_of_find?_none hread hfind]
      cases hdone : (e.mutation n).missingIsDone <;>
        simp only [Proceeds, Edit.outcome, hread, hfind, hdone] <;> rfl
    | some x =>
      rw [ComponentStore.get_of_find? hread hfind]
      cases hedit : (e.mutation n).edit x with
      | none =>
        simp only [hedit, Proceeds, Edit.outcome, hread, hfind, if_pos (Edit.inPlace_of_edit hedit)]
        rfl
      | some wr =>
        simp only [hedit]
        refine ⟨rfl, hread, x, hedit, ComponentStore.name_of_find? hfind, tracks_self hfind, ?_⟩
        rw [hfind, Option.map_some]

theorem proceeds_writing {wr : Write} (h : Poised e n k s (.writing wr)) (hk : k < twoTo 64) :
    Proceeds e n k s ((e.mutation n).turn s (.writing wr)).1 ((e.mutation n).turn s (.writing wr)).2 := by
  obtain ⟨hread, x, hedit, hname, htracks, hcore⟩ := h
  obtain ⟨z, hz, hzcore⟩ := Option.map_eq_some_iff.1 hcore
  have hplace : ¬ e.InPlace z := mt (e.inPlace_core_congr hzcore).1 (Edit.not_inPlace_of_edit hedit)
  rcases hwrite : s.write wr with ⟨f | y, s'⟩
  · have htarget : wr.component.name = n := ((e.sound_mutation n).name hedit).trans hname
    obtain ⟨-, hsame⟩ := ComponentStore.moves_of_write_error hwrite
    simp only [Mutation.turn, hwrite]
    -- A lost race leads back to the read; any other refusal is the one that the store was told to give.
    cases hlost : f.isConflict with
    | true =>
      rw [Stage.failed_of_lost hlost]
      exact ⟨hsame n, trivial⟩
    | false =>
      obtain ⟨text, htext, rfl⟩ := ComponentStore.writeFailure_of_write_error hwrite (htarget ▸ hz) hlost
      rw [Stage.failed_of_decided hlost]
      simp only [Proceeds, Edit.outcome, hread, hz, if_neg hplace, htext, hsame n]
      rfl
  · rw [← e.target_mutation n] at hname htracks
    obtain ⟨hx, -, hfind⟩ := htracks.written (e.sound_mutation n) hk hedit hname hwrite
    rw [e.target_mutation n] at hx hfind
    obtain rfl : z = x := Option.some.inj (hz.symm.trans hx)
    have hwrites := ComponentStore.writeFailure_of_write_ok hwrite
    simp only [Mutation.turn, hwrite, Proceeds, Edit.outcome, hread, hz, if_neg hplace, hwrites, hfind,
      Edit.onto_of_edit hedit]
    rfl

/-- A turn leads to another such point, or to the outcome of the edit. -/
theorem Poised.turn (h : Poised e n k s stage) (hk : k < twoTo 64) :
    (((e.mutation n).turn s stage).2.readFailure = s.readFailure ∧
        ((e.mutation n).turn s stage).2.writeFailure = s.writeFailure) ∧
      Proceeds e n k s ((e.mutation n).turn s stage).1 ((e.mutation n).turn s stage).2 := by
  cases stage with
  | reading =>
    have hsame : ((e.mutation n).turn s .reading).2 = s := (e.mutation n).turn_reading_snd s
    rw [hsame]
    exact ⟨⟨rfl, rfl⟩, proceeds_reading e n k s⟩
  | writing wr =>
    refine ⟨?_, proceeds_writing h hk⟩
    rw [(e.mutation n).turn_writing_snd s]
    exact s.failures_write wr
  | returned r => exact h.elim

/-- A change that is alone comes to the outcome of its edit. -/
theorem World.outcome_change {w : World} (hfree : w.FaultFree) (e : Edit) (n : String) :
    ((w.change (e.mutation n)).2.components.readFailure = w.components.readFailure ∧
        (w.change (e.mutation n)).2.components.writeFailure = w.components.writeFailure) ∧
      ((w.change (e.mutation n)).1.map fun _ => (), (w.change (e.mutation n)).2.components.find? n) =
        e.outcome n w.components := by
  refine change_induction (F := fun _ => False)
    (C := fun _ stage s => (s.readFailure = w.components.readFailure ∧
        s.writeFailure = w.components.writeFailure) ∧ Proceeds e n 0 w.components stage s)
    (e.sound_mutation n) (fun _ h => h) ⟨?_, fun h => h.elim, fun _ h => h⟩ hfree.meets
    ⟨⟨rfl, rfl⟩, rfl, trivial⟩
  rintro - stage s hopen ⟨⟨hread, hwrite⟩, hstage⟩
  have hpoised : s.find? n = w.components.find? n ∧ Poised e n 0 s stage := by
    cases stage with
    | returned r => exact (hopen r rfl).elim
    | _ => exact hstage
  obtain ⟨hfind, hpoised⟩ := hpoised
  have hsame : e.outcome n s = e.outcome n w.components := by
    rw [Edit.outcome, Edit.outcome, hread, hwrite, hfind]
  obtain ⟨⟨hread', hwrite'⟩, hturn⟩ := hpoised.turn (twoTo_pos 64)
  refine ⟨⟨hread'.trans hread, hwrite'.trans hwrite⟩, ?_⟩
  unfold Proceeds at hturn ⊢
  rw [hsame, hfind] at hturn
  exact hturn

end Turns

end ChartOperator
