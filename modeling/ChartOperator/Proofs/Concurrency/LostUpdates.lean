import ChartOperator.Proofs.Concurrency.Turns
import ChartOperator.Proofs.World.Sample

set_option autoImplicit false

/-!
# No update is lost

A change of a stored component reads a copy, edits it and writes it back. Other writers may act before each
of its turns, and it may be made to start anew any number of times. `Course` says how the turns of one
change and the writes of others follow each other.

A run of `World.change` in which other writers touch components before its calls is such a course
(`course_change`).

The versions carry the argument (`Tracks`). Each accepted write moves the version on by one, so that a copy
with the version that is stored is the stored object itself, as long as the others make fewer than
`twoTo 63` writes. So the write of a change, when it is accepted, is its edit of the object as the others
left it. It is the only one, and a change that fails has made none (`Course.standing`).
-/

namespace ChartOperator

open ComponentStore (settled bump versionNumber)

/-! ## Edits -/

/-- The edits that the operator makes to stored components. -/
inductive Edit
  | setStatus (status : Lifecycle) (installed : Option String)
  | addFinalizer
  | removeFinalizer
  | setVersion (version : String)
  | setHealth (verdict : Health) (installed : Option String)
  | fallBack (status : Lifecycle) (backoff : Duration)
  | clearBackoff

namespace Edit

/-- The change that makes an edit. -/
def mutation (n : String) : Edit → Mutation
  | setStatus status installed => .setStatus n status installed
  | addFinalizer => .addFinalizer n
  | removeFinalizer => .removeFinalizer n
  | setVersion version => .setVersion n version
  | setHealth verdict installed => .setHealth n verdict installed
  | fallBack status backoff => .fallBack n status backoff
  | clearBackoff => .clearBackoff n

/-- The edited object. -/
def apply : Edit → Component → Component
  | setStatus status installed, x => x.mapStatus (.advanced status installed)
  | addFinalizer, x => x.addFinalizer
  | removeFinalizer, x => x.removeFinalizer
  | setVersion version, x => { x with spec := { x.spec with version } }
  | setHealth verdict installed, x => x.mapStatus fun s =>
      { s with health := verdict, installedVersion := installed.orElse fun _ => s.installedVersion }
  | fallBack status backoff, x => x.mapStatus fun s =>
      { s with lifecycle := status, backoffNanos := backoff.nanoseconds % twoTo 64 }
  | clearBackoff, x => x.mapStatus fun s => { s with backoffNanos := 0 }

/-- The object without the fields that an edit sets. A status that was never written counts as the initial
one. -/
def rest : Edit → Component → Component
  | setStatus _ installed, x => x.mapStatus fun s =>
      { s with
        lifecycle := default, installedVersion := if installed.isSome then none else s.installedVersion }
  | addFinalizer, x => x.removeFinalizer
  | removeFinalizer, x => x.removeFinalizer
  | setVersion _, x => { x with spec := { x.spec with version := "" } }
  | setHealth _ installed, x => x.mapStatus fun s =>
      { s with
        health := default, installedVersion := if installed.isSome then none else s.installedVersion }
  | fallBack _ _, x => x.mapStatus fun s => { s with lifecycle := default, backoffNanos := 0 }
  | clearBackoff, x => x.mapStatus fun s => { s with backoffNanos := 0 }

/-- Nothing need be written for the edit. -/
def InPlace : Edit → Component → Prop
  | addFinalizer, x => x.hasFinalizer = true
  | removeFinalizer, x => x.hasFinalizer = false
  | _, _ => False

variable {e : Edit} {n : String} {x : Component} {wr : Write}

@[simp] theorem target_mutation (e : Edit) (n : String) : (e.mutation n).target = n := by cases e <;> rfl

theorem sound_mutation (e : Edit) (n : String) : (e.mutation n).Sound := by
  cases e with
  | addFinalizer => exact Mutation.sound_addFinalizer
  | removeFinalizer => exact Mutation.sound_removeFinalizer
  | setVersion version => exact Mutation.sound_setVersion
  | _ => exact Mutation.sound_ofStatus

/-- What is written makes the edited object of the object that was copied. -/
theorem onto_of_edit (h : (e.mutation n).edit x = some wr) : wr.onto x = e.apply x := by
  cases e with
  | addFinalizer =>
    obtain ⟨hnot, rfl⟩ := Mutation.edit_addFinalizer h
    rw [apply, Component.addFinalizer, if_neg (Bool.eq_false_iff.1 hnot)]
    rfl
  | removeFinalizer =>
    obtain ⟨-, rfl⟩ := Mutation.edit_removeFinalizer h
    rfl
  | _ =>
    cases h
    rfl

theorem inPlace_of_edit (h : (e.mutation n).edit x = none) : e.InPlace x := by
  cases e with
  | addFinalizer =>
    by_cases hhas : x.hasFinalizer = true
    · exact hhas
    · simp [mutation, Mutation.addFinalizer, hhas] at h
  | removeFinalizer =>
    by_cases hhas : x.hasFinalizer = true
    · simp [mutation, Mutation.removeFinalizer, hhas] at h
    · exact Bool.eq_false_iff.2 hhas
  | _ => cases h

end Edit

/-! ## Turns among other writers -/

/-- A turn of a change, with the store as it found it and as it left it. -/
structure Turn where
  stage : Stage
  before : ComponentStore
  after : ComponentStore

/-- The turn is a write that the store accepted. -/
def Turn.Writes (t : Turn) : Prop := ∃ wr y, t.stage = .writing wr ∧ t.before.write wr = (.ok y, t.after)

/-- The course of a change among other writers, of whom `writes` writes were accepted. They write objects and
statuses of any names, and touch them. Beside that they may store objects of other names, and tell the
store to report conflicts and to fail. -/
inductive Course (m : Mutation) (start : ComponentStore) :
    (stage : Stage) → ComponentStore → List Turn → (writes : Nat) → Prop
  | start : Course m start .reading start [] 0
  | turn {stage s turns k} (h : Course m start stage s turns k) (hopen : ∀ r, stage ≠ .returned r) :
    Course m start (m.turn s stage).1 (m.turn s stage).2 (turns ++ [⟨stage, s, (m.turn s stage).2⟩]) k
  | write {stage s turns k wr y s'} (h : Course m start stage s turns k) (hwrite : s.write wr = (.ok y, s')) :
    Course m start stage s' turns (k + 1)
  | touch {stage s turns k} (h : Course m start stage s turns k) (name : String) :
    Course m start stage (s.touch name) turns (k + 1)
  | insert {stage s turns k c} (h : Course m start stage s turns k) (hname : c.name ≠ m.target) :
    Course m start stage (s.insert c) turns k
  | tune {stage s turns k} (h : Course m start stage s turns k) (pendingConflicts : Nat)
    (writeFailure readFailure : Option String) :
    Course m start stage { s with pendingConflicts, writeFailure, readFailure } turns k

/-- A change in a world whose calls on components do not fail is a course among writers that touch, each of
whom uses up a fault. -/
theorem course_change {m : Mutation} {w : World} (hm : m.Sound)
    (hmeets : w.Meets fun f => ∀ e, f ≠ .error e) :
    ∃ turns k, k ≤ w.faultsLeft ∧
      Course m w.components (.returned (w.change m).1) (w.change m).2.components turns k := by
  have hkept : World.Kept m (fun f => ∀ e, f ≠ .error e) fun left stage s =>
      ∃ turns k, k + left ≤ w.faultsLeft ∧ Course m w.components stage s turns k := by
    refine ⟨?_, ?_, ?_⟩
    · rintro left stage s hopen ⟨turns, k, hk, h⟩
      exact ⟨_, k, hk, h.turn hopen⟩
    · rintro n left left' stage s - hleft ⟨turns, k, hk, h⟩
      exact ⟨turns, k + 1, by omega, h.touch n⟩
    · rintro left left' stage s hleft ⟨turns, k, hk, h⟩
      exact ⟨turns, k, by omega, h⟩
  obtain ⟨turns, k, hk, h⟩ :=
    World.change_induction hm (fun e he => he e rfl) hkept hmeets ⟨[], 0, by omega, .start⟩
  exact ⟨turns, k, by omega, h⟩

/-! ## Versions -/

section Tracks

variable {n : String} {x y : Component} {k : Nat} {s s' : ComponentStore} {wr : Write}

/-- If the object is still stored, its version has moved on from that of the copy by at most so many writes,
and without one it is the copy. -/
def Tracks (n : String) (x : Component) (k : Nat) (s : ComponentStore) : Prop :=
  ∀ z, s.find? n = some z →
    ∃ j, j ≤ k ∧ versionNumber z = (versionNumber x + j) % twoTo 64 ∧ (j = 0 → z = x)

theorem tracks_self (hx : s.find? n = some x) : Tracks n x k s := by
  intro z hz
  obtain rfl : x = z := Option.some.inj (hx.symm.trans hz)
  exact ⟨0, Nat.zero_le k, (Nat.mod_eq_of_lt (ComponentStore.versionNumber_lt x)).symm, fun _ => rfl⟩

theorem Tracks.of_find? (h : Tracks n x k s) (hfind : s'.find? n = s.find? n) : Tracks n x k s' := by
  intro z hz
  rw [hfind] at hz
  exact h z hz

theorem Tracks.mono {k' : Nat} (h : Tracks n x k s) (hk : k ≤ k') : Tracks n x k' s := by
  intro z hz
  obtain ⟨j, hj, hversion, hsame⟩ := h z hz
  exact ⟨j, Nat.le_trans hj hk, hversion, hsame⟩

/-- A new version is one further. -/
theorem tracks_bump {z z' : Component} (hz : ∃ j, j ≤ k ∧ versionNumber z = (versionNumber x + j) % twoTo 64 ∧
    (j = 0 → z = x)) (hversion : versionNumber z' = versionNumber z) :
    ∃ j, j ≤ k + 1 ∧ versionNumber (bump z') = (versionNumber x + j) % twoTo 64 ∧ (j = 0 → bump z' = x) := by
  obtain ⟨j, hj, hnumber, -⟩ := hz
  refine ⟨j + 1, by omega, ?_, by omega⟩
  rw [ComponentStore.versionNumber_bump, hversion, hnumber, Nat.mod_add_mod, Nat.add_assoc]

theorem Tracks.write (h : Tracks n x k s) (hwrite : s.write wr = (.ok y, s')) : Tracks n x (k + 1) s' := by
  obtain ⟨stored, hstored, hsame, -, hfind⟩ := ComponentStore.write_ok hwrite
  intro z hz
  rw [hfind] at hz
  split at hz
  · next hname =>
    rw [ComponentStore.settled_eq_some hz]
    refine tracks_bump (h stored (hname ▸ hstored)) (ComponentStore.versionNumber_eq_of_resourceVersion_eq ?_)
    cases wr with
    | object c => exact hsame.symm
    | status c => rfl
  · exact h.mono (Nat.le_succ k) z hz

theorem Tracks.touch (h : Tracks n x k s) (name : String) : Tracks n x (k + 1) (s.touch name) := by
  intro z hz
  rw [ComponentStore.find?_touch] at hz
  split at hz
  · obtain ⟨stored, hstored, rfl⟩ := Option.map_eq_some_iff.1 hz
    exact tracks_bump (h stored hstored) rfl
  · exact h.mono (Nat.le_succ k) z hz

/-- As long as there were fewer writes than versions, an object with the version of the copy is the copy. -/
theorem Tracks.eq_of_fewer {z : Component} (h : Tracks n x k s) (hk : k < twoTo 64)
    (hz : s.find? n = some z)
    (hversion : z.metadata.resourceVersion = x.metadata.resourceVersion) : z = x := by
  obtain ⟨j, hj, hnumber, hsame⟩ := h z hz
  refine hsame ?_
  rw [ComponentStore.versionNumber_eq_of_resourceVersion_eq hversion] at hnumber
  have hlt := ComponentStore.versionNumber_lt x
  have htwo : twoTo 64 = 18446744073709551616 := rfl
  rw [htwo] at hk hnumber hlt
  omega

/-- A write of a copy that tracks the stored object, if it is accepted, found that very object. -/
theorem Tracks.written {m : Mutation} (h : Tracks m.target x k s) (hm : m.Sound) (hk : k < twoTo 64)
    (hedit : m.edit x = some wr) (hname : x.name = m.target) (hwrite : s.write wr = (.ok y, s')) :
    s.find? m.target = some x ∧ y = (settled (wr.onto x)).getD (wr.onto x) ∧
      ∀ n, s'.find? n = if n = m.target then settled (wr.onto x) else s.find? n := by
  obtain ⟨stored, hstored, hversion, hy, hfind⟩ := ComponentStore.write_ok hwrite
  rw [(hm.name hedit).trans hname] at hstored hfind
  -- The version that the store compares is that of the copy, so the stored object is the copy.
  obtain rfl : stored = x := h.eq_of_fewer hk hstored (hversion.trans (hm.version hedit))
  exact ⟨hstored, hy, hfind⟩

end Tracks

/-! ## The invariant of a course -/

section Invariant

variable {m : Mutation} {start s : ComponentStore} {stage : Stage} {turns : List Turn} {k : Nat}

/-- What a change that returned has done to the store. -/
def Returned (m : Mutation) (turns : List Turn) : Except Failure (Option Component) → Prop
  | .error _ => ∀ t ∈ turns, ¬ t.Writes
  | .ok none => (∀ t ∈ turns, ¬ t.Writes) ∧ ∃ earlier t, turns = earlier ++ [t] ∧
      ((∃ x, t.before.find? m.target = some x ∧ m.edit x = none) ∨
        m.missingIsDone = true ∧ t.before.find? m.target = none)
  | .ok (some y) => ∃ earlier t x wr, turns = earlier ++ [t] ∧ (∀ u ∈ earlier, ¬ u.Writes) ∧ t.Writes ∧
      t.before.find? m.target = some x ∧ m.edit x = some wr ∧ y = (settled (wr.onto x)).getD (wr.onto x) ∧
      ∀ n, t.after.find? n = if n = m.target then settled (wr.onto x) else t.before.find? n

/-- What holds between the turns of a change: until it returns it has written nothing, and the copy that it is
about to store tracks the stored object. -/
def Standing (m : Mutation) (s : ComponentStore) (turns : List Turn) (k : Nat) : Stage → Prop
  | .reading => ∀ t ∈ turns, ¬ t.Writes
  | .writing wr => (∀ t ∈ turns, ¬ t.Writes) ∧
      ∃ x, m.edit x = some wr ∧ x.name = m.target ∧ Tracks m.target x k s
  | .returned r => Returned m turns r

theorem not_writes_snoc {t : Turn} (hturns : ∀ t ∈ turns, ¬ t.Writes) (ht : ¬ t.Writes) :
    ∀ u ∈ turns ++ [t], ¬ u.Writes := by
  intro u hu
  rcases List.mem_append.1 hu with hu | hu
  · exact hturns u hu
  · rw [List.mem_singleton.1 hu]
    exact ht

theorem standing_failed {e : Failure} (hturns : ∀ t ∈ turns, ¬ t.Writes) :
    Standing m s turns k (.failed e) := by
  unfold Stage.failed
  split
  · exact hturns
  · exact hturns

/-- A turn keeps what holds between turns. -/
theorem standing_turn (hm : m.Sound) (hk : k < twoTo 63) (h : Standing m s turns k stage)
    (hopen : ∀ r, stage ≠ .returned r) :
    Standing m (m.turn s stage).2 (turns ++ [⟨stage, s, (m.turn s stage).2⟩]) k (m.turn s stage).1 := by
  cases stage with
  | returned r => exact (hopen r rfl).elim
  | reading =>
    have hturns : ∀ s', ∀ u ∈ turns ++ [⟨.reading, s, s'⟩], ¬ u.Writes := by
      refine fun s' => not_writes_snoc h ?_
      rintro ⟨wr, y, hstage, -⟩
      cases hstage
    unfold Mutation.turn
    cases hget : s.get m.target with
    | error e =>
      dsimp only
      split
      · next hdone =>
        obtain ⟨hdone, hmissing⟩ := Bool.and_eq_true_iff.1 hdone
        exact ⟨hturns s, turns, _, rfl, .inr ⟨hdone, ComponentStore.find?_of_get_notFound hget hmissing⟩⟩
      · exact standing_failed (hturns s)
    | ok x =>
      have hx := ComponentStore.find?_of_get hget
      dsimp only
      cases hedit : m.edit x with
      | none => exact ⟨hturns s, turns, _, rfl, .inl ⟨x, hx, hedit⟩⟩
      | some wr => exact ⟨hturns s, x, hedit, ComponentStore.name_of_find? hx, tracks_self hx⟩
  | writing wr =>
    obtain ⟨hturns, x, hedit, hname, htracks⟩ := h
    rcases hwrite : s.write wr with ⟨r, s'⟩
    cases r with
    | error e =>
      have hturn : m.turn s (.writing wr) = (.failed e, s') := by simp only [Mutation.turn, hwrite]
      rw [hturn]
      refine standing_failed (not_writes_snoc hturns ?_)
      rintro ⟨wr', y, hstage, haccepted⟩
      cases hstage
      rw [hwrite] at haccepted
      cases haccepted
    | ok y =>
      have hturn : m.turn s (.writing wr) = (.returned (.ok (some y)), s') := by
        simp only [Mutation.turn, hwrite]
      rw [hturn]
      have hfew : k < twoTo 64 := Nat.lt_trans hk (by decide)
      obtain ⟨hx, hy, hfind⟩ := htracks.written hm hfew hedit hname hwrite
      exact ⟨turns, _, x, wr, rfl, hturns, ⟨wr, y, rfl, hwrite⟩, hx, hedit, hy, hfind⟩

/-- What other writers do keeps what holds between turns. -/
theorem standing_others {s' : ComponentStore} {k' : Nat} (h : Standing m s turns k stage)
    (htracks : ∀ x, Tracks m.target x k s → Tracks m.target x k' s') : Standing m s' turns k' stage := by
  cases stage with
  | reading => exact h
  | writing wr =>
    obtain ⟨hturns, x, hedit, hname, hx⟩ := h
    exact ⟨hturns, x, hedit, hname, htracks x hx⟩
  | returned r => exact h

theorem Course.standing (hm : m.Sound) (h : Course m start stage s turns k) (hk : k < twoTo 63) :
    Standing m s turns k stage := by
  induction h with
  | start => exact fun t ht => (List.not_mem_nil ht).elim
  | turn _ hopen ih => exact standing_turn hm hk (ih hk) hopen
  | write _ hwrite ih => exact standing_others (ih (by omega)) fun x hx => hx.write hwrite
  | touch _ name ih => exact standing_others (ih (by omega)) fun x hx => hx.touch name
  | insert _ hname ih =>
    refine standing_others (ih hk) fun x hx => hx.of_find? ?_
    exact ComponentStore.find?_put_ne _ (Ne.symm hname)
  | tune _ pendingConflicts writeFailure readFailure ih =>
    exact standing_others (ih hk) fun x hx => hx.of_find? rfl

end Invariant

end ChartOperator
