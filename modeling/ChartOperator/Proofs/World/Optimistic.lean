import ChartOperator.Proofs.World.Calls
import ChartOperator.Proofs.World.Sample

set_option autoImplicit false

/-!
# Clients of a store of components

Any number of clients call a store, hold the copies that it returned, and write them back whenever they like.
`StoreCall` is one of their calls, `ComponentStore.afterAll` the store behind a run of them, and `tally` counts
the calls of a run by what they do.

One invariant carries the whole account: the version of a stored object is the decimal text of one more than
the number of its changes so far (`Numbered`). So a copy is up to date as long as its version is the one that
is stored, and the store tells the two apart without looking at anything else (`write_of_copy`).
-/

namespace ChartOperator

/-- A call of a client on a store, a change by a writer of whom only the version is seen, or a test that tells
the store to fail and to report conflicts. -/
inductive StoreCall
  | get (name : String)
  | list
  | write (wr : Write)
  | touch (name : String)
  | tune (pendingConflicts : Nat) (writeFailure readFailure : Option String)

namespace ComponentStore

variable {s s' : ComponentStore} {n : String} {x y z : Component} {wr : Write} {k : Nat}

/-! ## Runs of calls -/

/-- The store behind a call. -/
def after (s : ComponentStore) : StoreCall → ComponentStore
  | .get _ | .list => s
  | .write wr => (s.write wr).2
  | .touch n => s.touch n
  | .tune pendingConflicts writeFailure readFailure => { s with pendingConflicts, writeFailure, readFailure }

/-- The copies that a client gets from a call. -/
def copies (s : ComponentStore) : StoreCall → List Component
  | .get n => (s.get n).toOption.toList
  | .list => s.list.toOption.getD []
  | .write wr => (s.write wr).1.toOption.toList
  | .touch _ | .tune _ _ _ => []

/-- The store behind a run of calls. -/
def afterAll (s : ComponentStore) (calls : List StoreCall) : ComponentStore := calls.foldl after s

/-- A store in which these objects were made, one after the other. -/
def holding («namespace» : String) (cs : List Component) : ComponentStore :=
  cs.foldl insert { «namespace» }

/-- Whether the write is accepted. -/
def accepts (s : ComponentStore) (wr : Write) : Bool := (s.write wr).1.isOk

/-- Whether the call changes the object with a name: a write of it that is accepted, or a touch. -/
def changes (n : String) (s : ComponentStore) : StoreCall → Bool
  | .write wr => wr.component.name == n && s.accepts wr
  | .touch m => m == n && (s.find? n).isSome
  | _ => false

/-- Whether the call is an accepted write of an object without its status. -/
def updatesObject (s : ComponentStore) : StoreCall → Bool
  | .write (.object x) => s.accepts (.object x)
  | _ => false

/-- Whether the call is an accepted write of a status. -/
def updatesStatus (s : ComponentStore) : StoreCall → Bool
  | .write (.status x) => s.accepts (.status x)
  | _ => false

/-- How many calls of a run have a property, each in the store in which it is made. -/
def tally (p : ComponentStore → StoreCall → Bool) : ComponentStore → List StoreCall → Nat
  | _, [] => 0
  | s, call :: calls => (p s call).toNat + tally p (s.after call) calls

theorem afterAll_append (s : ComponentStore) (calls more : List StoreCall) :
    s.afterAll (calls ++ more) = (s.afterAll calls).afterAll more :=
  List.foldl_append

theorem tally_append (p : ComponentStore → StoreCall → Bool) (s : ComponentStore) (calls more : List StoreCall) :
    tally p s (calls ++ more) = tally p s calls + tally p (s.afterAll calls) more := by
  induction calls generalizing s with
  | nil => exact (Nat.zero_add _).symm
  | cons call calls ih =>
    simp only [List.cons_append, tally, ih, Nat.add_assoc]
    rfl

/-! ## What a call does to an object -/

theorem name_onto (hstored : s.find? wr.component.name = some x) : (wr.onto x).name = wr.component.name := by
  cases wr with
  | object c => rfl
  | status c => exact name_of_find? (c := x) hstored

theorem resourceVersion_onto (h : x.metadata.resourceVersion = wr.component.metadata.resourceVersion) :
    (wr.onto x).metadata.resourceVersion = x.metadata.resourceVersion := by
  cases wr with
  | object c => exact h.symm
  | status c => rfl

theorem accepts_iff : s.accepts wr = true ↔ ∃ y s', s.write wr = (.ok y, s') := by
  unfold accepts
  constructor
  · intro h
    rcases hres : s.write wr with ⟨e | y, s'⟩
    · rw [hres] at h
      cases h
    · exact ⟨y, s', rfl⟩
  · rintro ⟨y, s', h⟩
    rw [h]
    rfl

/-- What a call does to the object with a name: nothing unless it changes it, and then the object is settled
anew with the version that it had. -/
theorem find?_after (s : ComponentStore) (call : StoreCall) (n : String) :
    (changes n s call = false ∧ (s.after call).find? n = s.find? n) ∨
    (changes n s call = true ∧ ∃ x x', s.find? n = some x ∧
      x'.metadata.resourceVersion = x.metadata.resourceVersion ∧
      ((s.after call).find? n = some (bump x') ∨ (s.after call).find? n = none)) := by
  cases call with
  | get m => exact .inl ⟨rfl, rfl⟩
  | list => exact .inl ⟨rfl, rfl⟩
  | tune a b c => exact .inl ⟨rfl, rfl⟩
  | touch m =>
    simp only [changes, after, find?_touch]
    by_cases hname : n = m
    · subst hname
      cases hx : s.find? n with
      | none => exact .inl ⟨by simp, by simp⟩
      | some x => exact .inr ⟨by simp, x, x, rfl, rfl, .inl (by simp)⟩
    · exact .inl ⟨by simp [Ne.symm hname], if_neg hname⟩
  | write wr =>
    simp only [changes, after]
    rcases hres : s.write wr with ⟨e | y, s'⟩
    · have hrefused : s.accepts wr = false := by rw [accepts, hres]; rfl
      exact .inl ⟨by simp [hrefused], find?_congr (items_of_write_error hres) n⟩
    · have haccepted : s.accepts wr = true := accepts_iff.2 ⟨y, s', hres⟩
      obtain ⟨stored, hstored, hversion, -, hfind⟩ := write_ok hres
      by_cases hname : n = wr.component.name
      · subst hname
        refine .inr ⟨by simp [haccepted], stored, wr.onto stored, hstored, resourceVersion_onto hversion, ?_⟩
        rw [hfind, if_pos rfl]
        cases hsettled : settled (wr.onto stored) with
        | none => exact .inr rfl
        | some x => exact .inl (congrArg some (settled_eq_some hsettled))
      · refine .inl ⟨by simp [Ne.symm hname], ?_⟩
        rw [hfind, if_neg hname]

/-- Nobody makes an object anew that is gone. -/
theorem find?_afterAll_eq_none (h : s.find? n = none) (calls : List StoreCall) :
    (s.afterAll calls).find? n = none := by
  induction calls generalizing s with
  | nil => exact h
  | cons call calls ih =>
    refine ih ?_
    rcases s.find?_after call n with ⟨-, hsame⟩ | ⟨-, x, -, hx, -⟩
    · exact hsame.trans h
    · rw [h] at hx
      cases hx

/-! ## Versions count changes -/

/-- The object with a name, if it is stored, has the version of one that was changed so often. -/
def Numbered (n : String) (k : Nat) (s : ComponentStore) : Prop :=
  ∀ x, s.find? n = some x → x.metadata.resourceVersion = some (Text.decimal (k + 1))

theorem versionNumber_of_decimal (h : x.metadata.resourceVersion = some (Text.decimal k)) (hk : k < twoTo 64) :
    versionNumber x = k :=
  (versionNumber_eq_of_resourceVersion_eq h).trans (versionNumber_withVersion x hk)

/-- The version of an object that is changed once more. -/
theorem resourceVersion_bump (h : x.metadata.resourceVersion = some (Text.decimal (k + 1)))
    (hk : k < twoTo 63) : (bump x).metadata.resourceVersion = some (Text.decimal (k + 2)) := by
  have htwo : twoTo 63 = 9223372036854775808 := rfl
  have htwo' : twoTo 64 = 18446744073709551616 := rfl
  have hnumber : versionNumber x = k + 1 := versionNumber_of_decimal h (by omega)
  have hmod : (k + 1 + 1) % twoTo 64 = k + 2 := Nat.mod_eq_of_lt (by omega)
  rw [bump, nextVersion, hnumber, hmod]
  rfl

/-- One call numbers the object on by the changes that it makes. -/
theorem Numbered.after (h : Numbered n k s) (call : StoreCall) (hk : k < twoTo 63) :
    Numbered n (k + (changes n s call).toNat) (s.after call) := by
  intro z hz
  rcases s.find?_after call n with ⟨hunchanged, hsame⟩ | ⟨hchanged, x, x', hx, hversion, hnext⟩
  · rw [hsame] at hz
    rw [hunchanged]
    exact h z hz
  · rw [hchanged]
    rcases hnext with hnext | hgone
    · obtain rfl : bump x' = z := Option.some.inj (hnext.symm.trans hz)
      exact resourceVersion_bump (hversion.trans (h x hx)) hk
    · rw [hgone] at hz
      cases hz

/-- A run numbers the object on by the changes that it makes. -/
theorem Numbered.afterAll (h : Numbered n k s) (calls : List StoreCall)
    (hk : k + tally (changes n) s calls < twoTo 63) :
    Numbered n (k + tally (changes n) s calls) (s.afterAll calls) := by
  induction calls generalizing s k with
  | nil => exact h
  | cons call calls ih =>
    simp only [tally] at hk ⊢
    rw [← Nat.add_assoc] at hk ⊢
    exact ih (h.after call (by omega)) hk

theorem find?_insert (s : ComponentStore) (c : Component) (n : String) :
    (s.insert c).find? n = s.find? n ∨ ∃ x, (s.insert c).find? n = some (withVersion x "1") := by
  let c' := withVersion { c with metadata := { c.metadata with «namespace» := some s.namespace } } "1"
  by_cases hname : n = c'.name
  · exact .inr ⟨_, hname ▸ find?_put_self s c'⟩
  · exact .inl (find?_put_ne s hname)

/-- An object that was made, and not yet changed, has the first version. -/
theorem numbered_holding (space : String) (cs : List Component) (n : String) :
    Numbered n 0 (holding space cs) := by
  have hmade : ∀ s, Numbered n 0 s → Numbered n 0 (cs.foldl insert s) := by
    induction cs with
    | nil => exact fun s h => h
    | cons c cs ih =>
      refine fun s h => ih (s.insert c) fun x hx => ?_
      rcases s.find?_insert c n with hsame | ⟨y, hy⟩
      · exact h x (hsame ▸ hx)
      · obtain rfl : withVersion y "1" = x := Option.some.inj (hy.symm.trans hx)
        rfl
  exact hmade _ fun x hx => by cases hx

/-! ## Copies -/

theorem find?_of_mem (h : x ∈ s.items) : s.find? x.name = some x := by
  obtain ⟨front, back, hitems⟩ := List.append_of_mem h
  have hascending := s.ascending
  rw [hitems] at hascending
  refine List.find?_eq_some_iff_append.2 ⟨by simp, front, back, hitems, fun y hy => ?_⟩
  have hlt : y.name < x.name := (List.pairwise_append.1 hascending).2.2 y hy x List.mem_cons_self
  simp only [Bool.not_eq_true', beq_eq_false_iff_ne]
  exact fun he => Std.lt_irrefl (he ▸ hlt)

/-- A copy that a client gets is what is stored then, unless the call has just removed it. -/
theorem find?_of_mem_copies {call : StoreCall} (h : x ∈ s.copies call) :
    (s.after call).find? x.name = some x ∨ (s.after call).find? x.name = none := by
  cases call with
  | get m =>
    have hget : s.get m = .ok x := by
      simp only [copies] at h
      cases hres : s.get m with
      | error e => rw [hres] at h; cases h
      | ok y =>
        rw [hres] at h
        rw [List.mem_singleton.1 h]
    have hx := find?_of_get hget
    exact .inl ((name_of_find? hx).symm ▸ hx)
  | list =>
    refine .inl (find?_of_mem ?_)
    simp only [copies, list, components] at h
    split at h
    · cases h
    · exact h
  | write wr =>
    simp only [copies, after] at h ⊢
    rcases hres : s.write wr with ⟨e | y, s'⟩
    · rw [hres] at h
      cases h
    · rw [hres] at h
      obtain rfl : x = y := List.mem_singleton.1 h
      obtain ⟨stored, hstored, -, hx, hfind⟩ := write_ok hres
      rcases hsettled : settled (wr.onto stored) with - | z
      · rw [hsettled] at hx
        have hname : x.name = wr.component.name := hx ▸ name_onto hstored
        right
        rw [hfind, if_pos hname, hsettled]
      · rw [hsettled] at hx
        have hname : x.name = wr.component.name := by
          rw [hx, Option.getD_some, settled_eq_some hsettled]
          exact name_onto hstored
        left
        rw [hfind, if_pos hname, hsettled, hx]
        rfl
  | touch m => cases h
  | tune a b c => cases h

/-! ## Counters -/

/-- A call counts as the accepted write that it is. -/
theorem counters_after (s : ComponentStore) (call : StoreCall) :
    (s.after call).updates = s.updates + (updatesObject s call).toNat ∧
      (s.after call).statusUpdates = s.statusUpdates + (updatesStatus s call).toNat := by
  cases call with
  | get m => exact ⟨rfl, rfl⟩
  | list => exact ⟨rfl, rfl⟩
  | tune a b c => exact ⟨rfl, rfl⟩
  | touch m =>
    simp only [after, touch]
    split <;> exact ⟨rfl, rfl⟩
  | write wr =>
    rcases hwrite : s.write wr with ⟨e | y, s'⟩
    · cases wr <;> simp only [after, updatesObject, updatesStatus, accepts, hwrite] <;>
        exact counters_of_write_error hwrite
    · cases wr with
      | object x =>
        simp only [after, updatesObject, updatesStatus, accepts, hwrite]
        exact counters_of_object hwrite
      | status x =>
        simp only [after, updatesObject, updatesStatus, accepts, hwrite]
        exact counters_of_status hwrite

/-- The counters of a store count the accepted writes of a run. -/
theorem counters_afterAll (s : ComponentStore) (calls : List StoreCall) :
    (s.afterAll calls).updates = s.updates + tally updatesObject s calls ∧
      (s.afterAll calls).statusUpdates = s.statusUpdates + tally updatesStatus s calls := by
  induction calls generalizing s with
  | nil => exact ⟨rfl, rfl⟩
  | cons call calls ih =>
    obtain ⟨hupdates, hstatus⟩ := s.counters_after call
    obtain ⟨hupdates', hstatus'⟩ := ih (s.after call)
    simp only [tally, ← Nat.add_assoc, ← hupdates, ← hstatus]
    exact ⟨hupdates', hstatus'⟩

theorem counters_holding (space : String) (cs : List Component) :
    (holding space cs).updates = 0 ∧ (holding space cs).statusUpdates = 0 := by
  have hmade : ∀ s : ComponentStore, (cs.foldl insert s).updates = s.updates ∧
      (cs.foldl insert s).statusUpdates = s.statusUpdates := by
    induction cs with
    | nil => exact fun s => ⟨rfl, rfl⟩
    | cons c cs ih => exact fun s => ih (s.insert c)
  exact hmade _

/-! ## Writes of copies -/

/-- What a store that is not told to fail finds when it examines a copy. -/
theorem examine_eq (hfailure : s.writeFailure = none) (hpending : s.pendingConflicts = 0) (x : Component) :
    s.examine x = match s.find? x.name with
      | none => (.error (missing x.name), s)
      | some stored =>
        if stored.metadata.resourceVersion = x.metadata.resourceVersion then (.ok stored, s)
        else (.error (.conflict Component.kind x.name), s) := by
  cases hfound : s.find? x.name <;> simp [examine, hfailure, hpending, hfound]

theorem write_of_examine_error {e : Failure} (h : s.examine wr.component = (.error e, s')) :
    s.write wr = (.error e, s') := by
  cases wr with
  | object x => simp only [write, update, show s.examine x = _ from h]
  | status x => simp only [write, updateStatus, show s.examine x = _ from h]

theorem accepts_of_examine_ok (h : s.examine wr.component = (.ok x, s')) : s.accepts wr = true := by
  cases wr with
  | object y => simp only [accepts, write, update, show s.examine y = _ from h]; rfl
  | status y => simp only [accepts, write, updateStatus, show s.examine y = _ from h]; rfl

/-- A write is accepted if its copy has the version that is stored. -/
theorem accepts_iff_version (hfailure : s.writeFailure = none) (hpending : s.pendingConflicts = 0) :
    s.accepts wr = true ↔ ∃ stored, s.find? wr.component.name = some stored ∧
      stored.metadata.resourceVersion = wr.component.metadata.resourceVersion := by
  constructor
  · intro h
    obtain ⟨y, s', hres⟩ := accepts_iff.1 h
    obtain ⟨stored, hstored, hversion, -, -⟩ := write_ok hres
    exact ⟨stored, hstored, hversion⟩
  · rintro ⟨stored, hstored, hversion⟩
    have hfound : s.examine wr.component = (.ok stored, s) := by
      rw [examine_eq hfailure hpending, hstored]
      exact if_pos hversion
    exact accepts_of_examine_ok hfound

/-- What a store does with the write of a copy: it is accepted if it is up to date, and the version that it
leads to is above some others. -/
structure Admits (s : ComponentStore) (wr : Write) (upToDate : Prop) (lower : Nat → Prop) : Prop where
  accepts_iff : s.accepts wr = true ↔ upToDate
  /-- A refusal tells whether the object is gone, and changes nothing. -/
  refuses : s.accepts wr = false →
    s.write wr = (.error (match s.find? wr.component.name with
      | none => missing wr.component.name
      | some _ => .conflict Component.kind wr.component.name), s)
  /-- The object is removed if it is being deleted and nothing keeps it. Otherwise it has what was written, and
  all else of what was stored, under a new version. -/
  settles : s.accepts wr = true → ∃ stored, s.find? wr.component.name = some stored ∧
    ((s.write wr).2.find? wr.component.name = none ↔
      (wr.onto stored).isBeingDeleted = true ∧ (wr.onto stored).finalizers = []) ∧
    ∀ y, (s.write wr).2.find? wr.component.name = some y →
      y = withVersion (wr.onto stored) (Text.decimal (versionNumber y)) ∧ ∀ v, lower v → v < versionNumber y
  others : ∀ m, m ≠ wr.component.name → (s.write wr).2.find? m = s.find? m

theorem settled_eq_none_iff : settled x = none ↔ x.isBeingDeleted = true ∧ x.finalizers = [] := by
  simp [settled]

theorem decimal_injective {a b : Nat} (h : Text.decimal a = Text.decimal b) : a = b := by
  have hread := congrArg (fun t => Text.readNat? t.toList) h
  simpa only [Text.readNat?_decimal, Option.some.injEq] using hread

theorem write_refused (hfailure : s.writeFailure = none) (hpending : s.pendingConflicts = 0)
    (h : s.accepts wr = false) :
    s.write wr = (.error (match s.find? wr.component.name with
      | none => missing wr.component.name
      | some _ => .conflict Component.kind wr.component.name), s) := by
  refine write_of_examine_error ?_
  rw [examine_eq hfailure hpending]
  cases hfound : s.find? wr.component.name with
  | none => rfl
  | some stored =>
    refine if_neg fun hversion => ?_
    rw [(accepts_iff_version hfailure hpending).2 ⟨stored, hfound, hversion⟩] at h
    cases h

/-- An accepted write leads from the version of an object to the next one. -/
theorem write_settles (hnumbered : Numbered wr.component.name k s) (hk : k < twoTo 63)
    (h : s.accepts wr = true) :
    ∃ stored, s.find? wr.component.name = some stored ∧
      ((s.write wr).2.find? wr.component.name = none ↔
        (wr.onto stored).isBeingDeleted = true ∧ (wr.onto stored).finalizers = []) ∧
      ∀ y, (s.write wr).2.find? wr.component.name = some y →
        y = withVersion (wr.onto stored) (Text.decimal (versionNumber y)) ∧ versionNumber y = k + 2 := by
  obtain ⟨y, s', hres⟩ := accepts_iff.1 h
  obtain ⟨stored, hstored, hversion, -, hfind⟩ := write_ok hres
  rw [hres]
  have hsettled : s'.find? wr.component.name = settled (wr.onto stored) := (hfind _).trans (if_pos rfl)
  refine ⟨stored, hstored, by rw [hsettled, settled_eq_none_iff], fun z hz => ?_⟩
  obtain rfl : z = bump (wr.onto stored) := settled_eq_some (hsettled.symm.trans hz)
  have hnext : (bump (wr.onto stored)).metadata.resourceVersion = some (Text.decimal (k + 2)) :=
    resourceVersion_bump ((resourceVersion_onto hversion).trans (hnumbered stored hstored)) hk
  have hnumber : versionNumber (bump (wr.onto stored)) = k + 2 := by
    refine versionNumber_of_decimal hnext ?_
    have htwo : twoTo 63 = 9223372036854775808 := rfl
    have htwo' : twoTo 64 = 18446744073709551616 := rfl
    omega
  refine ⟨?_, hnumber⟩
  rw [hnumber]
  have hversion' : nextVersion (wr.onto stored) = Text.decimal (k + 2) := Option.some.inj hnext
  rw [bump, hversion']

theorem write_others (s : ComponentStore) (wr : Write) {m : String} (hm : m ≠ wr.component.name) :
    (s.write wr).2.find? m = s.find? m := by
  rcases hres : s.write wr with ⟨e | y, s'⟩
  · exact find?_congr (items_of_write_error hres) m
  · obtain ⟨stored, -, -, -, hfind⟩ := write_ok hres
    exact (hfind m).trans (if_neg hm)

/-- Behind any run the version of a stored object tells how often it was changed. -/
theorem numbered_run (space : String) (cs : List Component) {calls : List StoreCall}
    (hfew : tally (changes n) (holding space cs) calls < twoTo 63) :
    Numbered n (tally (changes n) (holding space cs) calls) ((holding space cs).afterAll calls) := by
  have hrun := (numbered_holding space cs n).afterAll calls (by omega)
  rw [Nat.zero_add] at hrun
  exact hrun

/-- What is stored later has the version of a copy if nothing changed the object in the meantime. -/
theorem version_eq_iff {j : Nat} {s₁ : ComponentStore} (hcopy : s₁.find? n = some x ∨ s₁.find? n = none)
    (hgone : s₁.find? n = none → s.find? n = none) (hbefore : Numbered n k s₁) (hnow : Numbered n (k + j) s) :
    (∃ stored, s.find? n = some stored ∧ stored.metadata.resourceVersion = x.metadata.resourceVersion) ↔
      (s.find? n).isSome = true ∧ j = 0 := by
  rcases hcopy with hx | hnone
  · have hold : x.metadata.resourceVersion = some (Text.decimal (k + 1)) := hbefore x hx
    constructor
    · rintro ⟨stored, hstored, hsame⟩
      have hcount : k + j + 1 = k + 1 :=
        decimal_injective (Option.some.inj ((hnow stored hstored).symm.trans (hsame.trans hold)))
      exact ⟨by rw [hstored]; rfl, by omega⟩
    · rintro ⟨hstored, rfl⟩
      obtain ⟨stored, hstored⟩ := Option.isSome_iff_exists.1 hstored
      exact ⟨stored, hstored, (hnow stored hstored).trans hold.symm⟩
  · constructor
    · rintro ⟨stored, hstored, -⟩
      rw [hgone hnone] at hstored
      cases hstored
    · rintro ⟨hstored, -⟩
      rw [hgone hnone] at hstored
      cases hstored

/-- No earlier version of an object is above the one that it has. -/
theorem versionNumber_le_of_prefix {space : String} {cs : List Component} {calls run : List StoreCall}
    (hcalls : calls <+: run) (hfew : tally (changes n) (holding space cs) run < twoTo 63)
    (hx : ((holding space cs).afterAll calls).find? n = some x) :
    versionNumber x ≤ tally (changes n) (holding space cs) run + 1 := by
  obtain ⟨more, rfl⟩ := hcalls
  have htwo : twoTo 63 = 9223372036854775808 := rfl
  have htwo' : twoTo 64 = 18446744073709551616 := rfl
  rw [tally_append] at hfew ⊢
  have hnumbered : Numbered n (tally (changes n) (holding space cs) calls) ((holding space cs).afterAll calls) :=
    numbered_run space cs (by omega)
  rw [versionNumber_of_decimal (hnumbered x hx) (by omega)]
  omega

/-- Clients that write copies which the store once returned, possibly edited, are told by the store whether
another change came between. A write is accepted if the object is still stored and was not changed since the
call that returned the copy; the counters count the accepted writes. -/
theorem write_of_copy {space : String} {cs : List Component} {earlier since : List StoreCall} {call : StoreCall}
    {c : Component} {wr : Write} (hcopy : c ∈ ((holding space cs).afterAll earlier).copies call)
    (hname : wr.component.name = c.name)
    (hversion : wr.component.metadata.resourceVersion = c.metadata.resourceVersion)
    (hs : (holding space cs).afterAll (earlier ++ call :: since) = s)
    (hfew : tally (changes c.name) (holding space cs) (earlier ++ call :: since) < twoTo 63)
    (hfailure : s.writeFailure = none) (hpending : s.pendingConflicts = 0) :
    s.Admits wr
      ((s.find? c.name).isSome = true ∧
        tally (changes c.name) ((holding space cs).afterAll (earlier ++ [call])) since = 0)
      (fun v => ∃ calls x, calls <+: earlier ++ call :: since ∧
        ((holding space cs).afterAll calls).find? c.name = some x ∧ versionNumber x = v) ∧
    ∀ calls, ((holding space cs).afterAll calls).updates = tally updatesObject (holding space cs) calls ∧
      ((holding space cs).afterAll calls).statusUpdates = tally updatesStatus (holding space cs) calls := by
  have hrun : earlier ++ call :: since = (earlier ++ [call]) ++ since := by simp
  have hnow := numbered_run space cs hfew
  rw [hs] at hnow
  refine ⟨⟨?_, write_refused hfailure hpending, fun haccepted => ?_, fun m => s.write_others wr⟩, fun calls => ?_⟩
  · rw [accepts_iff_version hfailure hpending, hname, hversion]
    rw [hrun, tally_append] at hnow hfew
    refine version_eq_iff ?_ (fun hnone => ?_) (numbered_run space cs (by omega)) hnow
    · rw [afterAll_append]
      exact find?_of_mem_copies hcopy
    · rw [← hs, hrun, afterAll_append]
      exact find?_afterAll_eq_none hnone since
  · rw [← hname] at hnow hfew ⊢
    obtain ⟨stored, hstored, hgone, hwritten⟩ := write_settles hnow hfew haccepted
    refine ⟨stored, hstored, hgone, fun y hy => ?_⟩
    obtain ⟨hform, hnumber⟩ := hwritten y hy
    refine ⟨hform, ?_⟩
    rintro v ⟨calls, x, hcalls, hx, rfl⟩
    have hbelow := versionNumber_le_of_prefix hcalls hfew hx
    omega
  · obtain ⟨hupdates, hstatus⟩ := (holding space cs).counters_afterAll calls
    obtain ⟨hnone, hnone'⟩ := counters_holding space cs
    rw [hnone, Nat.zero_add] at hupdates
    rw [hnone', Nat.zero_add] at hstatus
    exact ⟨hupdates, hstatus⟩

/-- A copy that was read before another writer came is refused, and the store stays as it is. -/
theorem write_of_copy_touched :
    ((holding "ecosystem" [sampleComponent "0.1.0" .installed []]).afterAll
        [.get "dogu-op", .touch "dogu-op"]).write (.status (sampleComponent "0.1.0" .installed [])) =
      (.error (.conflict Component.kind "dogu-op"),
        (holding "ecosystem" [sampleComponent "0.1.0" .installed []]).afterAll
          [.get "dogu-op", .touch "dogu-op"]) := by
  let c := sampleComponent "0.1.0" .installed []
  let s := (holding "ecosystem" [c]).afterAll [.get "dogu-op", .touch "dogu-op"]
  have hcopy : c ∈ ((holding "ecosystem" [c]).afterAll []).copies (.get "dogu-op") := by decide +kernel
  have hs : (holding "ecosystem" [c]).afterAll ([] ++ .get "dogu-op" :: [.touch "dogu-op"]) = s := rfl
  have hname : (Write.status c).component.name = c.name := rfl
  obtain ⟨hadmits, -⟩ := write_of_copy hcopy hname rfl hs (by decide +kernel) rfl rfl
  have htouched : tally (changes "dogu-op") ((holding "ecosystem" [c]).afterAll [.get "dogu-op"])
      [.touch "dogu-op"] = 1 := by decide +kernel
  have hrefused : s.accepts (.status c) = false := by
    refine Bool.eq_false_iff.2 fun haccepted => ?_
    obtain ⟨-, hcurrent⟩ := hadmits.accepts_iff.1 haccepted
    exact absurd (htouched.symm.trans hcurrent) (by decide)
  exact hadmits.refuses hrefused

end ComponentStore

end ChartOperator
