import ChartOperator.Proofs.World.Changes
import Mathlib.Data.List.Flatten

set_option autoImplicit false

/-!
# A change in turns

`World.change` makes a change in one go. Other writers may act between any two calls of a change, so it is
taken apart here: in a turn it makes its next call on the store, a read or a write, and `Stage` tells where
it stands then.

Nothing is lost or added by that. Where every call of a change reaches the store, what turns keep, and what
the writers keep that come between them, holds of the result and of the store of `World.change`
(`change_induction`). So a change that is alone takes its turns to that result and that store
(`turns_change`).
-/

namespace ChartOperator

/-- Where a change stands. -/
inductive Stage
  /-- It is about to read a fresh copy. -/
  | reading
  /-- It is about to store the copy that it edited. -/
  | writing (wr : Write)
  | returned (r : Except Failure (Option Component))

/-- After a failure a change starts anew if it lost a race, and gives up otherwise. -/
def Stage.failed (e : Failure) : Stage := if e.isConflict then .reading else .returned (.error e)

theorem Stage.failed_of_lost {e : Failure} (h : e.isConflict = true) : failed e = .reading := if_pos h

theorem Stage.failed_of_decided {e : Failure} (h : e.isConflict = false) : failed e = .returned (.error e) :=
  if_neg (Bool.eq_false_iff.1 h)

namespace Mutation

/-- One turn of a change: its next call on the store. -/
def turn (m : Mutation) (s : ComponentStore) : Stage → Stage × ComponentStore
  | .reading =>
    match s.get m.target with
    | .error e => (if m.missingIsDone && e.isNotFound then .returned (.ok none) else .failed e, s)
    | .ok fresh =>
      match m.edit fresh with
      | none => (.returned (.ok none), s)
      | some wr => (.writing wr, s)
  | .writing wr =>
    match s.write wr with
    | (.ok stored, s) => (.returned (.ok (some stored)), s)
    | (.error e, s) => (.failed e, s)
  | .returned r => (.returned r, s)

/-- Several turns of a change that is alone. -/
def turns (m : Mutation) : Nat → Stage × ComponentStore → Stage × ComponentStore
  | 0, p => p
  | k + 1, p => let q := m.turns k p; m.turn q.2 q.1

end Mutation

namespace World

variable {w w' : World} {c : Call} {F : Fault → Prop} {m : Mutation}

/-! ## Calls that reach the store -/

/-- All faults that calls on components will meet are of one kind. -/
def Meets (w : World) (F : Fault → Prop) : Prop :=
  ∀ p, ∀ f ∈ w.faultsOf p, p.ofComponents = true → ∀ g, f = some g → F g

/-- How many faults are left. -/
def faultsLeft (w : World) : Nat := (w.faults.flatMap (·.2)).length

theorem FaultFree.meets (h : w.FaultFree) : w.Meets F := by
  intro p f hf _ g hg
  rw [h p f hf] at hg
  cases hg

/-- Without the faults of a channel, and with those behind its first one, there are fewer. -/
theorem length_others_lt {p : Channel} {f : Option Fault} {fs : List (Option Fault)}
    (l : List (Channel × List (Option Fault))) (h : ((l.find? (·.1 == p)).map (·.2)).getD [] = f :: fs) :
    ((l.filter fun e => e.1 ≠ p).flatMap (·.2)).length + fs.length < (l.flatMap (·.2)).length := by
  induction l with
  | nil => cases h
  | cons e rest ih =>
    by_cases he : e.1 = p
    · have hrest := ((List.filter_sublist (p := fun e => e.1 ≠ p) (l := rest)).flatMap (·.2)).length_le
      rw [List.find?_cons_of_pos (by simpa using he), Option.map_some, Option.getD_some] at h
      rw [List.filter_cons_of_neg (by simpa using he), List.flatMap_cons, List.length_append, h]
      rw [List.length_cons]
      omega
    · have hrest := ih (by rwa [List.find?_cons_of_neg (by simpa using he)] at h)
      rw [List.filter_cons_of_pos (by simpa using he), List.flatMap_cons, List.flatMap_cons]
      rw [List.length_append, List.length_append]
      omega

/-- A fault that is taken is no longer left. -/
theorem faultsLeft_takeFault (w : World) (p : Channel) :
    (w.takeFault p).2.faultsLeft ≤ w.faultsLeft ∧
      ((w.takeFault p).1 ≠ none → (w.takeFault p).2.faultsLeft < w.faultsLeft) := by
  unfold takeFault
  split
  · exact ⟨Nat.le_refl _, fun h => (h rfl).elim⟩
  · next f fs hfs =>
    have hfewer : (w.setFaults p fs).faultsLeft < w.faultsLeft := by
      have hlt := length_others_lt w.faults hfs
      rw [faultsLeft, setFaults, List.flatMap_cons, List.length_append, Nat.add_comm]
      exact hlt
    exact ⟨Nat.le_of_lt hfewer, fun _ => hfewer⟩

/-- The store that a call reaches, with so many faults left: that of the world, or the one that another writer
has just changed, on whom a fault is spent. -/
inductive Reaches (F : Fault → Prop) (w : World) (left : Nat) : ComponentStore → Prop
  | same (hleft : left ≤ w.faultsLeft) : Reaches F w left w.components
  | touched {n} (htouch : F (.touch n)) (hleft : left < w.faultsLeft) :
      Reaches F w left (w.components.touch n)

/-- A call on components fails, on which a fault is spent, or is answered by the store that it reaches. -/
theorem fails_or_reaches_perform (h : w.Meets F) (hc : c.channel.ofComponents = true) :
    (w.perform c).2.Meets F ∧
      ((∃ e, F (.error e) ∧ (w.perform c).1 = .answered (.error e) ∧
          (w.perform c).2.components = w.components ∧ (w.perform c).2.faultsLeft < w.faultsLeft) ∨
        ∃ v : World, Reaches F w (w.perform c).2.faultsLeft v.components ∧
          (w.perform c).1 = outcomeOf (v.serve c).1 ∧
          (w.perform c).2.components = (v.serve c).2.components) := by
  obtain ⟨htaken, hothers⟩ := forall_takeFault h c.channel
  obtain ⟨hle, hlt⟩ := w.faultsLeft_takeFault c.channel
  have hmet := w.components_takeFault c.channel
  unfold perform
  generalize w.takeFault c.channel = taken at htaken hothers hle hlt hmet
  obtain ⟨f, met⟩ := taken
  dsimp only at htaken hothers hle hlt hmet ⊢
  have hf : ∀ g, f = some g → F g := by
    rintro g rfl
    rcases htaken with hnone | htaken
    · cases hnone
    · exact htaken hc g rfl
  have hserved : ∀ v : World, v.faults = met.faults → Reaches F w met.faultsLeft v.components →
      met.meet c f = (outcomeOf (v.serve c).1, (v.serve c).2) →
      (met.meet c f).2.faults = met.faults ∧ ∃ v : World, Reaches F w met.faultsLeft v.components ∧
        met.meet c f = (outcomeOf (v.serve c).1, (v.serve c).2) := by
    intro v hfaults hreach hans
    rw [hans]
    exact ⟨(v.faults_serve c).trans hfaults, v, hreach, rfl⟩
  have hcases : (met.meet c f).2.faults = met.faults ∧
      ((∃ e, f = some (.error e) ∧ met.meet c f = (.answered (.error e), met)) ∨
        ∃ v : World, Reaches F w met.faultsLeft v.components ∧
          met.meet c f = (outcomeOf (v.serve c).1, (v.serve c).2)) := by
    rcases met.meet_component hc f with ⟨e, rfl, hans⟩ | hans | ⟨n, rfl, hans⟩
    · exact ⟨by rw [hans], .inl ⟨e, rfl, hans⟩⟩
    · exact (hserved met rfl (hmet ▸ .same hle) hans).imp_right .inr
    · refine (hserved (met.touched n) rfl ?_ hans).imp_right .inr
      rw [touched, hmet]
      exact .touched (hf _ rfl) (hlt (Option.some_ne_none _))
  obtain ⟨hsame, hcases⟩ := hcases
  have hleft : (met.meet c f).2.faultsLeft = met.faultsLeft := by rw [faultsLeft, faultsLeft, hsame]
  refine ⟨fun p g hg => hothers p g ?_, ?_⟩
  · rw [faultsOf] at hg ⊢
    rwa [← hsame]
  · change (∃ e, _ ∧ _ ∧ _ ∧ (met.meet c f).2.faultsLeft < _) ∨
      ∃ v : World, Reaches F w (met.meet c f).2.faultsLeft v.components ∧ _
    rw [hleft]
    rcases hcases with ⟨e, rfl, hans⟩ | ⟨v, hreach, hans⟩
    · rw [hans]
      exact .inl ⟨e, hf _ rfl, rfl, hmet, hlt (Option.some_ne_none _)⟩
    · rw [hans]
      exact .inr ⟨v, hreach, rfl, rfl⟩

/-- Where no call on components fails, each is answered by the store that it reaches. -/
theorem reaches_perform (h : w.Meets F) (herror : ∀ e, ¬ F (.error e)) (hc : c.channel.ofComponents = true) :
    (w.perform c).2.Meets F ∧ ∃ v : World, Reaches F w (w.perform c).2.faultsLeft v.components ∧
      (w.perform c).1 = outcomeOf (v.serve c).1 ∧ (w.perform c).2.components = (v.serve c).2.components := by
  obtain ⟨hmeets, ⟨e, he, -⟩ | hreaches⟩ := fails_or_reaches_perform h hc
  · exact (herror e he).elim
  · exact ⟨hmeets, hreaches⟩

/-- A read is answered by the store that it reaches. -/
theorem reaches_read (h : w.Meets F) (herror : ∀ e, ¬ F (.error e)) (n : String) :
    (w.ask (.getComponent n)).2.Meets F ∧
      Reaches F w (w.ask (.getComponent n)).2.faultsLeft (w.ask (.getComponent n)).2.components ∧
      (w.ask (.getComponent n)).1 = (w.ask (.getComponent n)).2.components.get n := by
  obtain ⟨hmeets, v, hreach, hans, hafter⟩ := reaches_perform (c := .getComponent n) h herror rfl
  rw [ask_fst hans, ask_snd, hafter]
  exact ⟨hmeets, hreach, rfl⟩

/-- A write that a store answers is made on that store. -/
theorem store_of_served {v : World} {wr : Write} (hans : (w.perform wr.call).1 = outcomeOf (v.serve wr.call).1)
    (hafter : (w.perform wr.call).2.components = (v.serve wr.call).2.components) :
    (w.store wr).1 = (v.components.write wr).1 ∧ (w.store wr).2.components = (v.components.write wr).2 := by
  rw [store_snd, hafter]
  cases wr <;> exact ⟨ask_fst hans, rfl⟩

/-- A write is made on the store that it reaches. -/
theorem reaches_store (h : w.Meets F) (herror : ∀ e, ¬ F (.error e)) (wr : Write) :
    (w.store wr).2.Meets F ∧ ∃ s, Reaches F w (w.store wr).2.faultsLeft s ∧
      (w.store wr).1 = (s.write wr).1 ∧ (w.store wr).2.components = (s.write wr).2 := by
  obtain ⟨hmeets, v, hreach, hans, hafter⟩ := reaches_perform h herror (ofComponents_channel wr)
  have hmade := store_of_served hans hafter
  rw [store_snd] at hmade ⊢
  exact ⟨hmeets, v.components, hreach, hmade⟩

/-! ## Changes -/

section Induction

variable {C : (left : Nat) → Stage → ComponentStore → Prop}

theorem not_lost_of_get {s : ComponentStore} {n : String} {e : Failure} (h : s.get n = .error e) :
    e.isConflict = false := by
  unfold ComponentStore.get at h
  split at h
  · cases h; rfl
  · split at h
    · cases h
    · cases h; rfl

theorem Reaches.disturbances_le (h : Reaches F w w'.faultsLeft w'.components) :
    w'.disturbances ≤ w.disturbances := by
  have hle : w'.components.pendingConflicts ≤ w.components.pendingConflicts ∧
      w'.faultsLeft ≤ w.faultsLeft := by
    generalize w'.components = s at h ⊢
    cases h with
    | same hleft => exact ⟨Nat.le_refl _, hleft⟩
    | touched _ hleft => exact ⟨Nat.le_of_eq (ComponentStore.pendingConflicts_touch _ _), Nat.le_of_lt hleft⟩
  exact Nat.add_le_add hle.1 hle.2

/-- A lost race is paid for: with a conflict that the store was told to report, or with another writer. -/
theorem disturbances_of_lost {x : Component} {wr : Write} {s : ComponentStore} {e : Failure}
    (hx : w.components.find? wr.component.name = some x)
    (hversion : wr.component.metadata.resourceVersion = x.metadata.resourceVersion)
    (hreach : Reaches F w w'.faultsLeft s) (hres : s.write wr = (.error e, w'.components))
    (hlost : e.isConflict = true) : w'.disturbances < w.disturbances := by
  have hle := ComponentStore.pendingConflicts_le_of_write_error hres
  rw [disturbances, disturbances]
  cases hreach with
  | same hleft =>
    have hpending := ComponentStore.pendingConflicts_of_write_error hx hversion hres hlost
    unfold faultsLeft at hleft
    omega
  | touched htouch hleft =>
    rw [ComponentStore.pendingConflicts_touch] at hle
    unfold faultsLeft at hleft
    omega

/-- What an invariant of a change has to survive: its turns, and other writers of the kinds that its calls may
meet, each of whom uses up a fault. -/
structure Kept (m : Mutation) (F : Fault → Prop) (C : (left : Nat) → Stage → ComponentStore → Prop) : Prop
    where
  turn : ∀ {left stage s}, (∀ r, stage ≠ .returned r) → C left stage s →
    C left (m.turn s stage).1 (m.turn s stage).2
  touch : ∀ {n left left' stage s}, F (.touch n) → left' < left → C left stage s → C left' stage (s.touch n)
  fewer : ∀ {left left' stage s}, left' ≤ left → C left stage s → C left' stage s

theorem Kept.reached {stage : Stage} {left : Nat} {s : ComponentStore} (h : Kept m F C)
    (hC : C w.faultsLeft stage w.components) (hreach : Reaches F w left s) : C left stage s := by
  cases hreach with
  | same hleft => exact h.fewer hleft hC
  | touched htouch hleft => exact h.touch htouch hleft hC

/-- An attempt leads to its result, or back to its start if it lost a race. -/
theorem attempt_induction (hm : m.Sound) (herror : ∀ e, ¬ F (.error e)) (hkept : Kept m F C)
    (hmeets : w.Meets F) (hstart : C w.faultsLeft .reading w.components) :
    (isLostRace (attempt m w).1 = false ∧
        C (attempt m w).2.faultsLeft (.returned (attempt m w).1) (attempt m w).2.components) ∨
      (isLostRace (attempt m w).1 = true ∧ C (attempt m w).2.faultsLeft .reading (attempt m w).2.components ∧
        (attempt m w).2.Meets F ∧ (attempt m w).2.disturbances < w.disturbances) := by
  obtain ⟨hmeets', hreach, hget⟩ := reaches_read hmeets herror m.target
  have hread := hkept.turn (fun r h => by cases h) (hkept.reached hstart hreach)
  refine attempt_cases (P := fun r _ =>
    (isLostRace r.1 = false ∧ C r.2.faultsLeft (.returned r.1) r.2.components) ∨
    (isLostRace r.1 = true ∧ C r.2.faultsLeft .reading r.2.components ∧ r.2.Meets F ∧
      r.2.disturbances < w.disturbances)) m w ?_ ?_ ?_
  · intro e w' hasked
    rw [hasked] at hget hread
    dsimp only at hget hread
    have hlost := not_lost_of_get hget.symm
    simp only [Mutation.turn, ← hget, Stage.failed_of_decided hlost] at hread
    refine .inl ?_
    split at hread
    · next hdone => exact ⟨by rw [if_pos hdone]; rfl, by rwa [if_pos hdone]⟩
    · next hdone => exact ⟨by rw [if_neg hdone]; exact hlost, by rwa [if_neg hdone]⟩
  · intro fresh w' hasked hedit
    rw [hasked] at hget hread
    dsimp only at hget hread
    simp only [Mutation.turn, ← hget, hedit] at hread
    exact .inl ⟨rfl, hread⟩
  · intro fresh w' wr hasked hedit
    have hfresh := find?_of_ask hasked
    rw [hasked] at hget hread hmeets' hreach
    dsimp only at hget hread hmeets' hreach
    simp only [Mutation.turn, ← hget, hedit] at hread
    obtain ⟨hmeets'', s, hreach', hres, hafter⟩ := reaches_store hmeets' herror wr
    have hwritten := hkept.turn (fun r h => by cases h) (hkept.reached hread hreach')
    rcases hwrite : s.write wr with ⟨r, s'⟩
    rw [hwrite] at hres hafter
    dsimp only at hres hafter
    simp only [Mutation.turn, hwrite] at hwritten
    rw [hres, hafter]
    cases r with
    | ok y => exact .inl ⟨rfl, hwritten⟩
    | error e =>
      dsimp only at hwritten
      cases hlost : e.isConflict with
      | false =>
        rw [Stage.failed_of_decided hlost] at hwritten
        exact .inl ⟨hlost, hwritten⟩
      | true =>
        rw [Stage.failed_of_lost hlost] at hwritten
        have hname : wr.component.name = m.target :=
          (hm.name hedit).trans (ComponentStore.name_of_find? hfresh)
        have hfewer := disturbances_of_lost (hname ▸ hfresh) (hm.version hedit) hreach'
          (hafter ▸ hwrite) hlost
        exact .inr ⟨hlost, hwritten, hmeets'', Nat.lt_of_lt_of_le hfewer hreach.disturbances_le⟩

/-- What the turns of a change keep, and the writers that come between them, holds of its result and of the
store behind it. -/
theorem change_induction (hm : m.Sound) (herror : ∀ e, ¬ F (.error e)) (hkept : Kept m F C)
    (hmeets : w.Meets F) (hstart : C w.faultsLeft .reading w.components) :
    C (w.change m).2.faultsLeft (.returned (w.change m).1) (w.change m).2.components := by
  -- The attempts are counted by the disturbances, one of which each lost race uses up.
  have hloop : ∀ (room : Nat) (w : World), w.Meets F → w.disturbances ≤ room →
      C w.faultsLeft .reading w.components →
      C (retryOnConflict (attempt m) room w).2.faultsLeft (.returned (retryOnConflict (attempt m) room w).1)
        (retryOnConflict (attempt m) room w).2.components := by
    intro room
    induction room with
    | zero =>
      intro w hmeets hroom hstart
      rcases attempt_induction hm herror hkept hmeets hstart with ⟨-, hC⟩ | ⟨-, -, -, hfewer⟩
      · exact hC
      · omega
    | succ room ih =>
      intro w hmeets hroom hstart
      rcases attempt_induction hm herror hkept hmeets hstart with
        ⟨hdecided, hC⟩ | ⟨hlost, hC, hmeets', hfewer⟩
      · rw [retryOnConflict_of_decided hdecided]
        exact hC
      · rw [retryOnConflict_of_conflict hlost]
        exact ih _ hmeets' (by omega) hC
  exact hloop w.disturbances w hmeets (Nat.le_refl _) hstart

end Induction

/-- An attempt that loses a race leaves fewer disturbances, whatever its calls met. -/
theorem disturbances_attempt (hm : m.Sound) (hlost : isLostRace (attempt m w).1 = true) :
    (attempt m w).2.disturbances < w.disturbances := by
  have hmeets : ∀ v : World, v.Meets fun _ => True := fun _ _ _ _ _ _ _ => trivial
  have hspent : ∀ {v v' : World}, v'.components = v.components → v'.faultsLeft < v.faultsLeft →
      v'.disturbances < v.disturbances := by
    intro v v' hsame hfewer
    rw [disturbances, disturbances, hsame]
    exact Nat.add_lt_add_left hfewer _
  obtain ⟨-, hread⟩ := fails_or_reaches_perform (c := .getComponent m.target) (hmeets w) rfl
  rw [← ask_snd] at hread
  refine attempt_cases (P := fun r _ => isLostRace r.1 = true → r.2.disturbances < w.disturbances) m w
    ?_ ?_ ?_ hlost
  · intro e w' hasked hlost
    rw [hasked] at hread
    dsimp only at hread
    rcases hread with ⟨e', -, -, hsame, hfewer⟩ | ⟨v, -, hans, -⟩
    · exact hspent hsame hfewer
    · have hget : v.components.get m.target = .error e := by
        have hasked' := ask_fst hans
        rw [hasked] at hasked'
        exact hasked'.symm
      have hdecided := not_lost_of_get hget
      split at hlost
      · cases hlost
      · rw [isLostRace, hdecided] at hlost
        cases hlost
  · intro fresh w' _ _ hlost
    cases hlost
  · intro fresh w' wr hasked hedit hlost
    have hfresh := find?_of_ask hasked
    have hle : w'.disturbances ≤ w.disturbances := by
      rw [hasked] at hread
      dsimp only at hread
      rcases hread with ⟨e', -, -, hsame, hfewer⟩ | ⟨v, hreach, -, hafter⟩
      · exact Nat.le_of_lt (hspent hsame hfewer)
      · have hreached : Reaches (fun _ => True) w w'.faultsLeft w'.components := hafter ▸ hreach
        exact hreached.disturbances_le
    refine Nat.lt_of_lt_of_le ?_ hle
    obtain ⟨-, hwrite⟩ := fails_or_reaches_perform (hmeets w') (ofComponents_channel wr)
    rcases hwrite with ⟨e', -, -, hsame, hfewer⟩ | ⟨v, hreach, hans, hafter⟩
    · rw [store_snd]
      exact hspent hsame hfewer
    · have hres := store_of_served hans hafter
      rw [← store_snd] at hreach
      cases hwritten : (v.components.write wr).1 with
      | ok y =>
        rw [hres.1, hwritten] at hlost
        cases hlost
      | error e =>
        rw [hres.1, hwritten] at hlost
        have hname : wr.component.name = m.target :=
          (hm.name hedit).trans (ComponentStore.name_of_find? hfresh)
        exact disturbances_of_lost (hname ▸ hfresh) (hm.version hedit) hreach
          (Prod.ext hwritten hres.2.symm) hlost

/-- A change is attempted until it loses no race, so it never ends with a lost one. -/
theorem isLostRace_change (hm : m.Sound) (w : World) : isLostRace (w.change m).1 = false := by
  have hloop : ∀ (room : Nat) (w : World), w.disturbances ≤ room →
      isLostRace (retryOnConflict (attempt m) room w).1 = false := by
    intro room
    induction room with
    | zero =>
      intro w hroom
      refine Bool.eq_false_iff.2 fun hlost => ?_
      have hfewer := disturbances_attempt hm hlost
      omega
    | succ room ih =>
      intro w hroom
      cases hlost : isLostRace (attempt m w).1 with
      | false =>
        rw [retryOnConflict_of_decided hlost]
        exact hlost
      | true =>
        rw [retryOnConflict_of_conflict hlost]
        have hfewer := disturbances_attempt hm hlost
        exact ih _ (by omega)
  exact hloop w.disturbances w (Nat.le_refl _)

/-- A change that is alone takes its turns to the result and the store of `World.change`. -/
theorem turns_change (hm : m.Sound) (hfree : w.FaultFree) :
    ∃ k, m.turns k (.reading, w.components) = (.returned (w.change m).1, (w.change m).2.components) := by
  refine change_induction (C := fun _ stage s => ∃ k, m.turns k (.reading, w.components) = (stage, s))
    (F := fun _ => False) hm (fun e => id) ⟨?_, fun h => h.elim, fun _ h => h⟩ hfree.meets ⟨0, rfl⟩
  rintro left stage s - ⟨k, hk⟩
  refine ⟨k + 1, ?_⟩
  rw [Mutation.turns, hk]

end World

end ChartOperator
