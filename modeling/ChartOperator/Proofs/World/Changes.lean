import ChartOperator.Lifecycle.Status
import ChartOperator.Proofs.World.Rules

set_option autoImplicit false

/-!
# Changes of a stored component

A change is attempted until it loses no race. `Errand.obeys_change` is the law of that loop: what holds
before an attempt and again behind one that failed holds before each of them.

A mutation is `Sound` if it keeps the name and the version of the copy that it edits. Of a sound mutation
an accepted write is the edit of the very object that was stored (`World.find?_store`), and so a change
keeps what its edit keeps (`Errand.obeys_change_stores`).
-/

namespace ChartOperator

open ComponentStore (VersionFree settled)

/-! ## Edits -/

namespace Mutation

variable {target : String} {missingIsDone : Bool} {f : ComponentStatus → ComponentStatus}

/-- An edit keeps the name and the version of the copy. -/
structure Sound (m : Mutation) : Prop where
  name : ∀ {x wr}, m.edit x = some wr → wr.component.name = x.name
  version : ∀ {x wr}, m.edit x = some wr →
    wr.component.metadata.resourceVersion = x.metadata.resourceVersion

theorem sound_ofStatus : (ofStatus target missingIsDone f).Sound := by
  refine ⟨fun h => ?_, fun h => ?_⟩ <;> cases h <;> rfl

theorem edit_addFinalizer {x : Component} {wr : Write} (h : (addFinalizer target).edit x = some wr) :
    x.hasFinalizer = false ∧ wr = .object (x.withFinalizers (x.finalizers ++ [Component.finalizerName])) := by
  simp only [addFinalizer] at h
  split at h
  · cases h
  · next hx =>
    rw [Component.addFinalizer, if_neg hx] at h
    exact ⟨Bool.eq_false_iff.2 hx, (Option.some.inj h).symm⟩

theorem edit_removeFinalizer {x : Component} {wr : Write} (h : (removeFinalizer target).edit x = some wr) :
    x.hasFinalizer = true ∧ wr = .object x.removeFinalizer := by
  simp only [removeFinalizer] at h
  split at h
  · next hx => exact ⟨hx, (Option.some.inj h).symm⟩
  · cases h

theorem sound_addFinalizer : (addFinalizer target).Sound := by
  refine ⟨fun h => ?_, fun h => ?_⟩ <;>
  · obtain ⟨-, rfl⟩ := edit_addFinalizer h
    rfl

theorem sound_removeFinalizer : (removeFinalizer target).Sound := by
  refine ⟨fun h => ?_, fun h => ?_⟩ <;>
  · obtain ⟨-, rfl⟩ := edit_removeFinalizer h
    rfl

theorem sound_setVersion {version : String} : (setVersion target version).Sound := by
  refine ⟨fun h => ?_, fun h => ?_⟩ <;> cases h <;> rfl

end Mutation

/-! ## Stored objects -/

namespace World

variable {w w' : World} {n : String} {x y : Component} {P : Component → Prop}

/-- The object with a name is stored, and has a property. -/
def Stores (w : World) (n : String) (P : Component → Prop) : Prop := ∃ x, w.components.find? n = some x ∧ P x

/-- The component with a name is stored, and has the finalizer. -/
def Guards (w : World) (n : String) : Prop := w.Stores n fun x => x.hasFinalizer = true

theorem stores_of_alike (hP : VersionFree P) (h : w.components.Alike w'.components) (hw : w.Stores n P) :
    w'.Stores n P := by
  obtain ⟨x, hx, hPx⟩ := hw
  obtain ⟨y, hy, hfield⟩ := h.find? hx
  exact ⟨y, hy, (hfield hP).symm ▸ hPx⟩

/-- A component that a read returns is the one that is stored. -/
theorem find?_of_ask (h : w.ask (.getComponent n) = (.ok x, w')) : w'.components.find? n = some x := by
  unfold ask perform at h
  rcases hf : w.takeFault (Call.getComponent n).channel with ⟨f, met⟩
  rw [hf] at h
  match f with
  | none | some .empty | some .crash | some (.touch m) =>
    obtain ⟨hans, rfl⟩ := Prod.ext_iff.1 h
    exact ComponentStore.find?_of_get hans
  | some (.error e) =>
    cases (Prod.ext_iff.1 h).1

theorem alike_ask {c : Call} (h : c.isWrite = false) : w.components.Alike (w.ask c).2.components := by
  rw [ask_snd]
  exact alike_perform w h

theorem store_snd (w : World) (wr : Write) : (w.store wr).2 = (w.perform wr.call).2 := by
  cases wr with
  | object c => exact ask_snd w _
  | status c => exact ask_snd w _

/-- A sound edit that is accepted is made on the object that is stored. -/
theorem find?_store {m : Mutation} {wr : Write} (hm : m.Sound) (hx : w.components.find? n = some x)
    (hedit : m.edit x = some wr) (h : (w.store wr).1 = .ok y) :
    (w.store wr).2.components.find? n = settled (wr.onto x) := by
  have hname : x.name = n := ComponentStore.name_of_find? hx
  rw [← hname] at hx ⊢
  exact (store_ok hx (hm.name hedit) (hm.version hedit) h).2

/-- Whether it is accepted or refused, a sound edit keeps a property that it does not touch. -/
theorem stores_store {m : Mutation} {wr : Write} (hm : m.Sound) (hP : VersionFree P)
    (hx : w.components.find? n = some x) (hPx : P x) (hedit : m.edit x = some wr) (hkept : P (wr.onto x))
    (hstays : settled (wr.onto x) ≠ none) : (w.store wr).2.Stores n P := by
  cases hres : (w.store wr).1 with
  | error e => exact stores_of_alike hP (alike_store_error hres) ⟨x, hx, hPx⟩
  | ok y =>
    obtain ⟨z, hz⟩ := Option.ne_none_iff_exists'.1 hstays
    refine ⟨z, (find?_store hm hx hedit hres).trans hz, ?_⟩
    rw [ComponentStore.settled_eq_some hz]
    exact (hP.bump (wr.onto x)).symm ▸ hkept

end World

/-! ## The loop of a change -/

namespace Errand

variable {rule : Rule} {m : Mutation} {past : List Moment} {w : World}
  {post : Except Failure (Option Component) → List Moment → World → Prop}

/-- One attempt to make a change, made where the invariant holds: its calls keep to the rule, each of its
ends is as promised, and where it failed the invariant holds again. -/
structure Attempted (rule : Rule) (inv : List Moment → World → Prop)
    (post : Except Failure (Option Component) → List Moment → World → Prop) (m : Mutation)
    (past : List Moment) (w : World) : Prop where
  read : rule past ⟨w, .getComponent m.target⟩
  failed : ∀ e w', w.ask (.getComponent m.target) = (.error e, w') →
    inv (past ++ [⟨w, .getComponent m.target⟩]) w' ∧
      post (if m.missingIsDone && e.isNotFound then .ok none else .error e)
        (past ++ [⟨w, .getComponent m.target⟩]) w'
  unneeded : ∀ fresh w', w.ask (.getComponent m.target) = (.ok fresh, w') → m.edit fresh = none →
    post (.ok none) (past ++ [⟨w, .getComponent m.target⟩]) w'
  write : ∀ fresh w' wr, w.ask (.getComponent m.target) = (.ok fresh, w') → m.edit fresh = some wr →
    rule (past ++ [⟨w, .getComponent m.target⟩]) ⟨w', wr.call⟩
  refused : ∀ fresh w' wr e, w.ask (.getComponent m.target) = (.ok fresh, w') → m.edit fresh = some wr →
    (w'.store wr).1 = .error e →
    inv (past ++ [⟨w, .getComponent m.target⟩, ⟨w', wr.call⟩]) (w'.store wr).2 ∧
      post (.error e) (past ++ [⟨w, .getComponent m.target⟩, ⟨w', wr.call⟩]) (w'.store wr).2
  accepted : ∀ fresh w' wr y, w.ask (.getComponent m.target) = (.ok fresh, w') → m.edit fresh = some wr →
    (w'.store wr).1 = .ok y →
    post (.ok (some y)) (past ++ [⟨w, .getComponent m.target⟩, ⟨w', wr.call⟩]) (w'.store wr).2

/-- What an attempt leaves is promised, and if it is to be made again the invariant holds. -/
theorem Attempted.leads {inv : List Moment → World → Prop} (h : Attempted rule inv post m past w) :
    rule.Along past (World.attemptMoments m w) ∧
      post (World.attempt m w).1 (past ++ World.attemptMoments m w) (World.attempt m w).2 ∧
      (isLostRace (World.attempt m w).1 = true →
        inv (past ++ World.attemptMoments m w) (World.attempt m w).2) := by
  refine World.attempt_cases (P := fun r ms => rule.Along past ms ∧ post r.1 (past ++ ms) r.2 ∧
    (isLostRace r.1 = true → inv (past ++ ms) r.2)) m w ?_ ?_ ?_
  · intro e w' hread
    obtain ⟨hinv, hpost⟩ := h.failed e w' hread
    exact ⟨⟨h.read, trivial⟩, hpost, fun _ => hinv⟩
  · intro fresh w' hread hedit
    refine ⟨⟨h.read, trivial⟩, h.unneeded fresh w' hread hedit, fun hlost => ?_⟩
    cases hlost
  · intro fresh w' wr hread hedit
    refine ⟨⟨h.read, h.write fresh w' wr hread hedit, trivial⟩, ?_⟩
    cases hres : (w'.store wr).1 with
    | error e =>
      obtain ⟨hinv, hpost⟩ := h.refused fresh w' wr e hread hedit hres
      exact ⟨hpost, fun _ => hinv⟩
    | ok y =>
      refine ⟨h.accepted fresh w' wr y hread hedit hres, fun hlost => ?_⟩
      cases hlost

/-- A change keeps to a rule if each of its attempts does. -/
theorem obeys_change (inv : List Moment → World → Prop) (hinv : inv past w)
    (hattempt : ∀ past w, inv past w → Attempted rule inv post m past w) :
    Obeys rule post (change m) past w := by
  have hloop : ∀ room past w, inv past w →
      rule.Along past (World.changeMoments m room w) ∧
        post (retryOnConflict (World.attempt m) room w).1 (past ++ World.changeMoments m room w)
          (retryOnConflict (World.attempt m) room w).2 := by
    intro room
    induction room with
    | zero =>
      intro past w hinv
      obtain ⟨hcalls, hpost, -⟩ := (hattempt past w hinv).leads
      exact ⟨hcalls, hpost⟩
    | succ room ih =>
      intro past w hinv
      obtain ⟨hcalls, hpost, hlost⟩ := (hattempt past w hinv).leads
      simp only [retryOnConflict, World.changeMoments]
      split
      · next hagain =>
        obtain ⟨hcalls', hpost'⟩ := ih _ _ (hlost hagain)
        rw [List.append_assoc] at hpost'
        exact ⟨Rule.along_append.2 ⟨hcalls, hcalls'⟩, hpost'⟩
      · rw [List.append_nil]
        exact ⟨hcalls, hpost⟩
  obtain ⟨hcalls, hpost⟩ := hloop w.disturbances past w hinv
  exact Program.obeys_mutate hcalls (Program.obeys_done hpost)

theorem isOrder_call (wr : Write) : wr.call.isOrder = false := by cases wr <;> rfl

/-- A change keeps what its reads keep, and the writes of its edits. -/
theorem obeys_change_kept {kept : List Moment → World → Prop}
    (hrule : ∀ past w c, c.isOrder = false → kept past w → rule past ⟨w, c⟩)
    (hread : ∀ past w r w', kept past w → w.ask (.getComponent m.target) = (r, w') →
      kept (past ++ [⟨w, .getComponent m.target⟩]) w')
    (hwrite : ∀ past w fresh wr, kept past w → w.components.find? m.target = some fresh →
      m.edit fresh = some wr → kept (past ++ [⟨w, wr.call⟩]) (w.store wr).2)
    (hw : kept past w) : Obeys rule (fun _ => kept) (change m) past w := by
  refine obeys_change kept hw fun past w hw => ?_
  have hwritten : ∀ fresh w' wr, w.ask (.getComponent m.target) = (.ok fresh, w') → m.edit fresh = some wr →
      kept (past ++ [⟨w, .getComponent m.target⟩, ⟨w', wr.call⟩]) (w'.store wr).2 := by
    intro fresh w' wr h hedit
    have hafter := hwrite _ w' fresh wr (hread past w _ w' hw h) (World.find?_of_ask h) hedit
    rw [List.append_assoc] at hafter
    exact hafter
  exact {
    read := hrule _ _ _ rfl hw
    failed := fun e w' h => ⟨hread _ _ _ _ hw h, hread _ _ _ _ hw h⟩
    unneeded := fun fresh w' h _ => hread _ _ _ _ hw h
    write := fun fresh w' wr h _ => hrule _ _ _ (isOrder_call wr) (hread _ _ _ _ hw h)
    refused := fun fresh w' wr e h hedit _ => ⟨hwritten fresh w' wr h hedit, hwritten fresh w' wr h hedit⟩
    accepted := fun fresh w' wr y h hedit _ => hwritten fresh w' wr h hedit }

/-- A change keeps what every call but an order keeps. -/
theorem obeys_change_of_perform {kept : List Moment → World → Prop}
    (hrule : ∀ past p, p.call.isOrder = false → rule past p)
    (hkept : ∀ past w c, c.isOrder = false → kept past w → kept (past ++ [⟨w, c⟩]) (w.perform c).2)
    (hw : kept past w) : Obeys rule (fun _ => kept) (change m) past w := by
  refine obeys_change_kept (fun past w c hc _ => hrule past ⟨w, c⟩ hc) ?_ ?_ hw
  · intro past w r w' hw h
    obtain rfl : (w.ask (.getComponent m.target)).2 = w' := congrArg Prod.snd h
    rw [World.ask_snd]
    exact hkept past w _ rfl hw
  · intro past w fresh wr hw _ _
    rw [World.store_snd]
    exact hkept past w _ (isOrder_call wr) hw

/-- A change keeps the properties of the stored object that its edit keeps. -/
theorem obeys_change_stores {P : Component → Prop} (hm : m.Sound) (hP : VersionFree P)
    (hrule : ∀ past p, p.call.isOrder = false → rule past p)
    (hedit : ∀ x wr, P x → m.edit x = some wr → P (wr.onto x) ∧ settled (wr.onto x) ≠ none)
    (hstored : w.Stores m.target P) :
    Obeys rule (fun _ _ w => w.Stores m.target P) (change m) past w := by
  refine obeys_change_kept (fun past w c hc _ => hrule past ⟨w, c⟩ hc) ?_ ?_ hstored
  · intro _ w r w' hw h
    obtain rfl : (w.ask (.getComponent m.target)).2 = w' := congrArg Prod.snd h
    exact World.stores_of_alike hP (World.alike_ask rfl) hw
  · rintro _ w fresh wr ⟨y, hy, hPy⟩ hfresh he
    obtain rfl : fresh = y := Option.some.inj (hfresh.symm.trans hy)
    obtain ⟨hkeep, hstays⟩ := hedit fresh wr hPy he
    exact World.stores_store hm hP hfresh hPy he hkeep hstays

/-- What is known behind a change: nothing that was done before is undone, and what it promises is either
in place or was just written to the object that was stored. -/
def Changed (m : Mutation) (past : List Moment) (r : Except Failure (Option Component)) (past' : List Moment)
    (w : World) : Prop :=
  past <+: past' ∧
    match r with
    | .error _ => True
    | .ok none => m.missingIsDone = true ∨ ∃ x, w.components.find? m.target = some x ∧ m.edit x = none
    | .ok (some y) => ∃ p ∈ past', ∃ x wr, p.before.components.find? m.target = some x ∧ m.edit x = some wr ∧
        p.Accepted wr y ∧ w = p.after

/-- A change keeps to a rule if its reads do, and its writes as far as they are edits of what is stored. -/
theorem obeys_change_onward (hread : ∀ past' w, past <+: past' → rule past' ⟨w, .getComponent m.target⟩)
    (hwrite : ∀ past' w x wr, past <+: past' → w.components.find? m.target = some x → m.edit x = some wr →
      rule past' ⟨w, wr.call⟩) :
    Obeys rule (Changed m past) (change m) past w := by
  refine obeys_change (fun past' _ => past <+: past') (List.prefix_refl past) ?_
  intro past' w hpast
  have hlonger : ∀ ms, past <+: past' ++ ms := fun ms => hpast.trans (List.prefix_append past' ms)
  refine ⟨hread past' w hpast, ?_, ?_, ?_, ?_, ?_⟩
  · intro e w' _
    refine ⟨hlonger _, hlonger _, ?_⟩
    by_cases hdone : (m.missingIsDone && e.isNotFound) = true
    · rw [if_pos hdone]
      exact .inl (Bool.and_eq_true_iff.1 hdone).1
    · rw [if_neg hdone]
      trivial
  · intro fresh w' h hedit
    exact ⟨hlonger _, .inr ⟨fresh, World.find?_of_ask h, hedit⟩⟩
  · intro fresh w' wr h hedit
    exact hwrite _ w' fresh wr (hlonger _) (World.find?_of_ask h) hedit
  · intro fresh w' wr e _ _ _
    exact ⟨hlonger _, hlonger _, trivial⟩
  · intro fresh w' wr y h hedit hres
    refine ⟨hlonger _, ⟨w', wr.call⟩, by simp, fresh, wr, World.find?_of_ask h, hedit, ⟨rfl, hres⟩, ?_⟩
    exact World.store_snd w' wr

/-- Behind the change that adds the finalizer the component has it. -/
theorem Changed.guards {n : String} {r : Option Component} {past' : List Moment}
    (h : Changed (.addFinalizer n) past (.ok r) past' w) : w.Guards n := by
  obtain ⟨-, h⟩ := h
  cases r with
  | none =>
    rcases h with h | ⟨x, hx, hnone⟩
    · cases h
    · refine ⟨x, hx, ?_⟩
      by_cases hhas : x.hasFinalizer = true
      · exact hhas
      · simp [Mutation.addFinalizer, hhas] at hnone
  | some y =>
    obtain ⟨p, -, x, wr, hx, hedit, ⟨hcall, hres⟩, rfl⟩ := h
    have hfind := World.find?_store Mutation.sound_addFinalizer hx hedit hres
    obtain ⟨-, rfl⟩ := Mutation.edit_addFinalizer hedit
    generalize hadded : Write.onto x
      (.object (x.withFinalizers (x.finalizers ++ [Component.finalizerName]))) = z
      at hfind
    have hhas : z.hasFinalizer = true := by
      simp [← hadded, Write.onto, Component.hasFinalizer, Component.finalizers, Component.withFinalizers]
    refine ⟨ComponentStore.bump z, ?_, hhas⟩
    rw [Moment.after, hcall, ← World.store_snd]
    exact hfind.trans (ComponentStore.settled_of_hasFinalizer hhas)

end Errand

end ChartOperator
