import ChartOperator.Proofs.World.Failures

set_option autoImplicit false

/-!
# Worlds in which calls fail

In a plain world (`World.Plain`) calls on components may fail, but no other writer is about. So a call on components
fails or is answered by the store (`World.Plain.fails_or_served`), and no race is lost: a write of a fresh copy fails
for good, or sets the object in its place in the store (`World.Plain.write`).
-/

namespace ChartOperator

open ComponentStore (settled bump setItem)

/-! ## Writes that are accepted -/

namespace ComponentStore

variable {s s' : ComponentStore} {c x y : Component}

theorem items_accept (h : settled x = some y) : (s.accept x).2.items = setItem y s.items := by
  unfold settled at h
  unfold accept
  split at h
  · cases h
  · next hstays =>
    cases h
    rw [if_neg hstays]
    rfl

theorem pendingConflicts_accept (s : ComponentStore) (x : Component) :
    (s.accept x).2.pendingConflicts = s.pendingConflicts := by
  unfold accept
  split <;> rfl

theorem items_of_updateStatus {z : Component} (hx : s.find? c.name = some x)
    (hsettled : settled { x with status := c.status } = some z) (h : s.updateStatus c = (.ok y, s')) :
    s'.items = setItem z s.items := by
  unfold updateStatus at h
  split at h
  · cases h
  · next stored _ hexamine =>
    obtain ⟨hstored, -, rfl⟩ := examine_ok hexamine
    obtain rfl : stored = x := Option.some.inj (hstored.symm.trans hx)
    cases h
    exact items_accept hsettled

theorem pendingConflicts_write_le (s : ComponentStore) (wr : Write) :
    (s.write wr).2.pendingConflicts ≤ s.pendingConflicts := by
  rcases hres : s.write wr with ⟨e | y, s'⟩
  · exact pendingConflicts_le_of_write_error hres
  · cases wr <;> simp only [write, update, updateStatus] at hres <;> split at hres
    · cases hres
    · next hexamine =>
      obtain ⟨-, -, rfl⟩ := examine_ok hexamine
      cases hres
      exact Nat.le_of_eq (pendingConflicts_accept _ _)
    · cases hres
    · next hexamine =>
      obtain ⟨-, -, rfl⟩ := examine_ok hexamine
      cases hres
      exact Nat.le_of_eq (pendingConflicts_accept _ _)

/-- Among ascending names an object is set where one of its name is. -/
theorem setItem_eq_map {items : List Component} (hascending : items.Pairwise fun a b => a.name < b.name)
    (hx : x ∈ items) (hname : c.name = x.name) :
    setItem c items = items.map fun y => if y.name = c.name then c else y := by
  induction items with
  | nil => cases hx
  | cons y items ih =>
    obtain ⟨hfirst, hrest⟩ := List.pairwise_cons.1 hascending
    unfold setItem
    by_cases hy : y.name = c.name
    · have hothers : ∀ z ∈ items, z.name ≠ c.name := by
        intro z hz he
        exact Std.lt_irrefl ((hy.trans he.symm) ▸ hfirst z hz)
      have hsame : (items.map fun y => if y.name = c.name then c else y) = items := by
        refine (List.map_congr_left fun z hz => if_neg (hothers z hz)).trans (List.map_id _)
      rw [if_pos hy, List.map_cons, if_pos hy, hsame]
    · have hmem : x ∈ items := by
        rcases List.mem_cons.1 hx with rfl | hx
        · exact (hy hname.symm).elim
        · exact hx
      have hbefore : ¬ c.name < y.name := by
        rw [hname]
        exact fun hlt => Std.lt_irrefl (Std.lt_trans hlt (hfirst x hmem))
      rw [if_neg hy, if_neg hbefore, List.map_cons, if_neg hy, ih hrest hmem]

end ComponentStore

theorem ComponentStore.nodup_names (s : ComponentStore) : (s.items.map Component.name).Nodup := by
  refine List.pairwise_map.2 (s.ascending.imp fun hlt => ?_)
  exact Std.ne_of_lt hlt

/-! ## Worlds in which calls fail -/

section Plain

variable {w w' : World} {c : Call} {n : String} {x : Component} {v : Health}

/-- Calls on components may fail, but other writers do not disturb them, and lists do not crash. -/
structure World.Plain (w : World) : Prop where
  meets : w.Meets fun f => ∃ e, f = .error e ∧ e.isConflict = false
  crashless : ∀ f ∈ w.faultsOf .workloadList, f ≠ some .crash
  undisputed : w.components.pendingConflicts = 0

namespace World

theorem pendingConflicts_serve_le (w : World) (c : Call) :
    (w.serve c).2.components.pendingConflicts ≤ w.components.pendingConflicts := by
  cases c with
  | updateComponent x => exact w.components.pendingConflicts_write_le (.object x)
  | updateStatus x => exact w.components.pendingConflicts_write_le (.status x)
  | _ => exact Nat.le_refl _

theorem pendingConflicts_perform_le (w : World) (c : Call) :
    (w.perform c).2.components.pendingConflicts ≤ w.components.pendingConflicts := by
  rw [← w.components_takeFault c.channel]
  show ((w.takeFault c.channel).2.meet c (w.takeFault c.channel).1).2.components.pendingConflicts ≤ _
  rcases meet_cases (w.takeFault c.channel).2 c (w.takeFault c.channel).1 with he | he | ⟨n, he⟩
  · exact Nat.le_of_eq (by rw [he])
  · rw [he]
    exact pendingConflicts_serve_le _ c
  · rw [he]
    exact Nat.le_trans (pendingConflicts_serve_le _ c) (Nat.le_of_eq (ComponentStore.pendingConflicts_touch _ n))

theorem Plain.perform (h : w.Plain) (c : Call) : (w.perform c).2.Plain where
  meets := forall_perform h.meets c
  crashless f hf := forall_perform (P := fun p f => p = .workloadList → f ≠ some .crash)
    (fun _ f hf hp => h.crashless f (hp ▸ hf)) c .workloadList f hf rfl
  undisputed := Nat.le_zero.1 (h.undisputed ▸ w.pendingConflicts_perform_le c)

theorem Plain.leave (h : w.Plain) (note : Note) : (w.leave note).Plain := by
  cases note <;> exact ⟨h.meets, h.crashless, h.undisputed⟩

theorem Plain.run {α : Type} (h : w.Plain) (p : Program α) : (w.run p).2.Plain :=
  keeps_run (fun _ c hv => hv.perform c) (fun _ note hv => hv.leave note) p h

/-- A call on components fails, or is answered by the store. -/
theorem Plain.fails_or_served (h : w.Plain) (hc : c.channel.ofComponents = true) :
    (∃ e, e.isConflict = false ∧ (w.perform c).1 = .answered (.error e) ∧ (w.perform c).2.components = w.components) ∨
      (w.perform c).1 = outcomeOf (w.serve c).1 ∧ (w.perform c).2.components = (w.serve c).2.components := by
  obtain ⟨-, ⟨e, ⟨e', he, hdecided⟩, hans, hsame, -⟩ | ⟨v, hreach, hans, hafter⟩⟩ := fails_or_reaches_perform h.meets hc
  · cases he
    exact .inl ⟨e, hdecided, hans, hsame⟩
  · right
    have hsame : v.components = w.components := by
      generalize v.components = s at hreach
      cases hreach with
      | same => rfl
      | touched htouch =>
        obtain ⟨e, he, -⟩ := htouch
        cases he
    have hserved : (v.serve c).1 = (w.serve c).1 ∧ (v.serve c).2.components = (w.serve c).2.components := by
      cases c with
      | getComponent | listComponents | updateComponent | updateStatus =>
        simp only [serve, withComponents, hsame, and_self]
      | _ => cases hc
    exact ⟨hserved.1 ▸ hans, hafter.trans hserved.2⟩

/-- A read leaves the components as they are, and loses no race. -/
theorem Plain.read (h : w.Plain) (n : String) :
    (w.ask (.getComponent n)).2.components = w.components ∧
      ∀ e, (w.ask (.getComponent n)).1 = .error e → e.isConflict = false := by
  rw [ask_snd]
  rcases h.fails_or_served (c := .getComponent n) rfl with ⟨e, hdecided, hans, hsame⟩ | ⟨hans, hsame⟩
  · refine ⟨hsame, fun e' he' => ?_⟩
    cases (ask_fst hans).symm.trans he'
    exact hdecided
  · refine ⟨hsame, fun e' he' => ?_⟩
    exact not_lost_of_get ((ask_fst hans).symm.trans he')

/-- The status of a fresh copy is stored, unless the write fails. It loses no race. -/
theorem Plain.write {c z : Component} (h : w.Plain) (hx : w.components.find? c.name = some x)
    (hversion : c.metadata.resourceVersion = x.metadata.resourceVersion)
    (hsettled : settled { x with status := c.status } = some z) :
    (∃ e, (w.store (.status c)).1 = .error e ∧ e.isConflict = false ∧
        (w.store (.status c)).2.components.items = w.components.items) ∨
      ∃ y, (w.store (.status c)).1 = .ok y ∧
        (w.store (.status c)).2.components.items = setItem z w.components.items := by
  rcases h.fails_or_served (c := .updateStatus c) rfl with ⟨e, hdecided, hans, hsame⟩ | ⟨hans, hafter⟩
  · refine .inl ⟨e, ask_fst hans, hdecided, ?_⟩
    rw [store_snd]
    exact congrArg ComponentStore.items hsame
  · obtain ⟨hres, hstore⟩ : (w.store (.status c)).1 = (w.components.write (.status c)).1 ∧ _ :=
      store_of_served hans hafter
    rw [hres, hstore]
    rcases hwrite : w.components.write (.status c) with ⟨e | y, s⟩
    · refine .inl ⟨e, rfl, ?_, ComponentStore.items_of_write_error hwrite⟩
      refine Bool.eq_false_iff.2 fun hlost => ?_
      have hfound : w.components.find? (Write.status c).component.name = some x := hx
      have hpaid := ComponentStore.pendingConflicts_of_write_error hfound hversion hwrite hlost
      rw [h.undisputed] at hpaid
      cases hpaid
    · exact .inr ⟨y, rfl, ComponentStore.items_of_updateStatus hx hsettled hwrite⟩

end World

end Plain

end ChartOperator
