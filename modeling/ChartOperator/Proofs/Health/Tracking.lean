import ChartOperator.Health.Watch

set_option autoImplicit false

/-!
# What a tracker takes for granted

The workloads that a watch sees are of one kind, in one namespace, and have labels. Here labels never change, so
that the component of a workload is known by its key (`Scope`).

A report makes a watch update the health of some components (`Tracker.owners`). Of the workloads of another
component the tracker knew all that the report says (`Tracker.get?_after_iff`): what it is told anew is relevant,
and what it is not told anew it knew. `Tracker.get?_afterAll_iff` says so of reports in a row.
-/

namespace ChartOperator

/-- What a watch sees: the workloads of a kind in a namespace, and whose they are. -/
structure Scope where
  kind : WorkloadKind
  «namespace» : String
  owner : WorkloadKey → Option String

/-- The workload is one that a watch sees. -/
structure Workload.InScope (s : Scope) (w : Workload) : Prop where
  kind : w.kind = s.kind
  place : w.namespace = s.namespace
  owner : w.component = s.owner w.key
  labelled : w.component.isSome = true

/-- The workloads that a report names. -/
def Cluster.Report.objects {α : Type} : Report α → List α
  | restarted xs => xs
  | applied x => [x]
  | deleted x => [x]
  | failed => []

/-- No two workloads have one key. -/
def Workload.Distinct (ws : List Workload) : Prop := ∀ v ∈ ws, ∀ w ∈ ws, v.key = w.key → v = w

/-- What a report names is seen by the watch. -/
structure Cluster.Report.Sound (s : Scope) (r : Report Workload) : Prop where
  seen : ∀ w ∈ r.objects, w.InScope s
  distinct : Workload.Distinct r.objects

namespace Tracker

/-- What is known after a report. -/
def after (t : Tracker) (r : Cluster.Report Workload) : Tracker := (relevantWorkloads t r).2

/-- The components of the workloads that a report makes relevant. -/
def owners (t : Tracker) (r : Cluster.Report Workload) : List String :=
  (relevantWorkloads t r).1.filterMap Workload.component

/-- What is known after reports in a row. -/
def afterAll (t : Tracker) (rs : List (Cluster.Report Workload)) : Tracker := rs.foldl after t

/-- The components of the workloads that reports in a row make relevant. -/
def ownersAll (t : Tracker) : List (Cluster.Report Workload) → List String
  | [] => []
  | r :: rs => t.owners r ++ (t.after r).ownersAll rs

/-- All that is known was seen. -/
def InScope (s : Scope) (t : Tracker) : Prop := ∀ w ∈ t.seen, w.InScope s

/-- The tracker knows these workloads and no others. -/
def Shows (t : Tracker) (ws : List Workload) : Prop := ∀ w, t.get? w.key = some w ↔ w ∈ ws

end Tracker

section Tracking

variable {s : Scope} {t previous now : Tracker} {r : Cluster.Report Workload} {rs : List (Cluster.Report Workload)}
  {v w : Workload} {ws ws' found : List Workload} {key : WorkloadKey} {n : String}

/-- What is seen is known by its key and its counters. -/
theorem Workload.InScope.eq_of_key (hv : v.InScope s) (hw : w.InScope s) (hkey : v.key = w.key)
    (hreplicas : v.replicas = w.replicas) : v = w := by
  have hcomponent : v.component = w.component := by rw [hv.owner, hw.owner, hkey]
  have hname : v.name = w.name := congrArg Prod.snd hkey
  cases v
  cases w
  obtain rfl := hv.kind.trans hw.kind.symm
  obtain rfl := hv.place.trans hw.place.symm
  obtain rfl : _ = _ := hname
  obtain rfl : _ = _ := hcomponent
  obtain rfl : _ = _ := hreplicas
  rfl

theorem Cluster.Report.sound_of_objects (hw : w.InScope s) (hr : r.objects = [w]) : r.Sound s where
  seen _ hv := List.mem_singleton.1 (hr ▸ hv) ▸ hw
  distinct _ hu _ hv _ := (List.mem_singleton.1 (hr ▸ hu)).trans (List.mem_singleton.1 (hr ▸ hv)).symm

namespace Tracker

theorem key_of_get? (h : t.get? key = some w) : w.key = key := by
  have hkey := List.find?_some h
  exact eq_of_beq hkey

theorem mem_of_get? (h : t.get? key = some w) : w ∈ t.seen := List.mem_of_find?_eq_some h

theorem mem_place (h : v ∈ place w ws) : v = w ∨ v ∈ ws := by
  induction ws with
  | nil => exact .inl (List.mem_singleton.1 h)
  | cons x xs ih =>
    rw [place] at h
    split at h
    · exact List.mem_cons.1 h
    · rcases List.mem_cons.1 h with rfl | hlater
      · exact .inr List.mem_cons_self
      · exact (ih hlater).imp_right (List.mem_cons_of_mem x)

theorem mem_insert (h : v ∈ (t.insert w).seen) : v = w ∨ v ∈ t.seen :=
  (mem_place h).imp_right fun hv => (List.mem_filter.1 hv).1

theorem get?_insert (t : Tracker) (w : Workload) (key : WorkloadKey) :
    (t.insert w).get? key = if key = w.key then some w else t.get? key := by
  split
  · next h => rw [h, get?_insert_self]
  · next h => exact get?_insert_ne t w h

theorem get?_erase (t : Tracker) (key other : WorkloadKey) :
    (t.erase key).get? other = if other = key then none else t.get? other := by
  split
  · next h => rw [h, get?_erase_self]
  · next h => exact get?_erase_ne t h

theorem changeTo_congr (h : previous.get? w.key = t.get? w.key) : previous.changeTo w = t.changeTo w := by
  rw [changeTo, changeTo, h]

/-! ## Lists after an interruption -/

/-- A workload that is new, or whose counters changed, is relevant. -/
theorem mem_relist_found (hdistinct : Workload.Distinct ws)
    (h : w ∈ found ∨ (w ∈ ws ∧ (previous.changeTo w).isRelevant = true)) :
    w ∈ (relist previous found now ws).1 := by
  induction ws generalizing previous found now with
  | nil =>
    rcases h with h | ⟨h, -⟩
    · exact h
    · cases h
  | cons x xs ih =>
    have hrest : Workload.Distinct xs := fun a ha b hb =>
      hdistinct a (List.mem_cons_of_mem x ha) b (List.mem_cons_of_mem x hb)
    refine ih hrest ?_
    rcases h with h | ⟨hw, hrelevant⟩
    · left
      split
      · exact List.mem_append_left _ h
      · exact h
    · by_cases hx : w = x
      · subst hx
        left
        rw [if_pos hrelevant]
        exact List.mem_append_right _ (List.mem_singleton_self w)
      · have hkey : w.key ≠ x.key := fun hkey => hx (hdistinct w hw x List.mem_cons_self hkey)
        refine .inr ⟨(List.mem_cons.1 hw).resolve_left hx, ?_⟩
        rw [changeTo_congr (get?_erase_ne previous hkey)]
        exact hrelevant

/-- Nothing comes from elsewhere than from the list and what was known before. -/
theorem relist_subset (previous now : Tracker) (found ws : List Workload) :
    (∀ w ∈ (relist previous found now ws).1, w ∈ found ∨ w ∈ ws) ∧
      (∀ w ∈ (relist previous found now ws).2.1.seen, w ∈ previous.seen) ∧
      ∀ w ∈ (relist previous found now ws).2.2.seen, w ∈ now.seen ∨ w ∈ ws := by
  induction ws generalizing previous found now with
  | nil => exact ⟨fun _ => .inl, fun _ => id, fun _ => .inl⟩
  | cons x xs ih =>
    obtain ⟨hfound, hleft, hnow⟩ := ih (previous.erase x.key) (now.insert x)
      (if (previous.changeTo x).isRelevant then found ++ [x] else found)
    refine ⟨fun w hw => ?_, fun w hw => (List.mem_filter.1 (hleft w hw)).1, fun w hw => ?_⟩
    · rcases hfound w hw with h | h
      · split at h
        · rcases List.mem_append.1 h with h | h
          · exact .inl h
          · exact .inr (List.mem_singleton.1 h ▸ List.mem_cons_self)
        · exact .inl h
      · exact .inr (List.mem_cons_of_mem x h)
    · rcases hnow w hw with h | h
      · rcases mem_insert h with rfl | h
        · exact .inr List.mem_cons_self
        · exact .inl h
      · exact .inr (List.mem_cons_of_mem x h)

/-- What is not on the list is left over, and not known any more. -/
theorem get?_relist_ne (previous now : Tracker) (found : List Workload) (h : ∀ x ∈ ws, x.key ≠ key) :
    (relist previous found now ws).2.1.get? key = previous.get? key ∧
      (relist previous found now ws).2.2.get? key = now.get? key := by
  induction ws generalizing previous found now with
  | nil => exact ⟨rfl, rfl⟩
  | cons x xs ih =>
    have hx : key ≠ x.key := Ne.symm (h x List.mem_cons_self)
    obtain ⟨hleft, hnow⟩ := ih (previous.erase x.key) (now.insert x)
      (if (previous.changeTo x).isRelevant then found ++ [x] else found) fun y hy => h y (List.mem_cons_of_mem x hy)
    exact ⟨hleft.trans (get?_erase_ne previous hx), hnow.trans (get?_insert_ne now x hx)⟩

/-- What is on the list is known. -/
theorem get?_relist_mem (previous now : Tracker) (found : List Workload) (hdistinct : Workload.Distinct ws)
    (hw : w ∈ ws) :
    (relist previous found now ws).2.2.get? w.key = some w := by
  induction ws generalizing previous found now with
  | nil => cases hw
  | cons x xs ih =>
    have hrest : Workload.Distinct xs := fun a ha b hb =>
      hdistinct a (List.mem_cons_of_mem x ha) b (List.mem_cons_of_mem x hb)
    by_cases hlater : w ∈ xs
    · exact ih _ _ _ hrest hlater
    · obtain rfl := (List.mem_cons.1 hw).resolve_right hlater
      have hothers : ∀ y ∈ xs, y.key ≠ w.key := by
        intro y hy hkey
        exact hlater (hdistinct y (List.mem_cons_of_mem w hy) w List.mem_cons_self hkey ▸ hy)
      exact (get?_relist_ne _ _ _ hothers).2.trans (get?_insert_self now w)

/-! ## What is known after a report -/

theorem shows_applied (h : t.Shows ws) (hws : ∀ v, v ∈ ws' ↔ v = w ∨ (v ∈ ws ∧ v.key ≠ w.key)) :
    (t.after (.applied w)).Shows ws' := by
  intro v
  change (t.insert w).get? v.key = some v ↔ v ∈ ws'
  rw [get?_insert, hws]
  split
  · next hkey => simp only [hkey, Option.some.injEq, ne_eq, not_true_eq_false, and_false, or_false, eq_comm]
  · next hkey =>
    have hne : v ≠ w := fun heq => hkey (congrArg Workload.key heq)
    rw [h v, or_iff_right hne, and_iff_left hkey]

theorem shows_deleted (h : t.Shows ws) (hws : ∀ v, v ∈ ws' ↔ v ∈ ws ∧ v.key ≠ w.key) :
    (t.after (.deleted w)).Shows ws' := by
  intro v
  change (t.erase w.key).get? v.key = some v ↔ v ∈ ws'
  rw [get?_erase, hws]
  split
  · next hkey => simp only [hkey, ne_eq, not_true_eq_false, and_false, reduceCtorEq]
  · next hkey => rw [h v, and_iff_left hkey]

theorem shows_restarted (t : Tracker) (hdistinct : Workload.Distinct ws) : (t.after (.restarted ws)).Shows ws := by
  intro v
  constructor
  · intro hv
    refine Decidable.byContradiction fun hnot => ?_
    have hothers : ∀ x ∈ ws, x.key ≠ v.key := by
      intro x hx hkey
      have hfound := get?_relist_mem t empty [] hdistinct hx
      rw [hkey] at hfound
      obtain rfl := Option.some.inj (hfound.symm.trans hv)
      exact hnot hx
    cases (get?_relist_ne t empty [] hothers).2.symm.trans hv
  · exact get?_relist_mem t empty [] hdistinct

/-- What is known after a report was known before, or is named by it. -/
theorem mem_after (h : w ∈ (t.after r).seen) : w ∈ t.seen ∨ w ∈ r.objects := by
  cases r with
  | failed => exact .inl h
  | applied v => exact (mem_insert h).symm.imp_right List.mem_singleton.2
  | deleted v => exact .inl (List.mem_filter.1 h).1
  | restarted ws =>
    refine ((relist_subset t empty [] ws).2.2 w h).imp_left fun hnone => ?_
    cases hnone

/-- What a report makes relevant was known before, or is named by it. -/
theorem mem_relevant (h : w ∈ (relevantWorkloads t r).1) : w ∈ t.seen ∨ w ∈ r.objects := by
  cases r with
  | failed => cases h
  | applied v =>
    change w ∈ (if _ then [v] else []) at h
    split at h
    · exact .inr h
    · cases h
  | deleted v =>
    change w ∈ (if _ then [v] else []) at h
    split at h
    · exact .inr h
    · cases h
  | restarted ws =>
    rcases List.mem_append.1 h with h | h
    · refine .inr (((relist_subset t empty [] ws).1 w h).resolve_left fun hnone => ?_)
      cases hnone
    · exact .inl ((relist_subset t empty [] ws).2.1 w (List.mem_filter.1 h).1)

theorem InScope.after (ht : t.InScope s) (hr : r.Sound s) : (t.after r).InScope s :=
  fun w hw => (mem_after hw).elim (ht w) (hr.seen w)

/-- A change that is not relevant tells nothing new. -/
theorem get?_of_irrelevant (ht : t.InScope s) (hw : w.InScope s) (h : (t.changeTo w).isRelevant = false) :
    t.get? w.key = some w := by
  unfold changeTo at h
  split at h
  · next old hold =>
    simp only [WorkloadChange.isRelevant, hw.labelled, Bool.true_and, bne_eq_false_iff_eq] at h
    rw [hold, (ht _ (mem_of_get? hold)).eq_of_key hw (key_of_get? hold) h]
  · simp only [WorkloadChange.isRelevant, hw.labelled, Bool.true_eq_false] at h

theorem mem_owners_deleted (t : Tracker) (hn : w.component = some n) : n ∈ t.owners (.deleted w) := by
  refine List.mem_filterMap.2 ⟨w, ?_, hn⟩
  simp only [relevantWorkloads, deleted, WorkloadChange.isRelevant, hn, Option.isSome_some, if_true,
    List.mem_singleton]

/-- A workload that a report names was known as it is, or its component is updated. -/
theorem known_or_mem_owners (ht : t.InScope s) (hr : r.Sound s) (hw : w ∈ r.objects) (hn : w.component = some n) :
    t.get? w.key = some w ∨ n ∈ t.owners r := by
  have hseen := hr.seen w hw
  have howner : w ∈ (relevantWorkloads t r).1 → n ∈ t.owners r := fun hmem =>
    List.mem_filterMap.2 ⟨w, hmem, hn⟩
  cases r with
  | failed => cases hw
  | applied v =>
    obtain rfl := List.mem_singleton.1 hw
    cases hrelevant : (t.changeTo w).isRelevant with
    | false => exact .inl (get?_of_irrelevant ht hseen hrelevant)
    | true =>
      refine .inr (howner ?_)
      simp only [relevantWorkloads, applied, hrelevant, if_true, List.mem_singleton]
  | deleted v =>
    obtain rfl := List.mem_singleton.1 hw
    exact .inr (mem_owners_deleted t hn)
  | restarted ws =>
    cases hrelevant : (t.changeTo w).isRelevant with
    | false => exact .inl (get?_of_irrelevant ht hseen hrelevant)
    | true => exact .inr (howner (List.mem_append_left _ (mem_relist_found hr.distinct (.inr ⟨hw, hrelevant⟩))))

/-- A report says nothing new of the workloads of a component that is not updated. -/
theorem get?_after_iff (ht : t.InScope s) (hr : r.Sound s) (hnot : n ∉ t.owners r) (hn : w.component = some n) :
    (t.after r).get? w.key = some w ↔ t.get? w.key = some w := by
  -- What a report names under the key is known, and so is that the component is this one.
  have hknown : ∀ v ∈ r.objects, v.component = some n → t.get? v.key = some v := fun v hv hvn =>
    (known_or_mem_owners ht hr hv hvn).resolve_right hnot
  have hsame : ∀ v ∈ r.objects, v.key = w.key → t.get? w.key = some w → v.component = some n := by
    intro v hv hkey hw
    rw [(hr.seen v hv).owner, hkey, ← (ht _ (mem_of_get? hw)).owner, hn]
  cases r with
  | failed => rfl
  | applied v =>
    have hv : v ∈ (Cluster.Report.applied v).objects := List.mem_singleton_self v
    change (t.insert v).get? w.key = some w ↔ _
    rw [get?_insert]
    split
    · next hkey =>
      constructor
      · intro heq
        obtain rfl := Option.some.inj heq
        exact hknown v hv hn
      · intro hw
        have hfound := hknown v hv (hsame v hv hkey.symm hw)
        rw [← hkey, hw] at hfound
        exact hfound.symm
    · rfl
  | deleted v =>
    have hv : v ∈ (Cluster.Report.deleted v).objects := List.mem_singleton_self v
    change (t.erase v.key).get? w.key = some w ↔ _
    rw [get?_erase]
    split
    · next hkey =>
      exact ⟨nofun, fun hw => (hnot (mem_owners_deleted t (hsame v hv hkey.symm hw))).elim⟩
    · rfl
  | restarted ws =>
    have hshows : (t.after (.restarted ws)).get? w.key = some w ↔ w ∈ ws := shows_restarted t hr.distinct w
    rw [hshows]
    refine ⟨fun hw => hknown w hw hn, fun hw => ?_⟩
    by_cases hlisted : ∃ v ∈ ws, v.key = w.key
    · obtain ⟨v, hv, hkey⟩ := hlisted
      have hfound := hknown v hv (hsame v hv hkey hw)
      rw [hkey, hw] at hfound
      exact Option.some.inj hfound ▸ hv
    · -- It is not on the list, so it is gone, which is relevant.
      have hothers : ∀ v ∈ ws, v.key ≠ w.key := fun v hv hkey => hlisted ⟨v, hv, hkey⟩
      have hleft := (get?_relist_ne t empty [] hothers).1.trans hw
      refine (hnot (List.mem_filterMap.2 ⟨w, List.mem_append_right _ (List.mem_filter.2 ⟨?_, ?_⟩), hn⟩)).elim
      · exact List.mem_of_find?_eq_some hleft
      · simp only [WorkloadChange.isRelevant, hn, Option.isSome_some]

/-! ## Reports in a row -/

theorem InScope.afterAll (ht : t.InScope s) (hrs : ∀ r ∈ rs, r.Sound s) : (t.afterAll rs).InScope s := by
  induction rs generalizing t with
  | nil => exact ht
  | cons r rs ih =>
    exact ih (ht.after (hrs r List.mem_cons_self)) fun r' hr' => hrs r' (List.mem_cons_of_mem r hr')

/-- Reports say nothing new of the workloads of a component that they do not make a watch update. -/
theorem get?_afterAll_iff (ht : t.InScope s) (hrs : ∀ r ∈ rs, r.Sound s) (hnot : n ∉ t.ownersAll rs)
    (hn : w.component = some n) : (t.afterAll rs).get? w.key = some w ↔ t.get? w.key = some w := by
  induction rs generalizing t with
  | nil => rfl
  | cons r rs ih =>
    obtain ⟨hfirst, hrest⟩ := not_or.1 (mt List.mem_append.2 hnot)
    have hr := hrs r List.mem_cons_self
    have hlater := ih (ht.after hr) (fun r' hr' => hrs r' (List.mem_cons_of_mem r hr')) hrest
    exact hlater.trans (get?_after_iff ht hr hfirst hn)

theorem afterAll_concat (t : Tracker) (rs : List (Cluster.Report Workload)) (r : Cluster.Report Workload) :
    t.afterAll (rs ++ [r]) = (t.afterAll rs).after r := by
  rw [afterAll, List.foldl_append]
  rfl

theorem mem_ownersAll_concat : n ∈ t.ownersAll (rs ++ [r]) ↔ n ∈ t.ownersAll rs ∨ n ∈ (t.afterAll rs).owners r := by
  induction rs generalizing t with
  | nil => simp [ownersAll, afterAll]
  | cons r' rs ih =>
    rw [List.cons_append, ownersAll, ownersAll, List.mem_append, List.mem_append, ih, or_assoc]
    rfl

end Tracker

end Tracking

end ChartOperator
