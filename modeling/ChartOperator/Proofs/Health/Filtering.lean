import ChartOperator.Proofs.Health.Tracking
import ChartOperator.Proofs.World.Sample

set_option autoImplicit false

/-!
# What the change filter lets through

The verdict on a component folds the tracked workloads that carry its label (`Tracker.verdictOn`). A report that
changes the verdict makes a workload of the component relevant, so that its health is computed anew
(`mem_owners_of_verdictOn_ne`): what is told of the component's workloads is either relevant or was known.

The filter looks at the present label and at the counters alone. A workload that was tracked under another label
than it is told of now may thus escape it (`Tracker.Relabels`). Of the component that it leaves nothing is passed
on, and of the one that it comes to only if its counters changed as well. A report of that workload alone never
passes on such a component (`not_mem_owners_of_relabels`), whatever becomes of its verdict: one report can change
the verdicts on two components, and make no workload relevant (`overlooked_relabelled`).
-/

namespace ChartOperator

namespace Tracker

/-- The verdict on the tracked workloads that carry the label of a component. -/
def verdictOn (t : Tracker) (n : String) : Health :=
  Workload.verdict (t.seen.filter fun w => w.component == some n)

/-- The counters of the tracked workload with a key, if it is one of the component. -/
def replicasOf (t : Tracker) (n : String) (key : WorkloadKey) : Option Replicas :=
  ((t.get? key).filter fun w => w.component == some n).map Workload.replicas

/-- The workload is tracked under another label than it is told of. It leaves the component, or comes to it with the
counters that it had. -/
def Relabels (t : Tracker) (n : String) (w : Workload) : Prop :=
  ∃ old, t.get? w.key = some old ∧ old.component ≠ w.component ∧
    (old.component = some n ∨ (w.component = some n ∧ old.replicas = w.replicas))

variable {t now previous : Tracker} {r : Cluster.Report Workload} {v w : Workload} {ws found : List Workload}
  {key : WorkloadKey} {n : String}

/-! ## Each key once -/

theorem distinct_erase (h : Workload.Distinct t.seen) (key : WorkloadKey) :
    Workload.Distinct (t.erase key).seen :=
  fun a ha b hb => h a (List.mem_filter.1 ha).1 b (List.mem_filter.1 hb).1

theorem distinct_insert (h : Workload.Distinct t.seen) (w : Workload) : Workload.Distinct (t.insert w).seen := by
  have hothers : ∀ x ∈ (t.erase w.key).seen, x.key ≠ w.key := fun x hx => by simpa using (List.mem_filter.1 hx).2
  intro a ha b hb hkey
  rcases mem_place ha with rfl | ha
  · rcases mem_place hb with rfl | hb
    · rfl
    · exact (hothers b hb hkey.symm).elim
  · rcases mem_place hb with rfl | hb
    · exact (hothers a ha hkey).elim
    · exact distinct_erase h w.key a ha b hb hkey

theorem distinct_relist (h : Workload.Distinct now.seen) :
    Workload.Distinct (relist previous found now ws).2.2.seen := by
  induction ws generalizing previous found now with
  | nil => exact h
  | cons x xs ih => exact ih (distinct_insert h x)

theorem distinct_after (h : Workload.Distinct t.seen) (r : Cluster.Report Workload) :
    Workload.Distinct (t.after r).seen := by
  cases r with
  | failed => exact h
  | applied w => exact distinct_insert h w
  | deleted w => exact distinct_erase h w.key
  | restarted ws => exact distinct_relist fun a ha => by cases ha

/-- Whatever was reported to a tracker, each key is tracked once. -/
theorem distinct_afterAll (rs : List (Cluster.Report Workload)) : Workload.Distinct (empty.afterAll rs).seen := by
  have hall : ∀ t : Tracker, Workload.Distinct t.seen → Workload.Distinct (t.afterAll rs).seen := by
    induction rs with
    | nil => exact fun _ ht => ht
    | cons r rs ih => exact fun t ht => ih (t.after r) (distinct_after ht r)
  exact hall empty fun a ha => by cases ha

/-- Where each key is tracked once, what is tracked is found under its key. -/
theorem get?_of_mem (h : Workload.Distinct t.seen) (hw : w ∈ t.seen) : t.get? w.key = some w := by
  cases hfound : t.get? w.key with
  | none => simpa using List.find?_eq_none.1 hfound w hw
  | some v => rw [h v (mem_of_get? hfound) w hw (key_of_get? hfound)]

/-! ## The verdict by keys -/

theorem replicasOf_eq_some_iff {c : Replicas} :
    t.replicasOf n key = some c ↔ ∃ w, t.get? key = some w ∧ w.component = some n ∧ w.replicas = c := by
  simp only [replicasOf, Option.map_eq_some_iff, Option.filter_eq_some_iff, beq_iff_eq, and_assoc]

theorem replicasOf_of_component_ne (hw : t.get? key = some w) (hn : w.component ≠ some n) :
    t.replicasOf n key = none := by
  simp [replicasOf, hw, hn]

/-- The verdict is a matter of the counters of the workloads that are the component's. -/
theorem verdictOn_available_iff (h : Workload.Distinct t.seen) :
    t.verdictOn n = .available ↔ ∀ key c, t.replicasOf n key = some c → c.isAvailable = true := by
  rw [verdictOn, Workload.verdict_available_iff]
  constructor
  · intro hall key c hc
    obtain ⟨w, hw, hn, rfl⟩ := replicasOf_eq_some_iff.1 hc
    exact hall w (List.mem_filter.2 ⟨mem_of_get? hw, beq_iff_eq.2 hn⟩)
  · intro hall w hw
    obtain ⟨hw, hn⟩ := List.mem_filter.1 hw
    exact hall w.key w.replicas (replicasOf_eq_some_iff.2 ⟨w, get?_of_mem h hw, beq_iff_eq.1 hn, rfl⟩)

theorem verdictOn_congr {t' : Tracker} (h : Workload.Distinct t.seen) (h' : Workload.Distinct t'.seen)
    (hsame : ∀ key, t'.replicasOf n key = t.replicasOf n key) : t'.verdictOn n = t.verdictOn n := by
  have hiff : t'.verdictOn n = .available ↔ t.verdictOn n = .available := by
    simp only [verdictOn_available_iff h, verdictOn_available_iff h', hsame]
  simp only [verdictOn, Workload.verdict] at hiff ⊢
  split <;> split <;> simp_all

/-! ## What a report tells anew -/

/-- What a report tells of a workload that is tracked says nothing new of the component, unless that is relevant or
the workload carried another label. -/
theorem replicasOf_of_irrelevant (hnow : now.get? w.key = some w)
    (hirrelevant : w.component = some n → (t.changeTo w).isRelevant = false) (hlabel : ¬ t.Relabels n w) :
    now.replicasOf n w.key = t.replicasOf n w.key := by
  by_cases hn : w.component = some n
  · have hchange := hirrelevant hn
    rw [changeTo] at hchange
    cases hold : t.get? w.key with
    | none =>
      rw [hold] at hchange
      simp [WorkloadChange.isRelevant, hn] at hchange
    | some old =>
      rw [hold] at hchange
      have hcounters : old.replicas = w.replicas := by
        simpa [WorkloadChange.isRelevant, hn] using hchange
      have hsame : old.component = w.component := Decidable.byContradiction fun hne =>
        hlabel ⟨old, hold, hne, .inr ⟨hn, hcounters⟩⟩
      rw [replicasOf_eq_some_iff.2 ⟨w, hnow, hn, rfl⟩,
        replicasOf_eq_some_iff.2 ⟨old, hold, hsame.trans hn, hcounters⟩]
  · rw [replicasOf_of_component_ne hnow hn]
    cases hold : t.get? w.key with
    | none => simp [replicasOf, hold]
    | some old =>
      refine (replicasOf_of_component_ne hold fun hleft => ?_).symm
      exact hlabel ⟨old, hold, fun hsame => hn (hsame ▸ hleft), .inl hleft⟩

/-- A report says nothing new of the workloads of a component that it does not pass on, as long as none of those it
names carried another label. -/
theorem replicasOf_after (hr : Workload.Distinct r.objects) (hnot : n ∉ t.owners r)
    (hlabels : ∀ w ∈ r.objects, ¬ t.Relabels n w) (key : WorkloadKey) :
    (t.after r).replicasOf n key = t.replicasOf n key := by
  have hpassed : ∀ w ∈ (relevantWorkloads t r).1, w.component ≠ some n := fun w hw hn =>
    hnot (List.mem_filterMap.2 ⟨w, hw, hn⟩)
  cases r with
  | failed => rfl
  | applied w =>
    have hw : w ∈ (Cluster.Report.applied w).objects := List.mem_singleton_self w
    by_cases hkey : key = w.key
    · subst hkey
      refine replicasOf_of_irrelevant (get?_insert_self t w) (fun hn => ?_) (hlabels w hw)
      refine Bool.eq_false_iff.2 fun hrelevant => hpassed w ?_ hn
      simp [relevantWorkloads, applied, hrelevant]
    · change ((t.insert w).replicasOf n key) = _
      rw [replicasOf, get?_insert_ne t w hkey, replicasOf]
  | deleted w =>
    have hw : w ∈ (Cluster.Report.deleted w).objects := List.mem_singleton_self w
    change ((t.erase w.key).replicasOf n key) = _
    by_cases hkey : key = w.key
    · subst hkey
      have hgone : (t.erase w.key).replicasOf n w.key = none := by simp [replicasOf, get?_erase_self]
      rw [hgone]
      cases hold : t.get? w.key with
      | none => simp [replicasOf, hold]
      | some old =>
        refine (replicasOf_of_component_ne hold fun hleft => ?_).symm
        refine hlabels w hw ⟨old, hold, fun hsame => ?_, .inl hleft⟩
        exact hnot (mem_owners_deleted t (hsame ▸ hleft))
    · rw [replicasOf, get?_erase_ne t hkey, replicasOf]
  | restarted ws =>
    by_cases hlisted : ∃ w ∈ ws, w.key = key
    · obtain ⟨w, hw, rfl⟩ := hlisted
      refine replicasOf_of_irrelevant (get?_relist_mem t empty [] hr hw) (fun hn => ?_) (hlabels w hw)
      refine Bool.eq_false_iff.2 fun hrelevant => hpassed w ?_ hn
      exact List.mem_append_left _ (mem_relist_found hr (.inr ⟨hw, hrelevant⟩))
    · -- What is not on the list is not tracked any more, and that is relevant.
      have hothers : ∀ w ∈ ws, w.key ≠ key := fun w hw hkey => hlisted ⟨w, hw, hkey⟩
      obtain ⟨hleft, hnow⟩ := get?_relist_ne t empty [] hothers
      have hgone : (t.after (.restarted ws)).replicasOf n key = none := by
        have huntracked : (t.after (.restarted ws)).get? key = none := hnow
        rw [replicasOf, huntracked, Option.filter_none, Option.map_none]
      rw [hgone]
      cases hold : t.get? key with
      | none => simp [replicasOf, hold]
      | some old =>
        refine (replicasOf_of_component_ne hold fun hn => ?_).symm
        refine hpassed old (List.mem_append_right _ (List.mem_filter.2 ⟨?_, ?_⟩)) hn
        · exact mem_of_get? (hleft.trans hold)
        · simp [WorkloadChange.isRelevant, hn]

/-- Of a workload that was tracked under another label nothing is passed on to the component that it leaves, and to the
one that it comes to with the counters that it had. -/
theorem not_mem_owners_of_relabels (h : t.Relabels n w) : n ∉ t.owners (.applied w) := by
  obtain ⟨old, hold, hne, hleft | ⟨-, hcounters⟩⟩ := h
  · intro howner
    obtain ⟨v, hv, hn⟩ := List.mem_filterMap.1 howner
    change v ∈ (if _ then [w] else []) at hv
    split at hv
    · rw [List.mem_singleton.1 hv] at hn
      exact hne (hleft.trans hn.symm)
    · cases hv
  · have hirrelevant : (t.applied w).1 = false := by
      simp [applied, changeTo, hold, WorkloadChange.isRelevant, hcounters]
    simp [owners, relevantWorkloads, hirrelevant]

/-- A report that changes the verdict on a component passes the component on, unless it names a workload that was
tracked under another label. -/
theorem mem_owners_of_verdictOn_ne (hkeys : Workload.Distinct t.seen) (hr : Workload.Distinct r.objects)
    (hchanged : (t.after r).verdictOn n ≠ t.verdictOn n) : n ∈ t.owners r ∨ ∃ w ∈ r.objects, t.Relabels n w := by
  refine Decidable.or_iff_not_imp_left.2 fun hnot => Classical.byContradiction fun hlabels => hchanged ?_
  refine verdictOn_congr hkeys (distinct_after hkeys r) (replicasOf_after hr hnot fun w hw hrelabels => ?_)
  exact hlabels ⟨w, hw, hrelabels⟩

end Tracker

/-- A workload that fails changes the verdict on its component, and is passed on. -/
theorem mem_owners_of_verdictOn_ne_failed :
    let t := Tracker.empty.after (.applied (sampleWorkload .deployment "web" true))
    let r : Cluster.Report Workload := .applied (sampleWorkload .deployment "web" false)
    (t.after r).verdictOn "dogu-op" ≠ t.verdictOn "dogu-op" ∧ "dogu-op" ∈ t.owners r := by
  intro t r
  have hchanged : (t.after r).verdictOn "dogu-op" ≠ t.verdictOn "dogu-op" := by decide
  have hkeys : Workload.Distinct t.seen :=
    Tracker.distinct_afterAll [.applied (sampleWorkload .deployment "web" true)]
  have hr : Workload.Distinct r.objects := fun a ha b hb _ =>
    (List.mem_singleton.1 ha).trans (List.mem_singleton.1 hb).symm
  refine ⟨hchanged, (Tracker.mem_owners_of_verdictOn_ne hkeys hr hchanged).resolve_right ?_⟩
  rintro ⟨w, hw, old, hold, hne, -⟩
  obtain rfl := List.mem_singleton.1 hw
  obtain rfl : sampleWorkload .deployment "web" true = old := Option.some.inj hold
  exact hne rfl

/-- A workload that failed moves from one component to another. The verdicts on both change, and neither is passed
on. -/
theorem overlooked_relabelled :
    let w := sampleWorkload .deployment "web" false
    let t := Tracker.empty.after (.applied w)
    let r : Cluster.Report Workload := .applied { w with component := some "etcd" }
    ((t.after r).verdictOn "dogu-op" ≠ t.verdictOn "dogu-op" ∧ "dogu-op" ∉ t.owners r) ∧
      ((t.after r).verdictOn "etcd" ≠ t.verdictOn "etcd" ∧ "etcd" ∉ t.owners r) := by
  decide

end ChartOperator
