import ChartOperator.Proofs.Health.Filtering
import Mathlib.Data.List.Induction
import Mathlib.Data.List.Nodup

set_option autoImplicit false

/-!
# A list in place of single changes

A report tells of a key what is there under it, or it tells nothing (`Cluster.Report.told`). After reports in a row a
key is tracked with what the last report that told of it said (`Tracker.get?_afterAll_iff_latest`).

After an interruption a watch reports a list, which tells of every key. That comes to the same as single reports: each
workload of the list applied, and each tracked one that is not on the list deleted (`Tracker.singles`). A tracker is
determined by what it says of the keys (`Tracker.Ascending.ext`), and reports that tell of different keys
(`Cluster.Report.Apart`) do not get in each other's way. So the single reports may come in any order
(`Tracker.after_restarted_eq_singles`).
-/

namespace ChartOperator

/-- What a report tells of a key: the workload that is there now, or that there is none. -/
def Cluster.Report.told (key : WorkloadKey) : Report Workload → Option (Option Workload)
  | applied w => if w.key = key then some (some w) else none
  | deleted w => if w.key = key then some none else none
  | restarted ws => some (ws.reverse.find? (·.key == key))
  | failed => none

/-- The last of the reports that told of a key said that the workload is there. -/
def Cluster.Report.Latest (rs : List (Report Workload)) (key : WorkloadKey) (w : Workload) : Prop :=
  ∃ earlier r later, rs = earlier ++ r :: later ∧ r.told key = some (some w) ∧ ∀ s ∈ later, s.told key = none

/-- No two of the reports tell of one key. -/
def Cluster.Report.Apart (rs : List (Report Workload)) : Prop :=
  rs.Pairwise fun r s => ∀ key, r.told key = none ∨ s.told key = none

namespace Tracker

/-- The workloads that reports in a row make relevant. -/
def relevantAll (t : Tracker) : List (Cluster.Report Workload) → List Workload
  | [] => []
  | r :: rs => (relevantWorkloads t r).1 ++ (t.after r).relevantAll rs

/-- The tracked workloads that are not on a list. -/
def unlisted (t : Tracker) (ws : List Workload) : List Workload :=
  t.seen.filter fun w => w.key ∉ ws.map Workload.key

/-- The single reports that a list stands for. -/
def singles (t : Tracker) (ws : List Workload) : List (Cluster.Report Workload) :=
  ws.map .applied ++ (t.unlisted ws).map .deleted

/-- What is tracked is in the order of the keys. -/
def Ascending (t : Tracker) : Prop := t.seen.Pairwise fun v w => precedes v.key w.key = true

end Tracker

variable {t t' previous now : Tracker} {r s : Cluster.Report Workload} {rs rs' : List (Cluster.Report Workload)}
  {v w : Workload} {ws found : List Workload} {key : WorkloadKey}

/-! ## The order of keys -/

theorem precedes_irrefl (a : WorkloadKey) : precedes a a = false := by
  simp [precedes]

theorem precedes_trans {a b c : WorkloadKey} (hab : precedes a b = true) (hbc : precedes b c = true) :
    precedes a c = true := by
  simp only [precedes, Bool.or_eq_true, Bool.and_eq_true, decide_eq_true_eq, beq_iff_eq] at *
  rcases hab with hab | ⟨hab, hab'⟩
  · rcases hbc with hbc | ⟨hbc, -⟩
    · exact .inl (String.lt_trans hab hbc)
    · exact .inl (hbc ▸ hab)
  · rcases hbc with hbc | ⟨hbc, hbc'⟩
    · exact .inl (hab ▸ hbc)
    · exact .inr ⟨hab.trans hbc, String.lt_trans hab' hbc'⟩

theorem precedes_of_ne {a b : WorkloadKey} (hne : a ≠ b) (h : precedes a b = false) : precedes b a = true := by
  simp only [precedes, Bool.or_eq_false_iff, Bool.and_eq_false_iff, decide_eq_false_iff_not, Bool.or_eq_true,
    Bool.and_eq_true, decide_eq_true_eq, beq_iff_eq, beq_eq_false_iff_ne] at *
  obtain ⟨hfirst, hsecond⟩ := h
  by_cases hlt : b.1 < a.1
  · exact .inl hlt
  · have heq : a.1 = b.1 := String.le_antisymm hlt hfirst
    refine .inr ⟨heq.symm, Decidable.byContradiction fun hname => hne ?_⟩
    exact Prod.ext heq (String.le_antisymm hname (hsecond.resolve_left (not_not.2 heq)))

namespace Tracker

theorem ascending_erase (h : t.Ascending) (key : WorkloadKey) : (t.erase key).Ascending := h.filter _

theorem ascending_place (hws : ws.Pairwise fun v w => precedes v.key w.key = true) (hw : ∀ x ∈ ws, x.key ≠ w.key) :
    (place w ws).Pairwise fun v w => precedes v.key w.key = true := by
  induction ws with
  | nil => exact List.pairwise_singleton ..
  | cons x xs ih =>
    obtain ⟨hx, hxs⟩ := List.pairwise_cons.1 hws
    rw [place]
    split
    · next hfirst =>
      refine List.pairwise_cons.2 ⟨fun y hy => ?_, hws⟩
      rcases List.mem_cons.1 hy with rfl | hy
      · exact hfirst
      · exact precedes_trans hfirst (hx y hy)
    · next hlater =>
      refine List.pairwise_cons.2 ⟨fun y hy => ?_, ih hxs fun y hy => hw y (List.mem_cons_of_mem x hy)⟩
      rcases mem_place hy with rfl | hy
      · exact precedes_of_ne (hw x List.mem_cons_self).symm (Bool.eq_false_iff.2 hlater)
      · exact hx y hy

theorem ascending_insert (h : t.Ascending) (w : Workload) : (t.insert w).Ascending := by
  apply ascending_place (ascending_erase h w.key)
  intro x hx
  simpa using (List.mem_filter.1 hx).2

theorem ascending_relist (h : now.Ascending) : (relist previous found now ws).2.2.Ascending := by
  induction ws generalizing previous found now with
  | nil => exact h
  | cons x xs ih => exact ih (ascending_insert h x)

theorem ascending_after (h : t.Ascending) (r : Cluster.Report Workload) : (t.after r).Ascending := by
  cases r with
  | failed => exact h
  | applied w => exact ascending_insert h w
  | deleted w => exact ascending_erase h w.key
  | restarted ws => exact ascending_relist List.Pairwise.nil

theorem ascending_afterAll (h : t.Ascending) (rs : List (Cluster.Report Workload)) : (t.afterAll rs).Ascending := by
  induction rs generalizing t with
  | nil => exact h
  | cons r rs ih => exact ih (ascending_after h r)

theorem Ascending.nodup_keys (h : t.Ascending) : (t.seen.map Workload.key).Nodup := by
  apply List.pairwise_map.2
  refine h.imp fun {v w} hprecedes hkey => ?_
  rw [hkey, precedes_irrefl] at hprecedes
  cases hprecedes

theorem Ascending.mem_iff (h : t.Ascending) : w ∈ t.seen ↔ t.get? w.key = some w := by
  constructor
  · apply get?_of_mem
    intro v hv w hw hkey
    exact List.inj_on_of_nodup_map h.nodup_keys hv hw hkey
  · exact mem_of_get?

/-- What is tracked is determined by what is found under the keys. -/
theorem Ascending.ext (h : t.Ascending) (h' : t'.Ascending) (hsame : ∀ key, t.get? key = t'.get? key) : t = t' := by
  have hmem : ∀ w, w ∈ t.seen ↔ w ∈ t'.seen := by
    intro w
    rw [h.mem_iff, h'.mem_iff, hsame]
  have hperm : t.seen.Perm t'.seen :=
    (List.perm_ext_iff_of_nodup h.nodup_keys.of_map h'.nodup_keys.of_map).2 hmem
  have hseen : t.seen = t'.seen := by
    refine hperm.eq_of_pairwise (fun v w _ _ hvw hwv => ?_) h h'
    have hself := precedes_trans hvw hwv
    rw [precedes_irrefl] at hself
    cases hself
  cases t
  cases t'
  exact congrArg Tracker.mk hseen

/-! ## What is tracked after reports -/

theorem get?_relist (previous now : Tracker) (found ws : List Workload) (key : WorkloadKey) :
    (relist previous found now ws).2.2.get? key = (ws.reverse.find? (·.key == key)).or (now.get? key) := by
  induction ws generalizing previous found now with
  | nil => rfl
  | cons x xs ih =>
    rw [relist, ih, get?_insert, List.reverse_cons, List.find?_append, Option.or_assoc]
    congr 1
    by_cases hkey : key = x.key
    · simp [hkey]
    · simp [hkey, Ne.symm hkey]

/-- A key is tracked with what a report tells of it, and as before if it tells nothing. -/
theorem get?_after (t : Tracker) (r : Cluster.Report Workload) (key : WorkloadKey) :
    (t.after r).get? key = (r.told key).getD (t.get? key) := by
  cases r with
  | failed => rfl
  | applied w =>
    show (t.insert w).get? key = _
    by_cases hkey : w.key = key
    · simp [Cluster.Report.told, get?_insert, hkey]
    · simp [Cluster.Report.told, get?_insert, hkey, Ne.symm hkey]
  | deleted w =>
    show (t.erase w.key).get? key = _
    by_cases hkey : w.key = key
    · simp [Cluster.Report.told, get?_erase, hkey]
    · simp [Cluster.Report.told, get?_erase, hkey, Ne.symm hkey]
  | restarted ws =>
    show (relist t [] empty ws).2.2.get? key = _
    rw [get?_relist]
    simp [Cluster.Report.told, get?, empty]

theorem get?_afterAll_of_silent (hsilent : ∀ r ∈ rs, r.told key = none) :
    (t.afterAll rs).get? key = t.get? key := by
  induction rs generalizing t with
  | nil => rfl
  | cons r rs ih =>
    show ((t.after r).afterAll rs).get? key = _
    rw [ih fun s hs => hsilent s (List.mem_cons_of_mem r hs), get?_after, hsilent r List.mem_cons_self]
    rfl

theorem latest_concat :
    Cluster.Report.Latest (rs ++ [r]) key w ↔
      r.told key = some (some w) ∨ (r.told key = none ∧ Cluster.Report.Latest rs key w) := by
  constructor
  · rintro ⟨earlier, r', later, heq, hr', hlater⟩
    rcases List.eq_nil_or_concat later with rfl | ⟨later, s, rfl⟩
    · obtain ⟨-, rfl⟩ := List.append_inj' heq rfl |>.imp_right List.singleton_inj.1
      exact .inl hr'
    · rw [List.concat_eq_append, ← List.cons_append, ← List.append_assoc] at heq
      obtain ⟨rfl, hs⟩ := List.append_inj' heq rfl
      obtain rfl := List.singleton_inj.1 hs
      refine .inr ⟨hlater r (by simp), earlier, r', later, rfl, hr', fun s hs => hlater s (by simp [hs])⟩
  · rintro (hr | ⟨hr, earlier, r', later, rfl, hr', hlater⟩)
    · exact ⟨rs, r, [], rfl, hr, nofun⟩
    · refine ⟨earlier, r', later ++ [r], by simp, hr', fun s hs => ?_⟩
      rcases List.mem_append.1 hs with hs | hs
      · exact hlater s hs
      · exact List.mem_singleton.1 hs ▸ hr

/-- A key is tracked with what the last report that told of it said. -/
theorem get?_afterAll_iff_latest (rs : List (Cluster.Report Workload)) :
    (empty.afterAll rs).get? key = some w ↔ Cluster.Report.Latest rs key w := by
  induction rs using List.reverseRecOn with
  | nil =>
    constructor
    · exact nofun
    · rintro ⟨earlier, r, later, heq, -⟩
      simp at heq
  | append_singleton rs r ih =>
    rw [afterAll_concat, get?_after, latest_concat]
    cases hr : r.told key with
    | none => simp [ih]
    | some told => simp

/-! ## Reports of different keys -/

/-- What a report makes relevant is the same after one that tells of other keys. -/
theorem relevant_after_of_apart (h : ∀ key, r.told key = none ∨ s.told key = none) :
    (relevantWorkloads (t.after r) s).1 = (relevantWorkloads t s).1 := by
  cases s with
  | failed => rfl
  | deleted w => rfl
  | applied w =>
    have hsilent : r.told w.key = none := (h w.key).resolve_right (by simp [Cluster.Report.told])
    have hsame : (t.after r).get? w.key = t.get? w.key := by rw [get?_after, hsilent, Option.getD_none]
    simp only [relevantWorkloads, applied, changeTo_congr hsame]
    rfl
  | restarted ws =>
    -- The list tells of every key, so the other report tells of none.
    have hsilent : ∀ key, r.told key = none := fun key => (h key).resolve_right (by simp [Cluster.Report.told])
    cases r with
    | failed => rfl
    | applied w => simpa [Cluster.Report.told] using hsilent w.key
    | deleted w => simpa [Cluster.Report.told] using hsilent w.key
    | restarted vs => simpa [Cluster.Report.told] using hsilent ("", "")

theorem apart_cons :
    Cluster.Report.Apart (r :: rs) ↔
      (∀ s ∈ rs, ∀ key, r.told key = none ∨ s.told key = none) ∧ Cluster.Report.Apart rs := List.pairwise_cons

theorem apart_of_perm (hperm : rs.Perm rs') (h : Cluster.Report.Apart rs) : Cluster.Report.Apart rs' :=
  hperm.pairwise h fun {_ _} hrs key => (hrs key).symm

/-- Of reports that tell of different keys, each makes relevant what it makes relevant alone. -/
theorem relevantAll_of_apart (h : Cluster.Report.Apart rs) :
    t.relevantAll rs = rs.flatMap fun r => (relevantWorkloads t r).1 := by
  induction rs generalizing t with
  | nil => rfl
  | cons r rs ih =>
    obtain ⟨hr, hrs⟩ := apart_cons.1 h
    rw [relevantAll, ih hrs, List.flatMap_cons]
    congr 1
    exact List.flatMap_congr fun s hs => relevant_after_of_apart (hr s hs)

theorem get?_afterAll_of_apart (h : Cluster.Report.Apart rs) (hr : r ∈ rs) {told : Option Workload}
    (htold : r.told key = some told) : (t.afterAll rs).get? key = told := by
  induction rs generalizing t with
  | nil => cases hr
  | cons s rs ih =>
    obtain ⟨hs, hrs⟩ := apart_cons.1 h
    show ((t.after s).afterAll rs).get? key = _
    rcases List.mem_cons.1 hr with rfl | hr
    · have hsilent : ∀ s ∈ rs, s.told key = none := fun s hmem =>
        (hs s hmem key).resolve_left (by simp [htold])
      rw [get?_afterAll_of_silent hsilent, get?_after, htold]
      rfl
    · exact ih hrs hr

/-- Reports that tell of different keys may come in any order. -/
theorem afterAll_of_perm (ht : t.Ascending) (h : Cluster.Report.Apart rs) (hperm : rs.Perm rs') :
    t.afterAll rs = t.afterAll rs' := by
  have h' := apart_of_perm hperm h
  refine (ascending_afterAll ht rs).ext (ascending_afterAll ht rs') fun key => ?_
  by_cases hsilent : ∀ r ∈ rs, r.told key = none
  · rw [get?_afterAll_of_silent hsilent, get?_afterAll_of_silent fun r hr => hsilent r (hperm.mem_iff.2 hr)]
  · obtain ⟨r, hr, htold⟩ : ∃ r ∈ rs, r.told key ≠ none := by simpa using hsilent
    obtain ⟨told, htold⟩ := Option.ne_none_iff_exists'.1 htold
    rw [get?_afterAll_of_apart h hr htold, get?_afterAll_of_apart h' (hperm.mem_iff.1 hr) htold]

/-! ## The single reports of a list -/

theorem apart_singles (ht : t.Ascending) (hws : (ws.map Workload.key).Nodup) :
    Cluster.Report.Apart (t.singles ws) := by
  refine List.pairwise_append.2 ⟨?_, ?_, ?_⟩
  · refine List.pairwise_map.2 ((List.pairwise_map.1 hws).imp fun {v w} hne key => ?_)
    by_cases hkey : v.key = key
    · exact .inr (if_neg fun heq => hne (hkey.trans heq.symm))
    · exact .inl (if_neg hkey)
  · have hleft := (List.pairwise_map.1 ht.nodup_keys).filter fun w => decide (w.key ∉ ws.map Workload.key)
    refine List.pairwise_map.2 (hleft.imp fun {v w} hne key => ?_)
    by_cases hkey : v.key = key
    · exact .inr (if_neg fun heq => hne (hkey.trans heq.symm))
    · exact .inl (if_neg hkey)
  · intro r hr s hs key
    obtain ⟨v, hv, rfl⟩ := List.mem_map.1 hr
    obtain ⟨w, hw, rfl⟩ := List.mem_map.1 hs
    have hunlisted : w.key ∉ ws.map Workload.key := by simpa using (List.mem_filter.1 hw).2
    by_cases hkey : v.key = key
    · refine .inr (if_neg fun heq => hunlisted ?_)
      exact List.mem_map.2 ⟨v, hv, hkey.trans heq.symm⟩
    · exact .inl (if_neg hkey)

/-- A list and its single reports leave the same tracker. -/
theorem afterAll_singles (ht : t.Ascending) (hws : (ws.map Workload.key).Nodup) :
    t.afterAll (t.singles ws) = t.after (.restarted ws) := by
  have hapart := apart_singles ht hws
  refine (ascending_afterAll ht _).ext (ascending_after ht _) fun key => ?_
  have hdistinct : Workload.Distinct ws := fun v hv w hw hkey => List.inj_on_of_nodup_map hws hv hw hkey
  by_cases hlisted : ∃ w ∈ ws, w.key = key
  · obtain ⟨w, hw, rfl⟩ := hlisted
    have hmem : Cluster.Report.applied w ∈ t.singles ws := List.mem_append_left _ (List.mem_map_of_mem hw)
    rw [get?_afterAll_of_apart hapart hmem (if_pos rfl)]
    exact (get?_relist_mem t empty [] hdistinct hw).symm
  · have hothers : ∀ w ∈ ws, w.key ≠ key := fun w hw hkey => hlisted ⟨w, hw, hkey⟩
    have hgone : (t.after (.restarted ws)).get? key = none := (get?_relist_ne t empty [] hothers).2
    rw [hgone]
    cases htracked : t.get? key with
    | none =>
      refine (get?_afterAll_of_silent fun r hr => ?_).trans htracked
      rcases List.mem_append.1 hr with hr | hr
      · obtain ⟨w, hw, rfl⟩ := List.mem_map.1 hr
        exact if_neg (hothers w hw)
      · obtain ⟨w, hw, rfl⟩ := List.mem_map.1 hr
        refine if_neg fun hkey => ?_
        have hfound := ht.mem_iff.1 (List.mem_filter.1 hw).1
        rw [hkey, htracked] at hfound
        cases hfound
    | some w =>
      have hkey : w.key = key := key_of_get? htracked
      have hunlisted : w ∈ t.unlisted ws := by
        simp only [unlisted, List.mem_filter, decide_eq_true_eq, List.mem_map, not_exists, not_and]
        exact ⟨mem_of_get? htracked, fun v hv heq => hothers v hv (heq.trans hkey)⟩
      have hmem : Cluster.Report.deleted w ∈ t.singles ws := List.mem_append_right _ (List.mem_map_of_mem hunlisted)
      exact get?_afterAll_of_apart hapart hmem (if_pos hkey)

/-- The listed workloads that are relevant, each taken for the change that it is to what was tracked before. -/
theorem relist_found (previous now : Tracker) (found : List Workload) (hws : (ws.map Workload.key).Nodup) :
    (relist previous found now ws).1 = found ++ ws.filter fun w => (previous.changeTo w).isRelevant := by
  induction ws generalizing previous found now with
  | nil => simp [relist]
  | cons x xs ih =>
    obtain ⟨hx, hxs⟩ := List.nodup_cons.1 (List.map_cons ▸ hws)
    have hrest : xs.filter (fun w => ((previous.erase x.key).changeTo w).isRelevant) =
        xs.filter fun w => (previous.changeTo w).isRelevant := by
      refine List.filter_congr fun w hw => ?_
      have hkey : w.key ≠ x.key := fun hkey => hx (hkey ▸ List.mem_map_of_mem hw)
      rw [changeTo_congr (get?_erase_ne previous hkey)]
    rw [relist, ih _ _ _ hxs, hrest, List.filter_cons]
    split <;> simp

theorem relist_left (previous now : Tracker) (found ws : List Workload) :
    (relist previous found now ws).2.1.seen = previous.unlisted ws := by
  induction ws generalizing previous found now with
  | nil => exact (List.filter_eq_self.2 fun w _ => rfl).symm
  | cons x xs ih =>
    rw [relist, ih, unlisted, erase, List.filter_filter, unlisted]
    refine List.filter_congr fun w _ => ?_
    by_cases hkey : w.key = x.key <;> simp [hkey]

/-- A list makes the same workloads relevant as its single reports. -/
theorem relevantAll_singles (ht : t.Ascending) (hws : (ws.map Workload.key).Nodup) :
    t.relevantAll (t.singles ws) = (relevantWorkloads t (.restarted ws)).1 := by
  have hfilter : ∀ (p : Workload → Bool) (vs : List Workload),
      (vs.flatMap fun w => if p w = true then [w] else []) = vs.filter p := by
    intro p vs
    induction vs with
    | nil => rfl
    | cons v vs ih =>
      rw [List.flatMap_cons, List.filter_cons, ih]
      split <;> rfl
  rw [relevantAll_of_apart (apart_singles ht hws), singles, List.flatMap_append, List.flatMap_map, List.flatMap_map]
  show _ = (relist t [] empty ws).1 ++ (relist t [] empty ws).2.1.seen.filter _
  rw [relist_found t empty [] hws, relist_left, List.nil_append]
  exact congrArg₂ _ (hfilter _ ws) (hfilter _ (t.unlisted ws))

/-- Whatever was reported, each key is tracked with what the last report that told of it said. A list with each key once
leaves what its single reports leave, in whatever order they come. It makes the same workloads relevant: those of the
list in its order, and then tracked ones that are not on it. -/
theorem after_restarted_eq_singles (rs : List (Cluster.Report Workload)) :
    (∀ key w, (empty.afterAll rs).get? key = some w ↔ Cluster.Report.Latest rs key w) ∧
      ∀ ws, (ws.map Workload.key).Nodup →
        let t := empty.afterAll rs
        (t.restarted ws).1.1 = ws.filter (fun w => (t.changeTo w).isRelevant) ∧
          (t.restarted ws).1.2 = (t.unlisted ws).filter (fun w => (WorkloadChange.deleted w).isRelevant) ∧
          (t.restarted ws).1.1 ++ (t.restarted ws).1.2 = t.relevantAll (t.singles ws) ∧
          ∀ calls, calls.Perm (t.singles ws) →
            t.afterAll calls = (t.restarted ws).2 ∧
              (t.relevantAll calls).Perm ((t.restarted ws).1.1 ++ (t.restarted ws).1.2) := by
  refine ⟨fun key w => get?_afterAll_iff_latest rs, fun ws hws => ?_⟩
  intro t
  have ht : t.Ascending := ascending_afterAll List.Pairwise.nil rs
  have hapart := apart_singles ht hws
  have hrelevant : (t.restarted ws).1.1 ++ (t.restarted ws).1.2 = t.relevantAll (t.singles ws) :=
    (relevantAll_singles ht hws).symm
  refine ⟨?_, ?_, hrelevant, fun calls hperm => ⟨?_, ?_⟩⟩
  · show (relist t [] empty ws).1 = _
    rw [relist_found t empty [] hws, List.nil_append]
  · show (relist t [] empty ws).2.1.seen.filter _ = _
    rw [relist_left]
  · rw [← afterAll_of_perm ht hapart hperm.symm]
    exact afterAll_singles ht hws
  · rw [hrelevant, relevantAll_of_apart hapart, relevantAll_of_apart (apart_of_perm hperm.symm hapart)]
    exact hperm.flatMap_right _

end Tracker

/-- A watch that comes back finds one workload as it was, one that failed meanwhile and a new one, and misses one. The
single reports in the reverse order say the same. -/
theorem after_restarted_eq_singles_reversed :
    let t := Tracker.empty.afterAll [.applied (sampleWorkload .deployment "stable" true),
      .applied (sampleWorkload .deployment "changing" true), .applied (sampleWorkload .deployment "vanished" true)]
    let ws := [sampleWorkload .deployment "stable" true, sampleWorkload .deployment "changing" false,
      sampleWorkload .deployment "new" true]
    let calls : List (Cluster.Report Workload) := [.deleted (sampleWorkload .deployment "vanished" true),
      .applied (sampleWorkload .deployment "new" true), .applied (sampleWorkload .deployment "changing" false),
      .applied (sampleWorkload .deployment "stable" true)]
    (ws.map Workload.key).Nodup ∧ calls.Perm (t.singles ws) ∧ t.afterAll calls = (t.restarted ws).2 ∧
      (t.relevantAll calls).Perm [sampleWorkload .deployment "changing" false, sampleWorkload .deployment "new" true,
        sampleWorkload .deployment "vanished" true] := by
  intro t ws calls
  have hws : (ws.map Workload.key).Nodup := by decide
  have hcalls : calls.Perm (t.singles ws) := List.reverse_perm (t.singles ws)
  obtain ⟨-, -, -, hany⟩ := (Tracker.after_restarted_eq_singles _).2 ws hws
  obtain ⟨hafter, hrelevant⟩ := hany calls hcalls
  exact ⟨hws, hcalls, hafter, hrelevant⟩

/-- Where a list names a workload twice, it makes it relevant twice. Single reports do so once. -/
example :
    let w := sampleWorkload .deployment "web" true
    (relevantWorkloads .empty (.restarted [w, w])).1 = [w, w] ∧
      Tracker.empty.relevantAll (Tracker.empty.singles [w, w]) = [w] := by
  decide

end ChartOperator
