import ChartOperator.Proofs.Health.Refreshes
import ChartOperator.Proofs.Health.Tracking
import ChartOperator.Proofs.World.Sample

set_option autoImplicit false

/-!
# Watches over all kinds of workloads

Each kind of workloads has its watch, whose loop takes one report after the other (`Watches`). A connection that
is lost takes the reports with it that are due, and a list of what there is comes in their place. That also
stands for a loop that is not told of changes for a while.

When a loop has taken the reports that are due, it knows the workloads of its kind (`Follower.Sound`). Beside
that, each component has workloads that were there when its health was computed last (`Watches.Follows`). For
each kind they are those that are there now, or the loop is about to compute the health anew, or the change was
overlooked. So the health is the verdict on the present workloads when no reports are due (`health_in_step`).

A loop compares what it is told with what it was told before, while a verdict is on what is there. Reports that
are due may thus be in the verdict already when they are lost. If a list then shows what the loop knew before, it
says nothing new, and the verdict remains on what is there no more: `overlooked_recovery` is such a run. Such a
verdict stands until the next periodic update, of which nothing is said here.
-/

namespace ChartOperator

open ComponentStore (settled)

/-! ## The loops and their reports -/

/-- The loop of a watch over the workloads of a kind. -/
structure Follower where
  known : Tracker
  /-- The reports that the loop has yet to take. -/
  due : List (Cluster.Report Workload)

/-- What the loop will know when it has taken the reports that are due. -/
def Follower.view (f : Follower) : Tracker := f.known.afterAll f.due

/-- The components that the reports that are due will make the loop update. -/
def Follower.owners (f : Follower) : List String := f.known.ownersAll f.due

/-- The workloads of a kind that have a component. -/
def WorkloadStore.watched (s : WorkloadStore) (kind : WorkloadKind) («namespace» : String) : List Workload :=
  s.items.filter fun w => w.kind == kind && w.namespace == «namespace» && w.component.isSome

/-- A watch over each kind of workloads. -/
structure Watches where
  world : World
  loop : WorkloadKind → Follower
  /-- The components of the workloads that loops have been told of. -/
  told : List String := []
  /-- When the health of a component was computed last, reports that concern its workloads of a kind were due. -/
  early : String → WorkloadKind → Bool := fun _ _ => false
  /-- Such reports were lost since, and the list that came in their place said nothing new. -/
  overlooked : String → WorkloadKind → Bool := fun _ _ => false

namespace Watches

/-- What may happen next. -/
inductive Step
  /-- A workload is stored, be it new or not. -/
  | put (kind : WorkloadKind) («namespace» name : String) (replicas : Replicas)
  | remove (kind : WorkloadKind) («namespace» name : String)
  /-- The connection of a loop is lost with the reports that are due, and replaced. -/
  | reconnect (kind : WorkloadKind)
  /-- A loop takes a report. -/
  | take (kind : WorkloadKind)
  | wait (d : Duration)

/-- Reports a change of a workload to the loop that watches it. -/
def report (space : String) (s : Watches) (w : Workload) (r : Cluster.Report Workload) : Watches :=
  if w.namespace = space ∧ w.component.isSome = true then
    { s with loop := fun k => if k = w.kind then { s.loop k with due := (s.loop k).due ++ [r] } else s.loop k }
  else s

/-- Replaces the reports that are due by a list of the present workloads. -/
def reconnect (space : String) (s : Watches) (kind : WorkloadKind) : Watches :=
  let lost := (s.loop kind).owners
  let f : Follower := { s.loop kind with due := [.restarted (s.world.workloads.watched kind space)] }
  { s with
    loop := fun k => if k = kind then f else s.loop k
    overlooked := fun n k => s.overlooked n k || k = kind && s.early n k && n ∈ lost && !decide (n ∈ f.owners) }

/-- Takes a report, which the others are behind. The health of the components that it concerns is computed. -/
def taken (s : Watches) (kind : WorkloadKind) (r : Cluster.Report Workload) (others : List (Cluster.Report Workload))
    (world : World) (known : Tracker) : Watches :=
  let fresh := (s.loop kind).known.owners r
  let loop := fun k => if k = kind then ⟨known, others⟩ else s.loop k
  { world, loop, told := r.objects.filterMap Workload.component ++ s.told
    early := fun n k => if n ∈ fresh then decide (n ∈ (loop k).owners) else s.early n k
    overlooked := fun n k => !decide (n ∈ fresh) && s.overlooked n k }

/-- Takes the next report that is due. -/
def take (s : Watches) (kind : WorkloadKind) : Watches :=
  match (s.loop kind).due with
  | [] => s
  | r :: others =>
    match healthConsumer.take r (s.loop kind).known s.world with
    | (none, world) => { s with world }
    | (some known, world) => s.taken kind r others world known

/-- Takes a step. Labels never change: whose a workload is depends on its kind and its key. -/
def step (owner : WorkloadKind → WorkloadKey → Option String) (space : String) (s : Watches) : Step → Watches
  | .put kind place name replicas =>
    let w : Workload := ⟨kind, name, place, owner kind (place, name), replicas⟩
    report space { s with world := { s.world with workloads := s.world.workloads.put w } } w (.applied w)
  | .remove kind place name =>
    match s.world.workloads.items.find? (WorkloadStore.isAt kind place name) with
    | none => s
    | some w =>
      let workloads := s.world.workloads.erase kind place name
      report space { s with world := { s.world with workloads } } w (.deleted w)
  | .reconnect kind => s.reconnect space kind
  | .take kind => s.take kind
  | .wait d => { s with world := s.world.pass d }

/-- The watches start: what each loop is told first is what there is. -/
def start (space : String) (w : World) : Watches where
  world := w
  loop kind := ⟨.empty, [.restarted (w.workloads.watched kind space)]⟩

/-- What has become of the watches after these steps. -/
def run (owner : WorkloadKind → WorkloadKey → Option String) (space : String) (w : World) (steps : List Step) :
    Watches :=
  steps.foldl (step owner space) (start space w)

end Watches

/-! ## What the loops know -/

/-- Each workload is stored once, and whose it is depends on its kind and its key. -/
structure WorkloadStore.Labelled (owner : WorkloadKind → WorkloadKey → Option String) (s : WorkloadStore) : Prop where
  owned : ∀ w ∈ s.items, w.component = owner w.kind w.key
  distinct : ∀ v ∈ s.items, ∀ w ∈ s.items, v.kind = w.kind → v.key = w.key → v = w

/-- What holds of a loop when these workloads are there to be watched. -/
structure Follower.Sound (c : Scope) (ws : List Workload) (told : List String) (f : Follower) : Prop where
  known : f.known.InScope c
  due : ∀ r ∈ f.due, r.Sound c
  shows : f.view.Shows ws
  told : ∀ w ∈ f.known.seen, ∀ n, w.component = some n → n ∈ told

/-- The health of a component was computed last when these workloads were there. -/
structure Watches.Follows (space : String) (s : Watches) (n : String) (seen : List Workload) : Prop where
  health : ∀ x, s.world.components.find? n = some x → x.health = Workload.verdict seen
  own : ∀ w ∈ seen, w.component = some n
  /-- What the loop knows is what there was, unless it was late. -/
  recent : ∀ kind, s.early n kind = false → ∀ w, w.kind = kind → w.component = some n →
    (w ∈ seen ↔ (s.loop kind).known.get? w.key = some w)
  /-- What there was is there, or the loop will update the component, or the change was overlooked. -/
  current : ∀ kind, (∀ w, w.kind = kind → (w ∈ seen ↔ w ∈ s.world.workloads.belonging n space)) ∨
    n ∈ (s.loop kind).owners ∨ s.overlooked n kind = true

/-- What holds of the watches between two steps. -/
structure Watches.Sound (owner : WorkloadKind → WorkloadKey → Option String) (space : String)
    (first : ComponentStore) (s : Watches) : Prop where
  free : s.world.FaultFree
  working : s.world.components.Working
  listable : s.world.workloads.failing = []
  labelled : s.world.workloads.Labelled owner
  stays : first.Stays s.world.components
  loops : ∀ kind, (s.loop kind).Sound ⟨kind, space, owner kind⟩ (s.world.workloads.watched kind space) s.told
  follows : ∀ n ∈ s.told, ',' ∉ n.toList → ∃ seen, s.Follows space n seen

section Watching

variable {owner : WorkloadKind → WorkloadKey → Option String} {space n : String} {first : ComponentStore}
  {s : Watches} {c : Scope} {ws : List Workload} {told told' : List String} {f : Follower} {w : Workload}
  {kind : WorkloadKind} {store store' : WorkloadStore}

/-! ## Changes of the store -/

theorem isAt_iff {place name : String} :
    WorkloadStore.isAt kind place name w = true ↔ w.kind = kind ∧ w.key = (place, name) := by
  simp [WorkloadStore.isAt, Workload.key, and_assoc]

theorem mem_erase {place name : String} :
    w ∈ (store.erase kind place name).items ↔ w ∈ store.items ∧ ¬ (w.kind = kind ∧ w.key = (place, name)) := by
  rw [WorkloadStore.erase, List.mem_filter, Bool.not_eq_true', ← Bool.not_eq_true, isAt_iff]

theorem mem_put {x : Workload} :
    w ∈ (store.put x).items ↔ w = x ∨ (w ∈ store.items ∧ ¬ (w.kind = x.kind ∧ w.key = x.key)) := by
  rw [WorkloadStore.put, List.mem_append, mem_erase, List.mem_singleton, or_comm]
  rfl

theorem WorkloadStore.Labelled.erase (h : store.Labelled owner) (kind : WorkloadKind) (place name : String) :
    (store.erase kind place name).Labelled owner where
  owned v hv := h.owned v (mem_erase.1 hv).1
  distinct v hv w hw := h.distinct v (mem_erase.1 hv).1 w (mem_erase.1 hw).1

theorem WorkloadStore.Labelled.put (h : store.Labelled owner) (hw : w.component = owner w.kind w.key) :
    (store.put w).Labelled owner where
  owned v hv := by
    rcases mem_put.1 hv with rfl | ⟨hv, -⟩
    · exact hw
    · exact h.owned v hv
  distinct u hu v hv hkind hkey := by
    rcases mem_put.1 hu with rfl | ⟨hu, hnot⟩ <;> rcases mem_put.1 hv with rfl | ⟨hv, hnot'⟩
    · rfl
    · exact (hnot' ⟨hkind.symm, hkey.symm⟩).elim
    · exact (hnot ⟨hkind, hkey⟩).elim
    · exact h.distinct u hu v hv hkind hkey

/-- The stores hold the same workloads, but for what they hold in the place of one. -/
def WorkloadStore.DifferAt (w : Workload) (s s' : WorkloadStore) : Prop :=
  ∀ v : Workload, ¬ (v.kind = w.kind ∧ v.key = w.key) → (v ∈ s'.items ↔ v ∈ s.items)

/-! ## What the loops are told -/

theorem mem_watched :
    w ∈ store.watched kind space ↔
      w ∈ store.items ∧ w.kind = kind ∧ w.namespace = space ∧ w.component.isSome = true := by
  simp [WorkloadStore.watched, and_assoc]

/-- The workloads of a component are watched by kinds. -/
theorem mem_belonging_iff (hkind : w.kind = kind) (hn : w.component = some n) :
    w ∈ store.belonging n space ↔ w ∈ store.watched kind space := by
  rw [mem_belonging, mem_watched, hn]
  simp [hkind]

/-- What a change of a workload does not concern holds of the same workloads. -/
theorem WorkloadStore.DifferAt.mem_iff {P : WorkloadKind → String → Option String → Prop} (h : store.DifferAt w store')
    (hlabelled : store.Labelled owner) (hlabelled' : store'.Labelled owner) (hw : w.component = owner w.kind w.key)
    (hnot : ¬ P w.kind w.namespace w.component) (v : Workload) :
    v ∈ store'.items ∧ P v.kind v.namespace v.component ↔ v ∈ store.items ∧ P v.kind v.namespace v.component := by
  by_cases hat : v.kind = w.kind ∧ v.key = w.key
  · have hplace : v.component = owner v.kind v.key → ¬ P v.kind v.namespace v.component := by
      intro hv
      have hnamespace : v.namespace = w.namespace := congrArg Prod.fst hat.2
      rw [hv, hat.1, hat.2, hnamespace, ← hw]
      exact hnot
    exact iff_of_false (fun hv => hplace (hlabelled'.owned v hv.1) hv.2)
      fun hv => hplace (hlabelled.owned v hv.1) hv.2
  · rw [h v hat]

theorem WorkloadStore.Labelled.inScope (h : store.Labelled owner) (hw : w ∈ store.watched kind space) :
    w.InScope ⟨kind, space, owner kind⟩ := by
  obtain ⟨hstored, hkind, hplace, hsome⟩ := mem_watched.1 hw
  exact ⟨hkind, hplace, hkind ▸ h.owned w hstored, hsome⟩

theorem WorkloadStore.Labelled.sound_restarted (h : store.Labelled owner) :
    (Cluster.Report.restarted (store.watched kind space)).Sound ⟨kind, space, owner kind⟩ where
  seen w hw := h.inScope hw
  distinct v hv w hw hkey := by
    obtain ⟨hv, hkind, -⟩ := mem_watched.1 hv
    obtain ⟨hw, hkind', -⟩ := mem_watched.1 hw
    exact h.distinct v hv w hw (hkind.trans hkind'.symm) hkey

/-- A loop that will not update a component knows its workloads. -/
theorem Follower.Sound.known_iff (h : f.Sound ⟨kind, space, owner kind⟩ (store.watched kind space) told)
    (hnot : n ∉ f.owners) (hkind : w.kind = kind) (hn : w.component = some n) :
    f.known.get? w.key = some w ↔ w ∈ store.belonging n space := by
  rw [mem_belonging_iff hkind hn, ← h.shows w]
  exact (Tracker.get?_afterAll_iff h.known h.due hnot hn).symm

/-- A loop that takes its next report knows more. -/
theorem Follower.Sound.take {r : Cluster.Report Workload} {due : List (Cluster.Report Workload)}
    (h : f.Sound c ws told) (hdue : f.due = r :: due) :
    Follower.Sound c ws (r.objects.filterMap Workload.component ++ told) ⟨f.known.after r, due⟩ := by
  have hall := h.due
  have hshows := h.shows
  rw [Follower.view, hdue] at hshows
  rw [hdue] at hall
  refine ⟨h.known.after (hall r List.mem_cons_self), fun r' hr' => hall r' (List.mem_cons_of_mem r hr'), hshows, ?_⟩
  intro w hw n hn
  rcases Tracker.mem_after hw with hknown | hnamed
  · exact List.mem_append_right _ (h.told w hknown n hn)
  · exact List.mem_append_left _ (List.mem_filterMap.2 ⟨w, hnamed, hn⟩)

/-- A loop that is told more components is as it was. -/
theorem Follower.Sound.mono (h : f.Sound c ws told) (htold : ∀ n ∈ told, n ∈ told') : f.Sound c ws told' :=
  ⟨h.known, h.due, h.shows, fun w hw n hn => htold n (h.told w hw n hn)⟩

theorem Follower.Sound.congr {ws' : List Workload} (h : f.Sound c ws told) (hws : ∀ v, v ∈ ws' ↔ v ∈ ws) :
    f.Sound c ws' told :=
  ⟨h.known, h.due, fun v => (h.shows v).trans (hws v).symm, h.told⟩

/-- A loop that is connected anew will know what there is. -/
theorem Follower.Sound.reconnect (h : f.Sound c ws told) (hsound : (Cluster.Report.restarted ws).Sound c) :
    Follower.Sound c ws told { f with due := [.restarted ws] } where
  known := h.known
  due _ hr := List.mem_singleton.1 hr ▸ hsound
  shows := f.known.shows_restarted hsound.distinct
  told := h.told

/-- A report that says how the workloads have changed keeps a loop in step. -/
theorem Follower.Sound.report {r : Cluster.Report Workload} {ws' : List Workload} (h : f.Sound c ws told)
    (hr : r.Sound c) (hshows : ∀ t : Tracker, t.Shows ws → (t.after r).Shows ws') :
    Follower.Sound c ws' told { f with due := f.due ++ [r] } where
  known := h.known
  due r' hr' := by
    rcases List.mem_append.1 hr' with hr' | hr'
    · exact h.due r' hr'
    · exact List.mem_singleton.1 hr' ▸ hr
  shows := by
    rw [view, Tracker.afterAll_concat]
    exact hshows _ h.shows
  told := h.told

/-- The health of a component was computed just now. -/
theorem Watches.follows_belonging
    (hloops : ∀ kind, (s.loop kind).Sound ⟨kind, space, owner kind⟩ (s.world.workloads.watched kind space) s.told)
    (hhealth : ∀ x, s.world.components.find? n = some x →
      x.health = Workload.verdict (s.world.workloads.belonging n space))
    (hearly : ∀ kind, s.early n kind = false → n ∉ (s.loop kind).owners) :
    s.Follows space n (s.world.workloads.belonging n space) where
  health := hhealth
  own _ hw := (mem_belonging.1 hw).2.2
  recent kind hlate _ hkind hn := ((hloops kind).known_iff (hearly kind hlate) hkind hn).symm
  current _ := .inl fun _ _ => Iff.rfl

namespace Watches.Sound

variable {r : Cluster.Report Workload} {others : List (Cluster.Report Workload)} {world : World} {seen : List Workload}

/-- A report that does not concern a component says nothing new of it. -/
theorem follows_taken (h : s.Sound owner space first) (hdue : (s.loop kind).due = r :: others)
    (hnot : n ∉ (s.loop kind).known.owners r) (hkeeps : world.workloads = s.world.workloads)
    (hfind : world.components.find? n = s.world.components.find? n) (hfollows : s.Follows space n seen) :
    (s.taken kind r others world ((s.loop kind).known.after r)).Follows space n seen where
  health x hx := hfollows.health x (hfind.symm.trans hx)
  own := hfollows.own
  recent k hlate w hk hn := by
    have hlate' : s.early n k = false := (if_neg hnot).symm.trans hlate
    rw [hfollows.recent k hlate' w hk hn]
    by_cases hkind : k = kind
    · subst hkind
      have hr : r.Sound ⟨k, space, owner k⟩ := (h.loops k).due r (hdue ▸ List.mem_cons_self)
      simp only [taken, if_true]
      exact (Tracker.get?_after_iff (h.loops k).known hr hnot hn).symm
    · simp only [taken, if_neg hkind]
  current k := by
    rcases hfollows.current k with hsame | howner | hlost
    · refine .inl fun w hk => ?_
      rw [hsame w hk]
      show _ ↔ w ∈ world.workloads.belonging n space
      rw [hkeeps]
    · refine .inr (.inl ?_)
      by_cases hkind : k = kind
      · subst hkind
        rw [Follower.owners, hdue] at howner
        simp only [taken, if_true]
        exact (List.mem_append.1 howner).resolve_left hnot
      · simp only [taken, if_neg hkind]
        exact howner
    · refine .inr (.inr ?_)
      simp only [taken, hnot, decide_false, Bool.not_false, Bool.true_and]
      exact hlost

/-- A loop takes a report. -/
theorem take (h : s.Sound owner space first) (kind : WorkloadKind) : (s.take kind).Sound owner space first := by
  unfold Watches.take
  cases hdue : (s.loop kind).due with
  | nil => exact h
  | cons r others =>
    have hloop := h.loops kind
    have hr : r.Sound ⟨kind, space, owner kind⟩ := hloop.due r (hdue ▸ List.mem_cons_self)
    have hrelevant : ∀ x ∈ (relevantWorkloads (s.loop kind).known r).1, x.namespace = space ∧ x.component ≠ none ∧
        ∀ y ∈ s.world.workloads.items, WorkloadStore.isAt x.kind x.namespace x.name y = true →
          y.component = x.component := by
      intro x hx
      have hscope : x.InScope ⟨kind, space, owner kind⟩ := (Tracker.mem_relevant hx).elim (hloop.known x) (hr.seen x)
      refine ⟨hscope.place, Option.isSome_iff_ne_none.1 hscope.labelled, fun y hy hat => ?_⟩
      obtain ⟨hkind, hkey⟩ := isAt_iff.1 hat
      rw [h.labelled.owned y hy, hkind, hkey, hscope.owner, hscope.kind]
      rfl
    obtain ⟨world, heach, hrefreshes⟩ := World.refreshEach_eq h.free h.working h.listable hrelevant
    have htake : healthConsumer.take r (s.loop kind).known s.world =
        (some ((s.loop kind).known.after r), world) := by
      simp only [healthConsumer, heach]
      rfl
    simp only [htake]
    have hworkloads := hrefreshes.keeps.workloads
    have hloops : ∀ k, ((s.taken kind r others world ((s.loop kind).known.after r)).loop k).Sound
        ⟨k, space, owner k⟩ (world.workloads.watched k space) (r.objects.filterMap Workload.component ++ s.told) := by
      intro k
      rw [hworkloads]
      by_cases hk : k = kind
      · subst hk
        simp only [taken, if_true]
        exact hloop.take hdue
      · simp only [taken, if_neg hk]
        exact (h.loops k).mono fun n => List.mem_append_right _
    refine ⟨hrefreshes.keeps.free, hrefreshes.working, hworkloads ▸ h.listable, hworkloads ▸ h.labelled,
      h.stays.trans hrefreshes.refreshed.stays, hloops, fun n htold hname => ?_⟩
    by_cases hfresh : n ∈ (s.loop kind).known.owners r
    · refine ⟨_, follows_belonging hloops (fun x hx => ?_) fun k hlate => ?_⟩
      · rw [hrefreshes.refreshed.stored n hfresh hname x hx]
        show _ = Workload.verdict (world.workloads.belonging n space)
        rw [hworkloads]
      · have hnow := (if_pos hfresh).symm.trans hlate
        exact of_decide_eq_false hnow
    · -- What the loop is told of a component that the report does not concern, it knew.
      have htold' : n ∈ s.told := by
        rcases List.mem_append.1 htold with hnamed | htold
        · obtain ⟨w, hw, hn⟩ := List.mem_filterMap.1 hnamed
          have hknown := (Tracker.known_or_mem_owners hloop.known hr hw hn).resolve_right hfresh
          exact hloop.told w (Tracker.mem_of_get? hknown) n hn
        · exact htold
      obtain ⟨seen, hfollows⟩ := h.follows n htold' hname
      exact ⟨seen, h.follows_taken hdue hfresh hworkloads (hrefreshes.refreshed.others n hfresh) hfollows⟩

/-- A loop is connected anew. -/
theorem reconnect (h : s.Sound owner space first) (kind : WorkloadKind) :
    (s.reconnect space kind).Sound owner space first := by
  have hloop := (h.loops kind).reconnect h.labelled.sound_restarted
  refine ⟨h.free, h.working, h.listable, h.labelled, h.stays, fun k => ?_, fun n htold hname => ?_⟩
  · by_cases hk : k = kind
    · subst hk
      simp only [Watches.reconnect, if_true]
      exact hloop
    · simp only [Watches.reconnect, if_neg hk]
      exact h.loops k
  · obtain ⟨seen, hfollows⟩ := h.follows n htold hname
    refine ⟨seen, hfollows.health, hfollows.own, fun k hlate w hk hn => ?_, fun k => ?_⟩
    · rw [hfollows.recent k hlate w hk hn]
      simp only [Watches.reconnect]
      split
      · next hkind => rw [hkind]
      · rfl
    · rcases hfollows.current k with hsame | howner | hlost
      · exact .inl hsame
      · by_cases hk : k = kind
        · subst hk
          by_cases hagain : n ∈ Follower.owners
              { s.loop k with due := [.restarted (s.world.workloads.watched k space)] }
          · refine .inr (.inl ?_)
            simp only [Watches.reconnect, if_true]
            exact hagain
          · cases hlate : s.early n k with
            | true =>
              refine .inr (.inr ?_)
              simp [Watches.reconnect, hlate, howner, hagain]
            | false =>
              -- The loop knows what there was, and the list says nothing new, so nothing has changed.
              refine .inl fun w hkind => ?_
              by_cases hn : w.component = some n
              · rw [hfollows.recent k hlate w hkind hn]
                exact hloop.known_iff hagain hkind hn
              · exact iff_of_false (fun hw => hn (hfollows.own w hw)) fun hw => hn (mem_belonging.1 hw).2.2
        · refine .inr (.inl ?_)
          simp only [Watches.reconnect, if_neg hk]
          exact howner
      · refine .inr (.inr ?_)
        simp only [Watches.reconnect, hlost, Bool.true_or]

/-- A workload changes that no watch sees. -/
theorem change_unseen (h : s.Sound owner space first) (hlistable : store.failing = []) (hlabelled : store.Labelled owner)
    (hdiffer : s.world.workloads.DifferAt w store) (hw : w.component = owner w.kind w.key)
    (hunseen : ¬ (w.namespace = space ∧ w.component.isSome = true)) :
    Watches.Sound owner space first { s with world := { s.world with workloads := store } } := by
  refine ⟨h.free, h.working, hlistable, hlabelled, h.stays, fun k => (h.loops k).congr fun v => ?_,
    fun n htold hname => ?_⟩
  · rw [mem_watched, mem_watched]
    exact hdiffer.mem_iff (P := fun kind place component => kind = k ∧ place = space ∧ component.isSome = true)
      h.labelled hlabelled hw (fun hP => hunseen hP.2) v
  · obtain ⟨seen, hfollows⟩ := h.follows n htold hname
    refine ⟨seen, hfollows.health, hfollows.own, hfollows.recent, fun k => (hfollows.current k).imp_left ?_⟩
    intro hsame v hk
    rw [hsame v hk, mem_belonging, mem_belonging]
    refine (hdiffer.mem_iff (P := fun _ place component => place = space ∧ component = some n) h.labelled hlabelled
      hw (fun hP => hunseen ⟨hP.1, ?_⟩) v).symm
    rw [hP.2]
    rfl

/-- A workload changes, and its watch is told. -/
theorem change_seen (h : s.Sound owner space first) (hlistable : store.failing = []) (hlabelled : store.Labelled owner)
    (hdiffer : s.world.workloads.DifferAt w store) (hw : w.InScope ⟨w.kind, space, owner w.kind⟩)
    (hr : r.objects = [w])
    (hshows : ∀ t : Tracker,
      t.Shows (s.world.workloads.watched w.kind space) → (t.after r).Shows (store.watched w.kind space))
    (hnews : ∀ n (t : Tracker), w.component = some n → t.InScope ⟨w.kind, space, owner w.kind⟩ →
      t.Shows (s.world.workloads.watched w.kind space) →
      n ∈ t.owners r ∨ ∀ v, v ∈ store.items ↔ v ∈ s.world.workloads.items) :
    Watches.Sound owner space first
      { s with
        world := { s.world with workloads := store }
        loop := fun k => if k = w.kind then { s.loop k with due := (s.loop k).due ++ [r] } else s.loop k } := by
  have hsound := Cluster.Report.sound_of_objects hw hr
  refine ⟨h.free, h.working, hlistable, hlabelled, h.stays, fun k => ?_, fun n htold hname => ?_⟩
  · by_cases hk : k = w.kind
    · subst hk
      simp only [if_true]
      exact (h.loops _).report hsound hshows
    · simp only [if_neg hk]
      refine (h.loops k).congr fun v => ?_
      rw [mem_watched, mem_watched]
      exact hdiffer.mem_iff (P := fun kind place component => kind = k ∧ place = space ∧ component.isSome = true)
        h.labelled hlabelled hw.owner (fun hP => hk hP.1.symm) v
  · obtain ⟨seen, hfollows⟩ := h.follows n htold hname
    refine ⟨seen, hfollows.health, hfollows.own, fun k hlate v hv hn => ?_, fun k => ?_⟩
    · rw [hfollows.recent k hlate v hv hn]
      dsimp only
      split <;> rfl
    · have hmore : n ∈ (s.loop k).owners →
          n ∈ Follower.owners (if k = w.kind then { s.loop k with due := (s.loop k).due ++ [r] } else s.loop k) := by
        intro howner
        split
        · exact Tracker.mem_ownersAll_concat.2 (.inl howner)
        · exact howner
      rcases hfollows.current k with hsame | howner | hlost
      · by_cases hconcerned : k = w.kind ∧ w.component = some n
        · obtain ⟨rfl, hn⟩ := hconcerned
          have hloop := h.loops w.kind
          rcases hnews n _ hn (hloop.known.afterAll hloop.due) hloop.shows with howner | hitems
          · refine .inr (.inl ?_)
            simp only [if_true]
            exact Tracker.mem_ownersAll_concat.2 (.inr howner)
          · refine .inl fun v hv => ?_
            rw [hsame v hv, mem_belonging, mem_belonging, hitems]
        · refine .inl fun v hv => ?_
          rw [hsame v hv]
          have hmem := hdiffer.mem_iff (P := fun kind place component =>
            kind = k ∧ place = space ∧ component = some n) h.labelled hlabelled hw.owner
            (fun hP => hconcerned ⟨hP.1.symm, hP.2.2⟩) v
          rw [mem_belonging, mem_belonging]
          simpa only [hv, true_and] using hmem.symm
      · exact .inr (.inl (hmore howner))
      · exact .inr (.inr hlost)

/-- A workload is stored. -/
theorem put (h : s.Sound owner space first) (hw : w.component = owner w.kind w.key) :
    (Watches.report space { s with world := { s.world with workloads := s.world.workloads.put w } } w
      (.applied w)).Sound owner space first := by
  have hdiffer : s.world.workloads.DifferAt w (s.world.workloads.put w) := by
    intro v hv
    rw [mem_put, and_iff_left hv]
    exact or_iff_right fun heq => hv ⟨congrArg Workload.kind heq, congrArg Workload.key heq⟩
  have hlabelled := h.labelled.put hw
  unfold Watches.report
  split
  · next hseen =>
    have hscope : w.InScope ⟨w.kind, space, owner w.kind⟩ := ⟨rfl, hseen.1, hw, hseen.2⟩
    refine h.change_seen h.listable hlabelled hdiffer hscope rfl (fun t ht => t.shows_applied ht fun v => ?_)
      fun n t hn ht hshows => ?_
    · rw [mem_watched, mem_watched, mem_put]
      constructor
      · rintro ⟨rfl | ⟨hv, hnot⟩, hkind, hrest⟩
        · exact .inl rfl
        · exact .inr ⟨⟨hv, hkind, hrest⟩, fun hkey => hnot ⟨hkind, hkey⟩⟩
      · rintro (rfl | ⟨⟨hv, hrest⟩, hkey⟩)
        · exact ⟨.inl rfl, rfl, hseen⟩
        · exact ⟨.inr ⟨hv, fun hat => hkey hat.2⟩, hrest⟩
    · have hsound := Cluster.Report.sound_of_objects (r := .applied w) hscope rfl
      refine (Tracker.known_or_mem_owners ht hsound (List.mem_singleton_self w) hn).symm.imp_right fun hknown v => ?_
      -- The workload is stored as it was.
      have hstored := (mem_watched.1 ((hshows w).1 hknown)).1
      rw [mem_put]
      constructor
      · rintro (rfl | hv)
        · exact hstored
        · exact hv.1
      · intro hv
        by_cases hat : v.kind = w.kind ∧ v.key = w.key
        · exact .inl (h.labelled.distinct v hv w hstored hat.1 hat.2)
        · exact .inr ⟨hv, hat⟩
  · next hunseen => exact h.change_unseen h.listable hlabelled hdiffer hw hunseen

/-- A workload is removed. -/
theorem remove {place name : String} (h : s.Sound owner space first)
    (hfound : s.world.workloads.items.find? (WorkloadStore.isAt kind place name) = some w) :
    (Watches.report space
      { s with world := { s.world with workloads := s.world.workloads.erase kind place name } } w
      (.deleted w)).Sound owner space first := by
  obtain ⟨rfl, hkey⟩ := isAt_iff.1 (List.find?_some hfound)
  have hstored : w ∈ s.world.workloads.items := List.mem_of_find?_eq_some hfound
  have hdiffer : s.world.workloads.DifferAt w (s.world.workloads.erase w.kind place name) := by
    intro v hv
    rw [hkey] at hv
    rw [mem_erase, and_iff_left hv]
  have hlabelled := h.labelled.erase w.kind place name
  unfold Watches.report
  split
  · next hseen =>
    refine h.change_seen h.listable hlabelled hdiffer ⟨rfl, hseen.1, h.labelled.owned w hstored, hseen.2⟩ rfl
      (fun t ht => t.shows_deleted ht fun v => ?_) fun n t hn _ _ => .inl (t.mem_owners_deleted hn)
    rw [mem_watched, mem_watched, mem_erase, hkey]
    constructor
    · rintro ⟨⟨hv, hnot⟩, hkind, hrest⟩
      exact ⟨⟨hv, hkind, hrest⟩, fun hkey => hnot ⟨hkind, hkey⟩⟩
    · rintro ⟨⟨hv, hrest⟩, hkey⟩
      exact ⟨⟨hv, fun hat => hkey hat.2⟩, hrest⟩
  · next hunseen =>
    exact h.change_unseen h.listable hlabelled hdiffer (h.labelled.owned w hstored) hunseen

/-- Every step keeps the watches in step. -/
theorem step (h : s.Sound owner space first) (step : Step) : (s.step owner space step).Sound owner space first := by
  cases step with
  | put kind place name replicas => exact h.put rfl
  | remove kind place name =>
    simp only [Watches.step]
    cases hfound : s.world.workloads.items.find? (WorkloadStore.isAt kind place name) with
    | none => exact h
    | some w => exact h.remove hfound
  | reconnect kind => exact h.reconnect kind
  | take kind => exact h.take kind
  | wait d =>
    refine ⟨h.free, h.working, h.listable, h.labelled, h.stays, h.loops, fun n htold hname => ?_⟩
    obtain ⟨seen, hfollows⟩ := h.follows n htold hname
    exact ⟨seen, hfollows.health, hfollows.own, hfollows.recent, hfollows.current⟩

end Watches.Sound

theorem Watches.sound_run {start : World} (hfree : start.FaultFree) (hworking : start.components.Working)
    (hlistable : start.workloads.failing = []) (hlabelled : start.workloads.Labelled owner) (steps : List Step) :
    (Watches.run owner space start steps).Sound owner space start.components := by
  have hsteps : ∀ s : Watches, s.Sound owner space start.components →
      (steps.foldl (Watches.step owner space) s).Sound owner space start.components := by
    induction steps with
    | nil => exact fun s h => h
    | cons step steps ih => exact fun s h => ih _ (h.step step)
  refine hsteps _ ⟨hfree, hworking, hlistable, hlabelled, .refl _, fun kind => ?_, fun n hn => ?_⟩
  · refine ⟨fun w hw => ?_, fun r hr => List.mem_singleton.1 hr ▸ hlabelled.sound_restarted, ?_, fun w hw => ?_⟩
    · cases hw
    · exact Tracker.empty.shows_restarted hlabelled.sound_restarted.distinct
    · cases hw
  · cases hn

/-- When every loop has taken all that it was told, the health of a component is the verdict on its present
workloads, if a loop was ever told of one of them, and unless a change of them was overlooked. -/
theorem health_in_step {start : World} {steps : List Watches.Step} {r : Watches} (hname : ',' ∉ n.toList)
    (hfree : start.FaultFree) (hworking : start.components.Working) (hlistable : start.workloads.failing = [])
    (hlabelled : start.workloads.Labelled owner) (hrun : Watches.run owner space start steps = r)
    (hdone : ∀ kind, (r.loop kind).due = []) (htold : n ∈ r.told) (hnone : ∀ kind, r.overlooked n kind = false) :
    (∀ x, start.components.find? n = some x → settled x ≠ none → ∃ y, r.world.components.find? n = some y) ∧
      ∀ x, r.world.components.find? n = some x →
        x.health = Workload.verdict (r.world.workloads.belonging n space) := by
  have hsound : r.Sound owner space start.components :=
    hrun ▸ Watches.sound_run hfree hworking hlistable hlabelled steps
  refine ⟨fun x hx hstays => ?_, fun x hx => ?_⟩
  · obtain ⟨y, hy, -⟩ := hsound.stays n x hx hstays
    exact ⟨y, hy⟩
  · obtain ⟨seen, hfollows⟩ := hsound.follows n htold hname
    rw [hfollows.health x hx]
    refine Workload.verdict_congr fun w => ?_
    rcases hfollows.current w.kind with hsame | howner | hlost
    · exact hsame w rfl
    · rw [Follower.owners, hdone] at howner
      cases howner
    · rw [hnone] at hlost
      cases hlost

/-- A workload fails when its watch has taken the first list, and the watch takes the report of that. -/
theorem health_in_step_failed :
    let owner : WorkloadKind → WorkloadKey → Option String := fun _ _ => some "dogu-op"
    let start := { sampleWorld (sampleComponent "0.1.0" .installed []) [] with
      workloads := { items := [sampleWorkload .deployment "web" true] } }
    let steps : List Watches.Step :=
      [.take .deployment, .put .deployment "ecosystem" "web" ⟨1, 1, 1, 0⟩, .take .deployment, .take .statefulSet,
        .take .daemonSet]
    ∃ r x, Watches.run owner "ecosystem" start steps = r ∧ r.world.components.find? "dogu-op" = some x ∧
      x.health = .unavailable := by
  intro owner start steps
  have hfree : start.FaultFree := fun _ _ h => by cases h
  have hlabelled : start.workloads.Labelled owner := by
    refine ⟨fun w hw => ?_, fun v hv w hw _ _ => ?_⟩
    · rw [List.mem_singleton.1 hw]
      rfl
    · rw [List.mem_singleton.1 hv, List.mem_singleton.1 hw]
  have hfound : start.components.find? "dogu-op" = some (sampleComponent "0.1.0" .installed []) :=
    find?_sampleWorld (sampleComponent "0.1.0" .installed []) []
  obtain ⟨r, hrun⟩ : ∃ r, Watches.run owner "ecosystem" start steps = r := ⟨_, rfl⟩
  have hdone : (WorkloadKind.all.all fun kind => (r.loop kind).due.isEmpty) = true := hrun ▸ by decide +kernel
  have htold : "dogu-op" ∈ r.told := hrun ▸ by decide +kernel
  have hnone : (WorkloadKind.all.all fun kind => r.overlooked "dogu-op" kind == false) = true :=
    hrun ▸ by decide +kernel
  have hverdict : Workload.verdict (r.world.workloads.belonging "dogu-op" "ecosystem") = .unavailable :=
    hrun ▸ by decide +kernel
  obtain ⟨hstays, hhealth⟩ := health_in_step (by decide) hfree ⟨rfl, rfl⟩ rfl hlabelled hrun
    (fun kind => List.isEmpty_iff.1 (List.all_eq_true.1 hdone kind kind.mem_all)) htold
    fun kind => eq_of_beq (List.all_eq_true.1 hnone kind kind.mem_all)
  obtain ⟨x, hx⟩ := hstays _ hfound (ComponentStore.settled_ne_none rfl)
  exact ⟨r, x, hrun, hx, (hhealth x hx).trans hverdict⟩

/-- A workload fails. Before its watch takes the report of that, another watch has the health computed. Then the
workload recovers, and its watch is connected anew: the list shows the workload as the watch knew it. So the
component stays unavailable, although its workloads are available and every report was taken. -/
theorem overlooked_recovery :
    let owner : WorkloadKind → WorkloadKey → Option String := fun _ _ => some "dogu-op"
    let start := { sampleWorld (sampleComponent "0.1.0" .installed []) [] with
      workloads := { items := [sampleWorkload .deployment "web" true] } }
    let steps : List Watches.Step :=
      [.take .deployment, .take .statefulSet, .take .daemonSet, .put .deployment "ecosystem" "web" ⟨1, 1, 1, 0⟩,
        .put .statefulSet "ecosystem" "db" ⟨1, 1, 1, 1⟩, .take .statefulSet,
        .put .deployment "ecosystem" "web" ⟨1, 1, 1, 1⟩, .reconnect .deployment, .take .deployment]
    ∃ r x, Watches.run owner "ecosystem" start steps = r ∧ (∀ kind, (r.loop kind).due = []) ∧
      "dogu-op" ∈ r.told ∧ r.world.components.find? "dogu-op" = some x ∧ x.health = .unavailable ∧
      Workload.verdict (r.world.workloads.belonging "dogu-op" "ecosystem") = .available := by
  intro owner start steps
  obtain ⟨r, hrun⟩ : ∃ r, Watches.run owner "ecosystem" start steps = r := ⟨_, rfl⟩
  have hdone : (WorkloadKind.all.all fun kind => (r.loop kind).due.isEmpty) = true := hrun ▸ by decide +kernel
  have htold : "dogu-op" ∈ r.told := hrun ▸ by decide +kernel
  have hhealth : (r.world.components.find? "dogu-op").map Component.health = some .unavailable :=
    hrun ▸ by decide +kernel
  have hverdict : Workload.verdict (r.world.workloads.belonging "dogu-op" "ecosystem") = .available :=
    hrun ▸ by decide +kernel
  obtain ⟨x, hx, hunavailable⟩ := Option.map_eq_some_iff.1 hhealth
  exact ⟨r, x, hrun, fun kind => List.isEmpty_iff.1 (List.all_eq_true.1 hdone kind kind.mem_all), htold, hx,
    hunavailable, hverdict⟩

end Watching

end ChartOperator
