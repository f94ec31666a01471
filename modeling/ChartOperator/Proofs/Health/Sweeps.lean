import ChartOperator.Proofs.Health.Listings
import ChartOperator.Proofs.World.Plain
import Mathlib.Data.List.Basic

set_option autoImplicit false

/-!
# Sweeps over all components

A sweep takes the components one after the other. What it does for one of them (`World.Visits`) is told by the calls for
that component alone: either none of them failed and the verdict is stored, or the component is as before and what
failed is reported. Calls for one component are not reported for another, so that of all the calls of a sweep each
component has its own (`run_failuresOf`).

This holds of the rounds of updates and of the last sweep alike (`sweeps_of_plain`). Other writers are left out: where
there are some, races may be lost, and calls that failed are made again.
-/

namespace ChartOperator

open ComponentStore (settled bump setItem)
open Errand

section Changing

variable {w w' : World} {n : String} {x : Component} {v : Health}

/-! ## Changes of health -/

/-- What a change of health comes to that is made once: it fails and reports that, or the verdict is stored. -/
inductive JudgesOnce (n : String) (x : Component) (v : Health) (s : ComponentStore) :
    Except Failure (Option Component) × World → (reports : List Failure) → Prop
  | failed {e : Failure} {w : World} {reports : List Failure} (hdecided : e.isConflict = false)
    (hreports : reports = [.context ("failed to update health of component " ++ n) e])
    (hitems : w.components.items = s.items) : JudgesOnce n x v s (.error e, w) reports
  | stored {o : Option Component} {w : World} {reports : List Failure} (hreports : reports = [])
    (hitems : w.components.items = setItem (bump (x.judged v)) s.items) : JudgesOnce n x v s (.ok o, w) reports

theorem World.Plain.judgesOnce_attempt (h : w.Plain) (hx : w.components.find? n = some x) (hstays : settled x ≠ none) :
    JudgesOnce n x v w.components (World.attempt (.setHealth n v none) w)
      (reportsOf n (World.attemptMoments (.setHealth n v none) w)) := by
  obtain ⟨hsame, hdecided⟩ := h.read n
  have hread : ∀ ms, reportsOf n (⟨w, .getComponent n⟩ :: ms) = _ := reportsOf_cons (if_pos rfl)
  refine World.attempt_cases (P := fun out ms => JudgesOnce n x v w.components out (reportsOf n ms)) _ w ?_ ?_ ?_
  · intro e w' hasked
    have hask : w.ask (.getComponent n) = (.error e, w') := hasked
    rw [hask] at hsame hdecided
    refine .failed (hdecided e rfl) ?_ (congrArg ComponentStore.items hsame)
    show reportsOf n [⟨w, .getComponent n⟩] = _
    rw [hread, Moment.failure?_of_ask w rfl, hask]
    rfl
  · intro fresh w' _ hedit
    cases hedit
  · intro fresh w' wr hasked hedit
    have hask : w.ask (.getComponent n) = (.ok fresh, w') := hasked
    have hplain : w'.Plain := by
      have hafter := h.perform (.getComponent n)
      rwa [← World.ask_snd, hask] at hafter
    rw [hask] at hsame
    have hfresh : w'.components.find? n = some fresh := World.find?_of_ask hask
    obtain rfl : x = fresh := by
      rw [show w'.components = w.components from hsame] at hfresh
      exact Option.some.inj (hx.symm.trans hfresh)
    let write : Write := .status (x.judged v)
    obtain rfl : write = wr := Option.some.inj hedit
    have hname : x.name = n := ComponentStore.name_of_find? hfresh
    have hcalls : reportsOf n [⟨w, .getComponent n⟩, ⟨w', write.call⟩] =
        ((Moment.failure? ⟨w', write.call⟩).map (.context ("failed to update health of component " ++ n))).toList := by
      have hpurpose : write.call.purpose? n = some ("failed to update health of component " ++ n) := if_pos hname
      rw [hread, Moment.failure?_of_ask w rfl, hask, reportsOf_cons (m := ⟨w', write.call⟩) hpurpose]
      exact List.append_nil _
    have hsettled : settled { x with status := (x.judged v).status } = some (bump (x.judged v)) :=
      settled_judged hstays
    rcases hplain.write (c := x.judged v) (hname.symm ▸ hfresh : w'.components.find? x.name = some x) rfl hsettled with
      ⟨e, hres, hdecided, hitems⟩ | ⟨y, hres, hitems⟩
    · rw [hres]
      refine .failed hdecided ?_ (hitems.trans (congrArg ComponentStore.items hsame))
      refine hcalls.trans ?_
      rw [Moment.failure?_of_store, hres]
      rfl
    · rw [hres]
      refine .stored ?_ (hitems.trans (congrArg (fun s : ComponentStore => setItem _ s.items) hsame))
      refine hcalls.trans ?_
      rw [Moment.failure?_of_store, hres]
      rfl

/-- Since no race is lost, the change is made once. -/
theorem World.Plain.judgesOnce_change (h : w.Plain) (hx : w.components.find? n = some x) (hstays : settled x ≠ none) :
    JudgesOnce n x v w.components (w.change (Mutation.setHealth n v none))
      (reportsOf n (w.moments (Errand.change (.setHealth n v none)).run)) := by
  have hattempt := h.judgesOnce_attempt (v := v) hx hstays
  have hdecided : isLostRace (World.attempt (Mutation.setHealth n v none) w).1 = false := by
    generalize World.attempt (Mutation.setHealth n v none) w = out at hattempt
    cases hattempt with
    | failed hdecided => exact hdecided
    | stored => rfl
  have hcalls : w.moments (Errand.change (.setHealth n v none)).run =
      World.attemptMoments (Mutation.setHealth n v none) w := by
    have honce : ∀ room, World.changeMoments (Mutation.setHealth n v none) room w =
        World.attemptMoments (Mutation.setHealth n v none) w := by
      intro room
      cases room with
      | zero => rfl
      | succ room =>
        rw [World.changeMoments, hdecided]
        exact List.append_nil _
    exact (List.append_nil _).trans (honce w.disturbances)
  rw [hcalls, World.change, retryOnConflict_of_decided hdecided]
  exact hattempt

end Changing

/-! ## One component after the other -/

/-- What a sweep leaves of a component: it has the verdict, unless one of its own calls failed. -/
def Component.sweptBy (ms : List Moment) (verdict : String → Health) (c : Component) : Component :=
  if (reportsOf c.name ms).isEmpty then bump (c.judged (verdict c.name)) else c

@[simp] theorem name_sweptBy (ms : List Moment) (verdict : String → Health) (c : Component) :
    (c.sweptBy ms verdict).name = c.name := by
  unfold Component.sweptBy
  split <;> rfl

/-- What failed of a component in a sweep: what its own calls report. -/
def failureOf? (ms : List Moment) (n : String) : Option Failure :=
  match Failure.join (reportsOf n ms) with
  | .ok _ => none
  | .error e => some e

/-- What a sweep does for one component. -/
structure World.Visits (c : Component) (verdict : String → Health) (w : World) (ms : List Moment)
    (r : Except Failure Unit) (w' : World) : Prop where
  result : r = Failure.join (reportsOf c.name ms)
  foreign : ∀ k, k ≠ c.name → reportsOf k ms = []
  items : w'.components.items =
    w.components.items.map fun y => if y.name = c.name then y.sweptBy ms verdict else y

section Visits

variable {w w' w₁ : World} {n k : String} {c : Component} {verdict : String → Health} {ms : List Moment}
  {out : Except Failure (Option Component) × World}

theorem reportsOf_eq_nil (h : ∀ m ∈ ms, m.call.purpose? k = none) : reportsOf k ms = [] := by
  refine List.filterMap_eq_nil_iff.2 fun m hm => ?_
  rw [Moment.report?, h m hm, Option.bind_none]

theorem purpose?_of_change {d : Call} (h : d = .getComponent n ∨ ∃ c, d = .updateStatus c ∧ c.name = n) (hk : k ≠ n) :
    d.purpose? k = none := by
  rcases h with rfl | ⟨c, rfl, rfl⟩
  · exact if_neg hk.symm
  · exact if_neg hk.symm

theorem purpose?_of_list {space : String} {kind : WorkloadKind} (hk : k ≠ n) :
    (listOf n space kind).purpose? k = none := by
  refine if_neg fun hselector => hk ?_
  exact ((String.append_right_inj _).1 hselector).symm

/-- A component of its name in the store is the component. -/
theorem ComponentStore.eq_of_mem {s : ComponentStore} {x y : Component} (hx : x ∈ s.items) (hy : y ∈ s.items)
    (hname : y.name = x.name) : y = x := by
  have hfound := s.find?_of_mem hy
  rw [hname, s.find?_of_mem hx] at hfound
  exact (Option.some.inj hfound).symm

/-- A component that reports a failure is as before. -/
theorem map_sweptBy_of_reports {n : String} (h : reportsOf n ms ≠ []) (items : List Component) :
    (items.map fun y => if y.name = n then y.sweptBy ms verdict else y) = items := by
  refine (List.map_congr_left fun y _ => ?_).trans (List.map_id items)
  split
  · next hname => exact if_neg (by rwa [hname, List.isEmpty_iff])
  · rfl

theorem visits_of_judgesOnce (hc : c ∈ w.components.items)
    (h : JudgesOnce c.name c (verdict c.name) w.components out (reportsOf c.name ms))
    (hcomponents : w'.components = out.2.components) (hforeign : ∀ k, k ≠ c.name → reportsOf k ms = []) :
    w.Visits c verdict ms
      ((out.1.mapError (.context ("failed to update health of component " ++ c.name))).map fun _ => ()) w' := by
  refine ⟨?_, hforeign, ?_⟩
  · cases h with
    | failed _ hreports =>
      rw [hreports]
      rfl
    | stored hreports =>
      rw [hreports]
      rfl
  · rw [hcomponents]
    cases h with
    | failed _ hreports hitems =>
      rw [map_sweptBy_of_reports (hreports ▸ List.cons_ne_nil _ _)]
      exact hitems
    | stored hreports hitems =>
      rw [hitems, ComponentStore.setItem_eq_map (c := bump (c.judged _)) w.components.ascending hc rfl]
      refine List.map_congr_left fun y hy => ?_
      show (if y.name = c.name then _ else y) = _
      split
      · next hname =>
        obtain rfl := ComponentStore.eq_of_mem hc hy hname
        rw [Component.sweptBy, hreports]
        rfl
      · rfl

theorem visits_persistHealth (h : w.Plain) (hc : c ∈ w.components.items) (hstays : settled c ≠ none)
    (verdict : String → Health) :
    ∃ r w', w.run (persistHealth c.name (verdict c.name) none).run = (.finished r, w') ∧
      w.Visits c verdict (w.moments (persistHealth c.name (verdict c.name) none).run) (r.map fun _ => ()) w' := by
  obtain ⟨hrun, hcalls⟩ := w.run_persistHealth c.name (verdict c.name) none
  have hfound := w.components.find?_of_mem hc
  refine ⟨_, _, hrun, ?_⟩
  rw [hcalls]
  refine visits_of_judgesOnce hc (h.judgesOnce_change hfound hstays) rfl fun k hk => ?_
  exact reportsOf_eq_nil fun m hm => purpose?_of_change (calls_change_setHealth w c.name _ m hm) hk

theorem map_unit_map {α β : Type} (r : Except Failure α) (b : β) :
    ((r.map fun _ => b).map fun _ => ()) = r.map fun _ => () := by
  cases r <;> rfl

theorem visits_updateHealth (h : w.Plain) (hc : c ∈ w.components.items) (hname : ',' ∉ c.name.toList)
    (hstays : settled c ≠ none) (space : String) :
    ∃ r w', w.run (updateHealth c.name space none).run = (.finished r, w') ∧
      w.Visits c (fun n => Workload.verdict (w.workloads.belonging n space))
        (w.moments (updateHealth c.name space none).run) (r.map fun _ => ()) w' := by
  obtain ⟨hsame, -⟩ :=
    World.unchanged_run (w := w) (onlyCalls_findWorkloads c.name space) (inquires_findWorkloads c.name space)
  have hplain := h.run (findWorkloads c.name space).run
  rcases w.run_findWorkloads hname space with ⟨hcrash, -⟩ | ⟨r, w₁, asked, hfound, hasked, hlists, hjoin, hverdict⟩
  · exact (h.crashless _ hcrash rfl).elim
  rw [hfound] at hsame hplain
  have hforeign : ∀ k, k ≠ c.name → reportsOf k asked = [] := by
    intro k hk
    refine reportsOf_eq_nil fun m hm => ?_
    have hcall := List.mem_map_of_mem (f := Moment.call) hm
    rw [hlists] at hcall
    obtain ⟨kind, -, hkind⟩ := List.mem_map.1 hcall
    rw [← hkind]
    exact purpose?_of_list hk
  cases r with
  | error e =>
    obtain ⟨hrun, hmoments⟩ := World.run_bind_of_error (f := fun ws => _) hfound
    refine ⟨.error e, w₁, hrun, ?_⟩
    rw [show w.moments (updateHealth c.name space none).run = asked from hmoments.trans hasked]
    refine ⟨hjoin, hforeign, ?_⟩
    have hreports : reportsOf c.name asked ≠ [] := by
      intro hnone
      rw [hnone] at hjoin
      cases hjoin
    rw [map_sweptBy_of_reports hreports]
    exact congrArg ComponentStore.items hsame.components
  | ok ws =>
    have hnone : reportsOf c.name asked = [] := Failure.join_eq_ok.1 hjoin.symm
    let v := Workload.verdict (w.workloads.belonging c.name space)
    obtain ⟨w', hrun, hmoments, hcomponents, -⟩ := run_updateHealth_of_found hfound
    rw [hverdict ws rfl] at hrun hmoments hcomponents
    have hfind : w₁.components.find? c.name = some c := hsame.components ▸ w.components.find?_of_mem hc
    have hjudges := World.Plain.judgesOnce_change (w := w₁) (v := v) hplain hfind hstays
    have hreports : reportsOf c.name (w.moments (updateHealth c.name space none).run) =
        reportsOf c.name (w₁.moments (change (.setHealth c.name v none)).run) := by
      rw [hmoments, hasked, reportsOf_append, hnone, List.nil_append]
    rw [hsame.components, ← hreports] at hjudges
    have hothers : ∀ k, k ≠ c.name → reportsOf k (w.moments (updateHealth c.name space none).run) = [] := by
      intro k hk
      rw [hmoments, hasked, reportsOf_append, hforeign k hk]
      exact reportsOf_eq_nil fun m hm => purpose?_of_change (calls_change_setHealth w₁ c.name _ m hm) hk
    refine ⟨_, w', hrun, ?_⟩
    rw [map_unit_map]
    exact visits_of_judgesOnce hc hjudges hcomponents hothers

end Visits

/-! ## All components -/

section Sweeping

variable {α ι : Type} {w w' w₁ : World} {t : ι → Errand α} {i : ι} {is : List ι} {r : Except Failure α}
  {es : List Failure} {n : String} {ms ns : List Moment} {c : Component} {verdict : String → Health}

/-- Failures with that of an earlier step, if it failed. -/
def withFailure (r : Except Failure α) (es : List Failure) : List Failure :=
  match r with
  | .ok _ => es
  | .error e => e :: es

theorem run_failuresOf_cons (hfirst : w.run (t i).run = (.finished r, w₁))
    (hrest : w₁.run (failuresOf t is) = (.finished es, w')) :
    w.run (failuresOf t (i :: is)) = (.finished (withFailure r es), w') ∧
      w.moments (failuresOf t (i :: is)) = w.moments (t i).run ++ w₁.moments (failuresOf t is) := by
  let others (r : Except Failure α) : Program (List Failure) :=
    (failuresOf t is).andThen fun es => .done (withFailure r es)
  show w.run ((t i).run.andThen others) = _ ∧ w.moments ((t i).run.andThen others) = _
  rw [World.run_andThen, World.moments_andThen, hfirst]
  dsimp only
  rw [World.run_andThen, World.moments_andThen, hrest]
  exact ⟨rfl, congrArg _ (List.append_nil _)⟩

theorem failureOf?_congr (h : reportsOf n ms = reportsOf n ns) : failureOf? ms n = failureOf? ns n := by
  rw [failureOf?, h, failureOf?]

theorem sweptBy_congr (h : reportsOf c.name ms = reportsOf c.name ns) :
    c.sweptBy ms verdict = c.sweptBy ns verdict := by
  rw [Component.sweptBy, h, Component.sweptBy]

/-- An errand for single components that is made for each in turn is made for all: a component that fails does not
keep others from their verdicts. -/
theorem run_failuresOf {t : Component → Errand α} {s : WorkloadStore}
    (hvisit : ∀ (w : World) (c : Component), w.Plain → w.workloads = s → c ∈ w.components.items → ',' ∉ c.name.toList →
      settled c ≠ none → ∃ r w', w.run (t c).run = (.finished r, w') ∧
        w.Visits c verdict (w.moments (t c).run) (r.map fun _ => ()) w')
    {cs : List Component} (hplain : w.Plain) (hworkloads : w.workloads = s)
    (hcs : ∀ c ∈ cs, c ∈ w.components.items ∧ ',' ∉ c.name.toList ∧ settled c ≠ none)
    (hnames : (cs.map Component.name).Nodup) :
    ∃ es w' ms, w.run (failuresOf t cs) = (.finished es, w') ∧ w.moments (failuresOf t cs) = ms ∧
      es = cs.filterMap (fun c => failureOf? ms c.name) ∧ (∀ k, k ∉ cs.map Component.name → reportsOf k ms = []) ∧
      w'.components.items =
        w.components.items.map fun y => if y.name ∈ cs.map Component.name then y.sweptBy ms verdict else y := by
  induction cs generalizing w with
  | nil => exact ⟨[], w, [], rfl, rfl, rfl, fun _ _ => rfl, by simp⟩
  | cons c cs ih =>
    obtain ⟨hnew, hnames'⟩ := List.nodup_cons.1 hnames
    obtain ⟨hc, hname, hstays⟩ := hcs c List.mem_cons_self
    obtain ⟨r, w₁, hfirst, hvisits⟩ := hvisit w c hplain hworkloads hc hname hstays
    have hplain₁ := hplain.run (t c).run
    have hworkloads₁ := (w.workloads_run (t c).run).trans hworkloads
    rw [hfirst] at hplain₁ hworkloads₁
    have hother : ∀ y ∈ cs, y.name ≠ c.name := fun y hy he => hnew (he ▸ List.mem_map_of_mem hy)
    obtain ⟨es, w', ms, hrest, hms, hes, hforeign, hitems⟩ := ih (w := w₁) hplain₁ hworkloads₁ (fun y hy => by
      obtain ⟨hmem, hy'⟩ := hcs y (List.mem_cons_of_mem c hy)
      refine ⟨?_, hy'⟩
      rw [hvisits.items]
      exact List.mem_map.2 ⟨y, hmem, if_neg (hother y hy)⟩) hnames'
    obtain ⟨hrun, hmoments⟩ := run_failuresOf_cons hfirst hrest
    have hown : reportsOf c.name (w.moments (t c).run ++ ms) = reportsOf c.name (w.moments (t c).run) := by
      rw [reportsOf_append, hforeign _ hnew, List.append_nil]
    have hothers : ∀ k, k ≠ c.name → reportsOf k (w.moments (t c).run ++ ms) = reportsOf k ms := by
      intro k hk
      rw [reportsOf_append, hvisits.foreign k hk, List.nil_append]
    refine ⟨_, w', w.moments (t c).run ++ ms, hrun, hms ▸ hmoments, ?_, ?_, ?_⟩
    · have hown' : failureOf? (w.moments (t c).run ++ ms) c.name = failureOf? (w.moments (t c).run) c.name :=
        failureOf?_congr hown
      have hothers' : cs.filterMap (fun y => failureOf? (w.moments (t c).run ++ ms) y.name) = es :=
        (List.filterMap_congr fun y hy => failureOf?_congr (hothers _ (hother y hy))).trans hes.symm
      rw [List.filterMap_cons, hown', hothers', failureOf?, ← hvisits.result]
      cases r <;> rfl
    · intro k hk
      obtain ⟨hfirst', hrest'⟩ := not_or.1 (mt List.mem_cons.2 hk)
      rw [hothers k hfirst', hforeign k hrest']
    · rw [hitems, hvisits.items, List.map_map]
      refine List.map_congr_left fun y _ => ?_
      rw [Function.comp_apply]
      by_cases hy : y.name = c.name
      · have hmine : reportsOf y.name (w.moments (t c).run ++ ms) = reportsOf y.name (w.moments (t c).run) := hy ▸ hown
        simp only [name_sweptBy, hy, hnew, List.map_cons, List.mem_cons, true_or, if_true, if_false]
        exact (sweptBy_congr hmine).symm
      · simp only [hy, List.map_cons, List.mem_cons, false_or, if_false, sweptBy_congr (hothers _ hy)]

/-- How a sweep ends over the components that are stored. -/
structure World.Sweeps (context : String) (verdict : String → Health) (w : World) (ms : List Moment)
    (r : Except Failure Unit) (w' : World) : Prop where
  /-- Without a list of the components nothing else is done. -/
  unlisted : ∀ e, Moment.failure? ⟨w, .listComponents⟩ = some e →
    r = .error (.context context e) ∧ ms = [⟨w, .listComponents⟩] ∧ w'.components = w.components
  /-- Each component has its verdict, unless its own calls failed. -/
  stored : Moment.failure? ⟨w, .listComponents⟩ = none →
    w'.components.items = w.components.items.map (Component.sweptBy ms verdict)
  succeeds : Moment.failure? ⟨w, .listComponents⟩ = none →
    (r = .ok () ↔ ∀ c ∈ w.components.items, reportsOf c.name ms = [])
  /-- The failures of the components are joined in the order of the list. -/
  fails : Moment.failure? ⟨w, .listComponents⟩ = none →
    (∀ e, (w.components.items.filterMap fun c => failureOf? ms c.name) = [e] → r = .error e) ∧
    (2 ≤ (w.components.items.filterMap fun c => failureOf? ms c.name).length →
      r = .error (.joined (w.components.items.filterMap fun c => failureOf? ms c.name)))

theorem failureOf?_eq_none : failureOf? ms n = none ↔ reportsOf n ms = [] := by
  unfold failureOf?
  rw [← Failure.join_eq_ok (u := ())]
  cases Failure.join (reportsOf n ms) <;> simp

/-- The components are listed, or the list fails. -/
theorem World.Plain.perform_listComponents (h : w.Plain) :
    ∃ r : Except Failure (List Component), (w.perform .listComponents).1 = .answered r ∧
      (w.perform .listComponents).2.components = w.components ∧ ∀ cs, r = .ok cs → cs = w.components.items := by
  rcases h.fails_or_served (c := .listComponents) rfl with ⟨e, -, hans, hsame⟩ | ⟨hans, hsame⟩
  · exact ⟨.error e, hans, hsame, nofun⟩
  · refine ⟨w.components.list, hans, hsame, fun cs hcs => ?_⟩
    unfold ComponentStore.list at hcs
    split at hcs
    · cases hcs
    · cases hcs
      rfl

theorem sweeps_of_visits {t : Component → Errand α}
    (hvisit : ∀ (v : World) (c : Component), v.Plain → v.workloads = w.workloads → c ∈ v.components.items →
      ',' ∉ c.name.toList → settled c ≠ none → ∃ r w', v.run (t c).run = (.finished r, w') ∧
        v.Visits c verdict (v.moments (t c).run) (r.map fun _ => ()) w')
    (hplain : w.Plain) (hitems : ∀ c ∈ w.components.items, ',' ∉ c.name.toList ∧ settled c ≠ none) (context : String) :
    ∃ r w' ms, w.run ((ask .listComponents).inContext context >>= fun cs => forAll cs t).run = (.finished r, w') ∧
      w.moments ((ask .listComponents).inContext context >>= fun cs => forAll cs t).run = ms ∧
      w.Sweeps context verdict ms r w' := by
  obtain ⟨answer, hans, hsame, hlisted⟩ := hplain.perform_listComponents
  let asked : Moment := ⟨w, .listComponents⟩
  have hperf : w.perform .listComponents = (.answered answer, asked.after) := Prod.ext hans rfl
  obtain ⟨hask, hcall⟩ := World.run_ask hperf
  have hlist : w.run ((ask .listComponents).inContext context).run = _ := World.run_mapFailure hask
  have hcalls : w.moments ((ask .listComponents).inContext context).run = [asked] :=
    (w.moments_mapFailure _ _).trans hcall
  cases answer with
  | error e =>
    obtain ⟨hrun, hmoments⟩ := World.run_bind_of_error (f := fun cs => forAll cs t) hlist
    have hfailure : asked.failure? = some e := Moment.failure?_of_error hans
    refine ⟨_, _, [asked], hrun, hmoments.trans hcalls, fun e' he' => ?_, fun hnone => ?_, fun hnone => ?_,
      fun hnone => ?_⟩
    · obtain rfl : e = e' := Option.some.inj (hfailure.symm.trans he')
      exact ⟨rfl, rfl, hsame⟩
    all_goals cases hfailure.symm.trans hnone
  | ok cs =>
    obtain rfl := hlisted cs rfl
    have hfailure : asked.failure? = none := Moment.failure?_of_ok (a := w.components.items) hans
    have hnames : (w.components.items.map Component.name).Nodup := w.components.nodup_names
    obtain ⟨es, w', ms, hfailures, hms, hes, -, hswept⟩ := run_failuresOf hvisit (hplain.perform .listComponents)
      (w.workloads_perform .listComponents) (fun c hc => ⟨hsame.symm ▸ hc, hitems c hc⟩) hnames
    have hall : asked.after.run (forAll w.components.items t).run = (.finished (Failure.join es), w') := by
      have hjoined := asked.after.run_andThen (failuresOf t w.components.items) fun es => .done (Failure.join es)
      rw [show asked.after.run (failuresOf t w.components.items) = _ from hfailures] at hjoined
      exact hjoined
    have hcalls' : asked.after.moments (forAll w.components.items t).run = ms :=
      (asked.after.moments_andThen_of_silent fun _ _ => rfl).trans hms
    obtain ⟨hrun, hmoments⟩ := World.run_bind_of_ok (f := fun cs => forAll cs t) hlist
    have hcalled : w.moments ((ask .listComponents).inContext context >>= fun cs => forAll cs t).run = asked :: ms :=
      hmoments.trans (congrArg₂ (· ++ ·) hcalls hcalls')
    have hreports : ∀ k, reportsOf k (asked :: ms) = reportsOf k ms := fun _ => List.filterMap_cons_none rfl
    have hfailed : (w.components.items.filterMap fun c => failureOf? (asked :: ms) c.name) = es := by
      rw [hes]
      exact List.filterMap_congr fun c _ => failureOf?_congr (hreports c.name)
    refine ⟨_, w', asked :: ms, hrun.trans hall, hcalled, fun e he => ?_, fun _ => ?_, fun _ => ?_, fun _ => ?_⟩
    · cases hfailure.symm.trans he
    · rw [hswept, hsame]
      refine List.map_congr_left fun c hc => ?_
      rw [if_pos (List.mem_map_of_mem hc), sweptBy_congr (hreports c.name)]
    · rw [Failure.join_eq_ok, hes, List.filterMap_eq_nil_iff]
      refine forall₂_congr fun c _ => ?_
      rw [failureOf?_eq_none, hreports]
    · rw [hfailed]
      refine ⟨fun e hone => ?_, Failure.join_of_several⟩
      rw [hone]
      rfl

/-- A round of updates and the last sweep take the components one by one: each gets its verdict unless its own calls
fail, and then it is as before and its failure is reported. -/
theorem sweeps_of_plain (config : Config) (hplain : w.Plain)
    (hitems : ∀ c ∈ w.components.items, ',' ∉ c.name.toList ∧ settled c ≠ none) :
    (∃ r w' ms, w.run (updateAllHealth config).run = (.finished r, w') ∧ w.moments (updateAllHealth config).run = ms ∧
      w.Sweeps "failed to list components for health sync"
        (fun n => Workload.verdict (w.workloads.belonging n config.namespace)) ms r w') ∧
    ∃ r w' ms, w.run (stopHealth config).run = (.finished r, w') ∧ w.moments (stopHealth config).run = ms ∧
      w.Sweeps "failed to list components on shutdown"
        (fun n => if n = config.operatorComponent then .unavailable else .unknown) ms r w' := by
  constructor
  · refine sweeps_of_visits (t := fun c => updateHealth c.name config.namespace none) ?_ hplain hitems _
    intro v c hv hworkloads hc hname hstays
    rw [← hworkloads]
    exact visits_updateHealth hv hc hname hstays config.namespace
  · refine sweeps_of_visits (t := fun c => persistHealth c.name (lastVerdict config c.name) none) ?_ hplain hitems _
    intro v c hv _ hc _ hstays
    exact visits_persistHealth hv hc hstays (lastVerdict config)

/-- The component with another name. -/
def Component.renamed (c : Component) (name : String) : Component :=
  { c with metadata := { c.metadata with name := some name } }

/-- Two components, of which the first cannot be updated. -/
theorem sweeps_of_plain_failing :
    let c := sampleComponent "0.1.0" .installed []
    let w : World := {
      components := { «namespace» := "ecosystem", items := [c, c.renamed "lop"], ascending := by decide },
      faults := [(.workloadList, [some (.error (.internal "unavailable"))])] }
    ∃ w', w.run (updateAllHealth {}).run =
        (.finished (.error (.context "failed to list Deployments of component dogu-op" (.internal "unavailable"))),
          w') ∧
      w'.components.items.map Component.health = [.pending, .available] := by
  intro c w
  have hplain : w.Plain := by
    refine ⟨fun p f hf hp => ?_, fun f hf => ?_, rfl⟩
    · cases p <;> cases hp <;> cases hf
    · have hfault : f ∈ [some (.error (.internal "unavailable"))] := hf
      rw [List.mem_singleton.1 hfault]
      nofun
  have hitems : ∀ x ∈ w.components.items, ',' ∉ x.name.toList ∧ settled x ≠ none := by
    intro x hx
    have hcases : x ∈ [c, c.renamed "lop"] := hx
    rcases List.mem_cons.1 hcases with rfl | hlast
    · exact ⟨by decide, ComponentStore.settled_ne_none rfl⟩
    · obtain rfl := List.mem_singleton.1 hlast
      exact ⟨by decide, ComponentStore.settled_ne_none rfl⟩
  obtain ⟨⟨r, w', ms, hrun, hms, hsweeps⟩, -⟩ := sweeps_of_plain {} hplain hitems
  have hlisted : Moment.failure? ⟨w, .listComponents⟩ = none :=
    Moment.failure?_of_ok (a := w.components.items) rfl
  have hfailed : (w.components.items.filterMap fun c => failureOf? ms c.name).map (fun e => match e with
        | .context purpose (.internal text) => some (purpose, text)
        | _ => none) = [some ("failed to list Deployments of component dogu-op", "unavailable")] :=
    hms ▸ by decide +kernel
  obtain ⟨e, hone, he⟩ := List.map_eq_singleton_iff.1 hfailed
  split at he <;> cases he
  obtain rfl := (hsweeps.fails hlisted).1 _ hone
  refine ⟨w', hrun, ?_⟩
  rw [hsweeps.stored hlisted, ← hms]
  decide +kernel

end Sweeping

end ChartOperator
