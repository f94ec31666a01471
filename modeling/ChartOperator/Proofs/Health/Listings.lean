import ChartOperator.Proofs.Health.Refreshes
import ChartOperator.Proofs.World.Failures

set_option autoImplicit false

/-!
# What an update of health comes to

An update lists the workloads of each kind. If some could not be listed it reports which (`reportsOf`), and writes
nothing. Else it stores the verdict on what the store of workloads holds for the component, and other than its health
nothing of the component changes (`updatesHealth_of_run`). Other components stay as they were, whatever happens.

How the writes of the verdict end is told by the calls of the run. So nothing is assumed of the faults that they meet:
a change that fails has failed with its last call, and that was no lost race (`change_ok_of_lost`).
-/

namespace ChartOperator

open ComponentStore (settled bump withVersion)
open Errand

/-! ## Reports -/

/-- What a call for the health of a component tries to do. -/
def Call.purpose? (n : String) : Call → Option String
  | listWorkloads kind _ selector =>
    if selector = Workload.selectorOf n then some ("failed to list " ++ kind.text ++ "s of component " ++ n) else none
  | getComponent m => if m = n then some ("failed to update health of component " ++ n) else none
  | updateStatus c => if c.name = n then some ("failed to update health of component " ++ n) else none
  | _ => none

/-- The failure of a call for the health of a component, with what it tried to do. -/
def Moment.report? (n : String) (m : Moment) : Option Failure :=
  (m.call.purpose? n).bind fun purpose => m.failure?.map (.context purpose)

/-- What failed of the calls for the health of a component, in their order. -/
def reportsOf (n : String) (ms : List Moment) : List Failure := ms.filterMap (Moment.report? n)

/-- The call that lists the workloads of a component of a kind. -/
def listOf (n space : String) (kind : WorkloadKind) : Call := .listWorkloads kind space (Workload.selectorOf n)

/-- The component with this health. -/
def Component.judged (c : Component) (v : Health) : Component := c.mapStatus fun s => { s with health := v }

section Listing

variable {n space : String} {w w' : World} {ms : List Moment} {kind : WorkloadKind} {kinds : List WorkloadKind}

theorem Failure.join_eq_ok {es : List Failure} {u : Unit} : Failure.join es = .ok u ↔ es = [] := by
  rcases es with _ | ⟨e, _ | ⟨e', es⟩⟩ <;> simp [Failure.join]

theorem Failure.join_of_several {es : List Failure} (h : 2 ≤ es.length) : Failure.join es = .error (.joined es) := by
  match es with
  | [] | [e] => simp at h
  | e :: e' :: es => rfl

theorem reportsOf_append (ms ns : List Moment) : reportsOf n (ms ++ ns) = reportsOf n ms ++ reportsOf n ns :=
  List.filterMap_append

/-- A call for the health of a component reports its failure, if it failed. -/
theorem reportsOf_cons {m : Moment} {purpose : String} (h : m.call.purpose? n = some purpose) (ms : List Moment) :
    reportsOf n (m :: ms) = (m.failure?.map (.context purpose)).toList ++ reportsOf n ms := by
  rw [reportsOf, List.filterMap_cons, Moment.report?, h, Option.bind_some]
  cases m.failure? <;> rfl

theorem purpose?_listOf :
    (listOf n space kind).purpose? n = some ("failed to list " ++ kind.text ++ "s of component " ++ n) := by
  rw [listOf, Call.purpose?, if_pos rfl]

/-- What one list gave, before what the lists of other kinds gave. -/
def gathered (n : String) (kind : WorkloadKind) (found : Except Failure (List Workload))
    (others : List Workload × List Failure) : List Workload × List Failure :=
  match found with
  | .ok ws => (ws ++ others.1, others.2)
  | .error e => (others.1, .context ("failed to list " ++ kind.text ++ "s of component " ++ n) e :: others.2)

theorem run_listKinds_cons :
    (listKinds n space (kind :: kinds)).run = .call (listOf n space kind) fun found =>
      (listKinds n space kinds >>= fun others => pure (gathered n kind found others)).run := by
  refine congrArg (Program.call (listOf n space kind)) (funext fun found => ?_)
  cases found <;> rfl

/-- The call of a list reports what the list adds to the failures. -/
theorem reportsOf_list {found : Except Failure (List Workload)}
    (h : (w.perform (listOf n space kind)).1 = .answered found) (ws : List Workload) (ms : List Moment) :
    reportsOf n (⟨w, listOf n space kind⟩ :: ms) = (gathered n kind found (ws, reportsOf n ms)).2 := by
  let m : Moment := ⟨w, listOf n space kind⟩
  have hreports : reportsOf n (m :: ms) = _ := reportsOf_cons purpose?_listOf ms
  cases found with
  | error e =>
    have hfailure : m.failure? = some e := Moment.failure?_of_error h
    rw [hreports, hfailure]
    rfl
  | ok more =>
    have hfailure : m.failure? = none := Moment.failure?_of_ok (a := more) h
    rw [hreports, hfailure]
    rfl

/-- All kinds are listed in their order, whatever fails, and what fails is reported. Without a failure all workloads
of the component are found. -/
theorem World.run_listKinds (w : World) (hname : ',' ∉ n.toList) (space : String) (kinds : List WorkloadKind) :
    some .crash ∈ w.faultsOf .workloadList ∧ (∃ w', w.run (listKinds n space kinds).run = (.crashed, w')) ∨
      ∃ ws w' ms, w.run (listKinds n space kinds).run = (.finished (.ok (ws, reportsOf n ms)), w') ∧
        w.moments (listKinds n space kinds).run = ms ∧ ms.map Moment.call = kinds.map (listOf n space) ∧
        (reportsOf n ms = [] → ∀ x, x ∈ ws ↔ x.kind ∈ kinds ∧ x ∈ w.workloads.belonging n space) := by
  induction kinds generalizing w with
  | nil => exact .inr ⟨[], w, [], rfl, rfl, rfl, by simp⟩
  | cons kind kinds ih =>
    let call := listOf n space kind
    obtain ⟨hsame, hheld⟩ := w.unchanged_inquiry (c := call) rfl
    have hleft := World.forall_perform (P := fun p f => f ∈ w.faultsOf p) (fun _ _ hf => hf) call
    rw [run_listKinds_cons]
    rcases hperf : w.perform call with ⟨ending, w₁⟩
    rw [hperf] at hsame hheld hleft
    cases ending with
    | held => exact (hheld rfl).elim
    | crashed =>
      have hcrash := World.crash_of_crashed (congrArg Prod.fst hperf)
      exact .inl ⟨hcrash, w₁, by rw [World.run, hperf]⟩
    | answered answer =>
      obtain ⟨found, rfl⟩ : ∃ found : Except Failure (List Workload), found = answer := ⟨answer, rfl⟩
      rw [World.run, World.moments, hperf]
      dsimp only
      rcases ih w₁ with ⟨hcrash, w', hcrashed⟩ | ⟨ws, w', ms, hothers, hms, hcalls, hcomplete⟩
      · exact .inl ⟨hleft _ _ hcrash, w', (World.run_bind_of_crashed hcrashed).1⟩
      · right
        rw [hsame.workloads] at hcomplete
        have hreports := reportsOf_list (congrArg Prod.fst hperf) ws ms
        obtain ⟨hrun, hmoments⟩ := World.run_bind_of_ok (f := fun others => pure (gathered n kind found others)) hothers
        refine ⟨(gathered n kind found (ws, reportsOf n ms)).1, w', ⟨w, call⟩ :: ms, ?_, ?_,
          congrArg (call :: ·) hcalls, fun hnone x => ?_⟩
        · rw [hreports]
          exact hrun
        · refine congrArg _ (hmoments.trans ?_)
          rw [hms]
          exact List.append_nil ms
        · rw [hreports] at hnone
          cases found with
          | error e => cases hnone
          | ok more =>
            have hmore := World.list_of_answered (congrArg Prod.fst hperf)
            rw [gathered, List.mem_append, mem_of_list hname hmore, hcomplete hnone, List.mem_cons, or_and_right]

/-- The workloads of a component are found, or what could not be listed is reported. -/
theorem World.run_findWorkloads (w : World) (hname : ',' ∉ n.toList) (space : String) :
    some .crash ∈ w.faultsOf .workloadList ∧ (∃ w', w.run (findWorkloads n space).run = (.crashed, w')) ∨
      ∃ r w' ms, w.run (findWorkloads n space).run = (.finished r, w') ∧
        w.moments (findWorkloads n space).run = ms ∧ ms.map Moment.call = WorkloadKind.all.map (listOf n space) ∧
        r.map (fun _ => ()) = Failure.join (reportsOf n ms) ∧
        ∀ ws, r = .ok ws → Workload.verdict ws = Workload.verdict (w.workloads.belonging n space) := by
  unfold findWorkloads
  rcases w.run_listKinds hname space WorkloadKind.all with
    ⟨hcrash, w', hcrashed⟩ | ⟨ws, w', ms, hlisted, hms, hcalls, hcomplete⟩
  · exact .inl ⟨hcrash, w', (World.run_bind_of_crashed hcrashed).1⟩
  · right
    rw [(World.run_bind_of_ok hlisted).1, (World.run_bind_of_ok hlisted).2, hms]
    dsimp only
    cases hjoined : Failure.join (reportsOf n ms) with
    | error e => exact ⟨.error e, w', ms, rfl, List.append_nil ms, hcalls, hjoined.symm, nofun⟩
    | ok u =>
      refine ⟨.ok ws, w', ms, rfl, List.append_nil ms, hcalls, hjoined.symm, ?_⟩
      rintro _ ⟨⟩
      have hnone : reportsOf n ms = [] := Failure.join_eq_ok.1 hjoined
      exact Workload.verdict_congr fun x => (hcomplete hnone x).trans (and_iff_right (WorkloadKind.mem_all _))

/-! ## Stored verdicts -/

theorem World.run_persistHealth (w : World) (n : String) (v : Health) (installed : Option String) :
    w.run (persistHealth n v installed).run =
        (.finished ((w.change (.setHealth n v installed)).1.mapError
          (.context ("failed to update health of component " ++ n))), (w.change (.setHealth n v installed)).2) ∧
      w.moments (persistHealth n v installed).run = w.moments (Errand.change (.setHealth n v installed)).run :=
  ⟨World.run_mapFailure rfl, w.moments_mapFailure _ _⟩

/-- A verdict on what was found is stored. -/
theorem run_updateHealth_of_found {ws : List Workload} {w₁ : World}
    (hfound : w.run (findWorkloads n space).run = (.finished (.ok ws), w₁)) :
    ∃ w', w.run (updateHealth n space none).run =
        (.finished (((w₁.change (.setHealth n (Workload.verdict ws) none)).1.mapError
          (.context ("failed to update health of component " ++ n))).map fun _ => Workload.verdict ws), w') ∧
      w.moments (updateHealth n space none).run =
        w.moments (findWorkloads n space).run ++ w₁.moments (change (.setHealth n (Workload.verdict ws) none)).run ∧
      w'.components = (w₁.change (.setHealth n (Workload.verdict ws) none)).2.components ∧
      ∀ k, (w₁.change (.setHealth n (Workload.verdict ws) none)).2.Keeps k w' := by
  let m : Mutation := .setHealth n (Workload.verdict ws) none
  obtain ⟨hpersist, hmoments⟩ := w₁.run_persistHealth n (Workload.verdict ws) none
  have hstored := World.run_discard hpersist
  have hcalls := (w₁.moments_discard _).trans hmoments
  unfold updateHealth
  rw [(World.run_bind_of_ok hfound).1, (World.run_bind_of_ok hfound).2]
  cases hchange : (w₁.change m).1 with
  | error e =>
    rw [hchange] at hstored
    refine ⟨_, (World.run_bind_of_error hstored).1, ?_, rfl, fun k => .refl k _⟩
    rw [(World.run_bind_of_error hstored).2, hcalls]
  | ok o =>
    rw [hchange] at hstored
    refine ⟨_, (World.run_bind_of_ok hstored).1, ?_, rfl,
      fun k => World.keeps_leave k _ (.count (.health (Workload.verdict ws)))⟩
    rw [(World.run_bind_of_ok hstored).2, hcalls]
    exact congrArg _ (List.append_nil _)

/-- A change that loses races at worst succeeds. -/
theorem change_ok_of_lost {m : Mutation} (hm : m.Sound)
    (hlost : ∀ p ∈ w.moments (change m).run, ∀ e, p.failure? = some e → p.call.isWrite = true ∧ e.isConflict = true) :
    ∃ o, (w.change m).1 = .ok o := by
  cases hres : (w.change m).1 with
  | ok o => exact ⟨o, rfl⟩
  | error e =>
    have herror : Obeys _ _ (change m) [] w := obeys_change_error hm
    obtain ⟨-, earlier, p, hcalls, hfails⟩ := herror.ending _ _ rfl e hres
    have hp : p ∈ w.moments (change m).run := by
      rw [List.nil_append] at hcalls
      rw [hcalls]
      exact List.mem_append_right _ (List.mem_singleton_self p)
    have hconflict : e.isConflict = true := (hlost p hp e hfails.failure?).2
    have hdecided := World.isLostRace_change hm w
    rw [hres, isLostRace, hconflict] at hdecided
    cases hdecided

/-- An update reads its component and writes its status. -/
theorem calls_change_setHealth (w : World) (n : String) (v : Health) :
    ∀ p ∈ w.moments (change (.setHealth n v none)).run,
      p.call = .getComponent n ∨ ∃ c, p.call = .updateStatus c ∧ c.name = n := by
  have hcalls : Obeys (fun _ p => p.call = .getComponent n ∨ ∃ c, p.call = .updateStatus c ∧ c.name = n)
      (Changed (.setHealth n v none) []) (change (.setHealth n v none)) [] w := by
    refine obeys_change_onward (fun _ _ _ => .inl rfl) fun _ v x wr _ hx hedit => .inr ?_
    cases hedit
    exact ⟨_, rfl, (ComponentStore.name_of_find? hx : x.name = n)⟩
  exact hcalls.calls.forall

theorem settled_judged {x : Component} {v : Health} (hstays : settled x ≠ none) :
    settled (x.judged v) = some (bump (x.judged v)) := by
  unfold settled at hstays ⊢
  exact if_neg fun hgone => hstays (if_pos hgone)

/-- Where it succeeds, the health of the component is the verdict, and nothing else of it has changed. -/
theorem find?_change_setHealth {v : Health} {x : Component} {o : Option Component} (hx : w.components.find? n = some x)
    (hstays : settled x ≠ none) (hres : (w.change (.setHealth n v none)).1 = .ok o) :
    ∃ y, (w.change (.setHealth n v none)).2.components.find? n = some y ∧
      withVersion y "" = withVersion (x.judged v) "" := by
  let m : Mutation := .setHealth n v none
  have hleaves : m.leaves (w.components.find? n) = some (bump (x.judged v)) := by
    have hedit : m.edit x = some (.status (x.judged v)) := rfl
    rw [hx, Mutation.leaves_written hedit]
    exact settled_judged hstays
  have hobeys : Obeys _ _ (change m) [] w := obeys_change_leaves ((Edit.setHealth v none).sound_mutation n)
    ((Edit.setHealth v none).blind_mutation n) (w.holds_self n)
  have hended := hobeys.ending (w.change m).1 (w.change m).2 rfl nofun
  rw [show (w.change m).1 = .ok o from hres] at hended
  have hleft : (w.change m).2.Holds n (some (bump (x.judged v))) := hleaves ▸ hended
  obtain ⟨y, hy, hsame⟩ := Option.map_eq_some_iff.1 hleft
  exact ⟨y, hy, hsame⟩

/-- How an update of health ends that finds workloads in the lists of `asked` and then makes the calls of `rest`. -/
structure World.UpdatesHealth (n space : String) (w : World) (asked rest : List Moment) (r : Except Failure Health)
    (w' : World) : Prop where
  /-- All kinds are listed in their order, whatever fails. -/
  lists : asked.map Moment.call =
    [.listWorkloads .deployment space (Workload.selectorOf n), .listWorkloads .statefulSet space (Workload.selectorOf n),
      .listWorkloads .daemonSet space (Workload.selectorOf n)]
  /-- What could not be listed is reported, a single failure as itself, and nothing is written. -/
  reported : reportsOf n asked ≠ [] → rest = [] ∧ w'.components = w.components ∧
    (∀ e, reportsOf n asked = [e] → r = .error e) ∧
    (2 ≤ (reportsOf n asked).length → r = .error (.joined (reportsOf n asked)))
  /-- A component is stored with the verdict if no call on it fails but by lost races. -/
  judged : reportsOf n asked = [] → ∀ x, w.components.find? n = some x → settled x ≠ none →
    (∀ m ∈ rest, ∀ e, m.failure? = some e → m.call.isWrite = true ∧ e.isConflict = true) →
    ∃ v y, r = .ok v ∧ w'.components.find? n = some y ∧
      withVersion y "" = withVersion (x.judged v) "" ∧
      (v = .available ∨ v = .unavailable) ∧
      (v = .available ↔ ∀ u ∈ w.workloads.items, u.namespace = space → u.component = some n →
        1 ≤ u.replicas.desired ∧ u.replicas.desired ≤ u.replicas.updated ∧
          u.replicas.scheduled ≤ u.replicas.updated ∧ u.replicas.updated ≤ u.replicas.available)
  others : ∀ k, k ≠ n → w.Keeps k w'

theorem verdict_belonging_iff (s : WorkloadStore) (n space : String) :
    Workload.verdict (s.belonging n space) = .available ↔
      ∀ u ∈ s.items, u.namespace = space → u.component = some n →
        1 ≤ u.replicas.desired ∧ u.replicas.desired ≤ u.replicas.updated ∧
          u.replicas.scheduled ≤ u.replicas.updated ∧ u.replicas.updated ≤ u.replicas.available := by
  simp only [Workload.verdict_available_iff, mem_belonging, Workload.isAvailable, Replicas.isAvailable,
    Bool.and_eq_true, decide_eq_true_eq, and_imp, and_assoc]

/-- An update of health lists all kinds, and then reports what failed or stores the verdict, unless a list crashes. -/
theorem updatesHealth_of_run (w : World) (hname : ',' ∉ n.toList) (space : String) :
    some .crash ∈ w.faultsOf .workloadList ∧
        (∃ w', w.run (updateHealth n space none).run = (.crashed, w') ∧ w'.components = w.components) ∨
      ∃ asked rest r w', w.run (updateHealth n space none).run = (.finished r, w') ∧
        w.moments (updateHealth n space none).run = asked ++ rest ∧ w.UpdatesHealth n space asked rest r w' := by
  obtain ⟨hsame, -⟩ := World.unchanged_run (w := w) (onlyCalls_findWorkloads n space) (inquires_findWorkloads n space)
  rcases w.run_findWorkloads hname space with
    ⟨hcrash, w', hcrashed⟩ | ⟨r, w₁, ms, hfound, hms, hcalls, hjoin, hverdict⟩
  · left
    rw [hcrashed] at hsame
    exact ⟨hcrash, w', (World.run_bind_of_crashed hcrashed).1, hsame.components⟩
  · right
    have hfind : ∀ k, w.Keeps k w₁ := by
      intro k
      have hkeeps := World.keeps_of_unchanged (k := k) _ hsame
      rwa [hfound] at hkeeps
    rw [hfound] at hsame
    cases r with
    | error e =>
      have hfails : ∀ f, Failure.join (reportsOf n ms) = .error f → e = f := fun f hf =>
        Except.error.inj (hjoin.trans hf)
      refine ⟨ms, [], .error e, w₁, (World.run_bind_of_error hfound).1, ?_, hcalls, fun _ => ?_, fun hnone => ?_,
        fun k _ => hfind k⟩
      · rw [List.append_nil, ← hms]
        exact (World.run_bind_of_error hfound).2
      · refine ⟨rfl, hsame.components, fun f hone => ?_, fun hseveral => ?_⟩
        · rw [hfails f (congrArg Failure.join hone)]
        · rw [hfails _ (Failure.join_of_several hseveral)]
      · rw [hnone] at hjoin
        cases hjoin
    | ok ws =>
      have hnone : reportsOf n ms = [] := Failure.join_eq_ok.1 hjoin.symm
      obtain ⟨w', hrun, hmoments, hleft, hkept⟩ := run_updateHealth_of_found hfound
      have hsound : (Mutation.setHealth n (Workload.verdict ws) none).Sound := Mutation.sound_ofStatus
      refine ⟨ms, _, _, w', hrun, hms ▸ hmoments, hcalls, fun h => (h hnone).elim, fun _ x hx hstays hlost => ?_,
        fun k hk => ((hfind k).trans (w₁.keeps_change hsound hk)).trans (hkept k)⟩
      · obtain ⟨o, ho⟩ := change_ok_of_lost hsound hlost
        rw [← hsame.components] at hx
        obtain ⟨y, hy, hjudged⟩ := find?_change_setHealth hx hstays ho
        refine ⟨Workload.verdict ws, y, by rw [ho]; rfl, hleft ▸ hy, hjudged, ?_, ?_⟩
        · unfold Workload.verdict
          split
          · exact .inl rfl
          · exact .inr rfl
        · rw [hverdict ws rfl]
          exact verdict_belonging_iff _ _ _

/-- The verdict is stored although a write loses a race; the one workload that is down decides it. -/
theorem updatesHealth_of_run_lost :
    let w := { sampleWorld (sampleComponent "0.1.0" .installed []) [] with
      workloads := { items := [sampleWorkload .deployment "web" true, sampleWorkload .daemonSet "agent" false] },
      faults := [(.componentUpdateStatus, [some (.error (.conflict Component.kind "dogu-op"))])] }
    ',' ∉ "dogu-op".toList ∧
    ∃ r w' y, w.run (updateHealth "dogu-op" "ecosystem" none).run = (.finished r, w') ∧ r = .ok .unavailable ∧
      w'.components.find? "dogu-op" = some y ∧ y.health = .unavailable := by
  intro w
  have hname : ',' ∉ "dogu-op".toList := by decide
  refine ⟨hname, ?_⟩
  rcases updatesHealth_of_run w hname "ecosystem" with ⟨hcrash, -⟩ | ⟨asked, rest, r, w', hrun, hmoments, hends⟩
  · cases hcrash
  have hasked : asked.length = 3 := by
    have hlength := congrArg List.length hends.lists
    rwa [List.length_map] at hlength
  have hfront : asked = (w.moments (updateHealth "dogu-op" "ecosystem" none).run).take 3 := by
    rw [hmoments, List.take_left' hasked]
  have hback : rest = (w.moments (updateHealth "dogu-op" "ecosystem" none).run).drop 3 := by
    rw [hmoments, List.drop_left' hasked]
  have hnone : reportsOf "dogu-op" asked = [] := by
    have hempty : (reportsOf "dogu-op" asked).isEmpty = true := hfront ▸ by decide +kernel
    exact List.isEmpty_iff.1 hempty
  have hlost : ∀ m ∈ rest, ∀ e, m.failure? = some e → m.call.isWrite = true ∧ e.isConflict = true := by
    have hall : (rest.all fun m => m.failure?.all fun e => m.call.isWrite && e.isConflict) = true :=
      hback ▸ by decide +kernel
    intro m hm e he
    have hlost := List.all_eq_true.1 hall m hm
    rw [he] at hlost
    exact Bool.and_eq_true_iff.1 hlost
  obtain ⟨v, y, hr, hy, hsame, hverdict, havailable⟩ :=
    hends.judged hnone _ (find?_sampleWorld _ []) (ComponentStore.settled_ne_none rfl) hlost
  have hdown : v ≠ .available := by
    intro hv
    have hup := havailable.1 hv (sampleWorkload .daemonSet "agent" false) (by decide) rfl rfl
    revert hup
    decide
  obtain rfl : v = .unavailable := hverdict.resolve_left hdown
  exact ⟨r, w', y, hrun, hr, hy, congrArg Component.health hsame⟩

end Listing

end ChartOperator
