import ChartOperator.Proofs.Health.Verdicts

set_option autoImplicit false

/-!
# Updates of health side by side

An update lists workloads and stores the verdict on them later. Any number of updates of one component may be on
their way at once, started by watches, by the periodic updates and by an installation, while workloads come and
go (`Race`). Each returns the verdict that it stored, and that is the true one if no workload changed since the
update started (`Racer.Sound`).

The store does not know which verdict is newer. A write that loses a race is repeated on a fresh copy of the
component, but with the verdict from before. So what remains is the verdict of the update that stored its own
last (`health_of_last_update`), however long ago it listed the workloads: `health_of_last_update_stale` is a race
that ends with a verdict that was overtaken. Nothing is said of updates that fail.
-/

namespace ChartOperator

/-! ## What an update has before it -/

namespace Program

variable {α : Type} {replies : Replies} {n : String} {P : Health → Prop}

/-- The program leaves notes at most, and returns this. -/
def Returns (r : α) : Program α → Prop
  | done a => a = r
  | note _ next => next.Returns r
  | call _ _ => False
  | mutate _ _ => False

/-- The program inquires, stores one verdict on the component and returns it, or it fails. If what it was told
before is `said`, and it is told what the replies allow, the verdict is one of those that are sought. -/
def Judges (replies : Replies) (n : String) (P : Health → Prop) : Program (Except Failure Health) → Prop → Prop
  | done r, _ => ∀ v, r ≠ .ok v
  | call d next, said => d.isInquiry = true ∧ ∀ a, (next a).Judges replies n P (said ∧ replies d a)
  | mutate m next, said => ∃ v installed, (said → P v) ∧ m = .setHealth n v installed ∧
      (∀ o, (next (.ok o)).Returns (.ok v)) ∧ ∀ e, ∃ f, (next (.error e)).Returns (.error f)
  | note _ next, said => next.Judges replies n P said

theorem Judges.mono {p : Program (Except Failure Health)} {said said' : Prop} (h : p.Judges replies n P said')
    (hsaid : said → said') : p.Judges replies n P said := by
  induction p generalizing said said' with
  | done r => exact h
  | call d next ih => exact ⟨h.1, fun a => ih a (h.2 a) (And.imp_left hsaid)⟩
  | mutate m next ih =>
    obtain ⟨v, installed, hv, hrest⟩ := h
    exact ⟨v, installed, fun hs => hv (hsaid hs), hrest⟩
  | note i next ih => exact ih h hsaid

theorem judges_of_returns {p : Program (Except Failure Health)} {said : Prop} {f : Failure}
    (h : p.Returns (.error f)) : p.Judges replies n P said := by
  induction p with
  | done r =>
    obtain rfl : r = .error f := h
    exact nofun
  | call => exact h.elim
  | mutate => exact h.elim
  | note i next ih => exact ih h

/-- A judgement that is found by inquiries. -/
theorem judges_andThen {p : Program α} {f : α → Program (Except Failure Health)} {said : Prop}
    (hcalls : p.OnlyCalls) (hinquires : p.Confined (fun d => d.isInquiry = true) fun _ => False)
    (h : ∀ a, (f a).Judges replies n P (said ∧ ∃ calls, p.Comes replies calls a)) :
    (p.andThen f).Judges replies n P said := by
  induction p generalizing said with
  | done a => exact (h a).mono fun hs => ⟨hs, [], .done a⟩
  | call d next ih =>
    refine ⟨hinquires.1, fun answer => ih answer (hcalls answer) (hinquires.2 answer) fun a => ?_⟩
    refine (h a).mono ?_
    rintro ⟨⟨hs, hreply⟩, calls, hcomes⟩
    exact ⟨hs, d :: calls, .call hreply hcomes⟩
  | mutate => exact hcalls.elim
  | note => exact hcalls.elim

/-- An update that is told what one store lists stores the verdict on that store. -/
theorem judges_updateHealth (s : WorkloadStore) {n : String} (space : String) (installed : Option String)
    (hname : ',' ∉ n.toList) :
    (updateHealth n space installed).run.Judges s.Lists n (· = Workload.verdict (s.belonging n space)) True := by
  refine judges_andThen (onlyCalls_findWorkloads n space) (inquires_findWorkloads n space) fun r => ?_
  cases r with
  | error e => exact nofun
  | ok ws =>
    refine ⟨Workload.verdict ws, installed, ?_, rfl, fun o => rfl, fun e => ⟨_, rfl⟩⟩
    rintro ⟨-, calls, hcomes⟩
    exact (verdict_of_comes hname hcomes).1 ws rfl

end Program

/-! ## Turns of an update -/

section Turns

variable {replies : Replies} {n : String} {P : Health → Prop} {said : Prop}
  {t : Task (Except Failure Health)} {written : Option Health} {w : World}

/-- Where an update stands, and which verdict it has stored. -/
inductive Task.Judging (replies : Replies) (n : String) (P : Health → Prop) (said : Prop) :
    Option Health → Task (Except Failure Health) → Prop
  | inquiring {p} (h : p.Judges replies n P said) : Judging replies n P said none (.running p)
  | storing {v installed stage next} (hv : said → P v) (hcarries : stage.Carries n v)
    (hopen : ∀ o, stage ≠ .returned (.ok o)) (hok : ∀ o, (next (.ok o)).Returns (.ok v))
    (herror : ∀ e, ∃ f, (next (.error e)).Returns (.error f)) :
    Judging replies n P said none (.changing (.setHealth n v installed) stage next)
  | failed {ending} (h : ∀ v, ending ≠ .finished (.ok v)) : Judging replies n P said none (.ended ending)
  | stored {v m o next} (hv : said → P v) (h : (next (.ok o)).Returns (.ok v)) :
    Judging replies n P said (some v) (.changing m (.returned (.ok o)) next)
  | returning {v p} (hv : said → P v) (h : p.Returns (.ok v)) : Judging replies n P said (some v) (.running p)
  | returned {v} (hv : said → P v) : Judging replies n P said (some v) (.ended (.finished (.ok v)))

/-- What a turn of an update does: it stores its verdict, or leaves the components as they are. -/
theorem Task.Judging.turn (h : t.Judging replies n P said written) (hfree : w.FaultFree)
    (hserved : said → ∀ d a, w.Served d a → replies d a) :
    w.KeepsWorkloads (t.turn w).2 ∧
      (((t.turn w).1.Judging replies n P said written ∧
          (t.turn w).2.components.items = w.components.items ∧
          (t.turn w).2.components.writes = w.components.writes) ∨
        ∃ v, written = none ∧ (t.turn w).1.Judging replies n P said (some v) ∧
          ComponentStore.Judges n v w.components (t.turn w).2.components ∧
          (t.turn w).2.components.writes = w.components.writes + 1) := by
  have hself : w.KeepsWorkloads w := ⟨rfl, hfree⟩
  cases h with
  | failed h => exact ⟨hself, .inl ⟨.failed h, rfl, rfl⟩⟩
  | returned hv => exact ⟨hself, .inl ⟨.returned hv, rfl, rfl⟩⟩
  | stored hv h => exact ⟨hself, .inl ⟨.returning hv h, rfl, rfl⟩⟩
  | @returning v p hv h =>
    cases p with
    | done r =>
      obtain rfl : r = .ok v := h
      exact ⟨hself, .inl ⟨.returned hv, rfl, rfl⟩⟩
    | call => exact h.elim
    | mutate => exact h.elim
    | note i next =>
      obtain ⟨hkeeps, hsame⟩ := World.keepsWorkloads_leave hfree i
      exact ⟨hkeeps, .inl ⟨.returning hv h, congrArg ComponentStore.items hsame,
        congrArg ComponentStore.writes hsame⟩⟩
  | @inquiring p h =>
    cases p with
    | done r => exact ⟨hself, .inl ⟨.failed fun v hr => h v (World.Ending.finished.inj hr), rfl, rfl⟩⟩
    | note i next =>
      obtain ⟨hkeeps, hsame⟩ := World.keepsWorkloads_leave hfree i
      exact ⟨hkeeps, .inl ⟨.inquiring h, congrArg ComponentStore.items hsame,
        congrArg ComponentStore.writes hsame⟩⟩
    | mutate m next =>
      obtain ⟨v, installed, hv, rfl, hok, herror⟩ := h
      exact ⟨hself, .inl ⟨.storing hv (fun wr hwr => Stage.noConfusion hwr) (fun o ho => Stage.noConfusion ho)
        hok herror, rfl, rfl⟩⟩
    | call d next =>
      obtain ⟨hinquiry, hnext⟩ := h
      obtain ⟨a, w', ha, hturn, hbeside, hsame⟩ := turn_read (Call.isRead_of_isInquiry hinquiry) next hfree
      rw [hturn]
      refine ⟨hbeside.keepsWorkloads, .inl ⟨.inquiring ((hnext a).mono fun hs => ⟨hs, hserved hs d a ha⟩), ?_, ?_⟩⟩
      · exact congrArg ComponentStore.items hsame
      · exact congrArg ComponentStore.writes hsame
  | @storing v installed stage next hv hcarries hopen hok herror =>
    by_cases hreturned : ∃ r, stage = .returned r
    · obtain ⟨r, rfl⟩ := hreturned
      cases r with
      | ok o => exact (hopen o rfl).elim
      | error e =>
        obtain ⟨f, hf⟩ := herror e
        exact ⟨hself, .inl ⟨.inquiring (Program.judges_of_returns hf), rfl, rfl⟩⟩
    · obtain ⟨stage', w', hturn, hbeside, -, hcases⟩ := turn_setHealth installed hcarries
        (not_exists.1 hreturned) next hfree
      rw [hturn]
      refine ⟨hbeside.keepsWorkloads, hcases.imp ?_ ?_⟩
      · rintro ⟨hitems, hwrites, hcarries', hopen', -⟩
        exact ⟨.storing hv hcarries' hopen' hok herror, hitems, hwrites⟩
      · rintro ⟨hjudges, hwrites, y, rfl⟩
        exact ⟨v, rfl, .stored hv (hok (some y)), hjudges, hwrites⟩

theorem Task.Judging.mono {said' : Prop} (h : t.Judging replies n P said' written) (hsaid : said → said') :
    t.Judging replies n P said written := by
  cases h with
  | inquiring h => exact .inquiring (h.mono hsaid)
  | storing hv hcarries hopen hok herror => exact .storing (fun hs => hv (hsaid hs)) hcarries hopen hok herror
  | failed h => exact .failed h
  | stored hv h => exact .stored (fun hs => hv (hsaid hs)) h
  | returning hv h => exact .returning (fun hs => hv (hsaid hs)) h
  | returned hv => exact .returned fun hs => hv (hsaid hs)

end Turns

/-! ## Updates side by side -/

/-- An update among others. -/
structure Racer where
  task : Task (Except Failure Health)
  /-- No workload has changed since the update started. -/
  current : Bool

/-- Updates of the health of one component that run side by side. -/
structure Race where
  world : World
  /-- The updates in the order of their starts. -/
  racers : List Racer := []
  /-- The update that stored its verdict last. -/
  last : Option Nat := none

namespace Race

/-- What may happen next. -/
inductive Step
  /-- Another update starts, perhaps one that stores an installed version as well. -/
  | start (installed : Option String)
  /-- An update takes a turn. -/
  | turn (i : Nat)
  /-- Workloads change. -/
  | change (workloads : WorkloadStore)
  | wait (d : Duration)

/-- An update takes a turn. -/
def turn (r : Race) (i : Nat) : Race :=
  match r.racers[i]? with
  | none => r
  | some u =>
    let (task, world) := u.task.turn r.world
    { world, racers := r.racers.set i { u with task },
      last := if world.components.writes = r.world.components.writes then r.last else some i }

/-- Takes a step. -/
def step (n «namespace» : String) (r : Race) : Step → Race
  | .start installed =>
    { r with racers := r.racers ++ [⟨.running (updateHealth n «namespace» installed).run, true⟩] }
  | .turn i => r.turn i
  | .change workloads =>
    { r with world := { r.world with workloads }, racers := r.racers.map fun u => { u with current := false } }
  | .wait d => { r with world := r.world.pass d }

/-- The race that takes these steps in a world. -/
def run (n «namespace» : String) (start : World) (steps : List Step) : Race :=
  steps.foldl (step n «namespace») { world := start }

theorem turn_eq {r : Race} {i : Nat} {u : Racer} {task : Task (Except Failure Health)} {world : World}
    (hu : r.racers[i]? = some u) (hturn : u.task.turn r.world = (task, world)) :
    r.turn i =
      { world, racers := r.racers.set i { u with task },
        last := if world.components.writes = r.world.components.writes then r.last else some i } := by
  simp only [turn, hu, hturn]

end Race

section Races

variable {n space : String} {stays : Prop} {r : Race} {i : Nat} {u : Racer} {w w' : World}
  {written : Option Health}

/-- The update has stored this verdict, or none yet. It is the verdict on the workloads that are there, unless
they changed after the start of the update. -/
def Racer.Sound (n space : String) (w : World) (u : Racer) (written : Option Health) : Prop :=
  ∃ s : WorkloadStore, (u.current = true → s = w.workloads) ∧
    u.task.Judging s.Lists n (· = Workload.verdict (s.belonging n space)) (u.current = true) written

theorem Racer.Sound.kept (h : u.Sound n space w written) (hkeeps : w.KeepsWorkloads w') :
    u.Sound n space w' written := by
  obtain ⟨s, hs, hjudging⟩ := h
  exact ⟨s, fun hcurrent => (hs hcurrent).trans hkeeps.workloads.symm, hjudging⟩

/-- A turn of an update keeps it sound. -/
theorem Racer.Sound.turn {task : Task (Except Failure Health)} (h : u.Sound n space w written)
    (hfree : w.FaultFree) (hturn : u.task.turn w = (task, w')) :
    w.KeepsWorkloads w' ∧
      ((Racer.Sound n space w' { u with task } written ∧
          w'.components.items = w.components.items ∧ w'.components.writes = w.components.writes) ∨
        ∃ v, Racer.Sound n space w' { u with task } (some v) ∧
          ComponentStore.Judges n v w.components w'.components ∧
          w'.components.writes = w.components.writes + 1) := by
  obtain ⟨s, hs, hjudging⟩ := h
  obtain ⟨hkeeps, hcases⟩ := hjudging.turn hfree fun hcurrent d a ha => hs hcurrent ▸ lists_of_served ha
  rw [hturn] at hkeeps hcases
  have hs' : u.current = true → s = w'.workloads := fun hcurrent => (hs hcurrent).trans hkeeps.workloads.symm
  refine ⟨hkeeps, hcases.imp ?_ ?_⟩
  · exact fun ⟨hjudging', hsame⟩ => ⟨⟨s, hs', hjudging'⟩, hsame⟩
  · exact fun ⟨v, _, hjudging', hjudges⟩ => ⟨v, ⟨s, hs', hjudging'⟩, hjudges⟩

/-- The health of the component is the verdict that was stored. -/
def ComponentStore.Shows (n : String) (stays : Prop) (s : ComponentStore) (written : Option Health) : Prop :=
  ∃ v, written = some v ∧ (∀ x, s.find? n = some x → x.health = v) ∧ (stays → ∃ x, s.find? n = some x)

/-- What holds of an update in a race: if it stored its verdict last, that is the health of the component. -/
def Race.Entry (n space : String) (stays : Prop) (r : Race) (i : Nat) (u : Racer) : Prop :=
  ∃ written, u.Sound n space r.world written ∧ (r.last = none → written = none) ∧
    (r.last = some i → r.world.components.Shows n stays written)

/-- What holds of a race between two steps. -/
structure Race.Sound (n space : String) (stays : Prop) (r : Race) : Prop where
  free : r.world.FaultFree
  firm : stays → r.world.components.Firm n
  racer : ∀ i u, r.racers[i]? = some u → r.Entry n space stays i u
  last : ∀ i, r.last = some i → i < r.racers.length

/-- A turn of an update keeps that. -/
theorem Race.Sound.turn (h : r.Sound n space stays) (i : Nat) : (r.turn i).Sound n space stays := by
  cases hi : r.racers[i]? with
  | none =>
    unfold Race.turn
    rw [hi]
    exact h
  | some u =>
    obtain ⟨written, hsound, hnone, hshows⟩ := h.racer i u hi
    rcases hturn : u.task.turn r.world with ⟨task, world⟩
    obtain ⟨hkeeps, hcases⟩ := hsound.turn h.free hturn
    rw [Race.turn_eq hi hturn]
    have hlength : i < r.racers.length := (List.getElem?_eq_some_iff.1 hi).1
    -- Of the others nothing changes but who was the last.
    have hother : ∀ {P : Nat → Racer → Prop}, P i { u with task } →
        (∀ j u', j ≠ i → r.racers[j]? = some u' → P j u') →
        ∀ j u', (r.racers.set i { u with task })[j]? = some u' → P j u' := by
      intro P hself hothers j u' hj
      by_cases hji : j = i
      · subst hji
        rw [List.getElem?_set_self hlength] at hj
        exact Option.some.inj hj ▸ hself
      · rw [List.getElem?_set_ne (Ne.symm hji)] at hj
        exact hothers j u' hji hj
    rcases hcases with ⟨hsound', hitems, hwrites⟩ | ⟨v, hsound', hjudges, hwrites⟩
    · have hfind : ∀ k, world.components.find? k = r.world.components.find? k := ComponentStore.find?_congr hitems
      have hshown : ∀ written, r.world.components.Shows n stays written →
          world.components.Shows n stays written := by
        unfold ComponentStore.Shows
        rw [hfind]
        exact fun _ => id
      rw [if_pos hwrites]
      refine ⟨hkeeps.free, fun hstays x hx => h.firm hstays x (hfind n ▸ hx), hother ?_ ?_, fun j hj => ?_⟩
      · exact ⟨written, hsound', hnone, fun hlast => hshown _ (hshows hlast)⟩
      · intro j u' _ hj
        obtain ⟨written', hsound', hnone', hshows'⟩ := h.racer j u' hj
        exact ⟨written', hsound'.kept hkeeps, hnone', fun hlast => hshown _ (hshows' hlast)⟩
      · rw [List.length_set]
        exact h.last j hj
    · have hmore : world.components.writes ≠ r.world.components.writes := by omega
      rw [if_neg hmore]
      have hsomebody : some i ≠ none := Option.some_ne_none i
      refine ⟨hkeeps.free, fun hstays => hjudges.firm (h.firm hstays), hother ?_ ?_, fun j hj => ?_⟩
      · refine ⟨some v, hsound', fun hnobody => absurd hnobody hsomebody, fun _ => ⟨v, rfl, ?_, fun hstays => ?_⟩⟩
        · exact fun x hx => hjudges.health hx
        · exact hjudges.present (h.firm hstays)
      · intro j u' hji hj
        obtain ⟨written', hsound', -, -⟩ := h.racer j u' hj
        refine ⟨written', hsound'.kept hkeeps, fun hnobody => absurd hnobody hsomebody, fun hlast => ?_⟩
        exact (hji (Option.some.inj hlast).symm).elim
      · rw [List.length_set]
        exact Option.some.inj hj ▸ hlength

/-- So does every step. -/
theorem Race.Sound.step (hname : ',' ∉ n.toList) (h : r.Sound n space stays) (step : Step) :
    (r.step n space step).Sound n space stays := by
  cases step with
  | turn i => exact h.turn i
  | wait d => exact ⟨h.free, h.firm, h.racer, h.last⟩
  | change workloads =>
    have hlength : (r.step n space (.change workloads)).racers.length = r.racers.length := List.length_map _
    refine ⟨h.free, h.firm, fun i u' hu' => ?_, fun i hi => ?_⟩
    · obtain ⟨u, hu, rfl⟩ := Option.map_eq_some_iff.1 (List.getElem?_map.symm.trans hu')
      obtain ⟨written, ⟨s, -, hjudging⟩, hrest⟩ := h.racer i u hu
      exact ⟨written, ⟨s, nofun, hjudging.mono nofun⟩, hrest⟩
    · exact hlength ▸ h.last i hi
  | start installed =>
    have hlength : (r.step n space (.start installed)).racers.length = r.racers.length + 1 := List.length_append
    refine ⟨h.free, h.firm, fun i u hu => ?_, fun i hi => ?_⟩
    · rcases Nat.lt_trichotomy i r.racers.length with hlt | rfl | hgt
      · exact h.racer i u ((List.getElem?_append_left hlt).symm.trans hu)
      · obtain rfl := Option.some.inj (List.getElem?_concat_length.symm.trans hu)
        refine ⟨none, ⟨r.world.workloads, fun _ => rfl, .inquiring ?_⟩, fun _ => rfl, fun hlast => ?_⟩
        · exact (Program.judges_updateHealth _ space installed hname).mono fun _ => trivial
        · exact (Nat.lt_irrefl _ (h.last _ hlast)).elim
      · rw [List.getElem?_eq_none (hlength ▸ hgt)] at hu
        cases hu
    · rw [hlength]
      exact Nat.lt_succ_of_lt (h.last i hi)

theorem Race.sound_run {start : World} (hname : ',' ∉ n.toList) (hfree : start.FaultFree) (steps : List Step) :
    (Race.run n space start steps).Sound n space (start.components.Firm n) := by
  have hsteps : ∀ r : Race, r.Sound n space (start.components.Firm n) →
      (steps.foldl (Race.step n space) r).Sound n space (start.components.Firm n) := by
    induction steps with
    | nil => exact fun r h => h
    | cons step steps ih => exact fun r h => ih _ (h.step hname step)
  exact hsteps _ ⟨hfree, id, fun i u hu => by simp at hu, fun i hi => by cases hi⟩

/-- An update that has ended well has stored what it returned. -/
theorem Task.Judging.of_ended {replies : Replies} {P : Health → Prop} {said : Prop} {v : Health}
    (h : Task.Judging replies n P said written (.ended (.finished (.ok v)))) : written = some v ∧ (said → P v) := by
  cases h with
  | failed h => exact (h v rfl).elim
  | returned hv => exact ⟨rfl, hv⟩

/-- Once all updates have ended well, the health of the component is what one of them returned: the one that
stored its verdict last. It is the verdict on the workloads that are there, if none has changed since that
update started. A later update that was faster does not count. -/
theorem health_of_last_update {start : World} {steps : List Race.Step} (hname : ',' ∉ n.toList)
    (hfree : start.FaultFree) (hrun : Race.run n space start steps = r) (hstarted : r.racers ≠ [])
    (hended : ∀ u ∈ r.racers, ∃ v, u.task = .ended (.finished (.ok v))) :
    ∃ i u v, r.last = some i ∧ r.racers[i]? = some u ∧ u.task = .ended (.finished (.ok v)) ∧
      (∀ x, r.world.components.find? n = some x → x.health = v) ∧
      (start.components.Firm n → ∃ x, r.world.components.find? n = some x) ∧
      (u.current = true → v = Workload.verdict (r.world.workloads.belonging n space)) := by
  have hsound : r.Sound n space (start.components.Firm n) := hrun ▸ Race.sound_run hname hfree steps
  have hreturned : ∀ (i : Nat) (u : Racer), r.racers[i]? = some u → ∃ v, u.task = .ended (.finished (.ok v)) :=
    fun i u hu => hended u (List.mem_of_getElem? hu)
  -- The first update has stored a verdict, so somebody was the last.
  obtain ⟨i, hlast⟩ : ∃ i, r.last = some i := by
    obtain ⟨u, hu⟩ : ∃ u, r.racers[0]? = some u :=
      ⟨_, List.getElem?_eq_getElem (List.length_pos_iff.2 hstarted)⟩
    obtain ⟨v, hv⟩ := hreturned 0 u hu
    obtain ⟨written, ⟨s, -, hjudging⟩, hnone, -⟩ := hsound.racer 0 u hu
    rw [hv] at hjudging
    refine Option.ne_none_iff_exists'.1 fun hnobody => ?_
    rw [hnone hnobody] at hjudging
    cases hjudging.of_ended.1
  obtain ⟨u, hu⟩ : ∃ u, r.racers[i]? = some u := ⟨_, List.getElem?_eq_getElem (hsound.last i hlast)⟩
  obtain ⟨v, hv⟩ := hreturned i u hu
  obtain ⟨written, ⟨s, hs, hjudging⟩, -, hshows⟩ := hsound.racer i u hu
  rw [hv] at hjudging
  obtain ⟨rfl, hverdict⟩ := hjudging.of_ended
  obtain ⟨_, ⟨⟩, hhealth, hstays⟩ := hshows hlast
  refine ⟨i, u, v, hlast, hu, hv, hhealth, hstays, fun hcurrent => ?_⟩
  rw [hverdict hcurrent, hs hcurrent]

/-- An update lists an available workload, which then fails. Another update finds that and stores it. The first
one stores its verdict behind it: the component remains available, although its workload is not. -/
theorem health_of_last_update_stale :
    let start := { sampleWorld (sampleComponent "0.1.0" .installed []) [] with
      workloads := { items := [sampleWorkload .deployment "web" true] } }
    let steps : List Race.Step :=
      .start none :: List.replicate 3 (.turn 0) ++
      .change { items := [sampleWorkload .deployment "web" false] } :: .start none ::
      List.replicate 9 (.turn 1) ++ List.replicate 6 (.turn 0)
    ∃ r x, Race.run "dogu-op" "ecosystem" start steps = r ∧ r.racers.map Racer.current = [false, true] ∧
      r.world.components.find? "dogu-op" = some x ∧ x.health = .available ∧
      Workload.verdict (r.world.workloads.belonging "dogu-op" "ecosystem") = .unavailable := by
  intro start steps
  have hfree : start.FaultFree := fun _ _ h => by cases h
  have hfirm : start.components.Firm "dogu-op" := by
    intro x hx
    have hfound : start.components.find? "dogu-op" = some (sampleComponent "0.1.0" .installed []) :=
      find?_sampleWorld (sampleComponent "0.1.0" .installed []) []
    rw [← Option.some.inj (hfound.symm.trans hx)]
    exact ComponentStore.settled_ne_none rfl
  obtain ⟨r, hrun⟩ : ∃ r, Race.run "dogu-op" "ecosystem" start steps = r := ⟨_, rfl⟩
  have hcurrent : r.racers.map Racer.current = [false, true] := hrun ▸ by decide +kernel
  have hlast : r.last = some 0 := hrun ▸ by decide +kernel
  have hverdict : Workload.verdict (r.world.workloads.belonging "dogu-op" "ecosystem") = .unavailable :=
    hrun ▸ by decide +kernel
  have hfirst : (r.racers[0]?.all fun u => u.task.succeedsWith .available) = true := hrun ▸ by decide +kernel
  have htasks : (r.racers.all fun u =>
      u.task.succeedsWith .available || u.task.succeedsWith .unavailable) = true := hrun ▸ by decide +kernel
  have hended : ∀ u ∈ r.racers, ∃ v, u.task = .ended (.finished (.ok v)) := by
    intro u hu
    rcases Bool.or_eq_true_iff.1 (List.all_eq_true.1 htasks u hu) with h | h
    · exact ⟨_, Task.eq_of_succeedsWith h⟩
    · exact ⟨_, Task.eq_of_succeedsWith h⟩
  have hstarted : r.racers ≠ [] := by
    intro hnone
    rw [hnone] at hcurrent
    cases hcurrent
  obtain ⟨i, u, v, hi, hu, hv, hhealth, hstays, -⟩ :=
    health_of_last_update (by decide) hfree hrun hstarted hended
  obtain ⟨x, hx⟩ := hstays hfirm
  obtain rfl : 0 = i := Option.some.inj (hlast.symm.trans hi)
  rw [hu] at hfirst
  have htask := (Task.eq_of_succeedsWith hfirst).symm.trans hv
  cases htask
  exact ⟨r, x, hrun, hcurrent, hx, hhealth x hx, hverdict⟩

end Races

end ChartOperator
