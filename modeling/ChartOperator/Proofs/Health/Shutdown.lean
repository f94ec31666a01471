import ChartOperator.Health.Watch
import ChartOperator.Proofs.Health.Verdicts

set_option autoImplicit false

/-!
# The end of the periodic updates

When the operator is told to stop, the periodic updates end with a sweep that marks every component as no longer
observed, and the watches end. They notice it one by one, and each of them first finishes what it has begun
(`Shutdown`).

Of a sweep it is known which components are still to be done (`Task.Sweeps`). A turn takes off one that it
stores, and at the end none is left. So a component has the last verdict unless a watch stored its health later
(`health_of_late`). That cannot be if the watch had ended when the sweep began, but nothing makes the sweep wait
for it: `health_of_late_available` is a run of the two loops in which an update of the watch that began in time
leaves a component available behind them.
-/

namespace ChartOperator

open ComponentStore (settled)

/-! ## Tasks that set health -/

/-- The component that a turn of a task stores. -/
def Task.stores? {α : Type} (t : Task α) (w : World) : Option String :=
  match t with
  | changing m _ _ => if (t.turn w).2.components.writes = w.components.writes then none else some m.target
  | _ => none

theorem Task.stores?_changing {α : Type} {m : Mutation} {stage : Stage}
    {next : Except Failure (Option Component) → Program α} {t' : Task α} {w w' : World}
    (hturn : (changing m stage next).turn w = (t', w')) :
    (changing m stage next).stores? w = if w'.components.writes = w.components.writes then none else some m.target := by
  rw [stores?, hturn]

section Setting

variable {α : Type} {P : String → Health → Prop} {t : Task α} {w : World}

/-- The program asks, and sets the health of components as it may. -/
abbrev Program.Sets (P : String → Health → Prop) (p : Program α) : Prop :=
  p.Confined (fun d => d.isRead = true) fun m => ∃ n v, P n v ∧ m = .setHealth n v none

/-- The task asks, and sets the health of components as it may. -/
inductive Task.Sets (P : String → Health → Prop) : Task α → Prop
  | running {p} (h : p.Sets P) : Sets P (.running p)
  | storing {n v stage next} (hv : P n v) (hcarries : stage.Carries n v) (hnext : ∀ r, (next r).Sets P) :
    Sets P (.changing (.setHealth n v none) stage next)
  | ended {ending} : Sets P (.ended ending)

/-- A turn leaves the components as they are, or stores one of them with its health. -/
theorem Task.Sets.turn (h : t.Sets P) (hfree : w.FaultFree) :
    w.KeepsWorkloads (t.turn w).2 ∧ (w.components.Working → (t.turn w).2.components.Working) ∧
      (t.turn w).1.Sets P ∧
      (((t.turn w).2.components.items = w.components.items ∧ t.stores? w = none) ∨
        ∃ n v, P n v ∧ ComponentStore.Judges n v w.components (t.turn w).2.components ∧ t.stores? w = some n) := by
  have hself : w.KeepsWorkloads w := ⟨rfl, hfree⟩
  cases h with
  | ended => exact ⟨hself, id, .ended, .inl ⟨rfl, rfl⟩⟩
  | @running p h =>
    cases p with
    | done a => exact ⟨hself, id, .ended, .inl ⟨rfl, rfl⟩⟩
    | note i next =>
      obtain ⟨hkeeps, hsame⟩ := World.keepsWorkloads_leave hfree i
      exact ⟨hkeeps, fun hworking => hsame.symm ▸ hworking, .running h,
        .inl ⟨congrArg ComponentStore.items hsame, rfl⟩⟩
    | mutate m next =>
      obtain ⟨⟨n, v, hv, rfl⟩, hnext⟩ := h
      exact ⟨hself, id, .storing hv (fun wr hwr => Stage.noConfusion hwr) hnext, .inl ⟨rfl, rfl⟩⟩
    | call d next =>
      obtain ⟨a, w', -, hturn, hbeside, hsame⟩ := turn_read h.1 next hfree
      rw [hturn]
      exact ⟨hbeside.keepsWorkloads, fun hworking => hsame.symm ▸ hworking, .running (h.2 a),
        .inl ⟨congrArg ComponentStore.items hsame, rfl⟩⟩
  | @storing n v stage next hv hcarries hnext =>
    by_cases hreturned : ∃ r, stage = .returned r
    · obtain ⟨r, rfl⟩ := hreturned
      exact ⟨hself, id, .running (hnext r), .inl ⟨rfl, if_pos rfl⟩⟩
    · obtain ⟨stage', w', hturn, hbeside, hworking, hcases⟩ := turn_setHealth none hcarries
        (not_exists.1 hreturned) next hfree
      rw [stores?_changing hturn, hturn]
      have hcarries' : stage'.Carries n v := by
        rcases hcases with ⟨-, -, hcarries', -⟩ | ⟨-, -, y, rfl⟩
        · exact hcarries'
        · exact fun wr hwr => Stage.noConfusion hwr
      refine ⟨hbeside.keepsWorkloads, hworking, .storing hv hcarries' hnext, hcases.imp ?_ ?_⟩
      · exact fun ⟨hitems, hwrites, _⟩ => ⟨hitems, if_pos hwrites⟩
      · rintro ⟨hjudges, hwrites, -⟩
        refine ⟨n, v, hv, hjudges, if_neg ?_⟩
        omega

end Setting

/-! ## Sweeps -/

section Sweeping

variable {α : Type} {verdict : String → Health} {todo todo' : String → Prop} {t : Task α} {w : World}

/-- The program sets the health of one component after the other, whatever becomes of them. In the end none is
left of those that were to be done. -/
def Program.Sweeps (verdict : String → Health) : Program α → (todo : String → Prop) → Prop
  | done _, todo => ∀ k, ¬ todo k
  | call _ _, _ => False
  | mutate m next, todo =>
    ∃ n, m = .setHealth n (verdict n) none ∧ ∀ r, (next r).Sweeps verdict fun k => todo k ∧ k ≠ n
  | note _ next, todo => next.Sweeps verdict todo

theorem Program.sweeps_mutate {m : Mutation} {next : Except Failure (Option Component) → Program α} :
    (mutate m next).Sweeps verdict todo ↔
      ∃ n, m = .setHealth n (verdict n) none ∧ ∀ r, (next r).Sweeps verdict fun k => todo k ∧ k ≠ n :=
  Iff.rfl

theorem Program.Sweeps.mono {p : Program α} (h : p.Sweeps verdict todo') (htodo : ∀ k, todo k → todo' k) :
    p.Sweeps verdict todo := by
  induction p generalizing todo todo' with
  | done a => exact fun k hk => h k (htodo k hk)
  | call => exact h.elim
  | note i next ih => exact ih h htodo
  | mutate m next ih =>
    obtain ⟨n, rfl, hnext⟩ := h
    exact ⟨n, rfl, fun r => ih r (hnext r) fun k => And.imp_left (htodo k)⟩

theorem Program.Sweeps.sets {p : Program α} (h : p.Sweeps verdict todo) : p.Sets fun n v => v = verdict n := by
  induction p generalizing todo with
  | done a => trivial
  | call => exact h.elim
  | note i next ih => exact ih h
  | mutate m next ih =>
    obtain ⟨n, rfl, hnext⟩ := h
    exact ⟨⟨n, _, rfl, rfl⟩, fun r => ih r (hnext r)⟩

theorem run_persistHealth (n : String) (v : Health) :
    (persistHealth n v none).run = .mutate (.setHealth n v none) fun r =>
      .done (r.mapError (.context ("failed to update health of component " ++ n))) :=
  rfl

/-- A program sweeps the components of a list if it goes on as a sweep behind them. -/
theorem Program.sweeps_failuresOf {cs : List Component} {f : List Failure → Program α}
    (h : ∀ es, (f es).Sweeps verdict fun k => todo k ∧ ∀ c ∈ cs, k ≠ c.name) :
    ((Errand.failuresOf (fun c => persistHealth c.name (verdict c.name) none) cs).andThen f).Sweeps verdict
      todo := by
  induction cs generalizing todo f with
  | nil =>
    refine (h []).mono fun k hk => ⟨hk, fun c hc => ?_⟩
    cases hc
  | cons c cs ih =>
    rw [Errand.failuresOf, run_persistHealth, andThen_assoc, andThen, sweeps_mutate]
    refine ⟨c.name, rfl, fun r => ?_⟩
    rw [done_andThen, andThen_assoc]
    refine ih fun es => ?_
    rw [done_andThen]
    refine (h _).mono fun k hk => ?_
    exact ⟨hk.1.1, List.forall_mem_cons.2 ⟨hk.1.2, hk.2⟩⟩

/-- What is done when the periodic updates end is a sweep over the components that are listed. -/
theorem exists_sweep_endSync (config : Config) :
    ∃ next : Call.listComponents.Answer → Program (Except Failure Unit),
      (endSync config).run = .call .listComponents next ∧ (∀ e, ∃ f, next (.error e) = .done (.error f)) ∧
      ∀ cs : List Component, (next (.ok cs)).Sweeps (lastVerdict config) fun k => ∃ c ∈ cs, k = c.name := by
  refine ⟨_, rfl, fun e => ⟨_, rfl⟩, fun cs => ?_⟩
  show (Program.andThen (Program.andThen (Errand.failuresOf _ cs) _) _).Sweeps _ _
  rw [Program.andThen_assoc]
  refine Program.sweeps_failuresOf fun es k ⟨⟨c, hc, hk⟩, hothers⟩ => ?_
  exact hothers c hc hk

/-- A sweep over the components that are still to be done, or one that has yet to list them. -/
inductive Task.Sweeps (verdict : String → Health) : (todo : String → Prop) → Task α → Prop
  | listing {todo next} (hlist : ∀ cs : List Component, (next (.ok cs)).Sweeps verdict fun k => ∃ c ∈ cs, k = c.name)
    (herror : ∀ e, (next (.error e)).Sets fun n v => v = verdict n) :
    Sweeps verdict todo (.running (.call .listComponents next))
  | running {todo p} (h : p.Sweeps verdict todo) : Sweeps verdict todo (.running p)
  | storing {todo n stage next} (hcarries : stage.Carries n (verdict n)) (hdone : ∀ r, stage = .returned r → ¬ todo n)
    (hnext : ∀ r, (next r).Sweeps verdict fun k => todo k ∧ k ≠ n) :
    Sweeps verdict todo (.changing (.setHealth n (verdict n) none) stage next)
  | ended {todo ending} (h : ∀ k, ¬ todo k) : Sweeps verdict todo (.ended ending)

theorem Task.Sweeps.sets (h : t.Sweeps verdict todo) : t.Sets fun n v => v = verdict n := by
  cases h with
  | @listing next hlist herror =>
    refine .running ⟨rfl, fun a => ?_⟩
    cases a with
    | error e => exact herror e
    | ok cs => exact (hlist cs).sets
  | running h => exact .running h.sets
  | storing hcarries hdone hnext => exact .storing rfl hcarries fun r => (hnext r).sets
  | ended h => exact .ended

/-- A turn of a sweep goes on with it. A component is done when its health is stored, or if it is missing. -/
theorem Task.Sweeps.turn (h : t.Sweeps verdict todo) (hfree : w.FaultFree) (hworking : w.components.Working) :
    ∃ todo', (t.turn w).1.Sweeps verdict todo' ∧
      ∀ k, todo k → todo' k ∨ t.stores? w = some k ∨ w.components.find? k = none := by
  cases h with
  | ended h => exact ⟨todo, .ended h, fun k => .inl⟩
  | @listing next hlist herror =>
    obtain ⟨a, w', ha, hturn, -, -⟩ := turn_read (d := .listComponents) rfl next hfree
    have hlisted : w.components.list = .ok w.components.items := by
      rw [ComponentStore.list, hworking.readable]
      rfl
    obtain rfl : a = .ok w.components.items := (Option.some.inj ha).symm.trans hlisted
    rw [hturn]
    refine ⟨_, .running (hlist _), fun k _ => ?_⟩
    -- What is stored is on the list.
    cases hk : w.components.find? k with
    | none => exact .inr (.inr rfl)
    | some x =>
      exact .inl ⟨x, List.mem_of_find?_eq_some hk, (ComponentStore.name_of_find? hk).symm⟩
  | @running p h =>
    cases p with
    | done a => exact ⟨todo, .ended h, fun k => .inl⟩
    | call => exact h.elim
    | note i next => exact ⟨todo, .running h, fun k => .inl⟩
    | mutate m next =>
      obtain ⟨n, rfl, hnext⟩ := h
      exact ⟨todo, .storing (fun wr hwr => Stage.noConfusion hwr) (fun r hr => Stage.noConfusion hr) hnext,
        fun k => .inl⟩
  | @storing n stage next hcarries hdone hnext =>
    by_cases hreturned : ∃ r, stage = .returned r
    · obtain ⟨r, rfl⟩ := hreturned
      refine ⟨_, .running (hnext r), fun k hk => .inl ⟨hk, ?_⟩⟩
      rintro rfl
      exact hdone r rfl hk
    · obtain ⟨stage', w', hturn, -, -, hcases⟩ := turn_setHealth none hcarries
        (not_exists.1 hreturned) next hfree
      rw [stores?_changing hturn, hturn]
      rcases hcases with ⟨-, hwrites, hcarries', hopen, hmissing⟩ | ⟨-, hwrites, y, rfl⟩
      · rw [if_pos hwrites]
        by_cases hgone : ∃ e, stage' = .returned (.error e)
        · obtain ⟨e, rfl⟩ := hgone
          refine ⟨fun k => todo k ∧ k ≠ n, .storing hcarries' (fun _ _ h => h.2 rfl) ?_, fun k hk => ?_⟩
          · exact fun r => (hnext r).mono fun k h => h.1
          · by_cases hkn : k = n
            · exact .inr (.inr (hkn ▸ hmissing hworking e rfl))
            · exact .inl ⟨hk, hkn⟩
        · refine ⟨todo, .storing hcarries' (fun r hr => ?_) hnext, fun k => .inl⟩
          cases r with
          | ok o => exact (hopen o hr).elim
          | error e => exact (hgone ⟨e, hr⟩).elim
      · have hmore : w'.components.writes ≠ w.components.writes := by omega
        rw [if_neg hmore]
        refine ⟨fun k => todo k ∧ k ≠ n, .storing (fun wr hwr => Stage.noConfusion hwr) (fun _ _ h => h.2 rfl) ?_,
          fun k hk => ?_⟩
        · exact fun r => (hnext r).mono fun k h => h.1
        · by_cases hkn : k = n
          · exact .inr (.inl (hkn ▸ rfl))
          · exact .inl ⟨hk, hkn⟩

end Sweeping

/-! ## The loops and their end -/

/-- The periodic updates. -/
inductive SyncLoop
  | waiting
  | updating (task : Task (Except Failure Unit))
  | sweeping (task : Task (Except Failure Unit))

/-- How the sweep ended, if it has. -/
def SyncLoop.swept? : SyncLoop → Option (World.Ending (Except Failure Unit))
  | sweeping (.ended ending) => some ending
  | _ => none

theorem SyncLoop.eq_of_swept? {l : SyncLoop} {ending : World.Ending (Except Failure Unit)}
    (h : l.swept? = some ending) : l = .sweeping (.ended ending) := by
  unfold swept? at h
  split at h
  · rw [Option.some.inj h]
  · cases h

/-- A watch over workloads. -/
inductive WatchLoop
  | waiting (known : Tracker)
  /-- The health of the component of a workload is updated, and then that of others. -/
  | updating (known : Tracker) (task : Task (Except Failure Unit)) (rest : List Workload)
  | stopped

/-- The watch has ended. -/
def WatchLoop.isStopped : WatchLoop → Bool
  | stopped => true
  | _ => false

theorem WatchLoop.eq_of_isStopped {l : WatchLoop} (h : l.isStopped = true) : l = .stopped := by
  cases l <;> first | rfl | cases h

/-- Goes on with the next relevant workload. -/
def WatchLoop.goOn (known : Tracker) : List Workload → WatchLoop
  | [] => waiting known
  | x :: xs => updating known (.running (refreshSeen x).run) xs

/-- The periodic updates and a watch that run side by side until they notice that they are to end. -/
structure Shutdown where
  world : World
  cancelled : Bool := false
  sync : SyncLoop := .waiting
  watch : WatchLoop := .waiting .empty
  /-- The components whose health was stored by the watch, and not by the periodic updates since. -/
  late : List String := []
  /-- The watch had ended when the sweep began. -/
  inOrder : Bool := false

namespace Shutdown

/-- What may happen next. -/
inductive Step
  | cancel
  /-- A round of periodic updates is due. -/
  | tick
  /-- The server reports to the watch. -/
  | report (r : Cluster.Report Workload)
  /-- The periodic updates notice that they are to end, and sweep over the components. -/
  | endSync
  /-- The watch notices that it is to end. -/
  | endWatch
  | turnSync
  | turnWatch
  | change (workloads : WorkloadStore)
  | wait (d : Duration)

/-- The periodic updates take a turn. -/
def turnSync (s : Shutdown) : Shutdown :=
  match s.sync with
  | .waiting => s
  | .updating (.ended _) => { s with sync := .waiting }
  | .updating t =>
    { s with world := (t.turn s.world).2, sync := .updating (t.turn s.world).1,
             late := s.late.filter fun k => t.stores? s.world != some k }
  | .sweeping t =>
    { s with world := (t.turn s.world).2, sync := .sweeping (t.turn s.world).1,
             late := s.late.filter fun k => t.stores? s.world != some k }

/-- The watch takes a turn. -/
def turnWatch (s : Shutdown) : Shutdown :=
  match s.watch with
  | .updating known (.ended _) rest => { s with watch := .goOn known rest }
  | .updating known t rest =>
    { s with world := (t.turn s.world).2, watch := .updating known (t.turn s.world).1 rest,
             late := (t.stores? s.world).toList ++ s.late }
  | _ => s

/-- Takes a step. -/
def step (config : Config) (s : Shutdown) : Step → Shutdown
  | .cancel => { s with cancelled := true }
  | .tick =>
    match s.sync with
    | .waiting => { s with sync := .updating (.running (updateAllHealth config).run) }
    | _ => s
  | .report r =>
    match s.watch with
    | .waiting known => { s with watch := .goOn (relevantWorkloads known r).2 (relevantWorkloads known r).1 }
    | _ => s
  | .endSync =>
    match s.cancelled, s.sync with
    | true, .waiting =>
      { s with sync := .sweeping (.running (ChartOperator.endSync config).run), inOrder := s.watch.isStopped }
    | _, _ => s
  | .endWatch =>
    match s.cancelled, s.watch with
    | true, .waiting _ => { s with watch := .stopped }
    | _, _ => s
  | .turnSync => s.turnSync
  | .turnWatch => s.turnWatch
  | .change workloads => { s with world := { s.world with workloads } }
  | .wait d => { s with world := s.world.pass d }

/-- What has become of two loops after these steps. -/
def run (config : Config) (start : World) (steps : List Step) : Shutdown :=
  steps.foldl (step config) { world := start }

end Shutdown

/-! ## What the loops leave -/

/-- What a watch finds out about a component. -/
def Health.IsVerdict (v : Health) : Prop := v = .available ∨ v = .unavailable

theorem Health.isVerdict_verdict (ws : List Workload) : (Workload.verdict ws).IsVerdict := by
  unfold Workload.verdict
  split
  · exact .inl rfl
  · exact .inr rfl

/-- The components that were stored late have a verdict of the watch, and are still to be done if the watch had
ended when the sweep began. The others have the last verdict, unless they are still to be done. -/
def ComponentStore.Leaves (config : Config) (todo : String → Prop) (late : List String) (inOrder : Bool)
    (s : ComponentStore) : Prop :=
  ∀ n x, s.find? n = some x →
    (n ∈ late → x.health.IsVerdict ∧ (inOrder = true → todo n)) ∧
      (n ∉ late → todo n ∨ x.health = lastVerdict config n)

/-- Where the periodic updates stand, and what they still have to do. -/
inductive SyncLoop.Sound (config : Config) : (todo : String → Prop) → SyncLoop → Prop
  | waiting : Sound config (fun _ => True) .waiting
  | updating {t} (h : t.Sets fun _ _ => True) : Sound config (fun _ => True) (.updating t)
  | sweeping {todo t} (h : t.Sweeps (lastVerdict config) todo) : Sound config todo (.sweeping t)

/-- Where the watch stands. -/
inductive WatchLoop.Sound : WatchLoop → Prop
  | waiting {known} : Sound (.waiting known)
  | updating {known t rest} (h : t.Sets fun _ v => v.IsVerdict) : Sound (.updating known t rest)
  | stopped : Sound .stopped

/-- What holds of the loops between two steps. -/
structure Shutdown.Sound (config : Config) (start : ComponentStore) (s : Shutdown) : Prop where
  free : s.world.FaultFree
  working : s.world.components.Working
  stays : start.Stays s.world.components
  watch : s.watch.Sound
  order : s.inOrder = true → s.watch = .stopped
  sync : ∃ todo, s.sync.Sound config todo ∧ s.world.components.Leaves config todo s.late s.inOrder

section Loops

variable {config : Config} {start s s' : ComponentStore} {todo todo' : String → Prop} {late : List String}
  {inOrder : Bool} {n : String} {v : Health} {stored : Option String} {r : Shutdown}

namespace ComponentStore

theorem Leaves.same (h : s.Leaves config todo late inOrder) (hitems : s'.items = s.items) :
    s'.Leaves config todo late inOrder := by
  intro k x hx
  rw [find?_congr hitems] at hx
  exact h k x hx

/-- The watch stores the health of a component. -/
theorem Leaves.watched (h : s.Leaves config todo late inOrder) (hnot : inOrder ≠ true) (hv : v.IsVerdict)
    (hjudges : Judges n v s s') : s'.Leaves config todo (n :: late) inOrder := by
  intro k x hx
  by_cases hk : k = n
  · subst hk
    rw [hjudges.health hx]
    exact ⟨fun _ => ⟨hv, fun horder => absurd horder hnot⟩, fun hlate => (hlate List.mem_cons_self).elim⟩
  · rw [hjudges.others k hk] at hx
    rw [List.mem_cons, or_iff_right hk]
    exact h k x hx

/-- The periodic updates take a turn, and may store the health of a component. -/
theorem Leaves.synced (h : s.Leaves config todo late inOrder)
    (htodo : ∀ k, todo k → todo' k ∨ stored = some k ∨ s.find? k = none)
    (hcases : (s'.items = s.items ∧ stored = none) ∨
      ∃ n v, (todo' n ∨ v = lastVerdict config n) ∧ Judges n v s s' ∧ stored = some n) :
    s'.Leaves config todo' (late.filter fun k => stored != some k) inOrder := by
  -- A component that is not stored by the turn is as it was, and still to be done if it was.
  have hother : ∀ k x, stored ≠ some k → s.find? k = some x →
      (k ∈ (late.filter fun k => stored != some k) → x.health.IsVerdict ∧ (inOrder = true → todo' k)) ∧
        (k ∉ (late.filter fun k => stored != some k) → todo' k ∨ x.health = lastVerdict config k) := by
    intro k x hstored hx
    have hmem : k ∈ (late.filter fun k => stored != some k) ↔ k ∈ late := by
      rw [List.mem_filter, bne_iff_ne, and_iff_left hstored]
    have hkept : todo k → todo' k := by
      intro hk
      rcases htodo k hk with hk | hk | hk
      · exact hk
      · exact (hstored hk).elim
      · rw [hk] at hx
        cases hx
    obtain ⟨hlate, hrest⟩ := h k x hx
    rw [hmem]
    exact ⟨fun hk => (hlate hk).imp_right fun horder h => hkept (horder h), fun hk => (hrest hk).imp_left hkept⟩
  intro k x hx
  rcases hcases with ⟨hitems, rfl⟩ | ⟨n, v, hv, hjudges, rfl⟩
  · rw [find?_congr hitems] at hx
    exact hother k x nofun hx
  · by_cases hk : k = n
    · subst hk
      rw [hjudges.health hx]
      refine ⟨fun hlate => ?_, fun _ => hv⟩
      rw [List.mem_filter, bne_self_eq_false] at hlate
      cases hlate.2
    · rw [hjudges.others k hk] at hx
      exact hother k x (fun heq => hk (Option.some.inj heq).symm) hx

end ComponentStore

theorem sets_updateAllHealth (config : Config) : (updateAllHealth config).run.Sets fun _ _ => True := by
  refine (harmless_updateAllHealth config).1.mono (fun _ h => h) ?_
  rintro _ ⟨n, v, rfl⟩
  exact ⟨n, v, trivial, rfl⟩

theorem sets_refreshSeen (seen : Workload) : (refreshSeen seen).run.Sets fun _ v => v.IsVerdict := by
  refine (confined_refreshSeen seen).mono (fun _ h => h) ?_
  rintro _ ⟨n, ws, rfl⟩
  exact ⟨n, _, Health.isVerdict_verdict ws, rfl⟩

theorem WatchLoop.sound_goOn (known : Tracker) (rest : List Workload) : (WatchLoop.goOn known rest).Sound := by
  cases rest with
  | nil => exact .waiting
  | cons x xs => exact .updating (.running (sets_refreshSeen x))

theorem sweeps_endSync (config : Config) (todo : String → Prop) :
    Task.Sweeps (lastVerdict config) todo (.running (endSync config).run) := by
  obtain ⟨next, hrun, herror, hlist⟩ := exists_sweep_endSync config
  rw [hrun]
  refine .listing hlist fun e => ?_
  obtain ⟨f, hf⟩ := herror e
  rw [hf]
  trivial

/-- A turn of the periodic updates keeps that. -/
theorem Shutdown.Sound.turnSync (h : r.Sound config start) : r.turnSync.Sound config start := by
  obtain ⟨todo, hsync, hleaves⟩ := h.sync
  -- What a turn of their task does, whichever task that is.
  have hturn : ∀ (t : Task (Except Failure Unit)) (P : String → Health → Prop) (todo' : String → Prop)
      (sync' : SyncLoop), t.Sets P → (∀ n v, P n v → todo' n ∨ v = lastVerdict config n) →
      (∀ k, todo k → todo' k ∨ t.stores? r.world = some k ∨ r.world.components.find? k = none) →
      sync'.Sound config todo' →
      Shutdown.Sound config start
        { r with
          world := (t.turn r.world).2, sync := sync', late := r.late.filter fun k => t.stores? r.world != some k } := by
    intro t P todo' sync' hsets hP htodo hsync'
    obtain ⟨hkeeps, hworking, -, hcases⟩ := hsets.turn h.free
    refine ⟨hkeeps.free, hworking h.working, ?_, h.watch, h.order, todo', hsync', hleaves.synced htodo ?_⟩
    · rcases hcases with ⟨hitems, -⟩ | ⟨n, v, -, hjudges, -⟩
      · exact h.stays.same hitems
      · exact h.stays.judges hjudges
    · exact hcases.imp_right fun ⟨n, v, hv, hrest⟩ => ⟨n, v, hP n v hv, hrest⟩
  rcases hloop : r.sync with _ | t | t <;> rw [hloop] at hsync
  · simp only [Shutdown.turnSync, hloop]
    exact h
  · cases hsync with
    | updating hsets =>
      have hstep := hturn t _ (fun _ => True) _ hsets (fun _ _ _ => .inl trivial) (fun _ _ => .inl trivial)
        (.updating (hsets.turn h.free).2.2.1)
      cases t with
      | ended e =>
        simp only [Shutdown.turnSync, hloop]
        exact ⟨h.free, h.working, h.stays, h.watch, h.order, _, .waiting, hleaves⟩
      | running p =>
        simp only [Shutdown.turnSync, hloop]
        exact hstep
      | changing m stage next =>
        simp only [Shutdown.turnSync, hloop]
        exact hstep
  · cases hsync with
    | sweeping hsweeps =>
      obtain ⟨todo', hsweeps', htodo⟩ := hsweeps.turn h.free h.working
      simp only [Shutdown.turnSync, hloop]
      exact hturn t _ todo' _ hsweeps.sets (fun _ _ hv => .inr hv) htodo (.sweeping hsweeps')

/-- So does a turn of the watch. -/
theorem Shutdown.Sound.turnWatch (h : r.Sound config start) : r.turnWatch.Sound config start := by
  obtain ⟨todo, hsync, hleaves⟩ := h.sync
  have hwatch := h.watch
  rcases hloop : r.watch with _ | ⟨known, t, rest⟩ | _ <;> rw [hloop] at hwatch
  · simp only [Shutdown.turnWatch, hloop]
    exact h
  · cases hwatch with
    | updating hsets =>
      have hnot : r.inOrder ≠ true := fun horder => WatchLoop.noConfusion (hloop.symm.trans (h.order horder))
      obtain ⟨hkeeps, hworking, hsets', hcases⟩ := hsets.turn h.free
      have hstep : Shutdown.Sound config start
          { r with
            world := (t.turn r.world).2, watch := .updating known (t.turn r.world).1 rest,
            late := (t.stores? r.world).toList ++ r.late } := by
        rcases hcases with ⟨hitems, hstored⟩ | ⟨n, v, hv, hjudges, hstored⟩
        · refine ⟨hkeeps.free, hworking h.working, h.stays.same hitems, .updating hsets',
            fun horder => absurd horder hnot, todo, hsync, ?_⟩
          rw [hstored]
          exact hleaves.same hitems
        · refine ⟨hkeeps.free, hworking h.working, h.stays.judges hjudges, .updating hsets',
            fun horder => absurd horder hnot, todo, hsync, ?_⟩
          rw [hstored]
          exact hleaves.watched hnot hv hjudges
      cases t with
      | ended e =>
        simp only [Shutdown.turnWatch, hloop]
        exact ⟨h.free, h.working, h.stays, WatchLoop.sound_goOn known rest, fun horder => absurd horder hnot, h.sync⟩
      | running p =>
        simp only [Shutdown.turnWatch, hloop]
        exact hstep
      | changing m stage next =>
        simp only [Shutdown.turnWatch, hloop]
        exact hstep
  · simp only [Shutdown.turnWatch, hloop]
    exact h

/-- So does every step. -/
theorem Shutdown.Sound.step (h : r.Sound config start) (step : Step) : (r.step config step).Sound config start := by
  obtain ⟨todo, hsync, hleaves⟩ := h.sync
  cases step with
  | cancel => exact ⟨h.free, h.working, h.stays, h.watch, h.order, h.sync⟩
  | turnSync => exact h.turnSync
  | turnWatch => exact h.turnWatch
  | change workloads => exact ⟨h.free, h.working, h.stays, h.watch, h.order, h.sync⟩
  | wait d => exact ⟨h.free, h.working, h.stays, h.watch, h.order, h.sync⟩
  | tick =>
    rcases hloop : r.sync with _ | t | t <;> rw [hloop] at hsync <;> simp only [Shutdown.step, hloop]
    · cases hsync
      exact ⟨h.free, h.working, h.stays, h.watch, h.order, _, .updating (.running (sets_updateAllHealth config)),
        hleaves⟩
    · exact h
    · exact h
  | report report =>
    rcases hloop : r.watch with known | _ | _ <;> simp only [Shutdown.step, hloop]
    · refine ⟨h.free, h.working, h.stays, WatchLoop.sound_goOn _ _, fun horder => ?_, h.sync⟩
      exact WatchLoop.noConfusion (hloop.symm.trans (h.order horder))
    · exact h
    · exact h
  | endSync =>
    rcases hcancelled : r.cancelled <;> rcases hloop : r.sync with _ | t | t <;> rw [hloop] at hsync <;>
      simp only [Shutdown.step, hloop, hcancelled]
    case true.waiting =>
      refine ⟨h.free, h.working, h.stays, h.watch, WatchLoop.eq_of_isStopped, _,
        .sweeping (sweeps_endSync config fun _ => True), fun n x hx => ?_⟩
      exact ⟨fun hlate => ⟨((hleaves n x hx).1 hlate).1, fun _ => trivial⟩, fun _ => .inl trivial⟩
    all_goals exact h
  | endWatch =>
    rcases hcancelled : r.cancelled <;> rcases hloop : r.watch with _ | _ | _ <;>
      simp only [Shutdown.step, hloop, hcancelled]
    case true.waiting => exact ⟨h.free, h.working, h.stays, .stopped, fun _ => rfl, h.sync⟩
    all_goals exact h

theorem Shutdown.sound_run {start : World} (hfree : start.FaultFree) (hworking : start.components.Working)
    (steps : List Step) : (Shutdown.run config start steps).Sound config start.components := by
  have hsteps : ∀ r : Shutdown, r.Sound config start.components →
      (steps.foldl (Shutdown.step config) r).Sound config start.components := by
    induction steps with
    | nil => exact fun r h => h
    | cons step steps ih => exact fun r h => ih _ (h.step step)
  refine hsteps _ ⟨hfree, hworking, fun n x hx hstays => ⟨x, hx, hstays⟩, .waiting, nofun, _, .waiting,
    fun n x _ => ?_⟩
  exact ⟨nofun, fun _ => .inl trivial⟩

/-- Once the sweep has ended, the operator's own component is unavailable and the others are unknown, unless the watch
stored the health of one behind the sweep. Then that has a verdict on workloads, and no loop is left to correct it.
This cannot be if the watch had ended when the sweep began. -/
theorem health_of_late {start : World} {steps : List Shutdown.Step} {ending : World.Ending (Except Failure Unit)}
    (hfree : start.FaultFree) (hworking : start.components.Working)
    (hrun : Shutdown.run config start steps = r) (hsync : r.sync = .sweeping (.ended ending)) :
    (∀ n x, start.components.find? n = some x → settled x ≠ none → ∃ y, r.world.components.find? n = some y) ∧
      ∀ n x, r.world.components.find? n = some x →
        (n ∉ r.late → x.health = if n = config.operatorComponent then .unavailable else .unknown) ∧
          (n ∈ r.late → (x.health = .available ∨ x.health = .unavailable) ∧ r.inOrder = false) := by
  have hsound : r.Sound config start.components := hrun ▸ Shutdown.sound_run hfree hworking steps
  obtain ⟨todo, hswept, hleaves⟩ := hsound.sync
  have hnone : ∀ n, ¬ todo n := by
    rw [hsync] at hswept
    cases hswept with
    | sweeping hsweeps =>
      cases hsweeps with
      | ended hdone => exact hdone
  refine ⟨fun n x hx hstays => ?_, fun n x hx => ⟨fun hlate => ?_, fun hlate => ?_⟩⟩
  · obtain ⟨y, hy, -⟩ := hsound.stays n x hx hstays
    exact ⟨y, hy⟩
  · exact ((hleaves n x hx).2 hlate).resolve_left (hnone n)
  · obtain ⟨hverdict, htodo⟩ := (hleaves n x hx).1 hlate
    exact ⟨hverdict, Bool.eq_false_iff.2 fun horder => hnone n (htodo horder)⟩

/-- A watch has listed an available workload when the operator is told to stop. The sweep marks the component
as no longer observed, and then the watch stores its verdict. Both loops have ended, and the component remains
available. -/
theorem health_of_late_available :
    let start := { sampleWorld (sampleComponent "0.1.0" .installed []) [] with
      workloads := { items := [sampleWorkload .deployment "web" true] } }
    let steps : List Shutdown.Step :=
      .report (.applied (sampleWorkload .deployment "web" true)) :: List.replicate 4 .turnWatch ++
      [.cancel, .endSync] ++ List.replicate 6 .turnSync ++ List.replicate 7 .turnWatch ++ [.endWatch]
    ∃ r x ending, Shutdown.run {} start steps = r ∧ r.sync = .sweeping (.ended ending) ∧ r.watch = .stopped ∧
      r.world.components.find? "dogu-op" = some x ∧ x.health = .available ∧ r.inOrder = false := by
  intro start steps
  have hfree : start.FaultFree := fun _ _ h => by cases h
  have hfound : start.components.find? "dogu-op" = some (sampleComponent "0.1.0" .installed []) :=
    find?_sampleWorld (sampleComponent "0.1.0" .installed []) []
  obtain ⟨r, hrun⟩ : ∃ r, Shutdown.run {} start steps = r := ⟨_, rfl⟩
  have hswept : (r.sync.swept?.map fun ending => ending.succeedsWith ()) = some true := hrun ▸ by decide +kernel
  have hstopped : r.watch.isStopped = true := hrun ▸ by decide +kernel
  have hlate : r.late = ["dogu-op"] := hrun ▸ by decide +kernel
  obtain ⟨ending, hending, -⟩ := Option.map_eq_some_iff.1 hswept
  have hsync := SyncLoop.eq_of_swept? hending
  obtain ⟨hstays, hremains⟩ := health_of_late hfree ⟨rfl, rfl⟩ hrun hsync
  obtain ⟨x, hx⟩ := hstays "dogu-op" _ hfound (ComponentStore.settled_ne_none rfl)
  obtain ⟨hverdict, horder⟩ := (hremains _ x hx).2 (hlate ▸ List.mem_singleton_self _)
  have hup : (r.world.components.find? "dogu-op").all (·.health != .unavailable) = true := hrun ▸ by decide +kernel
  rw [hx] at hup
  refine ⟨r, x, ending, hrun, hsync, WatchLoop.eq_of_isStopped hstopped, hx, ?_, horder⟩
  exact hverdict.resolve_right (by simpa using hup)

end Loops

end ChartOperator
