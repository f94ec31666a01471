import ChartOperator.Proofs.Lifecycle.Outcomes

set_option autoImplicit false

/-!
# Backoffs

A pass that failed is told to come again after the backoff of the configuration, and an event tells the same. The
status that is stored counts nanoseconds in 64 bits, and of a longer backoff keeps only the lower ones.

`backoff_kept_iff` says how far what is stored is what was told: as long as the nanoseconds fit. A multiple of 2⁶⁴
of them leaves nothing, and then the next success has nothing to reset. A configuration is not refused for it.
-/

namespace ChartOperator

variable {config : Config} {c z : Component} {fallback : Lifecycle} {past : List Moment} {w w' : World}

/-- A fallback that was persisted is stored, with as much of the backoff as a status holds. -/
theorem stored_of_fallBack {n : String} {backoff : Duration} (h : Persists n (.fallBack fallback backoff) past w')
    (hz : w'.components.find? n = some z) :
    z.lifecycle = fallback ∧ z.backoff = ⟨backoff.nanoseconds % twoTo 64⟩ := by
  obtain ⟨m, -, x, y, -, -, hstored⟩ := h
  obtain rfl := ComponentStore.settled_eq_some (hstored.symm.trans hz)
  exact ⟨rfl, rfl⟩

/-- Every change calls the store. -/
theorem changeMoments_ne_nil (m : Mutation) (room : Nat) (w : World) : World.changeMoments m room w ≠ [] := by
  have hattempt : World.attemptMoments m w ≠ [] := by
    refine World.attempt_cases (P := fun _ ms => ms ≠ []) m w ?_ ?_ ?_
    · exact fun _ _ _ => List.cons_ne_nil _ _
    · exact fun _ _ _ _ => List.cons_ne_nil _ _
    · exact fun _ _ _ _ _ => List.cons_ne_nil _ _
  cases room with
  | zero => exact hattempt
  | succ room => exact List.append_ne_nil_of_left_ne_nil hattempt _

/-- Behind a success the store is called only if there is a backoff to clear. -/
theorem moments_settle_ok_eq_nil_iff :
    w.moments (settle config (.ok ()) c fallback).run = [] ↔ c.backoff.nanoseconds = 0 := by
  rw [← Duration.isZero_iff]
  change w.moments (clearBackoff c >>= fun _ => pure NextPass.onChange : Errand NextPass).run = [] ↔ _
  unfold clearBackoff
  split
  · next hzero => exact iff_of_true rfl hzero
  · next hsome =>
    refine iff_of_false (fun hnone => ?_) hsome
    change World.changeMoments (.clearBackoff c.name) w.disturbances w ++ _ = [] at hnone
    exact changeMoments_ne_nil _ _ _ (List.append_eq_nil_iff.1 hnone).1

/-- Behind a success no backoff is stored, unless another one came in between. -/
theorem backoff_of_settle_ok {next : NextPass}
    (hbackoff : ∀ y, w.components.find? c.name = some y → y.backoff = c.backoff)
    (htrue : ∀ m ∈ w.moments (settle config (.ok ()) c fallback).run, m.Truthful)
    (hrun : w.run (settle config (.ok ()) c fallback).run = (.finished (.ok next), w'))
    (hz : w'.components.find? c.name = some z) : z.backoff = ⟨0⟩ := by
  have hsettles : Errand.Assures _ (settle config (.ok ()) c fallback) [] w := assures_settle_ok
  obtain ⟨-, -, hheld⟩ := hsettles.ending _ _ hrun htrue
  obtain ⟨y, hy, halike⟩ := hheld.of_find? hz
  exact (versionFree_backoff.eq_of_alike halike).trans (backoff_of_cleared hbackoff hy)

/-- What becomes of a backoff, whatever faults the calls meet: the next pass and the event have it as it is
configured, and what is stored is the same, and positive, if and only if its nanoseconds fit in 64 bits. Then the
next success clears it. Of a multiple of 2⁶⁴ nothing is stored, and the next success calls nobody. -/
theorem backoff_kept_iff {step : String} {source : Failure} {next : NextPass} (hvalid : config.validate = .ok ())
    (hrun : w.run (settle config (.error (.requeueable step source)) c fallback).run =
      (.finished (.ok next), w')) :
    next = .after config.backoff ∧
      World.Noted w w' [requeueEvent c fallback config.backoff] [.requeues] ∧
      Persists c.name (.fallBack fallback config.backoff)
        (w.moments (settle config (.error (.requeueable step source)) c fallback).run) w' ∧
      ∀ z, w'.components.find? c.name = some z →
        z.lifecycle = fallback ∧ z.backoff = ⟨config.backoff.nanoseconds % twoTo 64⟩ ∧
        (z.backoff = config.backoff ∧ 0 < z.backoff.nanoseconds ↔ config.backoff.nanoseconds < twoTo 64) ∧
        ∀ (v : World) (fallback' : Lifecycle),
          (v.moments (settle config (.ok ()) z fallback').run = [] ↔ twoTo 64 ∣ config.backoff.nanoseconds) ∧
          ∀ next' v', (∀ y, v.components.find? z.name = some y → y.backoff = z.backoff) →
            (∀ m ∈ v.moments (settle config (.ok ()) z fallback').run, m.Truthful) →
            v.run (settle config (.ok ()) z fallback').run = (.finished (.ok next'), v') →
            ∀ y, v'.components.find? z.name = some y → y.backoff = ⟨0⟩ := by
  have hsettles : Errand.Obeys _ _ (settle config (.error (.requeueable step source)) c fallback) [] w :=
    obeys_settle_error rfl
  obtain ⟨hnext, hpersists, hnoted⟩ := hsettles.ending _ _ hrun
  refine ⟨hnext, hnoted, hpersists, fun z hz => ?_⟩
  obtain ⟨hfallback, hbackoff⟩ := stored_of_fallBack hpersists hz
  have hpos := Config.backoff_pos_of_validate hvalid
  refine ⟨hfallback, hbackoff, ?_, fun v fallback' => ⟨?_, fun _ _ hsame htrue hrun' _ hy => ?_⟩⟩
  · rw [hbackoff]
    constructor
    · rintro ⟨hkept, -⟩
      rw [← hkept]
      exact Nat.mod_lt _ (by decide)
    · intro hlt
      rw [Nat.mod_eq_of_lt hlt]
      exact ⟨rfl, hpos⟩
  · rw [moments_settle_ok_eq_nil_iff, hbackoff]
    exact Nat.dvd_iff_mod_eq_zero.symm
  · exact backoff_of_settle_ok hsame htrue hrun' hy

/-- A configuration with a backoff of 2⁶⁴ nanoseconds is not refused, and none of it is stored. -/
theorem backoff_kept_iff_none :
    let config : Config := { backoff := ⟨twoTo 64⟩ }
    let c := sampleComponent "0.2.0" .installed []
    let failed : Except Failure Unit := .error (.requeueable "failed to install chart" (.chartClient "down"))
    ∃ w' z, (sampleWorld c []).run (settle config failed c .tryToInstall).run =
        (.finished (.ok (.after ⟨twoTo 64⟩)), w') ∧
      config.validate = .ok () ∧ w'.components.find? "dogu-op" = some z ∧ z.lifecycle = .tryToInstall ∧
      z.backoff = ⟨0⟩ ∧ ¬ (z.backoff = config.backoff ∧ 0 < z.backoff.nanoseconds) := by
  intro config c failed
  have hvalid : config.validate = .ok () := rfl
  have hrun := World.run_of_succeedsWith (w := sampleWorld c []) (t := settle config failed c .tryToInstall)
    (a := .after ⟨twoTo 64⟩) (by decide +kernel)
  have hsome : (((sampleWorld c []).run (settle config failed c .tryToInstall).run).2.components.find?
      "dogu-op").isSome = true := by decide +kernel
  obtain ⟨z, hz⟩ := Option.isSome_iff_exists.1 hsome
  obtain ⟨-, -, -, hstored⟩ := backoff_kept_iff hvalid hrun
  obtain ⟨hfallback, hbackoff, hkept, -⟩ := hstored z hz
  have hnone : z.backoff = ⟨0⟩ := hbackoff.trans (congrArg Duration.mk (Nat.mod_self _))
  exact ⟨_, z, hrun, hvalid, hz, hfallback, hnone, mt hkept.1 (Nat.lt_irrefl _)⟩

end ChartOperator
