import ChartOperator.Proofs.Json.Equality
import ChartOperator.Proofs.Lifecycle.Quiet
import ChartOperator.Proofs.World.Dialogues
import ChartOperator.Proofs.World.Sample
import Mathlib.Logic.ExistsUnique

set_option autoImplicit false

/-!
# How an operation is chosen

`Decides` is the table by which an operation is chosen: a row for each way in which the choice may end, with
the calls that are made on that way. `requiredOperation_decided` says that every chart client, whatever it
answers, falls into exactly one row, and that the choice is the one of that row. Where the row depends on whether
values are the same, this means that they are equal as maps.

The table goes by what the calls were answered, so it holds of the runs in a world as well: by what the calls
of the run were answered (`decides_of_run`), and without faults by what the stores answer
(`decides_of_faultFree`).
-/

namespace ChartOperator

/-! ## The table -/

/-- Neither the status of the component nor its removal settles what it requires. -/
structure Undecided (c : Component) : Prop where
  idle : c.lifecycle.isInFlight = false
  alive : c.isBeingDeleted = false
  tried : c.lifecycle ≠ .tryToInstall

/-- The release is the first with the name. -/
def FirstNamed (name : String) (rs : List Release) (r : Release) : Prop :=
  r.name = name ∧ ∃ before after, rs = before ++ r :: after ∧ ∀ s ∈ before, s.name ≠ name

/-- The release is deployed where the component wants it, if it says where. -/
def InPlace (c : Component) (r : Release) : Prop :=
  ∀ wanted, c.spec.deployNamespace = some wanted → wanted = "" ∨ wanted = r.namespace

/-- Both versions can be read, and the release is in its place: it is the versions that decide. -/
structure Comparable (c : Component) (r : Release) (installed requested : Version) : Prop where
  installed : readVersion r.appVersion = .ok installed
  requested : readVersion (requestedVersion c r) = .ok requested
  space : InPlace c r

/-- The table for a component with a release. The calls are those that follow the listing. -/
inductive Compares (replies : Replies) (c : Component) (chart : ChartSpec) (r : Release) :
    List Call → Except Failure Operation → Prop
  | installedUnreadable {reason : String}
    (hinstalled : readVersion r.appVersion = .error (.versionParse r.appVersion reason)) :
    Compares replies c chart r [] (.error (.evaluation c.name (.versionParse r.appVersion reason)))
  | requestedUnreadable {installed : Version} {reason : String}
    (hinstalled : readVersion r.appVersion = .ok installed) (hgiven : c.spec.version ≠ "")
    (hrequested : readVersion c.spec.version = .error (.versionParse c.spec.version reason)) :
    Compares replies c chart r [] (.error (.evaluation c.name (.versionParse c.spec.version reason)))
  | elsewhere {installed requested : Version} {wanted : String}
    (hinstalled : readVersion r.appVersion = .ok installed)
    (hrequested : readVersion (requestedVersion c r) = .ok requested)
    (hwanted : c.spec.deployNamespace = some wanted) (hgiven : wanted ≠ "") (hother : wanted ≠ r.namespace) :
    Compares replies c chart r [] (.error (.namespaceMismatch c.name r.namespace wanted))
  | older {installed requested : Version} (hread : Comparable c r installed requested)
    (horder : requested.order installed = .lt) :
    Compares replies c chart r [] (.ok (.downgrade r.appVersion (requestedVersion c r)))
  | newer {installed requested : Version} (hread : Comparable c r installed requested)
    (horder : requested.order installed = .gt) :
    Compares replies c chart r [] (.ok .upgrade)
  | deployedUnread {installed requested : Version} {e : Failure}
    (hread : Comparable c r installed requested) (horder : requested.order installed = .eq)
    (hdeployed : replies (.releaseValues r) (.error e)) :
    Compares replies c chart r [.releaseValues r] (.error (.evaluation c.name e))
  | desiredUnread {installed requested : Version} {deployed : Values} {e : Failure}
    (hread : Comparable c r installed requested) (horder : requested.order installed = .eq)
    (hdeployed : replies (.releaseValues r) (.ok deployed)) (hdesired : replies (.specValues chart) (.error e)) :
    Compares replies c chart r [.releaseValues r, .specValues chart] (.error (.evaluation c.name e))
  | unchanged {installed requested : Version} {deployed desired : Values}
    (hread : Comparable c r installed requested) (horder : requested.order installed = .eq)
    (hdeployed : replies (.releaseValues r) (.ok deployed)) (hdesired : replies (.specValues chart) (.ok desired))
    (hsame : Values.same deployed desired = true) :
    Compares replies c chart r [.releaseValues r, .specValues chart] (.ok .ignore)
  | changed {installed requested : Version} {deployed desired : Values}
    (hread : Comparable c r installed requested) (horder : requested.order installed = .eq)
    (hdeployed : replies (.releaseValues r) (.ok deployed)) (hdesired : replies (.specValues chart) (.ok desired))
    (hdiffers : Values.same deployed desired = false) :
    Compares replies c chart r [.releaseValues r, .specValues chart] (.ok .upgrade)

/-- The table by which an operation is chosen: the calls that are made, and the result. -/
inductive Decides (replies : Replies) (c : Component) (chart : ChartSpec) :
    List Call → Except Failure Operation → Prop
  | inFlight (hflight : c.lifecycle.isInFlight = true) : Decides replies c chart [] (.ok .ignore)
  | deleted (hidle : c.lifecycle.isInFlight = false) (hdeleted : c.isBeingDeleted = true) :
    Decides replies c chart [] (.ok .delete)
  | again (halive : c.isBeingDeleted = false) (htried : c.lifecycle = .tryToInstall) :
    Decides replies c chart [] (.ok .install)
  | unlisted {e : Failure} (hopen : Undecided c) (hlisted : replies .listReleases (.error e)) :
    Decides replies c chart [.listReleases] (.error (.evaluation c.name e))
  | absent {rs : List Release} (hopen : Undecided c) (hlisted : replies .listReleases (.ok rs))
    (habsent : ∀ r ∈ rs, r.name ≠ c.spec.name) :
    Decides replies c chart [.listReleases] (.ok .install)
  | found {rs : List Release} {r : Release} {calls : List Call} {res : Except Failure Operation}
    (hopen : Undecided c) (hlisted : replies .listReleases (.ok rs)) (hfirst : FirstNamed c.spec.name rs r)
    (hcompares : Compares replies c chart r calls res) :
    Decides replies c chart (.listReleases :: calls) res

section Reading

variable {c : Component} {r : Release} {rs : List Release}

theorem find?_name_eq_some_iff {name : String} : rs.find? (·.name == name) = some r ↔ FirstNamed name rs r := by
  rw [List.find?_eq_some_iff_append, FirstNamed]
  simp

theorem FirstNamed.unique {name : String} {s : Release} (h : FirstNamed name rs r) (h' : FirstNamed name rs s) :
    r = s :=
  Option.some.inj ((find?_name_eq_some_iff.2 h).symm.trans (find?_name_eq_some_iff.2 h'))

theorem releaseOf?_eq_none_iff : releaseOf? c rs = none ↔ ∀ r ∈ rs, r.name ≠ c.spec.name := by
  simp [releaseOf?]

theorem releaseOf?_eq_some_iff : releaseOf? c rs = some r ↔ FirstNamed c.spec.name rs r := find?_name_eq_some_iff

/-- A text that is no version is named in the failure. -/
theorem versionParse_of_readVersion {text : String} {e : Failure} (h : readVersion text = .error e) :
    ∃ reason, e = .versionParse text reason := by
  unfold readVersion at h
  split at h
  · cases h
  · next err _ =>
    cases h
    exact ⟨err.message, rfl⟩

theorem namespaceMismatch?_eq_none_iff : namespaceMismatch? c r = none ↔ InPlace c r := by
  unfold namespaceMismatch? InPlace
  cases c.spec.deployNamespace with
  | none => simp
  | some wanted =>
    simp only [Option.some.injEq, forall_eq', String.isEmpty_iff]
    exact ite_eq_left_iff.trans (by simp [Decidable.or_iff_not_imp_left])

theorem namespaceMismatch?_of_elsewhere {wanted : String} (hwanted : c.spec.deployNamespace = some wanted)
    (hgiven : wanted ≠ "") (hother : wanted ≠ r.namespace) :
    namespaceMismatch? c r = some (.namespaceMismatch c.name r.namespace wanted) := by
  unfold namespaceMismatch?
  rw [hwanted]
  exact if_neg (not_or.2 ⟨fun hempty => hgiven (String.isEmpty_iff.1 hempty), hother⟩)

/-- A mismatch names the namespaces. -/
theorem elsewhere_of_namespaceMismatch? {e : Failure} (h : namespaceMismatch? c r = some e) :
    ∃ wanted, c.spec.deployNamespace = some wanted ∧ wanted ≠ "" ∧ wanted ≠ r.namespace ∧
      e = .namespaceMismatch c.name r.namespace wanted := by
  unfold namespaceMismatch? at h
  split at h
  · cases h
  · next wanted hwanted =>
    split at h
    · cases h
    · next hneither =>
      cases h
      obtain ⟨hgiven, hother⟩ := not_or.1 hneither
      exact ⟨wanted, hwanted, fun hempty => hgiven (String.isEmpty_iff.2 hempty), hother, rfl⟩

theorem requestedVersion_of_given (h : c.spec.version ≠ "") : requestedVersion c r = c.spec.version :=
  if_neg fun hempty => h (String.isEmpty_iff.1 hempty)

theorem requestedVersion_of_empty (h : c.spec.version = "") : requestedVersion c r = r.appVersion :=
  if_pos (String.isEmpty_iff.2 h)

end Reading

section Verdict

variable {c : Component} {r : Release} {installed requested : Version} {e : Failure}

theorem verdict_of_installedUnreadable (h : readVersion r.appVersion = .error e) :
    verdict c r = .error (.evaluation c.name e) := by
  unfold verdict
  rw [h]
  rfl

theorem verdict_of_requestedUnreadable (hinstalled : readVersion r.appVersion = .ok installed)
    (h : readVersion (requestedVersion c r) = .error e) :
    verdict c r = .error (.evaluation c.name e) := by
  unfold verdict
  rw [hinstalled, h]
  rfl

theorem verdict_of_elsewhere (hinstalled : readVersion r.appVersion = .ok installed)
    (hrequested : readVersion (requestedVersion c r) = .ok requested) (h : namespaceMismatch? c r = some e) :
    verdict c r = .error e := by
  unfold verdict
  rw [hinstalled, hrequested, h]
  rfl

/-- Where the versions decide, the verdict goes by their order. -/
theorem verdict_of_comparable (h : Comparable c r installed requested) :
    verdict c r = .ok (match requested.order installed with
      | .lt => some (.downgrade r.appVersion (requestedVersion c r))
      | .gt => some .upgrade
      | .eq => none) := by
  unfold verdict
  rw [h.installed, h.requested, namespaceMismatch?_eq_none_iff.2 h.space]
  simp only [Errand.mapError_ok, bind, Except.bind]
  cases requested.order installed <;> rfl

end Verdict

section Table

variable {replies : Replies} {c : Component} {chart : ChartSpec} {r : Release}
  {calls : List Call} {res : Except Failure Operation}

open Errand

/-- What remains to be done once the release of the component is known. -/
def compareRelease (c : Component) (chart : ChartSpec) (r : Release) : Errand Operation := do
  match ← (verdict c r : Except Failure (Option Operation)) with
  | some op => return op
  | none =>
    let deployed ← (ask (.releaseValues r)).mapFailure (.evaluation c.name)
    let desired ← (ask (.specValues chart)).mapFailure (.evaluation c.name)
    return if Values.same deployed desired then .ignore else .upgrade

theorem compares_of_comes (h : Comes replies (compareRelease c chart r) calls res) :
    Compares replies c chart r calls res := by
  unfold compareRelease at h
  cases hinstalled : readVersion r.appVersion with
  | error e =>
    obtain ⟨rfl, rfl⟩ := (comes_lift_bind_error (verdict_of_installedUnreadable hinstalled)).1 h
    obtain ⟨reason, rfl⟩ := versionParse_of_readVersion hinstalled
    exact .installedUnreadable hinstalled
  | ok installed =>
  cases hrequested : readVersion (requestedVersion c r) with
  | error e =>
    obtain ⟨rfl, rfl⟩ := (comes_lift_bind_error (verdict_of_requestedUnreadable hinstalled hrequested)).1 h
    obtain ⟨reason, rfl⟩ := versionParse_of_readVersion hrequested
    -- The version of the release was read, so it is the component that gives the other one.
    have hgiven : c.spec.version ≠ "" := by
      intro hempty
      rw [requestedVersion_of_empty hempty, hinstalled] at hrequested
      cases hrequested
    rw [requestedVersion_of_given hgiven] at hrequested ⊢
    exact .requestedUnreadable hinstalled hgiven hrequested
  | ok requested =>
  cases hmismatch : namespaceMismatch? c r with
  | some e =>
    obtain ⟨rfl, rfl⟩ := (comes_lift_bind_error (verdict_of_elsewhere hinstalled hrequested hmismatch)).1 h
    obtain ⟨wanted, hwanted, hgiven, hother, rfl⟩ := elsewhere_of_namespaceMismatch? hmismatch
    exact .elsewhere hinstalled hrequested hwanted hgiven hother
  | none =>
  have hread : Comparable c r installed requested :=
    ⟨hinstalled, hrequested, namespaceMismatch?_eq_none_iff.1 hmismatch⟩
  rw [comes_lift_bind_ok (verdict_of_comparable hread)] at h
  cases horder : requested.order installed with
  | lt =>
    rw [horder] at h
    obtain ⟨rfl, rfl⟩ := comes_pure_iff.1 h
    exact .older hread horder
  | gt =>
    rw [horder] at h
    obtain ⟨rfl, rfl⟩ := comes_pure_iff.1 h
    exact .newer hread horder
  | eq =>
    rw [horder] at h
    rcases comes_ask_bind_iff.1 h with ⟨e, hdeployed, rfl, rfl⟩ | ⟨deployed, rest₁, hdeployed, rfl, hrest₁⟩
    · exact .deployedUnread hread horder hdeployed
    rcases comes_ask_bind_iff.1 hrest₁ with ⟨e, hdesired, rfl, rfl⟩ | ⟨desired, rest₂, hdesired, rfl, hrest₂⟩
    · exact .desiredUnread hread horder hdeployed hdesired
    obtain ⟨rfl, rfl⟩ := comes_pure_iff.1 hrest₂
    cases hsame : Values.same deployed desired with
    | true => exact .unchanged hread horder hdeployed hdesired hsame
    | false => exact .changed hread horder hdeployed hdesired hsame

theorem comes_of_compares (h : Compares replies c chart r calls res) :
    Comes replies (compareRelease c chart r) calls res := by
  unfold compareRelease
  cases h with
  | installedUnreadable hinstalled =>
    exact (comes_lift_bind_error (verdict_of_installedUnreadable hinstalled)).2 ⟨rfl, rfl⟩
  | requestedUnreadable hinstalled hgiven hrequested =>
    rw [← requestedVersion_of_given (r := r) hgiven] at hrequested ⊢
    exact (comes_lift_bind_error (verdict_of_requestedUnreadable hinstalled hrequested)).2 ⟨rfl, rfl⟩
  | elsewhere hinstalled hrequested hwanted hgiven hother =>
    refine (comes_lift_bind_error (verdict_of_elsewhere hinstalled hrequested ?_)).2 ⟨rfl, rfl⟩
    exact namespaceMismatch?_of_elsewhere hwanted hgiven hother
  | older hread horder =>
    rw [comes_lift_bind_ok (verdict_of_comparable hread), horder]
    exact comes_pure_iff.2 ⟨rfl, rfl⟩
  | newer hread horder =>
    rw [comes_lift_bind_ok (verdict_of_comparable hread), horder]
    exact comes_pure_iff.2 ⟨rfl, rfl⟩
  | deployedUnread hread horder hdeployed =>
    rw [comes_lift_bind_ok (verdict_of_comparable hread), horder]
    exact comes_ask_bind_iff.2 (.inl ⟨_, hdeployed, rfl, rfl⟩)
  | desiredUnread hread horder hdeployed hdesired =>
    rw [comes_lift_bind_ok (verdict_of_comparable hread), horder]
    refine comes_ask_bind_iff.2 (.inr ⟨_, _, hdeployed, rfl, ?_⟩)
    exact comes_ask_bind_iff.2 (.inl ⟨_, hdesired, rfl, rfl⟩)
  | unchanged hread horder hdeployed hdesired hsame =>
    rw [comes_lift_bind_ok (verdict_of_comparable hread), horder]
    refine comes_ask_bind_iff.2 (.inr ⟨_, _, hdeployed, rfl, ?_⟩)
    refine comes_ask_bind_iff.2 (.inr ⟨_, _, hdesired, rfl, ?_⟩)
    exact comes_pure_iff.2 ⟨rfl, by rw [hsame]; rfl⟩
  | changed hread horder hdeployed hdesired hdiffers =>
    rw [comes_lift_bind_ok (verdict_of_comparable hread), horder]
    refine comes_ask_bind_iff.2 (.inr ⟨_, _, hdeployed, rfl, ?_⟩)
    refine comes_ask_bind_iff.2 (.inr ⟨_, _, hdesired, rfl, ?_⟩)
    exact comes_pure_iff.2 ⟨rfl, by rw [hdiffers]; rfl⟩

theorem requiredOperation_of_inFlight (h : c.lifecycle.isInFlight = true) :
    requiredOperation c chart = pure .ignore :=
  if_pos h

theorem requiredOperation_of_deleted (hidle : c.lifecycle.isInFlight = false) (h : c.isBeingDeleted = true) :
    requiredOperation c chart = pure .delete :=
  (if_neg (Bool.eq_false_iff.1 hidle)).trans (if_pos h)

theorem requiredOperation_of_tried (halive : c.isBeingDeleted = false) (h : c.lifecycle = .tryToInstall) :
    requiredOperation c chart = pure .install := by
  have hidle : ¬ c.lifecycle.isInFlight = true := by rw [h]; nofun
  exact (if_neg hidle).trans ((if_neg (Bool.eq_false_iff.1 halive)).trans (if_pos h))

/-- The choice for a component that nothing settles beforehand. -/
theorem requiredOperation_of_undecided (h : Undecided c) :
    requiredOperation c chart = (do
      let releases ← (ask .listReleases).mapFailure (.evaluation c.name)
      match releaseOf? c releases with
      | none => return .install
      | some r => compareRelease c chart r) := by
  unfold requiredOperation compareRelease
  refine (if_neg (Bool.eq_false_iff.1 h.idle)).trans ?_
  exact (if_neg (Bool.eq_false_iff.1 h.alive)).trans (if_neg h.tried)

theorem decides_of_comes (h : Comes replies (requiredOperation c chart) calls res) :
    Decides replies c chart calls res := by
  by_cases hflight : c.lifecycle.isInFlight = true
  · rw [requiredOperation_of_inFlight hflight] at h
    obtain ⟨rfl, rfl⟩ := comes_pure_iff.1 h
    exact .inFlight hflight
  have hidle : c.lifecycle.isInFlight = false := Bool.eq_false_iff.2 hflight
  by_cases hdeleted : c.isBeingDeleted = true
  · rw [requiredOperation_of_deleted hidle hdeleted] at h
    obtain ⟨rfl, rfl⟩ := comes_pure_iff.1 h
    exact .deleted hidle hdeleted
  have halive : c.isBeingDeleted = false := Bool.eq_false_iff.2 hdeleted
  by_cases htried : c.lifecycle = .tryToInstall
  · rw [requiredOperation_of_tried halive htried] at h
    obtain ⟨rfl, rfl⟩ := comes_pure_iff.1 h
    exact .again halive htried
  have hopen : Undecided c := ⟨hidle, halive, htried⟩
  rw [requiredOperation_of_undecided hopen] at h
  rcases comes_ask_bind_iff.1 h with ⟨e, hlisted, rfl, rfl⟩ | ⟨rs, rest, hlisted, rfl, hrest⟩
  · exact .unlisted hopen hlisted
  cases hfound : releaseOf? c rs with
  | none =>
    rw [hfound] at hrest
    obtain ⟨rfl, rfl⟩ := comes_pure_iff.1 hrest
    exact .absent hopen hlisted (releaseOf?_eq_none_iff.1 hfound)
  | some r =>
    rw [hfound] at hrest
    exact .found hopen hlisted (releaseOf?_eq_some_iff.1 hfound) (compares_of_comes hrest)

theorem comes_of_decides (h : Decides replies c chart calls res) :
    Comes replies (requiredOperation c chart) calls res := by
  cases h with
  | inFlight hflight =>
    rw [requiredOperation_of_inFlight hflight]
    exact comes_pure_iff.2 ⟨rfl, rfl⟩
  | deleted hidle hdeleted =>
    rw [requiredOperation_of_deleted hidle hdeleted]
    exact comes_pure_iff.2 ⟨rfl, rfl⟩
  | again halive htried =>
    rw [requiredOperation_of_tried halive htried]
    exact comes_pure_iff.2 ⟨rfl, rfl⟩
  | unlisted hopen hlisted =>
    rw [requiredOperation_of_undecided hopen]
    exact comes_ask_bind_iff.2 (.inl ⟨_, hlisted, rfl, rfl⟩)
  | absent hopen hlisted habsent =>
    rw [requiredOperation_of_undecided hopen]
    refine comes_ask_bind_iff.2 (.inr ⟨_, _, hlisted, rfl, ?_⟩)
    rw [releaseOf?_eq_none_iff.2 habsent]
    exact comes_pure_iff.2 ⟨rfl, rfl⟩
  | found hopen hlisted hfirst hcompares =>
    rw [requiredOperation_of_undecided hopen]
    refine comes_ask_bind_iff.2 (.inr ⟨_, _, hlisted, rfl, ?_⟩)
    rw [releaseOf?_eq_some_iff.2 hfirst]
    exact comes_of_compares hcompares

/-- The choice of an operation makes calls, and does nothing else. -/
theorem onlyCalls_requiredOperation (c : Component) (chart : ChartSpec) :
    OnlyCalls (requiredOperation c chart) := by
  unfold requiredOperation
  split
  · trivial
  split
  · trivial
  split
  · trivial
  refine onlyCalls_bind (onlyCalls_askIn _ _) fun releases => ?_
  split
  · trivial
  next r _ =>
  generalize verdict c r = o
  refine onlyCalls_bind (show OnlyCalls (liftM o : Errand _) from trivial) fun o => ?_
  split
  · trivial
  refine onlyCalls_bind (onlyCalls_askIn _ _) fun deployed => ?_
  exact onlyCalls_bind (onlyCalls_askIn _ _) fun desired => trivial

/-- A choice that a run has made is that of the table, by what the calls of the run were answered. -/
theorem decides_of_run {w w' : World} (hrun : w.run (requiredOperation c chart).run = (.finished res, w')) :
    Decides (Said (w.moments (requiredOperation c chart).run)) c chart
      ((w.moments (requiredOperation c chart).run).map Moment.call) res :=
  decides_of_comes ((onlyCalls_requiredOperation c chart).comes_of_run hrun)

/-- Without faults the choice is that of the table, by what the stores answer. -/
theorem decides_of_faultFree {w : World} (hfree : w.FaultFree) (c : Component) (chart : ChartSpec) :
    ∃ calls res, (w.run (requiredOperation c chart).run).1 = .finished res ∧
      Decides w.Served c chart calls res := by
  obtain ⟨calls, res, hrun, hcomes, -⟩ := World.comes_of_faultFree hfree (onlyCalls_requiredOperation c chart)
    (inquires_requiredOperation c chart)
  exact ⟨calls, res, hrun, decides_of_comes hcomes⟩

/-- Whatever a chart client answers, exactly one row of the table applies, and the choice of an operation makes
the calls of that row and ends as it says. Values of which all objects are maps are the same in the table if and only
if they are equal as maps: every name has equal values in both, or none in either. -/
theorem requiredOperation_decided (c : Component) (chart : ChartSpec) :
    (∀ client : (d : Call) → d.Answer,
      ∃! row : List Call × Except Failure Operation, Decides (Answers client) c chart row.1 row.2) ∧
    (∀ (replies : Replies) (calls : List Call) (res : Except Failure Operation),
      Comes replies (requiredOperation c chart) calls res ↔ Decides replies c chart calls res) ∧
    ∀ deployed desired : Values, (Json.fields deployed).Mapped → (Json.fields desired).Mapped →
      (Values.same deployed desired = true ↔
        ∀ name, Option.Rel Json.Equal (Json.lookup name deployed) (Json.lookup name desired)) := by
  refine ⟨fun client => ?_, fun replies calls res => ⟨decides_of_comes, comes_of_decides⟩,
    fun _ _ => Values.same_iff_equal⟩
  obtain ⟨calls, res, hcomes⟩ := (onlyCalls_requiredOperation c chart).exists_comes client
  refine ⟨(calls, res), decides_of_comes hcomes, ?_⟩
  rintro ⟨calls', res'⟩ hrow
  obtain ⟨rfl, rfl⟩ := (comes_of_decides hrow).unique (fun _ _ _ hx hy => hx.symm.trans hy) hcomes
  rfl

/-- A chart client of one release, which knows the values of the release and those of the spec. -/
def valuesClient (r : Release) (deployed desired : Values) : (d : Call) → d.Answer
  | .listReleases => .ok [r]
  | .releaseValues _ => .ok deployed
  | .specValues _ => .ok desired
  | _ => .error (.internal "not asked")

/-- A release in the version that its component asks for: it is left alone with the values of the spec, and upgraded
with others. -/
theorem requiredOperation_decided_values :
    let c := sampleComponent "0.1.0" .installed []
    let chart := ChartSpec.forComponent c "oci://registry.cloudogu.com" (.ofSeconds 300)
    let r := sampleRelease "ecosystem" "0.1.0"
    let two : Values := [("host", .string "dogu"), ("replicas", .nat 2)]
    let three : Values := [("host", .string "dogu"), ("replicas", .nat 3)]
    let calls : List Call := [.listReleases, .releaseValues r, .specValues chart]
    (Json.fields two).Mapped ∧ (Json.fields three).Mapped ∧
      Comes (Answers (valuesClient r two two)) (requiredOperation c chart) calls (.ok .ignore) ∧
      Comes (Answers (valuesClient r two three)) (requiredOperation c chart) calls (.ok .upgrade) := by
  intro c chart r two three calls
  have htwo : (Json.fields two).Mapped := ⟨.fields two, rfl⟩
  have hthree : (Json.fields three).Mapped := ⟨.fields three, rfl⟩
  have hversion : readVersion "0.1.0" = .ok ⟨0, 1, 0, [], []⟩ := rfl
  have hcomparable : Comparable c r ⟨0, 1, 0, [], []⟩ ⟨0, 1, 0, [], []⟩ := ⟨hversion, hversion, nofun⟩
  have hopen : Undecided c := ⟨rfl, rfl, nofun⟩
  have hfirst : FirstNamed c.spec.name [r] r := ⟨rfl, [], [], rfl, nofun⟩
  obtain ⟨-, hcomes, hsame⟩ := requiredOperation_decided c chart
  have hequal : Values.same two two = true := by
    refine (hsame two two htwo htwo).2 fun name => ?_
    simp only [two, Values.lookup_cons, Json.lookup_nil]
    split
    · exact .some (.string "dogu")
    · split
      · exact .some (.int 2)
      · exact .none
  have hdiffers : Values.same two three = false := by
    refine Bool.eq_false_iff.2 fun h => ?_
    have hreplicas : Option.Rel Json.Equal (some (.nat 2)) (some (.nat 3)) := (hsame two three htwo hthree).1 h "replicas"
    cases hreplicas with
    | some hnumber => cases hnumber
  refine ⟨htwo, hthree, (hcomes _ _ _).2 (.found hopen rfl hfirst ?_), (hcomes _ _ _).2 (.found hopen rfl hfirst ?_)⟩
  · exact .unchanged hcomparable (by decide) rfl rfl hequal
  · exact .changed hcomparable (by decide) rfl rfl hdiffers

end Table

end ChartOperator
