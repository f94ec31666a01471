import ChartOperator.Chart.Dependencies
import ChartOperator.Proofs.Lifecycle.Choice
import Mathlib.Data.List.Forall2
import Mathlib.Data.String.Basic

set_option autoImplicit false

/-!
# Dependencies of charts

The annotations of a chart declare on which components it depends, and what their versions have to be. `Meets`
says when a deployed release meets such a dependency, and `Unmet` why none does, with the text that says so. Both
go by the text of the release's version itself: leading `v`s do not belong to the version (`Unmarked`).

`checkDependencies_decided` says of every chart how the check ends: well if every dependency is met, else with the
first requirement that cannot be read, and if there is none, with one reason for each dependency that is not met.
The reasons stand in the order of the annotations, which is that of their keys. Nothing else counts.
-/

namespace ChartOperator

/-! ## What is declared, and what meets it -/

/-- The components on which a chart depends, with the requirements on their versions. -/
def declared (annotations : List (String × String)) : List (String × String) :=
  annotations.filterMap fun a => (dependencyOf? a.1).map fun d => (d, a.2)

/-- The requirement can be read. -/
def Readable (wanted : String) : Prop := ∃ requirement, Requirement.read wanted = .ok requirement

/-- What is written, behind any number of leading `v`s: a text that begins with no other one. -/
def Unmarked (written text : String) : Prop :=
  (∃ n, written.toList = List.replicate n 'v' ++ text.toList) ∧ text.toList.head? ≠ some 'v'

/-- The first release with the name has a version that satisfies the requirement. -/
def Meets (releases : List Release) (d wanted : String) : Prop :=
  ∃ requirement r text v, Requirement.read wanted = .ok requirement ∧ FirstNamed d releases r ∧
    Unmarked r.appVersion text ∧ Version.read text = .ok v ∧ requirement.holds v = true

/-- Why a dependency is not met: each cause with its text. -/
inductive Unmet (releases : List Release) (d wanted : String) : String → Prop
  | notInstalled (hread : Readable wanted) (hmissing : ∀ r ∈ releases, r.name ≠ d) :
    Unmet releases d wanted (d ++ " is not installed")
  | unreadable {r : Release} {text : String} {e : VersionError} (hread : Readable wanted)
    (hfirst : FirstNamed d releases r) (htext : Unmarked r.appVersion text) (hversion : Version.read text = .error e) :
    Unmet releases d wanted (d ++ " has unparsable version " ++ Text.quote text ++ ": " ++ e.message)
  | unsatisfied {requirement : Requirement} {r : Release} {text : String} {v : Version}
    (hread : Requirement.read wanted = .ok requirement) (hfirst : FirstNamed d releases r)
    (htext : Unmarked r.appVersion text) (hversion : Version.read text = .ok v)
    (hfails : requirement.holds v = false) :
    Unmet releases d wanted (d ++ " is installed in version " ++ v.text ++ ", requires " ++ requirement.text)

section

variable {chart d wanted key : String} {annotations annotations' : List (String × String)}
  {releases releases' : List Release} {requirement : Requirement} {r : Release}

theorem dependencyOf?_eq_some_iff : dependencyOf? key = some d ↔ key = dependencyPrefix ++ d := by
  unfold dependencyOf?
  constructor
  · intro h
    split at h
    · next hprefix =>
      obtain ⟨rest, hrest⟩ := List.isPrefixOf_iff_prefix.1 hprefix
      cases h
      rw [← String.toList_inj, ← hrest]
      simp [String.toList_append]
    · cases h
  · rintro rfl
    rw [if_pos (by simp [String.toList_append])]
    simp [String.toList_append]

theorem mem_declared : (d, wanted) ∈ declared annotations ↔ (dependencyPrefix ++ d, wanted) ∈ annotations := by
  unfold declared
  rw [List.mem_filterMap]
  constructor
  · rintro ⟨⟨key, text⟩, hmem, hfound⟩
    obtain ⟨d', hd', hpair⟩ := Option.map_eq_some_iff.1 hfound
    obtain ⟨rfl, rfl⟩ := Prod.mk.inj hpair
    exact dependencyOf?_eq_some_iff.1 hd' ▸ hmem
  · intro hmem
    exact ⟨_, hmem, Option.map_eq_some_iff.2 ⟨d, dependencyOf?_eq_some_iff.2 rfl, rfl⟩⟩

theorem declared_cons (key wanted : String) (annotations : List (String × String)) :
    declared ((key, wanted) :: annotations) =
      match dependencyOf? key with
      | none => declared annotations
      | some d => (d, wanted) :: declared annotations := by
  cases h : dependencyOf? key <;> simp [declared, h]

theorem dependencyPrefix_append_lt_iff {d d' : String} :
    dependencyPrefix ++ d < dependencyPrefix ++ d' ↔ d < d' := by
  have hprefix : ∀ cs ds es : List Char, cs ++ ds < cs ++ es ↔ ds < es := by
    intro cs ds es
    induction cs with
    | nil => rfl
    | cons c cs ih => simp [ih]
  rw [String.lt_iff_toList_lt, String.lt_iff_toList_lt, String.toList_append, String.toList_append, hprefix]

/-- The dependencies stand in the order of their keys, each once. -/
theorem declared_ascending (h : annotations.Pairwise (·.1 < ·.1)) : (declared annotations).Pairwise (·.1 < ·.1) := by
  refine h.filterMap _ fun a b hab dep hdep dep' hdep' => ?_
  obtain ⟨d, hd, rfl⟩ := Option.map_eq_some_iff.1 hdep
  obtain ⟨d', hd', rfl⟩ := Option.map_eq_some_iff.1 hdep'
  rw [dependencyOf?_eq_some_iff.1 hd, dependencyOf?_eq_some_iff.1 hd'] at hab
  exact dependencyPrefix_append_lt_iff.1 hab

/-! ## One dependency -/

/-- There is one text behind the leading `v`s of a release's version, and it is the one that is compared. -/
theorem unmarked_iff {text : String} : Unmarked r.appVersion text ↔ text = deployedVersion r := by
  unfold Unmarked deployedVersion
  constructor
  · rintro ⟨⟨n, hwritten⟩, hhead⟩
    have hmarks : ∀ c ∈ List.replicate n 'v', (c == 'v') = true := by simp
    have hstop : text.toList.dropWhile (· == 'v') = text.toList := by
      cases hcs : text.toList with
      | nil => rfl
      | cons c cs =>
        rw [hcs] at hhead
        exact List.dropWhile_cons_of_neg (by simpa using hhead)
    rw [hwritten, List.dropWhile_append_of_pos hmarks, hstop, String.ofList_toList]
  · rintro rfl
    rw [String.toList_ofList]
    constructor
    · have hmarks := List.eq_replicate_of_mem (l := r.appVersion.toList.takeWhile (· == 'v')) (a := 'v')
        fun c hc => eq_of_beq (List.all_eq_true.1 List.all_takeWhile c hc)
      exact ⟨_, by rw [← hmarks, List.takeWhile_append_dropWhile]⟩
    · intro hhead
      have hnot := List.head?_dropWhile_not (· == 'v') r.appVersion.toList
      rw [hhead] at hnot
      cases hnot

theorem unmet?_eq_none_iff (hread : Requirement.read wanted = .ok requirement) :
    unmet? d requirement releases = none ↔ Meets releases d wanted := by
  unfold unmet?
  constructor
  · intro h
    split at h
    · cases h
    · next r hfirst =>
      dsimp only at h
      split at h
      · cases h
      · next v hversion =>
        split at h
        · next hholds =>
          exact ⟨requirement, r, _, v, hread, find?_name_eq_some_iff.1 hfirst, unmarked_iff.2 rfl, hversion, hholds⟩
        · cases h
  · rintro ⟨requirement', r, text, v, hread', hfirst, htext, hversion, hholds⟩
    obtain rfl : requirement = requirement' := Except.ok.inj (hread.symm.trans hread')
    obtain rfl := unmarked_iff.1 htext
    simp only [find?_name_eq_some_iff.2 hfirst, hversion, hholds, if_true]

/-- There is one text that says why a dependency is not met. -/
theorem unmet?_eq_some_iff {text : String} (hread : Requirement.read wanted = .ok requirement) :
    unmet? d requirement releases = some text ↔ Unmet releases d wanted text := by
  constructor
  · intro h
    unfold unmet? at h
    split at h
    · next hmissing =>
      cases h
      exact .notInstalled ⟨_, hread⟩ (by simpa using hmissing)
    · next r hfirst =>
      have hfirst := find?_name_eq_some_iff.1 hfirst
      dsimp only at h
      split at h
      · next e hversion =>
        cases h
        exact .unreadable ⟨_, hread⟩ hfirst (unmarked_iff.2 rfl) hversion
      · next v hversion =>
        split at h
        · cases h
        · next hfails =>
          cases h
          exact .unsatisfied hread hfirst (unmarked_iff.2 rfl) hversion (Bool.eq_false_iff.2 hfails)
  · intro h
    cases h with
    | notInstalled _ hmissing =>
      have hnone : releases.find? (·.name == d) = none := by simpa using hmissing
      simp only [unmet?, hnone]
    | unreadable _ hfirst htext hversion =>
      obtain rfl := unmarked_iff.1 htext
      simp only [unmet?, find?_name_eq_some_iff.2 hfirst, hversion]
    | @unsatisfied requirement' _ _ _ hread' hfirst htext hversion hfails =>
      obtain rfl : requirement = requirement' := Except.ok.inj (hread.symm.trans hread')
      obtain rfl := unmarked_iff.1 htext
      simp only [unmet?, find?_name_eq_some_iff.2 hfirst, hversion, hfails]
      rfl

/-- Only the releases with the name of a dependency count for it. -/
theorem unmet?_congr (h : releases'.filter (·.name == d) = releases.filter (·.name == d)) :
    unmet? d requirement releases' = unmet? d requirement releases := by
  have hfind : ∀ rs : List Release, rs.find? (·.name == d) = (rs.filter (·.name == d)).find? (·.name == d) := by
    intro rs
    rw [List.find?_filter]
    exact congrArg (List.find? · rs) (funext fun r => Bool.eq_iff_iff.2 (by simp))
  simp only [unmet?, hfind releases', hfind releases, h]

/-! ## The reasons -/

/-- Annotations that declare nothing are passed over. -/
theorem unmetReasons_declared (chart : String) (releases : List Release) (annotations : List (String × String)) :
    unmetReasons chart releases annotations =
      unmetReasons chart releases ((declared annotations).map fun dep => (dependencyPrefix ++ dep.1, dep.2)) := by
  induction annotations with
  | nil => rfl
  | cons a annotations ih =>
    obtain ⟨key, wanted⟩ := a
    rw [declared_cons]
    cases hdep : dependencyOf? key with
    | none => simpa only [unmetReasons, hdep] using ih
    | some d =>
      have hself : dependencyOf? (dependencyPrefix ++ d) = some d := dependencyOf?_eq_some_iff.2 rfl
      simp only [List.map_cons, unmetReasons, hdep, hself, ih]

theorem unmetReasons_releases_congr (hreleases : ∀ dep ∈ declared annotations,
    releases'.filter (·.name == dep.1) = releases.filter (·.name == dep.1)) :
    unmetReasons chart releases' annotations = unmetReasons chart releases annotations := by
  induction annotations with
  | nil => rfl
  | cons a annotations ih =>
    obtain ⟨key, wanted⟩ := a
    rw [declared_cons] at hreleases
    cases hdep : dependencyOf? key with
    | none =>
      rw [hdep] at hreleases
      simpa only [unmetReasons, hdep] using ih hreleases
    | some d =>
      rw [hdep] at hreleases
      obtain ⟨hd, hrest⟩ := List.forall_mem_cons.1 hreleases
      simp only [unmetReasons, hdep, ih hrest, unmet?_congr hd]

/-- Only what is declared counts, and of the releases those that are named there. -/
theorem checkDependencies_congr (hdeclared : declared annotations' = declared annotations)
    (hreleases : ∀ dep ∈ declared annotations,
      releases'.filter (·.name == dep.1) = releases.filter (·.name == dep.1)) :
    checkDependencies chart annotations' releases' = checkDependencies chart annotations releases := by
  have hreasons : unmetReasons chart releases' annotations' = unmetReasons chart releases annotations := by
    rw [unmetReasons_declared, hdeclared, ← unmetReasons_declared, unmetReasons_releases_congr hreleases]
  rw [checkDependencies, checkDependencies, hreasons]

/-- The first requirement that cannot be read ends the search. -/
theorem unmetReasons_of_unreadable {before after : List (String × String)} {e : VersionError}
    (hdeclared : declared annotations = before ++ (d, wanted) :: after) (hbefore : ∀ dep ∈ before, Readable dep.2)
    (hread : Requirement.read wanted = .error e) :
    unmetReasons chart releases annotations = .error (.unsatisfiedDependencies chart
      ("invalid requirement " ++ Text.quote wanted ++ " for " ++ d ++ ": " ++ e.message)) := by
  induction annotations generalizing before with
  | nil => simp [declared] at hdeclared
  | cons a annotations ih =>
    obtain ⟨key, text⟩ := a
    rw [declared_cons] at hdeclared
    cases hdep : dependencyOf? key with
    | none =>
      rw [hdep] at hdeclared
      simpa only [unmetReasons, hdep] using ih hdeclared hbefore
    | some d' =>
      simp only [hdep] at hdeclared
      cases before with
      | nil =>
        obtain ⟨hpair, -⟩ := List.cons.inj hdeclared
        obtain ⟨rfl, rfl⟩ := Prod.mk.inj hpair
        simp only [unmetReasons, hdep, hread]
      | cons dep before =>
        obtain ⟨rfl, hrest⟩ := List.cons.inj hdeclared
        obtain ⟨⟨requirement, hrequirement⟩, hbefore⟩ := List.forall_mem_cons.1 hbefore
        simp only [unmetReasons, hdep, hrequirement, ih hrest hbefore]
        rfl

open scoped Classical in
/-- If every requirement can be read, there is a reason for each dependency that is not met. -/
theorem exists_reasons (chart : String) (releases : List Release)
    (hread : ∀ dep ∈ declared annotations, Readable dep.2) :
    ∃ reasons, unmetReasons chart releases annotations = .ok reasons ∧
      List.Forall₂ (fun dep reason => Unmet releases dep.1 dep.2 reason)
        ((declared annotations).filter fun dep => ¬ Meets releases dep.1 dep.2) reasons := by
  induction annotations with
  | nil => exact ⟨[], rfl, .nil⟩
  | cons a annotations ih =>
    obtain ⟨key, wanted⟩ := a
    rw [declared_cons] at hread ⊢
    cases hdep : dependencyOf? key with
    | none =>
      rw [hdep] at hread
      simpa only [unmetReasons, hdep] using ih hread
    | some d =>
      rw [hdep] at hread
      obtain ⟨⟨requirement, hrequirement⟩, hrest⟩ := List.forall_mem_cons.1 hread
      obtain ⟨reasons, hreasons, hunmet⟩ := ih hrest
      have hall : unmetReasons chart releases ((key, wanted) :: annotations) =
          .ok ((unmet? d requirement releases).toList ++ reasons) := by
        simp only [unmetReasons, hdep, hrequirement, hreasons]
        rfl
      refine ⟨_, hall, ?_⟩
      cases hwhy : unmet? d requirement releases with
      | none =>
        have hmeets := (unmet?_eq_none_iff hrequirement).1 hwhy
        rw [List.filter_cons_of_neg (by simpa using hmeets)]
        exact hunmet
      | some text =>
        have hnot : ¬ Meets releases d wanted := by
          rw [← unmet?_eq_none_iff hrequirement, hwhy]
          nofun
        rw [List.filter_cons_of_pos (by simpa using hnot)]
        exact .cons ((unmet?_eq_some_iff hrequirement).1 hwhy) hunmet

open scoped Classical in
/-- If every requirement can be read, the check ends well unless there is a reason. -/
theorem checkDependencies_of_readable (chart : String) (releases : List Release)
    (hread : ∀ dep ∈ declared annotations, Readable dep.2) :
    ∃ reasons, checkDependencies chart annotations releases =
        (if reasons.isEmpty then .ok () else .error (.unsatisfiedDependencies chart (", ".intercalate reasons))) ∧
      List.Forall₂ (fun dep reason => Unmet releases dep.1 dep.2 reason)
        ((declared annotations).filter fun dep => ¬ Meets releases dep.1 dep.2) reasons := by
  obtain ⟨reasons, hreasons, hunmet⟩ := exists_reasons chart releases hread
  refine ⟨reasons, ?_, hunmet⟩
  rw [checkDependencies, hreasons]
  rfl

theorem checkDependencies_of_unreadable (chart : String) (releases : List Release)
    (hunread : ∃ dep ∈ declared annotations, ¬ Readable dep.2) :
    ∃ before d wanted after e, declared annotations = before ++ (d, wanted) :: after ∧
      (∀ dep ∈ before, Readable dep.2) ∧ Requirement.read wanted = .error e ∧
      checkDependencies chart annotations releases = .error (.unsatisfiedDependencies chart
        ("invalid requirement " ++ Text.quote wanted ++ " for " ++ d ++ ": " ++ e.message)) := by
  classical
  have hsome : ((declared annotations).find? fun dep => ¬ Readable dep.2).isSome = true := by
    simpa [List.find?_isSome] using hunread
  obtain ⟨⟨d, wanted⟩, hfirst⟩ := Option.isSome_iff_exists.1 hsome
  obtain ⟨hnot, before, after, hdeclared, hbefore⟩ := List.find?_eq_some_iff_append.1 hfirst
  obtain ⟨e, he⟩ : ∃ e, Requirement.read wanted = .error e := by
    cases hw : Requirement.read wanted with
    | error e => exact ⟨e, rfl⟩
    | ok requirement => exact (of_decide_eq_true hnot ⟨requirement, hw⟩).elim
  have hbefore : ∀ dep ∈ before, Readable dep.2 := fun dep hdep => by simpa using hbefore dep hdep
  refine ⟨before, d, wanted, after, e, hdeclared, hbefore, he, ?_⟩
  rw [checkDependencies, unmetReasons_of_unreadable hdeclared hbefore he]
  rfl

theorem checkDependencies_eq_ok_iff : checkDependencies chart annotations releases = .ok () ↔
    ∀ d wanted, (dependencyPrefix ++ d, wanted) ∈ annotations → Meets releases d wanted := by
  classical
  constructor
  · intro hok d wanted hmem
    by_cases hall : ∀ dep ∈ declared annotations, Readable dep.2
    · obtain ⟨reasons, hres, hunmet⟩ := checkDependencies_of_readable chart releases hall
      obtain rfl : reasons = [] := by
        by_contra hsome
        rw [hok, if_neg (by simpa using hsome)] at hres
        cases hres
      have hnone := List.filter_eq_nil_iff.1 (List.forall₂_nil_right_iff.1 hunmet) _ (mem_declared.2 hmem)
      simpa using hnone
    · obtain ⟨_, _, _, _, _, -, -, -, hres⟩ :=
        checkDependencies_of_unreadable chart releases (by simpa using hall)
      rw [hok] at hres
      cases hres
  · intro hmeets
    have hmet : ∀ dep ∈ declared annotations, Meets releases dep.1 dep.2 :=
      fun dep hdep => hmeets _ _ (mem_declared.1 hdep)
    have hread : ∀ dep ∈ declared annotations, Readable dep.2 := by
      intro dep hdep
      obtain ⟨requirement, -, -, -, hrequirement, -⟩ := hmet dep hdep
      exact ⟨requirement, hrequirement⟩
    obtain ⟨reasons, hres, hunmet⟩ := checkDependencies_of_readable chart releases hread
    rw [List.filter_eq_nil_iff.2 fun dep hdep => by simpa using hmet dep hdep] at hunmet
    rw [hres, List.forall₂_nil_left_iff.1 hunmet]
    rfl

open scoped Classical in
/-- How the check of dependencies ends. It ends well if and only if every dependency that is declared is met. Other
annotations do not count, nor do releases of other names. If it fails and every requirement can be read, it gives
one reason for each dependency that is not met, in the order of their keys. If a requirement cannot be read, it
names the first of these alone. -/
theorem checkDependencies_decided (chart : String) (annotations : List (String × String)) (releases : List Release) :
    (checkDependencies chart annotations releases = .ok () ↔
      ∀ d wanted, (dependencyPrefix ++ d, wanted) ∈ annotations → Meets releases d wanted) ∧
    (∀ annotations' releases', declared annotations' = declared annotations →
      (∀ dep ∈ declared annotations,
        releases'.filter (·.name == dep.1) = releases.filter (·.name == dep.1)) →
      checkDependencies chart annotations' releases' = checkDependencies chart annotations releases) ∧
    (annotations.Pairwise (·.1 < ·.1) → (declared annotations).Pairwise (·.1 < ·.1)) ∧
    ((∀ dep ∈ declared annotations, Readable dep.2) → checkDependencies chart annotations releases ≠ .ok () →
      ∃ reasons, checkDependencies chart annotations releases =
          .error (.unsatisfiedDependencies chart (", ".intercalate reasons)) ∧
        List.Forall₂ (fun dep reason => Unmet releases dep.1 dep.2 reason)
          ((declared annotations).filter fun dep => ¬ Meets releases dep.1 dep.2) reasons) ∧
    ((∃ dep ∈ declared annotations, ¬ Readable dep.2) →
      ∃ before d wanted after e, declared annotations = before ++ (d, wanted) :: after ∧
        (∀ dep ∈ before, Readable dep.2) ∧ Requirement.read wanted = .error e ∧
        checkDependencies chart annotations releases = .error (.unsatisfiedDependencies chart
          ("invalid requirement " ++ Text.quote wanted ++ " for " ++ d ++ ": " ++ e.message))) := by
  refine ⟨checkDependencies_eq_ok_iff, fun _ _ => checkDependencies_congr, declared_ascending,
    fun hall hfails => ?_, checkDependencies_of_unreadable chart releases⟩
  obtain ⟨reasons, hres, hunmet⟩ := checkDependencies_of_readable chart releases hall
  have hsome : ¬ reasons.isEmpty = true := fun hempty => hfails (hres.trans (if_pos hempty))
  exact ⟨reasons, hres.trans (if_neg hsome), hunmet⟩

end

/-- One dependency is met by a release that has its version behind a `v`, one is not installed, and one is too old. -/
theorem checkDependencies_decided_etcd :
    let annotations := [("k8s.cloudogu.com/ces-dependency/k8s-cert", "*"),
      ("k8s.cloudogu.com/ces-dependency/k8s-etcd", ">=3.5.0"), ("k8s.cloudogu.com/ces-dependency/k8s-registry", "^2"),
      ("maintainer", "ops")]
    let releases : List Release := [⟨"k8s-etcd", "ecosystem", "k8s-etcd", "3.4.1", "v3.4.1"⟩,
      ⟨"k8s-registry", "ecosystem", "k8s-registry", "2.8.1", "v2.8.1"⟩]
    ¬ Meets releases "k8s-cert" "*" ∧ ¬ Meets releases "k8s-etcd" ">=3.5.0" ∧ Meets releases "k8s-registry" "^2" ∧
    ∃ cert etcd, checkDependencies "k8s/dogu-op" annotations releases =
        .error (.unsatisfiedDependencies "k8s/dogu-op" (", ".intercalate [cert, etcd])) ∧
      cert = "k8s-cert is not installed" ∧ Unmet releases "k8s-cert" "*" cert ∧
      etcd = "k8s-etcd is installed in version 3.4.1, requires >=3.5.0" ∧ Unmet releases "k8s-etcd" ">=3.5.0" etcd := by
  intro annotations releases
  have hdeclared : declared annotations = [("k8s-cert", "*"), ("k8s-etcd", ">=3.5.0"), ("k8s-registry", "^2")] := by
    decide +kernel
  have hstar : Requirement.read "*" = .ok ⟨[]⟩ := rfl
  have hlower : Requirement.read ">=3.5.0" = .ok ⟨[⟨.greaterEq, 3, some 5, some 0, []⟩]⟩ := rfl
  have hcaret : Requirement.read "^2" = .ok ⟨[⟨.caret, 2, none, none, []⟩]⟩ := rfl
  have hcert : unmet? "k8s-cert" ⟨[]⟩ releases = some "k8s-cert is not installed" := by decide +kernel
  have hetcd : unmet? "k8s-etcd" ⟨[⟨.greaterEq, 3, some 5, some 0, []⟩]⟩ releases =
      some "k8s-etcd is installed in version 3.4.1, requires >=3.5.0" := by decide +kernel
  have hcert' : ¬ Meets releases "k8s-cert" "*" := by
    rw [← unmet?_eq_none_iff hstar, hcert]
    nofun
  have hetcd' : ¬ Meets releases "k8s-etcd" ">=3.5.0" := by
    rw [← unmet?_eq_none_iff hlower, hetcd]
    nofun
  have hregistry : Meets releases "k8s-registry" "^2" := (unmet?_eq_none_iff hcaret).1 (by decide +kernel)
  obtain ⟨hok, -, -, hreasons, -⟩ := checkDependencies_decided "k8s/dogu-op" annotations releases
  have hread : ∀ dep ∈ declared annotations, Readable dep.2 := by
    rw [hdeclared]
    simp only [List.forall_mem_cons, List.not_mem_nil, false_implies, implies_true, and_true]
    exact ⟨⟨_, hstar⟩, ⟨_, hlower⟩, ⟨_, hcaret⟩⟩
  have hfails := fun h => hcert' (hok.1 h "k8s-cert" "*" (.head _))
  obtain ⟨reasons, hresult, hunmet⟩ := hreasons hread hfails
  simp only [hdeclared, hcert', hetcd', hregistry, not_true_eq_false, not_false_eq_true, decide_true, decide_false,
    Bool.false_eq_true, List.filter_cons_of_pos, List.filter_cons_of_neg, List.filter_nil] at hunmet
  obtain ⟨cert, _, hwhy, hlater, rfl⟩ := List.forall₂_cons_left_iff.1 hunmet
  obtain ⟨etcd, _, hwhy', hnone, rfl⟩ := List.forall₂_cons_left_iff.1 hlater
  obtain rfl := List.forall₂_nil_left_iff.1 hnone
  have hsame := Option.some.inj (((unmet?_eq_some_iff hstar).2 hwhy).symm.trans hcert)
  have hsame' := Option.some.inj (((unmet?_eq_some_iff hlower).2 hwhy').symm.trans hetcd)
  exact ⟨hcert', hetcd', hregistry, cert, etcd, hresult, hsame, hwhy, hsame', hwhy'⟩

end ChartOperator
