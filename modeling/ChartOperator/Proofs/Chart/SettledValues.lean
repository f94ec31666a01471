import ChartOperator.Proofs.Chart.Overlays
import ChartOperator.Proofs.Json.Written
import ChartOperator.Proofs.Lifecycle.Choice
import ChartOperator.Proofs.World.Sample
import Mathlib.Data.List.TakeWhile

set_option autoImplicit false

/-!
# The values behind an order

An order installs or upgrades a release with the overlay of its spec. The next choice of an operation reads the
values of the release back and holds them against that overlay; the order has settled them (`Helm.Settled`) if they
are the same.

Helm is a program of its own. `Helm.Documented` is what is assumed of it: values that an order gives replace those
of the release, an order that gives none keeps them, and values are printed as JSON. A blank overlay is not given
to helm, so an order with one keeps the values that were there, and does not settle them unless there were none
(`Helm.settled_iff`): then the same operation is chosen again. An overlay that is a mapping is settled if the white
space around it means nothing.
-/

namespace ChartOperator.Helm

/-! ## What is documented of helm -/

/-- An option of an order to install or upgrade a release. -/
inductive UpgradeOption
  | space (name : String)
  | timeout (time : String)
  | atomic
  | createNamespace
  | version (version : String)
  /-- Values are read from a file, or from the input if it is a dash. -/
  | values (file : String)
  /-- The values that were given before are dropped. -/
  | resetValues
  deriving DecidableEq

/-- The namespace that an option names. -/
def UpgradeOption.space? : UpgradeOption → Option String
  | .space n => some n
  | _ => none

/-- The file of values that an option names. -/
def UpgradeOption.file? : UpgradeOption → Option String
  | .values f => some f
  | _ => none

/-- How an option is written. -/
def UpgradeOption.arguments : UpgradeOption → List String
  | .space n => ["--namespace", n]
  | .timeout t => ["--timeout", t]
  | .atomic => ["--atomic"]
  | .createNamespace => ["--create-namespace"]
  | .version v => ["--version", v]
  | .values f => ["--values", f]
  | .resetValues => ["--reset-values"]

/-- The options that are written so, if they are. -/
def options? : List String → Option (List UpgradeOption)
  | [] => some []
  | "--atomic" :: rest => (options? rest).map (.atomic :: ·)
  | "--create-namespace" :: rest => (options? rest).map (.createNamespace :: ·)
  | "--reset-values" :: rest => (options? rest).map (.resetValues :: ·)
  | "--namespace" :: n :: rest => (options? rest).map (.space n :: ·)
  | "--timeout" :: t :: rest => (options? rest).map (.timeout t :: ·)
  | "--version" :: v :: rest => (options? rest).map (.version v :: ·)
  | "--values" :: f :: rest => (options? rest).map (.values f :: ·)
  | _ => none

theorem options?_arguments (os : List UpgradeOption) :
    options? (os.flatMap UpgradeOption.arguments) = some os := by
  induction os with
  | nil => rfl
  | cons o os ih => cases o <;> simp [UpgradeOption.arguments, options?, ih]

/-- The invocation is an order to install or upgrade a release in a namespace, with these options. Of several
namespaces the last one counts. -/
structure Upgrades (i : Invocation) (name space : String) (os : List UpgradeOption) : Prop where
  arguments : ∃ chart rest, i.arguments = "upgrade" :: "--install" :: name :: chart :: rest ∧ options? rest = some os
  space : (os.filterMap UpgradeOption.space?).getLast? = some space

variable {σ : Type} {helm : Invocation → StateM σ Completion}
  {given : σ → String → String → Option (Option Values)} {st st' : σ} {s : ChartSpec} {r : Release}
  {old : Option Values} {os : List UpgradeOption}

/-- What is documented of helm, of which `given` shows for each deployed release, by its name and namespace, the
values that its user gave: none, if he gave none. -/
structure Documented (helm : Invocation → StateM σ Completion)
    (given : σ → String → String → Option (Option Values)) : Prop where
  /-- Values from the input, and from no other file, replace those that were given before. -/
  replaces : ∀ {i : Invocation} {name space : String} {os : List UpgradeOption} {text : String} {vs : Values}
    {old : Option Values} {st st' : σ} {output errors : List UInt8}, Upgrades i name space os →
    os.filterMap UpgradeOption.file? = ["-"] → i.input = some text → Yaml.read? text.toList = some (.fields vs) →
    given st name space = some old → (helm i).run st = (.exited 0 output errors, st') →
    given st' name space = some (some vs)
  /-- Without values, and unless they are reset, those that were given before are kept. -/
  keeps : ∀ {i : Invocation} {name space : String} {os : List UpgradeOption} {old : Option Values} {st st' : σ}
    {output errors : List UInt8}, Upgrades i name space os → os.filterMap UpgradeOption.file? = [] →
    .resetValues ∉ os → given st name space = some old → (helm i).run st = (.exited 0 output errors, st') →
    given st' name space = some old
  /-- The values that were given are printed as JSON, null if there are none. -/
  prints : ∀ {name space : String} {old : Option Values} {st : σ}, given st name space = some old →
    ∃ output errors st', (helm ⟨["get", "values", name, "--namespace", space, "-o", "json"], none⟩).run st =
        (.exited 0 output errors, st') ∧
      (Text.ofBytes? output).bind Json.read? = some (match old with
        | none => .null
        | some vs => .fields vs)

/-! ## An order and what is read back -/

/-- The options of the order that a spec makes. -/
def optionsOf (s : ChartSpec) : List UpgradeOption :=
  [.space s.namespace, .timeout (Text.decimal s.timeout.seconds ++ "s")] ++
  (if s.atomic then [.atomic] else []) ++
  (if s.createNamespace then [.createNamespace] else []) ++
  (if s.version.isEmpty then [] else [.version s.version]) ++
  (if (overlayInput s).isSome then [.values "-"] else [])

theorem spaces_optionsOf : (optionsOf s).filterMap UpgradeOption.space? = [s.namespace] := by
  simp only [optionsOf]
  split <;> split <;> split <;> split <;> rfl

theorem files_optionsOf : (optionsOf s).filterMap UpgradeOption.file? =
    if (overlayInput s).isSome then ["-"] else [] := by
  simp only [optionsOf]
  split <;> split <;> split <;> split <;> rfl

theorem upgrades_installOrUpgrade (s : ChartSpec) :
    Upgrades (installOrUpgrade s) s.releaseName s.namespace (optionsOf s) where
  arguments := by
    refine ⟨s.chartName, (optionsOf s).flatMap UpgradeOption.arguments, ?_, options?_arguments _⟩
    simp only [installOrUpgrade, optionsOf, versionArguments, List.flatMap_append]
    cases s.atomic <;> cases s.createNamespace <;> cases s.version.isEmpty <;> cases (overlayInput s).isSome <;> rfl
  space := by rw [spaces_optionsOf, List.getLast?_singleton]

theorem resetValues_not_mem_optionsOf : .resetValues ∉ optionsOf s := by
  simp only [optionsOf]
  split <;> split <;> split <;> split <;> simp

theorem run_of_holdsNull {i : Invocation} (h : i.holdsNull = true) :
    (run helm i).run.run st = (.error (.helmCommand i.command "nul byte found in provided data"), st) := by
  unfold run
  rw [h]
  rfl

theorem run_of_invoked {i : Invocation} (h : i.holdsNull = false) :
    (run helm i).run.run st = (((helm i).run st).1.result i.command, ((helm i).run st).2) := by
  unfold run
  rw [h]
  rfl

theorem exited_of_result {c : Completion} {command : String} {output : List UInt8}
    (h : c.result command = .ok output) : ∃ errors, c = .exited 0 output errors := by
  cases c with
  | notStarted => cases h
  | inputRefused => cases h
  | exited code output errors =>
    simp only [Completion.result] at h
    split at h
    · next hcode =>
      cases h
      exact ⟨errors, by rw [hcode]⟩
    · cases h

theorem run_applySpec : (applySpec helm s).run.run st =
    (((run helm (installOrUpgrade s)).run.run st).1.map fun _ => (),
      ((run helm (installOrUpgrade s)).run.run st).2) := by
  have hrun : (applySpec helm s).run = (·.map fun _ => ()) <$> (run helm (installOrUpgrade s)).run :=
    ExceptT.run_map _ _
  rw [hrun, StateT.run_map]
  rfl

/-- What an order that succeeded did: it invoked helm, which succeeded. -/
theorem exited_of_applySpec (h : (applySpec helm s).run.run st = (.ok (), st')) :
    (installOrUpgrade s).holdsNull = false ∧
      ∃ output errors, (helm (installOrUpgrade s)).run st = (.exited 0 output errors, st') := by
  obtain ⟨output, hrun⟩ : ∃ output, (run helm (installOrUpgrade s)).run.run st = (.ok output, st') := by
    rw [run_applySpec] at h
    obtain ⟨hok, rfl⟩ := Prod.mk.inj h
    cases hr : ((run helm (installOrUpgrade s)).run.run st).1 with
    | error e =>
      rw [hr] at hok
      cases hok
    | ok output => exact ⟨output, Prod.ext hr rfl⟩
  cases hnull : (installOrUpgrade s).holdsNull with
  | true =>
    rw [run_of_holdsNull hnull] at hrun
    cases hrun
  | false =>
    rw [run_of_invoked hnull] at hrun
    obtain ⟨hresult, rfl⟩ := Prod.mk.inj hrun
    obtain ⟨errors, hexited⟩ := exited_of_result hresult
    exact ⟨rfl, output, errors, Prod.ext hexited rfl⟩

theorem holdsNull_getValues (hname : r.name = s.releaseName) (hspace : r.namespace = s.namespace)
    (h : (installOrUpgrade s).holdsNull = false) : (getValues r).holdsNull = false := by
  have hall := List.any_eq_false.1 h
  have hrelease := hall s.releaseName (by simp [installOrUpgrade])
  have hwhere := hall s.namespace (by simp [installOrUpgrade])
  simp only [Invocation.holdsNull, getValues, hname, hspace, List.any_cons, List.any_nil, Bool.or_false,
    Bool.or_eq_false_iff]
  exact ⟨by decide, by decide, Bool.eq_false_iff.2 hrelease, by decide, Bool.eq_false_iff.2 hwhere, by decide, by decide⟩

/-! ## Whether an order settles the values -/

theorem same_nil_iff {vs : Values} : Values.same vs [] = true ↔ vs = [] := by
  cases vs with
  | nil => exact ⟨fun _ => rfl, fun _ => rfl⟩
  | cons e es => exact ⟨nofun, nofun⟩

/-- The values that are read back are those that the user gave, none if he gave none. -/
theorem releaseValues_of_given (hdoc : Documented helm given) (hgiven : given st r.name r.namespace = some old)
    (hnull : (getValues r).holdsNull = false) :
    ∃ st', (releaseValues helm r).run.run st = (.ok (old.getD []), st') := by
  obtain ⟨output, errors, st', hhelm, hread⟩ := hdoc.prints hgiven
  have hrun : (run helm (getValues r)).run.run st = (.ok output, st') := by
    rw [run_of_invoked hnull, getValues, hhelm]
    rfl
  have hvalues : readValues output = .ok (old.getD []) := by
    rw [readValues, hread]
    cases old <;> rfl
  refine ⟨st', ?_⟩
  rw [releaseValues, ExceptT.run_bind, StateT.run_bind, hrun]
  show (liftM (readValues output) : ExceptT Failure (StateM σ) Values).run.run st' = _
  rw [hvalues]
  rfl

/-- Orders of a spec, one or more, that helm carried out one after the other. -/
inductive Ordered (helm : Invocation → StateM σ Completion) (s : ChartSpec) : σ → σ → Prop
  | once {st st' : σ} (h : (applySpec helm s).run.run st = (.ok (), st')) : Ordered helm s st st'
  | again {st st' st'' : σ} (h : Ordered helm s st st') (hlast : (applySpec helm s).run.run st' = (.ok (), st'')) :
    Ordered helm s st st''

theorem Ordered.holdsNull (h : Ordered helm s st st') : (installOrUpgrade s).holdsNull = false := by
  cases h with
  | once hlast => exact (exited_of_applySpec hlast).1
  | again _ hlast => exact (exited_of_applySpec hlast).1

/-- An order with a blank overlay keeps the values, however often it is made. -/
theorem Ordered.given_of_blank (hdoc : Documented helm given) (hblank : overlayInput s = none)
    (h : Ordered helm s st st') (hgiven : given st s.releaseName s.namespace = some old) :
    given st' s.releaseName s.namespace = some old := by
  -- One order keeps them, so by induction all do.
  have hstep : ∀ {st st' : σ}, given st s.releaseName s.namespace = some old →
      (applySpec helm s).run.run st = (.ok (), st') → given st' s.releaseName s.namespace = some old := by
    intro st st' hgiven happlied
    obtain ⟨-, output, errors, hhelm⟩ := exited_of_applySpec happlied
    refine hdoc.keeps (upgrades_installOrUpgrade s) ?_ resetValues_not_mem_optionsOf hgiven hhelm
    rw [files_optionsOf, hblank]
    rfl
  induction h with
  | once happlied => exact hstep hgiven happlied
  | again _ hlast ih => exact hstep ih hlast

/-- An order with a mapping replaces the values by it. -/
theorem Ordered.given_of_mapping (hdoc : Documented helm given) {text : String} {vs : Values}
    (hinput : overlayInput s = some text) (hread : Yaml.read? text.toList = some (.fields vs))
    (h : Ordered helm s st st') (hgiven : given st s.releaseName s.namespace = some old) :
    given st' s.releaseName s.namespace = some (some vs) := by
  have hstep : ∀ {st st' : σ} {old : Option Values}, given st s.releaseName s.namespace = some old →
      (applySpec helm s).run.run st = (.ok (), st') → given st' s.releaseName s.namespace = some (some vs) := by
    intro st st' old hgiven happlied
    obtain ⟨-, output, errors, hhelm⟩ := exited_of_applySpec happlied
    have hfile : (optionsOf s).filterMap UpgradeOption.file? = ["-"] := by
      rw [files_optionsOf, hinput]
      rfl
    exact hdoc.replaces (upgrades_installOrUpgrade s) hfile hinput hread hgiven hhelm
  induction h with
  | once happlied => exact hstep hgiven happlied
  | again _ hlast ih => exact hstep ih hlast

/-- The values of the release are read back, and are those of the spec. -/
def Settled (helm : Invocation → StateM σ Completion) (s : ChartSpec) (r : Release) (st : σ) : Prop :=
  ∃ deployed desired st', (releaseValues helm r).run.run st = (.ok deployed, st') ∧
    Values.ofOverlay s.valuesOverlay = .ok desired ∧ Values.same deployed desired = true

theorem settled_iff_same {deployed : Values} (hread : (releaseValues helm r).run.run st = (.ok deployed, st')) :
    Settled helm s r st ↔
      ∃ desired, Values.ofOverlay s.valuesOverlay = .ok desired ∧ Values.same deployed desired = true := by
  constructor
  · rintro ⟨deployed', desired, st'', hread', hdesired, hsame⟩
    obtain ⟨rfl, -⟩ : deployed = deployed' ∧ st' = st'' := by
      rw [hread] at hread'
      cases hread'
      exact ⟨rfl, rfl⟩
    exact ⟨desired, hdesired, hsame⟩
  · rintro ⟨desired, hdesired, hsame⟩
    exact ⟨deployed, desired, st', hread, hdesired, hsame⟩

theorem trim_isEmpty_of_isBlankText {text : String} (h : Text.isBlankText text = true) :
    (Text.trim text).isEmpty = true := by
  have hstart : Text.trimStart text.toList = [] := by
    exact List.dropWhile_eq_nil_iff.2 (List.all_eq_true.1 h)
  rw [String.isEmpty_iff, Text.trim, hstart]
  rfl

/-- A spec whose overlay is not given to helm has no values. -/
theorem ofOverlay_of_overlayInput_none (h : overlayInput s = none) : Values.ofOverlay s.valuesOverlay = .ok [] := by
  cases hoverlay : s.valuesOverlay with
  | none => rfl
  | some text =>
    rw [overlayInput, hoverlay, Option.filter_eq_none_iff] at h
    have hblank : Text.isBlankText text = true := by simpa using h text rfl
    exact if_pos (trim_isEmpty_of_isBlankText hblank)

theorem valuesOverlay_of_overlayInput {text : String} (h : overlayInput s = some text) :
    s.valuesOverlay = some text ∧ Text.isBlankText text = false := by
  rw [overlayInput, Option.filter_eq_some_iff] at h
  exact ⟨h.1, by simpa using h.2⟩

/-- A mapping is read the same way by both sides, if the white space around it means nothing. -/
theorem ofOverlay_of_flush {text : String} {vs : Values} (hflush : Values.Flush text)
    (hinput : overlayInput s = some text) (hread : Yaml.read? text.toList = some (.fields vs)) :
    Values.ofOverlay s.valuesOverlay = .ok vs := by
  obtain ⟨hoverlay, hblank⟩ := valuesOverlay_of_overlayInput hinput
  rw [hoverlay, Values.ofOverlay_of_not_blank hblank, Values.read?_trim hflush hblank, hread]
  rfl

/-! ## The next choice -/

/-- What is answered about the values of the release and of the spec, by helm as it stands. -/
structure Reports (helm : Invocation → StateM σ Completion) (s : ChartSpec) (r : Release) (st : σ)
    (replies : Replies) : Prop where
  deployed : ∀ answer, replies (.releaseValues r) answer ↔ ((releaseValues helm r).run.run st).1 = answer
  desired : ∀ answer, replies (.specValues s) answer ↔ Values.ofOverlay s.valuesOverlay = answer

/-- The release is that of the component, in the version that it asks for. Its values are left to compare. -/
structure ValuesDecide (replies : Replies) (c : Component) (r : Release) : Prop where
  opened : Undecided c
  listed : ∃ rs, replies .listReleases (.ok rs) ∧ FirstNamed c.spec.name rs r
  equal : ∃ installed requested, Comparable c r installed requested ∧ requested.order installed = .eq

/-- The choice that compares values. -/
abbrev Chooses (replies : Replies) (c : Component) (s : ChartSpec) (r : Release) (op : Operation) : Prop :=
  Errand.Comes replies (requiredOperation c s) [.listReleases, .releaseValues r, .specValues s] (.ok op)

theorem chooses_of_values {replies : Replies} {c : Component} {deployed desired : Values}
    (hreports : Reports helm s r st replies) (hvalues : ValuesDecide replies c r)
    (hdeployed : (releaseValues helm r).run.run st = (.ok deployed, st'))
    (hdesired : Values.ofOverlay s.valuesOverlay = .ok desired) :
    Chooses replies c s r (if Values.same deployed desired then .ignore else .upgrade) := by
  obtain ⟨rs, hlisted, hfirst⟩ := hvalues.listed
  obtain ⟨installed, requested, hcomparable, horder⟩ := hvalues.equal
  have hread : replies (.releaseValues r) (.ok deployed) := (hreports.deployed _).2 (congrArg Prod.fst hdeployed)
  have hasked : replies (.specValues s) (.ok desired) := (hreports.desired _).2 hdesired
  refine comes_of_decides (.found hvalues.opened hlisted hfirst ?_)
  cases hsame : Values.same deployed desired with
  | true => exact .unchanged hcomparable horder hread hasked hsame
  | false => exact .changed hcomparable horder hread hasked hsame

/-- What orders of a spec have done to the values of its release, which the user had given before, and what is chosen
next if the values decide.

A blank overlay is not given to helm: the values stay as they are, and unless there are none, the same upgrade is
chosen again. A mapping replaces them: they are settled if the overlay is read as that mapping, in particular if the
white space around it means nothing. -/
theorem settled_iff (hdoc : Documented helm given) (hname : r.name = s.releaseName) (hspace : r.namespace = s.namespace)
    (hgiven : given st s.releaseName s.namespace = some old) (hordered : Ordered helm s st st') :
    (overlayInput s = none →
      (∃ st'', (releaseValues helm r).run.run st' = (.ok (old.getD []), st'')) ∧
      (Settled helm s r st' ↔ old.getD [] = []) ∧
      ∀ replies c, Reports helm s r st' replies → ValuesDecide replies c r →
        Chooses replies c s r (if old.getD [] = [] then .ignore else .upgrade)) ∧
    (∀ text vs, overlayInput s = some text → Yaml.read? text.toList = some (.fields vs) →
      (∃ st'', (releaseValues helm r).run.run st' = (.ok vs, st'')) ∧
      (Settled helm s r st' ↔
        ∃ desired, Values.ofOverlay s.valuesOverlay = .ok desired ∧ Values.same vs desired = true) ∧
      (Values.Flush text → Settled helm s r st') ∧
      ∀ replies c, Reports helm s r st' replies → ValuesDecide replies c r →
        ∀ desired, Values.ofOverlay s.valuesOverlay = .ok desired →
          Chooses replies c s r (if Values.same vs desired then .ignore else .upgrade)) := by
  have hnull : (getValues r).holdsNull = false := holdsNull_getValues hname hspace hordered.holdsNull
  refine ⟨fun hblank => ?_, fun text vs hinput hmapping => ?_⟩
  · have hkept := hordered.given_of_blank hdoc hblank hgiven
    rw [← hname, ← hspace] at hkept
    obtain ⟨st'', hread⟩ := releaseValues_of_given hdoc hkept hnull
    have hdesired := ofOverlay_of_overlayInput_none hblank
    refine ⟨⟨st'', hread⟩, ?_, fun replies c hreports hvalues => ?_⟩
    · simp [settled_iff_same hread, hdesired, same_nil_iff]
    · simpa only [same_nil_iff] using chooses_of_values hreports hvalues hread hdesired
  · have hreplaced := hordered.given_of_mapping hdoc hinput hmapping hgiven
    rw [← hname, ← hspace] at hreplaced
    obtain ⟨st'', hread⟩ := releaseValues_of_given hdoc hreplaced hnull
    refine ⟨⟨st'', hread⟩, settled_iff_same hread, fun hflush => ?_, fun replies c hreports hvalues desired hdesired =>
      chooses_of_values hreports hvalues hread hdesired⟩
    exact (settled_iff_same hread).2 ⟨vs, ofOverlay_of_flush hflush hinput hmapping, Json.sameFields_self vs⟩

/-! ## A helm that stores values -/

/-- The values that give a number of replicas. -/
def replicas (n : Nat) : Values := [("replicas", .nat n)]

/-- The number of replicas that a text of values gives, if it gives nothing else and not more than nine. -/
def replicas? (text : String) : Option (Fin 10) :=
  match Yaml.read? text.toList with
  | some (.fields [("replicas", .number (.int (.ofNat n)))]) => if h : n < 10 then some ⟨n, h⟩ else none
  | _ => none

theorem read?_of_replicas? {text : String} {n : Fin 10} (h : replicas? text = some n) :
    Yaml.read? text.toList = some (.fields (replicas n)) := by
  unfold replicas? at h
  split at h
  · next n' hread =>
    split at h
    · cases h
      exact hread
    · cases h
  · cases h

/-- What becomes of the release of the chart `dogu-op` when it is ordered with these options and this input, and of the
number of replicas that its user gave. The chart takes no other values. -/
def upgraded (os : List UpgradeOption) (input : Option String) (st : Option (Fin 10)) :
    Completion × Option (Fin 10) :=
  match os.filterMap UpgradeOption.file? with
  | [] => (.exited 0 [] [], if .resetValues ∈ os then none else st)
  | ["-"] =>
    match input.bind replicas? with
    | some n => (.exited 0 [] [], some n)
    | none => (.exited 1 [] [], st)
  | _ => (.exited 1 [] [], st)

/-- What is printed of the number of replicas that the user gave. -/
def printed (st : Option (Fin 10)) : Json :=
  match st with
  | none => .null
  | some n => .fields (replicas n)

/-- The bytes of that text, which is in ASCII. -/
def printedBytes (st : Option (Fin 10)) : List UInt8 :=
  (printed st).text.toList.map fun c => .ofNat c.toNat

/-- Helm, of the release of the chart `dogu-op` alone. -/
def storingHelm (i : Invocation) : StateM (Option (Fin 10)) Completion := fun st =>
  match i.arguments with
  | "upgrade" :: "--install" :: "dogu-op" :: _ :: rest =>
    match options? rest with
    | some os =>
      if (os.filterMap UpgradeOption.space?).getLast? = some "ecosystem" then upgraded os i.input st
      else (.exited 1 [] [], st)
    | none => (.exited 1 [] [], st)
  | ["get", "values", "dogu-op", "--namespace", "ecosystem", "-o", "json"] =>
    (.exited 0 (printedBytes st) [], st)
  | _ => (.exited 1 [] [], st)

/-- The values that are stored. -/
def storedValues (st : Option (Fin 10)) (name space : String) : Option (Option Values) :=
  if name = "dogu-op" ∧ space = "ecosystem" then some (st.map fun n => replicas n) else none

theorem storedValues_eq_some_iff {st : Option (Fin 10)} {name space : String} {old : Option Values} :
    storedValues st name space = some old ↔
      name = "dogu-op" ∧ space = "ecosystem" ∧ st.map (fun n => replicas n) = old := by
  simp [storedValues, and_assoc]

theorem run_storingHelm {i : Invocation} {os : List UpgradeOption} {st : Option (Fin 10)}
    (h : Upgrades i "dogu-op" "ecosystem" os) : (storingHelm i).run st = upgraded os i.input st := by
  obtain ⟨chart, rest, harguments, hoptions⟩ := h.arguments
  show storingHelm i st = _
  simp only [storingHelm, harguments, hoptions, if_pos h.space]

/-- What is printed is read back. -/
theorem read?_printed (st : Option (Fin 10)) :
    (Text.ofBytes? (printedBytes st)).bind Json.read? = some (printed st) := by
  have hbytes : Text.ofBytes? (printedBytes st) = some (printed st).text.toList := by
    cases st with
    | none => decide
    | some n => exact (by decide : ∀ n : Fin 10, Text.ofBytes? (printedBytes (some n)) =
        some (printed (some n)).text.toList) n
  have hwritable : Json.Writable 1 (printed st) := by
    cases st with
    | none => trivial
    | some n =>
      have hrange : -(twoTo 63 : Int) ≤ (n : Nat) ∧ ((n : Nat) : Int) < twoTo 64 := by
        exact (by decide : ∀ n : Fin 10, -(twoTo 63 : Int) ≤ (n : Nat) ∧ ((n : Nat) : Int) < twoTo 64) n
      simp [printed, replicas, Json.Writable, Values.Ascending, Json.nat, hrange]
  rw [hbytes, Option.bind_some, Json.read?_text hwritable (by decide)]

theorem documented_storingHelm : Documented storingHelm storedValues where
  replaces := by
    intro i name space os text vs old st st' output errors hupgrades hfile hinput hread hgiven hhelm
    obtain ⟨rfl, rfl, -⟩ := storedValues_eq_some_iff.1 hgiven
    rw [run_storingHelm hupgrades, upgraded, hfile, hinput] at hhelm
    cases hn : replicas? text with
    | none =>
      simp only [Option.bind_some, hn] at hhelm
      cases hhelm
    | some n =>
      simp only [Option.bind_some, hn] at hhelm
      cases hhelm
      obtain rfl : vs = replicas n := by
        rw [read?_of_replicas? hn] at hread
        cases hread
        rfl
      exact storedValues_eq_some_iff.2 ⟨rfl, rfl, rfl⟩
  keeps := by
    intro i name space os old st st' output errors hupgrades hfile hreset hgiven hhelm
    obtain ⟨rfl, rfl, -⟩ := storedValues_eq_some_iff.1 hgiven
    rw [run_storingHelm hupgrades, upgraded, hfile] at hhelm
    dsimp only at hhelm
    rw [if_neg hreset] at hhelm
    cases hhelm
    exact hgiven
  prints := by
    intro name space old st hgiven
    obtain ⟨rfl, rfl, rfl⟩ := storedValues_eq_some_iff.1 hgiven
    refine ⟨printedBytes st, [], st, rfl, ?_⟩
    rw [read?_printed]
    cases st <;> rfl

/-- What is answered when the release of the chart `dogu-op` is deployed, and helm stores its values. -/
def storedReplies (st : Option (Fin 10)) : Replies
  | .listReleases, answer => answer = .ok [sampleRelease "ecosystem" "0.1.0"]
  | .releaseValues r, answer => ((releaseValues storingHelm r).run.run st).1 = answer
  | .specValues s, answer => Values.ofOverlay s.valuesOverlay = answer
  | _, _ => False

/-- The component of the chart `dogu-op` with this overlay. -/
def overlaid (overlay : Option String) : Component :=
  let c := sampleComponent "0.1.0" .installed []
  { c with spec := { c.spec with valuesOverlay := overlay } }

/-- Its order. -/
def orderOf (overlay : Option String) : ChartSpec :=
  ChartSpec.forComponent (overlaid overlay) "oci://registry.cloudogu.com" (.ofSeconds 300)

section Overlaid

variable {overlay : Option String} {st st' : Option (Fin 10)}

theorem ordered_storingHelm (hnull : (installOrUpgrade (orderOf overlay)).holdsNull = false)
    (hdone : upgraded (optionsOf (orderOf overlay)) (overlayInput (orderOf overlay)) st = (.exited 0 [] [], st')) :
    Ordered storingHelm (orderOf overlay) st st' := by
  have hrun : (storingHelm (installOrUpgrade (orderOf overlay))).run st = (.exited 0 [] [], st') := by
    rw [run_storingHelm (upgrades_installOrUpgrade (orderOf overlay))]
    exact hdone
  refine .once ?_
  rw [run_applySpec, run_of_invoked hnull, hrun]
  rfl

theorem reports_storedReplies :
    Reports storingHelm (orderOf overlay) (sampleRelease "ecosystem" "0.1.0") st (storedReplies st) :=
  ⟨fun _ => .rfl, fun _ => .rfl⟩

theorem valuesDecide_overlaid :
    ValuesDecide (storedReplies st) (overlaid overlay) (sampleRelease "ecosystem" "0.1.0") where
  opened := ⟨rfl, rfl, nofun⟩
  listed := ⟨_, rfl, rfl, [], [], rfl, nofun⟩
  equal := by
    have hversion : readVersion "0.1.0" = .ok ⟨0, 1, 0, [], []⟩ := rfl
    exact ⟨_, _, ⟨hversion, hversion, nofun⟩, by decide⟩

end Overlaid

/-- The user gave two replicas. An order without an overlay does not settle them and is made again, while one with an
overlay of three replaces them, and nothing is left to do. -/
theorem settled_iff_unset :
    let r := sampleRelease "ecosystem" "0.1.0"
    let overlay := some "replicas: 3\n"
    (Ordered storingHelm (orderOf none) (some 2) (some 2) ∧ ¬ Settled storingHelm (orderOf none) r (some 2) ∧
      Chooses (storedReplies (some 2)) (overlaid none) (orderOf none) r .upgrade) ∧
    Ordered storingHelm (orderOf overlay) (some 2) (some 3) ∧ Settled storingHelm (orderOf overlay) r (some 3) ∧
      Chooses (storedReplies (some 3)) (overlaid overlay) (orderOf overlay) r .ignore := by
  intro r overlay
  have hgiven : ∀ overlay, storedValues (some 2) (orderOf overlay).releaseName (orderOf overlay).namespace =
      some (some (replicas 2)) := fun _ => if_pos ⟨rfl, rfl⟩
  constructor
  · have hordered : Ordered storingHelm (orderOf none) (some 2) (some 2) :=
      ordered_storingHelm (by decide +kernel) rfl
    obtain ⟨-, hsettled, hchooses⟩ := (settled_iff (r := r) documented_storingHelm rfl rfl (hgiven _) hordered).1 rfl
    refine ⟨hordered, fun h => ?_, hchooses _ _ reports_storedReplies valuesDecide_overlaid⟩
    cases hsettled.1 h
  · have hread : Yaml.read? "replicas: 3\n".toList = some (.fields (replicas 3)) := by
      have htokens : Yaml.tokens? "replicas: 3\n".toList =
          some [.mappingStart, .key, .scalar "replicas".toList true, .value, .scalar ['3'] true, .blockEnd] := by
        decide
      rw [Yaml.read?, Yaml.Document.read?, htokens]
      rfl
    have hinput : overlayInput (orderOf overlay) = some "replicas: 3\n" := by decide +kernel
    have hordered : Ordered storingHelm (orderOf overlay) (some 2) (some 3) := by
      have hfile : (optionsOf (orderOf overlay)).filterMap UpgradeOption.file? = ["-"] := by
        rw [files_optionsOf, hinput]
        rfl
      have hthree : replicas? "replicas: 3\n" = some 3 := by
        rw [replicas?, hread]
        rfl
      refine ordered_storingHelm (by decide +kernel) ?_
      rw [upgraded, hfile, hinput]
      simp only [Option.bind_some, hthree]
    have hunbarred : ((Text.trim "replicas: 3\n").toList.all fun c => c != '|' && c != '>') = true := by decide
    have hflush : Values.Flush "replicas: 3\n" :=
      ⟨List.all_eq_true.1 (by decide), List.all_eq_true.1 (by decide), .inl (by decide),
        .inr (.inl fun c hc => by simpa using List.all_eq_true.1 hunbarred c hc)⟩
    obtain ⟨-, -, hsettled, hchooses⟩ :=
      (settled_iff (r := r) documented_storingHelm rfl rfl (hgiven _) hordered).2 _ _ hinput hread
    exact ⟨hordered, hsettled hflush,
      hchooses _ _ reports_storedReplies valuesDecide_overlaid _ (ofOverlay_of_flush hflush hinput hread)⟩

end ChartOperator.Helm
