import ChartOperator.Proofs.Lifecycle.Deployments

set_option autoImplicit false

/-!
# The version that an installation records

A component may ask for no version. It gets what the chart client makes of that, and the installation records the
version of this release as the one that is asked for.

`Program.Records` follows a program from what is deployed to what is deployed in the end, and to the version that was
recorded on the way. It counts on nobody else to deploy anything, but leaves components to everybody: nothing is
assumed of what is read of them or of how their changes end. So it holds of a program among other writers as well
as alone. `records_pass` says of a pass that installs a component which asks for no version that it records
the version of the release that it ordered, that it does so once at most, and that it succeeds only if it did.
-/

namespace ChartOperator

open Errand

/-! ## What programs record -/

/-- The edit leaves the version alone that is asked for. -/
def Edit.SparesVersion : Edit → Prop
  | setVersion _ => False
  | _ => True

theorem Edit.version_apply {e : Edit} (h : e.SparesVersion) (x : Component) :
    (e.apply x).spec.version = x.spec.version := by
  cases e with
  | addFinalizer =>
    rw [apply, Component.addFinalizer]
    split <;> rfl
  | setVersion => exact h.elim
  | _ => rfl

/-- The change leaves the version alone that a component asks for. -/
def Mutation.SparesVersion (n : String) (m : Mutation) : Prop := ∃ e : Edit, e.SparesVersion ∧ m = e.mutation n

namespace Program

variable {α β : Type} {n : String} {post post' : α → ChartStore → Option String → Prop} {p : Program α}
  {deployed : ChartStore} {recorded : Option String}

/-- From what is deployed, and with this version recorded, the program comes to such an end. It writes components only
by edits of the one with the name, and it records no version if it has recorded one. -/
def Records (n : String) (post : α → ChartStore → Option String → Prop) :
    Program α → ChartStore → Option String → Prop
  | done a, deployed, recorded => post a deployed recorded
  | note _ next, deployed, recorded => next.Records n post deployed recorded
  | call d next, deployed, recorded => d.isWrite = false ∧
      ∀ w : World, w.charts.deployed = deployed → ∀ a, (w.serve d).1 = some a →
        (next a).Records n post (w.serve d).2.charts.deployed recorded
  | mutate m next, deployed, recorded =>
      (m.SparesVersion n ∧ ∀ r, (next r).Records n post deployed recorded) ∨
      ∃ version, recorded = none ∧ m = .setVersion n version ∧
        (∀ o, (next (.ok o)).Records n post deployed (some version)) ∧
        ∀ e, (next (.error e)).Records n post deployed none

theorem Records.mono (h : p.Records n post deployed recorded)
    (himp : ∀ a deployed recorded, post a deployed recorded → post' a deployed recorded) :
    p.Records n post' deployed recorded := by
  induction p generalizing deployed recorded with
  | done a => exact himp _ _ _ h
  | note i next ih => exact ih h
  | call d next ih => exact ⟨h.1, fun w hw a ha => ih a (h.2 w hw a ha)⟩
  | mutate m next ih =>
    obtain ⟨hm, hnext⟩ | ⟨version, hnone, hm, hok, herror⟩ := h
    · exact .inl ⟨hm, fun r => ih r (hnext r)⟩
    · exact .inr ⟨version, hnone, hm, fun o => ih _ (hok o), fun e => ih _ (herror e)⟩

theorem records_andThen {f : α → Program β} {post : β → ChartStore → Option String → Prop}
    (h : p.Records n (fun a => (f a).Records n post) deployed recorded) :
    (p.andThen f).Records n post deployed recorded := by
  induction p generalizing deployed recorded with
  | done a => exact h
  | note i next ih => exact ih h
  | call d next ih => exact ⟨h.1, fun w hw a ha => ih a (h.2 w hw a ha)⟩
  | mutate m next ih =>
    obtain ⟨hm, hnext⟩ | ⟨version, hnone, hm, hok, herror⟩ := h
    · exact .inl ⟨hm, fun r => ih r (hnext r)⟩
    · exact .inr ⟨version, hnone, hm, fun o => ih _ (hok o), fun e => ih _ (herror e)⟩

/-- What orders and records nothing may come to any result. -/
theorem records_of_confined (hp : p.Confined Call.IsQuery (Mutation.SparesVersion n))
    (h : ∀ a, post a deployed recorded) : p.Records n post deployed recorded := by
  induction p with
  | done a => exact h a
  | note i next ih => exact ih hp
  | mutate m next ih => exact .inl ⟨hp.1, fun r => ih r (hp.2 r)⟩
  | call d next ih =>
    refine ⟨hp.1.1, fun w hw a _ => ?_⟩
    rw [deployed_serve w hp.1.2, hw]
    exact ih a (hp.2 a)

end Program

namespace Errand

variable {α β : Type} {n : String} {t : Errand α} {f : α → Errand β} {deployed : ChartStore}
  {recorded : Option String}

/-- The errand comes to such an end. -/
abbrev Records (n : String) (post : Except Failure α → ChartStore → Option String → Prop) (t : Errand α) :
    ChartStore → Option String → Prop :=
  Program.Records n post t.run

theorem records_bind {post : Except Failure β → ChartStore → Option String → Prop}
    (h : Records n (fun r => match r with
      | .ok a => Records n post (f a)
      | .error e => post (.error e)) t deployed recorded) :
    Records n post (t >>= f) deployed recorded := by
  refine Program.records_andThen (h.mono fun r deployed recorded hr => ?_)
  cases r with
  | ok a => exact hr
  | error e => exact hr

theorem records_mapFailure {g : Failure → Failure} {post : Except Failure α → ChartStore → Option String → Prop}
    (h : Records n (fun r => post (r.mapError g)) t deployed recorded) :
    Records n post (t.mapFailure g) deployed recorded :=
  Program.records_andThen h

theorem records_outcome {post : Except Failure (Except Failure α) → ChartStore → Option String → Prop}
    (h : Records n (fun r => post (.ok r)) t deployed recorded) : Records n post t.outcome deployed recorded :=
  Program.records_andThen h

theorem records_ask {d : Call} {post : d.Answer → ChartStore → Option String → Prop} (hd : d.isWrite = false)
    (h : ∀ w : World, w.charts.deployed = deployed → ∀ a, (w.serve d).1 = some a →
      post a (w.serve d).2.charts.deployed recorded) : Records n post (ask d) deployed recorded :=
  ⟨hd, h⟩

/-- A version is recorded, or that fails. -/
theorem records_setVersion {version : String} {g : Failure → Failure}
    {post : Except Failure Unit → ChartStore → Option String → Prop} (hok : post (.ok ()) deployed (some version))
    (herror : ∀ e, post (.error e) deployed none) :
    Records n post (discard ((change (.setVersion n version)).mapFailure g)) deployed none :=
  .inr ⟨version, rfl, rfl, fun _ => hok, fun e => herror (g e)⟩

/-- A step that orders and records nothing. -/
theorem records_step {post : Except Failure β → ChartStore → Option String → Prop}
    (ht : Confined Call.IsQuery (Mutation.SparesVersion n) t) (herror : ∀ e, post (.error e) deployed recorded)
    (hf : ∀ a, Records n post (f a) deployed recorded) : Records n post (t >>= f) deployed recorded := by
  refine records_bind (Program.records_of_confined ht fun r => ?_)
  cases r with
  | ok a => exact hf a
  | error e => exact herror e

end Errand

/-! ## The pass -/

section Steps

variable {n : String}

theorem sparing_edit {e : Edit} (h : e.SparesVersion) {g : Failure → Failure} :
    Confined Call.IsQuery (Mutation.SparesVersion n) (discard ((change (e.mutation n)).mapFailure g)) :=
  confined_discard (confined_mapFailure (confined_change ⟨e, h, rfl⟩))

theorem sparing_updateHealth (n space : String) (installed : Option String) :
    Confined Call.IsQuery (Mutation.SparesVersion n) (updateHealth n space installed) := by
  have hfind := inquires_findWorkloads n space
  refine confined_bind (hfind.mono (fun _ => Call.isQuery_of_isInquiry) nofun) fun ws => ?_
  refine confined_bind (sparing_edit (e := .setHealth _ installed) trivial) fun _ => ?_
  exact confined_bind (confined_count _) fun _ => confined_pure _

theorem sparing_clearBackoff (c : Component) :
    Confined Call.IsQuery (Mutation.SparesVersion c.name) (clearBackoff c) := by
  unfold clearBackoff
  split
  · exact confined_pure _
  · exact sparing_edit (e := .clearBackoff) trivial

theorem sparing_validateName (c : Component) :
    Confined Call.IsQuery (Mutation.SparesVersion c.name) (validateName c) := by
  unfold validateName
  split
  · exact confined_pure _
  · exact confined_bind (confined_announce _ _ _ _) fun _ => confined_throw _

end Steps

section Pass

variable {config : Config} {c : Component} {release : Release} {deployed : ChartStore} {recorded : Option String}
  {w : World}

/-- If a version was recorded, it is that of the release, which is deployed. -/
def RecordsOf (c : Component) (release : Release) (deployed : ChartStore) (recorded : Option String) : Prop :=
  ∀ v, recorded = some v → v = release.appVersion ∧ releaseOf? c deployed.releases = some release

/-- The version of the release is recorded, which is deployed. -/
def Recorded (c : Component) (release : Release) (deployed : ChartStore) (recorded : Option String) : Prop :=
  recorded = some release.appVersion ∧ releaseOf? c deployed.releases = some release

theorem Recorded.of (h : Recorded c release deployed recorded) : RecordsOf c release deployed recorded := by
  intro v hv
  rw [h.1] at hv
  exact ⟨(Option.some.inj hv).symm, h.2⟩

theorem recordsOf_none : RecordsOf c release deployed none := nofun

theorem records_findRelease {n : String} {post : Except Failure (Option Release) → ChartStore → Option String → Prop}
    (h : post (.ok (releaseOf? c deployed.releases)) deployed recorded) :
    Records n post (findRelease c) deployed recorded := by
  refine records_bind (records_ask rfl fun w hw a ha => ?_)
  obtain rfl := Option.some.inj ha
  subst hw
  exact h

/-- How an installation ends: if it succeeds, the version of the release is recorded. -/
def Records.Installs (c : Component) (release : Release) {α : Type} :
    Except Failure α → ChartStore → Option String → Prop
  | .ok _, deployed, recorded => Recorded c release deployed recorded
  | .error _, deployed, recorded => RecordsOf c release deployed recorded

/-- What is deployed is recorded. -/
theorem records_settledVersion (hempty : c.spec.version = "")
    (hdeployed : releaseOf? c deployed.releases = some release) :
    Records c.name (Records.Installs c release) (settledVersion c) deployed none := by
  unfold settledVersion
  rw [if_neg (by simp [hempty])]
  refine records_bind (records_mapFailure (records_bind (records_findRelease ?_)))
  rw [hdeployed]
  exact records_bind (records_setVersion ⟨rfl, hdeployed⟩ fun _ => recordsOf_none)

/-- An order that succeeds leads to the release. -/
theorem releaseOf?_of_order {detached : Bool} {u : Unit} (hdeployed : w.charts.deployed = deployed)
    (h : (w.serve (.installOrUpgrade (chartSpecOf config c) detached)).1 = some (.ok u)) :
    releaseOf? c (w.serve (.installOrUpgrade (chartSpecOf config c) detached)).2.charts.deployed.releases =
      some (deployed.releaseOf (chartSpecOf config c)) := by
  have horder : w.charts.install (chartSpecOf config c) detached =
      (some (.ok u), (w.charts.install (chartSpecOf config c) detached).2) := Prod.ext h rfl
  obtain ⟨hcarries, hlatest⟩ := ChartStore.carries_of_install horder
  subst hdeployed
  refine (releaseOf?_of_filter hcarries.only).trans (congrArg some ?_)
  simp only [ChartStore.releaseOf, hlatest]
  rfl

/-- The order of an installation leads to the release, or fails. -/
theorem records_install (hempty : c.spec.version = "")
    (hrelease : deployed.releaseOf (chartSpecOf config c) = release) :
    Records c.name (Records.Installs c release) (install config c) deployed none := by
  unfold install
  extract_lets chart space
  refine records_step (confined_mapFailure (confined_ask ⟨rfl, rfl⟩)) (fun _ => recordsOf_none) fun _ => ?_
  refine records_step (sparing_edit (e := .setStatus .installing none) trivial) (fun _ => recordsOf_none) fun _ => ?_
  refine records_step (sparing_edit (e := .addFinalizer) trivial) (fun _ => recordsOf_none) fun _ => ?_
  refine records_bind (records_mapFailure (records_ask rfl fun w hw a ha => ?_))
  cases a with
  | error e => exact recordsOf_none
  | ok u =>
    have hdeployed := (releaseOf?_of_order hw ha).trans (congrArg some hrelease)
    refine records_bind ((records_settledVersion hempty hdeployed).mono fun r deployed recorded hr => ?_)
    cases r with
    | error e => exact hr
    | ok version =>
      refine records_step (sparing_edit (e := .setStatus .installed none) trivial) (fun _ => hr.of) fun _ => ?_
      refine Program.records_of_confined (confined_discard (confined_mapFailure (sparing_updateHealth _ _ _))) ?_
      intro r
      cases r with
      | ok u => exact hr
      | error e => exact hr.of

/-- How a pass ends that installs: if it succeeds, the version of the release is recorded. -/
def Records.Passes (c : Component) (release : Release) (r : Except Failure NextPass) (deployed : ChartStore)
    (recorded : Option String) : Prop :=
  RecordsOf c release deployed recorded ∧ (r = .ok .onChange → recorded = some release.appVersion)

theorem records_settle (outcome : Except Failure Unit) (fallback : Lifecycle)
    (h : Records.Installs c release outcome deployed recorded) :
    Records c.name (Records.Passes c release) (settle config outcome c fallback) deployed recorded := by
  have hfailed : ∀ e : Failure, RecordsOf c release deployed recorded →
      Records.Passes c release (.error e) deployed recorded := fun e h => ⟨h, nofun⟩
  unfold settle
  split
  · exact records_step (sparing_clearBackoff c) (fun e => hfailed e h.of) fun _ => ⟨h.of, fun _ => h.1⟩
  · refine records_step (sparing_edit (e := .fallBack fallback _) trivial) (fun e => hfailed e h) fun _ => ?_
    refine records_step (confined_announce _ _ _ _) (fun e => hfailed e h) fun _ => ?_
    exact records_step (confined_count _) (fun e => hfailed e h) fun _ => ⟨h, nofun⟩
  · exact records_step (sparing_clearBackoff c) (fun e => hfailed e h) fun _ => hfailed _ h

/-- A pass that chose to install. -/
theorem records_carryOut (hempty : c.spec.version = "")
    (hrelease : deployed.releaseOf (chartSpecOf config c) = release) :
    Records c.name (Records.Passes c release) (dispatch config c .install) deployed none := by
  have hfailed : ∀ e : Failure, Records.Passes c release (.error e) deployed none :=
    fun e => ⟨recordsOf_none, nofun⟩
  refine records_step (sparing_validateName c) hfailed fun _ => ?_
  refine records_step (confined_announce _ _ _ _) hfailed fun _ => ?_
  refine records_bind (records_outcome ((records_install hempty hrelease).mono fun outcome deployed recorded h => ?_))
  cases outcome with
  | ok u =>
    exact records_step (confined_announce _ _ _ _) (fun _ => ⟨h.of, nofun⟩) fun _ => records_settle (.ok u) _ h
  | error e =>
    refine records_step (confined_count _) (fun _ => ⟨h, nofun⟩) fun _ => ?_
    exact records_step (confined_announce _ _ _ _) (fun _ => ⟨h, nofun⟩) fun _ => records_settle (.error e) _ h

/-- The choice to install is made again by what is deployed. -/
theorem records_requiredOperation {w' : World} (hfree : w.FaultFree)
    {post : Except Failure Operation → ChartStore → Option String → Prop}
    (hrun : w.run (requiredOperation c (chartSpecOf config c)).run = (.finished (.ok .install), w'))
    (hpost : post (.ok .install) w.charts.deployed recorded) :
    Records c.name post (requiredOperation c (chartSpecOf config c)) w.charts.deployed recorded := by
  obtain ⟨calls, res, hended, hdecides⟩ := decides_of_faultFree hfree c (chartSpecOf config c)
  rw [hrun] at hended
  cases hended
  cases hdecides with
  | again halive htried =>
    rw [requiredOperation_of_tried halive htried]
    exact hpost
  | absent hopen hlisted habsent =>
    obtain rfl := Except.ok.inj (Option.some.inj hlisted)
    rw [requiredOperation_of_undecided hopen]
    refine records_bind (records_mapFailure (records_ask rfl fun v hv a ha => ?_))
    obtain rfl := Option.some.inj ha
    have habsent' : releaseOf? c v.charts.releases = none := by
      change releaseOf? c v.charts.deployed.releases = none
      rw [hv]
      exact releaseOf?_eq_none_iff.2 habsent
    have hsame : (v.serve .listReleases).2.charts.deployed = w.charts.deployed := hv
    simp only [Except.mapError]
    rw [habsent', hsame]
    exact hpost
  | found _ _ _ hcompares => cases hcompares

/-- A pass that has read a component which asks for no version, and installs it, records the version of the release
that it orders, once at most, and succeeds only if it did. -/
theorem records_pass {n : String} (hfree : w.FaultFree) (hempty : c.spec.version = "")
    (hchosen : chosen? config n w = some (c, .install)) :
    Records n (Records.Passes c (w.charts.releaseOf (chartSpecOf config c)))
      (do
        let op ← requiredOperation c (chartSpecOf config c)
        Errand.count (.reconciliations op.text)
        dispatch config c op)
      w.charts.deployed none := by
  obtain ⟨w₁, w₂, hread, hchoice, -⟩ := exists_choice hchosen
  obtain ⟨-, -, -, hcharts, hfree₁⟩ := World.perform_of_faultFree hfree (.getComponent n)
  have hsame : w₁ = (w.perform (.getComponent n)).2 := by rw [← World.ask_snd, hread]
  have hdeployed : w₁.charts.deployed = w.charts.deployed := by
    rw [hsame, hcharts]
    rfl
  rw [← hdeployed, ← name_of_chosen hchosen]
  refine records_bind (records_requiredOperation (hsame ▸ hfree₁) hchoice ?_)
  refine records_step (confined_count _) (fun _ => ⟨recordsOf_none, nofun⟩) fun _ => ?_
  rw [hdeployed]
  exact records_carryOut hempty rfl

end Pass

end ChartOperator
