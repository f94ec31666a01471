import ChartOperator.Proofs.Lifecycle.Edits

set_option autoImplicit false

/-!
# What a successful operation leaves

An operation that succeeds has taken all its steps, so the object that it leaves is known from the object that
was there when it started: `installEdits`, `upgradeEdits` and `deleteEdits` list the edits. `yields_install`,
`yields_upgrade` and `yields_delete` follow the operations step by step.

What is known of everything but the object is a parameter. `D` holds until the chart client carries out the
order, and `D'` from then on; both are `Stable`, which the steps beside the order keep.
-/

namespace ChartOperator

open Errand

/-- What holds of a world still holds behind any call but an order, and behind any note. -/
structure Stable (D : World → Prop) : Prop where
  call : ∀ {w c}, c.isOrder = false → D w → D (w.perform c).2
  note : ∀ {w} n, D w → D (w.leave n)

theorem stable_true : Stable fun _ => True := ⟨fun _ _ => trivial, fun _ _ => trivial⟩

section Steps

variable {D D' : World → Prop} {e : Edit} {n : String} {o : Option Component} {past : List Moment} {w w' : World}

/-- What is stored under a name, and what is known of the rest. -/
def Scene (n : String) (o : Option Component) (D : World → Prop) (w : World) : Prop := w.Holds n o ∧ D w

theorem Scene.perform {c : Call} {out : Outcome c} (hD : Stable D) (hs : Scene n o D w) (hc : c.IsQuery)
    (hperf : w.perform c = (out, w')) : Scene n o D w' := by
  obtain rfl : (w.perform c).2 = w' := congrArg Prod.snd hperf
  exact ⟨hs.1.of_alike (World.alike_perform w hc.1), hD.call hc.2 hs.2⟩

/-- An order leaves the objects alone. -/
theorem Scene.order {c : Call} {out : Outcome c} (hs : Scene n o D w) (hc : c.isWrite = false)
    (hperf : w.perform c = (out, w')) (hD' : D' w') : Scene n o D' w' := by
  obtain rfl : (w.perform c).2 = w' := congrArg Prod.snd hperf
  exact ⟨hs.1.of_alike (World.alike_perform w hc), hD'⟩

theorem Scene.leave (hD : Stable D) (hs : Scene n o D w) (note : Note) : Scene n o D (w.leave note) :=
  ⟨hs.1.leave note, hD.note note hs.2⟩

/-- An errand that only asks leaves what is known. -/
theorem yields_asks {α : Type} {t : Errand α} (hD : Stable D) (ht : Asks t) (hs : Scene n o D w) :
    Yields (fun _ w' => Scene n o D w') t past w := by
  have hkept : Obeys (fun _ _ => True) (fun _ _ w' => Scene n o D w') t past w := by
    refine Program.obeys_of_confined ht ?_ (fun _ _ _ hm => hm.elim) (fun _ _ note hs => hs.leave hD note) hs
    exact fun _ w c hc hs => ⟨trivial, hs.perform hD hc rfl⟩
  exact hkept.mono fun _ _ _ hs _ _ _ => hs

theorem yields_edit (hD : Stable D) (e : Edit) (hs : Scene n o D w) :
    Yields (fun _ w' => Scene n (e.leaves o) D w') (change (e.mutation n)) past w := by
  have hkept : Obeys (fun _ _ => True) (fun _ _ w' => D w') (change (e.mutation n)) past w :=
    obeys_change_of_perform (fun _ _ _ => trivial) (fun _ _ _ hc hw => hD.call hc hw) hs.2
  refine ((assures_edit e hs.1).and hkept).mono fun r past' w' h htrue b hb => ?_
  obtain ⟨hheld, hw'⟩ := h
  rw [hb] at hheld
  exact ⟨hheld htrue, hw'⟩

/-- A step that makes an edit and goes on. -/
theorem yields_edit_step {β : Type} {f : Unit → Errand β} {g : Failure → Failure} {post : β → World → Prop}
    (hD : Stable D) (e : Edit) (hs : Scene n o D w)
    (hnext : ∀ past' w', Scene n (e.leaves o) D w' → Yields post (f ()) past' w') :
    Yields post (discard ((change (e.mutation n)).mapFailure g) >>= f) past w := by
  refine yields_bind (yields_discard (yields_mapFailure ((yields_edit hD e hs).mono ?_)))
  exact fun r _ w' hw' htrue a ha past' => hnext past' w' (hw' htrue a ha)

end Steps

/-! ## The releases that an operation goes by -/

section Releases

variable {D : World → Prop} {c : Component} {n : String} {o : Option Component} {past : List Moment} {w : World}

/-- These releases were listed while something was known of the world. -/
def Listed (D : World → Prop) (rs : List Release) : Prop :=
  ∃ u u' : World, D u ∧ u.perform .listReleases = (.answered (.ok rs), u')

theorem yields_findRelease (hD : Stable D) (hs : Scene n o D w) :
    Yields (fun found w' => Scene n o D w' ∧ ∃ rs, Listed D rs ∧ releaseOf? c rs = found) (findRelease c) past
      w := by
  refine yields_bind (yields_ask fun rs w' hperf past' => ?_)
  exact yields_pure ⟨hs.perform hD ⟨rfl, rfl⟩ hperf, rs, ⟨w, w', hs.2, hperf⟩, rfl⟩

/-- The version that an installation settles on: the wanted one, or if there is none that of a release which
was then listed. -/
def SettlesOn (D : World → Prop) (c : Component) (version : String) : Prop :=
  if c.spec.version.isEmpty then ∃ rs r, Listed D rs ∧ releaseOf? c rs = some r ∧ r.appVersion = version
  else version = c.spec.version

theorem yields_settledVersion (hD : Stable D) (hs : Scene c.name o D w) :
    Yields
      (fun version w' => SettlesOn D c version ∧
        Scene c.name (if c.spec.version.isEmpty then (Edit.setVersion version).leaves o else o) D w')
      (settledVersion c) past w := by
  unfold settledVersion SettlesOn
  cases hempty : c.spec.version.isEmpty with
  | false => exact yields_pure ⟨rfl, hs⟩
  | true =>
    refine yields_bind (yields_mapFailure (yields_bind ((yields_findRelease hD hs).mono ?_)))
    rintro r _ w₁ hfound htrue found hr past₂
    obtain ⟨hs₁, rs, hlisted, hrs⟩ := hfound htrue found hr
    cases found with
    | none => exact yields_throw
    | some release =>
      refine yields_pure fun past₃ => ?_
      refine yields_edit_step hD (.setVersion release.appVersion) hs₁ fun past₄ w₂ hs₂ => ?_
      exact yields_pure ⟨⟨rs, release, hlisted, hrs, rfl⟩, hs₂⟩

end Releases

/-! ## The operations -/

section Operations

variable {D D' : World → Prop} {config : Config} {c : Component} {o : Option Component} {past : List Moment}
  {w : World}

theorem yields_updateHealth {n : String} (hD : Stable D) (space : String) (installed : Option String)
    (hs : Scene n o D w) :
    Yields (fun verdict w' => Scene n ((Edit.setHealth verdict installed).leaves o) D w')
      (updateHealth n space installed) past w := by
  unfold updateHealth persistHealth
  refine yields_bind ((yields_asks hD (asks_of_inquires (inquires_findWorkloads n space)) hs).mono ?_)
  intro r _ w₁ hs₁ htrue ws hws past₁
  refine yields_edit_step hD (.setHealth (Workload.verdict ws) installed) (hs₁ htrue ws hws) ?_
  intro past₂ w₂ hs₂
  refine yields_bind (obeys_count fun _ _ _ past₃ => ?_)
  exact yields_pure (hs₂.leave hD _)

/-- The edits of an installation that settled on a version. -/
def installEdits (c : Component) (version : String) (verdict : Health) : List Edit :=
  [.setStatus .installing none, .addFinalizer] ++
    (if c.spec.version.isEmpty then [.setVersion version] else []) ++
    [.setStatus .installed none, .setHealth verdict (some version)]

/-- An installation that succeeds has made all its edits. -/
theorem yields_install (hD : Stable D) (hD' : Stable D')
    (horder : ∀ w w' u, D w → w.perform (.installOrUpgrade (chartSpecOf config c) false) =
      (.answered (.ok u), w') → D' w') (hs : Scene c.name o D w) :
    Yields
      (fun _ w' => ∃ version verdict, SettlesOn D' c version ∧
        Scene c.name (Edit.leavesAll (installEdits c version verdict) o) D' w')
      (install config c) past w := by
  unfold install
  extract_lets chart space
  refine yields_bind (yields_mapFailure (yields_ask (c := .checkDependencies chart) fun _ w₁ hperf past₁ => ?_))
  have hs₁ := hs.perform hD ⟨rfl, rfl⟩ hperf
  refine yields_edit_step hD (.setStatus .installing none) hs₁ fun past₂ w₂ hs₂ => ?_
  refine yields_edit_step hD .addFinalizer hs₂ fun past₃ w₃ hs₃ => ?_
  refine yields_bind (yields_mapFailure (yields_ask (c := .installOrUpgrade chart false)
    fun u w₄ hperf past₄ => ?_))
  have hs₄ := hs₃.order rfl hperf (horder _ _ u hs₃.2 hperf)
  refine yields_bind ((yields_settledVersion hD' hs₄).mono fun r _ w₅ hset htrue version hv past₅ => ?_)
  obtain ⟨hsettles, hs₅⟩ := hset htrue version hv
  refine yields_edit_step hD' (.setStatus .installed none) hs₅ fun past₆ w₆ hs₆ => ?_
  refine yields_discard ((yields_mapFailure (yields_updateHealth hD' space (some version) hs₆)).mono ?_)
  intro r _ w₇ hs₇ htrue verdict hverdict
  refine ⟨version, verdict, hsettles, ?_⟩
  have hedits : Edit.leavesAll (installEdits c version verdict) o = (Edit.setHealth verdict (some version)).leaves
      ((Edit.setStatus .installed none).leaves
        (if c.spec.version.isEmpty then
          (Edit.setVersion version).leaves (Edit.addFinalizer.leaves ((Edit.setStatus .installing none).leaves o))
        else Edit.addFinalizer.leaves ((Edit.setStatus .installing none).leaves o))) := by
    unfold installEdits
    split <;> rfl
  rw [hedits]
  exact hs₇ htrue verdict hverdict

/-- The order of an upgrade: the version is the wanted one, or if there is none that of a release which was
listed before. -/
def Orders (D : World → Prop) (config : Config) (c : Component) (chart : ChartSpec) : Prop :=
  if c.spec.version.isEmpty then
    ∃ rs, Listed D rs ∧
      chart = { chartSpecOf config c with
        version := ((releaseOf? c rs).map Release.appVersion).getD c.spec.version }
  else chart = chartSpecOf config c

theorem yields_upgradeSpec (hD : Stable D) (hs : Scene c.name o D w) :
    Yields (fun chart w' => Orders D config c chart ∧ Scene c.name o D w') (upgradeSpec config c) past w := by
  unfold upgradeSpec Orders
  extract_lets chart
  have hversion : chart.version = c.spec.version := rfl
  rw [hversion]
  cases hempty : c.spec.version.isEmpty with
  | false => exact yields_pure ⟨rfl, hs⟩
  | true =>
    refine yields_bind (yields_mapFailure ((yields_findRelease hD hs).mono ?_))
    intro r _ w₁ hfound htrue found hr past₁
    obtain ⟨hs₁, rs, hlisted, hrs⟩ := hfound htrue found hr
    cases found with
    | none => exact yields_pure ⟨⟨rs, hlisted, by rw [hrs]; rfl⟩, hs₁⟩
    | some release => exact yields_pure ⟨⟨rs, hlisted, by rw [hrs]; rfl⟩, hs₁⟩

/-- The edits of an upgrade. -/
def upgradeEdits (chart : ChartSpec) : List Edit :=
  [.setStatus .upgrading none,
    .setStatus .installed (if chart.version.isEmpty then none else some chart.version)]

/-- An upgrade that succeeds has made all its edits. -/
theorem yields_upgrade {D' : ChartSpec → World → Prop} (hD : Stable D) (hD' : ∀ chart, Stable (D' chart))
    (horder : ∀ chart w w' u, Orders D config c chart → D w →
      w.perform (.installOrUpgrade chart true) = (.answered (.ok u), w') → D' chart w')
    (hs : Scene c.name o D w) :
    Yields
      (fun _ w' => ∃ chart, Orders D config c chart ∧
        Scene c.name (Edit.leavesAll (upgradeEdits chart) o) (D' chart) w')
      (upgrade config c) past w := by
  unfold upgrade
  refine yields_bind ((yields_upgradeSpec hD hs).mono fun r _ w₁ hspec htrue chart hchart past₁ => ?_)
  obtain ⟨horders, hs₁⟩ := hspec htrue chart hchart
  refine yields_bind (yields_mapFailure (yields_ask (c := .checkDependencies chart) fun _ w₂ hperf past₂ => ?_))
  have hs₂ := hs₁.perform hD ⟨rfl, rfl⟩ hperf
  refine yields_edit_step hD (.setStatus .upgrading none) hs₂ fun past₃ w₃ hs₃ => ?_
  refine yields_bind (yields_mapFailure (yields_ask (c := .installOrUpgrade chart true)
    fun u w₄ hperf past₄ => ?_))
  have hs₄ := hs₃.order rfl hperf (horder _ _ _ u horders hs₃.2 hperf)
  extract_lets installed
  refine yields_discard (yields_mapFailure ((yields_edit (hD' chart) (.setStatus .installed installed) hs₄).mono ?_))
  exact fun r _ w₅ hs₅ htrue a ha => ⟨chart, horders, hs₅ htrue a ha⟩

/-- The edits of a removal. -/
def deleteEdits : List Edit := [.setStatus .deleting none, .removeFinalizer]

/-- A removal that succeeds has made all its edits. -/
theorem yields_delete (hD : Stable D) (hD' : Stable D')
    (hnone : ∀ rs w, Listed D rs → releaseOf? c rs = none → D w → D' w)
    (horder : ∀ rs r w w' u, Listed D rs → releaseOf? c rs = some r → D w →
      w.perform (.uninstall r.name r.namespace) = (.answered (.ok u), w') → D' w')
    (hs : Scene c.name o D w) :
    Yields (fun _ w' => Scene c.name (Edit.leavesAll deleteEdits o) D' w') (delete c) past w := by
  unfold delete
  refine yields_edit_step hD (.setStatus .deleting none) hs fun past₁ w₁ hs₁ => ?_
  refine yields_bind (yields_mapFailure ((yields_findRelease hD hs₁).mono ?_))
  intro r _ w₂ hfound htrue found hr past₂
  obtain ⟨hs₂, rs, hlisted, hrs⟩ := hfound htrue found hr
  have hremove : ∀ past w, Scene c.name ((Edit.setStatus .deleting none).leaves o) D' w →
      Yields (fun _ w' => Scene c.name (Edit.leavesAll deleteEdits o) D' w')
        (discard ((change (.removeFinalizer c.name)).orRequeue "failed to remove finalizer")) past w :=
    fun past w hs => yields_discard (yields_mapFailure (yields_edit hD' .removeFinalizer hs))
  cases found with
  | none => exact hremove _ _ ⟨hs₂.1, hnone rs w₂ hlisted hrs hs₂.2⟩
  | some release =>
    refine yields_bind (yields_mapFailure (yields_ask (c := .uninstall release.name release.namespace)
      fun u w₃ hperf past₃ => ?_))
    exact hremove _ _ (hs₂.order rfl hperf (horder rs release _ _ u hlisted hrs hs₂.2 hperf))

end Operations

end ChartOperator
