import ChartOperator.Lifecycle.Reconcile
import ChartOperator.Proofs.World.Confined

set_option autoImplicit false

/-!
# Parts of a pass that order nothing

A quiet errand asks, and changes nothing but the status of one component and the version that it asks for.
The choice of an operation only asks (`asks_requiredOperation`), and all that follows an order is quiet: so
is the settling of the outcome (`quiet_settle`).

What quiet errands keep is a `Lasting` property of the stored component (`steady_stores`), and that
nothing was ordered, that no call meets a fault, and what is deployed.
-/

namespace ChartOperator

open ComponentStore (VersionFree settled)
open Errand

/-- A change of the status of a component, or of the version that it asks for. -/
inductive Gentle (n : String) : Mutation → Prop
  | status (missingIsDone : Bool) (f : ComponentStatus → ComponentStatus) :
    Gentle n (.ofStatus n missingIsDone f)
  | version (v : String) : Gentle n (.setVersion n v)

/-- The errand only asks. -/
abbrev Asks {α : Type} (t : Errand α) : Prop := Confined Call.IsQuery (fun _ => False) t

/-- The errand only asks about workloads and about what is deployed. -/
abbrev Inquires {α : Type} (t : Errand α) : Prop := Confined (fun c => c.isInquiry = true) (fun _ => False) t

/-- The errand asks, and changes one component gently. -/
abbrev Quiet {α : Type} (n : String) (t : Errand α) : Prop := Confined Call.IsQuery (Gentle n) t

section Programs

variable {config : Config} {c : Component} {n : String}

theorem asks_of_inquires {α : Type} {t : Errand α} (h : Inquires t) : Asks t :=
  h.mono (fun _ => Call.isQuery_of_isInquiry) fun _ hm => hm

theorem quiet_of_inquires {α : Type} {t : Errand α} (h : Inquires t) : Quiet n t :=
  h.mono (fun _ => Call.isQuery_of_isInquiry) nofun

theorem inquires_requiredOperation (c : Component) (chart : ChartSpec) : Inquires (requiredOperation c chart) := by
  unfold requiredOperation
  split
  · exact confined_pure _
  split
  · exact confined_pure _
  split
  · exact confined_pure _
  refine confined_bind (confined_mapFailure (confined_ask rfl)) fun releases => ?_
  split
  · exact confined_pure _
  next r _ =>
  -- The verdict is no question, whatever it is.
  generalize verdict c r = o
  refine confined_bind (confined_lift o) fun o => ?_
  split
  · exact confined_pure _
  refine confined_bind (confined_mapFailure (confined_ask rfl)) fun deployed => ?_
  refine confined_bind (confined_mapFailure (confined_ask rfl)) fun desired => ?_
  exact confined_pure _

theorem asks_requiredOperation (c : Component) (chart : ChartSpec) : Asks (requiredOperation c chart) :=
  asks_of_inquires (inquires_requiredOperation c chart)

theorem inquires_findRelease (c : Component) : Inquires (findRelease c) :=
  confined_bind (confined_ask rfl) fun _ => confined_pure _

theorem quiet_persistStatus (c : Component) (status : Lifecycle) (installed : Option String) :
    Quiet c.name (persistStatus c status installed) :=
  confined_change (.status _ _)

theorem inquires_upgradeSpec (config : Config) (c : Component) : Inquires (upgradeSpec config c) := by
  unfold upgradeSpec
  extract_lets chart
  split
  · exact confined_pure _
  · refine confined_bind (confined_mapFailure (inquires_findRelease c)) fun found => ?_
    split <;> exact confined_pure _

theorem quiet_upgradeSpec (config : Config) (n : String) (c : Component) : Quiet n (upgradeSpec config c) :=
  quiet_of_inquires (inquires_upgradeSpec config c)

theorem inquires_deployedVersionOf (c : Component) : Inquires (deployedVersionOf c) := by
  refine confined_bind (inquires_findRelease c) fun found => ?_
  split
  · exact confined_pure _
  · exact confined_throw _

theorem quiet_settledVersion (c : Component) : Quiet c.name (settledVersion c) := by
  unfold settledVersion
  split
  · exact confined_pure _
  · refine confined_bind (confined_mapFailure (quiet_of_inquires (inquires_deployedVersionOf c))) ?_
    intro version
    refine confined_bind (confined_discard (confined_mapFailure ?_)) fun _ => confined_pure _
    exact confined_change (.version version)

theorem inquires_listKinds (component «namespace» : String) (kinds : List WorkloadKind) :
    Inquires (listKinds component «namespace» kinds) := by
  induction kinds with
  | nil => exact confined_pure _
  | cons kind kinds ih =>
    refine confined_bind (confined_outcome (confined_ask rfl)) fun found => ?_
    refine confined_bind ih fun ⟨ws, failures⟩ => ?_
    cases found <;> exact confined_pure _

theorem inquires_findWorkloads (component «namespace» : String) :
    Inquires (findWorkloads component «namespace») := by
  unfold findWorkloads
  refine confined_bind (inquires_listKinds component «namespace» _) fun ⟨found, failures⟩ => ?_
  exact confined_bind (confined_lift (Failure.join failures)) fun _ => confined_pure _

theorem quiet_updateHealth (n «namespace» : String) (installed : Option String) :
    Quiet n (updateHealth n «namespace» installed) := by
  unfold updateHealth persistHealth
  refine confined_bind (quiet_of_inquires (inquires_findWorkloads n «namespace»)) fun found => ?_
  refine confined_bind (confined_discard (confined_mapFailure (confined_change (.status _ _)))) fun _ => ?_
  exact confined_bind (confined_count _) fun _ => confined_pure _

theorem quiet_clearBackoff (c : Component) : Quiet c.name (clearBackoff c) := by
  unfold clearBackoff
  split
  · exact confined_pure _
  · exact confined_discard (confined_mapFailure (confined_change (.status _ _)))

/-- The outcome of an operation is settled quietly. -/
theorem quiet_settle (config : Config) (outcome : Except Failure Unit) (c : Component)
    (fallback : Lifecycle) :
    Quiet c.name (settle config outcome c fallback) := by
  unfold settle
  split
  · exact confined_bind (quiet_clearBackoff c) fun _ => confined_pure _
  · refine confined_bind (confined_discard (confined_mapFailure (confined_change (.status _ _)))) fun _ => ?_
    refine confined_bind (confined_announce _ _ _ _) fun _ => ?_
    exact confined_bind (confined_count _) fun _ => confined_pure _
  · exact confined_bind (quiet_clearBackoff c) fun _ => confined_throw _

theorem quiet_validateName (c : Component) : Quiet c.name (validateName c) := by
  unfold validateName
  split
  · exact confined_pure _
  · exact confined_bind (confined_announce _ _ _ _) fun _ => confined_throw _

/-- What is told about the outcome of an operation, and what is done about it. -/
def conclude (config : Config) (c : Component) (op : Operation) (reason : String) (fallback : Lifecycle)
    (outcome : Except Failure Unit) : Errand NextPass := do
  match outcome with
  | .ok () => announce c .normal reason (op.capitalText ++ " successful.")
  | .error e =>
    count (.failures op.text)
    announce c .warning reason (op.capitalText ++ " failed. Reason: " ++ e.message ++ ".")
  settle config outcome c fallback

theorem quiet_conclude (config : Config) (c : Component) (op : Operation) (reason : String)
    (fallback : Lifecycle) (outcome : Except Failure Unit) :
    Quiet c.name (conclude config c op reason fallback outcome) := by
  have hsettle := quiet_settle config outcome c fallback
  cases outcome with
  | ok u => exact confined_bind (confined_announce _ _ _ _) fun _ => hsettle
  | error e =>
    refine confined_bind (confined_count _) fun _ => ?_
    exact confined_bind (confined_announce _ _ _ _) fun _ => hsettle

/-- A quiet errand is confined to any calls that queries are among. -/
theorem confined_of_quiet {α : Type} {t : Errand α} {calls : Call → Prop} (h : Quiet n t)
    (hcalls : ∀ d : Call, d.IsQuery → calls d) : Confined calls (fun _ => True) t :=
  Program.Confined.mono h hcalls fun _ _ => trivial

/-- To carry out an operation takes queries, and what the operation calls. -/
theorem confined_carryOut {t : Errand Unit} {calls : Call → Prop} (hcalls : ∀ d : Call, d.IsQuery → calls d)
    (ht : Confined calls (fun _ => True) t) (config : Config) (c : Component) (op : Operation) (reason : String)
    (fallback : Lifecycle) : Confined calls (fun _ => True) (carryOut config c op t reason fallback) := by
  refine confined_bind (confined_of_quiet (quiet_validateName c) hcalls) fun _ => ?_
  refine confined_bind (confined_announce _ _ _ _) fun _ => ?_
  refine confined_bind (confined_outcome ht) fun outcome => ?_
  exact confined_of_quiet (quiet_conclude config c op reason fallback outcome) hcalls

/-- An operation on a component that is named after its chart is started, and concluded. -/
theorem carryOut_of_named (config : Config) (op : Operation) (t : Errand Unit) (reason : String)
    (fallback : Lifecycle) (hname : c.name = c.spec.name) :
    carryOut config c op t reason fallback = (do
      announce c .normal reason ("Starting " ++ op.text ++ "...")
      let outcome ← t.outcome
      conclude config c op reason fallback outcome) := by
  have hvalid : validateName c = pure () := by rw [validateName, if_pos hname]
  unfold carryOut
  rw [hvalid]
  rfl

/-- An operation on any other component is refused. -/
theorem carryOut_of_misnamed (config : Config) (op : Operation) (t : Errand Unit) (reason : String)
    (fallback : Lifecycle) (hname : c.name ≠ c.spec.name) :
    carryOut config c op t reason fallback = (do
      let e := Failure.nameMismatch c.name c.spec.name
      announce c .warning validationReason e.message
      throw e) := by
  unfold carryOut validateName
  rw [if_neg hname]
  rfl

end Programs

/-! ## What quiet errands keep -/

/-- What holds of a component keeps holding of it while nobody deletes it and only its status and the version
that it asks for are changed. -/
structure Lasting (P : Component → Prop) : Prop where
  versionFree : VersionFree P
  alive : ∀ {x}, P x → x.isBeingDeleted = false
  status : ∀ {x} f, P x → P (x.mapStatus f)
  version : ∀ {x} v, P x → P { x with spec := { x.spec with version := v } }

/-- Questions and gentle changes of a component keep the invariant. -/
structure Steady (n : String) (inv : List Moment → World → Prop) : Prop where
  ask : ∀ {past w c}, c.IsQuery → inv past w → inv (past ++ [⟨w, c⟩]) (w.perform c).2
  change : ∀ {past w m} {rule : Rule}, (∀ past p, p.call.isOrder = false → rule past p) → Gentle n m →
    inv past w → Obeys rule (fun _ => inv) (change m) past w
  leave : ∀ {past w} note, inv past w → inv past (w.leave note)

section Invariants

variable {n : String} {inv inv' : List Moment → World → Prop}

theorem Steady.and (h : Steady n inv) (h' : Steady n inv') :
    Steady n fun past w => inv past w ∧ inv' past w where
  ask hc hw := ⟨h.ask hc hw.1, h'.ask hc hw.2⟩
  change hrule hm hw := (h.change hrule hm hw.1).and (h'.change hrule hm hw.2)
  leave note hw := ⟨h.leave note hw.1, h'.leave note hw.2⟩

theorem Steady.or (h : Steady n inv) (h' : Steady n inv') :
    Steady n fun past w => inv past w ∨ inv' past w where
  ask hc hw := hw.imp (h.ask hc) (h'.ask hc)
  change hrule hm hw := hw.elim (fun hw => (h.change hrule hm hw).mono fun _ _ _ => .inl)
    fun hw => (h'.change hrule hm hw).mono fun _ _ _ => .inr
  leave note hw := hw.imp (h.leave note) (h'.leave note)

theorem steady_of_perform
    (hcall : ∀ past w c, c.isOrder = false → inv past w → inv (past ++ [⟨w, c⟩]) (w.perform c).2)
    (hleave : ∀ past w note, inv past w → inv past (w.leave note)) : Steady n inv where
  ask hc hw := hcall _ _ _ hc.2 hw
  change hrule _ hw := obeys_change_of_perform hrule hcall hw
  leave note hw := hleave _ _ note hw

theorem Steady.imp (a : Prop) (h : Steady n inv) : Steady n fun past w => a → inv past w := by
  by_cases ha : a
  · simp only [ha, true_imp_iff]
    exact h
  · simp only [ha, false_imp_iff]
    exact steady_of_perform (fun _ _ _ _ _ => trivial) fun _ _ _ _ => trivial

/-- None of the calls is an order. -/
def Unordered (past : List Moment) : Prop := ∀ p ∈ past, p.call.isOrder = false

theorem Unordered.snoc {past : List Moment} {p : Moment} (h : Unordered past) (hp : p.call.isOrder = false) :
    Unordered (past ++ [p]) := by
  intro q hq
  rcases List.mem_append.1 hq with hq | hq
  · exact h q hq
  · rw [List.mem_singleton.1 hq]
    exact hp

theorem steady_unordered : Steady n fun past _ => Unordered past :=
  steady_of_perform (fun _ _ _ hc hpast => hpast.snoc hc) fun _ _ _ hpast => hpast

theorem steady_faultFree : Steady n fun _ w => w.FaultFree := by
  refine steady_of_perform (fun _ w c _ hw => ?_) fun _ w note hw => ?_
  · exact (World.perform_of_faultFree hw c).2.2.2.2
  · cases note <;> exact hw

theorem steady_releases (rs : List Release) : Steady n fun _ w => w.charts.releases = rs := by
  refine steady_of_perform (fun _ w c hc hw => ?_) fun _ w note hw => ?_
  · exact (World.releases_perform w hc).trans hw
  · cases note <;> exact hw

theorem steady_stores {P : Component → Prop} (hP : Lasting P) : Steady n fun _ w => w.Stores n P where
  ask hc hw := World.stores_of_alike hP.versionFree (World.alike_perform _ hc.1) hw
  change hrule hm hw := by
    have hstays : ∀ {x}, P x → settled x ≠ none := fun hx => ComponentStore.settled_ne_none (hP.alive hx)
    cases hm with
    | status missingIsDone f =>
      refine obeys_change_stores Mutation.sound_ofStatus hP.versionFree hrule ?_ hw
      rintro x wr hx ⟨⟩
      exact ⟨hP.status f hx, hstays (hP.status f hx)⟩
    | version v =>
      refine obeys_change_stores Mutation.sound_setVersion hP.versionFree hrule ?_ hw
      rintro x wr hx ⟨⟩
      have hwritten := hP.version v hx
      exact ⟨hwritten, hstays hwritten⟩
  leave note hw := by cases note <;> exact hw

/-- A quiet errand keeps a steady invariant, and to every rule that speaks of orders alone. -/
theorem Steady.obeys {α : Type} {t : Errand α} {rule : Rule} {past : List Moment} {w : World}
    (h : Steady n inv)
    (hrule : ∀ past p, p.call.isOrder = false → rule past p) (ht : Quiet n t) (hw : inv past w) :
    Obeys rule (fun _ => inv) t past w :=
  Program.obeys_of_confined ht (fun past _ _ hc hw => ⟨hrule past _ hc.2, h.ask hc hw⟩)
    (fun _ _ _ hm hw => h.change hrule hm hw) (fun _ _ note hw => h.leave note hw) hw

/-- A quiet step of an errand leads to the next one under the same invariant. -/
theorem Steady.bind {α β : Type} {t : Errand α} {f : α → Errand β} {rule : Rule}
    {post : Except Failure β → List Moment → World → Prop} {past : List Moment} {w : World} (h : Steady n inv)
    (hrule : ∀ past p, p.call.isOrder = false → rule past p) (ht : Quiet n t) (hw : inv past w)
    (hfail : ∀ e past w, inv past w → post (.error e) past w)
    (hnext : ∀ a past w, inv past w → Obeys rule post (f a) past w) : Obeys rule post (t >>= f) past w := by
  refine obeys_bind ((h.obeys hrule ht hw).mono fun r past w hw => ?_)
  cases r with
  | ok a => exact hnext a past w hw
  | error e => exact hfail e past w hw

end Invariants

end ChartOperator
