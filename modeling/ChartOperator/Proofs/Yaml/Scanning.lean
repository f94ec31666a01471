import ChartOperator.Proofs.Yaml.Fences

set_option autoImplicit false

/-!
# Scanning a text among white space

The scanner remembers places of the text, but compares them with each other only. So over a text in another
place it takes the same steps (`Scanner.take_alike`), and yields the same tokens (`Scanner.run_alike`), if no
block scalar reaches the white space behind the text. The room for its steps does not count, if it is larger
than the text.
-/

namespace ChartOperator.Yaml

/-- The place of a key, so many characters and lines further. -/
def PossibleKey.moved (k l : Nat) (x : PossibleKey) : PossibleKey := { x with spot := x.spot.moved k l }

namespace Scanner

/-- The scanner over another text, in which the keys stand so many characters and lines further. -/
def moved (k l : Nat) (keyAllowed : Bool) (rest : List Spot) (s : Scanner) : Scanner :=
  { s with keyAllowed, rest, keys := s.keys.map (Option.map (PossibleKey.moved k l)) }

/-- Two scanners read the same text in different places, and read the same of it so far. Whether a key may
follow is no matter at the end of the text. -/
structure Alike (k l : Nat) (loose : Prop) (s s' : Scanner) : Prop where
  rest : Padded k l loose s.rest s'.rest
  keyAllowed : s'.keyAllowed = s.keyAllowed ∨ s.rest = []
  same : s' = s.moved k l s'.keyAllowed s'.rest

section Steps

variable {k l : Nat} {loose : Prop} {allowed : Bool} {rest r r' : List Spot} {s s' : Scanner} {here : Spot}
  {t : Token}

@[simp] theorem inFlow_moved : (s.moved k l allowed rest).inFlow = s.inFlow := by
  simp [inFlow, moved]

@[simp] theorem leave_moved (column : Int) :
    (s.moved k l allowed rest).leave column = (s.leave column).moved k l allowed rest := by
  unfold leave
  rw [inFlow_moved]
  split <;> rfl

theorem keyAllowed_leave (column : Int) : (s.leave column).keyAllowed = s.keyAllowed := by
  unfold leave
  split <;> rfl

@[simp] theorem enter_moved (column before : Nat) :
    (s.moved k l allowed rest).enter column before t = (s.enter column before t).moved k l allowed rest := by
  unfold enter
  rw [inFlow_moved]
  split
  · next h => exact (if_pos h).symm ▸ rfl
  · next h => exact (if_neg h).symm ▸ rfl

theorem dropKey_moved :
    Option.Rel (fun x y => y = x.moved k l allowed rest) s.dropKey (s.moved k l allowed rest).dropKey := by
  obtain ⟨_, _, _, _, _, _, keys⟩ := s
  rcases keys with _ | ⟨_ | key, keys⟩
  · exact .some rfl
  · exact .some rfl
  · exact rel_ite Iff.rfl (fun _ => .none) fun _ => .some rfl

theorem noteKey_moved :
    Option.Rel (fun x y => y = x.moved k l s.keyAllowed rest) (s.noteKey here)
      ((s.moved k l s.keyAllowed rest).noteKey (here.moved k l)) := by
  refine rel_ite Iff.rfl (fun _ => .some rfl) fun _ => ?_
  refine rel_bind dropKey_moved ?_
  rintro x _ rfl
  refine .some ?_
  simp [moved, inFlow, PossibleKey.moved]

theorem past_alike (h : Padded k l loose r r') (permits : Bool) :
    Option.Rel (Alike k l loose) (s.past t permits r) ((s.moved k l allowed rest).past t permits r') := by
  refine rel_bind dropKey_moved ?_
  rintro x _ rfl
  exact .some ⟨h, .inl rfl, rfl⟩

theorem pastKey_alike (h : Padded k l loose r r') :
    Option.Rel (Alike k l loose) (s.pastKey here t r)
      ((s.moved k l s.keyAllowed rest).pastKey (here.moved k l) t r') := by
  refine rel_bind noteKey_moved ?_
  rintro x _ rfl
  exact .some ⟨h, .inl rfl, rfl⟩

/-- A name or tag was read alike. -/
theorem pastKey_of_read {α : Type} {x y : Option (α × List Spot)} (h : Option.Rel (ReadAlike k l loose) x y)
    (f : α → Token) :
    Option.Rel (Alike k l loose) (x.bind fun (a, r) => s.pastKey here (f a) r)
      (y.bind fun (a, r) => (s.moved k l s.keyAllowed rest).pastKey (here.moved k l) (f a) r) := by
  refine rel_bind h ?_
  rintro ⟨a, r₁⟩ ⟨_, r₂⟩ ⟨rfl, hrest⟩
  exact pastKey_alike hrest

theorem pastKey_of_scalar {x y : Option Scalar} (h : Option.Rel (ScalarAlike k l loose) x y) :
    Option.Rel (Alike k l loose) (x.bind fun a => s.pastKey here (.scalar a.text false) a.rest)
      (y.bind fun a => (s.moved k l s.keyAllowed rest).pastKey (here.moved k l) (.scalar a.text false) a.rest) := by
  refine rel_bind h ?_
  intro a b hab
  rw [hab.text]
  exact pastKey_alike hab.rest

theorem openBracket_alike (h : Padded k l loose r r') :
    Option.Rel (Alike k l loose) (s.openBracket here t r)
      ((s.moved k l s.keyAllowed rest).openBracket (here.moved k l) t r') := by
  refine rel_bind noteKey_moved ?_
  rintro x _ rfl
  exact .some ⟨h, .inl rfl, rfl⟩

theorem Alike.inFlow (h : Alike k l loose s s') : s'.inFlow = s.inFlow := by
  rw [h.same, inFlow_moved]

theorem closeBracket_alike (h : Padded k l loose r r') :
    Option.Rel (Alike k l loose) (s.closeBracket t r) ((s.moved k l allowed rest).closeBracket t r') := by
  refine rel_bind (past_alike h false) ?_
  intro x y hxy
  refine .some ?_
  rw [hxy.inFlow]
  split
  · refine ⟨hxy.rest, hxy.keyAllowed, ?_⟩
    rw [hxy.same]
    simp [moved]
  · exact hxy

theorem item_alike (h : Padded k l loose r r') :
    Option.Rel (Alike k l loose) (s.item here r) ((s.moved k l s.keyAllowed rest).item (here.moved k l) r') := by
  unfold item
  rw [inFlow_moved, enter_moved]
  refine rel_ite Iff.rfl (fun _ => past_alike h true) fun _ => ?_
  exact rel_ite Iff.rfl (fun _ => .none) fun _ => past_alike h true

theorem markedKey_alike (h : Padded k l loose r r') :
    Option.Rel (Alike k l loose) (s.markedKey here r)
      ((s.moved k l s.keyAllowed rest).markedKey (here.moved k l) r') := by
  unfold markedKey
  rw [inFlow_moved, enter_moved]
  refine rel_ite Iff.rfl (fun _ => past_alike h false) fun _ => ?_
  exact rel_ite Iff.rfl (fun _ => .none) fun _ => past_alike h true

theorem value_of_key {key : PossibleKey} {keys : List (Option PossibleKey)} (h : s.keys = some key :: keys) :
    s.value here r =
      some { (({ s with keys := none :: keys }.insert key.before .key).enter key.spot.column key.before
        .mappingStart).push .value with keyAllowed := false, rest := r } := by
  simp only [value, h]

theorem value_of_no_key (h : ∀ key keys, s.keys ≠ some key :: keys) :
    s.value here r =
      if s.inFlow then some { s.push .value with keyAllowed := false, rest := r }
      else if !s.keyAllowed then none
      else some { (s.enter here.column s.count .mappingStart).push .value with keyAllowed := true, rest := r } := by
  unfold value
  split
  · next key keys hkeys => exact absurd hkeys (h key keys)
  · rfl

theorem value_alike (h : Padded k l loose r r') :
    Option.Rel (Alike k l loose) (s.value here r) ((s.moved k l s.keyAllowed rest).value (here.moved k l) r') := by
  by_cases hkey : ∃ key keys, s.keys = some key :: keys
  · obtain ⟨key, keys, hkeys⟩ := hkey
    have hmoved : (s.moved k l s.keyAllowed rest).keys =
        some (key.moved k l) :: keys.map (Option.map (PossibleKey.moved k l)) := by
      simp [moved, hkeys]
    have hinsert : ({ s.moved k l s.keyAllowed rest with
          keys := none :: keys.map (Option.map (PossibleKey.moved k l)) }.insert key.before .key) =
        ({ s with keys := none :: keys }.insert key.before .key).moved k l s.keyAllowed rest := rfl
    rw [value_of_key hkeys, value_of_key hmoved]
    refine .some ⟨h, .inl rfl, ?_⟩
    simp only [PossibleKey.moved, hinsert, enter_moved, Spot.column_moved]
    rfl
  · have hkeys : ∀ key keys, s.keys ≠ some key :: keys := fun key keys he => hkey ⟨key, keys, he⟩
    have hmoved : ∀ key keys, (s.moved k l s.keyAllowed rest).keys ≠ some key :: keys := by
      simp only [moved]
      intro key keys he
      obtain ⟨x, xs, hcons, hx, -⟩ := List.map_eq_cons_iff.1 he
      obtain ⟨key', rfl, -⟩ := Option.map_eq_some_iff.1 hx
      exact hkeys key' xs hcons
    rw [value_of_no_key hkeys, value_of_no_key hmoved, inFlow_moved]
    refine rel_ite Iff.rfl (fun _ => .some ⟨h, .inl rfl, rfl⟩) fun _ => ?_
    refine rel_ite Iff.rfl (fun _ => .none) fun _ => .some ⟨h, .inl rfl, ?_⟩
    rw [Spot.column_moved, enter_moved]
    rfl

theorem Alike.allowing (h : Alike k l loose s s') {a a' : Bool} (ha : a' = a ∨ s.rest = []) :
    Alike k l loose (if a then { s with keyAllowed := true } else s)
      (if a' then { s' with keyAllowed := true } else s') := by
  cases a <;> cases a'
  · exact h
  · exact ⟨h.rest, .inr (ha.resolve_left (by decide)), by rw [h.same]; rfl⟩
  · exact ⟨h.rest, .inr (ha.resolve_left (by decide)), by rw [h.same]; rfl⟩
  · exact ⟨h.rest, .inl rfl, by rw [h.same]; rfl⟩

theorem plainScalar_alike (h : Padded k l loose r r') :
    Option.Rel (Alike k l loose) (s.plainScalar here r)
      ((s.moved k l s.keyAllowed rest).plainScalar (here.moved k l) r') := by
  unfold plainScalar
  rw [inFlow_moved]
  refine rel_bind (h.plain _ _ _ _) ?_
  rintro x y hxy
  have hpast : Option.Rel (Alike k l loose) (s.pastKey here (.scalar x.text true) x.rest)
      ((s.moved k l s.keyAllowed rest).pastKey (here.moved k l) (.scalar y.text true) y.rest) := by
    rw [hxy.text]
    exact pastKey_alike hxy.rest
  generalize hread : s.pastKey here (.scalar x.text true) x.rest = z at hpast ⊢
  generalize (s.moved k l s.keyAllowed rest).pastKey (here.moved k l) (.scalar y.text true) y.rest = z' at hpast ⊢
  cases hpast with
  | none => exact .none
  | some hz => exact .some (hz.allowing (by rw [rest_pastKey hread]; exact hxy.brokeLine))

/-! ### One token -/

theorem dropStale_moved (keys : List (Option PossibleKey)) :
    dropStale (here.moved k l) (keys.map (Option.map (PossibleKey.moved k l))) =
      (dropStale here keys).map (List.map (Option.map (PossibleKey.moved k l))) := by
  induction keys with
  | nil => rfl
  | cons key keys ih =>
    cases key with
    | none =>
      simp only [List.map_cons, Option.map_none, dropStale, ih, Option.map_map]
      rfl
    | some key =>
      have hstale : (key.moved k l).spot.line < (here.moved k l).line ∨
          (key.moved k l).spot.index + keyLimit < (here.moved k l).index ↔
            key.spot.line < here.line ∨ key.spot.index + keyLimit < here.index := by
        simp only [PossibleKey.moved, Spot.moved]
        omega
      rw [List.map_cons, Option.map_some, dropStale, dropStale, ih]
      simp only [hstale, show (key.moved k l).required = key.required from rfl]
      split
      · split
        · rfl
        · simp [Option.map_map, Function.comp_def]
      · simp [Option.map_map, Function.comp_def]

theorem isBlank_of_isBlankOrEnd {c : Char} (h : isBlankOrEnd c = false) : isBlank c = false :=
  (Bool.or_eq_false_iff.1 h).1

/-- One token is taken alike. A block scalar ends before the white space behind the text. -/
theorem take_alike (hmark : k = 0 ∨ here.index ≠ 0 ∨ here.char ≠ byteOrderMark) (h : Padded k l loose r r')
    (hguard : loose → Guarded (here :: r)) :
    Option.Rel (Alike k l loose) (s.take here r) ((s.moved k l s.keyAllowed rest).take (here.moved k l) r') := by
  have hall : Padded k l loose (here :: r) (here.moved k l :: r') := .spot here hmark h
  have hend : isBlankOrEnd (front r') = isBlankOrEnd (front r) := h.ahead blind_isBlankOrEnd 0
  have hstart : isMarker '-' (here.moved k l :: r') = isMarker '-' (here :: r) := hall.isMarker rfl (by decide)
  have hstop : isMarker '.' (here.moved k l :: r') = isMarker '.' (here :: r) := hall.isMarker rfl (by decide)
  unfold take
  simp only [Spot.column_moved, Spot.char_moved, inFlow_moved, leave_moved, hend, hstart, hstop]
  refine rel_ite Iff.rfl (fun _ => ?_) fun _ => ?_
  · refine rel_bind h.directive? ?_
    rintro ⟨t, r₁⟩ ⟨_, r₂⟩ ⟨rfl, hrest⟩
    exact past_alike hrest false
  refine rel_ite Iff.rfl (fun _ => past_alike (h.drop 2) false) fun _ => ?_
  refine rel_ite Iff.rfl (fun _ => past_alike (h.drop 2) false) fun _ => ?_
  refine rel_ite Iff.rfl (fun _ => openBracket_alike h) fun _ => ?_
  refine rel_ite Iff.rfl (fun _ => openBracket_alike h) fun _ => ?_
  refine rel_ite Iff.rfl (fun _ => closeBracket_alike h) fun _ => ?_
  refine rel_ite Iff.rfl (fun _ => closeBracket_alike h) fun _ => ?_
  refine rel_ite Iff.rfl (fun _ => past_alike h true) fun _ => ?_
  refine rel_ite Iff.rfl (fun _ => item_alike h) fun hdash => ?_
  refine rel_ite Iff.rfl (fun _ => markedKey_alike h) fun _ => ?_
  refine rel_ite Iff.rfl (fun _ => value_alike h) fun _ => ?_
  refine rel_ite Iff.rfl (fun _ => pastKey_of_read h.anchorName? .alias) fun _ => ?_
  refine rel_ite Iff.rfl (fun _ => pastKey_of_read h.anchorName? .anchor) fun _ => ?_
  refine rel_ite Iff.rfl (fun _ => pastKey_of_read (hall.tag? _) id) fun _ => ?_
  refine rel_ite Iff.rfl (fun hopens => ?_) fun _ => ?_
  · refine rel_bind (h.block (fun hloose => (hguard hloose).beforeFence hopens.1) _ _) ?_
    intro x y hxy
    rw [hxy.text]
    exact past_alike hxy.rest true
  refine rel_ite Iff.rfl (fun _ => pastKey_of_scalar (h.singleQuoted _ _)) fun _ => ?_
  refine rel_ite Iff.rfl (fun _ => pastKey_of_scalar (h.doubleQuoted _ _ _)) fun _ => ?_
  refine rel_ite Iff.rfl (fun _ => plainScalar_alike hall) fun _ => ?_
  refine rel_ite ?_ (fun _ => plainScalar_alike hall) fun _ => ?_
  · -- A dash before white space was an item, so that no white space follows this one.
    refine and_congr_right fun hc => ?_
    have hnext : isBlankOrEnd (front r) = false := Bool.eq_false_iff.2 fun he => hdash ⟨hc, he⟩
    rw [isBlank_of_isBlankOrEnd hnext, isBlank_of_isBlankOrEnd (hend.trans hnext)]
  exact rel_ite Iff.rfl (fun _ => plainScalar_alike hall) fun _ => .none

/-! ### The whole text -/

/-- White space is skipped alike. If no more is left of the one text, no more is left of the other. -/
structure BlanksAlike (k l : Nat) (loose : Prop) (x y : Bool × List Spot) : Prop where
  rest : Padded k l loose x.2 y.2
  keyAllowed : y.1 = x.1 ∨ x.2 = []
  ends : x.2 = [] → y.2 = []

theorem skipBlanks_layout (flow comment : Bool) {tail : List Spot} (h : ∀ s ∈ tail, isLayout s.char = true) :
    (skipBlanks flow allowed comment tail).2 = [] := by
  induction tail generalizing allowed comment with
  | nil => rfl
  | cons s tail ih =>
    have htail : ∀ t ∈ tail, isLayout t.char = true := fun t ht => h t (List.mem_cons_of_mem s ht)
    rcases layout_cases (h s List.mem_cons_self) with hc | hc | hc | hc
    · cases comment <;> simpa [skipBlanks, hc, isBreak] using ih _ htail
    all_goals simpa [skipBlanks, hc, isBreak] using ih _ htail

theorem skipBlanks_alike (h : Padded k l loose r r') (flow comment : Bool) {allowed' : Bool}
    (hallowed : allowed' = allowed ∨ r = []) :
    BlanksAlike k l loose (skipBlanks flow allowed comment r) (skipBlanks flow allowed' comment r') := by
  induction h generalizing allowed allowed' comment with
  | ended h =>
    have hnil : (skipBlanks flow allowed' comment _).2 = [] := skipBlanks_layout flow comment fun s hs => (h s hs).2
    refine ⟨?_, .inr rfl, fun _ => hnil⟩
    rw [hnil]
    exact .ended fun s hs => by cases hs
  | @spot s r r' hmark h ih =>
    obtain rfl := hallowed.resolve_right (List.cons_ne_nil s r)
    have hopens : ((s.moved k l).index == 0 && s.char == byteOrderMark) =
        (s.index == 0 && s.char == byteOrderMark) := by
      rcases hmark with rfl | hindex | hchar
      · rfl
      · have hlater : (s.moved k l).index ≠ 0 := fun he => hindex (Nat.eq_zero_of_add_eq_zero_right he)
        rw [beq_eq_false_iff_ne.2 hindex, beq_eq_false_iff_ne.2 hlater]
      · rw [beq_eq_false_iff_ne.2 hchar, Bool.and_false, Bool.and_false]
    have hrest : ∀ permits comment, BlanksAlike k l loose (skipBlanks flow permits comment r)
        (skipBlanks flow permits comment r') := fun _ comment => ih comment (.inl rfl)
    unfold skipBlanks
    simp only [Spot.char_moved, hopens]
    refine rel_ite Iff.rfl (fun _ => hrest _ _) fun _ => ?_
    refine rel_ite Iff.rfl (fun _ => hrest _ _) fun _ => ?_
    refine rel_ite Iff.rfl (fun _ => hrest _ _) fun _ => ?_
    refine rel_ite Iff.rfl (fun _ => hrest _ _) fun _ => ?_
    exact ⟨.spot s hmark h, .inl rfl, fun he => (List.cons_ne_nil _ _ he).elim⟩

theorem map_eq_of_rel {α β γ : Type} {R : α → β → Prop} {f : α → γ} {g : β → γ} {x : Option α} {y : Option β}
    (h : Option.Rel R x y) (hfg : ∀ a b, R a b → g b = f a) : y.map g = x.map f := by
  cases h with
  | none => rfl
  | some hab => exact congrArg some (hfg _ _ hab)

theorem bind_eq_of_rel {α β γ : Type} {R : α → β → Prop} {f : α → Option γ} {g : β → Option γ} {x : Option α}
    {y : Option β} (h : Option.Rel R x y) (hfg : ∀ a b, x = some a → y = some b → R a b → g b = f a) :
    y.bind g = x.bind f := by
  cases h with
  | none => rfl
  | some hab => exact hfg _ _ rfl rfl hab

/-- Over a text in another place the same tokens are read, whatever room there is for the steps. -/
theorem run_alike (h : Alike k l loose s s') (hguard : loose → Guarded s.rest) {room room' : Nat}
    (hroom : s.rest.length < room) (hroom' : s'.rest.length < room') : run room' s' = run room s := by
  induction room generalizing room' s s' with
  | zero => exact absurd hroom (Nat.not_lt_zero _)
  | succ room ih =>
    cases room' with
    | zero => exact absurd hroom' (Nat.not_lt_zero _)
    | succ room' =>
    have hblanks := skipBlanks_alike h.rest s.inFlow false h.keyAllowed
    have hsuffix := skipBlanks_suffix s.inFlow s.keyAllowed false s.rest
    have hsuffix' := skipBlanks_suffix s.inFlow s'.keyAllowed false s'.rest
    unfold run
    rw [h.inFlow]
    generalize skipBlanks s.inFlow s.keyAllowed false s.rest = x at hblanks hsuffix ⊢
    generalize skipBlanks s.inFlow s'.keyAllowed false s'.rest = x' at hblanks hsuffix' ⊢
    obtain ⟨permits, rest⟩ := x
    obtain ⟨permits', rest'⟩ := x'
    obtain ⟨hpadded, hpermits, hends⟩ := hblanks
    dsimp only at hpadded hpermits hends hsuffix hsuffix' ⊢
    cases hpadded with
    | ended hended =>
      obtain rfl := hends rfl
      have hleft : { s' with keyAllowed := permits', rest := [] }.leave (-1) =
          ({ s with keyAllowed := permits, rest := [] }.leave (-1)).moved k l permits' [] := by
        rw [← leave_moved, h.same]
        rfl
      dsimp only
      rw [hleft]
      exact map_eq_of_rel dropKey_moved fun x y hxy => by rw [hxy]; rfl
    | @spot here r r' hmark hrest =>
      obtain rfl := hpermits.resolve_right (List.cons_ne_nil _ _)
      have hstale : dropStale (here.moved k l) s'.keys =
          (dropStale here s.keys).map (List.map (Option.map (PossibleKey.moved k l))) := by
        rw [h.same]
        exact dropStale_moved s.keys
      have hkeys : Option.Rel (fun x y => y = x.map (Option.map (PossibleKey.moved k l))) (dropStale here s.keys)
          (dropStale (here.moved k l) s'.keys) := by
        rw [hstale]
        cases dropStale here s.keys with
        | none => exact .none
        | some keys => exact .some rfl
      refine bind_eq_of_rel hkeys ?_
      rintro keys _ - - rfl
      have hleft : { s' with
            keyAllowed := permits', rest := here.moved k l :: r',
            keys := keys.map (Option.map (PossibleKey.moved k l)) }.leave (here.moved k l).column =
          ({ s with keyAllowed := permits', rest := here :: r, keys := keys }.leave here.column).moved k l
            ({ s with keyAllowed := permits', rest := here :: r, keys := keys }.leave here.column).keyAllowed
            (here.moved k l :: r') := by
        rw [keyAllowed_leave, ← leave_moved, h.same]
        rfl
      rw [hleft]
      refine bind_eq_of_rel
        (take_alike hmark hrest fun hloose => (hguard hloose).of_suffix hsuffix) fun x y hx hy hxy => ?_
      have hlength := (take_suffix x hx).length_le
      have hlength' := (take_suffix y hy).length_le
      have hless := hsuffix.length_le
      have hless' := hsuffix'.length_le
      rw [List.length_cons] at hless hless'
      refine ih hxy (fun hloose => (hguard hloose).of_suffix ?_) (by omega) (by omega)
      exact (take_suffix x hx).trans ((List.suffix_cons here r).trans hsuffix)

end Steps

end Scanner

end ChartOperator.Yaml
