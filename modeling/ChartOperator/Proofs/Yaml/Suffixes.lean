import ChartOperator.Yaml.Token

set_option autoImplicit false

/-!
# What the readers of a text leave

Every reader leaves a suffix of what it was given, and the scanner leaves less than it was given
(`Scanner.take_suffix`). So the room for the steps of the scanner is enough if it is larger than the text.
-/

namespace ChartOperator.Yaml

variable {rest r : List Spot} {s : Spot}

theorem dropChars_suffix (p : Char → Bool) (rest : List Spot) : dropChars p rest <:+ rest :=
  List.dropWhile_suffix _

theorem dropComment_suffix (rest : List Spot) : dropComment rest <:+ rest := by
  unfold dropComment
  split
  · exact dropChars_suffix _ rest
  · exact List.suffix_refl _

theorem endOfLine?_suffix (h : endOfLine? rest = some r) : r <:+ rest := by
  have hdropped : dropComment (dropChars isBlank rest) <:+ rest :=
    (dropComment_suffix _).trans (dropChars_suffix _ _)
  unfold endOfLine? at h
  split at h
  · cases h
    exact List.nil_suffix
  · next s r' hrest =>
    split at h
    · cases h
      rw [hrest] at hdropped
      exact (List.suffix_cons s r).trans hdropped
    · cases h

/-! ## Scalars -/

section Scalars

variable {flow literal : Bool} {indent : Int} {done : List Char} {gap : Gap} {x : Scalar}

theorem plain_suffix (h : plain flow indent done gap rest = some x) : x.rest <:+ rest := by
  fun_induction plain flow indent done gap rest with
  | case1 done gap => cases h; exact List.suffix_refl _
  | case2 done gap s r c hbreak ih => exact (ih h).trans (List.suffix_cons s r)
  | case3 => cases h
  | case4 done gap s r c hbreak hblank htab ih => exact (ih h).trans (List.suffix_cons s r)
  | case5 => cases h; exact List.suffix_refl _
  | case6 => cases h
  | case7 => cases h; exact List.suffix_refl _
  | case8 done gap s r c next hbreak hblank resumes hresumes hflow hends ih =>
    exact (ih h).trans (List.suffix_cons s r)

/-- A plain scalar takes its first character, unless that is a colon which ends a key or a mark of
brackets. -/
theorem plain_suffix_tail (h : plain flow indent [] {} (s :: r) = some x)
    (hcolon : ¬ (s.char = ':' ∧ isBlankOrEnd (front r) = true))
    (hmark : ¬ (flow = true ∧ isFlowIndicator s.char = true)) : x.rest <:+ r := by
  unfold plain at h
  dsimp only at h
  split at h
  · exact plain_suffix h
  · split at h
    · split at h
      · cases h
      · exact plain_suffix h
    · split at h
      · next hresumes => simp at hresumes
      · split at h
        · cases h
        · split at h
          · next hends =>
            simp only [Bool.or_eq_true, Bool.and_eq_true, beq_iff_eq] at hends
            exact (hends.elim hcolon hmark).elim
          · exact plain_suffix h

theorem singleQuoted_suffix (h : singleQuoted done gap rest = some x) : x.rest <:+ rest := by
  fun_induction singleQuoted done gap rest
  case case1 | case2 => cases h
  case case3 s r _ _ _ ih | case4 s r _ _ _ _ ih => exact (ih h).trans (List.suffix_cons s r)
  case case5 s r _ _ _ _ _ _ ih => exact (ih h).trans (List.suffix_cons s r)
  case case6 s _ _ _ _ _ q r _ _ ih =>
    exact (ih h).trans ((List.suffix_cons q r).trans (List.suffix_cons s (q :: r)))
  case case7 s _ _ _ _ _ q r _ _ => cases h; exact List.suffix_cons s (q :: r)
  case case8 => cases h; exact List.nil_suffix

theorem doubleQuoted_suffix {code : Option (Nat × Nat)} (h : doubleQuoted done gap code rest = some x) :
    x.rest <:+ rest := by
  fun_induction doubleQuoted done gap code rest
  case case1 | case2 | case4 | case6 | case11 | case15 => cases h
  case case3 s r _ _ _ _ _ _ _ ih => exact (ih h).trans (List.suffix_cons s r)
  case case5 s r _ _ _ _ _ _ _ _ _ ih => exact (ih h).trans (List.suffix_cons s r)
  case case7 s r _ _ _ ih | case8 s r _ _ _ _ ih => exact (ih h).trans (List.suffix_cons s r)
  case case9 s r _ _ _ _ _ _ => cases h; exact List.suffix_cons s r
  case case10 s r _ _ _ _ _ _ _ ih => exact (ih h).trans (List.suffix_cons s r)
  case case12 s _ _ _ _ _ _ q r _ _ ih =>
    exact (ih h).trans ((List.suffix_cons q r).trans (List.suffix_cons s (q :: r)))
  case case13 s _ _ _ _ _ _ q r _ _ _ _ ih =>
    exact (ih h).trans ((List.suffix_cons q r).trans (List.suffix_cons s (q :: r)))
  case case14 s _ _ _ _ _ _ q r _ _ _ _ _ ih =>
    exact (ih h).trans ((List.suffix_cons q r).trans (List.suffix_cons s (q :: r)))

/-- The marks behind the opening of a block, read off its first two characters, and how many they are. -/
def blockMarks? (c d : Char) : Option (Chomping × Nat × Nat) :=
  let chomping? (c : Char) : Option Chomping :=
    if c == '+' then some .keep else if c == '-' then some .strip else none
  let indent? (c : Char) : Option (Nat × Nat) :=
    if !Text.isDigit c then some (0, 0) else if c == '0' then none else some (Text.digitValue c, 1)
  match chomping? c with
  | some k => (indent? d).map fun (n, taken) => (k, n, taken + 1)
  | none => (indent? c).map fun (n, taken) =>
    if n = 0 then (.clip, 0, taken)
    else match chomping? d with
      | some k => (k, n, taken + 1)
      | none => (.clip, n, taken)

theorem ahead_drop (rest : List Spot) (k n : Nat) : ahead (rest.drop k) n = ahead rest (k + n) := by
  rw [ahead, ahead, List.getElem?_drop]

theorem blockHeader?_eq (rest : List Spot) :
    blockHeader? rest =
      (blockMarks? (ahead rest 0) (ahead rest 1)).map fun (k, n, taken) => (k, n, rest.drop taken) := by
  have hfront : ∀ k, front (rest.drop k) = ahead rest k := fun k => ahead_drop rest k 0
  unfold blockHeader? blockMarks?
  dsimp only
  simp only [hfront, show front rest = ahead rest 0 from rfl]
  by_cases hkeep : ahead rest 0 = '+'
  · by_cases hdigit : Text.isDigit (ahead rest 1) <;> by_cases hzero : ahead rest 1 = '0' <;>
      simp [hkeep, hdigit, hzero]
  · by_cases hstrip : ahead rest 0 = '-'
    · by_cases hdigit : Text.isDigit (ahead rest 1) <;> by_cases hzero : ahead rest 1 = '0' <;>
        simp [hstrip, hdigit, hzero]
    · by_cases hdigit : Text.isDigit (ahead rest 0)
      · by_cases hzero : ahead rest 0 = '0'
        · simp [hzero]
        · have hsecond : front rest.tail = ahead rest 1 := by rw [← List.drop_one, hfront]
          have hthird : rest.tail.tail = rest.drop 2 := by
            rw [← List.drop_one, ← List.drop_one, List.drop_drop]
          by_cases hvalue : Text.digitValue (ahead rest 0) = 0 <;> by_cases hkeep' : ahead rest 1 = '+' <;>
            by_cases hstrip' : ahead rest 1 = '-' <;>
              simp [hkeep, hstrip, hdigit, hzero, hsecond, hthird, hvalue, hkeep', hstrip']
      · simp [hkeep, hstrip, hdigit]

theorem blockHeader?_suffix {chomping : Chomping} {n : Nat} (h : blockHeader? rest = some (chomping, n, r)) :
    r <:+ rest := by
  rw [blockHeader?_eq, Option.map_eq_some_iff] at h
  obtain ⟨⟨k, n', taken⟩, -, h⟩ := h
  cases h
  exact List.drop_suffix taken rest

theorem blankLines_suffix {given deepest deepest' : Nat} {breaks breaks' : List Char}
    (h : blankLines given deepest breaks rest = some (breaks', deepest', r)) : r <:+ rest := by
  fun_induction blankLines given deepest breaks rest
  case case1 | case5 =>
    obtain ⟨-, -, rfl⟩ := Prod.ext_iff.1 (Option.some.inj h) |>.imp id Prod.ext_iff.1
    exact List.suffix_refl _
  case case2 s r' _ _ ih => exact (ih h).trans (List.suffix_cons s r')
  case case3 => cases h
  case case4 s r' _ _ _ _ _ ih => exact (ih h).trans (List.suffix_cons s r')

/-- What is left behind the line at hand. -/
def afterLine (rest : List Spot) : List Spot := (dropChars (fun c => !isBreak c) rest).drop 1

theorem afterLine_suffix (rest : List Spot) : afterLine rest <:+ rest :=
  (List.drop_suffix 1 _).trans (dropChars_suffix _ rest)

theorem blockLines_suffix {n room : Nat} {text leading trailing text' leading' trailing' : List Char}
    {blank : Bool}
    (h : blockLines literal n room text leading trailing blank rest = some (text', leading', trailing', r)) :
    r <:+ rest := by
  induction room generalizing text leading trailing blank rest with
  | zero => cases h; exact List.suffix_refl _
  | succ room ih =>
    cases rest with
    | nil => cases h; exact List.suffix_refl _
    | cons s r' =>
      unfold blockLines at h
      dsimp only at h
      split at h
      · cases h; exact List.suffix_refl _
      · split at h
        · cases h
        · next hblank => exact (ih h).trans ((blankLines_suffix hblank).trans (afterLine_suffix _))

theorem block_suffix {parent : Int} (h : block literal parent rest = some x) : x.rest <:+ rest := by
  unfold block at h
  simp only [Option.bind_eq_bind, Option.bind_eq_some_iff, Prod.exists] at h
  obtain ⟨chomping, n, r₁, hheader, r₂, hline, trailing, deepest, r₃, hblank, text, leading, trailing', r₄,
    hlines, h⟩ := h
  cases h
  exact (blockLines_suffix hlines).trans ((blankLines_suffix hblank).trans
    ((endOfLine?_suffix hline).trans (blockHeader?_suffix hheader)))

end Scalars

/-! ## Names, tags and directives -/

section Names

variable {t : Token} {name handle : List Char} {n : Nat}

theorem anchorName?_suffix (h : anchorName? rest = some (name, r)) : r <:+ rest := by
  unfold anchorName? at h
  dsimp only at h
  split at h
  · cases h
  · cases h
    exact dropChars_suffix _ rest

theorem tagBody?_suffix {bracketed : Bool} (h : tagBody? bracketed rest = some (name, r)) : r <:+ rest := by
  unfold tagBody? at h
  simp only [Option.bind_eq_bind, Option.bind_eq_some_iff] at h
  obtain ⟨body, -, h⟩ := h
  cases h
  exact dropChars_suffix _ rest

theorem tagHandle?_suffix (h : tagHandle? rest = some (handle, r)) : r <:+ rest.drop 1 := by
  unfold tagHandle? at h
  dsimp only at h
  split at h
  · cases h
  · split at h
    · cases h
      exact (List.drop_suffix 1 _).trans (dropChars_suffix _ _)
    · cases h
      exact dropChars_suffix _ _

/-- A tag, whatever follows it. -/
def tagText? (rest : List Spot) : Option (Token × List Spot) :=
  if ahead rest 1 = '<' then
    (tagBody? true (rest.drop 2)).bind fun (body, rest) =>
      if body.isEmpty || front rest != '>' then none else some (.tag [] body, rest.drop 1)
  else
    (tagHandle? rest).bind fun (handle, rest) => (tagBody? false rest).bind fun (body, rest) =>
      if 1 < handle.length ∧ handle.getLast? = some '!' then
        if body.isEmpty then none else some (.tag handle body, rest)
      else
        let suffix := handle.drop 1 ++ body
        some (if suffix.isEmpty then .tag [] ['!'] else .tag ['!'] suffix, rest)

theorem tag?_eq (flow : Bool) (rest : List Spot) :
    tag? flow rest = (tagText? rest).bind fun (t, rest) =>
      if isBlankOrEnd (front rest) || (flow && front rest == ',') then some (t, rest) else none := by
  unfold tag? tagText?
  simp only [Option.bind_eq_bind]
  split
  · rw [Option.bind_assoc]
    refine congrArg _ (funext fun _ => ?_)
    split <;> rfl
  · rw [Option.bind_assoc]
    refine congrArg _ (funext fun _ => ?_)
    rw [Option.bind_assoc]
    refine congrArg _ (funext fun _ => ?_)
    split
    · split <;> rfl
    · rfl

theorem tagText?_suffix (h : tagText? (s :: rest) = some (t, r)) : r <:+ rest := by
  unfold tagText? at h
  split at h
  · obtain ⟨⟨body, r₁⟩, hbody, h⟩ := Option.bind_eq_some_iff.1 h
    dsimp only at h
    split at h
    · cases h
    · cases h
      exact (List.drop_suffix 1 r₁).trans ((tagBody?_suffix hbody).trans (List.drop_suffix 1 rest))
  · obtain ⟨⟨handle, r₁⟩, hhandle, h⟩ := Option.bind_eq_some_iff.1 h
    obtain ⟨⟨body, r₂⟩, hbody, h⟩ := Option.bind_eq_some_iff.1 h
    have hrest : r₂ <:+ rest := (tagBody?_suffix hbody).trans (tagHandle?_suffix hhandle)
    dsimp only at h
    split at h
    · split at h
      · cases h
      · cases h
        exact hrest
    · cases h
      exact hrest

theorem tag?_suffix {flow : Bool} (h : tag? flow (s :: rest) = some (t, r)) : r <:+ rest := by
  rw [tag?_eq] at h
  obtain ⟨⟨t', r'⟩, htag, h⟩ := Option.bind_eq_some_iff.1 h
  dsimp only at h
  split at h
  · cases h
    exact tagText?_suffix htag
  · cases h

theorem shortNumber?_suffix (h : shortNumber? rest = some (n, r)) : r <:+ rest := by
  unfold shortNumber? at h
  dsimp only at h
  split at h
  · cases h
  · cases h
    exact dropChars_suffix _ rest

/-- A directive of a name, up to what must be the end of its line. -/
def directiveText? (name : List Char) (body : List Spot) : Option (Token × List Spot) :=
  if name = "YAML".toList then
    (shortNumber? body).bind fun (major, rest) =>
      if front rest ≠ '.' then none
      else (shortNumber? (rest.drop 1)).bind fun (minor, rest) => some (.version major minor, rest)
  else if name = "TAG".toList then
    (tagHandle? body).bind fun (handle, rest) =>
      if handle.getLast? ≠ some '!' || !isBlank (front rest) then none
      else (tagBody? true (dropChars isBlank rest)).bind fun (start, rest) =>
        if start.isEmpty || !isBlankOrEnd (front rest) then none else some (.tagPrefix handle start, rest)
  else none

theorem directive?_eq (rest : List Spot) :
    directive? rest =
      if !isBlankOrEnd (front (dropChars isNameChar rest)) then none
      else (directiveText? (takeChars isNameChar rest) (dropChars isBlank (dropChars isNameChar rest))).bind
        fun (t, rest) => (endOfLine? rest).bind fun rest => some (t, rest) := by
  unfold directive? directiveText?
  simp only [Option.bind_eq_bind]
  split
  · rfl
  split
  · rw [Option.bind_assoc]
    refine congrArg _ (funext fun _ => ?_)
    split
    · rfl
    · rw [Option.bind_assoc]
      rfl
  split
  · rw [Option.bind_assoc]
    refine congrArg _ (funext fun _ => ?_)
    split
    · rfl
    · rw [Option.bind_assoc]
      refine congrArg _ (funext fun _ => ?_)
      split <;> rfl
  · rfl

theorem directiveText?_suffix (h : directiveText? name rest = some (t, r)) : r <:+ rest := by
  unfold directiveText? at h
  split at h
  · obtain ⟨⟨major, r₁⟩, hmajor, h⟩ := Option.bind_eq_some_iff.1 h
    dsimp only at h
    split at h
    · cases h
    · obtain ⟨⟨minor, r₂⟩, hminor, h⟩ := Option.bind_eq_some_iff.1 h
      cases h
      exact (shortNumber?_suffix hminor).trans ((List.drop_suffix 1 _).trans (shortNumber?_suffix hmajor))
  · split at h
    · obtain ⟨⟨handle, r₁⟩, hhandle, h⟩ := Option.bind_eq_some_iff.1 h
      dsimp only at h
      split at h
      · cases h
      · obtain ⟨⟨start, r₂⟩, hstart, h⟩ := Option.bind_eq_some_iff.1 h
        dsimp only at h
        split at h
        · cases h
        · cases h
          exact (tagBody?_suffix hstart).trans ((dropChars_suffix _ _).trans
            ((tagHandle?_suffix hhandle).trans (List.drop_suffix 1 _)))
    · cases h

theorem directive?_suffix (h : directive? rest = some (t, r)) : r <:+ rest := by
  rw [directive?_eq] at h
  split at h
  · cases h
  · obtain ⟨⟨t', r'⟩, hread, h⟩ := Option.bind_eq_some_iff.1 h
    obtain ⟨r'', hline, h⟩ := Option.bind_eq_some_iff.1 h
    cases h
    exact (endOfLine?_suffix hline).trans ((directiveText?_suffix hread).trans
      ((dropChars_suffix _ _).trans (dropChars_suffix _ _)))

end Names

/-! ## The scanner -/

namespace Scanner

variable {scanner next : Scanner} {t : Token} {here : Spot} {keyAllowed : Bool}

theorem skipBlanks_suffix (flow allowed comment : Bool) (rest : List Spot) :
    (skipBlanks flow allowed comment rest).2 <:+ rest := by
  fun_induction skipBlanks flow allowed comment rest
  case case1 => exact List.suffix_refl _
  case case2 ih | case3 ih | case4 ih | case5 ih => exact ih.trans (List.suffix_cons _ _)
  case case6 => exact List.suffix_refl _

theorem rest_past (h : scanner.past t keyAllowed rest = some next) : next.rest = rest := by
  obtain ⟨dropped, -, h⟩ := Option.bind_eq_some_iff.1 h
  cases h
  rfl

theorem rest_pastKey (h : scanner.pastKey here t rest = some next) : next.rest = rest := by
  obtain ⟨noted, -, h⟩ := Option.bind_eq_some_iff.1 h
  cases h
  rfl

theorem rest_openBracket (h : scanner.openBracket here t rest = some next) : next.rest = rest := by
  obtain ⟨noted, -, h⟩ := Option.bind_eq_some_iff.1 h
  cases h
  rfl

theorem rest_closeBracket (h : scanner.closeBracket t rest = some next) : next.rest = rest := by
  obtain ⟨closed, hpast, h⟩ := Option.bind_eq_some_iff.1 h
  cases h
  have hrest := rest_past hpast
  split
  · exact hrest
  · exact hrest

theorem rest_item (h : scanner.item here rest = some next) : next.rest = rest := by
  unfold item at h
  split at h
  · exact rest_past h
  · split at h
    · cases h
    · exact rest_past h

theorem rest_markedKey (h : scanner.markedKey here rest = some next) : next.rest = rest := by
  unfold markedKey at h
  split at h
  · exact rest_past h
  · split at h
    · cases h
    · exact rest_past h

theorem rest_value (h : scanner.value here rest = some next) : next.rest = rest := by
  unfold value at h
  split at h
  · cases h
    rfl
  · split at h
    · cases h
      rfl
    · split at h
      · cases h
      · cases h
        rfl

theorem plainScalar_suffix (h : scanner.plainScalar here (s :: r) = some next)
    (hcolon : ¬ (s.char = ':' ∧ isBlankOrEnd (front r) = true))
    (hmark : ¬ (scanner.inFlow = true ∧ isFlowIndicator s.char = true)) : next.rest <:+ r := by
  obtain ⟨x, hplain, h⟩ := Option.bind_eq_some_iff.1 h
  obtain ⟨passed, hpassed, h⟩ := Option.bind_eq_some_iff.1 h
  cases h
  have hrest : passed.rest <:+ r := by
    rw [rest_pastKey hpassed]
    exact plain_suffix_tail hplain hcolon hmark
  split
  · exact hrest
  · exact hrest

/-- What a choice yields has a property if what its branches yield has it. -/
theorem of_ite {α : Type} {P : α → Prop} {c : Prop} [Decidable c] {a b : Option α}
    (ha : c → ∀ x, a = some x → P x) (hb : ¬ c → ∀ x, b = some x → P x) :
    ∀ x, (if c then a else b) = some x → P x := by
  intro x h
  split at h
  · next hc => exact ha hc x h
  · next hc => exact hb hc x h

/-- Behind a name or a tag that was read, what the reader left is left. -/
theorem pastKey_suffix {α : Type} {x : Option (α × List Spot)} (f : α → Token)
    (hx : ∀ a rest, x = some (a, rest) → rest <:+ r) :
    ∀ next, (x.bind fun (a, rest) => scanner.pastKey here (f a) rest) = some next → next.rest <:+ r := by
  intro next h
  obtain ⟨⟨a, rest⟩, hread, h⟩ := Option.bind_eq_some_iff.1 h
  exact rest_pastKey h ▸ hx a rest hread

theorem pastScalar_suffix {x : Option Scalar} (hx : ∀ a, x = some a → a.rest <:+ r) :
    ∀ next, (x.bind fun a => scanner.pastKey here (.scalar a.text false) a.rest) = some next → next.rest <:+ r := by
  intro next h
  obtain ⟨a, hread, h⟩ := Option.bind_eq_some_iff.1 h
  exact rest_pastKey h ▸ hx a hread

/-- Each token takes a character at least. -/
theorem take_suffix : ∀ next, scanner.take here r = some next → next.rest <:+ r := by
  unfold take
  refine of_ite (fun _ x h => ?_) fun _ => ?_
  · obtain ⟨⟨t, rest⟩, hdirective, h⟩ := Option.bind_eq_some_iff.1 h
    exact rest_past h ▸ directive?_suffix hdirective
  refine of_ite (fun _ x h => rest_past h ▸ List.drop_suffix 2 r) fun _ => ?_
  refine of_ite (fun _ x h => rest_past h ▸ List.drop_suffix 2 r) fun _ => ?_
  refine of_ite (fun _ x h => rest_openBracket h ▸ List.suffix_refl r) fun hopen => ?_
  refine of_ite (fun _ x h => rest_openBracket h ▸ List.suffix_refl r) fun hopen' => ?_
  refine of_ite (fun _ x h => rest_closeBracket h ▸ List.suffix_refl r) fun hclose => ?_
  refine of_ite (fun _ x h => rest_closeBracket h ▸ List.suffix_refl r) fun hclose' => ?_
  refine of_ite (fun _ x h => rest_past h ▸ List.suffix_refl r) fun hcomma => ?_
  refine of_ite (fun _ x h => rest_item h ▸ List.suffix_refl r) fun _ => ?_
  refine of_ite (fun _ x h => rest_markedKey h ▸ List.suffix_refl r) fun _ => ?_
  refine of_ite (fun _ x h => rest_value h ▸ List.suffix_refl r) fun hvalue => ?_
  -- A plain scalar does not begin with what was a token of its own.
  have hcolon : ¬ (here.char = ':' ∧ isBlankOrEnd (front r) = true) := fun h => hvalue ⟨h.1, .inr h.2⟩
  have hmark : ¬ (scanner.inFlow = true ∧ isFlowIndicator here.char = true) := by
    rintro ⟨-, h⟩
    simp only [isFlowIndicator, Bool.or_eq_true, beq_iff_eq] at h
    rcases h with (((h | h) | h) | h) | h
    · exact hcomma h
    · exact hopen h
    · exact hclose h
    · exact hopen' h
    · exact hclose' h
  refine of_ite (fun _ => pastKey_suffix .alias fun _ _ => anchorName?_suffix) fun _ => ?_
  refine of_ite (fun _ => pastKey_suffix .anchor fun _ _ => anchorName?_suffix) fun _ => ?_
  refine of_ite (fun _ => pastKey_suffix id fun _ _ => tag?_suffix) fun _ => ?_
  refine of_ite (fun _ x h => ?_) fun _ => ?_
  · obtain ⟨text, hblock, h⟩ := Option.bind_eq_some_iff.1 h
    exact rest_past h ▸ block_suffix hblock
  refine of_ite (fun _ => pastScalar_suffix fun _ => singleQuoted_suffix) fun _ => ?_
  refine of_ite (fun _ => pastScalar_suffix fun _ => doubleQuoted_suffix) fun _ => ?_
  refine of_ite (fun _ x h => plainScalar_suffix h hcolon hmark) fun _ => ?_
  refine of_ite (fun _ x h => plainScalar_suffix h hcolon hmark) fun _ => ?_
  exact of_ite (fun _ x h => plainScalar_suffix h hcolon hmark) fun _ x h => by cases h

end Scanner

end ChartOperator.Yaml
