import ChartOperator.Proofs.Yaml.Suffixes

set_option autoImplicit false

/-!
# A text among white space

`Padded k l loose r r'` says that `r'` is the text `r` in another place, so many characters and lines further,
and that behind it, if `loose` permits, nothing follows but spaces and line breaks. Each reader reads the same
from both, and leaves texts that are padded again. It is proved reader by reader, along the text.

What the readers ask of a character beyond the end is the same for the end of a text, a space and a line
break (`Blind`).
-/

namespace ChartOperator.Yaml

/-! ## Choices that agree -/

section Agreement

variable {α β γ δ : Type} {R : α → β → Prop} {S : γ → δ → Prop}

theorem rel_bind {x : Option α} {y : Option β} {f : α → Option γ} {g : β → Option δ} (h : Option.Rel R x y)
    (hfg : ∀ a b, R a b → Option.Rel S (f a) (g b)) : Option.Rel S (x.bind f) (y.bind g) := by
  cases h with
  | none => exact .none
  | some hab => exact hfg _ _ hab

theorem rel_ite {c d : Prop} [Decidable c] [Decidable d] {x x' : α} {y y' : β} (hcd : d ↔ c)
    (hx : c → R x y) (hy : ¬ c → R x' y') : R (if c then x else x') (if d then y else y') := by
  by_cases hc : c
  · rw [if_pos hc, if_pos (hcd.2 hc)]
    exact hx hc
  · rw [if_neg hc, if_neg (mt hcd.1 hc)]
    exact hy hc

theorem rel_of_none {x : Option α} {y : Option β} (hx : x = none) (hy : y = none) : Option.Rel R x y := by
  rw [hx, hy]
  exact .none

end Agreement

/-! ## White space around a text -/

/-- A character of the white space around a text: a space or a line break. -/
def isLayout (c : Char) : Bool := c == ' ' || isBreak c

theorem layout_cases {c : Char} (h : isLayout c = true) :
    c = ' ' ∨ c = '\n' ∨ c = '\u2028' ∨ c = '\u2029' := by
  simpa [isLayout, isBreak, or_assoc] using h

/-- The question has one answer for white space around a text and for its end. -/
def Blind (q : Char → Bool) : Prop := ∀ c, isLayout c = true → q c = q endChar

theorem blind_of_cases {q : Char → Bool} (hspace : q ' ' = q endChar) (hfeed : q '\n' = q endChar)
    (hline : q '\u2028' = q endChar) (hparagraph : q '\u2029' = q endChar) : Blind q := by
  intro c hc
  rcases layout_cases hc with rfl | rfl | rfl | rfl <;> assumption

theorem blind_isBlankOrEnd : Blind isBlankOrEnd := blind_of_cases rfl rfl rfl rfl

theorem blind_isFlowIndicator : Blind isFlowIndicator := blind_of_cases rfl rfl rfl rfl

theorem blind_endsName : Blind endsName := blind_of_cases rfl rfl rfl rfl

/-- No visible character is white space, or the end of the text. -/
theorem blind_eq {c : Char} (hc : isLayout c = false) (hend : c ≠ endChar) : Blind (· == c) := by
  intro d hd
  have hne : d ≠ c := fun he => by rw [he, hc] at hd; cases hd
  dsimp only
  rw [beq_eq_false_iff_ne.2 hne, beq_eq_false_iff_ne.2 hend.symm]

/-! ## Texts in another place -/

/-- The spot, so many characters and lines further. -/
def Spot.moved (k l : Nat) (s : Spot) : Spot := { s with index := s.index + k, line := s.line + l }

@[simp] theorem Spot.char_moved (k l : Nat) (s : Spot) : (s.moved k l).char = s.char := rfl
@[simp] theorem Spot.column_moved (k l : Nat) (s : Spot) : (s.moved k l).column = s.column := rfl

/-- The second text is the first one in another place, padded with white space if that is permitted. A mark
that opens a text keeps its place. -/
inductive Padded (k l : Nat) (loose : Prop) : List Spot → List Spot → Prop
  | ended {tail : List Spot} (h : ∀ s ∈ tail, loose ∧ isLayout s.char = true) : Padded k l loose [] tail
  | spot (s : Spot) {r r' : List Spot} (hmark : k = 0 ∨ s.index ≠ 0 ∨ s.char ≠ byteOrderMark)
    (h : Padded k l loose r r') : Padded k l loose (s :: r) (s.moved k l :: r')

section Padding

variable {k l : Nat} {loose : Prop} {r r' : List Spot}

theorem ahead_nil (n : Nat) : ahead [] n = endChar := rfl

theorem ahead_cons_succ (s : Spot) (r : List Spot) (n : Nat) : ahead (s :: r) (n + 1) = ahead r n := rfl

theorem Padded.ahead (h : Padded k l loose r r') {q : Char → Bool} (hq : Blind q) (n : Nat) :
    q (ahead r' n) = q (ahead r n) := by
  induction h generalizing n with
  | @ended tail h =>
    unfold Yaml.ahead
    cases hfound : tail[n]? with
    | none => rfl
    | some s => exact hq s.char (h s (List.mem_of_getElem? hfound)).2
  | spot s _ _ ih =>
    cases n with
    | zero => rfl
    | succ n => exact ih n

theorem Padded.ahead_eq_iff (h : Padded k l loose r r') {c : Char} (hc : isLayout c = false)
    (hend : c ≠ endChar) (n : Nat) : Yaml.ahead r' n = c ↔ Yaml.ahead r n = c := by
  have hblind := h.ahead (blind_eq hc hend) n
  rw [← beq_iff_eq, hblind, beq_iff_eq]

theorem Padded.drop (h : Padded k l loose r r') (n : Nat) : Padded k l loose (r.drop n) (r'.drop n) := by
  induction h generalizing n with
  | ended h =>
    rw [List.drop_nil]
    exact .ended fun s hs => h s (List.mem_of_mem_drop hs)
  | spot s hmark h ih =>
    cases n with
    | zero => exact .spot s hmark h
    | succ n => exact ih n

theorem Padded.dropChars (h : Padded k l loose r r') (p : Char → Bool) :
    Padded k l loose (dropChars p r) (dropChars p r') := by
  induction h with
  | ended h => exact .ended fun s hs => h s ((dropChars_suffix p _).subset hs)
  | spot s hmark h ih =>
    unfold Yaml.dropChars at ih ⊢
    rw [List.dropWhile_cons, List.dropWhile_cons, Spot.char_moved]
    split
    · exact ih
    · exact .spot s hmark h

theorem Padded.takeChars (h : Padded k l loose r r') {p : Char → Bool} (hp : ∀ c, isLayout c = true → p c = false) :
    takeChars p r' = takeChars p r := by
  induction h with
  | @ended tail h =>
    cases tail with
    | nil => rfl
    | cons s tail =>
      have hs := hp s.char (h s List.mem_cons_self).2
      simp [Yaml.takeChars, hs]
  | spot s hmark h ih =>
    unfold Yaml.takeChars chars at ih ⊢
    rw [List.takeWhile_cons, List.takeWhile_cons, Spot.char_moved]
    split
    · rw [List.map_cons, List.map_cons, ih, Spot.char_moved]
    · rfl

/-! ### Lines -/

theorem isBreak_of_layout {c : Char} (h : isLayout c = true) (hblank : isBlank c = false) :
    isBreak c = true := by
  rcases layout_cases h with rfl | rfl | rfl | rfl
  · cases hblank
  · rfl
  · rfl
  · rfl

/-- What is left of a text begins with no character that was to be dropped. -/
theorem of_dropChars_eq_cons {p : Char → Bool} {s : Spot} (h : Yaml.dropChars p r = s :: r') :
    p s.char = false := by
  have hhead := List.head?_dropWhile_not (fun s : Spot => p s.char) r
  rw [Yaml.dropChars] at h
  rw [h] at hhead
  simpa using hhead

/-- Behind the blanks of a line, and a comment, no blank follows. -/
theorem isBlank_of_dropComment {s : Spot} (h : Yaml.dropComment (Yaml.dropChars isBlank r) = s :: r') :
    isBlank s.char = false := by
  unfold Yaml.dropComment at h
  split at h
  · have hbreak := of_dropChars_eq_cons h
    refine Bool.eq_false_iff.2 fun hblank => ?_
    simp only [isBlank, Bool.or_eq_true, beq_iff_eq] at hblank
    rcases hblank with he | he <;> rw [he] at hbreak <;> cases hbreak
  · exact of_dropChars_eq_cons h

theorem Padded.isMarker (h : Padded k l loose r r') {c : Char} (hc : isLayout c = false) (hend : c ≠ endChar) :
    isMarker c r' = isMarker c r := by
  cases h with
  | ended h =>
    cases r' with
    | nil => rfl
    | cons s tail =>
      have hs : (s.char == c) = false := by
        refine beq_eq_false_iff_ne.2 fun he => ?_
        rw [← he, (h s List.mem_cons_self).2] at hc
        cases hc
      simp only [Yaml.isMarker, hs, Bool.and_false, Bool.false_and]
  | spot s hmark h =>
    have heq : ∀ n, (Yaml.ahead _ n == c) = (Yaml.ahead _ n == c) := fun n => h.ahead (blind_eq hc hend) n
    have hblank := h.ahead blind_isBlankOrEnd 2
    simp only [Yaml.isMarker, Spot.column_moved, Spot.char_moved, ahead_cons_succ, heq, hblank]

theorem Padded.isDocumentMarker (h : Padded k l loose r r') : isDocumentMarker r' = isDocumentMarker r := by
  rw [Yaml.isDocumentMarker, Yaml.isDocumentMarker, h.isMarker rfl (by decide), h.isMarker rfl (by decide)]

theorem Padded.dropComment (h : Padded k l loose r r') : Padded k l loose (dropComment r) (dropComment r') := by
  have hfront : (front r' == '#') = (front r == '#') := h.ahead (blind_eq rfl (by decide)) 0
  unfold Yaml.dropComment
  rw [hfront]
  split
  · exact h.dropChars _
  · exact h

theorem Padded.endOfLine? (h : Padded k l loose r r') :
    Option.Rel (Padded k l loose) (endOfLine? r) (endOfLine? r') := by
  have hdropped := (h.dropChars isBlank).dropComment
  unfold Yaml.endOfLine?
  generalize hd : Yaml.dropComment (Yaml.dropChars isBlank r) = d at hdropped
  generalize hd' : Yaml.dropComment (Yaml.dropChars isBlank r') = d' at hdropped
  cases hdropped with
  | ended hended =>
    cases d' with
    | nil => exact .some (.ended hended)
    | cons s tail =>
      -- The blanks of the line were dropped, so that a line break stands first.
      have hbreak := isBreak_of_layout (hended s List.mem_cons_self).2 (isBlank_of_dropComment hd')
      dsimp only
      rw [if_pos hbreak]
      exact .some (.ended fun t ht => hended t (List.mem_cons_of_mem s ht))
  | spot s hmark h =>
    dsimp only
    rw [Spot.char_moved]
    split
    · exact .some h
    · exact .none

/-! ### Names, tags and directives -/

/-- The same was read, and what is left is padded again. -/
def ReadAlike (k l : Nat) (loose : Prop) {α : Type} (a b : α × List Spot) : Prop :=
  b.1 = a.1 ∧ Padded k l loose a.2 b.2

theorem layout_of_isNameChar {c : Char} (h : isLayout c = true) : isNameChar c = false := by
  rcases layout_cases h with rfl | rfl | rfl | rfl <;> rfl

theorem layout_of_isTagChar (bracketed : Bool) {c : Char} (h : isLayout c = true) :
    isTagChar bracketed c = false := by
  rcases layout_cases h with rfl | rfl | rfl | rfl <;> cases bracketed <;> rfl

theorem layout_of_isDigit {c : Char} (h : isLayout c = true) : Text.isDigit c = false := by
  rcases layout_cases h with rfl | rfl | rfl | rfl <;> rfl

theorem Padded.anchorName? (h : Padded k l loose r r') :
    Option.Rel (ReadAlike k l loose) (anchorName? r) (anchorName? r') := by
  have hname := h.takeChars fun _ => layout_of_isNameChar
  have hrest := h.dropChars isNameChar
  unfold Yaml.anchorName?
  simp only [hname, hrest.ahead blind_endsName 0, front]
  exact rel_ite Iff.rfl (fun _ => .none) fun _ => .some ⟨rfl, hrest⟩

theorem Padded.tagBody? (h : Padded k l loose r r') (bracketed : Bool) :
    Option.Rel (ReadAlike k l loose) (tagBody? bracketed r) (tagBody? bracketed r') := by
  have hraw := h.takeChars fun _ => layout_of_isTagChar bracketed
  unfold Yaml.tagBody?
  dsimp only
  rw [hraw]
  cases unescapeTag? (Yaml.takeChars (isTagChar bracketed) r).length (Yaml.takeChars (isTagChar bracketed) r) with
  | none => exact .none
  | some body => exact .some ⟨rfl, h.dropChars _⟩

theorem Padded.tagHandle? (h : Padded k l loose r r') :
    Option.Rel (ReadAlike k l loose) (tagHandle? r) (tagHandle? r') := by
  have hmark : ∀ {r r' : List Spot}, Padded k l loose r r' → (front r' = '!' ↔ front r = '!') := fun h =>
    h.ahead_eq_iff rfl (by decide) 0
  have hname := (h.drop 1).takeChars fun _ => layout_of_isNameChar
  have hrest := (h.drop 1).dropChars isNameChar
  unfold Yaml.tagHandle?
  refine rel_ite (not_congr (hmark h)) (fun _ => .none) fun _ => ?_
  rw [hname]
  exact rel_ite (hmark hrest) (fun _ => .some ⟨rfl, hrest.drop 1⟩) fun _ => .some ⟨rfl, hrest⟩

theorem Padded.tagText? (h : Padded k l loose r r') :
    Option.Rel (ReadAlike k l loose) (tagText? r) (tagText? r') := by
  unfold Yaml.tagText?
  refine rel_ite (h.ahead_eq_iff rfl (by decide) 1) (fun _ => ?_) fun _ => ?_
  · refine rel_bind ((h.drop 2).tagBody? true) ?_
    rintro ⟨body, r₁⟩ ⟨_, r₂⟩ ⟨rfl, h⟩
    have hfront : (front r₂ != '>') = (front r₁ != '>') :=
      congrArg not (h.ahead (blind_eq rfl (by decide)) 0)
    dsimp only
    rw [hfront]
    exact rel_ite Iff.rfl (fun _ => .none) fun _ => .some ⟨rfl, h.drop 1⟩
  · refine rel_bind h.tagHandle? ?_
    rintro ⟨handle, r₁⟩ ⟨_, r₂⟩ ⟨rfl, h⟩
    refine rel_bind (h.tagBody? false) ?_
    rintro ⟨body, r₁⟩ ⟨_, r₂⟩ ⟨rfl, h⟩
    refine rel_ite Iff.rfl (fun _ => ?_) fun _ => .some ⟨rfl, h⟩
    exact rel_ite Iff.rfl (fun _ => .none) fun _ => .some ⟨rfl, h⟩

theorem Padded.tag? (h : Padded k l loose r r') (flow : Bool) :
    Option.Rel (ReadAlike k l loose) (tag? flow r) (tag? flow r') := by
  rw [tag?_eq, tag?_eq]
  refine rel_bind h.tagText? ?_
  rintro ⟨t, r₁⟩ ⟨_, r₂⟩ ⟨rfl, h⟩
  have hcomma : (front r₂ == ',') = (front r₁ == ',') := h.ahead (blind_eq rfl (by decide)) 0
  have hend : isBlankOrEnd (front r₂) = isBlankOrEnd (front r₁) := h.ahead blind_isBlankOrEnd 0
  dsimp only
  rw [hcomma, hend]
  exact rel_ite Iff.rfl (fun _ => .some ⟨rfl, h⟩) fun _ => .none

theorem Padded.shortNumber? (h : Padded k l loose r r') :
    Option.Rel (ReadAlike k l loose) (shortNumber? r) (shortNumber? r') := by
  have hdigits := h.takeChars fun _ => layout_of_isDigit
  unfold Yaml.shortNumber?
  rw [hdigits]
  exact rel_ite Iff.rfl (fun _ => .none) fun _ => .some ⟨rfl, h.dropChars _⟩

theorem Padded.directiveText? (h : Padded k l loose r r') (name : List Char) :
    Option.Rel (ReadAlike k l loose) (directiveText? name r) (directiveText? name r') := by
  unfold Yaml.directiveText?
  refine rel_ite Iff.rfl (fun _ => ?_) fun _ => rel_ite Iff.rfl (fun _ => ?_) fun _ => .none
  · refine rel_bind h.shortNumber? ?_
    rintro ⟨major, r₁⟩ ⟨_, r₂⟩ ⟨rfl, h⟩
    refine rel_ite (not_congr (h.ahead_eq_iff rfl (by decide) 0)) (fun _ => .none) fun _ => ?_
    refine rel_bind (h.drop 1).shortNumber? ?_
    rintro ⟨minor, r₁⟩ ⟨_, r₂⟩ ⟨rfl, h⟩
    exact .some ⟨rfl, h⟩
  · refine rel_bind h.tagHandle? ?_
    rintro ⟨handle, r₁⟩ ⟨_, r₂⟩ ⟨rfl, h⟩
    cases h with
    | ended hended =>
      -- The text ends behind the handle, and no more than blanks follow it in its place.
      refine rel_of_none ?_ ?_
      · exact if_pos (by simp [front, ahead_nil, endChar, isBlank])
      · dsimp only
        split
        · rfl
        · cases hbody : Yaml.tagBody? true (Yaml.dropChars isBlank r₂) with
          | none => rfl
          | some found =>
            have hnone := ((Padded.ended hended).dropChars isBlank).tagBody? (k := k) (l := l) true
            rw [hbody] at hnone
            cases hnone with
            | some hread =>
              rw [Option.bind_some, hread.1]
              rfl
    | spot s hmark h =>
      refine rel_ite Iff.rfl (fun _ => .none) fun _ => ?_
      refine rel_bind (((Padded.spot s hmark h).dropChars isBlank).tagBody? true) ?_
      rintro ⟨start, r₁⟩ ⟨_, r₂⟩ ⟨rfl, h⟩
      have hend : isBlankOrEnd (front r₂) = isBlankOrEnd (front r₁) := h.ahead blind_isBlankOrEnd 0
      dsimp only
      rw [hend]
      exact rel_ite Iff.rfl (fun _ => .none) fun _ => .some ⟨rfl, h⟩

theorem Padded.directive? (h : Padded k l loose r r') :
    Option.Rel (ReadAlike k l loose) (directive? r) (directive? r') := by
  have hrest := h.dropChars isNameChar
  rw [directive?_eq, directive?_eq, h.takeChars fun _ => layout_of_isNameChar]
  refine rel_ite ?_ (fun _ => .none) fun _ => ?_
  · have hend := hrest.ahead blind_isBlankOrEnd 0
    rw [front, hend]
    rfl
  refine rel_bind ((hrest.dropChars _).directiveText? _) ?_
  rintro ⟨t, r₁⟩ ⟨_, r₂⟩ ⟨rfl, h⟩
  refine rel_bind h.endOfLine? ?_
  intro r₁ r₂ h
  exact .some ⟨rfl, h⟩

/-! ### Scalars -/

/-- The same scalar was read, and what is left is padded again. Whether a line break was passed behind it may
differ where it is the end of the text. -/
structure ScalarAlike (k l : Nat) (loose : Prop) (x y : Scalar) : Prop where
  text : y.text = x.text
  rest : Padded k l loose x.rest y.rest
  brokeLine : y.brokeLine = x.brokeLine ∨ x.rest = []

/-- White space alone adds nothing to a plain scalar, and is read to its end. -/
theorem plain_layout (flow : Bool) (indent : Int) (done : List Char) (gap : Gap) {tail : List Spot}
    (h : ∀ s ∈ tail, isLayout s.char = true) :
    ∃ broke, plain flow indent done gap tail = some ⟨done.reverse, broke, []⟩ := by
  induction tail generalizing gap with
  | nil => exact ⟨_, rfl⟩
  | cons s tail ih =>
    have htail : ∀ t ∈ tail, isLayout t.char = true := fun t ht => h t (List.mem_cons_of_mem s ht)
    rcases layout_cases (h s List.mem_cons_self) with hc | hc | hc | hc
    · obtain ⟨broke, hbroke⟩ := ih (gap.space ' ') htail
      exact ⟨broke, by simpa [plain, hc, isBreak, isBlank] using hbroke⟩
    all_goals
      obtain ⟨broke, hbroke⟩ := ih (gap.newline s.char) htail
      exact ⟨broke, by simpa [plain, hc, isBreak] using hbroke⟩

theorem Padded.plain (h : Padded k l loose r r') (flow : Bool) (indent : Int) (done : List Char) (gap : Gap) :
    Option.Rel (ScalarAlike k l loose) (plain flow indent done gap r) (plain flow indent done gap r') := by
  induction h generalizing done gap with
  | ended h =>
    obtain ⟨broke, hread⟩ := plain_layout flow indent done gap fun s hs => (h s hs).2
    rw [hread]
    exact .some ⟨rfl, .ended (fun s hs => by cases hs), .inr rfl⟩
  | @spot s r r' hmark h ih =>
    have hdocument : Yaml.isDocumentMarker (s.moved k l :: r') = Yaml.isDocumentMarker (s :: r) :=
      (Padded.spot s hmark h).isDocumentMarker
    have hstop : Padded k l loose (s :: r) (s.moved k l :: r') := .spot s hmark h
    have hflow : isFlowIndicator (front r') = isFlowIndicator (front r) := h.ahead blind_isFlowIndicator 0
    have hquery : (front r' == '?') = (front r == '?') := h.ahead (blind_eq rfl (by decide)) 0
    have hend : isBlankOrEnd (front r') = isBlankOrEnd (front r) := h.ahead blind_isBlankOrEnd 0
    unfold Yaml.plain
    simp only [Spot.char_moved, Spot.column_moved, hdocument, hflow, hquery, hend]
    refine rel_ite Iff.rfl (fun _ => ih _ _) fun _ => ?_
    refine rel_ite Iff.rfl (fun _ => rel_ite Iff.rfl (fun _ => .none) fun _ => ih _ _) fun _ => ?_
    refine rel_ite Iff.rfl (fun _ => .some ⟨rfl, hstop, .inl rfl⟩) fun _ => ?_
    refine rel_ite Iff.rfl (fun _ => .none) fun _ => ?_
    exact rel_ite Iff.rfl (fun _ => .some ⟨rfl, hstop, .inl rfl⟩) fun _ => ih _ _

theorem isDocumentMarker_layout {s : Spot} (tail : List Spot) (h : isLayout s.char = true) :
    Yaml.isDocumentMarker (s :: tail) = false := by
  rcases layout_cases h with hc | hc | hc | hc <;> simp [Yaml.isDocumentMarker, Yaml.isMarker, hc]

/-- White space does not close a quotation. -/
theorem singleQuoted_layout (done : List Char) (gap : Gap) {tail : List Spot}
    (h : ∀ s ∈ tail, isLayout s.char = true) : singleQuoted done gap tail = none := by
  induction tail generalizing gap with
  | nil => rfl
  | cons s tail ih =>
    have htail : ∀ t ∈ tail, isLayout t.char = true := fun t ht => h t (List.mem_cons_of_mem s ht)
    have hdocument := isDocumentMarker_layout tail (h s List.mem_cons_self)
    rcases layout_cases (h s List.mem_cons_self) with hc | hc | hc | hc
    · simpa [singleQuoted, hdocument, hc, isBreak, isBlank] using ih (gap.space ' ') htail
    all_goals simpa [singleQuoted, hdocument, hc, isBreak] using ih (gap.newline s.char) htail

theorem Padded.singleQuoted (h : Padded k l loose r r') (done : List Char) (gap : Gap) :
    Option.Rel (ScalarAlike k l loose) (singleQuoted done gap r) (singleQuoted done gap r') := by
  -- Two quotes are taken at once, so the induction is on the length of the text.
  induction hn : r.length using Nat.strongRecOn generalizing r r' done gap with
  | _ n ih =>
  subst hn
  cases h with
  | ended h =>
    rw [singleQuoted_layout done gap fun s hs => (h s hs).2]
    exact .none
  | @spot s r r' hmark h =>
    have hdocument : Yaml.isDocumentMarker (s.moved k l :: r') = Yaml.isDocumentMarker (s :: r) :=
      (Padded.spot s hmark h).isDocumentMarker
    have hrest := fun done gap => ih r.length (Nat.lt_succ_self _) h done gap rfl
    unfold Yaml.singleQuoted
    simp only [Spot.char_moved, hdocument]
    refine rel_ite Iff.rfl (fun _ => .none) fun _ => ?_
    refine rel_ite Iff.rfl (fun _ => hrest _ _) fun _ => ?_
    refine rel_ite Iff.rfl (fun _ => hrest _ _) fun _ => ?_
    refine rel_ite Iff.rfl (fun _ => hrest _ _) fun _ => ?_
    cases h with
    | ended hended =>
      cases r' with
      | nil => exact .some ⟨rfl, .ended hended, .inl rfl⟩
      | cons q tail =>
        have hquote : ¬ (q.char == '\'') = true := by
          rcases layout_cases (hended q List.mem_cons_self).2 with hc | hc | hc | hc <;> simp [hc]
        dsimp only
        rw [if_neg hquote]
        exact .some ⟨rfl, .ended hended, .inl rfl⟩
    | spot q hmark' h =>
      refine rel_ite Iff.rfl (fun _ => ?_) fun _ => .some ⟨rfl, .spot q hmark' h, .inl rfl⟩
      exact ih _ (by simp only [List.length_cons]; omega) h _ _ rfl

theorem doubleQuoted_layout (done : List Char) (gap : Gap) (code : Option (Nat × Nat)) {tail : List Spot}
    (h : ∀ s ∈ tail, isLayout s.char = true) : doubleQuoted done gap code tail = none := by
  induction tail generalizing gap code with
  | nil => rfl
  | cons s tail ih =>
    have htail : ∀ t ∈ tail, isLayout t.char = true := fun t ht => h t (List.mem_cons_of_mem s ht)
    have hdocument := isDocumentMarker_layout tail (h s List.mem_cons_self)
    cases code with
    | some code =>
      have hdigit : Json.hexValue? s.char = none := by
        rcases layout_cases (h s List.mem_cons_self) with hc | hc | hc | hc <;> rw [hc] <;> rfl
      simp [doubleQuoted, hdigit]
    | none =>
      rcases layout_cases (h s List.mem_cons_self) with hc | hc | hc | hc
      · simpa [doubleQuoted, hdocument, hc, isBreak, isBlank] using ih (gap.space ' ') none htail
      all_goals simpa [doubleQuoted, hdocument, hc, isBreak] using ih (gap.newline s.char) none htail

theorem Padded.doubleQuoted (h : Padded k l loose r r') (done : List Char) (gap : Gap)
    (code : Option (Nat × Nat)) :
    Option.Rel (ScalarAlike k l loose) (doubleQuoted done gap code r) (doubleQuoted done gap code r') := by
  -- A backslash and the character behind it are taken at once.
  induction hn : r.length using Nat.strongRecOn generalizing r r' done gap code with
  | _ n ih =>
  subst hn
  cases h with
  | ended h =>
    rw [doubleQuoted_layout done gap code fun s hs => (h s hs).2]
    exact .none
  | @spot s r r' hmark h =>
    have hdocument : Yaml.isDocumentMarker (s.moved k l :: r') = Yaml.isDocumentMarker (s :: r) :=
      (Padded.spot s hmark h).isDocumentMarker
    have hrest := fun done gap code => ih r.length (Nat.lt_succ_self _) h done gap code rfl
    unfold Yaml.doubleQuoted
    simp only [Spot.char_moved, hdocument]
    cases code with
    | some code =>
      dsimp only
      cases Json.hexValue? s.char with
      | none => exact .none
      | some d =>
        refine rel_ite Iff.rfl (fun _ => hrest _ _ _) fun _ => ?_
        cases charOfCode? (16 * code.2 + d) with
        | none => exact .none
        | some c => exact hrest _ _ _
    | none =>
      refine rel_ite Iff.rfl (fun _ => .none) fun _ => ?_
      refine rel_ite Iff.rfl (fun _ => hrest _ _ _) fun _ => ?_
      refine rel_ite Iff.rfl (fun _ => hrest _ _ _) fun _ => ?_
      refine rel_ite Iff.rfl (fun _ => .some ⟨rfl, h, .inl rfl⟩) fun _ => ?_
      refine rel_ite Iff.rfl (fun _ => hrest _ _ _) fun _ => ?_
      cases h with
      | ended hended =>
        refine rel_of_none rfl ?_
        cases r' with
        | nil => rfl
        | cons e tail =>
          have htail : ∀ t ∈ tail, isLayout t.char = true := fun t ht =>
            (hended t (List.mem_cons_of_mem e ht)).2
          have hnone := fun done gap code => doubleQuoted_layout done gap code htail
          rcases layout_cases (hended e List.mem_cons_self).2 with hc | hc | hc | hc <;>
            simp [hc, isBreak, escapeWidth?, escapedChar?, hnone]
      | spot e hmark' h =>
        have hlater := fun done gap code => ih _ (by simp only [List.length_cons]; omega) h done gap code rfl
        dsimp only
        refine rel_ite Iff.rfl (fun _ => hlater _ _ _) fun _ => ?_
        simp only [Spot.char_moved]
        cases escapeWidth? e.char with
        | some width => exact hlater _ _ _
        | none =>
          cases escapedChar? e.char with
          | some c => exact hlater _ _ _
          | none => exact .none

end Padding

end ChartOperator.Yaml
