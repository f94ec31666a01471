import ChartOperator.Proofs.Yaml.Padding

set_option autoImplicit false

/-!
# Block scalars among white space

A block scalar takes what is indented, the line breaks behind it, and white space at the end of a text. It
does not read beyond a line that begins at the margin (`AtFence`). So where such a line is still to come, what
is read does not depend on what surrounds the text (`Padded.block`).

A text is `Guarded` if the part of it from some such line on opens no block scalar.
-/

namespace ChartOperator.Yaml

/-! ## Lines at the margin -/

/-- The text begins with a character at the margin, which is no white space. -/
def AtFence (r : List Spot) : Prop :=
  ∃ s t, r = s :: t ∧ s.column = 0 ∧ isBlank s.char = false ∧ isBreak s.char = false

/-- A line at the margin is still to come. -/
def BeforeFence (r : List Spot) : Prop :=
  ∃ front s t, r = front ++ s :: t ∧ isBreak s.char = true ∧ AtFence t

/-- The text holds none of the marks that open a block scalar. -/
def Unbarred (r : List Spot) : Prop := ∀ s ∈ r, s.char ≠ '|' ∧ s.char ≠ '>'

/-- From some line at the margin on, or altogether, the text opens no block scalar. -/
def Guarded (r : List Spot) : Prop :=
  Unbarred r ∨ ∃ front s t, r = front ++ s :: t ∧ isBreak s.char = true ∧ AtFence t ∧ Unbarred t

section Fences

variable {r r' : List Spot} {s : Spot} {p : Char → Bool}

theorem not_beforeFence_nil : ¬ BeforeFence [] := by
  rintro ⟨front, s, t, h, -⟩
  simp at h

theorem not_atFence_nil : ¬ AtFence [] := by
  rintro ⟨s, t, h, -⟩
  cases h

/-- Behind the first character the line is still to come, or it is the next. -/
theorem BeforeFence.tail (h : BeforeFence (s :: r)) : AtFence r ∨ BeforeFence r := by
  obtain ⟨front, last, t, h, hbreak, hfence⟩ := h
  cases front with
  | nil =>
    obtain ⟨rfl, rfl⟩ := List.cons_eq_cons.1 h
    exact .inl hfence
  | cons _ front =>
    obtain ⟨-, rfl⟩ := List.cons_eq_cons.1 h
    exact .inr ⟨front, last, t, rfl, hbreak, hfence⟩

theorem BeforeFence.tail_of_not_break (h : BeforeFence (s :: r)) (hs : isBreak s.char = false) : BeforeFence r := by
  obtain ⟨front, last, t, h, hbreak, hfence⟩ := h
  cases front with
  | nil =>
    obtain ⟨rfl, rfl⟩ := List.cons_eq_cons.1 h
    rw [hs] at hbreak
    cases hbreak
  | cons _ front =>
    obtain ⟨-, rfl⟩ := List.cons_eq_cons.1 h
    exact ⟨front, last, t, rfl, hbreak, hfence⟩

/-- Within a line nothing is dropped beyond its end. -/
theorem BeforeFence.dropChars (h : BeforeFence r) (hp : ∀ c, isBreak c = true → p c = false) :
    BeforeFence (dropChars p r) := by
  induction r with
  | nil => exact h
  | cons s r ih =>
    unfold Yaml.dropChars at ih ⊢
    rw [List.dropWhile_cons]
    split
    · next hs =>
      refine ih (h.tail_of_not_break (Bool.eq_false_iff.2 fun hbreak => ?_))
      rw [hp _ hbreak] at hs
      cases hs
    · exact h

theorem Guarded.of_suffix (h : Guarded r) (hr : r' <:+ r) : Guarded r' := by
  rcases h with h | ⟨front, s, t, rfl, hbreak, hfence, hunbarred⟩
  · exact .inl fun s hs => h s (hr.subset hs)
  · obtain ⟨before, hbefore⟩ := hr
    rcases List.append_eq_append_iff.1 hbefore with ⟨later, rfl, rfl⟩ | ⟨later, rfl, hlater⟩
    · exact .inr ⟨later, s, t, rfl, hbreak, hfence, hunbarred⟩
    · cases later with
      | nil => exact .inr ⟨[], s, t, hlater.symm, hbreak, hfence, hunbarred⟩
      | cons _ later =>
        obtain ⟨-, rfl⟩ := List.cons_eq_cons.1 hlater
        exact .inl fun s hs => hunbarred s (List.mem_append_right later hs)

/-- Where a block scalar opens, the line at the margin is still to come. -/
theorem Guarded.beforeFence (h : Guarded (s :: r)) (hs : s.char = '|' ∨ s.char = '>') : BeforeFence r := by
  rcases h with h | ⟨front, last, t, h, hbreak, hfence, -⟩
  · obtain ⟨hbar, hangle⟩ := h s List.mem_cons_self
    exact (hs.elim hbar hangle).elim
  · have hs : isBreak s.char = false := by rcases hs with hs | hs <;> rw [hs] <;> rfl
    exact BeforeFence.tail_of_not_break ⟨front, last, t, h, hbreak, hfence⟩ hs

theorem BeforeFence.dropComment (h : BeforeFence r) : BeforeFence (dropComment r) := by
  unfold Yaml.dropComment
  split
  · exact h.dropChars fun c hc => by simp [hc]
  · exact h

/-- The line at the margin is the next, or still to come. -/
def Fenced (r : List Spot) : Prop := AtFence r ∨ BeforeFence r

theorem not_fenced_nil : ¬ Fenced [] := fun h => h.elim not_atFence_nil not_beforeFence_nil

theorem BeforeFence.endOfLine? (h : BeforeFence r) (hr : endOfLine? r = some r') : Fenced r' := by
  have hdropped : BeforeFence (Yaml.dropComment (Yaml.dropChars isBlank r)) :=
    (h.dropChars fun c hc => by
      simp only [isBreak, Bool.or_eq_true, beq_iff_eq] at hc
      rcases hc with (rfl | rfl) | rfl <;> rfl).dropComment
  unfold Yaml.endOfLine? at hr
  generalize Yaml.dropComment (Yaml.dropChars isBlank r) = rest at hdropped hr
  cases rest with
  | nil => exact (not_beforeFence_nil hdropped).elim
  | cons s rest =>
    dsimp only at hr
    split at hr
    · cases hr
      exact hdropped.tail
    · cases hr

end Fences

/-! ## The parts of a block scalar -/

section Blocks

variable {k l : Nat} {loose : Prop} {r r' : List Spot}

/-- Where a line at the margin had to follow, the text does not end before white space. -/
theorem eq_nil_of_ended {tail : List Spot} (h : ∀ s ∈ tail, loose ∧ isLayout s.char = true)
    (hfence : loose → Fenced []) : tail = [] :=
  List.eq_nil_iff_forall_not_mem.2 fun s hs => not_fenced_nil (hfence (h s hs).1)

/-- Lines were passed alike: the same breaks, the same depth, and what is left is padded and fenced again. -/
structure LinesAlike (k l : Nat) (loose : Prop) (x y : List Char × Nat × List Spot) : Prop where
  breaks : y.1 = x.1
  deepest : y.2.1 = x.2.1
  rest : Padded k l loose x.2.2 y.2.2
  fenced : loose → Fenced x.2.2

theorem Padded.blankLines (h : Padded k l loose r r') (hfence : loose → Fenced r) (indent deepest : Nat)
    (breaks : List Char) :
    Option.Rel (LinesAlike k l loose) (blankLines indent deepest breaks r)
      (blankLines indent deepest breaks r') := by
  induction h generalizing deepest breaks with
  | ended h =>
    obtain rfl := eq_nil_of_ended h hfence
    exact .some ⟨rfl, rfl, .ended h, hfence⟩
  | @spot s r r' hmark h ih =>
    -- What is passed over is no character at the margin.
    have hpassed : isBlank s.char = true ∨ isBreak s.char = true → loose → Fenced r := by
      intro hs hloose
      rcases hfence hloose with ⟨_, _, he, -, hblank, hbreak⟩ | hbefore
      · obtain ⟨rfl, rfl⟩ := List.cons_eq_cons.1 he
        rw [hblank, hbreak] at hs
        cases hs <;> contradiction
      · exact hbefore.tail
    unfold Yaml.blankLines
    simp only [Spot.char_moved, Spot.column_moved]
    refine rel_ite Iff.rfl (fun hspace => ?_) fun _ => rel_ite Iff.rfl (fun _ => .none) fun _ =>
      rel_ite Iff.rfl (fun hbreak => ih (hpassed (.inr hbreak)) _ _) fun _ => ?_
    · refine ih (hpassed (.inl ?_)) _ _
      simp only [Bool.and_eq_true, beq_iff_eq] at hspace
      rw [hspace.1]
      rfl
    · exact .some ⟨rfl, rfl, .spot s hmark h, hfence⟩

/-- The marks behind the opening of a block are no line breaks. -/
theorem isBreak_of_blockMarks? {c d : Char} {chomping : Chomping} {n taken : Nat}
    (h : blockMarks? c d = some (chomping, n, taken)) :
    taken = 0 ∨ isBreak c = false ∧ (taken = 1 ∨ taken = 2 ∧ isBreak d = false) := by
  have hsign : ∀ {c : Char}, isBreak c = true → (c == '+') = false ∧ (c == '-') = false ∧ Text.isDigit c = false := by
    intro c hc
    simp only [isBreak, Bool.or_eq_true, beq_iff_eq] at hc
    rcases hc with (rfl | rfl) | rfl <;> exact ⟨rfl, rfl, rfl⟩
  unfold blockMarks? at h
  cases hc : isBreak c with
  | true =>
    obtain ⟨hplus, hminus, hdigit⟩ := hsign hc
    simp [hplus, hminus, hdigit] at h
    exact .inl h.2.2.symm
  | false =>
    cases hd : isBreak d with
    | true =>
      obtain ⟨hplus, hminus, hdigit⟩ := hsign hd
      simp only [hplus, hminus, hdigit] at h
      grind
    | false => grind

theorem Padded.ahead_of_lt (h : Padded k l loose r r') {n : Nat} (hn : loose → n < r.length) :
    Yaml.ahead r' n = Yaml.ahead r n := by
  induction h generalizing n with
  | @ended tail h =>
    cases tail with
    | nil => rfl
    | cons s tail => exact absurd (hn (h s List.mem_cons_self).1) (Nat.not_lt_zero n)
  | spot s _ _ ih =>
    cases n with
    | zero => rfl
    | succ n => exact ih fun hloose => Nat.lt_of_succ_lt_succ (hn hloose)

theorem BeforeFence.one_lt_length (h : BeforeFence r) : 1 < r.length := by
  obtain ⟨front, s, t, rfl, -, first, t, rfl, -⟩ := h
  simp only [List.length_append, List.length_cons]
  omega

theorem BeforeFence.drop_one (h : BeforeFence r) (hfront : isBreak (ahead r 0) = false) :
    BeforeFence (r.drop 1) := by
  cases r with
  | nil => exact (not_beforeFence_nil h).elim
  | cons s r => exact h.tail_of_not_break hfront

/-- The header of a block is read alike. -/
structure HeadersAlike (k l : Nat) (loose : Prop) (x y : Chomping × Nat × List Spot) : Prop where
  chomping : y.1 = x.1
  indent : y.2.1 = x.2.1
  rest : Padded k l loose x.2.2 y.2.2
  fence : loose → BeforeFence x.2.2

theorem Padded.blockHeader? (h : Padded k l loose r r') (hfence : loose → BeforeFence r) :
    Option.Rel (HeadersAlike k l loose) (blockHeader? r) (blockHeader? r') := by
  have hlength := fun hloose => (hfence hloose).one_lt_length
  rw [blockHeader?_eq, blockHeader?_eq, h.ahead_of_lt fun hloose => Nat.lt_of_succ_lt (hlength hloose),
    h.ahead_of_lt hlength]
  cases hmarks : blockMarks? (Yaml.ahead r 0) (Yaml.ahead r 1) with
  | none => exact .none
  | some marks =>
    obtain ⟨chomping, n, taken⟩ := marks
    refine .some ⟨rfl, rfl, h.drop taken, fun hloose => ?_⟩
    rcases isBreak_of_blockMarks? hmarks with rfl | ⟨hfirst, rfl | ⟨rfl, hsecond⟩⟩
    · exact hfence hloose
    · exact (hfence hloose).drop_one hfirst
    · have hrest := ((hfence hloose).drop_one hfirst).drop_one (by rwa [ahead_drop])
      rwa [List.drop_drop] at hrest

/-- The lines of a block were read alike. -/
structure BodiesAlike (k l : Nat) (loose : Prop) (x y : List Char × List Char × List Char × List Spot) :
    Prop where
  text : y.1 = x.1
  leading : y.2.1 = x.2.1
  trailing : y.2.2.1 = x.2.2.1
  rest : Padded k l loose x.2.2.2 y.2.2.2

/-- A line that is followed by another one is read alike. -/
theorem Padded.takeLine (h : Padded k l loose r r') (hfence : loose → BeforeFence r) :
    Yaml.takeChars (fun c => !isBreak c) r' = Yaml.takeChars (fun c => !isBreak c) r := by
  induction h with
  | ended h =>
    obtain rfl := eq_nil_of_ended h fun hloose => .inr (hfence hloose)
    rfl
  | @spot s r r' hmark h ih =>
    unfold Yaml.takeChars chars at ih ⊢
    rw [List.takeWhile_cons, List.takeWhile_cons, Spot.char_moved]
    split
    · next hs =>
      rw [List.map_cons, List.map_cons, Spot.char_moved,
        ih fun hloose => (hfence hloose).tail_of_not_break (by simpa using hs)]
    · rfl

/-- The break of a line that is followed by another one is the same. -/
theorem Padded.take_one (h : Padded k l loose r r') (hfence : loose → BeforeFence r) :
    (r'.take 1).map Spot.char = (r.take 1).map Spot.char := by
  cases h with
  | ended h =>
    obtain rfl := eq_nil_of_ended h fun hloose => .inr (hfence hloose)
    rfl
  | spot s hmark h => rfl

theorem BeforeFence.fenced_drop_one (h : BeforeFence r) : Fenced (r.drop 1) := by
  cases r with
  | nil => exact (not_beforeFence_nil h).elim
  | cons s r => exact h.tail

/-- Behind a line and the empty ones that follow it, less is left than there was. -/
theorem length_of_blankLines {s : Spot} {given deepest room : Nat} {breaks : List Char}
    {x : List Char × Nat × List Spot} (h : blankLines given deepest breaks (afterLine (s :: r)) = some x)
    (hroom : (s :: r).length ≤ room + 1) : x.2.2.length ≤ room := by
  obtain ⟨_, _, rest⟩ := x
  have hblank := (blankLines_suffix h).length_le
  have hline := (dropChars_suffix (fun c => !isBreak c) (s :: r)).length_le
  simp only [afterLine, List.length_drop] at hblank
  simp only [List.length_cons] at hroom hline
  dsimp only
  omega

theorem blockLines_nil (literal : Bool) (indent room : Nat) (text leading trailing : List Char) (blank : Bool) :
    blockLines literal indent room text leading trailing blank [] = some (text, leading, trailing, []) := by
  cases room <;> rfl

theorem blockLines_ended {tail : List Spot} (h : ∀ s ∈ tail, loose ∧ isLayout s.char = true)
    (hfence : loose → Fenced []) (literal : Bool) (indent room room' : Nat) (text leading trailing : List Char)
    (blank : Bool) :
    Option.Rel (BodiesAlike k l loose) (blockLines literal indent room text leading trailing blank [])
      (blockLines literal indent room' text leading trailing blank tail) := by
  obtain rfl := eq_nil_of_ended h hfence
  rw [blockLines_nil, blockLines_nil]
  exact .some ⟨rfl, rfl, rfl, .ended h⟩

/-- The lines of a block end at the line at the margin, so that their end is never the end of the text. -/
theorem Padded.blockLines (h : Padded k l loose r r') (hfence : loose → Fenced r) {indent : Nat}
    (hindent : indent ≠ 0) (literal : Bool) {room room' : Nat} (hroom : r.length ≤ room)
    (hroom' : r'.length ≤ room') (text leading trailing : List Char) (blank : Bool) :
    Option.Rel (BodiesAlike k l loose) (blockLines literal indent room text leading trailing blank r)
      (blockLines literal indent room' text leading trailing blank r') := by
  induction room generalizing room' r r' text leading trailing blank with
  | zero =>
    cases h with
    | ended hended => exact blockLines_ended hended hfence ..
    | spot s hmark h => exact absurd hroom (by simp)
  | succ room ih =>
    cases h with
    | ended hended => exact blockLines_ended hended hfence ..
    | @spot s r r' hmark h =>
      cases room' with
      | zero => exact absurd hroom' (by simp)
      | succ room' =>
      have hall : Padded k l loose (s :: r) (s.moved k l :: r') := .spot s hmark h
      unfold Yaml.blockLines
      simp only [Spot.column_moved, Spot.char_moved]
      refine rel_ite Iff.rfl (fun _ => .some ⟨rfl, rfl, rfl, hall⟩) fun hcolumn => ?_
      have hbefore : loose → BeforeFence (s :: r) := by
        intro hloose
        refine (hfence hloose).resolve_left ?_
        rintro ⟨_, _, he, hmargin, -⟩
        obtain ⟨rfl, rfl⟩ := List.cons_eq_cons.1 he
        exact hcolumn fun he => hindent (he.symm.trans hmargin)
      have hend := hall.dropChars fun c => !isBreak c
      have hbreak := fun hloose => (hbefore hloose).dropChars (p := fun c => !isBreak c) fun c hc => by simp [hc]
      have hlines := (hend.drop 1).blankLines (fun hloose => (hbreak hloose).fenced_drop_one) indent 0 []
      rw [hall.takeLine hbefore, hend.take_one hbreak]
      generalize hread : Yaml.blankLines indent 0 [] _ = x at hlines ⊢
      generalize hread' : Yaml.blankLines indent 0 [] _ = x' at hlines ⊢
      cases hlines with
      | none => exact .none
      | @some x x' hx =>
        have hroom := length_of_blankLines hread hroom
        have hroom' := length_of_blankLines hread' hroom'
        obtain ⟨trailing, deepest, rest⟩ := x
        obtain ⟨_, _, rest'⟩ := x'
        obtain ⟨rfl, rfl, hrest, hfenced⟩ := hx
        exact ih hrest hfenced hroom hroom' _ _ _ _

/-- The end of the line on which a block opens is passed alike. -/
theorem Padded.endOfHeader? (h : Padded k l loose r r') (hfence : loose → BeforeFence r) :
    Option.Rel (fun x y => Padded k l loose x y ∧ (loose → Fenced x)) (Yaml.endOfLine? r)
      (Yaml.endOfLine? r') := by
  have hline := h.endOfLine?
  generalize hread : Yaml.endOfLine? r = x, Yaml.endOfLine? r' = x' at hline ⊢
  cases hline with
  | none => exact .none
  | some hrest => exact .some ⟨hrest, fun hloose => (hfence hloose).endOfLine? hread⟩

theorem Padded.block (h : Padded k l loose r r') (hfence : loose → BeforeFence r) (literal : Bool)
    (parent : Int) : Option.Rel (ScalarAlike k l loose) (block literal parent r) (block literal parent r') := by
  unfold Yaml.block
  refine rel_bind (h.blockHeader? hfence) ?_
  rintro ⟨chomping, given, r₁⟩ ⟨_, _, r₂⟩ ⟨rfl, rfl, h, hfence⟩
  refine rel_bind (h.endOfHeader? hfence) ?_
  rintro r₁ r₂ ⟨h, hfence⟩
  refine rel_bind (h.blankLines hfence _ 0 []) ?_
  rintro ⟨trailing, deepest, r₁⟩ ⟨_, _, r₂⟩ ⟨rfl, rfl, h, hfence⟩
  refine rel_bind (h.blockLines hfence ?_ literal (Nat.le_refl _) (Nat.le_refl _) [] [] _ false) ?_
  · -- A block is indented by a column at least.
    dsimp only
    grind
  rintro ⟨text, leading, trailing, r₁⟩ ⟨_, _, _, r₂⟩ ⟨rfl, rfl, rfl, h⟩
  exact .some ⟨rfl, h, .inl rfl⟩

end Blocks

end ChartOperator.Yaml
