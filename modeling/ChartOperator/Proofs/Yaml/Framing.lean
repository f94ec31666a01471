import ChartOperator.Proofs.Yaml.Scanning
import ChartOperator.Yaml

set_option autoImplicit false

/-!
# A document among white space

A text means the same without the lines of spaces around it (`read?_framed`), with two conditions: its first
line must keep its indentation (`Framed.starts`), and a block scalar must not be what it ends with
(`Framed.guarded`), since the line breaks behind a block scalar may belong to it.

Other white space is left out: a tab behind a line break is an error, and the rest is text.
-/

namespace ChartOperator.Yaml

/-! ## Lines as they are written -/

/-- A character that ends a line of a text as it is written. -/
def endsLine (c : Char) : Bool := isBreak c || c == '\r' || c == '\x85'

/-- A space, or the end of a line. -/
def isOuter (c : Char) : Bool := c == ' ' || endsLine c

theorem outer_cases {c : Char} (h : isOuter c = true) :
    c = ' ' ∨ c = '\n' ∨ c = '\u2028' ∨ c = '\u2029' ∨ c = '\r' ∨ c = '\x85' := by
  simpa [isOuter, endsLine, isBreak, or_assoc] using h

theorem isAllowed_of_isOuter {c : Char} (h : isOuter c = true) : isAllowed c = true := by
  rcases outer_cases h with rfl | rfl | rfl | rfl | rfl | rfl <;> rfl

theorem ne_byteOrderMark_of_isOuter {c : Char} (h : isOuter c = true) : c ≠ byteOrderMark := by
  rintro rfl
  cases h

variable {a b : List Char} {c : Char}

theorem getLast?_of_cons {d : Char} (h : a.getLast? = some c) : (d :: a).getLast? = some c := by
  rw [List.getLast?_cons, h, Option.getD_some]

/-- Line breaks are made one character each on both sides of a cut that splits none. -/
theorem unifyBreaks_append (h : a.getLast? ≠ some '\r' ∨ b.head? ≠ some '\n') :
    unifyBreaks (a ++ b) = unifyBreaks a ++ unifyBreaks b := by
  fun_induction unifyBreaks a with
  | case1 => rfl
  | case2 r ih =>
    exact congrArg ('\n' :: ·) (ih (h.imp_left (mt fun he => getLast?_of_cons (getLast?_of_cons he))))
  | case3 r hne ih =>
    have hcut : ∀ r', r ++ b = '\n' :: r' → False := by
      intro r' he
      cases r with
      | nil => exact h.elim (fun h => h rfl) fun h => h (by rw [← List.nil_append b, he]; rfl)
      | cons d r => exact hne r (by rw [(List.cons_eq_cons.1 he).1])
    rw [List.cons_append, unifyBreaks.eq_3 _ hcut, ih (h.imp_left (mt getLast?_of_cons))]
    rfl
  | case4 r ih => exact congrArg ('\n' :: ·) (ih (h.imp_left (mt getLast?_of_cons)))
  | case5 c r hpair hreturn hnext ih =>
    rw [List.cons_append, unifyBreaks.eq_5 _ _ (fun _ he _ => hreturn he) hreturn hnext,
      ih (h.imp_left (mt getLast?_of_cons))]
    rfl

theorem mem_unifyBreaks (h : c ∈ unifyBreaks a) : c = '\n' ∨ c ∈ a ∧ c ≠ '\r' ∧ c ≠ '\x85' := by
  fun_induction unifyBreaks a with
  | case1 => cases h
  | case2 r ih | case3 r hne ih | case4 r ih =>
    rcases List.mem_cons.1 h with h | h
    · exact .inl h
    · exact (ih h).imp_right fun ⟨hmem, hother⟩ => ⟨by simp [hmem], hother⟩
  | case5 d r hpair hreturn hnext ih =>
    rcases List.mem_cons.1 h with rfl | h
    · exact .inr ⟨List.mem_cons_self, hreturn, hnext⟩
    · exact (ih h).imp_right fun ⟨hmem, hother⟩ => ⟨List.mem_cons_of_mem _ hmem, hother⟩

/-- The lines around a text are white space to its readers. -/
theorem isLayout_of_mem_unifyBreaks (ha : ∀ c ∈ a, isOuter c = true) (h : c ∈ unifyBreaks a) :
    isLayout c = true := by
  rcases mem_unifyBreaks h with rfl | ⟨hmem, hreturn, hnext⟩
  · rfl
  · rcases outer_cases (ha c hmem) with rfl | rfl | rfl | rfl | rfl | rfl
    all_goals first | rfl | contradiction

theorem unifyBreaks_singleton (hc : endsLine c = true) : ∃ d, unifyBreaks [c] = [d] ∧ isBreak d = true := by
  simp only [endsLine, isBreak, Bool.or_eq_true, beq_iff_eq] at hc
  rcases hc with (((rfl | rfl) | rfl) | rfl) | rfl
  all_goals exact ⟨_, rfl, rfl⟩

/-- What ends with the end of a line still does. -/
theorem unifyBreaks_line (front : List Char) (hc : endsLine c = true) :
    ∃ line d, unifyBreaks (front ++ [c]) = line ++ [d] ∧ isBreak d = true := by
  by_cases hpair : front.getLast? = some '\r' ∧ c = '\n'
  · obtain ⟨hreturn, rfl⟩ := hpair
    obtain ⟨front, rfl⟩ := List.getLast?_eq_some_iff.1 hreturn
    refine ⟨unifyBreaks front, '\n', ?_, rfl⟩
    rw [List.append_assoc, List.singleton_append, unifyBreaks_append (.inr (by simp))]
    rfl
  · obtain ⟨d, hd, hbreak⟩ := unifyBreaks_singleton hc
    refine ⟨unifyBreaks front, d, ?_, hbreak⟩
    rw [unifyBreaks_append, hd]
    refine Decidable.not_and_iff_not_or_not.1 fun h => hpair ⟨h.1, ?_⟩
    simpa using h.2

/-! ## Places -/

section Places

variable {index line column k l : Nat} {s : Spot}

/-- The line that a text leads to. -/
def lineBehind (line : Nat) : List Char → Nat
  | [] => line
  | c :: r => lineBehind (if isBreak c then line + 1 else line) r

/-- The column that a text leads to. -/
def columnBehind (column : Nat) : List Char → Nat
  | [] => column
  | c :: r => columnBehind (if isBreak c then 0 else column + 1) r

theorem columnBehind_line (column : Nat) (front : List Char) (hc : isBreak c = true) :
    columnBehind column (front ++ [c]) = 0 := by
  induction front generalizing column with
  | nil => simp [columnBehind, hc]
  | cons d front ih => exact ih _

theorem spotsFrom_append (index line column : Nat) (a b : List Char) :
    spotsFrom index line column (a ++ b) =
      spotsFrom index line column a ++
        spotsFrom (index + a.length) (lineBehind line a) (columnBehind column a) b := by
  induction a generalizing index line column with
  | nil => rfl
  | cons c a ih =>
    have hlength : index + (c :: a).length = index + 1 + a.length := by rw [List.length_cons]; omega
    rw [List.cons_append, spotsFrom, spotsFrom, lineBehind, columnBehind, hlength]
    split
    · rw [ih]
      rfl
    · rw [ih]
      rfl

/-- In another place a text has the same columns. -/
theorem spotsFrom_moved (index line column k l : Nat) (a : List Char) :
    spotsFrom (index + k) (line + l) column a = (spotsFrom index line column a).map (Spot.moved k l) := by
  induction a generalizing index line column with
  | nil => rfl
  | cons c a ih =>
    rw [spotsFrom, spotsFrom]
    have hindex : index + k + 1 = index + 1 + k := by omega
    have hline : line + l + 1 = line + 1 + l := by omega
    split
    · rw [hindex, hline, ih]
      rfl
    · rw [hindex, ih]
      rfl

theorem char_of_mem_spotsFrom (h : s ∈ spotsFrom index line column a) : s.char ∈ a := by
  induction a generalizing index line column with
  | nil => cases h
  | cons c a ih =>
    rw [spotsFrom] at h
    rcases List.mem_cons.1 h with rfl | h
    · exact List.mem_cons_self
    · split at h
      · exact List.mem_cons_of_mem c (ih h)
      · exact List.mem_cons_of_mem c (ih h)

theorem index_of_mem_spotsFrom (h : s ∈ spotsFrom index line column a) : index ≤ s.index := by
  induction a generalizing index line column with
  | nil => cases h
  | cons c a ih =>
    rw [spotsFrom] at h
    rcases List.mem_cons.1 h with rfl | h
    · exact Nat.le_refl _
    · split at h
      · exact Nat.le_of_succ_le (ih h)
      · exact Nat.le_of_succ_le (ih h)

theorem padded_moved {loose : Prop} {r tail : List Spot}
    (hmark : ∀ s ∈ r, k = 0 ∨ s.index ≠ 0 ∨ s.char ≠ byteOrderMark)
    (htail : ∀ s ∈ tail, loose ∧ isLayout s.char = true) :
    Padded k l loose r (r.map (Spot.moved k l) ++ tail) := by
  induction r with
  | nil => exact .ended htail
  | cons s r ih =>
    exact .spot s (hmark s List.mem_cons_self) (ih fun t ht => hmark t (List.mem_cons_of_mem s ht))

/-- A mark that is not at the front of a text is none. -/
theorem ne_byteOrderMark_of_mem_spots (ha : a.head? ≠ some byteOrderMark) (h : s ∈ spots a) :
    s.index ≠ 0 ∨ s.char ≠ byteOrderMark := by
  cases a with
  | nil => cases h
  | cons c a =>
    rcases List.mem_cons.1 h with rfl | h
    · exact .inr fun he => ha (congrArg some he)
    · refine .inl (Nat.ne_of_gt ?_)
      split at h
      · exact index_of_mem_spotsFrom h
      · exact index_of_mem_spotsFrom h

end Places

/-! ## What a text ends with -/

/-- From some line at the margin on, or altogether, a text holds none of the marks that open a block scalar. -/
def EndsUnbarred (a : List Char) : Prop :=
  (∀ c ∈ a, c ≠ '|' ∧ c ≠ '>') ∨
    ∃ front c d rest, a = front ++ c :: d :: rest ∧ endsLine c = true ∧ isOuter d = false ∧ d ≠ '\t' ∧
      ∀ e ∈ d :: rest, e ≠ '|' ∧ e ≠ '>'

theorem unbarred_spots (index line column : Nat) (h : ∀ c ∈ a, c ≠ '|' ∧ c ≠ '>') :
    Unbarred (spotsFrom index line column (unifyBreaks a)) := by
  intro s hs
  rcases mem_unifyBreaks (char_of_mem_spotsFrom hs) with hc | ⟨hmem, -⟩
  · rw [hc]
    exact ⟨by decide, by decide⟩
  · exact h _ hmem

theorem unifyBreaks_cons (hc : endsLine c = false) (a : List Char) : unifyBreaks (c :: a) = c :: unifyBreaks a := by
  have hreturn : c = '\r' → False := by rintro rfl; cases hc
  have hnext : c = '\x85' → False := by rintro rfl; cases hc
  exact unifyBreaks.eq_5 c a (fun _ he _ => hreturn he) hreturn hnext

theorem spotsFrom_singleton (index line column : Nat) (c : Char) :
    spotsFrom index line column [c] = [⟨c, index, line, column⟩] := by
  rw [spotsFrom]
  split <;> rfl

theorem guarded_spots (h : EndsUnbarred a) : Guarded (spots (unifyBreaks a)) := by
  rcases h with h | ⟨front, c, d, rest, rfl, hc, hd, htab, hrest⟩
  · exact .inl (unbarred_spots 0 0 0 h)
  · obtain ⟨hspace, hends⟩ : (d == ' ') = false ∧ endsLine d = false := Bool.or_eq_false_iff.1 hd
    have hbreak : isBreak d = false := (Bool.or_eq_false_iff.1 (Bool.or_eq_false_iff.1 hends).1).1
    have hfeed : (d :: rest).head? ≠ some '\n' := by
      rintro ⟨⟩
      cases hbreak
    obtain ⟨line, e, hline, he⟩ := unifyBreaks_line front hc
    have hcut : front ++ c :: d :: rest = (front ++ [c]) ++ (d :: rest) := by simp
    rw [hcut, unifyBreaks_append (.inr hfeed), hline, spots, spotsFrom_append, columnBehind_line 0 line he,
      spotsFrom_append, spotsFrom_singleton, List.append_assoc, List.singleton_append]
    refine .inr ⟨_, _, _, rfl, he, ?_, unbarred_spots _ _ 0 hrest⟩
    rw [unifyBreaks_cons hends, spotsFrom]
    refine ⟨_, _, rfl, rfl, ?_, hbreak⟩
    simp [isBlank, hspace, htab]

/-! ## Framed texts -/

/-- A text stands among lines of spaces, which its meaning does not depend on. -/
structure Framed (lead body tail : List Char) : Prop where
  before : ∀ c ∈ lead, isOuter c = true
  behind : ∀ c ∈ tail, isOuter c = true
  /-- Behind lines in front of it the text begins a line of its own, and has no mark. -/
  starts : lead = [] ∨ (∃ front c, lead = front ++ [c] ∧ endsLine c = true) ∧
    ∃ c rest, body = c :: rest ∧ c ≠ byteOrderMark ∧ c ≠ '\n'
  /-- The text does not end within a line break. -/
  ends : body.getLast? ≠ some '\r'
  guarded : tail = [] ∨ EndsUnbarred body

namespace Scanner

theorem skipBlanks_append {lead : List Spot} (h : ∀ s ∈ lead, isLayout s.char = true) (r : List Spot) :
    skipBlanks false true false (lead ++ r) = skipBlanks false true false r := by
  induction lead with
  | nil => rfl
  | cons s lead ih =>
    rw [← ih fun t ht => h t (List.mem_cons_of_mem s ht)]
    rcases layout_cases (h s List.mem_cons_self) with hc | hc | hc | hc <;> simp [skipBlanks, hc, isBreak]

/-- White space in front of a text is skipped. -/
theorem run_append {lead : List Spot} (h : ∀ s ∈ lead, isLayout s.char = true) (r : List Spot) (room : Nat) :
    run room { rest := lead ++ r } = run room { rest := r } := by
  cases room with
  | zero => rfl
  | succ room =>
    unfold run
    dsimp only [inFlow]
    rw [show decide (1 < [(none : Option PossibleKey)].length) = false from rfl, skipBlanks_append h r]

end Scanner

section Framing

variable {lead body tail : List Char}

theorem dropByteOrderMark_of_ne (h : a.head? ≠ some byteOrderMark) : dropByteOrderMark a = a := by
  cases a with
  | nil => rfl
  | cons c a => exact if_neg fun he => h (congrArg some he)

theorem endsUnbarred_of_cons (h : EndsUnbarred (c :: a)) (hc : endsLine c = false) : EndsUnbarred a := by
  rcases h with h | ⟨front, d, e, rest, ha, hd, hrest⟩
  · exact .inl fun d hd => h d (List.mem_cons_of_mem c hd)
  · cases front with
    | nil =>
      obtain ⟨rfl, -⟩ := List.cons_eq_cons.1 ha
      rw [hd] at hc
      cases hc
    | cons _ front => exact .inr ⟨front, d, e, rest, (List.cons_eq_cons.1 ha).2, hd, hrest⟩

/-- The mark at the front of a text that nothing precedes is no part of it. -/
theorem Framed.unmarked (h : Framed lead body tail) : Framed lead (dropByteOrderMark body) tail := by
  cases body with
  | nil => exact h
  | cons c rest =>
    by_cases hc : c = byteOrderMark
    · subst hc
      refine ⟨h.before, h.behind, .inl (h.starts.resolve_right ?_), ?_, h.guarded.imp_right fun hguarded => ?_⟩
      · rintro ⟨-, c, rest, hbody, hmark, -⟩
        exact hmark (List.cons_eq_cons.1 hbody).1.symm
      · exact mt getLast?_of_cons h.ends
      · exact endsUnbarred_of_cons hguarded rfl
    · rwa [show dropByteOrderMark (c :: rest) = c :: rest from if_neg hc]

theorem Framed.dropByteOrderMark (h : Framed lead body tail) :
    dropByteOrderMark (lead ++ body ++ tail) = lead ++ Yaml.dropByteOrderMark body ++ tail := by
  rcases h.starts with rfl | ⟨⟨front, d, rfl, -⟩, c, rest, rfl, hmark, -⟩
  · cases body with
    | nil =>
      refine dropByteOrderMark_of_ne fun he => ?_
      exact ne_byteOrderMark_of_isOuter (h.behind _ (List.mem_of_head? he)) rfl
    | cons c rest =>
      by_cases hc : c = byteOrderMark <;> simp [Yaml.dropByteOrderMark, hc]
  · rw [show Yaml.dropByteOrderMark (c :: rest) = c :: rest from if_neg hmark]
    refine dropByteOrderMark_of_ne fun he => ?_
    cases front with
    | nil => exact ne_byteOrderMark_of_isOuter (h.before d (by simp)) (Option.some.inj he)
    | cons e front => exact ne_byteOrderMark_of_isOuter (h.before e (by simp)) (Option.some.inj he)

theorem Framed.unifyBreaks (h : Framed lead body tail) :
    unifyBreaks (lead ++ body ++ tail) =
      Yaml.unifyBreaks lead ++ (Yaml.unifyBreaks body ++ Yaml.unifyBreaks tail) := by
  rw [List.append_assoc, unifyBreaks_append, unifyBreaks_append (.inl h.ends)]
  rcases h.starts with rfl | ⟨-, c, rest, rfl, -, hc⟩
  · exact .inl nofun
  · exact .inr fun he => hc (Option.some.inj he)

theorem head?_unifyBreaks (h : a.head? ≠ some byteOrderMark) :
    (Yaml.unifyBreaks a).head? ≠ some byteOrderMark := by
  unfold Yaml.unifyBreaks
  split
  · exact h
  · simp [byteOrderMark]
  · simp [byteOrderMark]
  · simp [byteOrderMark]
  · exact h

theorem columnBehind_lead (h : Framed lead body tail) : columnBehind 0 (Yaml.unifyBreaks lead) = 0 := by
  rcases h.starts with rfl | ⟨⟨front, c, rfl, hc⟩, -⟩
  · rfl
  · obtain ⟨line, d, hline, hd⟩ := unifyBreaks_line front hc
    rw [hline, columnBehind_line 0 line hd]

/-- The places of a framed text are those of the text alone, in another place. -/
theorem Framed.spots (h : Framed lead body tail) :
    ∃ front k l behind, spots (Yaml.unifyBreaks (lead ++ body ++ tail)) = front ++ behind ∧
      (∀ s ∈ front, isLayout s.char = true) ∧
      Padded k l (tail ≠ []) (Yaml.spots (Yaml.unifyBreaks body)) behind := by
  have hmoved := spotsFrom_moved 0 0 0 (Yaml.unifyBreaks lead).length (lineBehind 0 (Yaml.unifyBreaks lead))
    (Yaml.unifyBreaks body)
  have hall := congrArg Yaml.spots h.unifyBreaks
  rw [Nat.zero_add (lineBehind 0 _)] at hmoved
  unfold Yaml.spots at hall
  rw [spotsFrom_append, columnBehind_lead h, spotsFrom_append, hmoved] at hall
  refine ⟨_, _, _, _, hall, ?_, padded_moved ?_ ?_⟩
  · exact fun s hs => isLayout_of_mem_unifyBreaks h.before (char_of_mem_spotsFrom hs)
  · intro s hs
    rcases h.starts with rfl | ⟨-, c, rest, rfl, hmark, -⟩
    · exact .inl rfl
    · exact .inr (ne_byteOrderMark_of_mem_spots (head?_unifyBreaks (by simpa using hmark)) hs)
  · intro s hs
    have hmem := char_of_mem_spotsFrom hs
    refine ⟨?_, isLayout_of_mem_unifyBreaks h.behind hmem⟩
    rintro rfl
    cases hmem

theorem isAllowed_framed (h : Framed lead body tail) :
    (lead ++ body ++ tail).all isAllowed = body.all isAllowed := by
  have hlead : lead.all isAllowed = true := List.all_eq_true.2 fun c hc => isAllowed_of_isOuter (h.before c hc)
  have htail : tail.all isAllowed = true := List.all_eq_true.2 fun c hc => isAllowed_of_isOuter (h.behind c hc)
  rw [List.all_append, List.all_append, hlead, htail, Bool.true_and, Bool.and_true]

/-- A framed text holds the tokens of the text alone. -/
theorem tokens?_framed (h : Framed lead body tail) : tokens? (lead ++ body ++ tail) = tokens? body := by
  unfold tokens?
  dsimp only
  rw [isAllowed_framed h, h.dropByteOrderMark]
  split
  · rfl
  · obtain ⟨front, k, l, behind, hspots, hfront, hpadded⟩ := h.unmarked.spots
    rw [hspots, Scanner.run_append hfront]
    have halike : Scanner.Alike k l (tail ≠ []) { rest := Yaml.spots (Yaml.unifyBreaks (dropByteOrderMark body)) }
        { rest := behind } := ⟨hpadded, .inl rfl, rfl⟩
    refine Scanner.run_alike halike (fun htail => ?_) (Nat.lt_succ_self _) ?_
    · exact guarded_spots (h.unmarked.guarded.resolve_left htail)
    · rw [List.length_append]
      dsimp only
      omega

theorem read?_framed (h : Framed lead body tail) : read? (lead ++ body ++ tail) = read? body := by
  unfold read? Document.read?
  rw [tokens?_framed h]

end Framing

end ChartOperator.Yaml
