import ChartOperator.Json.Reader
import ChartOperator.Json.Writer
import ChartOperator.Proofs.Chart.Values
import Mathlib.Data.List.TakeWhile

set_option autoImplicit false

/-!
# Written values

The compact text of a value reads as that value (`Json.read?_text`), if its numbers are integers of 64 bits, its
objects are maps, and it is not nested too deeply (`Json.Writable`). The two steps of reading are followed one after
the other: a text is cut into the tokens of its value, and these are put together again.
-/

namespace ChartOperator

/-! ## Integers -/

namespace Text

/-- A number has no leading zero. -/
theorem head?_digits {n : Nat} (h : 0 < n) : (digits n).head? ≠ some '0' := by
  induction n using Nat.strongRecOn with
  | _ n ih =>
    rw [digits]
    by_cases hlt : n < 10
    · rw [Nat.toDigits_of_lt_base hlt]
      have hdigit : ∀ d < 10, 0 < d → [Nat.digitChar d].head? ≠ some '0' := by decide
      exact hdigit n hlt h
    · rw [Nat.toDigits_of_base_le (by omega) (by omega), List.head?_append]
      have hrest := ih (n / 10) (by omega) (by omega)
      rw [digits] at hrest
      cases hhead : (Nat.toDigits 10 (n / 10)).head? with
      | none => exact absurd (List.head?_eq_none_iff.1 hhead) Nat.toDigits_ne_nil
      | some c => rwa [hhead] at hrest

end Text

namespace Number

theorem parts?_digits (negative : Bool) (n : Nat) :
    parts? ((if negative then ['-'] else []) ++ Text.digits n) = some ⟨negative, Text.digits n, none, none⟩ := by
  have hall : ∀ c ∈ Text.digits n, Text.isDigit c = true := fun _ => Text.isDigit_of_mem_digits
  have hwhole : (Text.digits n).takeWhile Text.isDigit = Text.digits n :=
    List.takeWhile_eq_self_iff.2 hall
  have hrest : (Text.digits n).dropWhile Text.isDigit = [] :=
    List.dropWhile_eq_nil_iff.2 hall
  have hempty : (Text.digits n).isEmpty = false := List.isEmpty_eq_false_iff.2 Nat.toDigits_ne_nil
  have hzero : ((Text.digits n).head? == some '0' && decide (1 < (Text.digits n).length)) = false := by
    rcases Nat.eq_zero_or_pos n with rfl | hpos
    · rfl
    · simp [Text.head?_digits hpos]
  cases negative with
  | true => simp [parts?, hwhole, hrest, hempty, hzero, tail?]
  | false =>
    cases hds : Text.digits n with
    | nil => rw [hds] at hempty; cases hempty
    | cons d ds =>
      have hd : d ≠ '-' := by
        rintro rfl
        have hdigit := hall '-' (by rw [hds]; exact List.mem_cons_self)
        revert hdigit
        decide
      rw [hds] at hwhole hrest hempty hzero
      have hlone : d = '0' → ds = [] := by simpa using hzero
      simpa [parts?, hd, hwhole, hrest, hempty, tail?] using hlone

/-- An integer of 64 bits, signed or not, is read as it is written. -/
theorem read?_text {n : Int} (hlo : -(twoTo 63 : Int) ≤ n) (hhi : n < twoTo 64) :
    read? (text (.int n)).toList = some (.int n) := by
  cases n with
  | ofNat m =>
    have hparts := parts?_digits false m
    have hm : m < wordLimit := Int.ofNat_lt.1 hhi
    simp only [Bool.false_eq_true, if_false, List.nil_append] at hparts
    simp [text, Text.signedDecimal, Text.decimal, read?, hparts, Text.ofDigits_digits, hm]
  | negSucc m =>
    have hparts := parts?_digits true (m + 1)
    have hm : m + 1 ≤ twoTo 63 := by omega
    simp only [if_true, List.cons_append, List.nil_append] at hparts
    simp [text, Text.signedDecimal, Text.decimal, read?, hparts, Text.ofDigits_digits, hm]
    omega

end Number

namespace Json

/-! ## What can be written and read -/

/-- The value can be written and read again: its integers have 64 bits, signed or not, it has no doubles, its objects
are maps, and arrays and objects are nested in it as deeply as there is room. -/
def Writable : (room : Nat) → Json → Prop
  | _, null => True
  | _, bool _ => True
  | _, number (.int n) => -(twoTo 63 : Int) ≤ n ∧ n < twoTo 64
  | _, number (.real _) => False
  | _, string _ => True
  | 0, array _ => False
  | 0, fields _ => False
  | room + 1, array items => ∀ j ∈ items, Writable room j
  | room + 1, fields entries => Values.Ascending entries ∧ ∀ e ∈ entries, Writable room e.2

theorem writable_int {room : Nat} {n : Int} :
    Writable room (number (.int n)) ↔ -(twoTo 63 : Int) ≤ n ∧ n < twoTo 64 := by
  cases room <;> rfl

theorem writable_string {room : Nat} (s : String) : Writable room (string s) := by
  cases room <;> trivial

mutual
/-- The tokens of a value. -/
def tokens : Json → List Token
  | null => [.scalar null]
  | bool b => [.scalar (bool b)]
  | number n => [.scalar (number n)]
  | string s => [.text s]
  | array items => .openArray :: itemsTokens items ++ [.closeArray]
  | fields entries => .openObject :: fieldsTokens entries ++ [.closeObject]
/-- The tokens of items, with commas between them. -/
def itemsTokens : List Json → List Token
  | [] => []
  | [j] => tokens j
  | j :: k :: js => tokens j ++ .comma :: itemsTokens (k :: js)
/-- The tokens of fields, with commas between them. -/
def fieldsTokens : List (String × Json) → List Token
  | [] => []
  | [(n, j)] => .text n :: .colon :: tokens j
  | (n, j) :: e :: es => .text n :: .colon :: tokens j ++ .comma :: fieldsTokens (e :: es)
end

/-! ## Cutting a text into tokens -/

/-- The text does not go on with a character of a number or a word. -/
def Ends (rest : List Char) : Prop := ∀ c cs, rest = c :: cs → isNumberChar c = false ∧ isWordChar c = false

theorem ends_nil : Ends [] := nofun

theorem ends_cons {c : Char} {cs : List Char} (hnumber : isNumberChar c = false) (hword : isWordChar c = false) :
    Ends (c :: cs) := by
  rintro _ _ ⟨⟩
  exact ⟨hnumber, hword⟩

variable {done : List Token} {rest : List Char} {j : Json} {room : Nat}

theorem hexValue?_hexDigit : ∀ n < 16, hexValue? (Text.hexDigit n) = some n := by decide

/-- A character of a string is read as it is written. -/
theorem scan_stringChar (c : Char) (read : List Char) :
    scan done (.inString read) (stringChar c ++ rest) = scan done (.inString (c :: read)) rest := by
  unfold stringChar
  repeat' split
  all_goals first
    | (next h => subst h; rfl)
    | skip
  · next hcontrol =>
    have hhigh := hexValue?_hexDigit (c.toNat / 16) (by omega)
    have hlow := hexValue?_hexDigit (c.toNat % 16) (by omega)
    have hvalue : 16 * (c.toNat / 16) + c.toNat % 16 = c.toNat := by omega
    have hmode : codePointMode? read c.toNat none = some (.inString (c :: read)) := by
      rw [codePointMode?, if_neg (by omega), if_neg (by omega), Char.ofNat_toNat]
    have hzero : hexValue? '0' = some 0 := by decide
    simp [scan, hzero, hhigh, hlow, hvalue, hmode]
  · next hquote hslash _ _ _ _ _ hcontrol =>
    simp [scan, hquote, hslash, hcontrol]

theorem scan_chars (cs read : List Char) :
    scan done (.inString read) (cs.flatMap stringChar ++ '"' :: rest) =
      scan (.text (String.ofList (read.reverse ++ cs)) :: done) .between rest := by
  induction cs generalizing read with
  | nil => simp [scan]
  | cons c cs ih => rw [List.flatMap_cons, List.append_assoc, scan_stringChar, ih]; simp

theorem scan_stringText (s : String) :
    scan done .between ((stringText s).toList ++ rest) = scan (.text s :: done) .between rest := by
  have hchars : scan done (.inString []) (s.toList.flatMap stringChar ++ '"' :: rest) =
      scan (.text s :: done) .between rest := by
    simpa using scan_chars s.toList []
  rw [← hchars, stringText, String.toList_ofList]
  simp only [List.cons_append, List.append_assoc, List.nil_append]
  rfl

/-- In a mode that collects characters of a kind, all of them are collected. -/
theorem scan_collect {mode : List Char → Mode} {p : Char → Bool}
    (hmode : ∀ read c cs, p c = true → scan done (mode read) (c :: cs) = scan done (mode (c :: read)) cs)
    {cs read : List Char} (hchars : ∀ c ∈ cs, p c = true) :
    scan done (mode read) (cs ++ rest) = scan done (mode (cs.reverse ++ read)) rest := by
  induction cs generalizing read with
  | nil => rfl
  | cons c cs ih =>
    obtain ⟨hc, hcs⟩ := List.forall_mem_cons.1 hchars
    rw [List.cons_append, hmode _ _ _ hc, ih hcs]
    simp

/-- The characters of a number are read up to its end. -/
theorem scan_inNumber {n : Number} {cs read : List Char} (hchars : ∀ c ∈ cs, isNumberChar c = true)
    (hn : Number.read? (read.reverse ++ cs) = some n) (hrest : Ends rest) :
    scan done (.inNumber read) (cs ++ rest) = scan (.scalar (number n) :: done) .between rest := by
  rw [scan_collect (fun read c cs hc => by rw [scan, if_pos hc]) hchars]
  cases rest with
  | nil => simp [scan, hn]
  | cons c cs => simp [scan, hn, (hrest c cs rfl).1]

/-- The characters of a word are read up to its end. -/
theorem scan_inWord {v : Json} {cs read : List Char} (hchars : ∀ c ∈ cs, isWordChar c = true)
    (hv : wordValue? (read.reverse ++ cs) = some v) (hrest : Ends rest) :
    scan done (.inWord read) (cs ++ rest) = scan (.scalar v :: done) .between rest := by
  rw [scan_collect (fun read c cs hc => by rw [scan, if_pos hc]) hchars]
  cases rest with
  | nil => simp [scan, hv]
  | cons c cs => simp [scan, hv, (hrest c cs rfl).2]

theorem startToken_digit {c : Char} (h : Text.isDigit c = true) : startToken c = some (.inNumber [c], none) := by
  have hne : ∀ d, Text.isDigit d = false → c ≠ d := by
    rintro d hd rfl
    rw [h] at hd
    cases hd
  simp [startToken, isJsonBlank, h, hne ' ' (by decide), hne '\n' (by decide), hne '\t' (by decide),
    hne '\r' (by decide), hne '\x7b' (by decide), hne '\x7d' (by decide), hne '[' (by decide), hne ']' (by decide),
    hne ',' (by decide), hne ':' (by decide), hne '"' (by decide)]

/-- The first character of an integer starts a number, and the others belong to it. -/
theorem signedDecimal_eq_cons (n : Int) : ∃ c cs, (Text.signedDecimal n).toList = c :: cs ∧
    startToken c = some (.inNumber [c], none) ∧ ∀ d ∈ cs, isNumberChar d = true := by
  have hnumber : ∀ {m : Nat} {d : Char}, d ∈ Text.digits m → isNumberChar d = true := by
    intro m d hd
    simp [isNumberChar, Text.isDigit_of_mem_digits hd]
  cases n with
  | ofNat m =>
    cases hds : Text.digits m with
    | nil => exact absurd hds Nat.toDigits_ne_nil
    | cons d ds =>
      refine ⟨d, ds, by simp [Text.signedDecimal, Text.decimal, hds], startToken_digit ?_, fun e he => ?_⟩
      · exact Text.isDigit_of_mem_digits (n := m) (by rw [hds]; exact List.mem_cons_self)
      · exact hnumber (m := m) (by rw [hds]; exact List.mem_cons_of_mem _ he)
  | negSucc m =>
    exact ⟨'-', Text.digits (m + 1), by simp [Text.signedDecimal, Text.decimal], rfl, fun _ => hnumber⟩

/-- The text of the value is cut into its tokens. -/
def Scans (j : Json) : Prop :=
  ∀ done rest, Ends rest → scan done .between ((text j).toList ++ rest) = scan ((tokens j).reverse ++ done) .between rest

theorem scans_int {n : Int} (hlo : -(twoTo 63 : Int) ≤ n) (hhi : n < twoTo 64) : Scans (number (.int n)) := by
  intro done rest hrest
  have hread := Number.read?_text hlo hhi
  obtain ⟨c, cs, htext, hstart, hchars⟩ := signedDecimal_eq_cons n
  rw [Number.text, htext] at hread
  rw [text, Number.text, htext, List.cons_append, scan, hstart]
  exact scan_inNumber hchars hread hrest

/-- One of the three words. -/
theorem scans_word {v : Json} (c : Char) (cs : List Char) (htext : (text v).toList = c :: cs)
    (htokens : tokens v = [.scalar v]) (hstart : startToken c = some (.inWord [c], none))
    (hchars : ∀ d ∈ cs, isWordChar d = true) (hv : wordValue? (c :: cs) = some v) : Scans v := by
  intro done rest hrest
  rw [htext, htokens, List.cons_append, scan, hstart]
  exact scan_inWord hchars hv hrest

theorem scans_null : Scans null :=
  scans_word 'n' ['u', 'l', 'l'] rfl rfl rfl (by simp [isWordChar]) rfl

theorem scans_bool (b : Bool) : Scans (bool b) := by
  cases b with
  | true => exact scans_word 't' ['r', 'u', 'e'] rfl rfl rfl (by simp [isWordChar]) rfl
  | false => exact scans_word 'f' ['a', 'l', 's', 'e'] rfl rfl rfl (by simp [isWordChar]) rfl

/-- A mark between values is a token of its own. -/
theorem scan_mark {c : Char} {t : Token} (h : startToken c = some (.between, some t)) :
    scan done .between (c :: rest) = scan (t :: done) .between rest := by
  rw [scan, h]
  rfl

theorem ends_comma (cs : List Char) : Ends (',' :: cs) := ends_cons (by decide) (by decide)

theorem scan_items {items : List Json} (h : ∀ j ∈ items, Scans j) (hrest : Ends rest) :
    scan done .between ((itemsText items).toList ++ rest) =
      scan ((itemsTokens items).reverse ++ done) .between rest := by
  induction items generalizing done with
  | nil => simp [itemsText, itemsTokens]
  | cons j js ih =>
    obtain ⟨hj, hjs⟩ := List.forall_mem_cons.1 h
    cases js with
    | nil => exact hj done rest hrest
    | cons k js =>
      have htext : (itemsText (j :: k :: js)).toList ++ rest =
          (text j).toList ++ ',' :: ((itemsText (k :: js)).toList ++ rest) := by simp [itemsText]
      rw [htext, hj done _ (ends_comma _), scan_mark (c := ',') rfl, ih hjs]
      simp [itemsTokens]

theorem scan_fields {entries : List (String × Json)} (h : ∀ e ∈ entries, Scans e.2) (hrest : Ends rest) :
    scan done .between ((fieldsText entries).toList ++ rest) =
      scan ((fieldsTokens entries).reverse ++ done) .between rest := by
  induction entries generalizing done with
  | nil => simp [fieldsText, fieldsTokens]
  | cons e es ih =>
    obtain ⟨n, j⟩ := e
    obtain ⟨hj, hes⟩ := List.forall_mem_cons.1 h
    cases es with
    | nil =>
      have htext : (fieldsText [(n, j)]).toList ++ rest = (stringText n).toList ++ ':' :: ((text j).toList ++ rest) := by
        simp [fieldsText]
      rw [htext, scan_stringText, scan_mark (c := ':') rfl, hj _ rest hrest]
      simp [fieldsTokens]
    | cons e es =>
      have htext : (fieldsText ((n, j) :: e :: es)).toList ++ rest =
          (stringText n).toList ++ ':' :: ((text j).toList ++ ',' :: ((fieldsText (e :: es)).toList ++ rest)) := by
        simp [fieldsText]
      rw [htext, scan_stringText, scan_mark (c := ':') rfl, hj _ _ (ends_comma _), scan_mark (c := ',') rfl, ih hes]
      simp [fieldsTokens]

theorem scans_array {items : List Json} (h : ∀ j ∈ items, Scans j) : Scans (array items) := by
  intro done rest _
  have htext : (text (array items)).toList ++ rest = '[' :: ((itemsText items).toList ++ ']' :: rest) := by
    simp [text]
  have hend : Ends (']' :: rest) := ends_cons (by decide) (by decide)
  rw [htext, scan_mark (c := '[') rfl, scan_items h hend, scan_mark (c := ']') rfl]
  simp [tokens]

theorem scans_fields {entries : List (String × Json)} (h : ∀ e ∈ entries, Scans e.2) : Scans (fields entries) := by
  intro done rest _
  have htext : (text (fields entries)).toList ++ rest =
      '\x7b' :: ((fieldsText entries).toList ++ '\x7d' :: rest) := by
    simp [text]
  have hend : Ends ('\x7d' :: rest) := ends_cons (by decide) (by decide)
  rw [htext, scan_mark (c := '\x7b') rfl, scan_fields h hend, scan_mark (c := '\x7d') rfl]
  simp [tokens]

/-- The text of a value that can be written is cut into its tokens. -/
theorem scans_of_writable : ∀ (room : Nat) (j : Json), Writable room j → Scans j
  | _, null, _ => scans_null
  | _, bool b, _ => scans_bool b
  | _, number (.int _), h => scans_int (writable_int.1 h).1 (writable_int.1 h).2
  | 0, number (.real _), h => h.elim
  | _ + 1, number (.real _), h => h.elim
  | _, string s, _ => fun _ _ _ => scan_stringText s
  | room + 1, array _, h => scans_array fun j hj => scans_of_writable room j (h j hj)
  | room + 1, fields _, h => scans_fields fun e he => scans_of_writable room e.2 (h.2 e he)

/-! ## Putting tokens together -/

theorem put_expected (b : Builder) (expected : Expected) (v : Json) :
    ({ b with expected := expected } : Builder).put v = b.put v := by
  obtain ⟨frames, -, whole⟩ := b
  rcases frames with _ | ⟨_ | ⟨read, _ | name⟩, frames⟩ <;> rfl

/-- Where a value is expected and there is room for it, its tokens are put together to it. -/
def Builds (room : Nat) (j : Json) : Prop :=
  ∀ frames expected, expected = .value ∨ expected = .valueOrEnd → frames.length + room < depthLimit →
    (tokens j).foldlM Builder.take ⟨frames, expected, none⟩ = (⟨frames, expected, none⟩ : Builder).put j

theorem builds_scalar {v : Json} (h : tokens v = [.scalar v]) : Builds room v := by
  intro frames expected hexpected _
  rw [h]
  simp [Builder.take, hexpected]

theorem builds_string (s : String) : Builds room (string s) := by
  intro frames expected hexpected _
  simp [tokens, Builder.take, hexpected]

theorem take_open {frames : List Frame} {expected : Expected} (hexpected : expected = .value ∨ expected = .valueOrEnd)
    (hroom : frames.length + 1 < depthLimit) :
    (⟨frames, expected, none⟩ : Builder).take .openArray = some ⟨.items [] :: frames, .valueOrEnd, none⟩ ∧
      (⟨frames, expected, none⟩ : Builder).take .openObject = some ⟨.members [] none :: frames, .nameOrEnd, none⟩ := by
  have hlimit : ¬ depthLimit ≤ frames.length + 1 := Nat.not_le.2 hroom
  simp [Builder.take, Builder.enter, hexpected, hlimit]

theorem build_items {items : List Json} (h : ∀ j ∈ items, Builds room j) (hne : items ≠ []) :
    ∀ frames read expected, expected = .value ∨ expected = .valueOrEnd → frames.length + 1 + room < depthLimit →
      (itemsTokens items).foldlM Builder.take ⟨.items read :: frames, expected, none⟩ =
        some ⟨.items (items.reverse ++ read) :: frames, .commaOrEnd, none⟩ := by
  induction items with
  | nil => exact absurd rfl hne
  | cons j js ih =>
    intro frames read expected hexpected hroom
    obtain ⟨hj, hjs⟩ := List.forall_mem_cons.1 h
    have hfirst := hj (.items read :: frames) expected hexpected (by simpa using hroom)
    cases js with
    | nil =>
      rw [itemsTokens, hfirst]
      rfl
    | cons k js =>
      have hrest := ih hjs (by simp) frames (j :: read) .value (.inl rfl) hroom
      rw [itemsTokens, List.foldlM_append, hfirst]
      simpa [Builder.put, Builder.take] using hrest

theorem build_fields {entries : List (String × Json)} (h : ∀ e ∈ entries, Builds room e.2) (hne : entries ≠ []) :
    ∀ frames read expected, expected = .name ∨ expected = .nameOrEnd → frames.length + 1 + room < depthLimit →
      (fieldsTokens entries).foldlM Builder.take ⟨.members read none :: frames, expected, none⟩ =
        some ⟨.members (entries.reverse ++ read) none :: frames, .commaOrEnd, none⟩ := by
  induction entries with
  | nil => exact absurd rfl hne
  | cons e es ih =>
    intro frames read expected hexpected hroom
    obtain ⟨n, j⟩ := e
    obtain ⟨hj, hes⟩ := List.forall_mem_cons.1 h
    have hvalue := hj (.members read (some n) :: frames) .value (.inl rfl) (by simpa using hroom)
    have hname : (⟨.members read none :: frames, expected, none⟩ : Builder).take (.text n) =
        some ⟨.members read (some n) :: frames, .colon, none⟩ := by
      rcases hexpected with rfl | rfl <;> rfl
    have hcolon : (⟨.members read (some n) :: frames, .colon, none⟩ : Builder).take .colon =
        some ⟨.members read (some n) :: frames, .value, none⟩ := rfl
    cases es with
    | nil =>
      rw [fieldsTokens, List.foldlM_cons, hname, Option.bind_eq_bind, Option.bind_some, List.foldlM_cons, hcolon,
        Option.bind_eq_bind, Option.bind_some, hvalue]
      rfl
    | cons e es =>
      have hrest := ih hes (by simp) frames ((n, j) :: read) .name (.inl rfl) hroom
      have htokens : fieldsTokens ((n, j) :: e :: es) =
          .text n :: .colon :: (tokens j ++ .comma :: fieldsTokens (e :: es)) := by simp [fieldsTokens]
      rw [htokens, List.foldlM_cons, hname, Option.bind_eq_bind, Option.bind_some, List.foldlM_cons, hcolon,
        Option.bind_eq_bind, Option.bind_some, List.foldlM_append, hvalue]
      simpa [Builder.put, Builder.take] using hrest

theorem builds_array {items : List Json} (h : ∀ j ∈ items, Builds room j) : Builds (room + 1) (array items) := by
  intro frames expected hexpected hroom
  rw [tokens, List.cons_append, List.foldlM_cons, (take_open hexpected (by omega)).1, Option.bind_eq_bind,
    Option.bind_some, List.foldlM_append]
  by_cases hne : items = []
  · subst hne
    simpa [itemsTokens, Builder.take] using put_expected ⟨frames, expected, none⟩ .valueOrEnd (array [])
  · rw [build_items h hne frames [] .valueOrEnd (.inr rfl) (by omega)]
    simpa [Builder.take] using put_expected ⟨frames, expected, none⟩ .commaOrEnd (array items)

theorem builds_fields {entries : List (String × Json)} (h : ∀ e ∈ entries, Builds room e.2) :
    Builds (room + 1) (fields entries) := by
  intro frames expected hexpected hroom
  rw [tokens, List.cons_append, List.foldlM_cons, (take_open hexpected (by omega)).2, Option.bind_eq_bind,
    Option.bind_some, List.foldlM_append]
  by_cases hne : entries = []
  · subst hne
    simpa [fieldsTokens, Builder.take] using put_expected ⟨frames, expected, none⟩ .nameOrEnd (fields [])
  · rw [build_fields h hne frames [] .nameOrEnd (.inr rfl) (by omega)]
    simpa [Builder.take] using put_expected ⟨frames, expected, none⟩ .commaOrEnd (fields entries)

/-- The tokens of a value that can be written are put together to it. -/
theorem builds_of_writable : ∀ (room : Nat) (j : Json), Writable room j → Builds room j
  | _, null, _ => builds_scalar rfl
  | _, bool _, _ => builds_scalar rfl
  | _, number _, _ => builds_scalar rfl
  | _, string s, _ => builds_string s
  | room + 1, array _, h => builds_array fun j hj => builds_of_writable room j (h j hj)
  | room + 1, fields _, h => builds_fields fun e he => builds_of_writable room e.2 (h.2 e he)

/-! ## Objects that are maps -/

/-- A field behind all others is set at the end. -/
theorem setField_of_lt {name : String} {value : Json} {entries : List (String × Json)}
    (h : ∀ e ∈ entries, e.1 < name) : setField name value entries = entries ++ [(name, value)] := by
  induction entries with
  | nil => rfl
  | cons e es ih =>
    obtain ⟨he, hes⟩ := List.forall_mem_cons.1 h
    have hne : e.1 ≠ name := fun heq => Std.lt_irrefl (heq ▸ he)
    have hlt : ¬ name < e.1 := Std.not_lt.2 (Std.le_of_lt he)
    rw [setField, if_neg hne, if_neg hlt, ih hes, List.cons_append]

/-- A map is the object of its fields. -/
theorem object_of_ascending {entries : List (String × Json)} (h : Values.Ascending entries) :
    object entries = fields entries := by
  have hset : ∀ (later before : List (String × Json)), Values.Ascending (before ++ later) →
      later.foldl (fun acc e => setField e.1 e.2 acc) before = before ++ later := by
    intro later
    induction later with
    | nil => simp
    | cons e later ih =>
      intro before hall
      have hlt : ∀ d ∈ before, d.1 < e.1 := fun d hd =>
        (List.pairwise_append.1 hall).2.2 d hd e List.mem_cons_self
      rw [List.foldl_cons, setField_of_lt hlt, ih (before ++ [e]) (by simpa using hall)]
      simp
  rw [object, hset entries [] h, List.nil_append]

theorem normalItems_eq {items : List Json} (h : ∀ j ∈ items, normal j = j) : normalItems items = items := by
  induction items with
  | nil => rfl
  | cons j js ih =>
    obtain ⟨hj, hjs⟩ := List.forall_mem_cons.1 h
    rw [normalItems, hj, ih hjs]

theorem normalFields_eq {entries : List (String × Json)} (h : ∀ e ∈ entries, normal e.2 = e.2) :
    normalFields entries = entries := by
  induction entries with
  | nil => rfl
  | cons e es ih =>
    obtain ⟨he, hes⟩ := List.forall_mem_cons.1 h
    rw [normalFields, he, ih hes]

/-- The objects of a value that can be written are maps already. -/
theorem normal_of_writable : ∀ (room : Nat) (j : Json), Writable room j → normal j = j
  | _, null, _ | _, bool _, _ | _, number _, _ | _, string _, _ => rfl
  | room + 1, array _, h => congrArg array (normalItems_eq fun j hj => normal_of_writable room j (h j hj))
  | room + 1, fields _, h => by
    rw [normal, normalFields_eq fun e he => normal_of_writable room e.2 (h.2 e he), object_of_ascending h.1]

/-- The text of a value that can be written holds the fields of its objects as they stand in it. -/
theorem readWritten?_text (h : Writable room j) (hroom : room < depthLimit) : readWritten? (text j).toList = some j := by
  have hscan := scans_of_writable room j h [] [] ends_nil
  rw [List.append_nil, List.append_nil] at hscan
  have htokens : scan [] .between (text j).toList = some (tokens j) := by simp [hscan, scan]
  have hbuild := builds_of_writable room j h [] .value (.inl rfl) (by simpa using hroom)
  simp [readWritten?, htokens, hbuild, Builder.put]

/-- A value that can be written reads back from its text. -/
theorem read?_text (h : Writable room j) (hroom : room < depthLimit) : read? (text j).toList = some j := by
  rw [read?, readWritten?_text h hroom, Option.map_some, normal_of_writable room j h]

end Json

end ChartOperator
