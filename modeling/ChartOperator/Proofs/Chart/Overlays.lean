import ChartOperator.Chart.Helm
import ChartOperator.Proofs.Yaml.Framing

set_option autoImplicit false

/-!
# What an overlay says

An overlay is piped to helm as it is, and read for a comparison without the white space around it. The two
agree if that white space means nothing in YAML (`Values.faithful_of_flush`). It may mean something: the
indentation of the first line (`Values.not_faithful_of_indented`), and the line breaks behind a block scalar
(`Values.not_faithful_of_literal`).
-/

namespace ChartOperator

/-! ## White space around a text -/

namespace Text

/-- The blanks in front of a text. -/
def lead (s : String) : List Char := s.toList.takeWhile isBlank

/-- The blanks behind a text. -/
def tail (s : String) : List Char := ((trimStart s.toList).reverse.takeWhile isBlank).reverse

theorem toList_trim (s : String) : (trim s).toList = trimEnd (trimStart s.toList) := String.toList_ofList

theorem trimEnd_append (cs : List Char) : trimEnd cs ++ (cs.reverse.takeWhile isBlank).reverse = cs := by
  rw [trimEnd, ← List.reverse_append, List.takeWhile_append_dropWhile, List.reverse_reverse]

/-- A text is what trimming leaves of it, and the blanks around that. -/
theorem toList_eq (s : String) : s.toList = lead s ++ (trim s).toList ++ tail s := by
  rw [toList_trim, List.append_assoc, tail, trimEnd_append, lead, trimStart, List.takeWhile_append_dropWhile]

/-- What trimming leaves does not begin with a blank. -/
theorem head?_trim {s : String} {c : Char} (h : (trim s).toList.head? = some c) : isBlank c = false := by
  have hstart : (trimStart s.toList).head? = some c := by
    rw [← trimEnd_append (trimStart s.toList), List.head?_append, ← toList_trim, h]
    rfl
  have hblank := List.head?_dropWhile_not isBlank s.toList
  rw [← trimStart, hstart] at hblank
  simpa using hblank

/-- What trimming leaves does not end with a blank. -/
theorem getLast?_trim {s : String} {c : Char} (h : (trim s).toList.getLast? = some c) : isBlank c = false := by
  have hblank := List.head?_dropWhile_not isBlank (trimStart s.toList).reverse
  rw [toList_trim, trimEnd, List.getLast?_reverse] at h
  rw [h] at hblank
  simpa using hblank

theorem trim_ne_nil {s : String} (h : isBlankText s = false) : (trim s).toList ≠ [] := by
  intro hnil
  have hall : isBlankText s = true := by
    rw [isBlankText, toList_eq, hnil, List.append_nil, List.all_append, lead, tail, List.all_reverse,
      List.all_takeWhile, List.all_takeWhile]
    rfl
  rw [h] at hall
  cases hall

end Text

namespace Values

/-- The white space around an overlay is lines of spaces. It neither indents the first line of the overlay nor
stands in front of a mark, and where it stands behind the overlay, that does not end with a block scalar. -/
structure Flush (overlay : String) : Prop where
  before : ∀ c ∈ Text.lead overlay, Yaml.isOuter c = true
  behind : ∀ c ∈ Text.tail overlay, Yaml.isOuter c = true
  starts : Text.lead overlay = [] ∨ (∃ front c, Text.lead overlay = front ++ [c] ∧ Yaml.endsLine c = true) ∧
    (Text.trim overlay).toList.head? ≠ some Yaml.byteOrderMark
  guarded : Text.tail overlay = [] ∨ Yaml.EndsUnbarred (Text.trim overlay).toList

/-- The values of an overlay are those that it names as it stands: the mapping that it is as YAML, none if it
is null, and an error if it is anything else. It is what helm is given. -/
structure Faithful (overlay : String) : Prop where
  mapping : ∀ vs, Yaml.read? overlay.toList = some (.fields vs) → ofOverlay (some overlay) = .ok vs
  null : Yaml.read? overlay.toList = some .null → ofOverlay (some overlay) = .ok []
  other : (∀ vs, Yaml.read? overlay.toList ≠ some (.fields vs)) → Yaml.read? overlay.toList ≠ some .null →
    ∃ e, ofOverlay (some overlay) = .error e
  piped : ∀ spec : ChartSpec, spec.valuesOverlay = some overlay →
    (Helm.installOrUpgrade spec).input = some overlay

variable {overlay : String}

theorem framed_of_flush (h : Flush overlay) (hblank : Text.isBlankText overlay = false) :
    Yaml.Framed (Text.lead overlay) (Text.trim overlay).toList (Text.tail overlay) where
  before := h.before
  behind := h.behind
  starts := by
    refine h.starts.imp_right fun ⟨hline, hmark⟩ => ⟨hline, ?_⟩
    cases hbody : (Text.trim overlay).toList with
    | nil => exact (Text.trim_ne_nil hblank hbody).elim
    | cons c rest =>
      rw [hbody] at hmark
      refine ⟨c, rest, rfl, fun he => hmark (congrArg some he), fun he => ?_⟩
      have hfirst := Text.head?_trim (congrArg List.head? hbody)
      rw [he] at hfirst
      cases hfirst
  ends hlast := nomatch Text.getLast?_trim hlast
  guarded := h.guarded

/-- What is read of an overlay is what its text says. -/
theorem read?_trim (h : Flush overlay) (hblank : Text.isBlankText overlay = false) :
    Yaml.read? (Text.trim overlay).toList = Yaml.read? overlay.toList := by
  rw [Text.toList_eq overlay]
  exact (Yaml.read?_framed (framed_of_flush h hblank)).symm

theorem ofOverlay_of_not_blank (hblank : Text.isBlankText overlay = false) :
    ofOverlay (some overlay) =
      match Yaml.read? (Text.trim overlay).toList with
      | none => .error (.yamlParse "the values overlay")
      | some j => ofJson j := by
  have hempty : ¬ (Text.trim overlay).isEmpty = true := fun h =>
    Text.trim_ne_nil hblank (by rw [String.isEmpty_iff.1 h]; rfl)
  unfold ofOverlay
  dsimp only
  split
  · contradiction
  · cases Yaml.read? (Text.trim overlay).toList <;> rfl

/-- An overlay names the values that its text names, if the white space around it means nothing. -/
theorem faithful_of_flush (h : Flush overlay) (hblank : Text.isBlankText overlay = false) : Faithful overlay := by
  have hread := ofOverlay_of_not_blank hblank
  rw [read?_trim h hblank] at hread
  refine ⟨fun vs hvs => ?_, fun hnull => ?_, fun hmapping hnull => ?_, fun spec hspec => ?_⟩
  · rw [hread, hvs]
    rfl
  · rw [hread, hnull]
    rfl
  · rw [hread]
    cases hj : Yaml.read? overlay.toList with
    | none => exact ⟨_, rfl⟩
    | some j =>
      cases j with
      | null => exact (hnull hj).elim
      | fields vs => exact (hmapping vs hj).elim
      | bool _ | number _ | string _ | array _ => exact ⟨_, rfl⟩
  · rw [Helm.installOrUpgrade, Helm.overlayInput, hspec]
    simp [hblank]

/-- Lines around an overlay, a block scalar within it. -/
theorem faithful_of_flush_lines :
    Flush "\n\nmotd: |\n  hello\nport: 1\n  \n" ∧ Text.isBlankText "\n\nmotd: |\n  hello\nport: 1\n  \n" = false ∧
      ofOverlay (some "\n\nmotd: |\n  hello\nport: 1\n  \n") =
        .ok [("motd", .string "hello\n"), ("port", .number (.int 1))] := by
  have hflush : Flush "\n\nmotd: |\n  hello\nport: 1\n  \n" := by
    refine ⟨List.all_eq_true.1 (by decide), List.all_eq_true.1 (by decide),
      .inr ⟨⟨['\n'], '\n', by decide, rfl⟩, by decide⟩, .inr (.inr ?_)⟩
    exact ⟨"motd: |\n  hello".toList, '\n', 'p', "ort: 1".toList, by decide, rfl, rfl, by decide, by simp⟩
  have htokens : Yaml.tokens? "\n\nmotd: |\n  hello\nport: 1\n  \n".toList =
      some [.mappingStart, .key, .scalar "motd".toList true, .value, .scalar "hello\n".toList false, .key,
        .scalar "port".toList true, .value, .scalar ['1'] true, .blockEnd] := by
    decide
  have hread : Yaml.read? "\n\nmotd: |\n  hello\nport: 1\n  \n".toList =
      some (.fields [("motd", .string "hello\n"), ("port", .number (.int 1))]) := by
    rw [Yaml.read?, Yaml.Document.read?, htokens]
    rfl
  exact ⟨hflush, by decide, (faithful_of_flush hflush (by decide)).mapping _ hread⟩

/-- The indentation of the first line is taken away, so that the lines behind it stand deeper, and no mapping is
read any more. -/
theorem not_faithful_of_indented : ¬ Faithful "  a: 1\n  b: 2\n" := by
  intro h
  have htokens : Yaml.tokens? "  a: 1\n  b: 2\n".toList =
      some [.mappingStart, .key, .scalar ['a'] true, .value, .scalar ['1'] true, .key, .scalar ['b'] true, .value,
        .scalar ['2'] true, .blockEnd] := by
    decide
  have hread : Yaml.read? "  a: 1\n  b: 2\n".toList =
      some (.fields [("a", .number (.int 1)), ("b", .number (.int 2))]) := by
    rw [Yaml.read?, Yaml.Document.read?, htokens]
    rfl
  have htrimmed : Yaml.tokens? (Text.trim "  a: 1\n  b: 2\n").toList = none := by decide
  have hvalues := h.mapping _ hread
  rw [ofOverlay_of_not_blank (by decide), Yaml.read?, Yaml.Document.read?, htrimmed] at hvalues
  cases hvalues

/-- The line break that a block scalar ends with is taken away. -/
theorem not_faithful_of_literal : ¬ Faithful "motd: |\n  hello\n" := by
  intro h
  have htokens : Yaml.tokens? "motd: |\n  hello\n".toList =
      some [.mappingStart, .key, .scalar "motd".toList true, .value, .scalar "hello\n".toList false, .blockEnd] := by
    decide
  have hread : Yaml.read? "motd: |\n  hello\n".toList = some (.fields [("motd", .string "hello\n")]) := by
    rw [Yaml.read?, Yaml.Document.read?, htokens]
    rfl
  have htrimmed : Yaml.tokens? (Text.trim "motd: |\n  hello\n").toList =
      some [.mappingStart, .key, .scalar "motd".toList true, .value, .scalar "hello".toList false, .blockEnd] := by
    decide
  have hshort : Yaml.read? (Text.trim "motd: |\n  hello\n").toList = some (.fields [("motd", .string "hello")]) := by
    rw [Yaml.read?, Yaml.Document.read?, htrimmed]
    rfl
  have hvalues := h.mapping _ hread
  rw [ofOverlay_of_not_blank (by decide), hshort] at hvalues
  have hsame : [("motd", Json.string "hello")] = [("motd", Json.string "hello\n")] := Except.ok.inj hvalues
  simp at hsame

end Values

end ChartOperator
