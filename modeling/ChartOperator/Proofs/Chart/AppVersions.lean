import ChartOperator.Proofs.Chart.Dependencies
import ChartOperator.Proofs.Chart.Overlays
import ChartOperator.Proofs.Chart.References

set_option autoImplicit false

/-!
# The version that a release is deployed in

It is read in two places: where an operation is chosen for the component of the release (`readVersion`), and where
another chart depends on the release (`deployedVersion`). Both pass over leading `v`s. White space around the text
is passed over in the first place alone, so there a release may have a version that it does not have in the other
(`readings_agree_iff`).

A version holds no white space (`Version.isVersionChar_of_ofChars`). So whatever is read for a dependency is read
the same for an operation, and the two readings part only where the text has white space around it.
-/

namespace ChartOperator

namespace Version

variable {part : VersionPart} {cs rest : List Char} {ids : List Identifier} {v : Version}

/-- A character that a version may hold. -/
def isVersionChar (c : Char) : Bool := isIdentifierChar c || c == '.' || c == '+'

theorem isVersionChar_of_isDigit {c : Char} (h : Text.isDigit c = true) : isVersionChar c = true := by
  simp [isVersionChar, isIdentifierChar, h]

theorem not_blank_of_isVersionChar {c : Char} (h : isVersionChar c = true) : Text.isBlank c = false := by
  have hrange : 0x2b ≤ c.toNat ∧ c.toNat ≤ 0x7a := by
    simp only [isVersionChar, isIdentifierChar, Text.isDigit, Bool.or_eq_true, Bool.and_eq_true, decide_eq_true_eq,
      beq_iff_eq, Char.le_def, UInt32.le_iff_toNat_le] at h
    rcases h with ((((h | h) | h) | rfl) | rfl) | rfl
    · exact ⟨le_trans (by decide) h.1, le_trans h.2 (by decide)⟩
    · exact ⟨le_trans (by decide) h.1, le_trans h.2 (by decide)⟩
    · exact ⟨le_trans (by decide) h.1, le_trans h.2 (by decide)⟩
    all_goals decide
  simp only [Text.isBlank, Bool.or_eq_false_iff, Bool.and_eq_false_iff, decide_eq_false_iff_not, beq_eq_false_iff_ne]
  omega

/-- What is left of a text after a part of it was read, and that part. -/
def Reads (cs rest : List Char) : Prop := ∃ read, cs = read ++ rest ∧ ∀ c ∈ read, isVersionChar c = true

theorem Reads.refl (cs : List Char) : Reads cs cs := ⟨[], rfl, nofun⟩

theorem Reads.cons {c : Char} (hc : isVersionChar c = true) (h : Reads cs rest) : Reads (c :: cs) rest := by
  obtain ⟨read, rfl, hread⟩ := h
  exact ⟨c :: read, rfl, List.forall_mem_cons.2 ⟨hc, hread⟩⟩

theorem Reads.trans {cs' : List Char} (h : Reads cs cs') (h' : Reads cs' rest) : Reads cs rest := by
  obtain ⟨read, rfl, hread⟩ := h
  obtain ⟨read', rfl, hread'⟩ := h'
  exact ⟨read ++ read', by rw [List.append_assoc], List.forall_mem_append.2 ⟨hread, hread'⟩⟩

theorem reads_of_number {n : Nat} (h : number part cs = .ok (n, rest)) : Reads cs rest := by
  obtain ⟨ds, hcs, hds⟩ := exists_digits_of_numberFrom h
  exact ⟨ds, hcs, fun c hc => isVersionChar_of_isDigit (hds c hc)⟩

theorem reads_of_afterDot (h : afterDot part cs = .ok rest) : Reads cs rest := by
  rw [eq_dot_of_afterDot h]
  exact (Reads.refl rest).cons rfl

theorem reads_of_identifiersFrom {done : List Identifier} {current : List Char}
    (h : identifiersFrom part done current cs = .ok (ids, rest)) : Reads cs rest := by
  fun_induction identifiersFrom part done current cs with
  | case1 done current c cs hc ih => exact (ih h).cons (by simp [isVersionChar, hc])
  | case2 =>
    cases h
    exact .refl _
  | case3 => cases h
  | case4 => cases h
  | case5 done current c cs _ _ _ hdot ih => exact (ih h).cons (by simp [isVersionChar, hdot])
  | case6 =>
    cases h
    exact .refl _
  | case7 =>
    cases h
    exact .refl _
  | case8 => cases h
  | case9 => cases h
  | case10 =>
    cases h
    exact .refl _

theorem exists_of_bind_ok {ε α β : Type} {x : Except ε α} {f : α → Except ε β} {b : β} (h : (x >>= f) = .ok b) :
    ∃ a, x = .ok a ∧ f a = .ok b := by
  cases x with
  | error e => cases h
  | ok a => exact ⟨a, rfl, h⟩

theorem reads_of_marked {mark : Char} (hmark : isVersionChar mark = true)
    (h : marked mark part cs = .ok (ids, rest)) : Reads cs rest := by
  unfold marked at h
  split at h
  · next c cs =>
    split at h
    · next hc =>
      obtain ⟨⟨ids', rest'⟩, hread, hrest⟩ := exists_of_bind_ok h
      dsimp only at hrest
      split at hrest
      · cases hrest
      · cases hrest
        exact (reads_of_identifiersFrom hread).cons (hc ▸ hmark)
    · cases h
      exact .refl _
  · cases h
    exact .refl _

/-- A version holds nothing but digits, letters, dashes, dots and plus signs. -/
theorem isVersionChar_of_ofChars (h : ofChars cs = .ok v) : ∀ c ∈ cs, isVersionChar c = true := by
  unfold ofChars at h
  split at h
  · cases h
  obtain ⟨⟨major, r₁⟩, hmajor, h⟩ := exists_of_bind_ok h
  obtain ⟨r₂, hdot, h⟩ := exists_of_bind_ok h
  obtain ⟨⟨minor, r₃⟩, hminor, h⟩ := exists_of_bind_ok h
  obtain ⟨r₄, hdot', h⟩ := exists_of_bind_ok h
  obtain ⟨⟨patch, r₅⟩, hpatch, h⟩ := exists_of_bind_ok h
  obtain ⟨⟨pre, r₆⟩, hpre, h⟩ := exists_of_bind_ok h
  obtain ⟨⟨build, r₇⟩, hbuild, hend⟩ := exists_of_bind_ok h
  have hreads : Reads cs r₇ :=
    (reads_of_number hmajor).trans <| (reads_of_afterDot hdot).trans <| (reads_of_number hminor).trans <|
      (reads_of_afterDot hdot').trans <| (reads_of_number hpatch).trans <| (reads_of_marked rfl hpre).trans <|
      reads_of_marked rfl hbuild
  obtain ⟨read, rfl, hread⟩ := hreads
  cases r₇ with
  | nil => simpa using hread
  | cons c cs => cases hend

end Version

namespace Text

/-- A text without white space in it has none around it. -/
theorem trim_of_not_blank {s : String} (h : ∀ c ∈ s.toList, isBlank c = false) : trim s = s := by
  have hlead : lead s = [] := by
    cases hcs : s.toList with
    | nil => simp [lead, hcs]
    | cons c cs => simp [lead, hcs, h c (hcs ▸ List.mem_cons_self)]
  have htail : tail s = [] := by
    have hall : ∀ c ∈ (trimStart s.toList).reverse, isBlank c = false := fun c hc =>
      h c ((List.dropWhile_sublist _).subset (List.mem_reverse.1 hc))
    rw [tail]
    cases hcs : (trimStart s.toList).reverse with
    | nil => rfl
    | cons c cs => simp [hall c (hcs ▸ List.mem_cons_self)]
  have heq := toList_eq s
  rw [hlead, htail, List.nil_append, List.append_nil] at heq
  exact String.toList_inj.1 heq.symm

end Text

section Readings

variable {r : Release} {v : Version}

theorem readVersion_eq_ok_iff {text : String} :
    readVersion text = .ok v ↔ Version.ofChars ((Text.trim text).toList.dropWhile (· == 'v')) = .ok v := by
  unfold readVersion
  cases Version.ofChars ((Text.trim text).toList.dropWhile (· == 'v')) <;> simp

theorem read_deployedVersion_eq :
    Version.read (deployedVersion r) = Version.ofChars (r.appVersion.toList.dropWhile (· == 'v')) := by
  rw [Version.read, deployedVersion, String.toList_ofList]

/-- A text that is a version behind leading `v`s has no white space around it. -/
theorem trim_of_read (h : Version.read (deployedVersion r) = .ok v) : Text.trim r.appVersion = r.appVersion := by
  rw [read_deployedVersion_eq] at h
  refine Text.trim_of_not_blank fun c hc => ?_
  rw [← List.takeWhile_append_dropWhile (p := (· == 'v')) (l := r.appVersion.toList)] at hc
  rcases List.mem_append.1 hc with hc | hc
  · have hv : c = 'v' := eq_of_beq (List.all_eq_true.1 List.all_takeWhile c hc)
    rw [hv]
    rfl
  · exact Version.not_blank_of_isVersionChar (Version.isVersionChar_of_ofChars h c hc)

/-- The version of a release as others depend on it: the one by which an operation is chosen, if no white space
stands around the text. -/
theorem read_deployedVersion_iff : Version.read (deployedVersion r) = .ok v ↔
    readVersion r.appVersion = .ok v ∧ Text.trim r.appVersion = r.appVersion := by
  rw [readVersion_eq_ok_iff, read_deployedVersion_eq]
  constructor
  · intro h
    have htrim : Text.trim r.appVersion = r.appVersion := trim_of_read (read_deployedVersion_eq.trans h)
    rw [htrim]
    exact ⟨h, rfl⟩
  · rintro ⟨h, htrim⟩
    rwa [htrim] at h

/-- A version that others cannot read has white space around it, or is no version for an operation either. -/
theorem exists_read_error_iff : (∃ e, Version.read (deployedVersion r) = .error e) ↔
    Text.trim r.appVersion ≠ r.appVersion ∨ ∃ e, readVersion r.appVersion = .error e := by
  constructor
  · rintro ⟨e, he⟩
    by_cases htrim : Text.trim r.appVersion = r.appVersion
    · cases hv : readVersion r.appVersion with
      | error e => exact .inr ⟨e, rfl⟩
      | ok v =>
        rw [read_deployedVersion_iff.2 ⟨hv, htrim⟩] at he
        cases he
    · exact .inl htrim
  · intro h
    cases hv : Version.read (deployedVersion r) with
    | error e => exact ⟨e, rfl⟩
    | ok v =>
      obtain ⟨hread, htrim⟩ := read_deployedVersion_iff.1 hv
      rcases h with hpadded | ⟨e, he⟩
      · exact (hpadded htrim).elim
      · rw [hread] at he
        cases he

/-- Where a release has a version for an operation, white space alone keeps others from reading it. -/
theorem agree_iff : (∀ v, readVersion r.appVersion = .ok v ↔ Version.read (deployedVersion r) = .ok v) ↔
    ((∃ v, readVersion r.appVersion = .ok v) → Text.trim r.appVersion = r.appVersion) := by
  constructor
  · rintro hsame ⟨v, hv⟩
    exact trim_of_read ((hsame v).1 hv)
  · intro htrim v
    exact ⟨fun hv => read_deployedVersion_iff.2 ⟨hv, htrim ⟨v, hv⟩⟩, fun hv => (read_deployedVersion_iff.1 hv).1⟩

/-- A dependency is met if and only if the version by which an operation is chosen satisfies the requirement, and
no white space stands around it. -/
theorem meets_iff {releases : List Release} {d wanted : String} (hfirst : FirstNamed d releases r) :
    Meets releases d wanted ↔ ∃ requirement v, Requirement.read wanted = .ok requirement ∧
      readVersion r.appVersion = .ok v ∧ requirement.holds v = true ∧ Text.trim r.appVersion = r.appVersion := by
  constructor
  · rintro ⟨requirement, r', text, v, hwanted, hfirst', htext, hv, hholds⟩
    obtain rfl := hfirst.unique hfirst'
    obtain rfl := unmarked_iff.1 htext
    obtain ⟨hread, htrim⟩ := read_deployedVersion_iff.1 hv
    exact ⟨requirement, v, hwanted, hread, hholds, htrim⟩
  · rintro ⟨requirement, v, hwanted, hread, hholds, htrim⟩
    have hv : Version.read (deployedVersion r) = .ok v := read_deployedVersion_iff.2 ⟨hread, htrim⟩
    exact ⟨requirement, r, _, v, hwanted, hfirst, unmarked_iff.2 rfl, hv, hholds⟩

/-- What is said of a release whose version cannot be read, where a chart depends on nothing else. -/
theorem checkDependencies_of_unreadVersion {releases : List Release} {chart d wanted : String} {e : VersionError}
    (hfirst : FirstNamed d releases r) (hwanted : Readable wanted)
    (he : Version.read (deployedVersion r) = .error e) :
    checkDependencies chart [(dependencyPrefix ++ d, wanted)] releases = .error (.unsatisfiedDependencies chart
      (d ++ " has unparsable version " ++ Text.quote (deployedVersion r) ++ ": " ++ e.message)) := by
  obtain ⟨requirement, hrequirement⟩ := hwanted
  have hself : dependencyOf? (dependencyPrefix ++ d) = some d := dependencyOf?_eq_some_iff.2 rfl
  have hunmet : unmet? d requirement releases =
      some (d ++ " has unparsable version " ++ Text.quote (deployedVersion r) ++ ": " ++ e.message) := by
    simp only [unmet?, find?_name_eq_some_iff.2 hfirst, he]
  simp only [checkDependencies, unmetReasons, hself, hrequirement, hunmet]
  rfl

/-- The two readings of the version that a release is deployed in. They agree if and only if the text has no white
space around it, or is no version in either; what others read is always what an operation goes by. A chart that
depends on the release is told that its version cannot be read if and only if that is so for an operation too, or
white space stands around the text; so a dependency on a release that an operation can compare may be unmet for the
white space alone. -/
theorem readings_agree_iff (r : Release) :
    ((∀ v, readVersion r.appVersion = .ok v ↔ Version.read (deployedVersion r) = .ok v) ↔
      ((∃ v, readVersion r.appVersion = .ok v) → Text.trim r.appVersion = r.appVersion)) ∧
    (∀ v, Version.read (deployedVersion r) = .ok v → readVersion r.appVersion = .ok v) ∧
    ∀ (releases : List Release) (chart d wanted : String), FirstNamed d releases r → Readable wanted →
      ((∃ e, Version.read (deployedVersion r) = .error e ∧
          checkDependencies chart [(dependencyPrefix ++ d, wanted)] releases =
            .error (.unsatisfiedDependencies chart
              (d ++ " has unparsable version " ++ Text.quote (deployedVersion r) ++ ": " ++ e.message))) ↔
        Text.trim r.appVersion ≠ r.appVersion ∨ ∃ e, readVersion r.appVersion = .error e) ∧
      (Meets releases d wanted ↔ ∃ requirement v, Requirement.read wanted = .ok requirement ∧
        readVersion r.appVersion = .ok v ∧ requirement.holds v = true ∧ Text.trim r.appVersion = r.appVersion) := by
  refine ⟨agree_iff, fun v hv => (read_deployedVersion_iff.1 hv).1,
    fun releases chart d wanted hfirst hwanted => ⟨?_, meets_iff hfirst⟩⟩
  rw [← exists_read_error_iff]
  constructor
  · rintro ⟨e, he, -⟩
    exact ⟨e, he⟩
  · rintro ⟨e, he⟩
    exact ⟨e, he, checkDependencies_of_unreadVersion hfirst hwanted he⟩

/-- An operation goes by version 3.5.9, and a chart that depends on the release is told that there is none. -/
theorem readings_apart_of_blank :
    let r : Release := ⟨"k8s-etcd", "ecosystem", "k8s-etcd", "3.5.9", " v3.5.9"⟩
    readVersion r.appVersion = .ok ⟨3, 5, 9, [], []⟩ ∧
      ¬ (∀ v, readVersion r.appVersion = .ok v ↔ Version.read (deployedVersion r) = .ok v) ∧
      ∃ e, Version.read (deployedVersion r) = .error e ∧
        checkDependencies "k8s/dogu-op" [("k8s.cloudogu.com/ces-dependency/k8s-etcd", ">=3.5.0")] [r] =
          .error (.unsatisfiedDependencies "k8s/dogu-op"
            ("k8s-etcd has unparsable version " ++ Text.quote (deployedVersion r) ++ ": " ++ e.message)) := by
  intro r
  have hread : readVersion r.appVersion = .ok ⟨3, 5, 9, [], []⟩ := readVersion_eq_ok_iff.2 (by decide +kernel)
  have hpadded : Text.trim r.appVersion ≠ r.appVersion := by decide
  have hfirst : FirstNamed "k8s-etcd" [r] r := ⟨rfl, [], [], rfl, nofun⟩
  have hwanted : Readable ">=3.5.0" := ⟨⟨[⟨.greaterEq, 3, some 5, some 0, []⟩]⟩, rfl⟩
  obtain ⟨hagree, -, htold⟩ := readings_agree_iff r
  refine ⟨hread, fun hsame => hpadded (hagree.1 hsame ⟨_, hread⟩), ?_⟩
  exact (htold [r] "k8s/dogu-op" "k8s-etcd" ">=3.5.0" hfirst hwanted).1.2 (.inl hpadded)

end Readings

end ChartOperator
