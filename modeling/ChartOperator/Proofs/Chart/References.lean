import ChartOperator.Chart.Dependencies

set_option autoImplicit false

/-!
# Names and versions of charts

Helm joins the name and the version of a chart by a dash. Dashes may stand in both of them, so the split has to
find the right one (`splits_references`).

The grammar of versions decides: a version starts with digits and a dot (`Version.exists_digits_of_ofChars`). In
a name without a dot nothing behind a dash can go on as a version does, so the first dash behind which a version
stands is the one that joins. A name with a dot may hold a version of its own, and of such names nothing is said.
-/

namespace ChartOperator

namespace Version

variable {part : VersionPart} {n : Nat} {cs rest : List Char} {v : Version}

/-- Digits are read in front of what is left. -/
theorem exists_digits_of_numberFrom {value : Nat} {started : Bool}
    (h : numberFrom part value started cs = .ok (n, rest)) :
    ∃ ds, cs = ds ++ rest ∧ ∀ c ∈ ds, Text.isDigit c = true := by
  fun_induction numberFrom part value started cs with
  | case1 value =>
    cases h
    exact ⟨[], rfl, nofun⟩
  | case2 => cases h
  | case3 => cases h
  | case4 value started c cs hdigit hzero next hsmall ih =>
    obtain ⟨ds, rfl, hds⟩ := ih h
    exact ⟨c :: ds, rfl, List.forall_mem_cons.2 ⟨hdigit, hds⟩⟩
  | case5 => cases h
  | case6 value c cs hdigit =>
    cases h
    exact ⟨[], rfl, nofun⟩
  | case7 => cases h

theorem eq_dot_of_afterDot (h : afterDot part cs = .ok rest) : cs = '.' :: rest := by
  unfold afterDot at h
  split at h
  · cases h
    rfl
  · cases h
  · cases h

/-- A version starts with digits and a dot. -/
theorem exists_digits_of_ofChars (h : ofChars cs = .ok v) :
    ∃ ds rest, cs = ds ++ '.' :: rest ∧ ∀ c ∈ ds, Text.isDigit c = true := by
  unfold ofChars at h
  split at h
  · cases h
  cases hmajor : number .major cs with
  | error e =>
    rw [hmajor] at h
    cases h
  | ok read =>
    obtain ⟨major, behind⟩ := read
    rw [hmajor] at h
    cases hdot : afterDot .major behind with
    | error e =>
      simp only [bind, Except.bind, hdot] at h
      cases h
    | ok rest =>
      obtain ⟨ds, rfl, hds⟩ := exists_digits_of_numberFrom hmajor
      exact ⟨ds, rest, by rw [eq_dot_of_afterDot hdot], hds⟩

end Version

section Splitting

variable {before cs name version : List Char} {s : String}

theorem isVersion_iff : isVersion cs = true ↔ ∃ x, Version.ofChars cs = .ok x := by
  unfold isVersion
  cases Version.ofChars cs with
  | ok x => simp
  | error e => simp

/-- What goes on with a dash before it comes to a dot is no version. -/
theorem isVersion_append_dash (hdot : '.' ∉ name) (cs : List Char) : isVersion (name ++ '-' :: cs) = false := by
  refine Bool.eq_false_iff.2 fun h => ?_
  obtain ⟨v, hv⟩ := isVersion_iff.1 h
  obtain ⟨ds, rest, hsame, hdigits⟩ := Version.exists_digits_of_ofChars hv
  -- The dot and the dash stand at different places: one of them is in front of the other.
  rcases List.append_eq_append_iff.1 hsame with ⟨more, hds, hrest⟩ | ⟨more, hname, hrest⟩
  · cases more with
    | nil => cases hrest
    | cons c more =>
      obtain ⟨rfl, -⟩ := List.cons.inj hrest
      have hdash : Text.isDigit '-' = true := hdigits '-' (hds ▸ by simp)
      cases hdash
  · cases more with
    | nil => cases hrest
    | cons c more =>
      obtain ⟨rfl, -⟩ := List.cons.inj hrest
      exact hdot (hname ▸ by simp)

/-- In a name without a dot no dash is taken. -/
theorem splitReferenceFrom_append (hdot : '.' ∉ name) (before : List Char) (hversion : isVersion version = true) :
    splitReferenceFrom before (name ++ '-' :: version) = some (before.reverse ++ name, version) := by
  induction name generalizing before with
  | nil => simp [splitReferenceFrom, hversion]
  | cons c name ih =>
    obtain ⟨-, hdot⟩ := not_or.1 (mt List.mem_cons.2 hdot)
    have hnot : ¬ (c = '-' ∧ isVersion (name ++ '-' :: version) = true) := by
      rintro ⟨-, h⟩
      rw [isVersion_append_dash hdot] at h
      cases h
    rw [List.cons_append, splitReferenceFrom, if_neg hnot, ih hdot, List.reverse_cons, List.append_assoc,
      List.singleton_append]

/-- What is found is the text without a dash, behind which a version stands. -/
theorem of_splitReferenceFrom_eq_some (h : splitReferenceFrom before cs = some (name, version)) :
    before.reverse ++ cs = name ++ '-' :: version ∧ isVersion version = true := by
  fun_induction splitReferenceFrom before cs with
  | case1 => cases h
  | case2 before c cs htaken =>
    cases h
    exact ⟨by rw [htaken.1], htaken.2⟩
  | case3 before c cs hnot ih => simpa using ih h

/-- If nothing is found, no version stands behind any dash. -/
theorem isVersion_of_splitReferenceFrom_eq_none (h : splitReferenceFrom before cs = none)
    (hcs : cs = name ++ '-' :: version) : isVersion version = false := by
  fun_induction splitReferenceFrom before cs generalizing name with
  | case1 => simp at hcs
  | case2 => cases h
  | case3 before c cs hnot ih =>
    cases name with
    | nil =>
      obtain ⟨rfl, rfl⟩ := List.cons.inj hcs
      exact Bool.eq_false_iff.2 fun hversion => hnot ⟨rfl, hversion⟩
    | cons d name =>
      obtain ⟨rfl, rfl⟩ := List.cons.inj hcs
      exact ih h rfl

theorem toList_joined (n v : String) : (n ++ "-" ++ v).toList = n.toList ++ '-' :: v.toList := by
  simp [String.toList_append]

end Splitting

/-- A name without a dot and a version that are joined by a dash are taken apart again. Whatever else is taken
apart is joined by the result, whose second part is a version; or it is kept as a whole, and then no version
stands behind any of its dashes. -/
theorem splits_references :
    (∀ (n v : String) (x : Version), '.' ∉ n.toList → Version.read v = .ok x →
      splitReference (n ++ "-" ++ v) = (n, v)) ∧
    ∀ s : String,
      ((∃ x, Version.read (splitReference s).2 = .ok x) ∧ (splitReference s).1 ++ "-" ++ (splitReference s).2 = s) ∨
      splitReference s = (s, "") ∧ ∀ (a b : String) (x : Version), a ++ "-" ++ b = s → Version.read b ≠ .ok x := by
  refine ⟨fun n v x hdot hv => ?_, fun s => ?_⟩
  · have hversion : isVersion v.toList = true := isVersion_iff.2 ⟨x, hv⟩
    have hfound := splitReferenceFrom_append hdot [] hversion
    simp only [splitReference, toList_joined, hfound, List.reverse_nil, List.nil_append, String.ofList_toList]
  · cases hfound : splitReferenceFrom [] s.toList with
    | some parts =>
      obtain ⟨name, version⟩ := parts
      obtain ⟨hjoined, hversion⟩ := of_splitReferenceFrom_eq_some hfound
      have hsplit : splitReference s = (String.ofList name, String.ofList version) := by
        simp only [splitReference, hfound]
      obtain ⟨x, hx⟩ := isVersion_iff.1 hversion
      rw [hsplit]
      refine .inl ⟨⟨x, by rw [Version.read, String.toList_ofList, hx]⟩, String.toList_inj.1 ?_⟩
      rw [toList_joined, String.toList_ofList, String.toList_ofList]
      exact hjoined.symm
    | none =>
      have hsplit : splitReference s = (s, "") := by simp only [splitReference, hfound]
      refine .inr ⟨hsplit, fun a b x hjoined hb => ?_⟩
      have hnot := isVersion_of_splitReferenceFrom_eq_none hfound (hjoined ▸ toList_joined a b)
      rw [isVersion_iff.2 ⟨x, hb⟩] at hnot
      cases hnot

/-- Dashes stand in the name, in the pre-release and in the build metadata. -/
theorem splits_references_dashed :
    '.' ∉ "k8s-1-etcd".toList ∧ (∃ x, Version.read "3.5.9-rc-1+linux-2" = .ok x) ∧
      splitReference "k8s-1-etcd-3.5.9-rc-1+linux-2" = ("k8s-1-etcd", "3.5.9-rc-1+linux-2") := by
  have hdot : '.' ∉ "k8s-1-etcd".toList := by decide
  have hread : Version.read "3.5.9-rc-1+linux-2" = .ok ⟨3, 5, 9, ["rc-1".toList], ["linux-2".toList]⟩ := by rfl
  exact ⟨hdot, ⟨_, hread⟩, splits_references.1 _ _ _ hdot hread⟩

end ChartOperator
