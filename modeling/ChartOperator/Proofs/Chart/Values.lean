import ChartOperator.Chart

set_option autoImplicit false

/-!
# Values as maps

Values are kept as a list of fields. In ascending order of the names such a list is a map, and `Values.same`
compares it as one (`Values.same_iff`).
-/

namespace ChartOperator.Values

/-- The names stand in ascending order, each once, as in every map. -/
def Ascending (vs : Values) : Prop := vs.Pairwise (·.1 < ·.1)

theorem lookup_cons (k n : String) (x : Json) (vs : Values) :
    Json.lookup k ((n, x) :: vs) = if n = k then some x else Json.lookup k vs := by
  by_cases h : n = k <;> simp [Json.lookup, h]

/-- A name in front of all others has no value behind them. -/
theorem lookup_of_lt {k : String} {vs : Values} (h : ∀ e ∈ vs, k < e.1) : Json.lookup k vs = none := by
  rw [Json.lookup, List.find?_eq_none.2 fun e he => ?_]
  · rfl
  · have hlt := h e he
    intro heq
    rw [eq_of_beq heq] at hlt
    exact Std.lt_irrefl hlt

/-- Two maps with the same names start with the same one. -/
theorem not_lt_of_lookup {n m : String} {x y : Json} {as bs : Values} (hbs : ∀ e ∈ bs, m < e.1)
    (h : (Json.lookup n ((n, x) :: as)).isSome = (Json.lookup n ((m, y) :: bs)).isSome) : ¬ n < m := by
  intro hlt
  have hlater : ∀ e ∈ (m, y) :: bs, n < e.1 := by
    intro e he
    rcases List.mem_cons.1 he with rfl | he
    · exact hlt
    · exact Std.lt_trans hlt (hbs e he)
  rw [lookup_cons, if_pos rfl, lookup_of_lt hlater] at h
  cases h

/-- Two maps are related at every name if and only if their first fields are, and what is behind them. -/
theorem related_cons_iff {R : Json → Json → Prop} {n m : String} {x y : Json} {as bs : Values}
    (hn : ∀ e ∈ as, n < e.1) (hm : ∀ e ∈ bs, m < e.1) :
    (∀ k, Option.Rel R (Json.lookup k ((n, x) :: as)) (Json.lookup k ((m, y) :: bs))) ↔
      n = m ∧ R x y ∧ ∀ k, Option.Rel R (Json.lookup k as) (Json.lookup k bs) := by
  constructor
  · intro h
    have hsome : ∀ k, (Json.lookup k ((n, x) :: as)).isSome = (Json.lookup k ((m, y) :: bs)).isSome := by
      intro k
      have hk := h k
      revert hk
      generalize Json.lookup k ((n, x) :: as) = a, Json.lookup k ((m, y) :: bs) = b
      rintro (_ | _) <;> rfl
    obtain rfl : n = m :=
      Std.le_antisymm (Std.not_lt.1 (not_lt_of_lookup hn (hsome m).symm))
        (Std.not_lt.1 (not_lt_of_lookup hm (hsome n)))
    have hfirst := h n
    rw [lookup_cons, lookup_cons, if_pos rfl, if_pos rfl] at hfirst
    refine ⟨rfl, ?_, fun k => ?_⟩
    · cases hfirst with
      | some hxy => exact hxy
    · have hk := h k
      rw [lookup_cons, lookup_cons] at hk
      split at hk
      · next hnk =>
        -- The first name stands nowhere else.
        subst hnk
        rw [lookup_of_lt hn, lookup_of_lt hm]
        exact .none
      · exact hk
  · rintro ⟨rfl, hxy, hrest⟩ k
    rw [lookup_cons, lookup_cons]
    split
    · exact .some hxy
    · exact hrest k

/-- Values are the same if and only if they are equal as maps: every name has the same value on both sides, or
none on either. -/
theorem same_iff {as bs : Values} (has : as.Ascending) (hbs : bs.Ascending) :
    Values.same as bs = true ↔
      ∀ k, Option.Rel (fun a b => a.same b = true) (Json.lookup k as) (Json.lookup k bs) := by
  induction as generalizing bs with
  | nil =>
    cases bs with
    | nil => exact ⟨fun _ _ => .none, fun _ => rfl⟩
    | cons e bs =>
      refine ⟨nofun, fun h => ?_⟩
      have he := h e.1
      rw [lookup_cons, if_pos rfl] at he
      cases he
  | cons d as ih =>
    cases bs with
    | nil =>
      refine ⟨nofun, fun h => ?_⟩
      have hd := h d.1
      rw [lookup_cons, if_pos rfl] at hd
      cases hd
    | cons e bs =>
      obtain ⟨hd, has⟩ := List.pairwise_cons.1 has
      obtain ⟨he, hbs⟩ := List.pairwise_cons.1 hbs
      rw [related_cons_iff hd he, ← ih has hbs]
      simp [same, Json.sameFields, and_assoc]

end ChartOperator.Values
