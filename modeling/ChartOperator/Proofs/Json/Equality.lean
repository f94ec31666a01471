import ChartOperator.Proofs.Json.Objects
import Mathlib.Data.List.Forall2

set_option autoImplicit false

/-!
# Equality of values

`Json.Equal` is the equality of values: that of objects as maps, of which the order of fields is no part, and that of
numbers by what they are, where the two zeros of double precision are one. `Json.same` compares field by field, in
the order in which the fields stand. If all objects are maps, the two say the same (`Json.same_iff_equal`).
-/

namespace ChartOperator

namespace Json

/-- Equality of values. Objects are equal if every name has equal values in both, or none in either. -/
inductive Equal : Json → Json → Prop
  | null : Equal null null
  | bool (b : Bool) : Equal (bool b) (bool b)
  | int (n : Int) : Equal (number (.int n)) (number (.int n))
  | real (x : Double) : Equal (number (.real x)) (number (.real x))
  | zeros {x y : Double} (hx : x.significand = 0) (hy : y.significand = 0) :
    Equal (number (.real x)) (number (.real y))
  | string (s : String) : Equal (string s) (string s)
  | array {as bs : List Json} (h : List.Forall₂ Equal as bs) : Equal (array as) (array bs)
  | fields {as bs : List (String × Json)} (h : ∀ name, Option.Rel Equal (lookup name as) (lookup name bs)) :
    Equal (fields as) (fields bs)

/-! ## The parts of equal values -/

/-- What holds of a value if it holds of all its parts holds of every value. -/
theorem byParts {motive : Json → Prop} (null : motive null) (bool : ∀ b, motive (bool b))
    (number : ∀ n, motive (number n)) (string : ∀ s, motive (string s))
    (array : ∀ items, (∀ j ∈ items, motive j) → motive (array items))
    (fields : ∀ entries, (∀ e ∈ entries, motive e.2) → motive (fields entries)) (j : Json) : motive j := by
  induction hsize : sizeOf j using Nat.strongRecOn generalizing j with
  | ind n ih =>
    subst hsize
    cases j with
    | null => exact null
    | bool b => exact bool b
    | number n => exact number n
    | string s => exact string s
    | array items =>
      refine array items fun j hj => ih (sizeOf j) ?_ j rfl
      have hitem : sizeOf j < sizeOf items := List.sizeOf_lt_of_mem hj
      simp only [Json.array.sizeOf_spec]
      omega
    | fields entries =>
      refine fields entries fun e he => ih (sizeOf e.2) ?_ e.2 rfl
      have hentry : sizeOf e < sizeOf entries := List.sizeOf_lt_of_mem he
      have hvalue : sizeOf e.2 < sizeOf e := by
        cases e
        simp only [Prod.mk.sizeOf_spec]
        omega
      simp only [Json.fields.sizeOf_spec]
      omega

section Parts

variable {as bs : List Json} {es fs : List (String × Json)}

theorem Mapped.array (h : Mapped (.array as)) : ∀ j ∈ as, Mapped j := by
  have hitems : ∀ written : List Json, ∀ j ∈ normalItems written, Mapped j := by
    intro written
    induction written with
    | nil => nofun
    | cons w ws ih => exact List.forall_mem_cons.2 ⟨⟨w, rfl⟩, ih⟩
  obtain ⟨written, hnormal⟩ := h
  cases written with
  | array ws =>
    rw [normal] at hnormal
    cases hnormal
    exact hitems ws
  | fields ws => cases hnormal
  | null | bool _ | number _ | string _ => cases hnormal

theorem equal_array_iff : Equal (.array as) (.array bs) ↔ List.Forall₂ Equal as bs := by
  refine ⟨fun h => ?_, .array⟩
  cases h with
  | array h => exact h

theorem equal_fields_iff : Equal (.fields es) (.fields fs) ↔
    ∀ name, Option.Rel Equal (lookup name es) (lookup name fs) := by
  refine ⟨fun h => ?_, .fields⟩
  cases h with
  | fields h => exact h

theorem sameItems_iff : sameItems as bs = true ↔ List.Forall₂ (fun a b => a.same b = true) as bs := by
  induction as generalizing bs with
  | nil => cases bs <;> simp [sameItems]
  | cons a as ih => cases bs <;> simp [sameItems, ih]

/-- Items are related in two ways alike if each two of them are. -/
theorem forall₂_congr {R S : Json → Json → Prop} (h : ∀ a ∈ as, ∀ b ∈ bs, (R a b ↔ S a b)) :
    List.Forall₂ R as bs ↔ List.Forall₂ S as bs := by
  rw [List.forall₂_iff_zip, List.forall₂_iff_zip]
  refine and_congr_right fun _ => ⟨fun hall a b hab => ?_, fun hall a b hab => ?_⟩
  · obtain ⟨ha, hb⟩ := List.of_mem_zip hab
    exact (h a ha b hb).1 (hall hab)
  · obtain ⟨ha, hb⟩ := List.of_mem_zip hab
    exact (h a ha b hb).2 (hall hab)

/-- So are the values of a name, if each two values of fields are. -/
theorem rel_lookup_congr {R S : Json → Json → Prop} (h : ∀ e ∈ es, ∀ f ∈ fs, (R e.2 f.2 ↔ S e.2 f.2)) (name : String) :
    Option.Rel R (lookup name es) (lookup name fs) ↔ Option.Rel S (lookup name es) (lookup name fs) := by
  cases hes : lookup name es with
  | none => cases lookup name fs <;> simp
  | some a =>
    cases hfs : lookup name fs with
    | none => simp
    | some b => simpa using h _ (mem_of_lookup hes) _ (mem_of_lookup hfs)

end Parts

/-! ## What the comparison decides -/

theorem same_real_iff {x y : Double} :
    same (number (.real x)) (number (.real y)) = true ↔ Equal (number (.real x)) (number (.real y)) := by
  simp only [same, Number.same, Double.same, Double.isZero, Bool.or_eq_true, Bool.and_eq_true, beq_iff_eq]
  constructor
  · rintro (rfl | ⟨hx, hy⟩)
    · exact .real x
    · exact .zeros hx hy
  · intro h
    cases h with
    | real => exact .inl rfl
    | zeros hx hy => exact .inr ⟨hx, hy⟩

/-- Values of which all objects are maps are compared by equality. -/
theorem same_iff_equal {a b : Json} (ha : Mapped a) (hb : Mapped b) : a.same b = true ↔ Equal a b := by
  induction a using byParts generalizing b with
  | null => cases b with
    | null => exact ⟨fun _ => .null, fun _ => rfl⟩
    | _ => constructor <;> (intro h; cases h)
  | bool x => cases b with
    | bool y =>
      rw [same, beq_iff_eq]
      exact ⟨fun h => h ▸ .bool x, fun h => by cases h; rfl⟩
    | _ => constructor <;> (intro h; cases h)
  | number n => cases b with
    | number m =>
      cases n with
      | int x => cases m with
        | int y =>
          rw [same, Number.same, beq_iff_eq]
          exact ⟨fun h => h ▸ .int x, fun h => by cases h; rfl⟩
        | real y => constructor <;> (intro h; cases h)
      | real x => cases m with
        | int y => constructor <;> (intro h; cases h)
        | real y => exact same_real_iff
    | _ => constructor <;> (intro h; cases h)
  | string x => cases b with
    | string y =>
      rw [same, beq_iff_eq]
      exact ⟨fun h => h ▸ .string x, fun h => by cases h; rfl⟩
    | _ => constructor <;> (intro h; cases h)
  | array as ih => cases b with
    | array bs =>
      rw [same, sameItems_iff, equal_array_iff]
      exact forall₂_congr fun x hx y hy => ih x hx (ha.array x hx) (hb.array y hy)
    | _ => constructor <;> (intro h; cases h)
  | fields es ih => cases b with
    | fields fs =>
      obtain ⟨hes, hparts⟩ := ha.fields
      obtain ⟨hfs, hparts'⟩ := hb.fields
      rw [same, ← Values.same, Values.same_iff hes hfs, equal_fields_iff]
      exact forall_congr' fun name => rel_lookup_congr (fun e he f hf => ih e he (hparts e he) (hparts' f hf)) name
    | _ => constructor <;> (intro h; cases h)

end Json

/-- Values of which all objects are maps are the same if and only if every name has equal values in both, or none in
either. -/
theorem Values.same_iff_equal {as bs : Values} (has : (Json.fields as).Mapped) (hbs : (Json.fields bs).Mapped) :
    Values.same as bs = true ↔ ∀ name, Option.Rel Json.Equal (Json.lookup name as) (Json.lookup name bs) := by
  rw [← Json.equal_fields_iff, ← Json.same_iff_equal has hbs, Json.same, Values.same]

end ChartOperator
