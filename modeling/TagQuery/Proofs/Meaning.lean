import TagQuery.Matching.Matcher
import TagQuery.Proofs.Lengths

/-!
# What a query means

An expression says something about the values that a record has under its tags, and `Expr.Holds` is what it says,
with nothing of how it is evaluated.  Compiling an expression and evaluating the condition decides it
(`holds_ofExpr`), so a matcher accepts the records of which all its expressions hold, in whatever order they are
tried (`accepts_compile_iff`).

The mark of absence is looked for in the content as it is written.  A content that only folds to the mark asks for a
value like any other, and finds none in a tag whose value is the mark, for this tag is absent.
-/

namespace TagQuery

namespace TagValue

/-- There is no entry, or its single value is the mark of absence, or it has no values. -/
def Absent (v : TagValue) : Prop :=
  v = none ∨ v = some (.one absentMark) ∨ v = some (.many [])

def values : TagValue → List String
  | none => []
  | some (.one value) => [value]
  | some (.many values) => values

theorem isAbsent_iff {v : TagValue} : v.isAbsent = true ↔ v.Absent := by
  rcases v with _ | value | vs
  · simp [isAbsent, Absent]
  · simp [isAbsent, Absent]
  · simp [isAbsent, Absent]

theorem any_of_absent {v : TagValue} (h : v.Absent) (passes : Option String → Bool) : v.any passes = passes none := by
  unfold any presented
  rw [if_pos (isAbsent_iff.2 h), List.any_cons, List.any_nil, Bool.or_false]

theorem any_iff_of_not_absent {v : TagValue} (h : ¬v.Absent) {passes : Option String → Bool} :
    v.any passes = true ↔ ∃ value ∈ v.values, passes (some value) = true := by
  have ha : ¬v.isAbsent = true := fun hv => h (isAbsent_iff.1 hv)
  unfold any presented
  rw [if_neg ha]
  rcases v with _ | value | vs
  · exact absurd (.inl rfl) h
  · simp [values]
  · simp [values]

end TagValue

variable {ρ : Type} [Tagged ρ] (folding : Folding) (keywordTags : List String) (record : ρ)

/-- The tag is there, and one of its values is not empty and has the content in it, up to folding. -/
def HasText (tag content : String) : Prop :=
  ¬(Tagged.value record tag).Absent ∧ ∃ v ∈ (Tagged.value record tag).values, v ≠ "" ∧
    ∃ before after, folding.fold v = before ++ folding.fold content ++ after

def Term.Holds : Term → Prop
  | .exact tag content =>
    if content = absentMark then (Tagged.value record tag).Absent
    else ¬(Tagged.value record tag).Absent ∧
      ∃ v ∈ (Tagged.value record tag).values, folding.fold v = folding.fold content
  | .contains tag content => HasText folding record tag content
  | .keyword content => ∃ tag ∈ keywordTags, HasText folding record tag content

mutual

def Expr.Holds : Expr → Prop
  | .term t => t.Holds folding keywordTags record
  | .not e => ¬e.Holds
  | .or l r => l.Holds ∨ r.Holds
  | .group es => Expr.AllHold es

def Expr.AllHold : List Expr → Prop
  | [] => True
  | e :: es => e.Holds ∧ Expr.AllHold es

end

theorem Expr.allHold_iff {es : List Expr} :
    Expr.AllHold folding keywordTags record es ↔ ∀ e ∈ es, e.Holds folding keywordTags record := by
  induction es with
  | nil => simp [Expr.AllHold]
  | cons e es ih => rw [Expr.AllHold, ih, List.forall_mem_cons]

/-! ### Values -/

theorem toList_infix_iff {needle text : String} :
    needle.toList <:+: text.toList ↔ ∃ before after, text = before ++ needle ++ after := by
  constructor
  · rintro ⟨p, s, h⟩
    refine ⟨String.ofList p, String.ofList s, String.toList_injective ?_⟩
    simp [← h]
  · rintro ⟨before, after, rfl⟩
    exact ⟨before.toList, after.toList, by simp⟩

namespace Condition

theorem valueContains_iff {content v : String} :
    valueContains folding content (some v) = true ↔
      v ≠ "" ∧ ∃ before after, folding.fold v = before ++ content ++ after := by
  rw [valueContains, Bool.and_eq_true, occursIn_iff, utf8_infix_iff, toList_infix_iff]
  simp

theorem tagContains_iff {tag content : String} :
    tagContains folding record (folding.fold content) tag = true ↔ HasText folding record tag content := by
  rw [tagContains, HasText]
  -- an absent tag is tried once, without a value, and a present one on its values
  by_cases ha : (Tagged.value record tag).Absent
  · rw [TagValue.any_of_absent ha]
    simp [valueContains, ha]
  · rw [TagValue.any_iff_of_not_absent ha]
    simp only [ha, not_false_eq_true, true_and, valueContains_iff]

theorem any_valueEquals_iff {v : TagValue} {content : String} :
    v.any (valueEquals folding (some content)) = true ↔
      ¬v.Absent ∧ ∃ value ∈ v.values, folding.fold value = content := by
  by_cases ha : v.Absent
  · rw [TagValue.any_of_absent ha]
    simp [valueEquals, ha]
  · rw [TagValue.any_iff_of_not_absent ha]
    simp only [ha, not_false_eq_true, true_and, valueEquals, beq_iff_eq]

theorem any_valueEquals_none_iff {v : TagValue} : v.any (valueEquals folding none) = true ↔ v.Absent := by
  by_cases ha : v.Absent
  · rw [TagValue.any_of_absent ha]
    simp [valueEquals, ha]
  · rw [TagValue.any_iff_of_not_absent ha]
    simp [valueEquals, ha]

/-! ### Compiled expressions -/

theorem holds_ofTerm (t : Term) :
    (ofTerm folding keywordTags t).holds folding record = true ↔ t.Holds folding keywordTags record := by
  cases t with
  | exact tag content =>
    rw [ofTerm, holds, Term.Holds]
    by_cases hc : content = absentMark
    · rw [if_pos hc, if_pos hc, any_valueEquals_none_iff]
    · rw [if_neg hc, if_neg hc, any_valueEquals_iff]
  | contains tag content => rw [ofTerm, holds, Term.Holds, tagContains_iff]
  | keyword content =>
    rw [ofTerm, holds, Term.Holds, List.any_eq_true]
    simp only [tagContains_iff]

/-- A list of one condition holds if the condition does. -/
theorem holds_all_singleton (c : Condition) : (all [c]).holds folding record = c.holds folding record := by
  rw [holds, allHold, allHold, Bool.and_true]

mutual

theorem holds_ofExpr : ∀ e : Expr,
    (ofExpr folding keywordTags e).holds folding record = true ↔ e.Holds folding keywordTags record
  | .term t => by rw [ofExpr, holds_ofTerm, Expr.Holds]
  | .not e => by
    rw [ofExpr, holds, holds_all_singleton, Bool.not_eq_true', ← Bool.not_eq_true, holds_ofExpr e, Expr.Holds]
  | .or l r => by
    rw [ofExpr, holds, holds_all_singleton, holds_all_singleton, Bool.or_eq_true, holds_ofExpr l, holds_ofExpr r,
      Expr.Holds]
  | .group es => by rw [ofExpr, holds, allHold_ofExprs es, Expr.Holds]

theorem allHold_ofExprs : ∀ es : List Expr,
    allHold folding record (ofExprs folding keywordTags es) = true ↔ Expr.AllHold folding keywordTags record es
  | [] => by simp [ofExprs, allHold, Expr.AllHold]
  | e :: es => by rw [ofExprs, allHold, Bool.and_eq_true, holds_ofExpr e, allHold_ofExprs es, Expr.AllHold]

end

theorem all_holds_map_ofExpr (es : List Expr) :
    ((es.map (ofExpr folding keywordTags)).all fun c => c.holds folding record) = true ↔
      ∀ e ∈ es, e.Holds folding keywordTags record := by
  rw [List.all_map, List.all_eq_true]
  simp only [Function.comp_apply, holds_ofExpr]

end Condition

theorem mem_byLength {es : List Expr} {e : Expr} : e ∈ byLength es ↔ e ∈ es := by
  rw [byLength_eq_mergeSort, List.mem_mergeSort]

namespace Matcher

theorem mem_expressions_ofQuery {q : Query} {o : Options} {e : Expr} :
    e ∈ (ofQuery q o).expressions ↔ e ∈ q.expressions := by
  rw [ofQuery]
  cases o.optimize with
  | false => exact Iff.rfl
  | true => exact mem_byLength

/-- The order in which the expressions are tried does not matter. -/
theorem accepts_ofQuery_iff (q : Query) (o : Options) (record : ρ) :
    (ofQuery q o).accepts record = true ↔ ∀ e ∈ q.expressions, e.Holds o.folding o.keywordTags record := by
  show ((ofQuery q o).expressions.map (Condition.ofExpr o.folding o.keywordTags)).all
    (·.holds o.folding record) = true ↔ _
  rw [Condition.all_holds_map_ofExpr]
  simp only [mem_expressions_ofQuery]

/-- The conditions that expressions are compiled to all hold exactly if all the expressions do, and a matcher accepts
a record exactly if all the expressions of its text hold of it. -/
theorem accepts_compile_iff (record : ρ) :
    (∀ (folding : Folding) (keywordTags : List String) (es : List Expr),
      ((es.map (Condition.ofExpr folding keywordTags)).all fun c => c.holds folding record) = true ↔
        ∀ e ∈ es, e.Holds folding keywordTags record) ∧
    ∀ (text : String) (o : Options), (compile text o).accepts record = true ↔
      ∀ e ∈ (Query.ofText text).expressions, e.Holds o.folding o.keywordTags record := by
  constructor
  · intro folding keywordTags es
    exact Condition.all_holds_map_ofExpr folding keywordTags record es
  · intro text o
    exact accepts_ofQuery_iff (Query.ofText text) o record

end Matcher

end TagQuery
