import TagQuery.Proofs.Evaluation
import TagQuery.Record.Track

/-!
# What a test records

A matcher tries its expressions in order up to the first that does not hold.  A candidate that is tested has noted the
tags that the expressions before this one report, after those that it knew, in order and each once; the verdict is
positive if no expression is left (`Matcher.test_ofQuery`).  What an expression reports is said of the expression and the
record alone (`Expr.reported`): nothing is said of how it is compiled or examined.
-/

namespace TagQuery

variable {ρ : Type} [Tagged ρ] (folding : Folding) (keywordTags : List String) (record : ρ)

instance (tag content : String) : Decidable (HasText folding record tag content) :=
  decidable_of_iff _ (Condition.tagContains_iff folding record)

instance (e : Expr) : Decidable (e.Holds folding keywordTags record) :=
  decidable_of_iff _ (Condition.holds_ofExpr folding keywordTags record e)

/-- The tags that an expression reports if it holds: a term its own tag, also if it asks for the absence of the tag, and
a keyword all the keyword tags that have it in their text. -/
def Expr.reported : Expr → List String
  | .term (.exact tag _) | .term (.contains tag _) => [tag]
  | .term (.keyword content) => keywordTags.filter fun tag => HasText folding record tag content
  | .not _ | .or _ _ | .group _ => []

namespace Condition

theorem reported_ofExpr (e : Expr) :
    (ofExpr folding keywordTags e).reported folding record = e.reported folding keywordTags record := by
  cases e with
  | term t =>
    cases t with
    | exact tag content => rfl
    | contains tag content => rfl
    | keyword content =>
      rw [ofExpr, ofTerm, reported, Expr.reported]
      apply List.filter_congr
      intro tag _
      rw [Bool.eq_iff_iff, tagContains_iff, decide_eq_true_iff]
  | not e => rfl
  | or l r => rfl
  | group es => rfl

/-- The conditions report what the expressions report of which they were made, up to the first that does not hold. -/
theorem reports_map_ofExpr (es : List Expr) :
    reports folding record (es.map (ofExpr folding keywordTags)) =
      (es.takeWhile fun e => e.Holds folding keywordTags record).flatMap
        (Expr.reported folding keywordTags record) := by
  have holds : (fun k : Condition => k.holds folding record) ∘ ofExpr folding keywordTags =
      fun e => decide (e.Holds folding keywordTags record) := by
    funext e
    rw [Bool.eq_iff_iff, decide_eq_true_iff]
    exact holds_ofExpr folding keywordTags record e
  have reported : (fun e => (ofExpr folding keywordTags e).reported folding record) =
      Expr.reported folding keywordTags record := funext (reported_ofExpr folding keywordTags record)
  rw [reports, List.takeWhile_map, holds, List.flatMap_map, reported]

end Condition

omit [Tagged ρ] in
theorem Candidate.foldl_note_eq (tags : List String) (c : Candidate ρ) :
    tags.foldl note c = { c with onTags := c.onTags ++ (tags.removeAll c.onTags).eraseDups } := by
  have parts : tags.foldl note c = ⟨(tags.foldl note c).record, (tags.foldl note c).onTags⟩ := rfl
  rw [parts, record_foldl_note, onTags_foldl_note]

namespace Matcher

/-- A test gives the verdict on the record.  The candidate has noted, after the tags that were there, what the first
expressions report: those that all hold and that are followed by one that does not, or by none. -/
theorem test_ofQuery (q : Query) (o : Options) (c : Candidate ρ) :
    let m := ofQuery q o
    ∃ met left, m.expressions = met ++ left ∧
      (∀ e ∈ met, e.Holds o.folding o.keywordTags c.record) ∧
      (∀ e ∈ left.head?, ¬e.Holds o.folding o.keywordTags c.record) ∧
      (m.accepts c.record = true ↔ left = []) ∧
      m.test c = (m.accepts c.record,
        { c with
          onTags := c.onTags ++
            ((met.flatMap (Expr.reported o.folding o.keywordTags c.record)).removeAll c.onTags).eraseDups }) := by
  intro m
  let holds (e : Expr) : Bool := e.Holds o.folding o.keywordTags c.record
  refine ⟨m.expressions.takeWhile holds, m.expressions.dropWhile holds, List.takeWhile_append_dropWhile.symm,
    ?_, ?_, ?_, ?_⟩
  · intro e he
    have ht : holds e = true := List.mem_takeWhile_imp he
    exact of_decide_eq_true ht
  · intro e he
    have hf := List.head?_dropWhile_not holds m.expressions
    rw [he] at hf
    exact of_decide_eq_false hf
  · rw [List.dropWhile_eq_nil_iff, accepts_ofQuery_iff]
    constructor
    · intro h e he
      exact decide_eq_true (h e (mem_expressions_ofQuery.1 he))
    · intro h e he
      exact of_decide_eq_true (h e (mem_expressions_ofQuery.2 he))
  · have noted : m.reports c.record =
        (m.expressions.takeWhile holds).flatMap (Expr.reported o.folding o.keywordTags c.record) :=
      Condition.reports_map_ofExpr o.folding o.keywordTags c.record m.expressions
    rw [test_eq, Candidate.foldl_note_eq, noted]

/-- The keyword is in two of its tags, one of which is known already, and the last term is not reached. -/
example :
    let record := (Track.empty.insert "artist" (.one "Tool")).insert "title" (.many ["Cool", "Fool"])
    let m := compile "ool year==__null__ !l=x album=A artist=T"
      { keywordTags := ["title", "album", "artist"], optimize := false }
    m.test ⟨record, ["artist"]⟩ = (false, ⟨record, ["artist", "title", "year"]⟩) := by
  decide +kernel

end Matcher

end TagQuery
