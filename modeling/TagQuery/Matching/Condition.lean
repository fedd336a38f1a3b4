import TagQuery.Folding
import TagQuery.Query.Expr
import TagQuery.Record.TagValue
import TagQuery.Text.Bytes
import TagQuery.Text.Occurs

/-!
# Conditions

A condition is an expression made ready for evaluation: its texts are folded once, the keyword tags are filled in,
a term that asks for the absence of a tag is told from one that asks for a value, and the operands of negations and
alternations become lists of conditions, like the inside of a group.  `Condition.holds` decides a condition for a
record, `Condition.examine` also says which tags made it hold (`Condition.examine_eq`).
-/

namespace TagQuery

inductive Condition where
  /-- Some value of the tag folds to the content; without a content, the tag is absent. -/
  | equals (tag : String) (content : Option String)
  /-- Some value of the tag is not empty and has the content in its folded text. -/
  | contains (tag content : String)
  /-- One of the tags has such a value. -/
  | keyword (tags : List String) (content : String)
  | not (condition : Condition)
  | or (left right : Condition)
  /-- All of the conditions hold. -/
  | all (conditions : List Condition)
  deriving Repr

namespace Condition

def ofTerm (folding : Folding) (keywordTags : List String) : Term → Condition
  | .exact tag content => .equals tag (if content = absentMark then none else some (folding.fold content))
  | .contains tag content => .contains tag (folding.fold content)
  | .keyword content => .keyword keywordTags (folding.fold content)

mutual

def ofExpr (folding : Folding) (keywordTags : List String) : Expr → Condition
  | .term t => ofTerm folding keywordTags t
  | .not e => .not (.all [ofExpr folding keywordTags e])
  | .or l r => .or (.all [ofExpr folding keywordTags l]) (.all [ofExpr folding keywordTags r])
  | .group es => .all (ofExprs folding keywordTags es)

def ofExprs (folding : Folding) (keywordTags : List String) : List Expr → List Condition
  | [] => []
  | e :: es => ofExpr folding keywordTags e :: ofExprs folding keywordTags es

end

variable {ρ : Type} [Tagged ρ]

/-- Two absences are equal. -/
def valueEquals (folding : Folding) : (content value : Option String) → Bool
  | none, none => true
  | some content, some value => folding.fold value == content
  | _, _ => false

/-- An empty value contains nothing, not even the empty text. -/
def valueContains (folding : Folding) (content : String) : Option String → Bool
  | some value => !value.isEmpty && occursIn (utf8 content.toList) (utf8 (folding.fold value).toList)
  | none => false

def tagContains (folding : Folding) (record : ρ) (content tag : String) : Bool :=
  TagValue.any (Tagged.value record tag) (valueContains folding content)

mutual

def holds (folding : Folding) (record : ρ) : Condition → Bool
  | .equals tag content => TagValue.any (Tagged.value record tag) (valueEquals folding content)
  | .contains tag content => tagContains folding record content tag
  | .keyword tags content => tags.any (tagContains folding record content)
  | .not c => !holds folding record c
  | .or l r => holds folding record l || holds folding record r
  | .all cs => allHold folding record cs

def allHold (folding : Folding) (record : ρ) : List Condition → Bool
  | [] => true
  | c :: cs => holds folding record c && allHold folding record cs

end

/-- The tags that the condition reports if it holds: its own tag, or for a keyword every tag that contains it.
A condition built from others reports none. -/
def reported (folding : Folding) (record : ρ) : Condition → List String
  | .equals tag _ | .contains tag _ => [tag]
  | .keyword tags content => tags.filter (tagContains folding record content)
  | .not _ | .or _ _ | .all _ => []

/-- The tags that make the condition hold, if it does. -/
def examine (folding : Folding) (record : ρ) (c : Condition) : Option (List String) :=
  match c with
  | .keyword tags content =>
    match tags.filter (tagContains folding record content) with
    | [] => none
    | found => some found
  | c => if c.holds folding record then some (c.reported folding record) else none

theorem examine_eq (folding : Folding) (record : ρ) (c : Condition) :
    c.examine folding record = if c.holds folding record then some (c.reported folding record) else none := by
  unfold examine
  split
  · rename_i tags content
    split
    · rename_i h
      have : (keyword tags content).holds folding record = false := by simpa [holds] using h
      simp [this]
    · rename_i h
      have : (keyword tags content).holds folding record = true := by simpa [holds] using h
      simp [this, reported]
  · rfl

end Condition

end TagQuery
