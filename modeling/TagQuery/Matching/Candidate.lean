import TagQuery.Matching.Condition

/-!
# Candidates

A candidate is a record under evaluation, with the tags that have made conditions hold so far, each once and in the
order in which they did.
-/

namespace TagQuery

structure Candidate (ρ : Type) where
  record : ρ
  onTags : List String := []
  deriving DecidableEq, Repr

namespace Candidate

variable {ρ : Type}

def note (c : Candidate ρ) (tag : String) : Candidate ρ :=
  if tag ∈ c.onTags then c else { c with onTags := c.onTags ++ [tag] }

/-- Tries the conditions in order up to the first that fails.  The tags of those before it are kept. -/
def meet [Tagged ρ] (folding : Folding) : List Condition → Candidate ρ → Bool × Candidate ρ
  | [], c => (true, c)
  | k :: ks, c =>
    match k.examine folding c.record with
    | some tags => meet folding ks (tags.foldl note c)
    | none => (false, c)

end Candidate

end TagQuery
