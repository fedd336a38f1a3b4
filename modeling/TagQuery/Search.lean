import TagQuery.Matching.Matcher
import TagQuery.Source

/-!
# Searching

A search tries records one after the other and yields those that pass every matcher, in their order.  Its results
can be refined by further matchers and keep the tags of the earlier ones.  Results are made as they are asked for;
records that are already at hand can also be searched in parts that do not depend on each other.
-/

namespace TagQuery

variable {ρ : Type} [Tagged ρ]

/-- The candidate after it has passed all the matchers, tried in order. -/
def Candidate.passing : List Matcher → Candidate ρ → Option (Candidate ρ)
  | [], c => some c
  | m :: ms, c =>
    match m.test c with
    | (true, d) => passing ms d
    | (false, _) => none

/-- The results of `source` that pass the matchers too. -/
def refine {ι : Type} (matchers : List Matcher) (source : Source ι (Candidate ρ)) : Source ι (Candidate ρ) :=
  source.filterMap (Candidate.passing matchers)

def search (matchers : List Matcher) : Source ρ (Candidate ρ) :=
  refine matchers (Source.each fun record => { record })

/-- The search for a query, compiled with the options. -/
def searchFor (query : String) (o : Options) : Source ρ (Candidate ρ) :=
  search [Matcher.compile query o]

/-- The search for a query with the usual order of conditions. -/
def searchText (query : String) (caseSensitive : Bool) (keywordTags : List String) : Source ρ (Candidate ρ) :=
  searchFor query { folding := .ofSensitive caseSensitive, keywordTags }

/-- The results of searching every part by itself, in the order of the parts. -/
def searchParts (matchers : List Matcher) (parts : List (List ρ)) : List (Candidate ρ) :=
  parts.flatMap (search matchers).all

end TagQuery
