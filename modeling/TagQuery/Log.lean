import TagQuery.Matching.Matcher
import TagQuery.Text.Quoted

/-!
# Log lines

What is worth noting about the compilation of a query and about a search.
-/

namespace TagQuery

inductive LogLevel where
  | warn
  | debug
  deriving DecidableEq, Repr

structure LogLine where
  level : LogLevel
  message : String
  deriving DecidableEq, Repr

def Folding.label : Folding → String
  | .sensitive => "Sensitive"
  | .insensitive => "Insensitive"

namespace LogLine

/-- The lines about the compilation of a query: one for each problem that was put right, then one for the result. -/
def compiled (query : String) (m : Matcher) : List LogLine :=
  let shown := quoted query
  m.diagnostics.map (fun d => ⟨.warn, "Malformed search query " ++ shown ++ ": " ++ d.message⟩) ++
    [⟨.debug, "Compiled search query " ++ m.text ++ " (" ++ toString m.conditions.length ++ " conditions, " ++
      m.folding.label ++ ")"⟩]

/-- The line about a search of records that were at hand. -/
def searched (found total : Nat) : LogLine :=
  ⟨.debug, "Parallel track search matched " ++ toString found ++ " of " ++ toString total ++ " records"⟩

end LogLine

end TagQuery
