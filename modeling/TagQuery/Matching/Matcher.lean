import TagQuery.Matching.Candidate
import TagQuery.Options
import TagQuery.Query.Parsed

/-!
# Matchers

A matcher is a query compiled for evaluation: the conditions that a record must meet, in the order in which they are
tried.  Any text compiles (`Matcher.compile`); `Matcher.compileStrict` takes only a text without problems.
-/

namespace TagQuery

structure Matcher where
  /-- The expressions in the order in which they are tried. -/
  expressions : List Expr
  conditions : List Condition
  folding : Folding
  /-- What had to be put right to read the text. -/
  diagnostics : List Diagnostic
  deriving Repr

namespace Matcher

def ofQuery (q : Query) (o : Options) : Matcher :=
  let expressions := if o.optimize then byLength q.expressions else q.expressions
  { expressions
    conditions := expressions.map (Condition.ofExpr o.folding o.keywordTags)
    folding := o.folding
    diagnostics := q.diagnostics }

def compile (text : String) (o : Options) : Matcher :=
  ofQuery (Query.ofText text) o

def compileStrict (text : String) (o : Options) : Except Diagnostic Matcher :=
  (Query.strict text).map fun expressions => ofQuery ⟨expressions, []⟩ o

/-- The matcher's expressions in the query language. -/
def text (m : Matcher) : String :=
  String.ofList (Expr.joined m.expressions)

variable {ρ : Type} [Tagged ρ]

def accepts (m : Matcher) (record : ρ) : Bool :=
  m.conditions.all (·.holds m.folding record)

/-- The verdict on a candidate, and the candidate with the tags that the conditions reported on the way to it. -/
def test (m : Matcher) (c : Candidate ρ) : Bool × Candidate ρ :=
  c.meet m.folding m.conditions

end Matcher

end TagQuery
