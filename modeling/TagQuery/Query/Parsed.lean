import TagQuery.Query.Cursor

/-!
# Queries

A query is the list of expressions that its text asks for, with the diagnostics of what had to be put right to read
it.  Every text can be read (`Query.ofText`); `Query.strict` takes only a text without problems.
-/

namespace TagQuery

structure Query where
  /-- The expressions that must all hold, in the order of the text. -/
  expressions : List Expr
  /-- What was wrong with the text, by position. -/
  diagnostics : List Diagnostic
  deriving Repr

namespace Query

def ofTokens (t : Tokens) : Query :=
  let (expressions, c) := (Cursor.conjunction none [] ⟨t.tokens, 0, t.diagnostics.reverse⟩).1
  ⟨expressions, c.problems.reverse.mergeSort fun a b => decide (a.position ≤ b.position)⟩

def ofText (text : String) : Query :=
  ofTokens (Tokens.ofChars text.toList)

/-- The expressions of a text in which nothing is wrong, or the first thing that is. -/
def strict (text : String) : Except Diagnostic (List Expr) :=
  let q := ofText text
  match q.diagnostics with
  | d :: _ => .error d
  | [] => .ok q.expressions

end Query

end TagQuery
