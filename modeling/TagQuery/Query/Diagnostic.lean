/-!
# Diagnostics

What can be wrong with the text of a query, and where.  A position counts characters from the start of the text.
-/

namespace TagQuery

/-- The operators that need an operand: negation `!` and alternation `|`. -/
inductive Operator where
  | not
  | or
  deriving DecidableEq, Repr

def Operator.symbol : Operator → Char
  | .not => '!'
  | .or => '|'

inductive Problem where
  /-- The text ends in an escape character with nothing to escape. -/
  | trailingEscape
  /-- A quotation is still open at the end of the text. -/
  | unterminatedQuote
  /-- A group is still open at the end of the text. -/
  | unclosedGroup
  /-- A closing bracket ends no group. -/
  | unmatchedClose
  | missingOperand (operator : Operator)
  /-- A construct lies deeper than the nesting limit. -/
  | nestingTooDeep
  deriving DecidableEq, Repr

def Problem.message : Problem → String
  | .trailingEscape => "trailing escape with no character"
  | .unterminatedQuote => "missing closing quote"
  | .unclosedGroup => "missing closing ')' for group"
  | .unmatchedClose => "unexpected ')'"
  | .missingOperand op => "'" ++ op.symbol.toString ++ "' is missing an operand"
  | .nestingTooDeep => "query nested too deeply"

/-- A problem and the position of the character to blame for it. -/
structure Diagnostic where
  problem : Problem
  position : Nat
  deriving DecidableEq, Repr

def Diagnostic.message (d : Diagnostic) : String :=
  d.problem.message ++ " near char " ++ toString d.position

end TagQuery
