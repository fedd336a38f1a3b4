import TagQuery.Query.Term

/-!
# Expressions

The meaning of a query is a list of expressions that must all hold.  `Expr.chars` writes an expression in the
query language, `Expr.length` counts its characters without the escapes, and `byLength` orders a list of
expressions by that count.
-/

namespace TagQuery

inductive Expr where
  | term (t : Term)
  | not (operand : Expr)
  | or (left right : Expr)
  /-- Expressions in brackets, which must all hold. -/
  | group (parts : List Expr)
  deriving Repr

namespace Expr

mutual

def chars : Expr → List Char
  | .term t => t.chars
  | .not e => '!' :: chars e
  | .or l r => chars l ++ [' ', '|', ' '] ++ chars r
  | .group es => '(' :: (joined es ++ [')'])

/-- Expressions separated by single spaces. -/
def joined : List Expr → List Char
  | [] => []
  | [e] => chars e
  | e :: es => chars e ++ ' ' :: joined es

end

def text (e : Expr) : String :=
  String.ofList e.chars

mutual

/-- The number of characters of the expression as typed, without escapes. -/
def length : Expr → Nat
  | .term t => t.length
  | .not e => 1 + length e
  | .or l r => length l + 3 + length r
  | .group es => 2 + (es.length - 1) + lengths es

def lengths : List Expr → Nat
  | [] => 0
  | e :: es => length e + lengths es

end

end Expr

/-- The expressions in order of length, the shortest first; those of one length keep their order. -/
def byLength (es : List Expr) : List Expr :=
  ((es.map fun e => (e.length, e)).mergeSort fun a b => decide (a.1 ≤ b.1)).map Prod.snd

end TagQuery
