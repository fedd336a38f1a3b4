import TagQuery.Text.Lowercase

/-!
# Case folding

Whether a search tells capital from small letters.
-/

namespace TagQuery

inductive Folding where
  | sensitive
  | insensitive
  deriving DecidableEq, Repr

namespace Folding

def ofSensitive (isSensitive : Bool) : Folding :=
  if isSensitive then .sensitive else .insensitive

def isSensitive : Folding → Bool
  | .sensitive => true
  | .insensitive => false

/-- The text that two texts must share to count as equal. -/
def fold : Folding → String → String
  | .sensitive, text => text
  | .insensitive, text => String.ofList (lowercase text.toList)

end Folding

end TagQuery
