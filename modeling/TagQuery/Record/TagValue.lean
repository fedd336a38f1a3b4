/-!
# Tag values

A record stores for a tag one value or a list of values.  Asked for a tag it answers with what is stored, if
anything is.  A tag without an entry, with the single value `__null__` or with an empty list is absent, and an
absent tag shows itself as the one value `none` (`TagValue.presented`).
-/

namespace TagQuery

/-- The value that stands for the absence of a value. -/
def absentMark : String := "__null__"

/-- What stands between the values of a list when they are shown as one. -/
def valueSeparator : String := " / "

inductive Entry where
  | one (value : String)
  | many (values : List String)
  deriving DecidableEq, Repr

/-- The values of a list become one text. -/
def Entry.joined : Entry → Entry
  | .one value => .one value
  | .many values => .one (valueSeparator.intercalate values)

abbrev TagValue := Option Entry

namespace TagValue

def isAbsent : TagValue → Bool
  | none => true
  | some (.one value) => value == absentMark
  | some (.many values) => values.isEmpty

/-- The values that a condition is tried on, in order. -/
def presented (v : TagValue) : List (Option String) :=
  if isAbsent v then [none]
  else
    match v with
    | none => [none]
    | some (.one value) => [some value]
    | some (.many values) => values.map some

/-- Tries the values in order up to the first that passes. -/
def anyM {m : Type → Type} [Monad m] (v : TagValue) (passes : Option String → m Bool) : m Bool :=
  (presented v).anyM passes

def any (v : TagValue) (passes : Option String → Bool) : Bool :=
  (presented v).any passes

end TagValue

/-- Records that can be asked for a tag. -/
class Tagged (ρ : Type) where
  value : ρ → String → TagValue

end TagQuery
