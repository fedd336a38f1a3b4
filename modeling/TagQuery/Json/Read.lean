import TagQuery.Json.Basic
import TagQuery.Json.Token

/-!
# Reading JSON

A text is JSON if its tokens make up exactly one value.  The tokens are taken one after the other; what has been
opened and not closed is kept in a list of frames, the innermost first.
-/

namespace TagQuery

namespace Json

/-- An array or object that is being read: its items or members so far, the latest first, and for an object the name
of the member whose value comes next. -/
inductive Frame where
  | array (items : List Json)
  | object (members : List (Option String × Json)) (name : Option String)

/-- What has been read of a value, with the frames around it. -/
inductive Reading where
  /-- A value comes next. -/
  | value (outer : List Frame)
  /-- An array has begun. -/
  | array (outer : List Frame)
  /-- An object has begun. -/
  | object (outer : List Frame)
  /-- The name of a further member comes next. -/
  | name (members : List (Option String × Json)) (outer : List Frame)
  /-- The colon after a name comes next. -/
  | colon (members : List (Option String × Json)) (name : Option String) (outer : List Frame)
  /-- A value has ended. -/
  | ended (v : Json) (outer : List Frame)

/-- The object with the members, given the latest first. -/
def ofMembers (members : List (Option String × Json)) : Json :=
  match members.reverse.mapM fun m => m.1.map fun name => (name, m.2) with
  | some ms => .obj ms
  | none => .illFormed

namespace Reading

/-- Takes the first token of a value. -/
def start (outer : List Frame) : JsonToken → Option Reading
  | .beginArray => some (.array outer)
  | .beginObject => some (.object outer)
  | .null => some (.ended .null outer)
  | .bool b => some (.ended (.bool b) outer)
  | .num literal => some (.ended (.num literal) outer)
  | .str (some text) => some (.ended (.str text) outer)
  | .str none => some (.ended .illFormed outer)
  | .endArray | .endObject | .colon | .comma => none

def step : Reading → JsonToken → Option Reading
  | .value outer, t => start outer t
  | .array outer, .endArray => some (.ended (.arr []) outer)
  | .array outer, t => start (.array [] :: outer) t
  | .object outer, .endObject => some (.ended (.obj []) outer)
  | .object outer, .str s => some (.colon [] s outer)
  | .name members outer, .str s => some (.colon members s outer)
  | .colon members s outer, .colon => some (.value (.object members s :: outer))
  | .ended v (.array items :: outer), .comma => some (.value (.array (v :: items) :: outer))
  | .ended v (.array items :: outer), .endArray => some (.ended (.arr (v :: items).reverse) outer)
  | .ended v (.object members s :: outer), .comma => some (.name ((s, v) :: members) outer)
  | .ended v (.object members s :: outer), .endObject => some (.ended (ofMembers ((s, v) :: members)) outer)
  | _, _ => none

def result? : Reading → Option Json
  | .ended v [] => some v
  | _ => none

end Reading

/-- The value that the tokens make up. -/
def ofTokens? (tokens : List JsonToken) : Option Json :=
  (tokens.foldlM Reading.step (.value [])).bind Reading.result?

/-- The value that a text stands for, if it is JSON. -/
def parse? (text : String) : Option Json :=
  (JsonToken.ofChars? text.toList).bind ofTokens?

end Json

end TagQuery
