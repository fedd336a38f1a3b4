import TagQuery.Failure
import TagQuery.Json.Read
import TagQuery.Matching.Candidate
import TagQuery.Record.Track

/-!
# Tracks as JSON

A track is an object of its tags; a single value is a string, a list of values an array of strings.  Of members of
one name the last counts.
-/

namespace TagQuery

def Entry.ofJson? : Json → Option Entry
  | .str text => some (.one text)
  | v => v.texts?.map .many

def Entry.toJson : Entry → Json
  | .one value => .str value
  | .many values => .arr (values.map .str)

namespace Track

def ofJson? : Json → Option Track
  | .obj members => (members.mapM fun m => (Entry.ofJson? m.2).map fun e => (m.1, e)).map ofEntries
  | _ => none

def toJson (t : Track) : Json :=
  .obj (t.tags.map fun m => (m.1, m.2.toJson))

def listOfJson? : Json → Option (List Track)
  | .arr items => items.mapM ofJson?
  | _ => none

/-- The tracks that a JSON text lists. -/
def parseList (text : String) : Except Failure (List Track) :=
  match (Json.parse? text).bind listOfJson? with
  | some tracks => .ok tracks
  | none => .error .tracks

end Track

def Candidate.toJson (c : Candidate Track) : Json :=
  .obj [("track", c.record.toJson), ("on_tags", .arr (c.onTags.map .str))]

end TagQuery
