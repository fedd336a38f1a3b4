import TagQuery.Failure
import TagQuery.Json.Read
import TagQuery.Options

/-!
# Options as JSON

Options are an object of three fields, or an array of their values in the same order; what is not given has its
default.  An object may have members of other names, which mean nothing.
-/

namespace TagQuery

namespace Folding

def name : Folding → String
  | .sensitive => "sensitive"
  | .insensitive => "insensitive"

def ofName? (text : String) : Option Folding :=
  if text = name .sensitive then some .sensitive
  else if text = name .insensitive then some .insensitive
  else none

/-- A folding is given by its name, or by an object with the name as its only member and nothing as its value. -/
def ofJson? : Json → Option Folding
  | .str text => ofName? text
  | .obj [(text, .null)] => ofName? text
  | _ => none

end Folding

namespace Options

/-- The value of the field in an object, which may give it once. -/
def field {α : Type} (name : String) (decode : Json → Option α) (default : α) (members : List (String × Json)) :
    Option α :=
  match members.filter fun m => m.1 == name with
  | [] => some default
  | [m] => decode m.2
  | _ => none

/-- The value at a place of an array, which may end before it. -/
def place {α : Type} (index : Nat) (decode : Json → Option α) (default : α) (items : List Json) : Option α :=
  match items[index]? with
  | some v => decode v
  | none => some default

def foldingField : String := "case_folding"

def tagsField : String := "keyword_tags"

def optimizeField : String := "optimize"

def ofJson? : Json → Option Options
  | .obj members => do
    let folding ← field foldingField Folding.ofJson? .sensitive members
    let keywordTags ← field tagsField Json.texts? [] members
    let optimize ← field optimizeField Json.bool? true members
    some { folding, keywordTags, optimize }
  | .arr items => do
    let folding ← place 0 Folding.ofJson? .sensitive items
    let keywordTags ← place 1 Json.texts? [] items
    let optimize ← place 2 Json.bool? true items
    if items.length ≤ 3 then some { folding, keywordTags, optimize } else none
  | _ => none

def toJson (o : Options) : Json :=
  .obj [(foldingField, .str o.folding.name), (tagsField, .arr (o.keywordTags.map .str)),
    (optimizeField, .bool o.optimize)]

/-- The options that a JSON text gives. -/
def parse (text : String) : Except Failure Options :=
  match (Json.parse? text).bind ofJson? with
  | some o => .ok o
  | none => .error .options

end Options

end TagQuery
