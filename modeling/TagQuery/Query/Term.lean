import TagQuery.Text.Blank
import TagQuery.Text.Split

/-!
# Terms

A word of a query asks for an exact value of a tag (`tag==content`), for a value that contains a text
(`tag=content`), or for a text in any of the keyword tags.  `Term.ofWord` reads a word, `Term.chars` writes a term
with the characters escaped that would end a word or begin a quotation.
-/

namespace TagQuery

inductive Term where
  | exact (tag content : String)
  | contains (tag content : String)
  | keyword (content : String)
  deriving DecidableEq, Repr

/-- The text without the double quotes that enclose it; a quote at one end only stays. -/
def unquote : List Char → List Char
  | '"' :: rest => if rest.getLast? = some '"' then rest.dropLast else '"' :: rest
  | text => text

/-- The content of a term that is not exact: blanks at the ends go, and then one pair of quotes. -/
def looseContent (text : List Char) : String :=
  String.ofList (unquote (trim text))

namespace Term

def ofChars (word : List Char) : Term :=
  match splitAtFirst ['=', '='] word with
  | some (tag, content) => .exact (String.ofList tag) (String.ofList content)
  | none =>
    match splitAtFirst ['='] word with
    | some (tag, content) => .contains (String.ofList tag) (looseContent content)
    | none => .keyword (looseContent word)

/-- The term that a word stands for.  The first `==` makes it exact; otherwise the first `=` ends the tag. -/
def ofWord (word : String) : Term :=
  ofChars word.toList

/-- The number of characters of the term as typed, without escapes. -/
def length : Term → Nat
  | .exact tag content => tag.length + 2 + content.length
  | .contains tag content => tag.length + 1 + content.length
  | .keyword content => content.length

end Term

/-- The characters that mean something else than themselves in a query. -/
def isSpecial (c : Char) : Bool :=
  c == ' ' || c == '"' || c == '\\' || c == '(' || c == ')' || c == '!' || c == '|'

/-- Writes a text so that it is read as letters of one word. -/
def escape (text : List Char) : List Char :=
  text.flatMap fun c => if isSpecial c then ['\\', c] else [c]

def Term.chars : Term → List Char
  | .exact tag content => escape tag.toList ++ ['=', '='] ++ escape content.toList
  | .contains tag content => escape tag.toList ++ ['='] ++ escape content.toList
  | .keyword content => escape content.toList

def Term.text (t : Term) : String :=
  String.ofList t.chars

end TagQuery
