import TagQuery.Text.Surrogates

/-!
# The tokens of JSON

JSON text is cut into brackets, separators, names of constants, numbers and strings, with white space between them
where one likes.  The white space of JSON is the space, the tab, the line feed and the carriage return.
-/

namespace TagQuery

inductive JsonToken where
  | beginArray
  | endArray
  | beginObject
  | endObject
  | colon
  | comma
  | null
  | bool (value : Bool)
  | num (literal : String)
  /-- A string, and the text it stands for if its surrogates are paired. -/
  | str (text : Option String)
  deriving DecidableEq, Repr

namespace JsonToken

/-! ### Numbers -/

def isDigit (c : Char) : Bool :=
  decide ('0' ≤ c) && decide (c ≤ '9')

def isExponent : List Char → Bool
  | [] => true
  | c :: rest =>
    let digits :=
      match rest with
      | '+' :: digits => digits
      | '-' :: digits => digits
      | digits => digits
    (c == 'e' || c == 'E') && !digits.isEmpty && digits.all isDigit

def isFraction : List Char → Bool
  | '.' :: c :: rest => isDigit c && isExponent (rest.dropWhile isDigit)
  | rest => isExponent rest

def isMagnitude : List Char → Bool
  | [] => false
  | '0' :: rest => isFraction rest
  | c :: rest => isDigit c && isFraction (rest.dropWhile isDigit)

/-- Whether the characters spell a number: an integer without leading zeros, then possibly a fraction and an
exponent. -/
def isNumber : List Char → Bool
  | '-' :: rest => isMagnitude rest
  | rest => isMagnitude rest

/-! ### Strings -/

def hexDigit? (c : Char) : Option Nat :=
  if isDigit c then some (c.toNat - '0'.toNat)
  else if 'a' ≤ c ∧ c ≤ 'f' then some (c.toNat - 'a'.toNat + 10)
  else if 'A' ≤ c ∧ c ≤ 'F' then some (c.toNat - 'A'.toNat + 10)
  else none

def hexCode? (a b c d : Char) : Option Nat := do
  pure ((((← hexDigit? a) * 16 + (← hexDigit? b)) * 16 + (← hexDigit? c)) * 16 + (← hexDigit? d))

/-- What a backslash and the character stand for together. -/
def unescaped? : Char → Option Char
  | '"' => some '"'
  | '\\' => some '\\'
  | '/' => some '/'
  | 'b' => some '\x08'
  | 'f' => some '\x0c'
  | 'n' => some '\n'
  | 'r' => some '\r'
  | 't' => some '\t'
  | _ => none

/-- Reads a string after its opening quote: the code points in it, added to those in `codes`, the latest first, and
what follows the closing quote. -/
def stringBody (codes : List Nat) : List Char → Option (List Nat × List Char)
  | [] => none
  | '"' :: rest => some (codes.reverse, rest)
  | '\\' :: 'u' :: a :: b :: c :: d :: rest =>
    match hexCode? a b c d with
    | some code => stringBody (code :: codes) rest
    | none => none
  | '\\' :: c :: rest =>
    match unescaped? c with
    | some plain => stringBody (plain.toNat :: codes) rest
    | none => none
  | c :: rest =>
    if c = '\\' ∨ c.toNat < 0x20 then none else stringBody (c.toNat :: codes) rest

theorem length_of_stringBody {codes found : List Nat} {text rest : List Char}
    (h : stringBody codes text = some (found, rest)) : rest.length < text.length := by
  fun_induction stringBody codes text <;> simp_all <;> omega

/-! ### Texts -/

def isSpace (c : Char) : Bool :=
  c == ' ' || c == '\t' || c == '\n' || c == '\r'

def ofMark? : Char → Option JsonToken
  | '[' => some .beginArray
  | ']' => some .endArray
  | '{' => some .beginObject
  | '}' => some .endObject
  | ':' => some .colon
  | ',' => some .comma
  | _ => none

/-- The characters that numbers and the names of constants are made of. -/
def isBare (c : Char) : Bool :=
  c.isAlphanum || c == '-' || c == '+' || c == '.'

/-- The number or constant that a run of bare characters spells. -/
def ofBare? (run : List Char) : Option JsonToken :=
  if run = ['n', 'u', 'l', 'l'] then some .null
  else if run = ['t', 'r', 'u', 'e'] then some (.bool true)
  else if run = ['f', 'a', 'l', 's', 'e'] then some (.bool false)
  else if isNumber run then some (.num (String.ofList run))
  else none

/-- The tokens of a text after those in `before`, the latest first. -/
def scan (before : List JsonToken) (text : List Char) : Option (List JsonToken) :=
  match text with
  | [] => some before.reverse
  | c :: rest =>
    if isSpace c then scan before rest
    else if c = '"' then
      match h : stringBody [] rest with
      | some (codes, after) =>
        have := length_of_stringBody h
        scan (.str ((joinSurrogates codes).map String.ofList) :: before) after
      | none => none
    else
      match ofMark? c with
      | some t => scan (t :: before) rest
      | none =>
        match ofBare? (c :: rest.takeWhile isBare) with
        | some t => scan (t :: before) (rest.dropWhile isBare)
        | none => none
termination_by text.length
decreasing_by
  · exact Nat.lt_succ_self rest.length
  · exact Nat.lt_succ_of_lt this
  · exact Nat.lt_succ_self rest.length
  · exact Nat.lt_succ_of_le (List.dropWhile_suffix isBare).length_le

def ofChars? (text : List Char) : Option (List JsonToken) :=
  scan [] text

end JsonToken

end TagQuery
