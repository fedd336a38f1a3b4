import TagQuery.Query.Diagnostic

/-!
# Tokens

The text of a query is cut into words, brackets and operators.  Spaces separate words.  A double quote opens or
closes a quotation, in which spaces, brackets and operators are letters like any other, and is itself dropped;
a backslash makes the next character a letter, inside a quotation and outside.  A word without letters is no token.
-/

namespace TagQuery

inductive Lexeme where
  | word (text : String)
  | opening
  | closing
  | not
  | or
  deriving DecidableEq, Repr

/-- A lexeme and the position of its first character in the text, quotes and escapes included. -/
structure Token where
  lexeme : Lexeme
  position : Nat
  deriving DecidableEq, Repr

/-- A word that has begun but not ended: where it began and its letters, the latest first. -/
structure Pending where
  start : Nat
  letters : List Char
  deriving DecidableEq, Repr

/-- What has been made of the text so far: the tokens, the latest first, the word that is being read, and the
position of the quote that opened the quotation in force. -/
structure Scan where
  tokens : List Token := []
  pending : Option Pending := none
  quote : Option Nat := none
  deriving DecidableEq, Repr

namespace Scan

/-- The word that the character at `position` belongs to. -/
def begun (s : Scan) (position : Nat) : Pending :=
  s.pending.getD ⟨position, []⟩

def letter (s : Scan) (position : Nat) (c : Char) : Scan :=
  let word := s.begun position
  { s with pending := some { word with letters := c :: word.letters } }

def toggleQuote (s : Scan) (position : Nat) : Scan :=
  { s with
    pending := some (s.begun position)
    quote := if s.quote.isSome then none else some position }

/-- Ends the word that is being read; without letters it leaves nothing. -/
def endWord (s : Scan) : Scan :=
  match s.pending with
  | some ⟨start, c :: letters⟩ =>
    { s with tokens := ⟨.word (String.ofList (c :: letters).reverse), start⟩ :: s.tokens, pending := none }
  | _ => { s with pending := none }

def mark (s : Scan) (position : Nat) (lexeme : Lexeme) : Scan :=
  let ended := s.endWord
  { ended with tokens := ⟨lexeme, position⟩ :: ended.tokens }

/-- Takes a character that is neither escaped nor quoted, nor a backslash or a quote. -/
def plain (s : Scan) (position : Nat) : Char → Scan
  | ' ' => s.endWord
  | '(' => s.mark position .opening
  | ')' => s.mark position .closing
  | '!' => s.mark position .not
  | '|' => s.mark position .or
  | c => s.letter position c

end Scan

/-- The tokens of a text in order, and what was wrong with its escapes and quotes. -/
structure Tokens where
  tokens : List Token
  diagnostics : List Diagnostic
  deriving DecidableEq, Repr

def Scan.finish (s : Scan) (trailing : List Diagnostic) : Tokens where
  tokens := s.endWord.tokens.reverse
  diagnostics := trailing ++ (s.quote.map fun p => ⟨.unterminatedQuote, p⟩).toList

/-- Reads the rest of a text, the next character of which is at `position`. -/
def Scan.run (s : Scan) (position : Nat) : List Char → Tokens
  | [] => s.finish []
  | ['\\'] => s.finish [⟨.trailingEscape, position⟩]
  | '\\' :: c :: rest => (s.letter position c).run (position + 2) rest
  | '"' :: rest => (s.toggleQuote position).run (position + 1) rest
  | c :: rest =>
    (if s.quote.isSome then s.letter position c else s.plain position c).run (position + 1) rest

def Tokens.ofChars (text : List Char) : Tokens :=
  Scan.run {} 0 text

end TagQuery
