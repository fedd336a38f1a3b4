import TagQuery.Proofs.Spelling

/-!
# Scanning one text after another

How the tokens of a text come about from those of its parts.  Where a scan begins and which tokens it has before make
no difference but to the positions (`Scan.run_shift`), and a text in which nothing is wrong ends outside quotations
(`Scan.run_append`).  So after such a text a space, or an operator, begins a text anew: its tokens are those of the
first text, then the operator, then those of the second, moved (`Tokens.ofChars_append_space` and
`Tokens.ofChars_append_operator`).

`Scans text ls` says that the text has the lexemes `ls` and nothing wrong with its escapes and quotes.
-/

namespace TagQuery

/-- Whether the lexeme is one character, which ends the word before it. -/
def Lexeme.isOperator : Lexeme → Bool
  | .word _ => false
  | .opening | .closing | .not | .or => true

/-- The token in a text that begins `n` characters later. -/
def Token.shift (n : Nat) (t : Token) : Token :=
  { t with position := t.position + n }

theorem Token.shift_zero (t : Token) : t.shift 0 = t := rfl

def Diagnostic.shift (n : Nat) (d : Diagnostic) : Diagnostic :=
  { d with position := d.position + n }

theorem Diagnostic.shift_zero (d : Diagnostic) : d.shift 0 = d := rfl

namespace Scan

/-- The scan of a text that begins `n` characters later, after the tokens `before`, the latest first. -/
def shift (n : Nat) (before : List Token) (s : Scan) : Scan where
  tokens := s.tokens.map (Token.shift n) ++ before
  pending := s.pending.map fun w => { w with start := w.start + n }
  quote := s.quote.map (· + n)

section

variable (n : Nat) (before : List Token) (s : Scan) (position : Nat)

theorem letter_shift (c : Char) :
    (s.shift n before).letter (position + n) c = (s.letter position c).shift n before := by
  obtain ⟨tokens, pending, quote⟩ := s
  cases pending <;> rfl

theorem toggleQuote_shift :
    (s.shift n before).toggleQuote (position + n) = (s.toggleQuote position).shift n before := by
  obtain ⟨tokens, pending, quote⟩ := s
  cases pending <;> cases quote <;> rfl

theorem endWord_shift : (s.shift n before).endWord = s.endWord.shift n before := by
  obtain ⟨tokens, pending, quote⟩ := s
  rcases pending with _ | ⟨start, _ | ⟨c, letters⟩⟩ <;> rfl

theorem mark_shift (l : Lexeme) : (s.shift n before).mark (position + n) l = (s.mark position l).shift n before := by
  rw [mark, endWord_shift]
  rfl

theorem plain_shift (c : Char) : (s.shift n before).plain (position + n) c = (s.plain position c).shift n before := by
  unfold plain
  split <;> simp only [endWord_shift, mark_shift, letter_shift]

theorem finish_shift (trailing : List Diagnostic) :
    (s.shift n before).finish (trailing.map (Diagnostic.shift n)) =
      ⟨before.reverse ++ (s.finish trailing).tokens.map (Token.shift n),
        (s.finish trailing).diagnostics.map (Diagnostic.shift n)⟩ := by
  obtain ⟨tokens, pending, quote⟩ := s
  rw [finish, endWord_shift]
  cases quote <;> simp [finish, shift, Diagnostic.shift]

end

theorem run_operator {s : Scan} (hq : s.quote = none) (position : Nat) {l : Lexeme} (hl : l.isOperator = true)
    (rest : List Char) : s.run position (l.chars ++ rest) = (s.mark position l).run (position + 1) rest := by
  cases l with
  | word w => cases hl
  | _ => exact (run_cons rest (by decide) (by decide)).trans (by rw [hq]; rfl)

/-- What the equations before the last leave for the character. -/
theorem ne_escape {c : Char} {rest : List Char} (hn : c = '\\' → rest = [] → False)
    (hc : ∀ d more, c = '\\' → rest = d :: more → False) : c ≠ '\\' := by
  intro h
  cases rest with
  | nil => exact hn h rfl
  | cons d more => exact hc d more h rfl

theorem run_shift (n : Nat) (before : List Token) (s : Scan) (position : Nat) (text : List Char) :
    (s.shift n before).run (position + n) text =
      ⟨before.reverse ++ (s.run position text).tokens.map (Token.shift n),
        (s.run position text).diagnostics.map (Diagnostic.shift n)⟩ := by
  fun_induction run s position text with
  | case1 s position => exact finish_shift n before s []
  | case2 s position => exact finish_shift n before s [⟨.trailingEscape, position⟩]
  | case3 s position c rest ih => rw [run, letter_shift, Nat.add_right_comm, ih]
  | case4 s position rest ih => rw [run, toggleQuote_shift, Nat.add_right_comm, ih]
  | case5 s position c rest hn hc hq ih =>
    have hs : (s.shift n before).quote.isSome = s.quote.isSome := Option.isSome_map
    rw [run_cons rest (ne_escape hn hc) hq, hs, letter_shift, plain_shift, Nat.add_right_comm, ← ih]
    split <;> rfl

/-- After a text in which nothing is wrong the scan goes on outside quotations. -/
theorem run_append {s : Scan} {position : Nat} {x : List Char} (h : (s.run position x).diagnostics = []) :
    ∃ s' : Scan, s'.quote = none ∧ s.run position x = s'.finish [] ∧
      ∀ rest, s.run position (x ++ rest) = s'.run (position + x.length) rest := by
  fun_induction run s position x with
  | case1 s position =>
    refine ⟨s, ?_, rfl, fun rest => rfl⟩
    cases hq : s.quote with
    | none => rfl
    | some p => simp [finish, hq] at h
  | case2 s position => simp [finish] at h
  | case3 s position c x ih =>
    obtain ⟨s', hq, hf, hr⟩ := ih h
    refine ⟨s', hq, hf, fun rest => ?_⟩
    rw [List.cons_append, List.cons_append, run, hr, List.length_cons, List.length_cons, Nat.add_assoc,
      Nat.add_comm 2]
  | case4 s position x ih =>
    obtain ⟨s', hq, hf, hr⟩ := ih h
    refine ⟨s', hq, hf, fun rest => ?_⟩
    rw [List.cons_append, run, hr, List.length_cons, Nat.add_assoc, Nat.add_comm 1]
  | case5 s position c x hn hc hq ih =>
    obtain ⟨s', hs, hf, hr⟩ := ih h
    refine ⟨s', hs, hf, fun rest => ?_⟩
    rw [List.cons_append, run_cons _ (ne_escape hn hc) hq, hr, List.length_cons, Nat.add_assoc, Nat.add_comm 1]

end Scan

namespace Tokens

open Scan

/-- Outside quotations, the end of a word leaves nothing but the tokens. -/
private theorem endWord_of_quote {s : Scan} (h : s.quote = none) : s.endWord = ⟨s.endWord.tokens, none, none⟩ := by
  obtain ⟨tokens, pending, quote⟩ := s
  cases h
  rcases pending with _ | ⟨start, _ | ⟨c, letters⟩⟩ <;> rfl

/-- What comes after a space, or an operator, after a text in which nothing is wrong is scanned by itself. -/
theorem run_anew (before : List Token) (n : Nat) (y : List Char) :
    (⟨before, none, none⟩ : Scan).run n y =
      ⟨before.reverse ++ (ofChars y).tokens.map (Token.shift n), (ofChars y).diagnostics.map (Diagnostic.shift n)⟩ := by
  have h := run_shift n before {} 0 y
  rw [Nat.zero_add] at h
  exact h

theorem ofChars_append_space {x : List Char} (h : (ofChars x).diagnostics = []) (y : List Char) :
    ofChars (x ++ ' ' :: y) =
      ⟨(ofChars x).tokens ++ (ofChars y).tokens.map (Token.shift (x.length + 1)),
        (ofChars y).diagnostics.map (Diagnostic.shift (x.length + 1))⟩ := by
  obtain ⟨s, hq, hf, hr⟩ := run_append h
  have hx : (ofChars x).tokens = s.endWord.tokens.reverse := congrArg Tokens.tokens hf
  rw [ofChars, hr, run_cons y (by decide) (by decide), hq, Nat.zero_add]
  show s.endWord.run _ y = _
  rw [endWord_of_quote hq, run_anew, hx]

theorem ofChars_append_operator {x : List Char} (h : (ofChars x).diagnostics = []) {l : Lexeme}
    (hl : l.isOperator = true) (y : List Char) :
    ofChars (x ++ (l.chars ++ y)) =
      ⟨(ofChars x).tokens ++ ⟨l, x.length⟩ :: (ofChars y).tokens.map (Token.shift (x.length + 1)),
        (ofChars y).diagnostics.map (Diagnostic.shift (x.length + 1))⟩ := by
  obtain ⟨s, hq, hf, hr⟩ := run_append h
  have hx : (ofChars x).tokens = s.endWord.tokens.reverse := congrArg Tokens.tokens hf
  have he : s.mark x.length l = ⟨⟨l, x.length⟩ :: s.endWord.tokens, none, none⟩ := by
    rw [mark, endWord_of_quote hq]
  rw [ofChars, hr, Nat.zero_add, run_operator hq _ hl, he, run_anew, hx, List.reverse_cons, List.append_assoc]
  rfl

end Tokens

/-! ### The lexemes of a text -/

/-- The text has these lexemes, and nothing is wrong with its escapes and quotes. -/
structure Scans (text : List Char) (ls : List Lexeme) : Prop where
  diagnostics : (Tokens.ofChars text).diagnostics = []
  lexemes : (Tokens.ofChars text).lexemes = ls

namespace Scans

variable {x y : List Char} {ls ms : List Lexeme}

theorem map_lexeme_shift (n : Nat) (ts : List Token) :
    (ts.map (Token.shift n)).map Token.lexeme = ts.map Token.lexeme := by
  rw [List.map_map]
  rfl

theorem nil : Scans [] [] :=
  ⟨rfl, rfl⟩

theorem space (hx : Scans x ls) (hy : Scans y ms) : Scans (x ++ ' ' :: y) (ls ++ ms) := by
  have h := Tokens.ofChars_append_space hx.diagnostics y
  constructor
  · rw [h, hy.diagnostics, List.map_nil]
  · rw [h, Tokens.lexemes, List.map_append, map_lexeme_shift, ← hx.lexemes, ← hy.lexemes, Tokens.lexemes,
      Tokens.lexemes]

theorem operator (hx : Scans x ls) {l : Lexeme} (hl : l.isOperator = true) (hy : Scans y ms) :
    Scans (x ++ (l.chars ++ y)) (ls ++ l :: ms) := by
  have h := Tokens.ofChars_append_operator hx.diagnostics hl y
  constructor
  · rw [h, hy.diagnostics, List.map_nil]
  · rw [h, Tokens.lexemes, List.map_append, List.map_cons, map_lexeme_shift, ← hx.lexemes, ← hy.lexemes,
      Tokens.lexemes, Tokens.lexemes]

theorem word {w : List Char} (hw : w ≠ []) : Scans (escape w) [.word (String.ofList w)] := by
  obtain ⟨c, cs, rfl⟩ := List.exists_cons_of_ne_nil hw
  have he : escape (c :: cs) = escape [c] ++ escape cs := by simp [escape]
  obtain ⟨next, hc⟩ := Scan.run_escaped (escape cs) (s := {}) rfl 0 c
  obtain ⟨last, hl⟩ := Scan.run_letters [] [] 0 cs [c] next
  have hr : Tokens.ofChars (escape (c :: cs)) = (⟨[], some ⟨0, cs.reverse ++ [c]⟩, none⟩ : Scan).finish [] := by
    rw [List.append_nil] at hl
    rw [Tokens.ofChars, he, hc]
    exact hl
  constructor
  · rw [hr]
    rfl
  · rw [hr, Scan.finish, Scan.endWord_letters [] (by simp)]
    simp [Tokens.lexemes]

end Scans

end TagQuery
