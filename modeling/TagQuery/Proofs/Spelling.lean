import TagQuery.Proofs.Derivation

/-!
# Spelling

Every sequence of lexemes whose words have letters is the tokens of a text: `spell` writes each word with its special
characters escaped and puts a space after each lexeme, and reading that text gives the lexemes back and meets no
problem (`ofChars_spell`).  So every derivation within the nesting limit is read from a text (`ofText_spell`).
-/

namespace TagQuery

def Lexeme.chars : Lexeme → List Char
  | .word w => escape w.toList
  | .opening => ['(']
  | .closing => [')']
  | .not => ['!']
  | .or => ['|']

/-- A text with the given lexemes. -/
def spell (ls : List Lexeme) : List Char :=
  ls.flatMap fun l => l.chars ++ [' ']

namespace Scan

/-- The last equation of `run`: a character that is neither a backslash nor a quote. -/
theorem run_cons {s : Scan} {position : Nat} {c : Char} (rest : List Char) (he : c ≠ '\\') (hq : c ≠ '"') :
    s.run position (c :: rest) =
      (if s.quote.isSome then s.letter position c else s.plain position c).run (position + 1) rest := by
  rw [run]
  · exact fun h => absurd h he
  · exact fun _ _ h => absurd h he
  · exact hq

/-- Outside quotations a character without a meaning of its own is read as a letter. -/
theorem run_bare {s : Scan} (hs : s.quote = none) (position : Nat) {c : Char} (hc : isSpecial c = false)
    (rest : List Char) : s.run position (c :: rest) = (s.letter position c).run (position + 1) rest := by
  have hp : s.plain position c = s.letter position c := by
    unfold plain
    split <;> first | rfl | cases hc
  have he : c ≠ '\\' ∧ c ≠ '"' := by
    constructor <;> rintro rfl <;> cases hc
  rw [run_cons rest he.1 he.2, hs, hp]
  rfl

variable (tokens : List Token) (rest : List Char)

/-- A character that is escaped where it has to be is read as a letter. -/
theorem run_escaped {s : Scan} (hq : s.quote = none) (position : Nat) (c : Char) :
    ∃ next, s.run position (escape [c] ++ rest) = (s.letter position c).run next rest := by
  by_cases hc : isSpecial c = true
  · have he : escape [c] = ['\\', c] := by simp [escape, hc]
    rw [he]
    exact ⟨position + 2, rfl⟩
  · have he : escape [c] = [c] := by simp [escape, hc]
    rw [he]
    exact ⟨position + 1, run_bare hq position (by simpa using hc) rest⟩

theorem endWord_letters {start : Nat} {letters : List Char} (h : letters ≠ []) :
    (⟨tokens, some ⟨start, letters⟩, none⟩ : Scan).endWord =
      ⟨⟨.word (String.ofList letters.reverse), start⟩ :: tokens, none, none⟩ := by
  cases letters with
  | nil => exact absurd rfl h
  | cons c letters => rfl

theorem run_letters (start : Nat) (cs : List Char) (letters : List Char) (position : Nat) :
    ∃ next, (⟨tokens, some ⟨start, letters⟩, none⟩ : Scan).run position (escape cs ++ rest) =
      (⟨tokens, some ⟨start, cs.reverse ++ letters⟩, none⟩ : Scan).run next rest := by
  induction cs generalizing letters position with
  | nil => exact ⟨position, rfl⟩
  | cons c cs ih =>
    have he : escape (c :: cs) = escape [c] ++ escape cs := by simp [escape]
    obtain ⟨next, hc⟩ := run_escaped (escape cs ++ rest) (s := ⟨tokens, some ⟨start, letters⟩, none⟩) rfl position c
    obtain ⟨last, hcs⟩ := ih (c :: letters) next
    refine ⟨last, ?_⟩
    rw [he, List.append_assoc, hc, List.reverse_cons, List.append_assoc]
    exact hcs

theorem run_word {w : String} (hw : w ≠ "") (position : Nat) :
    ∃ next, (⟨tokens, none, none⟩ : Scan).run position (escape w.toList ++ ' ' :: rest) =
      (⟨⟨.word w, position⟩ :: tokens, none, none⟩ : Scan).run next rest := by
  obtain ⟨c, cs, hcs⟩ : ∃ c cs, w.toList = c :: cs :=
    List.exists_cons_of_ne_nil fun h => hw (String.toList_eq_nil_iff.1 h)
  have he : escape w.toList = escape [c] ++ escape cs := by simp [escape, hcs]
  obtain ⟨next, hc⟩ := run_escaped (escape cs ++ ' ' :: rest) (s := ⟨tokens, none, none⟩) rfl position c
  obtain ⟨last, hl⟩ := run_letters tokens (' ' :: rest) position cs [c] next
  have hletters : cs.reverse ++ [c] = w.toList.reverse := by rw [hcs, List.reverse_cons]
  have hne : w.toList.reverse ≠ [] := by simp [hcs]
  rw [hletters] at hl
  refine ⟨last + 1, ?_⟩
  rw [he, List.append_assoc, hc]
  refine hl.trans ?_
  show (endWord _).run _ _ = _
  rw [endWord_letters tokens hne, List.reverse_reverse, String.ofList_toList]

theorem run_spell (ls : List Lexeme) (hw : ∀ l ∈ ls, l ≠ .word "") (position : Nat) :
    ((⟨tokens, none, none⟩ : Scan).run position (spell ls)).lexemes = (tokens.map Token.lexeme).reverse ++ ls ∧
    ((⟨tokens, none, none⟩ : Scan).run position (spell ls)).diagnostics = [] := by
  induction ls generalizing tokens position with
  | nil => exact ⟨by simp [spell, run, finish, endWord, Tokens.lexemes], rfl⟩
  | cons l ls ih =>
    have more : ∀ l' ∈ ls, l' ≠ .word "" := fun l' hl' => hw l' (List.mem_cons_of_mem l hl')
    -- the lexeme and the space after it leave the scan between two words
    have step : ∃ at' next, (⟨tokens, none, none⟩ : Scan).run position (spell (l :: ls)) =
        (⟨⟨l, at'⟩ :: tokens, none, none⟩ : Scan).run next (spell ls) := by
      rw [spell, List.flatMap_cons, List.append_assoc]
      cases l with
      | word w =>
        have hne : w ≠ "" := fun h => hw (.word w) List.mem_cons_self (congrArg _ h)
        obtain ⟨next, h⟩ := run_word tokens (spell ls) hne position
        exact ⟨position, next, h⟩
      | opening | closing | not | or => exact ⟨position, position + 2, rfl⟩
    obtain ⟨at', next, h⟩ := step
    obtain ⟨hl, hd⟩ := ih (⟨l, at'⟩ :: tokens) more next
    rw [h, hl, hd]
    exact ⟨by simp, rfl⟩

end Scan

namespace Tokens

/-- Every lexeme but a word without letters can be written. -/
theorem ofChars_spell {ls : List Lexeme} (hw : ∀ l ∈ ls, l ≠ .word "") :
    (ofChars (spell ls)).lexemes = ls ∧ (ofChars (spell ls)).diagnostics = [] :=
  Scan.run_spell [] ls hw 0

end Tokens

namespace Query

theorem ofText_spell {g : Grammar.Conjunction} (hw : ∀ l ∈ g.lexemes, l ≠ .word "") (hc : g.cost ≤ nestingLimit) :
    (ofText (String.ofList (spell g.lexemes))).diagnostics = [] ∧
    (ofText (String.ofList (spell g.lexemes))).expressions = g.exprs := by
  obtain ⟨hl, hd⟩ := Tokens.ofChars_spell hw
  rw [ofText, String.toList_ofList]
  exact ofTokens_of_derivation hd hl.symm hc

end Query

end TagQuery
