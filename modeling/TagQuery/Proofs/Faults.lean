import TagQuery.Proofs.Recovery

/-!
# What is wrong with the tokens

If nothing lies too deep, reading some tokens reports what is wrong with each of them and nothing else
(`ofText_faults`).  Whether something is wrong with a token can be seen from the tokens on both sides of it: a closing
bracket without a partner, the last of some negations that no operand follows, a bar without an operand before it or
after it (`fault`).  An opening bracket is reported if it is still open after the last token.

`flaws` finds the same in one pass, with the brackets that are open and whether an operand has just ended.  What is
reported while an operand is read are the flaws of the tokens that are taken (`negation_flaws` and the lemmas beside
it).
-/

namespace TagQuery

open Cursor

/-- What is wrong with a lexeme between the tokens before it, the nearest first, and those after it. -/
def fault (before : List Token) (l : Lexeme) (after : List Token) : Option Problem :=
  match l with
  | .word _ | .opening => none
  | .closing => if (openBrackets before).isEmpty then some .unmatchedClose else none
  | .not => if startsOperand after then none else some (.missingOperand .not)
  | .or => if endsOperand before && operandFollows after then none else some (.missingOperand .or)

/-- What is wrong with the tokens that come after `before`, apart from brackets that stay open. -/
def faultsAfter (before : List Token) : List Token → List Diagnostic
  | [] => []
  | t :: after => ((fault before t.lexeme after).map (⟨·, t.position⟩)).toList ++ faultsAfter (t :: before) after

def unclosed (opened : List Token) : List Diagnostic :=
  opened.map fun t => ⟨.unclosedGroup, t.position⟩

def faults (ts : List Token) : List Diagnostic :=
  faultsAfter [] ts ++ unclosed (openBrackets ts.reverse)

/-! ### The faults in one pass -/

/-- What is wrong with the tokens that are left when the brackets `opened` are open, the innermost first; `ended` tells
whether an operand has just ended. -/
def flaws (opened : List Token) (ended : Bool) : List Token → List Diagnostic
  | [] => unclosed opened
  | ⟨.word _, _⟩ :: after => flaws opened true after
  | ⟨.opening, p⟩ :: after => flaws (⟨.opening, p⟩ :: opened) false after
  | ⟨.closing, p⟩ :: after =>
    match opened with
    | [] => ⟨.unmatchedClose, p⟩ :: flaws [] false after
    | _ :: opened => flaws opened true after
  | ⟨.not, p⟩ :: after =>
    if startsOperand after then flaws opened false after else ⟨.missingOperand .not, p⟩ :: flaws opened false after
  | ⟨.or, p⟩ :: after =>
    if ended && operandFollows after then flaws opened false after
    else ⟨.missingOperand .or, p⟩ :: flaws opened false after

theorem flaws_eq_faultsAfter (before ts : List Token) : flaws (openBrackets before) (endsOperand before) ts =
    faultsAfter before ts ++ unclosed (openBrackets (ts.reverse ++ before)) := by
  induction ts generalizing before with
  | nil => rfl
  | cons t after ih =>
    obtain ⟨l, p⟩ := t
    rw [faultsAfter, List.append_assoc, List.reverse_cons, List.append_assoc]
    have ih := ih (⟨l, p⟩ :: before)
    cases l with
    | word w => exact ih
    | opening => exact ih
    | closing =>
      rcases hb : openBrackets before with _ | ⟨t, st⟩
      · have he : endsOperand (⟨.closing, p⟩ :: before) = false := by simp [endsOperand, hb]
        rw [openBrackets, hb, he] at ih
        rw [fault, hb]
        exact congrArg _ ih
      · have he : endsOperand (⟨.closing, p⟩ :: before) = true := by simp [endsOperand, hb]
        rw [openBrackets, hb, he] at ih
        rw [fault, hb]
        exact ih
    | not =>
      rw [flaws, fault]
      split
      · exact ih
      · exact congrArg _ ih
    | or =>
      rw [flaws, fault]
      split
      · exact ih
      · exact congrArg _ ih

theorem faults_eq_flaws (ts : List Token) : faults ts = flaws [] false ts := by
  have h := flaws_eq_faultsAfter [] ts
  rw [List.append_nil] at h
  exact h.symm

/-- An operand can come right after another one. -/
theorem flaws_of_startsOperand {ts : List Token} (starts : startsOperand ts = true) (opened : List Token)
    (ended : Bool) : flaws opened ended ts = flaws opened false ts := by
  match ts, starts with
  | ⟨.word _, _⟩ :: _, _ => rfl
  | ⟨.opening, _⟩ :: _, _ => rfl
  | ⟨.not, _⟩ :: _, _ => rfl

namespace Cursor

/-- A shallow reading gives an operand exactly if one follows. -/
theorem operandFollows_eq_isSome {c d : Cursor} {r : Option Expr} (h : ReadsNegation c r d) (hd : d.Shallow) :
    operandFollows c.rest = r.isSome := by
  have hm := negation_mends h hd 0
  cases r with
  | none => exact hm.1
  | some e => exact hm.1

/-- The brackets that are open inside the group opened at `opened`, if the brackets `outer` are open outside. -/
def openWithin (opened : Option Nat) (outer : List Token) : List Token :=
  match opened with
  | some p => ⟨.opening, p⟩ :: outer
  | none => []

/-- What is wrong with the tokens after a group; nothing comes after the query. -/
def flawsEnd (opened : Option Nat) (outer after : List Token) : List Diagnostic :=
  if opened.isSome then flaws outer true after else []

mutual

theorem conjunction_flaws {opened c es d} : ReadsConjunction opened c es d → d.Shallow → ∀ outer ended,
    (ended = true → c.next ≠ some .or) →
      (flaws (openWithin opened outer) ended c.rest ++ c.problems).Perm (flawsEnd opened outer d.rest ++ d.problems)
  | .unclosed, _, _, _, _ => List.perm_middle.symm
  | .done, _, _, _, _ => .refl _
  | .close, _, _, _, _ => .refl _
  | .unmatched h, hd, outer, _, _ => List.perm_middle.symm.trans (conjunction_flaws h hd outer false nofun)
  | .strayOr h, hd, outer, ended, he => by
    have ih := conjunction_flaws h hd outer false nofun
    -- a bar after an operand would have been read with the alternation
    cases ended with
    | true => exact absurd rfl (he rfl)
    | false => exact List.perm_middle.symm.trans ih
  | .item starts ha h, hd, outer, ended, _ => by
    obtain ⟨ended', he', hp⟩ := alternation_flaws ha (hd.of_suffix (conjunction_keeps h).2) (openWithin _ outer)
    rw [flaws_of_startsOperand starts]
    exact hp.trans (conjunction_flaws h hd outer ended' he')

theorem alternation_flaws {c r d} : ReadsAlternation c r d → d.Shallow → ∀ opened,
    ∃ ended, (ended = true → d.next ≠ some .or) ∧
      (flaws opened false c.rest ++ c.problems).Perm (flaws opened ended d.rest ++ d.problems)
  | .nothing h, hd, opened => ⟨false, nofun, negation_flaws h hd opened⟩
  | .operands h hs, hd, opened => by
    have hn := negation_flaws h (hd.of_suffix (alternatives_keeps hs).2) opened
    obtain ⟨ended, he, hp⟩ := alternatives_flaws hs hd opened
    exact ⟨ended, he, hn.trans hp⟩

theorem alternatives_flaws {left links c e d} : ReadsAlternatives left links c e d → d.Shallow → ∀ opened,
    ∃ ended, (ended = true → d.next ≠ some .or) ∧
      (flaws opened true c.rest ++ c.problems).Perm (flaws opened ended d.rest ++ d.problems)
  | .stop h, _, _ => ⟨true, fun _ => h, .refl _⟩
  | .link _ h hs, hd, opened => by
    have hm := hd.of_suffix (alternatives_keeps hs).2
    have hn := negation_flaws h hm opened
    have hf : operandFollows _ = true := operandFollows_eq_isSome h hm
    obtain ⟨ended, he, hp⟩ := alternatives_flaws hs hd opened
    refine ⟨ended, he, ?_⟩
    rw [flaws, Bool.true_and, if_pos hf]
    exact hn.trans hp
  | .missing (p := p) _ h, hd, opened => by
    have hm := hd.of_suffix (List.suffix_cons ..)
    have hn := negation_flaws h hm opened
    have hf : operandFollows _ = false := operandFollows_eq_isSome h hm
    refine ⟨false, nofun, ?_⟩
    rw [flaws, Bool.true_and, if_neg (Bool.eq_false_iff.1 hf)]
    exact (hn.cons ⟨.missingOperand .or, p⟩).trans List.perm_middle.symm
  | .cut _, hd, _ => absurd hd not_shallow_cut

theorem negation_flaws {c r d} : ReadsNegation c r d → d.Shallow → ∀ opened,
    (flaws opened false c.rest ++ c.problems).Perm (flaws opened r.isSome d.rest ++ d.problems)
  | .negated starts _ h, hd, opened => by
    have ih := negation_flaws h hd opened
    rw [flaws, if_pos starts, Option.isSome_map]
    exact ih
  | .cut _ _, hd, _ => absurd hd not_shallow_cut
  | .missing starts, _, opened => by
    rw [flaws, if_neg (Bool.eq_false_iff.1 starts)]
    exact List.perm_middle.symm
  | .primary _ h, hd, opened => primary_flaws h hd opened

theorem primary_flaws {c r d} : ReadsPrimary c r d → d.Shallow → ∀ opened,
    (flaws opened false c.rest ++ c.problems).Perm (flaws opened r.isSome d.rest ++ d.problems)
  | .word, _, _ => .refl _
  | .group _ h, hd, opened => conjunction_flaws h hd opened false nofun
  | .cut _, hd, _ => absurd hd not_shallow_cut
  | .nothing _, _, _ => .refl _

end

end Cursor

namespace Query

/-- A reading in which nothing lies too deep adds one diagnostic for each thing that is wrong with the tokens. -/
theorem ofTokens_faults {t : Tokens} (h : (ofTokens t).Shallow) :
    (ofTokens t).diagnostics.Perm (t.diagnostics ++ faults t.tokens) := by
  obtain ⟨es, d, hr, hd, -, hps⟩ := exists_shallow_reads h
  have hf := conjunction_flaws hr hd [] false nofun
  rw [faults_eq_flaws]
  refine hps.trans (hf.symm.trans ?_)
  exact ((List.reverse_perm _).append_left _).trans List.perm_append_comm

/-- If nothing in a text lies too deep, the diagnostics are those of its escapes and quotes and one for each thing that
is wrong with its tokens. -/
theorem ofText_faults (text : String) (h : (ofText text).Shallow) : (ofText text).diagnostics.Perm
    ((Tokens.ofChars text.toList).diagnostics ++ faults (Tokens.ofChars text.toList).tokens) :=
  ofTokens_faults h

/-- Every kind of fault in one text, and a quotation that is not closed. -/
theorem ofText_faults_quoted : (ofText ") (a | !) !! | (\"b").Shallow ∧
    (ofText ") (a | !) !! | (\"b").diagnostics.Perm [⟨.unterminatedQuote, 16⟩, ⟨.unmatchedClose, 0⟩,
      ⟨.missingOperand .or, 5⟩, ⟨.missingOperand .not, 7⟩, ⟨.missingOperand .not, 11⟩, ⟨.missingOperand .or, 13⟩,
      ⟨.unclosedGroup, 15⟩] := by
  have shallow : (ofText ") (a | !) !! | (\"b").Shallow := ofTokens_shallow_iff.2 (by decide +kernel)
  refine ⟨shallow, (ofText_faults _ shallow).trans (.of_eq ?_)⟩
  decide +kernel

end Query

end TagQuery
