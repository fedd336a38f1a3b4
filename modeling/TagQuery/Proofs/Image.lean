import TagQuery.Proofs.Spelling
import TagQuery.Proofs.Trees
import TagQuery.Proofs.Words

/-!
# What texts are read as

Whatever is wrong with a text, what is read from it are the expressions of a derivation, whose words are words of the
text in their order (`Cursor.conjunction_recovers`).  So the expressions are grammatical, their terms have words, and
reading has kept their cost within the limit; and these conditions suffice, even for a text without problems
(`Query.exists_ofText_iff`).
-/

namespace TagQuery

open Cursor Grammar
open scoped List

/-! ### Reading recovers a derivation -/

namespace Cursor

theorem groupEnd_suffix (unclosed : Nat) (ts : List Token) : groupEnd unclosed ts <:+ ts := by
  fun_induction groupEnd unclosed ts with
  | case1 => exact List.suffix_refl _
  | case2 _ _ _ ih => exact ih.trans (List.suffix_cons ..)
  | case3 => exact List.suffix_refl _
  | case4 _ _ _ ih => exact ih.trans (List.suffix_cons ..)
  | case5 _ _ _ _ _ _ ih => exact ih.trans (List.suffix_cons ..)

/-- The words that are left. -/
def words (c : Cursor) : List String :=
  TagQuery.words (c.rest.map Token.lexeme)

theorem words_sublist_of_suffix {c d : Cursor} (h : d.rest <:+ c.rest) : d.words <+ c.words :=
  (h.map Token.lexeme).sublist.filterMap _

/-- What comes of reading an operand: nothing but the words that are left over, or the expression of a derivation
whose words come before them. -/
def Recovers {α : Type} (lexemes : α → List Lexeme) (expr : α → Expr) (c d : Cursor) : Option Expr → Prop
  | none => d.words <+ c.words
  | some e => ∃ a : α, expr a = e ∧ TagQuery.words (lexemes a) ++ d.words <+ c.words

mutual

theorem conjunction_recovers {opened c es d} : ReadsConjunction opened c es d →
    ∃ g : Conjunction, g.exprs = es ∧ TagQuery.words g.lexemes ++ d.words <+ c.words
  | .unclosed => ⟨.nil, rfl, List.Sublist.refl _⟩
  | .done => ⟨.nil, rfl, List.Sublist.refl _⟩
  | .close => ⟨.nil, rfl, List.Sublist.refl _⟩
  | .unmatched h => by
    obtain ⟨g, hg, hw⟩ := conjunction_recovers h
    exact ⟨g, hg, hw⟩
  | .strayOr h => by
    obtain ⟨g, hg, hw⟩ := conjunction_recovers h
    exact ⟨g, hg, hw⟩
  | .item (e := r) _ ha h => by
    have ia := alternation_recovers ha
    have ih := conjunction_recovers h
    obtain ⟨g, rfl, hg⟩ := ih
    cases r with
    | none => exact ⟨g, rfl, hg.trans ia⟩
    | some e =>
      obtain ⟨a, rfl, hal⟩ := ia
      refine ⟨.cons a g, rfl, ?_⟩
      rw [Conjunction.lexemes, words_append, List.append_assoc]
      exact (hg.append_left _).trans hal

theorem alternation_recovers {c r d} : ReadsAlternation c r d → Recovers Alternation.lexemes Alternation.expr c d r
  | .nothing h => negation_recovers h
  | .operands h hs => by
    have ih := negation_recovers h
    obtain ⟨os, rfl, hos⟩ := alternatives_recovers hs
    obtain ⟨n, rfl, hn⟩ := ih
    refine ⟨.mk n os, rfl, ?_⟩
    rw [Alternation.lexemes, words_append, List.append_assoc]
    exact (hos.append_left _).trans hn

theorem alternatives_recovers {left links c e d} : ReadsAlternatives left links c e d →
    ∃ os : Operands, os.fold left = e ∧ TagQuery.words os.lexemes ++ d.words <+ c.words
  | .stop _ => ⟨.nil, rfl, List.Sublist.refl _⟩
  | .link _ h hs => by
    have ih := negation_recovers h
    obtain ⟨os, rfl, hos⟩ := alternatives_recovers hs
    obtain ⟨n, rfl, hn⟩ := ih
    refine ⟨.cons n os, rfl, ?_⟩
    rw [Operands.lexemes, words_or, words_append, List.append_assoc]
    exact (hos.append_left _).trans hn
  | .missing _ h => ⟨.nil, rfl, negation_recovers h⟩
  | .cut _ => by
    refine ⟨.nil, rfl, words_sublist_of_suffix ?_⟩
    exact (groupEnd_suffix ..).trans (List.suffix_cons ..)

theorem negation_recovers {c r d} : ReadsNegation c r d → Recovers Negation.lexemes Negation.expr c d r
  | .negated (e := r) _ _ h => by
    have ih := negation_recovers h
    cases r with
    | none => exact ih
    | some e =>
      obtain ⟨n, rfl, hn⟩ := ih
      exact ⟨.not n, rfl, hn⟩
  | .cut _ _ => by
    refine words_sublist_of_suffix ?_
    exact (groupEnd_suffix ..).trans (List.suffix_cons ..)
  | .missing _ => words_sublist_of_suffix (List.suffix_cons ..)
  | .primary (e := r) _ h => by
    have ih := primary_recovers h
    cases r with
    | none => exact ih
    | some e =>
      obtain ⟨p, rfl, hp⟩ := ih
      exact ⟨.primary p, rfl, hp⟩

theorem primary_recovers {c r d} : ReadsPrimary c r d → Recovers Primary.lexemes Primary.expr c d r
  | .word => ⟨.word _, rfl, List.Sublist.refl _⟩
  | .group _ h => by
    obtain ⟨g, rfl, hg⟩ := conjunction_recovers h
    refine ⟨.group g, rfl, ?_⟩
    rw [Primary.lexemes, words_opening, words_append, words_closing, words_nil, List.append_nil]
    exact hg
  | .cut _ => words_sublist_of_suffix (groupEnd_suffix ..)
  | .nothing _ => List.Sublist.refl _

end

end Cursor

namespace Query

theorem exists_derivation (t : Tokens) : ∃ g : Conjunction, g.exprs = (ofTokens t).expressions ∧
    words g.lexemes <+ words t.lexemes := by
  obtain ⟨es, d, hr, hes, -⟩ := exists_reads t
  obtain ⟨g, hg, hw⟩ := conjunction_recovers hr
  refine ⟨g, hg.trans hes.symm, ?_⟩
  exact (List.sublist_append_left _ _).trans hw

theorem strict_eq_ok_iff {text : String} {es : List Expr} :
    strict text = .ok es ↔ (ofText text).diagnostics = [] ∧ (ofText text).expressions = es := by
  rw [strict]
  split
  · rename_i h
    simp [h]
  · rename_i h
    simp [h]

theorem grammatical_ofText (text : String) : ∀ e ∈ (ofText text).expressions, e.Grammatical := by
  obtain ⟨g, hg, -⟩ := exists_derivation (Tokens.ofChars text.toList)
  rw [ofText, ← hg]
  exact Expr.allGrammatical_iff.1 g.grammatical_exprs

theorem expressible_ofText (text : String) : ∀ t ∈ Expr.allTerms (ofText text).expressions, t.Expressible := by
  obtain ⟨g, hg, -⟩ := exists_derivation (Tokens.ofChars text.toList)
  rw [ofText, ← hg, g.allTerms_exprs]
  intro t ht
  obtain ⟨w, -, rfl⟩ := List.mem_map.1 ht
  exact Term.expressible_ofWord w

end Query

/-! ### Every such expression is read from a text -/

theorem mem_words {ls : List Lexeme} {w : String} : w ∈ words ls ↔ .word w ∈ ls := by
  rw [words, List.mem_filterMap]
  constructor
  · rintro ⟨l, hl, hw⟩
    cases l with
    | word v =>
      cases hw
      exact hl
    | _ => cases hw
  · intro h
    exact ⟨.word w, h, rfl⟩

theorem Expr.exists_strict {es : List Expr} (hg : ∀ e ∈ es, e.Grammatical) (ht : ∀ t ∈ allTerms es, t.Expressible)
    (hc : ∀ e ∈ es, e.cost ≤ nestingLimit) : ∃ text, Query.strict text = .ok es := by
  obtain ⟨g, hgl, hge, hgc⟩ := exists_conjunction (fun t => String.ofList t.quotedLetters) es (allGrammatical_iff.2 hg)
  have hw : ∀ l ∈ g.lexemes, l ≠ .word "" := by
    rintro l hl rfl
    rw [hgl, ← mem_words, words_allLexemes] at hl
    obtain ⟨t, -, h⟩ := List.mem_map.1 hl
    exact t.quotedLetters_ne_nil (String.ofList_eq_empty_iff.1 h)
  have hcost : g.cost ≤ nestingLimit := by
    rw [hgc, costs_le_iff]
    exact hc
  obtain ⟨hd, he⟩ := Query.ofText_spell hw hcost
  refine ⟨_, Query.strict_eq_ok_iff.2 ⟨hd, ?_⟩⟩
  rw [he, hge, mapAllTerms_eq_self_iff]
  intro t h
  rw [Term.ofWord, String.toList_ofList]
  exact Term.ofChars_quotedLetters (ht t h)

/-- Expressions are read from a text, with or without problems, exactly if they are grammatical, their terms have
words and they cost no more than the limit. -/
theorem Query.exists_ofText_iff (es : List Expr) :
    ((∃ text, (ofText text).expressions = es) ↔ ∃ text, strict text = .ok es) ∧
    ((∃ text, strict text = .ok es) ↔
      ∀ e ∈ es, e.Grammatical ∧ (∀ t ∈ e.terms, t.Expressible) ∧ e.cost ≤ nestingLimit) := by
  have read : ∀ {text}, (ofText text).expressions = es →
      ∀ e ∈ es, e.Grammatical ∧ (∀ t ∈ e.terms, t.Expressible) ∧ e.cost ≤ nestingLimit := by
    rintro text rfl e he
    refine ⟨grammatical_ofText _ e he, fun t ht => ?_, cost_of_mem he⟩
    exact expressible_ofText _ t (Expr.mem_allTerms.2 ⟨e, he, ht⟩)
  have written : (∀ e ∈ es, e.Grammatical ∧ (∀ t ∈ e.terms, t.Expressible) ∧ e.cost ≤ nestingLimit) →
      ∃ text, strict text = .ok es := by
    intro h
    refine Expr.exists_strict (fun e he => (h e he).1) ?_ fun e he => (h e he).2.2
    intro t ht
    obtain ⟨e, he, ht⟩ := Expr.mem_allTerms.1 ht
    exact (h e he).2.1 t ht
  refine ⟨⟨?_, ?_⟩, ⟨?_, written⟩⟩
  · rintro ⟨text, h⟩
    exact written (read h)
  · rintro ⟨text, h⟩
    exact ⟨text, (strict_eq_ok_iff.1 h).2⟩
  · rintro ⟨text, h⟩
    exact read (strict_eq_ok_iff.1 h).2

end TagQuery
