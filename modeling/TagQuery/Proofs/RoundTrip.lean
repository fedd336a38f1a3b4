import TagQuery.Proofs.Image
import TagQuery.Proofs.Meaning
import TagQuery.Proofs.Scanning

/-!
# Reading back what was written

The expressions of a query are written with each term as its letters, escaped.  The tokens of the written text are the
lexemes that spell the expressions, except that a keyword without letters leaves no trace (`Expr.scans_joined`).  If
there is none, the text is read without problems, as the same expressions with each term read once more
(`Query.ofText_joined`).  So it is read as the same expressions exactly if every term is `Term.Restored`
(`Query.ofText_joined_iff`).
-/

namespace TagQuery

open Grammar

namespace Term

/-- The word that the term is written as. -/
def word (t : Term) : String :=
  String.ofList t.letters

/-- The term that is read from what the term is written as. -/
def reread (t : Term) : Term :=
  ofWord t.word

theorem restored_iff {t : Term} (h : t.Expressible) : t.Restored ↔ t.word ≠ "" ∧ t.reread = t := by
  rw [← ofChars_letters_iff h, word, reread, ofWord, word, String.toList_ofList, ne_eq, ne_eq,
    String.ofList_eq_empty_iff]

end Term

/-! ### The lexemes of a written expression -/

/-- The lexemes that can be seen in a text: all but words without letters. -/
def visible (ls : List Lexeme) : List Lexeme :=
  ls.filter fun l => decide (l ≠ .word "")

theorem visible_append (ls ms : List Lexeme) : visible (ls ++ ms) = visible ls ++ visible ms :=
  List.filter_append ls ms

theorem visible_operator {l : Lexeme} (hl : l.isOperator = true) (ls : List Lexeme) :
    visible (l :: ls) = l :: visible ls := by
  refine List.filter_cons_of_pos (decide_eq_true ?_)
  rintro rfl
  cases hl

theorem words_visible (ls : List Lexeme) : words (visible ls) = (words ls).filter fun w => decide (w ≠ "") := by
  induction ls with
  | nil => rfl
  | cons l ls ih =>
    cases l with
    | word w =>
      by_cases hw : w = ""
      · rw [words_word, List.filter_cons_of_neg (by simp [hw]), ← ih, visible, List.filter_cons_of_neg (by simp [hw]),
          visible]
      · rw [words_word, List.filter_cons_of_pos (by simp [hw]), ← ih, visible, List.filter_cons_of_pos (by simp [hw]),
          words_word, visible]
    | _ =>
      rw [visible_operator rfl]
      exact ih

namespace Expr

mutual

theorem scans_chars : ∀ e : Expr, Scans e.chars (visible (e.lexemes Term.word))
  | .term t => by
    rw [chars, ← Term.escape_letters, lexemes, Term.word]
    by_cases hl : t.letters = []
    · rw [hl]
      exact .nil
    · have hw : String.ofList t.letters ≠ "" := fun h => hl (String.ofList_eq_empty_iff.1 h)
      have hv : visible [.word (String.ofList t.letters)] = [.word (String.ofList t.letters)] := by
        simp [visible, hw]
      rw [hv]
      exact .word hl
  | .not e => by
    rw [lexemes, visible_operator rfl]
    exact .operator .nil (l := .not) rfl (scans_chars e)
  | .or l r => by
    rw [chars, lexemes, visible_append, visible_operator rfl, List.append_assoc]
    exact .space (scans_chars l) (.operator .nil (l := .or) rfl (.space .nil (scans_chars r)))
  | .group es => by
    rw [lexemes, visible_operator rfl, visible_append]
    exact .operator .nil (l := .opening) rfl (.operator (scans_joined es) (l := .closing) rfl .nil)

theorem scans_joined : ∀ es : List Expr, Scans (joined es) (visible (allLexemes Term.word es))
  | [] => .nil
  | [e] => by
    rw [allLexemes, allLexemes, List.append_nil]
    exact scans_chars e
  | e :: e' :: es => by
    rw [allLexemes, visible_append]
    exact .space (scans_chars e) (scans_joined (e' :: es))

end

end Expr

namespace Query

theorem ofText_joined {es : List Expr} (hg : ∀ e ∈ es, e.Grammatical) (hc : ∀ e ∈ es, e.cost ≤ nestingLimit)
    (hw : ∀ t ∈ Expr.allTerms es, t.word ≠ "") :
    (ofText (String.ofList (Expr.joined es))).diagnostics = [] ∧
      (ofText (String.ofList (Expr.joined es))).expressions = Expr.mapAllTerms Term.reread es := by
  obtain ⟨g, hgl, hge, hgc⟩ := Expr.exists_conjunction Term.word es (Expr.allGrammatical_iff.2 hg)
  have hs := Expr.scans_joined es
  have hv : visible (Expr.allLexemes Term.word es) = g.lexemes := by
    rw [hgl, visible, List.filter_eq_self]
    intro l hl
    rw [decide_eq_true_eq]
    rintro rfl
    rw [← mem_words, Expr.words_allLexemes] at hl
    obtain ⟨t, ht, h⟩ := List.mem_map.1 hl
    exact hw t ht h
  have hcost : g.cost ≤ nestingLimit := by
    rw [hgc, Expr.costs_le_iff]
    exact hc
  rw [hv] at hs
  rw [ofText, String.toList_ofList]
  obtain ⟨hd, he⟩ := ofTokens_of_derivation hs.diagnostics hs.lexemes.symm hcost
  exact ⟨hd, he.trans hge⟩

/-- A term that leaves no trace cannot come back. -/
theorem word_ne_of_ofText_joined {es : List Expr} (h : (ofText (String.ofList (Expr.joined es))).expressions = es) :
    ∀ t ∈ Expr.allTerms es, t.word ≠ "" := by
  obtain ⟨g, hg, hw⟩ := exists_derivation (Tokens.ofChars (Expr.joined es))
  rw [ofText, String.toList_ofList] at h
  rw [h] at hg
  have hl : (Expr.allTerms es).length = (words g.lexemes).length := by
    rw [← hg, g.allTerms_exprs, List.length_map]
  rw [(Expr.scans_joined es).lexemes, words_visible, Expr.words_allLexemes] at hw
  have hle := hw.length_le
  rw [← hl, ← List.length_map (f := Term.word)] at hle
  -- as many terms as come back had letters
  have hall := List.length_filter_eq_length_iff.1 (Nat.le_antisymm (List.length_filter_le _ _) hle)
  intro t ht
  exact of_decide_eq_true (hall _ (List.mem_map_of_mem ht))

/-- Written and read again, the expressions of a query are the same exactly if all their terms are restored; and then
nothing is wrong with the text. -/
theorem ofText_joined_iff (text : String) :
    ((ofText (String.ofList (Expr.joined (ofText text).expressions))).expressions = (ofText text).expressions ↔
      ∀ t ∈ Expr.allTerms (ofText text).expressions, t.Restored) ∧
    ((∀ t ∈ Expr.allTerms (ofText text).expressions, t.Restored) →
      (ofText (String.ofList (Expr.joined (ofText text).expressions))).diagnostics = []) := by
  have hg := grammatical_ofText text
  have hx := expressible_ofText text
  have hc : ∀ e ∈ (ofText text).expressions, e.cost ≤ nestingLimit := fun e he => cost_of_mem he
  have read := fun h : ∀ t ∈ Expr.allTerms (ofText text).expressions, t.word ≠ "" => ofText_joined hg hc h
  refine ⟨⟨?_, ?_⟩, ?_⟩
  · intro h t ht
    have hw := word_ne_of_ofText_joined h
    have he := (read hw).2.symm.trans h
    exact (Term.restored_iff (hx t ht)).2 ⟨hw t ht, (Expr.mapAllTerms_eq_self_iff _ _).1 he t ht⟩
  · intro h
    have hr := fun t ht => (Term.restored_iff (hx t ht)).1 (h t ht)
    rw [(read fun t ht => (hr t ht).1).2, Expr.mapAllTerms_eq_self_iff]
    exact fun t ht => (hr t ht).2
  · intro h
    exact (read fun t ht => ((Term.restored_iff (hx t ht)).1 (h t ht)).1).1

end Query

end TagQuery
