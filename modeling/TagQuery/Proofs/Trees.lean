import TagQuery.Proofs.Nesting
import TagQuery.Proofs.Recovery

/-!
# Expressions as trees of the grammar

The expressions of a derivation are `Expr.Grammatical`: what is negated is no alternation, nor is what stands on the
right of `|` (`Conjunction.grammatical_exprs`).  Every grammatical expression comes from a derivation, whatever word
each term is spelled with; the derivation has the lexemes that the expression is spelled with and the same cost, and
it stands for the expression with each term read from its word (`Expr.exists_alternation`).
-/

namespace TagQuery

open Grammar

/-! ### Alternations of alternations -/

namespace Grammar

def Operands.append : Operands → Operands → Operands
  | .nil, ps => ps
  | .cons n os, ps => .cons n (os.append ps)

def Operands.length : Operands → Nat
  | .nil => 0
  | .cons _ os => os.length + 1

/-- An alternation without bars. -/
def Alternation.single (n : Negation) : Alternation :=
  .mk n .nil

/-- The alternation with the operands of both. -/
def Alternation.or : Alternation → Alternation → Alternation
  | .mk n os, .mk n' os' => .mk n (os.append (.cons n' os'))

namespace Operands

theorem lexemes_append : ∀ os ps : Operands, (os.append ps).lexemes = os.lexemes ++ ps.lexemes
  | .nil, _ => rfl
  | .cons n os, ps => by
    rw [append, lexemes, lexemes, lexemes_append os, List.cons_append, List.append_assoc]

theorem fold_append : ∀ (os ps : Operands) (left : Expr), (os.append ps).fold left = ps.fold (os.fold left)
  | .nil, _, _ => rfl
  | .cons n os, ps, left => by rw [append, fold, fold_append os, fold]

theorem cost_append : ∀ (os ps : Operands) (index : Nat),
    (os.append ps).cost index = max (os.cost index) (ps.cost (index + os.length))
  | .nil, ps, index => by
    rw [append, cost, length, Nat.add_zero, Nat.zero_max]
  | .cons n os, ps, index => by
    rw [append, cost, cost, cost_append os, length, Nat.max_assoc, Nat.add_right_comm, Nat.add_assoc]

theorem bars_fold (left : Expr) : ∀ os : Operands, (os.fold left).bars = left.bars + os.length
  | .nil => rfl
  | .cons n os => by
    rw [fold, bars_fold _ os, Expr.bars, length]
    omega

end Operands

theorem Negation.bars_expr (n : Negation) : n.expr.bars = 0 := by
  cases n with
  | not n => rfl
  | primary p => cases p <;> rfl

namespace Alternation

theorem lexemes_single (n : Negation) : (single n).lexemes = n.lexemes :=
  List.append_nil _

theorem expr_single (n : Negation) : (single n).expr = n.expr := rfl

theorem cost_single (n : Negation) : (single n).cost = n.cost :=
  Nat.max_zero _

theorem lexemes_or (a b : Alternation) : (a.or b).lexemes = a.lexemes ++ .or :: b.lexemes := by
  obtain ⟨n, os⟩ := a
  obtain ⟨n', os'⟩ := b
  rw [or, lexemes, lexemes, lexemes, Operands.lexemes_append, Operands.lexemes, List.append_assoc]

theorem expr_or_single (a : Alternation) (n : Negation) : (a.or (single n)).expr = .or a.expr n.expr := by
  obtain ⟨m, os⟩ := a
  rw [single, or, expr, Operands.fold_append, Operands.fold, Operands.fold, expr]

theorem cost_or_single (a : Alternation) (n : Negation) :
    (a.or (single n)).cost = max a.cost (a.expr.bars + 1 + n.cost) := by
  obtain ⟨m, os⟩ := a
  rw [single, or, cost, Operands.cost_append, Operands.cost, Operands.cost, cost, expr, Operands.bars_fold,
    Negation.bars_expr]
  omega

end Alternation

end Grammar

/-! ### Spelling the terms -/

namespace Expr

mutual

/-- The expression with each term replaced. -/
def mapTerms (f : Term → Term) : Expr → Expr
  | .term t => .term (f t)
  | .not e => .not (mapTerms f e)
  | .or l r => .or (mapTerms f l) (mapTerms f r)
  | .group es => .group (mapAllTerms f es)

def mapAllTerms (f : Term → Term) : List Expr → List Expr
  | [] => []
  | e :: es => mapTerms f e :: mapAllTerms f es

end

mutual

/-- The lexemes that the expression is written with if each term is spelled by a word. -/
def lexemes (spelling : Term → String) : Expr → List Lexeme
  | .term t => [.word (spelling t)]
  | .not e => .not :: lexemes spelling e
  | .or l r => lexemes spelling l ++ .or :: lexemes spelling r
  | .group es => .opening :: (allLexemes spelling es ++ [.closing])

def allLexemes (spelling : Term → String) : List Expr → List Lexeme
  | [] => []
  | e :: es => lexemes spelling e ++ allLexemes spelling es

end

theorem bars_mapTerms (f : Term → Term) : ∀ e : Expr, (e.mapTerms f).bars = e.bars
  | .term _ | .not _ | .group _ => rfl
  | .or l r => by rw [mapTerms, bars, bars, bars_mapTerms f l]

mutual

theorem mapTerms_eq_self_iff (f : Term → Term) : ∀ e : Expr, e.mapTerms f = e ↔ ∀ t ∈ e.terms, f t = t
  | .term t => by simp [mapTerms, terms]
  | .not e => by rw [mapTerms, terms, not.injEq, mapTerms_eq_self_iff f e]
  | .or l r => by
    rw [mapTerms, terms, or.injEq, mapTerms_eq_self_iff f l, mapTerms_eq_self_iff f r, List.forall_mem_append]
  | .group es => by rw [mapTerms, terms, group.injEq, mapAllTerms_eq_self_iff f es]

theorem mapAllTerms_eq_self_iff (f : Term → Term) : ∀ es : List Expr,
    mapAllTerms f es = es ↔ ∀ t ∈ allTerms es, f t = t
  | [] => by simp [mapAllTerms, allTerms]
  | e :: es => by
    rw [mapAllTerms, allTerms, List.cons.injEq, mapTerms_eq_self_iff f e, mapAllTerms_eq_self_iff f es,
      List.forall_mem_append]

end

theorem mem_allTerms {es : List Expr} {t : Term} : t ∈ allTerms es ↔ ∃ e ∈ es, t ∈ e.terms := by
  induction es with
  | nil => simp [allTerms]
  | cons e es ih => simp [allTerms, ih]

mutual

theorem words_lexemes (spelling : Term → String) : ∀ e : Expr, words (e.lexemes spelling) = e.terms.map spelling
  | .term t => rfl
  | .not e => by rw [lexemes, words_not, words_lexemes spelling e, terms]
  | .or l r => by
    rw [lexemes, words_append, words_or, words_lexemes spelling l, words_lexemes spelling r, terms, List.map_append]
  | .group es => by
    rw [lexemes, words_opening, words_append, words_closing, words_nil, List.append_nil, words_allLexemes spelling es,
      terms]

theorem words_allLexemes (spelling : Term → String) : ∀ es : List Expr,
    words (allLexemes spelling es) = (allTerms es).map spelling
  | [] => rfl
  | e :: es => by
    rw [allLexemes, words_append, words_lexemes spelling e, words_allLexemes spelling es, allTerms, List.map_append]

end

/-! ### Grammatical expressions -/

def isOr : Expr → Bool
  | .or _ _ => true
  | .term _ | .not _ | .group _ => false

mutual

/-- No alternation is negated, and none stands on the right of a bar. -/
def Grammatical : Expr → Prop
  | .term _ => True
  | .not e => e.isOr = false ∧ Grammatical e
  | .or l r => Grammatical l ∧ r.isOr = false ∧ Grammatical r
  | .group es => AllGrammatical es

def AllGrammatical : List Expr → Prop
  | [] => True
  | e :: es => Grammatical e ∧ AllGrammatical es

end

theorem allGrammatical_iff {es : List Expr} : AllGrammatical es ↔ ∀ e ∈ es, e.Grammatical := by
  induction es with
  | nil => simp [AllGrammatical]
  | cons e es ih => rw [AllGrammatical, ih, List.forall_mem_cons]

end Expr

mutual

theorem Grammar.Conjunction.grammatical_exprs : ∀ g : Conjunction, Expr.AllGrammatical g.exprs
  | .nil => trivial
  | .cons a g => ⟨Alternation.grammatical_expr a, Conjunction.grammatical_exprs g⟩

theorem Grammar.Alternation.grammatical_expr : ∀ a : Alternation, a.expr.Grammatical
  | .mk n os => Operands.grammatical_fold os n.expr (Negation.grammatical_expr n).2

theorem Grammar.Operands.grammatical_fold : ∀ (os : Operands) (left : Expr), left.Grammatical →
    (os.fold left).Grammatical
  | .nil, _, h => h
  | .cons n os, left, h => by
    obtain ⟨hn, hg⟩ := Negation.grammatical_expr n
    exact Operands.grammatical_fold os _ ⟨h, hn, hg⟩

theorem Grammar.Negation.grammatical_expr : ∀ n : Negation, n.expr.isOr = false ∧ n.expr.Grammatical
  | .not n => ⟨rfl, Negation.grammatical_expr n⟩
  | .primary p => Primary.grammatical_expr p

theorem Grammar.Primary.grammatical_expr : ∀ p : Primary, p.expr.isOr = false ∧ p.expr.Grammatical
  | .word _ => ⟨rfl, trivial⟩
  | .group g => ⟨rfl, Conjunction.grammatical_exprs g⟩

end

namespace Expr

mutual

theorem exists_alternation (spelling : Term → String) : ∀ e : Expr, e.Grammatical → ∃ a : Alternation,
    a.lexemes = e.lexemes spelling ∧ a.expr = e.mapTerms (fun t => .ofWord (spelling t)) ∧ a.cost = e.cost ∧
      (e.isOr = false → ∃ n, a = .single n)
  | .term t, _ => ⟨.single (.primary (.word (spelling t))), rfl, rfl, rfl, fun _ => ⟨_, rfl⟩⟩
  | .not e, h => by
    obtain ⟨a, hl, he, hc, hn⟩ := exists_alternation spelling e h.2
    obtain ⟨n, rfl⟩ := hn h.1
    rw [Alternation.lexemes_single] at hl
    rw [Alternation.cost_single] at hc
    refine ⟨.single (.not n), ?_, ?_, ?_, fun _ => ⟨_, rfl⟩⟩
    · rw [Alternation.lexemes_single, Negation.lexemes, hl, lexemes]
    · rw [Alternation.expr_single, Negation.expr, ← Alternation.expr_single, he, mapTerms]
    · rw [Alternation.cost_single, Negation.cost, hc, cost]
  | .or l r, h => by
    obtain ⟨a, hl, he, hc, -⟩ := exists_alternation spelling l h.1
    obtain ⟨b, hl', he', hc', hn⟩ := exists_alternation spelling r h.2.2
    obtain ⟨n, rfl⟩ := hn h.2.1
    rw [Alternation.expr_single] at he'
    rw [Alternation.cost_single] at hc'
    have hb : a.expr.bars = l.bars := by rw [he, bars_mapTerms]
    refine ⟨a.or (.single n), ?_, ?_, ?_, nofun⟩
    · rw [Alternation.lexemes_or, hl, hl', lexemes]
    · rw [Alternation.expr_or_single, he, he', mapTerms]
    · rw [Alternation.cost_or_single, hb, hc, hc', cost]
  | .group es, h => by
    obtain ⟨g, hl, he, hc⟩ := exists_conjunction spelling es h
    refine ⟨.single (.primary (.group g)), ?_, ?_, ?_, fun _ => ⟨_, rfl⟩⟩
    · rw [Alternation.lexemes_single, Negation.lexemes, Primary.lexemes, hl, lexemes]
    · rw [Alternation.expr_single, Negation.expr, Primary.expr, he, mapTerms]
    · rw [Alternation.cost_single, Negation.cost, Primary.cost, hc, cost]

theorem exists_conjunction (spelling : Term → String) : ∀ es : List Expr, AllGrammatical es → ∃ g : Conjunction,
    g.lexemes = allLexemes spelling es ∧ g.exprs = mapAllTerms (fun t => .ofWord (spelling t)) es ∧
      g.cost = costs es
  | [], _ => ⟨.nil, rfl, rfl, rfl⟩
  | e :: es, h => by
    obtain ⟨a, hl, he, hc, -⟩ := exists_alternation spelling e h.1
    obtain ⟨g, hls, hes, hcs⟩ := exists_conjunction spelling es h.2
    refine ⟨.cons a g, ?_, ?_, ?_⟩
    · rw [Conjunction.lexemes, hl, hls, allLexemes]
    · rw [Conjunction.exprs, he, hes, mapAllTerms]
    · rw [Conjunction.cost, hc, hcs, costs]

end

end Expr

end TagQuery
