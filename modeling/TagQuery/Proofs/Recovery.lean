import TagQuery.Proofs.Brackets
import TagQuery.Proofs.Derivation

/-!
# Recovery is a repair

A query in which nothing lies too deep is read as if its tokens had been repaired first (`ofText_repaired`).  The
repair looks at each token between those before it and those after it: a closing bracket without a partner goes, so
does a negation that no operand follows, and so does `|` without an operand before it or after it; every bracket that
is still open at the end is closed there (`repaired`).

`mend` makes the repair in one pass and needs to know only how many brackets are open and whether an operand has just
ended.  Reading an operand takes from the mended tokens what the operand is derived from (`negation_mends` and the
lemmas beside it).
-/

namespace TagQuery

open Cursor Grammar

/-- Whether a word or an opening bracket comes next, negations left out of account. -/
def operandFollows : List Token → Bool
  | ⟨.not, _⟩ :: after => operandFollows after
  | after => startsPrimary after

/-- Whether the nearest of the tokens before is a word or a bracket that closes a group. -/
def endsOperand : (before : List Token) → Bool
  | ⟨.word _, _⟩ :: _ => true
  | ⟨.closing, _⟩ :: before => !(openBrackets before).isEmpty
  | _ => false

/-- Whether a lexeme stays in the repaired query; the nearest of the tokens before it comes first. -/
def stays (before : List Token) (l : Lexeme) (after : List Token) : Bool :=
  match l with
  | .word _ | .opening => true
  | .closing => !(openBrackets before).isEmpty
  | .not => operandFollows after
  | .or => endsOperand before && operandFollows after

/-- What is left of the tokens that come after `before`, with the brackets closed that are open at the end. -/
def repairedAfter (before : List Token) : List Token → List Lexeme
  | [] => List.replicate (openBrackets before).length .closing
  | t :: after =>
    if stays before t.lexeme after then t.lexeme :: repairedAfter (t :: before) after
    else repairedAfter (t :: before) after

def repaired (ts : List Token) : List Lexeme :=
  repairedAfter [] ts

/-! ### The repair in one pass -/

/-- The repair of the tokens that are left when `level` brackets are open; `ended` tells whether an operand has just
ended. -/
def mend (level : Nat) (ended : Bool) : List Token → List Lexeme
  | [] => List.replicate level .closing
  | ⟨.word w, _⟩ :: after => .word w :: mend level true after
  | ⟨.opening, _⟩ :: after => .opening :: mend (level + 1) false after
  | ⟨.closing, _⟩ :: after =>
    match level with
    | 0 => mend 0 false after
    | level + 1 => .closing :: mend level true after
  | ⟨.not, _⟩ :: after => if operandFollows after then .not :: mend level false after else mend level false after
  | ⟨.or, _⟩ :: after =>
    if ended && operandFollows after then .or :: mend level false after else mend level false after

theorem repairedAfter_eq_mend (before ts : List Token) :
    repairedAfter before ts = mend (openBrackets before).length (endsOperand before) ts := by
  induction ts generalizing before with
  | nil => rfl
  | cons t after ih =>
    obtain ⟨l, p⟩ := t
    rw [repairedAfter, ih]
    cases l with
    | word w => rfl
    | opening => rfl
    | closing =>
      rcases hb : openBrackets before with _ | ⟨t, st⟩
      · simp [stays, mend, openBrackets, endsOperand, hb]
      · simp [stays, mend, openBrackets, endsOperand, hb]
    | not => rfl
    | or => rfl

theorem repaired_eq_mend (ts : List Token) : repaired ts = mend 0 false ts :=
  repairedAfter_eq_mend [] ts

/-- An operand can come right after another one. -/
theorem mend_of_startsOperand {ts : List Token} (starts : startsOperand ts = true) (level : Nat) (ended : Bool) :
    mend level ended ts = mend level false ts := by
  match ts, starts with
  | ⟨.word _, _⟩ :: _, _ => rfl
  | ⟨.opening, _⟩ :: _, _ => rfl
  | ⟨.not, _⟩ :: _, _ => rfl

theorem startsOperand_of_operandFollows {ts : List Token} (h : operandFollows ts = true) :
    startsOperand ts = true := by
  match ts, h with
  | ⟨.word _, _⟩ :: _, _ => rfl
  | ⟨.opening, _⟩ :: _, _ => rfl
  | ⟨.not, _⟩ :: _, _ => rfl

theorem operandFollows_of_next {c : Cursor} (h : c.next ≠ some .not) :
    operandFollows c.rest = startsPrimary c.rest := by
  obtain ⟨_ | ⟨⟨l, p⟩, rest⟩, depth, problems⟩ := c
  · rfl
  · cases l with
    | not => exact absurd rfl h
    | _ => rfl

namespace Cursor

/-- Nothing that has been read so far lay too deep. -/
def Shallow (d : Cursor) : Prop :=
  ∀ x ∈ d.problems, x.problem ≠ .nestingTooDeep

instance (d : Cursor) : Decidable d.Shallow :=
  inferInstanceAs (Decidable (∀ x ∈ d.problems, x.problem ≠ .nestingTooDeep))

theorem Shallow.of_suffix {c d : Cursor} (hd : d.Shallow) (h : c.problems <:+ d.problems) : c.Shallow :=
  fun x hx => hd x (h.subset hx)

theorem not_shallow_cut {c : Cursor} {p : Nat} : ¬(cut c p).Shallow :=
  fun h => h _ List.mem_cons_self rfl

/-- What reading the operand that `c` may begin with takes from the mended tokens: no operand follows and none is
taken, or the operand is derived from what is taken. -/
def MendsOperand (level : Nat) (c d : Cursor) : Option Expr → Prop
  | none => operandFollows c.rest = false ∧ mend level false c.rest = mend level false d.rest
  | some e => operandFollows c.rest = true ∧
    ∃ n : Negation, n.expr = e ∧ mend level false c.rest = n.lexemes ++ mend level true d.rest

/-- The brackets that are open inside the group opened at `opened`, if `level` are open outside. -/
def levelWithin (opened : Option Nat) (level : Nat) : Nat :=
  if opened.isSome then level + 1 else 0

/-- What the repair makes of the end of a group and of the tokens after it. -/
def mendEnd (opened : Option Nat) (level : Nat) (after : List Token) : List Lexeme :=
  if opened.isSome then .closing :: mend level true after else []

mutual

theorem conjunction_mends {opened c es d} : ReadsConjunction opened c es d → d.Shallow → ∀ level ended,
    (ended = true → c.next ≠ some .or) → ∃ g : Conjunction, g.exprs = es ∧
      mend (levelWithin opened level) ended c.rest = g.lexemes ++ mendEnd opened level d.rest
  | .unclosed, _, _, _, _ => ⟨.nil, rfl, rfl⟩
  | .done, _, _, _, _ => ⟨.nil, rfl, rfl⟩
  | .close, _, _, _, _ => ⟨.nil, rfl, rfl⟩
  | .unmatched h, hd, level, _, _ => by
    obtain ⟨g, hg, hm⟩ := conjunction_mends h hd level false nofun
    exact ⟨g, hg, hm⟩
  | .strayOr h, hd, level, ended, he => by
    obtain ⟨g, hg, hm⟩ := conjunction_mends h hd level false nofun
    refine ⟨g, hg, ?_⟩
    -- a bar after an operand would have been read with the alternation
    cases ended with
    | true => exact absurd rfl (he rfl)
    | false => exact hm
  | .item (e := r) starts ha h, hd, level, ended, _ => by
    have ia := alternation_mends ha (hd.of_suffix (conjunction_keeps h).2) (levelWithin opened level) starts
    have ih := conjunction_mends h hd level
    obtain ⟨ended', he', ha'⟩ := ia
    obtain ⟨g, rfl, hm⟩ := ih ended' he'
    -- what follows an operand is mended with `ended'`, which is only true if no bar comes next
    rw [mend_of_startsOperand starts]
    cases r with
    | none => exact ⟨g, rfl, ha'.trans hm⟩
    | some e =>
      obtain ⟨a, rfl, ha'⟩ := ha'
      refine ⟨.cons a g, rfl, ?_⟩
      rw [ha', hm, Conjunction.lexemes, List.append_assoc]

theorem alternation_mends {c r d} : ReadsAlternation c r d → d.Shallow → ∀ level, startsOperand c.rest = true →
    ∃ ended, (ended = true → d.next ≠ some .or) ∧
      match r with
      | none => mend level false c.rest = mend level ended d.rest
      | some e => ∃ a : Alternation, a.expr = e ∧ mend level false c.rest = a.lexemes ++ mend level ended d.rest
  | .nothing h, hd, level, _ => by
    obtain ⟨-, hm⟩ := negation_mends h hd level
    exact ⟨false, nofun, hm⟩
  | .operands h hs, hd, level, _ => by
    have ih := negation_mends h (hd.of_suffix (alternatives_keeps hs).2) level
    obtain ⟨os, ended, hos, hm, he⟩ := alternatives_mends hs hd level
    obtain ⟨-, n, rfl, hn⟩ := ih
    refine ⟨ended, he, .mk n os, hos, ?_⟩
    rw [hn, hm, Alternation.lexemes, List.append_assoc]

theorem alternatives_mends {left links c e d} : ReadsAlternatives left links c e d → d.Shallow → ∀ level,
    ∃ (os : Operands) (ended : Bool), os.fold left = e ∧
      mend level true c.rest = os.lexemes ++ mend level ended d.rest ∧ (ended = true → d.next ≠ some .or)
  | .stop h, _, _ => ⟨.nil, true, rfl, rfl, fun _ => h⟩
  | .link _ h hs, hd, level => by
    have ih := negation_mends h (hd.of_suffix (alternatives_keeps hs).2) level
    obtain ⟨os, ended, hos, hm, he⟩ := alternatives_mends hs hd level
    obtain ⟨hf, n, rfl, hn⟩ := ih
    refine ⟨.cons n os, ended, hos, ?_, he⟩
    rw [mend, Bool.true_and, if_pos hf, hn, hm, Operands.lexemes, List.cons_append, List.append_assoc]
  | .missing _ h, hd, level => by
    obtain ⟨hf, hm⟩ := negation_mends h (hd.of_suffix (List.suffix_cons ..)) level
    refine ⟨.nil, false, rfl, ?_, nofun⟩
    rw [mend, Bool.true_and, if_neg (by simp [hf])]
    exact hm
  | .cut _, hd, _ => absurd hd not_shallow_cut

theorem negation_mends {c r d} : ReadsNegation c r d → d.Shallow → ∀ level, MendsOperand level c d r
  | .negated (e := r) _ _ h, hd, level => by
    have ih := negation_mends h hd level
    cases r with
    | none =>
      obtain ⟨hf, hm⟩ := ih
      refine ⟨hf, ?_⟩
      rw [mend, if_neg (by simp [hf])]
      exact hm
    | some e =>
      obtain ⟨hf, n, rfl, hn⟩ := ih
      refine ⟨hf, .not n, rfl, ?_⟩
      rw [mend, if_pos hf, hn]
      rfl
  | .cut _ _, hd, _ => absurd hd not_shallow_cut
  | .missing starts, _, level => by
    have hf : operandFollows _ = false :=
      Bool.eq_false_iff.2 fun h => Bool.eq_false_iff.1 starts (startsOperand_of_operandFollows h)
    refine ⟨hf, ?_⟩
    rw [mend, if_neg (by simp [hf])]
  | .primary hn h, hd, level => by
    have ih := primary_mends h hd level
    rw [← operandFollows_of_next hn] at ih
    cases r with
    | none =>
      obtain ⟨hf, hm⟩ := ih
      exact ⟨hf, by rw [hm]⟩
    | some e =>
      obtain ⟨hf, p, he, hp⟩ := ih
      exact ⟨hf, .primary p, he, hp⟩

theorem primary_mends {c r d} : ReadsPrimary c r d → d.Shallow → ∀ level,
    match r with
    | none => startsPrimary c.rest = false ∧ c.rest = d.rest
    | some e => startsPrimary c.rest = true ∧
      ∃ p : Primary, p.expr = e ∧ mend level false c.rest = p.lexemes ++ mend level true d.rest
  | .word, _, _ => ⟨rfl, .word _, rfl, rfl⟩
  | .group _ h, hd, level => by
    obtain ⟨g, rfl, hm⟩ := conjunction_mends h hd level false nofun
    refine ⟨rfl, .group g, rfl, ?_⟩
    have hm : mend (level + 1) false _ = g.lexemes ++ .closing :: mend level true _ := hm
    rw [mend, hm, Primary.lexemes, List.cons_append, List.append_assoc]
    rfl
  | .cut _, hd, _ => absurd hd not_shallow_cut
  | .nothing hp, _, _ => ⟨hp, rfl⟩

end

end Cursor

/-! ### The words of a query -/

def words (ls : List Lexeme) : List String :=
  ls.filterMap fun
    | .word w => some w
    | _ => none

theorem words_append (ls ms : List Lexeme) : words (ls ++ ms) = words ls ++ words ms :=
  List.filterMap_append

@[simp] theorem words_nil : words [] = [] := rfl

@[simp] theorem words_word (w : String) (ls : List Lexeme) : words (.word w :: ls) = w :: words ls := rfl

@[simp] theorem words_opening (ls : List Lexeme) : words (.opening :: ls) = words ls := rfl

@[simp] theorem words_closing (ls : List Lexeme) : words (.closing :: ls) = words ls := rfl

@[simp] theorem words_not (ls : List Lexeme) : words (.not :: ls) = words ls := rfl

@[simp] theorem words_or (ls : List Lexeme) : words (.or :: ls) = words ls := rfl

mutual

/-- The terms of an expression from left to right. -/
def Expr.terms : Expr → List Term
  | .term t => [t]
  | .not e => e.terms
  | .or l r => l.terms ++ r.terms
  | .group es => Expr.allTerms es

def Expr.allTerms : List Expr → List Term
  | [] => []
  | e :: es => e.terms ++ Expr.allTerms es

end

mutual

theorem Grammar.Conjunction.allTerms_exprs : ∀ g : Conjunction,
    Expr.allTerms g.exprs = (words g.lexemes).map Term.ofWord
  | .nil => rfl
  | .cons a g => by
    rw [Conjunction.exprs, Expr.allTerms, Alternation.terms_expr a, Conjunction.allTerms_exprs g,
      Conjunction.lexemes, words_append, List.map_append]

theorem Grammar.Alternation.terms_expr : ∀ a : Alternation, a.expr.terms = (words a.lexemes).map Term.ofWord
  | .mk n os => by
    rw [Alternation.expr, Operands.terms_fold os, Negation.terms_expr n, Alternation.lexemes, words_append,
      List.map_append]

theorem Grammar.Operands.terms_fold : ∀ (os : Operands) (left : Expr),
    (os.fold left).terms = left.terms ++ (words os.lexemes).map Term.ofWord
  | .nil, left => (List.append_nil _).symm
  | .cons n os, left => by
    rw [Operands.fold, Operands.terms_fold os, Expr.terms, Negation.terms_expr n, Operands.lexemes, words_or,
      words_append, List.map_append, List.append_assoc]

theorem Grammar.Negation.terms_expr : ∀ n : Negation, n.expr.terms = (words n.lexemes).map Term.ofWord
  | .not n => by rw [Negation.expr, Expr.terms, Negation.terms_expr n, Negation.lexemes, words_not]
  | .primary p => by rw [Negation.expr, Primary.terms_expr p, Negation.lexemes]

theorem Grammar.Primary.terms_expr : ∀ p : Primary, p.expr.terms = (words p.lexemes).map Term.ofWord
  | .word _ => rfl
  | .group g => by
    rw [Primary.expr, Expr.terms, Conjunction.allTerms_exprs g, Primary.lexemes, words_opening, words_append,
      words_closing, words_nil, List.append_nil]

end

theorem words_mend (level : Nat) (ended : Bool) (ts : List Token) :
    words (mend level ended ts) = words (ts.map Token.lexeme) := by
  fun_induction mend level ended ts with
  | case1 level => simp [words]
  | case2 level _ w _ after ih => simp [ih]
  | _ => simp_all

/-- The repair neither drops a word nor moves one. -/
theorem words_repaired (ts : List Token) : words (repaired ts) = words (ts.map Token.lexeme) := by
  rw [repaired_eq_mend, words_mend]

namespace Query

/-- Nothing in the text lay too deep. -/
def Shallow (q : Query) : Prop :=
  ∀ d ∈ q.diagnostics, d.problem ≠ .nestingTooDeep

instance (q : Query) : Decidable q.Shallow :=
  inferInstanceAs (Decidable (∀ d ∈ q.diagnostics, d.problem ≠ .nestingTooDeep))

/-- Sorting the diagnostics makes no difference. -/
theorem ofTokens_shallow_iff {t : Tokens} :
    (ofTokens t).Shallow ↔ (conjunction none [] ⟨t.tokens, 0, t.diagnostics.reverse⟩).1.2.Shallow := by
  have same : ∀ x, x ∈ (ofTokens t).diagnostics ↔
      x ∈ (conjunction none [] ⟨t.tokens, 0, t.diagnostics.reverse⟩).1.2.problems := fun x =>
    List.mem_mergeSort.trans List.mem_reverse
  exact forall_congr' fun x => imp_congr_left (same x)

theorem exists_shallow_reads {t : Tokens} (h : (ofTokens t).Shallow) : ∃ es d,
    ReadsConjunction none ⟨t.tokens, 0, t.diagnostics.reverse⟩ es d ∧ d.Shallow ∧ (ofTokens t).expressions = es ∧
      (ofTokens t).diagnostics.Perm d.problems := by
  obtain ⟨es, d, hr, hes, hps⟩ := exists_reads t
  exact ⟨es, d, hr, fun x hx => h x (hps.mem_iff.2 hx), hes, hps⟩

/-- What a shallow reading gives are the expressions of a derivation of the repaired tokens. -/
theorem exists_derivation_of_shallow {t : Tokens} (h : (ofTokens t).Shallow) :
    ∃ g : Conjunction, g.lexemes = repaired t.tokens ∧ (ofTokens t).expressions = g.exprs := by
  obtain ⟨es, d, hr, hd, hes, -⟩ := exists_shallow_reads h
  obtain ⟨g, hg, hm⟩ := conjunction_mends hr hd 0 false nofun
  refine ⟨g, ?_, hes.trans hg.symm⟩
  rw [repaired_eq_mend]
  exact (List.append_nil _).symm.trans hm.symm

/-- If nothing in a text lies too deep, what is read are the expressions of the one derivation of the repaired tokens,
and their terms are those of the words of the text, one for each and in the same order. -/
theorem ofText_repaired (text : String) (shallow : ∀ d ∈ (ofText text).diagnostics, d.problem ≠ .nestingTooDeep) :
    (∃ g : Conjunction, g.lexemes = repaired (Tokens.ofChars text.toList).tokens ∧
      (∀ g' : Conjunction, g'.lexemes = repaired (Tokens.ofChars text.toList).tokens → g' = g) ∧
      (ofText text).expressions = g.exprs) ∧
    Expr.allTerms (ofText text).expressions =
      (words (Tokens.ofChars text.toList).lexemes).map Term.ofWord := by
  obtain ⟨g, hl, he⟩ := exists_derivation_of_shallow (t := Tokens.ofChars text.toList) shallow
  have he : (ofText text).expressions = g.exprs := he
  refine ⟨⟨g, hl, fun g' hl' => Conjunction.lexemes_injective (hl'.trans hl.symm), he⟩, ?_⟩
  rw [he, g.allTerms_exprs, hl, words_repaired, Tokens.lexemes]

/-- Every kind of repair in one text: two brackets without a partner, a bar and a negation without an operand. -/
theorem ofText_repaired_dangling :
    ((ofText ") (a | !) b | (c").diagnostics.map Diagnostic.problem).Perm
      [.unclosedGroup, .missingOperand .or, .missingOperand .not, .unmatchedClose] ∧
    ∃ g : Conjunction, (ofText ") (a | !) b | (c").expressions = g.exprs ∧
      g.lexemes = [.opening, .word "a", .closing, .word "b", .or, .opening, .word "c", .closing] := by
  have tokens : Tokens.ofChars ") (a | !) b | (c".toList =
      ⟨[⟨.closing, 0⟩, ⟨.opening, 2⟩, ⟨.word "a", 3⟩, ⟨.or, 5⟩, ⟨.not, 7⟩, ⟨.closing, 8⟩, ⟨.word "b", 10⟩, ⟨.or, 12⟩,
        ⟨.opening, 14⟩, ⟨.word "c", 15⟩], []⟩ := by decide
  have group : ∀ ts ps, ReadsAlternation
      ⟨⟨.opening, 2⟩ :: ⟨.word "a", 3⟩ :: ⟨.or, 5⟩ :: ⟨.not, 7⟩ :: ⟨.closing, 8⟩ :: ⟨.word "b", 10⟩ :: ts, 0, ps⟩
      (some (.group [.term (.ofWord "a")]))
      ⟨⟨.word "b", 10⟩ :: ts, 0, ⟨.missingOperand .or, 5⟩ :: ⟨.missingOperand .not, 7⟩ :: ps⟩ := fun ts ps =>
    .operands (.primary nofun (.group (by decide)
      (.item rfl (.operands (.primary nofun .word) (.missing (by decide) (.missing rfl))) .close))) (.stop nofun)
  have chain : ∀ ps, ReadsAlternation
      ⟨[⟨.word "b", 10⟩, ⟨.or, 12⟩, ⟨.opening, 14⟩, ⟨.word "c", 15⟩], 0, ps⟩
      (some (.or (.term (.ofWord "b")) (.group [.term (.ofWord "c")])))
      ⟨[], 0, ⟨.unclosedGroup, 14⟩ :: ps⟩ := fun ps =>
    .operands (.primary nofun .word) (.link (by decide) (.primary nofun (.group (by decide)
      (.item rfl (.operands (.primary nofun .word) (.stop nofun)) .unclosed))) (.stop nofun))
  have problems : ((ofText ") (a | !) b | (c").diagnostics.map Diagnostic.problem).Perm
      [.unclosedGroup, .missingOperand .or, .missingOperand .not, .unmatchedClose] := by
    have read := ReadsConjunction.unmatched (q := 0)
      (.item rfl (group _ [⟨.unmatchedClose, 0⟩]) (.item rfl (chain _) .done))
    rw [ofText, tokens]
    exact (ofTokens_of_reads (t := ⟨_, []⟩) read).2.map _
  have shallow : ∀ d ∈ (ofText ") (a | !) b | (c").diagnostics, d.problem ≠ .nestingTooDeep := by
    intro d hd h
    have hp := problems.mem_iff.1 (List.mem_map_of_mem hd)
    rw [h] at hp
    exact absurd hp (by decide)
  obtain ⟨⟨g, hl, -, hg⟩, -⟩ := ofText_repaired _ shallow
  refine ⟨problems, g, hg, hl.trans ?_⟩
  rw [tokens]
  decide

end Query

end TagQuery
