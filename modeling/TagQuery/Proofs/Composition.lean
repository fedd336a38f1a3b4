import TagQuery.Proofs.Meaning
import TagQuery.Proofs.Scanning
import TagQuery.Proofs.Trees
import TagQuery.Record.Track

/-!
# Composing texts

What a text made of other texts means.  If nothing is wrong with the parts, their derivations are the parts of a
derivation of the whole (`Derives.both` and the lemmas beside it), whatever it costs.  A text whose tokens have a
derivation is read as this derivation unless something lies too deep, for the repair finds nothing to do
(`mend_of_derivation`).  So the matcher of the whole says what follows from the verdicts on the parts, however many
there are (`Composition.verdict_render`).

In an alternation of texts, the operands of the second text go on with the chain of the first.  The tree is then not
that of either text, but it holds of the same records (`Alternation.holds_or_iff`).
-/

namespace TagQuery

open Cursor Grammar

/-! ### A derivation is its own repair -/

mutual

/-- The repair leaves a derivation as it is and goes on after it.  What it knows of the operand before matters to a bar
only, and no bar begins a conjunction. -/
theorem Grammar.Conjunction.mend_lexemes : ∀ (g : Conjunction) (level : Nat) (ended : Bool) {ts : List Token}
    {r : List Lexeme}, ts.map Token.lexeme = g.lexemes ++ r → ∃ (us : List Token) (ended' : Bool),
      us.map Token.lexeme = r ∧ mend level ended ts = g.lexemes ++ mend level ended' us
  | .nil, _, ended, ts, _, h => ⟨ts, ended, h, rfl⟩
  | .cons a g, level, ended, ts, r, h => by
    rw [Conjunction.lexemes, List.append_assoc] at h
    obtain ⟨us, hus, ha⟩ := Alternation.mend_lexemes a level ended h
    obtain ⟨vs, ended', hvs, hg⟩ := Conjunction.mend_lexemes g level true hus
    refine ⟨vs, ended', hvs, ?_⟩
    rw [ha, hg, Conjunction.lexemes, List.append_assoc]

theorem Grammar.Alternation.mend_lexemes : ∀ (a : Alternation) (level : Nat) (ended : Bool) {ts : List Token}
    {r : List Lexeme}, ts.map Token.lexeme = a.lexemes ++ r → ∃ us : List Token,
      us.map Token.lexeme = r ∧ mend level ended ts = a.lexemes ++ mend level true us
  | .mk n os, level, ended, ts, r, h => by
    rw [Alternation.lexemes, List.append_assoc] at h
    obtain ⟨us, hus, -, hn⟩ := Negation.mend_lexemes n level h
    obtain ⟨vs, hvs, hos⟩ := Operands.mend_lexemes os level hus
    refine ⟨vs, hvs, ?_⟩
    rw [hn, hos, Alternation.lexemes, List.append_assoc]

theorem Grammar.Operands.mend_lexemes : ∀ (os : Operands) (level : Nat) {ts : List Token} {r : List Lexeme},
    ts.map Token.lexeme = os.lexemes ++ r → ∃ us : List Token,
      us.map Token.lexeme = r ∧ mend level true ts = os.lexemes ++ mend level true us
  | .nil, _, ts, _, h => ⟨ts, h, rfl⟩
  | .cons n os, level, ts, r, h => by
    rw [Operands.lexemes, List.cons_append, List.append_assoc] at h
    obtain ⟨p, us, rfl, hus⟩ := exists_eq_cons h
    obtain ⟨vs, hvs, hf, hn⟩ := Negation.mend_lexemes n level hus
    obtain ⟨ws, hws, hos⟩ := Operands.mend_lexemes os level hvs
    refine ⟨ws, hws, ?_⟩
    rw [mend, Bool.true_and, if_pos hf, hn, hos, Operands.lexemes, List.cons_append, List.append_assoc]

theorem Grammar.Negation.mend_lexemes : ∀ (n : Negation) (level : Nat) {ts : List Token} {r : List Lexeme},
    ts.map Token.lexeme = n.lexemes ++ r → ∃ us : List Token, us.map Token.lexeme = r ∧
      operandFollows ts = true ∧ ∀ ended, mend level ended ts = n.lexemes ++ mend level true us
  | .not n, level, ts, r, h => by
    rw [Negation.lexemes, List.cons_append] at h
    obtain ⟨p, us, rfl, hus⟩ := exists_eq_cons h
    obtain ⟨vs, hvs, hf, hn⟩ := Negation.mend_lexemes n level hus
    refine ⟨vs, hvs, hf, fun ended => ?_⟩
    rw [mend, if_pos hf, hn, Negation.lexemes, List.cons_append]
  | .primary p, level, ts, r, h => Primary.mend_lexemes p level h

theorem Grammar.Primary.mend_lexemes : ∀ (p : Primary) (level : Nat) {ts : List Token} {r : List Lexeme},
    ts.map Token.lexeme = p.lexemes ++ r → ∃ us : List Token, us.map Token.lexeme = r ∧
      operandFollows ts = true ∧ ∀ ended, mend level ended ts = p.lexemes ++ mend level true us
  | .word w, level, ts, r, h => by
    obtain ⟨p, us, rfl, hus⟩ := exists_eq_cons h
    exact ⟨us, hus, rfl, fun _ => rfl⟩
  | .group g, level, ts, r, h => by
    rw [Primary.lexemes, List.cons_append, List.append_assoc] at h
    obtain ⟨p, us, rfl, hus⟩ := exists_eq_cons h
    obtain ⟨vs, ended', hvs, hg⟩ := Conjunction.mend_lexemes g (level + 1) false hus
    obtain ⟨q, ws, rfl, hws⟩ := exists_eq_cons hvs
    refine ⟨ws, hws, rfl, fun ended => ?_⟩
    rw [mend, hg, Primary.lexemes, List.cons_append, List.append_assoc]
    rfl

end

theorem mend_of_derivation {g : Conjunction} {ts : List Token} (h : g.lexemes = ts.map Token.lexeme) :
    mend 0 false ts = g.lexemes := by
  obtain ⟨us, ended, hus, hm⟩ := g.mend_lexemes 0 false (h.symm.trans (List.append_nil _).symm)
  rw [List.map_eq_nil_iff] at hus
  rw [hm, hus]
  exact List.append_nil _

namespace Query

/-- A derivation is read as its expressions, unless something lies too deep. -/
theorem expressions_of_shallow {t : Tokens} {g : Conjunction} (hl : g.lexemes = t.lexemes)
    (h : (ofTokens t).Shallow) : (ofTokens t).expressions = g.exprs := by
  obtain ⟨g', hl', he⟩ := exists_derivation_of_shallow h
  rw [repaired_eq_mend, mend_of_derivation hl] at hl'
  rw [he, Conjunction.lexemes_injective hl']

end Query

/-! ### Derivations of composed texts -/

namespace Grammar

/-- The conjunction of what is in both. -/
def Conjunction.append : Conjunction → Conjunction → Conjunction
  | .nil, h => h
  | .cons a g, h => .cons a (g.append h)

/-- A conjunction of one alternation. -/
def Conjunction.single (a : Alternation) : Conjunction :=
  .cons a .nil

def Alternation.group (g : Conjunction) : Alternation :=
  .single (.primary (.group g))

def Alternation.notGroup (g : Conjunction) : Alternation :=
  .single (.not (.primary (.group g)))

namespace Conjunction

theorem lexemes_append : ∀ g h : Conjunction, (g.append h).lexemes = g.lexemes ++ h.lexemes
  | .nil, _ => rfl
  | .cons a g, h => by rw [append, lexemes, lexemes, lexemes_append g, List.append_assoc]

theorem exprs_append : ∀ g h : Conjunction, (g.append h).exprs = g.exprs ++ h.exprs
  | .nil, _ => rfl
  | .cons a g, h => by rw [append, exprs, exprs, exprs_append g, List.cons_append]

theorem cost_append : ∀ g h : Conjunction, (g.append h).cost = max g.cost h.cost
  | .nil, _ => (Nat.zero_max _).symm
  | .cons a g, h => by rw [append, cost, cost, cost_append g, Nat.max_assoc]

theorem lexemes_single (a : Alternation) : (single a).lexemes = a.lexemes :=
  List.append_nil _

theorem exists_eq_single {g : Conjunction} (h : g.exprs.length = 1) : ∃ a, g = single a := by
  match g, h with
  | .cons a .nil, _ => exact ⟨a, rfl⟩

end Conjunction

theorem Alternation.lexemes_group (g : Conjunction) : (group g).lexemes = .opening :: (g.lexemes ++ [.closing]) :=
  List.append_nil _

theorem Alternation.lexemes_notGroup (g : Conjunction) : (notGroup g).lexemes = .not :: (group g).lexemes := by
  rw [lexemes_group]
  exact List.append_nil _

end Grammar

/-- The tokens of the text are derived by `g`, whatever it costs. -/
def Derives (text : String) (g : Conjunction) : Prop :=
  Scans text.toList g.lexemes

namespace Derives

open Query

variable {x y : String} {g h : Conjunction} {a b : Alternation}

theorem of_clean (hx : (ofText x).diagnostics = []) :
    ∃ g, Derives x g ∧ (ofText x).expressions = g.exprs ∧ g.cost ≤ nestingLimit := by
  obtain ⟨ht, g, hl, hc⟩ := derivation_of_ofTokens hx
  exact ⟨g, ⟨ht, hl.symm⟩, (ofTokens_of_derivation ht hl hc).2, hc⟩

theorem expressions_of_shallow (hg : Derives x g) (h : (ofText x).Shallow) : (ofText x).expressions = g.exprs :=
  Query.expressions_of_shallow hg.lexemes.symm h

theorem both (hg : Derives x g) (hh : Derives y h) : Derives (x ++ " " ++ y) (g.append h) := by
  have hs := hg.space hh
  rw [← Conjunction.lexemes_append] at hs
  simpa [Derives] using hs

theorem bracketed (hg : Derives x g) : Derives ("(" ++ x ++ ")") (.single (.group g)) := by
  have hs := Scans.nil.operator (l := .opening) rfl (hg.operator (l := .closing) rfl .nil)
  rw [Derives, Conjunction.lexemes_single, Alternation.lexemes_group]
  simpa [Lexeme.chars] using hs

theorem negated (hg : Derives x g) : Derives ("!(" ++ x ++ ")") (.single (.notGroup g)) := by
  have hs := Scans.nil.operator (l := .not) rfl hg.bracketed
  rw [Conjunction.lexemes_single] at hs
  rw [Derives, Conjunction.lexemes_single, Alternation.lexemes_notGroup]
  simpa [Lexeme.chars] using hs

theorem either (ha : Derives x (.single a)) (hb : Derives y (.single b)) :
    Derives (x ++ " | " ++ y) (.single (a.or b)) := by
  have hs := ha.space (Scans.nil.operator (l := .or) rfl (Scans.nil.space hb))
  rw [Conjunction.lexemes_single, Conjunction.lexemes_single] at hs
  rw [Derives, Conjunction.lexemes_single, Alternation.lexemes_or]
  simpa [Lexeme.chars] using hs

end Derives

/-! ### What composed texts mean -/

section

variable {ρ : Type} [Tagged ρ] (folding : Folding) (keywordTags : List String) (record : ρ)

/-- The operands go on with any chain that stands before them. -/
theorem Grammar.Operands.holds_fold_or : ∀ (os : Operands) (l r : Expr),
    (os.fold (.or l r)).Holds folding keywordTags record ↔
      l.Holds folding keywordTags record ∨ (os.fold r).Holds folding keywordTags record
  | .nil, _, _ => Iff.rfl
  | .cons n os, l, r => by
    rw [Operands.fold, Operands.fold, holds_fold_or os, holds_fold_or os, Expr.Holds, or_assoc]

namespace Grammar.Alternation

theorem holds_or_iff (a b : Alternation) : (a.or b).expr.Holds folding keywordTags record ↔
    a.expr.Holds folding keywordTags record ∨ b.expr.Holds folding keywordTags record := by
  obtain ⟨n, os⟩ := a
  obtain ⟨n', os'⟩ := b
  rw [Alternation.or, expr, Operands.fold_append, Operands.fold, Operands.holds_fold_or, expr, expr]

theorem holds_group_iff (g : Conjunction) : (group g).expr.Holds folding keywordTags record ↔
    Expr.AllHold folding keywordTags record g.exprs := Iff.rfl

theorem holds_notGroup_iff (g : Conjunction) : (notGroup g).expr.Holds folding keywordTags record ↔
    ¬Expr.AllHold folding keywordTags record g.exprs := Iff.rfl

end Grammar.Alternation

namespace Grammar.Conjunction

theorem allHold_append_iff (g h : Conjunction) : Expr.AllHold folding keywordTags record (g.append h).exprs ↔
    Expr.AllHold folding keywordTags record g.exprs ∧ Expr.AllHold folding keywordTags record h.exprs := by
  simp only [Expr.allHold_iff, exprs_append, List.forall_mem_append]

theorem allHold_single_iff (a : Alternation) : Expr.AllHold folding keywordTags record (single a).exprs ↔
    a.expr.Holds folding keywordTags record :=
  and_iff_left trivial

end Grammar.Conjunction

end

namespace Matcher

variable {ρ : Type} [Tagged ρ]

/-- What the matcher of the text says of the record. -/
def verdict (o : Options) (record : ρ) (text : String) : Bool :=
  (compile text o).accepts record

theorem verdict_iff {text : String} {es : List Expr} (h : (Query.ofText text).expressions = es) (o : Options)
    (record : ρ) : verdict o record text = true ↔ Expr.AllHold o.folding o.keywordTags record es := by
  rw [verdict, compile, accepts_ofQuery_iff, h, Expr.allHold_iff]

end Matcher

/-- A way to put texts together. -/
inductive Composition
  | text (x : String)
  | both (a b : Composition)
  | bracketed (a : Composition)
  | negated (a : Composition)
  | either (a b : Composition)

namespace Composition

def render : Composition → String
  | text x => x
  | both a b => a.render ++ " " ++ b.render
  | bracketed a => "(" ++ a.render ++ ")"
  | negated a => "!(" ++ a.render ++ ")"
  | either a b => a.render ++ " | " ++ b.render

/-- The number of expressions of the whole. -/
def count : Composition → Nat
  | text x => (Query.ofText x).expressions.length
  | both a b => a.count + b.count
  | bracketed _ | negated _ | either _ _ => 1

/-- Nothing is wrong with the texts, and `|` stands between two expressions. -/
def Sound : Composition → Prop
  | text x => (Query.ofText x).diagnostics = []
  | both a b => a.Sound ∧ b.Sound
  | bracketed a | negated a => a.Sound
  | either a b => (a.Sound ∧ a.count = 1) ∧ b.Sound ∧ b.count = 1

variable {ρ : Type} [Tagged ρ]

/-- What follows from the verdicts on the texts. -/
def verdict (o : Options) (record : ρ) : Composition → Bool
  | text x => Matcher.verdict o record x
  | both a b => a.verdict o record && b.verdict o record
  | bracketed a => a.verdict o record
  | negated a => !a.verdict o record
  | either a b => a.verdict o record || b.verdict o record

/-- The derivation of the whole, which holds of a record if the verdict is positive. -/
theorem exists_derives (o : Options) (record : ρ) (c : Composition) (hc : c.Sound) : ∃ g : Conjunction,
    Derives c.render g ∧ g.exprs.length = c.count ∧
      (c.verdict o record = true ↔ Expr.AllHold o.folding o.keywordTags record g.exprs) := by
  induction c with
  | text x =>
    obtain ⟨g, hg, he, -⟩ := Derives.of_clean hc
    exact ⟨g, hg, congrArg List.length he.symm, Matcher.verdict_iff he o record⟩
  | both a b iha ihb =>
    obtain ⟨g, hg, hgc, hgv⟩ := iha hc.1
    obtain ⟨h, hh, hhc, hhv⟩ := ihb hc.2
    refine ⟨g.append h, hg.both hh, ?_, ?_⟩
    · rw [Conjunction.exprs_append, List.length_append, hgc, hhc, count]
    · rw [verdict, Bool.and_eq_true, hgv, hhv, Conjunction.allHold_append_iff]
  | bracketed a ih =>
    obtain ⟨g, hg, -, hgv⟩ := ih hc
    refine ⟨_, hg.bracketed, rfl, ?_⟩
    rw [verdict, hgv, Conjunction.allHold_single_iff, Alternation.holds_group_iff]
  | negated a ih =>
    obtain ⟨g, hg, -, hgv⟩ := ih hc
    refine ⟨_, hg.negated, rfl, ?_⟩
    rw [verdict, Bool.not_eq_true', ← Bool.not_eq_true, hgv, Conjunction.allHold_single_iff,
      Alternation.holds_notGroup_iff]
  | either a b iha ihb =>
    obtain ⟨g, hg, hgc, hgv⟩ := iha hc.1.1
    obtain ⟨h, hh, hhc, hhv⟩ := ihb hc.2.1
    obtain ⟨m, rfl⟩ := Conjunction.exists_eq_single (hgc.trans hc.1.2)
    obtain ⟨n, rfl⟩ := Conjunction.exists_eq_single (hhc.trans hc.2.2)
    refine ⟨_, hg.either hh, rfl, ?_⟩
    rw [verdict, Bool.or_eq_true, hgv, hhv, Conjunction.allHold_single_iff, Conjunction.allHold_single_iff,
      Conjunction.allHold_single_iff, Alternation.holds_or_iff]

theorem verdict_render (o : Options) (record : ρ) {c : Composition} (hc : c.Sound)
    (h : (Query.ofText c.render).Shallow) : Matcher.verdict o record c.render = c.verdict o record := by
  obtain ⟨g, hg, -, hv⟩ := exists_derives o record c hc
  rw [Bool.eq_iff_iff, Matcher.verdict_iff (hg.expressions_of_shallow h), hv]

end Composition

/-- Side by side, two texts are no deeper than each is. -/
theorem Query.shallow_both {x y : String} (hx : (ofText x).diagnostics = []) (hy : (ofText y).diagnostics = []) :
    (ofText (x ++ " " ++ y)).Shallow := by
  obtain ⟨g, hg, -, hgc⟩ := Derives.of_clean hx
  obtain ⟨h, hh, -, hhc⟩ := Derives.of_clean hy
  have hgh := hg.both hh
  have hc : (g.append h).cost ≤ nestingLimit := by
    rw [Conjunction.cost_append]
    exact Nat.max_le.2 ⟨hgc, hhc⟩
  have hd : (ofText (x ++ " " ++ y)).diagnostics = [] :=
    (ofTokens_of_derivation hgh.diagnostics hgh.lexemes.symm hc).1
  intro d hmem
  rw [hd] at hmem
  cases hmem

namespace Matcher

open Query

variable {ρ : Type} [Tagged ρ]

/-- If nothing is wrong with some texts, the matcher of a text composed of them says what follows from the verdicts of
their matchers, as long as nothing in the whole lies too deep.  So the order of the parts does not matter, nor how
they are put together. -/
theorem verdict_composed {x y z : String} (hx : (ofText x).diagnostics = [])
    (hy : (ofText y).diagnostics = []) (hz : (ofText z).diagnostics = []) (o : Options) (record : ρ) :
    verdict o record (x ++ " " ++ y) = (verdict o record x && verdict o record y) ∧
    ((ofText ("(" ++ x ++ ")")).Shallow → verdict o record ("(" ++ x ++ ")") = verdict o record x) ∧
    ((ofText ("!(" ++ x ++ ")")).Shallow → verdict o record ("!(" ++ x ++ ")") = !verdict o record x) ∧
    ((ofText x).expressions.length = 1 → (ofText y).expressions.length = 1 → (ofText (x ++ " | " ++ y)).Shallow →
      verdict o record (x ++ " | " ++ y) = (verdict o record x || verdict o record y)) ∧
    verdict o record (x ++ " " ++ y) = verdict o record (y ++ " " ++ x) ∧
    ((ofText ("(" ++ (x ++ " " ++ y) ++ ")" ++ " " ++ z)).Shallow →
      (ofText (x ++ " " ++ ("(" ++ (y ++ " " ++ z) ++ ")"))).Shallow →
      verdict o record ("(" ++ (x ++ " " ++ y) ++ ")" ++ " " ++ z) =
        verdict o record (x ++ " " ++ ("(" ++ (y ++ " " ++ z) ++ ")"))) ∧
    ((ofText x).expressions.length = 1 → (ofText y).expressions.length = 1 →
      (ofText (x ++ " | " ++ y)).Shallow → (ofText (y ++ " | " ++ x)).Shallow →
      verdict o record (x ++ " | " ++ y) = verdict o record (y ++ " | " ++ x)) ∧
    ((ofText x).expressions.length = 1 → (ofText y).expressions.length = 1 → (ofText z).expressions.length = 1 →
      (ofText ("(" ++ (x ++ " | " ++ y) ++ ")" ++ " | " ++ z)).Shallow →
      (ofText (x ++ " | " ++ ("(" ++ (y ++ " | " ++ z) ++ ")"))).Shallow →
      verdict o record ("(" ++ (x ++ " | " ++ y) ++ ")" ++ " | " ++ z) =
        verdict o record (x ++ " | " ++ ("(" ++ (y ++ " | " ++ z) ++ ")"))) := by
  have whole : ∀ c : Composition, c.Sound → (ofText c.render).Shallow →
      verdict o record c.render = c.verdict o record := fun c => c.verdict_render o record
  have both {x y : String} (hx : (ofText x).diagnostics = []) (hy : (ofText y).diagnostics = []) :
      verdict o record (x ++ " " ++ y) = (verdict o record x && verdict o record y) :=
    whole (.both (.text x) (.text y)) ⟨hx, hy⟩ (shallow_both hx hy)
  refine ⟨both hx hy, whole (.bracketed (.text x)) hx, whole (.negated (.text x)) hx, ?_, ?_, ?_, ?_, ?_⟩
  · intro nx ny
    exact whole (.either (.text x) (.text y)) ⟨⟨hx, nx⟩, hy, ny⟩
  · rw [both hx hy, both hy hx, Bool.and_comm]
  · intro hl hr
    have left := whole (.both (.bracketed (.both (.text x) (.text y))) (.text z)) ⟨⟨hx, hy⟩, hz⟩ hl
    have right := whole (.both (.text x) (.bracketed (.both (.text y) (.text z)))) ⟨hx, hy, hz⟩ hr
    exact left.trans ((Bool.and_assoc ..).trans right.symm)
  · intro nx ny hl hr
    have left := whole (.either (.text x) (.text y)) ⟨⟨hx, nx⟩, hy, ny⟩ hl
    have right := whole (.either (.text y) (.text x)) ⟨⟨hy, ny⟩, hx, nx⟩ hr
    exact left.trans ((Bool.or_comm ..).trans right.symm)
  · intro nx ny nz hl hr
    have left := whole (.either (.bracketed (.either (.text x) (.text y))) (.text z))
      ⟨⟨⟨⟨hx, nx⟩, hy, ny⟩, rfl⟩, hz, nz⟩ hl
    have right := whole (.either (.text x) (.bracketed (.either (.text y) (.text z))))
      ⟨⟨hx, nx⟩, ⟨⟨hy, ny⟩, hz, nz⟩, rfl⟩ hr
    exact left.trans ((Bool.or_assoc ..).trans right.symm)

/-- Two chains, the second with a quotation, and an escaped bracket. -/
theorem verdict_composed_chains : ∃ (o : Options) (track : Track),
    verdict o track ("a | q" ++ " " ++ "\"q r\" | !b") = false ∧
    verdict o track ("(" ++ "a | q" ++ ")") = true ∧
    verdict o track ("!(" ++ "a | q" ++ ")") = false ∧
    verdict o track ("a | q" ++ " | " ++ "\"q r\" | !b") = true ∧
    verdict o track ("a | q" ++ " " ++ "\"q r\" | !b") = verdict o track ("\"q r\" | !b" ++ " " ++ "a | q") ∧
    verdict o track ("(" ++ ("a | q" ++ " " ++ "\"q r\" | !b") ++ ")" ++ " " ++ "t=\\(") =
      verdict o track ("a | q" ++ " " ++ ("(" ++ ("\"q r\" | !b" ++ " " ++ "t=\\(") ++ ")")) ∧
    verdict o track ("a | q" ++ " | " ++ "\"q r\" | !b") = verdict o track ("\"q r\" | !b" ++ " | " ++ "a | q") ∧
    verdict o track ("(" ++ ("a | q" ++ " | " ++ "\"q r\" | !b") ++ ")" ++ " | " ++ "t=\\(") =
      verdict o track ("a | q" ++ " | " ++ ("(" ++ ("\"q r\" | !b" ++ " | " ++ "t=\\(") ++ ")")) := by
  refine ⟨{ keywordTags := ["title"] }, Track.empty.insert "title" (.one "ab"), ?_⟩
  obtain ⟨both, bracketed, negated, either, bothComm, bothAssoc, eitherComm, eitherAssoc⟩ :=
    verdict_composed (x := "a | q") (y := "\"q r\" | !b") (z := "t=\\(") (by decide +kernel)
      (by decide +kernel) (by decide +kernel) { keywordTags := ["title"] }
      (Track.empty.insert "title" (.one "ab"))
  have hx : verdict { keywordTags := ["title"] } (Track.empty.insert "title" (.one "ab")) "a | q" = true := by
    decide +kernel
  have hy : verdict { keywordTags := ["title"] } (Track.empty.insert "title" (.one "ab")) "\"q r\" | !b" = false := by
    decide +kernel
  have nx : (ofText "a | q").expressions.length = 1 := by decide +kernel
  have ny : (ofText "\"q r\" | !b").expressions.length = 1 := by decide +kernel
  refine ⟨?_, ?_, ?_, ?_, bothComm, bothAssoc (by decide +kernel) (by decide +kernel),
    eitherComm nx ny (by decide +kernel) (by decide +kernel),
    eitherAssoc nx ny (by decide +kernel) (by decide +kernel) (by decide +kernel)⟩
  · rw [both, hx, hy, Bool.and_false]
  · rw [bracketed (by decide +kernel), hx]
  · rw [negated (by decide +kernel), hx, Bool.not_true]
  · rw [either nx ny (by decide +kernel), hx, Bool.true_or]

end Matcher

end TagQuery
