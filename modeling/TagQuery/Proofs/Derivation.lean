import TagQuery.Proofs.Grammar
import TagQuery.Proofs.Reading

/-!
# Readings and derivations

The functions of `Cursor` accept exactly the grammar within the nesting limit.  A derivation whose cost is within the
limit is read as its expressions and no problem is met (`Conjunction.reads`); a reading that meets no problem has read
a derivation (`conjunction_derivation`).  Together: the text of a query has nothing wrong with it exactly if its
tokens have a derivation within the limit, and the query is then the expressions of this derivation, the only one
(`ofText_derivation`).
-/

namespace TagQuery

open Cursor Grammar

namespace Cursor

theorem exists_eq_cons {ts : List Token} {l : Lexeme} {ls : List Lexeme} (h : ts.map Token.lexeme = l :: ls) :
    ∃ p us, ts = ⟨l, p⟩ :: us ∧ us.map Token.lexeme = ls := by
  obtain ⟨⟨_, p⟩, us, hts, rfl, hus⟩ := List.map_eq_cons_iff.1 h
  exact ⟨p, us, hts, hus⟩

theorem startsOperand_of_opens {ts : List Token} {l : Lexeme} {ls : List Lexeme} (h : ts.map Token.lexeme = l :: ls)
    (ho : opens l = true) : startsOperand ts = true := by
  obtain ⟨p, us, rfl, -⟩ := exists_eq_cons h
  cases l with
  | word _ | opening | not => rfl
  | closing | or => cases ho

/-- The lexemes that come after the expressions of a group, or of the query. -/
def ending (opened : Option Nat) (rest : List Token) : List Lexeme :=
  if opened.isSome then .closing :: rest.map Token.lexeme else rest.map Token.lexeme

end Cursor

/-! ### Every derivation is read -/

mutual

theorem Grammar.Conjunction.reads : ∀ (g : Conjunction) (depth : Nat) (problems : List Diagnostic)
    {ts us : List Token}, ts.map Token.lexeme = g.lexemes → (us.map Token.lexeme).head? ≠ some .or →
    depth + g.cost ≤ nestingLimit → ∀ {opened es d}, ReadsConjunction opened ⟨us, depth, problems⟩ es d →
      ReadsConjunction opened ⟨ts ++ us, depth, problems⟩ (g.exprs ++ es) d
  | .nil, depth, problems, ts, us, h, _, _, _, _, _, hr => by
    rw [Conjunction.lexemes, List.map_eq_nil_iff] at h
    rw [h]
    exact hr
  | .cons a g, depth, problems, ts, us, h, hu, hc, _, _, _, hr => by
    rw [Conjunction.cost] at hc
    obtain ⟨xs, ys, rfl, hx, hy⟩ := List.map_eq_append_iff.1 h
    obtain ⟨l, ls, hl, ho⟩ := a.lexemes_cons
    have starts : startsOperand (xs ++ (ys ++ us)) = true :=
      startsOperand_of_opens (by rw [List.map_append, hx, hl, List.cons_append]) ho
    have hyu : ((ys ++ us).map Token.lexeme).head? ≠ some .or := by
      rw [List.map_append, hy]
      exact g.head?_ne_or hu
    have ha := Alternation.reads a depth problems hx hyu (by omega)
    have hg := Conjunction.reads g depth problems hy hu (by omega) hr
    rw [List.append_assoc]
    exact .item starts ha hg

theorem Grammar.Alternation.reads : ∀ (a : Alternation) (depth : Nat) (problems : List Diagnostic)
    {ts us : List Token}, ts.map Token.lexeme = a.lexemes → (us.map Token.lexeme).head? ≠ some .or →
    depth + a.cost ≤ nestingLimit →
      ReadsAlternation ⟨ts ++ us, depth, problems⟩ (some a.expr) ⟨us, depth, problems⟩
  | .mk n os, depth, problems, ts, us, h, hu, hc => by
    rw [Alternation.cost] at hc
    obtain ⟨xs, ys, rfl, hx, hy⟩ := List.map_eq_append_iff.1 h
    have hn := Negation.reads n depth problems (ys ++ us) hx (by omega)
    have hos := Operands.reads os n.expr 0 depth problems hy hu (by rw [Nat.zero_add]; omega)
    rw [List.append_assoc]
    exact .operands hn hos

theorem Grammar.Operands.reads : ∀ (os : Operands) (left : Expr) (links depth : Nat) (problems : List Diagnostic)
    {ts us : List Token}, ts.map Token.lexeme = os.lexemes → (us.map Token.lexeme).head? ≠ some .or →
    depth + os.cost (links + 1) ≤ nestingLimit →
      ReadsAlternatives left links ⟨ts ++ us, depth + links, problems⟩ (os.fold left) ⟨us, depth, problems⟩
  | .nil, left, links, depth, problems, ts, us, h, hu, _ => by
    rw [Operands.lexemes, List.map_eq_nil_iff] at h
    have hs : ReadsAlternatives left links ⟨us, depth + links, problems⟩ left
        (leave ⟨us, depth + links, problems⟩ links) :=
      .stop (by rw [next_eq]; exact hu)
    rw [leave, Nat.add_sub_cancel] at hs
    rw [h]
    exact hs
  | .cons n os, left, links, depth, problems, ts, us, h, hu, hc => by
    rw [Operands.cost] at hc
    obtain ⟨p, ts, rfl, ht⟩ := exists_eq_cons h
    obtain ⟨xs, ys, rfl, hx, hy⟩ := List.map_eq_append_iff.1 ht
    have hn := Negation.reads n (depth + links + 1) problems (ys ++ us) hx (by omega)
    have hos := Operands.reads os (.or left n.expr) (links + 1) depth problems hy hu (by omega)
    rw [List.cons_append, List.append_assoc]
    exact .link (by omega) hn hos

theorem Grammar.Negation.reads : ∀ (n : Negation) (depth : Nat) (problems : List Diagnostic)
    {ts : List Token} (us : List Token), ts.map Token.lexeme = n.lexemes → depth + n.cost ≤ nestingLimit →
      ReadsNegation ⟨ts ++ us, depth, problems⟩ (some n.expr) ⟨us, depth, problems⟩
  | .not n, depth, problems, ts, us, h, hc => by
    rw [Negation.cost] at hc
    obtain ⟨p, ts, rfl, ht⟩ := exists_eq_cons h
    obtain ⟨l, ls, hl, ho⟩ := n.lexemes_cons
    have starts : startsOperand (ts ++ us) = true :=
      startsOperand_of_opens (by rw [List.map_append, ht, hl, List.cons_append]) ho
    have hn := Negation.reads n (depth + 1) problems us ht (by omega)
    exact .negated starts (by omega) hn
  | .primary p, depth, problems, ts, us, h, hc => by
    refine .primary ?_ (Primary.reads p depth problems us h hc)
    rw [next_eq, List.map_append, h]
    cases p <;> exact nofun

theorem Grammar.Primary.reads : ∀ (p : Primary) (depth : Nat) (problems : List Diagnostic)
    {ts : List Token} (us : List Token), ts.map Token.lexeme = p.lexemes → depth + p.cost ≤ nestingLimit →
      ReadsPrimary ⟨ts ++ us, depth, problems⟩ (some p.expr) ⟨us, depth, problems⟩
  | .word w, depth, problems, ts, us, h, _ => by
    obtain ⟨p, ts, rfl, ht⟩ := exists_eq_cons h
    rw [List.map_eq_nil_iff] at ht
    rw [ht]
    exact .word
  | .group g, depth, problems, ts, us, h, hc => by
    rw [Primary.cost] at hc
    obtain ⟨p, ts, rfl, ht⟩ := exists_eq_cons h
    obtain ⟨xs, ys, rfl, hx, hy⟩ := List.map_eq_append_iff.1 ht
    obtain ⟨q, zs, rfl, hz⟩ := exists_eq_cons hy
    rw [List.map_eq_nil_iff] at hz
    subst hz
    have hp : ReadsConjunction (some p) ⟨xs ++ ⟨.closing, q⟩ :: us, depth + 1, problems⟩ (g.exprs ++ [])
        ⟨us, depth + 1, problems⟩ :=
      Conjunction.reads g (depth + 1) problems hx (by simp) (by omega) .close
    rw [List.append_nil] at hp
    rw [List.cons_append, List.append_assoc]
    exact .group (by omega) hp

end

/-! ### Every reading without problems is a derivation -/

namespace Cursor

mutual

theorem conjunction_derivation {opened c es d} : ReadsConjunction opened c es d → c.depth ≤ nestingLimit →
    d.problems.length ≤ c.problems.length → ∃ g : Conjunction, g.exprs = es ∧
      c.rest.map Token.lexeme = g.lexemes ++ ending opened d.rest ∧ c.depth + g.cost ≤ nestingLimit
  | .unclosed, _, hp => absurd hp (Nat.not_succ_le_self _)
  | .done, hd, _ => ⟨.nil, rfl, rfl, hd⟩
  | .close, hd, _ => ⟨.nil, rfl, rfl, hd⟩
  | .unmatched h, _, hp =>
    absurd (Nat.le_trans (conjunction_keeps h).2.length_le hp) (Nat.not_succ_le_self _)
  | .strayOr h, _, hp =>
    absurd (Nat.le_trans (conjunction_keeps h).2.length_le hp) (Nat.not_succ_le_self _)
  | .item (e := r) starts ha h, hd, hp => by
    obtain ⟨hm, hcm⟩ := alternation_keeps ha
    have hcm := hcm.length_le
    have hmd := (conjunction_keeps h).2.length_le
    have ia := alternation_derivation ha hd (by omega)
    obtain ⟨g, rfl, hgl, hgc⟩ := conjunction_derivation h (hm ▸ hd) (by omega)
    cases r with
    | none =>
      -- the alternation was begun, so its failure would have been reported
      have := alternation_none ha starts
      omega
    | some e =>
      obtain ⟨a, rfl, hal, hac⟩ := ia e rfl
      refine ⟨.cons a g, rfl, ?_, ?_⟩
      · rw [hal, hgl, Conjunction.lexemes, List.append_assoc]
      · rw [Conjunction.cost]
        omega

theorem alternation_derivation {c r d} : ReadsAlternation c r d → c.depth ≤ nestingLimit →
    d.problems.length ≤ c.problems.length → ∀ e, r = some e → ∃ a : Alternation, a.expr = e ∧
      c.rest.map Token.lexeme = a.lexemes ++ d.rest.map Token.lexeme ∧ c.depth + a.cost ≤ nestingLimit
  | .nothing _, _, _, _, hr => nomatch hr
  | .operands h hs, hd, hp, _, rfl => by
    obtain ⟨hm, hcm⟩ := negation_keeps h
    have hcm := hcm.length_le
    have hmd := (alternatives_keeps hs).2.length_le
    have ihs := alternatives_derivation hs (hm ▸ hd) (Nat.zero_le _) (by omega)
    obtain ⟨n, rfl, hnl, hnc⟩ := negation_derivation h hd (by omega) _ rfl
    obtain ⟨os, rfl, hol, hoc⟩ := ihs
    refine ⟨.mk n os, rfl, ?_, ?_⟩
    · rw [hnl, hol, Alternation.lexemes, List.append_assoc]
    · rw [Nat.sub_zero, Nat.zero_add] at hoc
      rw [Alternation.cost]
      omega

theorem alternatives_derivation {left links c e d} : ReadsAlternatives left links c e d → c.depth ≤ nestingLimit →
    links ≤ c.depth → d.problems.length ≤ c.problems.length → ∃ os : Operands, os.fold left = e ∧
      c.rest.map Token.lexeme = os.lexemes ++ d.rest.map Token.lexeme ∧
      c.depth - links + os.cost (links + 1) ≤ nestingLimit
  | .stop _, hd, _, _ => ⟨.nil, rfl, rfl, Nat.le_trans (Nat.sub_le ..) hd⟩
  | @ReadsAlternatives.link _ _ _ _ n ps _ m _ _ room h hs, _, hl, hp => by
    obtain ⟨hm, hcm⟩ := negation_keeps h
    have hm : m.depth = n + 1 := hm
    have hcm : ps.length ≤ m.problems.length := hcm.length_le
    have hmd := (alternatives_keeps hs).2.length_le
    have hl : links ≤ n := hl
    have hp : d.problems.length ≤ ps.length := hp
    have ihs := alternatives_derivation hs (hm ▸ room) (by omega) (by omega)
    obtain ⟨a, rfl, hnl, hnc⟩ := negation_derivation h room (Nat.le_trans hmd hp) _ rfl
    obtain ⟨os, rfl, hol, hoc⟩ := ihs
    refine ⟨.cons a os, rfl, ?_, ?_⟩
    · rw [Operands.lexemes, List.cons_append, List.append_assoc, ← hol, ← hnl]
      rfl
    · -- of the levels that are open, `links` belong to the operands before and do not count for those that follow
      have hnc : n + 1 + a.cost ≤ nestingLimit := hnc
      rw [hm] at hoc
      show n - links + max (links + 1 + a.cost) (os.cost (links + 1 + 1)) ≤ nestingLimit
      omega
  | .missing _ h, _, _, hp =>
    absurd (Nat.le_trans hp (negation_keeps h).2.length_le) (Nat.not_succ_le_self _)
  | .cut _, _, _, hp => absurd hp (Nat.not_succ_le_self _)

theorem negation_derivation {c r d} : ReadsNegation c r d → c.depth ≤ nestingLimit →
    d.problems.length ≤ c.problems.length → ∀ e, r = some e → ∃ n : Negation, n.expr = e ∧
      c.rest.map Token.lexeme = n.lexemes ++ d.rest.map Token.lexeme ∧ c.depth + n.cost ≤ nestingLimit
  | .negated _ room h, _, hp, _, hr => by
    obtain ⟨e, he, rfl⟩ := Option.map_eq_some_iff.1 hr
    obtain ⟨n, rfl, hnl, hnc⟩ := negation_derivation h room hp e he
    refine ⟨.not n, rfl, ?_, ?_⟩
    · rw [Negation.lexemes, List.cons_append, List.map_cons]
      exact congrArg _ hnl
    · rw [Negation.cost, Nat.add_comm n.cost, ← Nat.add_assoc]
      exact hnc
  | .cut _ _, _, _, _, hr => nomatch hr
  | .missing _, _, _, _, hr => nomatch hr
  | .primary _ h, hd, hp, e, hr => by
    obtain ⟨p, rfl, hpl, hpc⟩ := primary_derivation h hd hp e hr
    exact ⟨.primary p, rfl, hpl, hpc⟩

theorem primary_derivation {c r d} : ReadsPrimary c r d → c.depth ≤ nestingLimit →
    d.problems.length ≤ c.problems.length → ∀ e, r = some e → ∃ p : Primary, p.expr = e ∧
      c.rest.map Token.lexeme = p.lexemes ++ d.rest.map Token.lexeme ∧ c.depth + p.cost ≤ nestingLimit
  | .word, hd, _, _, rfl => ⟨.word _, rfl, rfl, hd⟩
  | .group room h, _, hp, _, rfl => by
    obtain ⟨g, rfl, hgl, hgc⟩ := conjunction_derivation h room hp
    refine ⟨.group g, rfl, ?_, ?_⟩
    · rw [Primary.lexemes, List.cons_append, List.append_assoc, List.map_cons]
      exact congrArg _ hgl
    · rw [Primary.cost, Nat.add_comm g.cost, ← Nat.add_assoc]
      exact hgc
  | .cut _, _, _, _, hr => nomatch hr
  | .nothing _, _, _, _, hr => nomatch hr

end

end Cursor

namespace Query

/-- A derivation within the nesting limit is read as its expressions, without problems. -/
theorem ofTokens_of_derivation {t : Tokens} {g : Conjunction} (ht : t.diagnostics = []) (hl : g.lexemes = t.lexemes)
    (hc : g.cost ≤ nestingLimit) : (ofTokens t).diagnostics = [] ∧ (ofTokens t).expressions = g.exprs := by
  have hq : ReadsConjunction none ⟨t.tokens, 0, t.diagnostics.reverse⟩ g.exprs ⟨[], 0, []⟩ := by
    have hg := g.reads 0 [] hl.symm (nofun : ([].map Token.lexeme).head? ≠ some .or) (by omega) .done
    rw [List.append_nil, List.append_nil] at hg
    rw [ht]
    exact hg
  obtain ⟨he, hp⟩ := ofTokens_of_reads hq
  exact ⟨List.length_eq_zero_iff.1 hp.length_eq, he⟩

/-- Tokens that are read without problems have a derivation within the nesting limit. -/
theorem derivation_of_ofTokens {t : Tokens} (h : (ofTokens t).diagnostics = []) :
    t.diagnostics = [] ∧ ∃ g : Conjunction, g.lexemes = t.lexemes ∧ g.cost ≤ nestingLimit := by
  obtain ⟨es, d, hr, -, hps⟩ := exists_reads t
  have hd : d.problems = [] := by
    rw [h] at hps
    exact List.nil_perm.1 hps
  have none_before : t.diagnostics.reverse = [] := List.suffix_nil.1 (hd ▸ (conjunction_keeps hr).2)
  obtain ⟨g, -, hl, hc⟩ := conjunction_derivation hr (Nat.zero_le _) (by rw [hd]; exact Nat.zero_le _)
  rw [conjunction_rest hr rfl] at hl
  refine ⟨List.reverse_eq_nil_iff.1 none_before, g, ?_, ?_⟩
  · rw [Tokens.lexemes, hl, ending, if_neg (by simp), List.map_nil, List.append_nil]
  · rw [Nat.zero_add] at hc
    exact hc

/-- A text is read without problems exactly if its tokens have a derivation within the nesting limit, and what is
read are the expressions of the derivation; no tokens have two. -/
theorem ofText_derivation (text : String) :
    ((ofText text).diagnostics = [] ↔ (Tokens.ofChars text.toList).diagnostics = [] ∧
      ∃ g : Conjunction, g.lexemes = (Tokens.ofChars text.toList).lexemes ∧ g.cost ≤ nestingLimit) ∧
    ((ofText text).diagnostics = [] → ∀ g : Conjunction, g.lexemes = (Tokens.ofChars text.toList).lexemes →
      (ofText text).expressions = g.exprs) ∧
    ∀ g g' : Conjunction, g.lexemes = (Tokens.ofChars text.toList).lexemes →
      g'.lexemes = (Tokens.ofChars text.toList).lexemes → g = g' := by
  refine ⟨⟨derivation_of_ofTokens, ?_⟩, ?_, ?_⟩
  · rintro ⟨ht, g, hl, hc⟩
    exact (ofTokens_of_derivation ht hl hc).1
  · intro h g hg
    obtain ⟨ht, g', hl, hc⟩ := derivation_of_ofTokens h
    rw [Conjunction.lexemes_injective (hg.trans hl.symm)]
    exact (ofTokens_of_derivation ht hl hc).2
  · intro g g' hg hg'
    exact Conjunction.lexemes_injective (hg.trans hg'.symm)

end Query

end TagQuery
