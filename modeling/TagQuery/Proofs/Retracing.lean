import TagQuery.Proofs.Cuts
import TagQuery.Proofs.LexicalFormat

/-!
# Cuts are local

A construct that lies too deep goes together with the rest of its group, and nothing else changes
(`Query.ofText_trimmed`): a reading can be retraced on the tokens that are left when what it found too deep has been cut
away, and takes the same expressions from them (`Cursor.conjunction_retraces` and the lemmas beside it).  Where the
reading cuts, the tokens that are left end or go on with a closing bracket, so no operand is read.  A negation right
before a cut has lost its operand and is reported for this; everything else that is reported is the same.

The reading tells by positions what it found too deep.  No two tokens stand at one position, so what it has found
stands behind it, and what it will find lies before it (`Cursor.Fresh`, `Cursor.Finds`).
-/

namespace TagQuery

open Cursor

/-- Whether a diagnostic is neither about depth nor about the operand of a negation. -/
def Diagnostic.stands (x : Diagnostic) : Bool :=
  decide (x.problem ≠ .nestingTooDeep ∧ x.problem ≠ .missingOperand .not)

namespace Cursor

variable {found : List Diagnostic} {c d : Cursor}

/-- No two of the tokens that are left stand at one position, and none of them has been reported as too deep. -/
structure Fresh (c : Cursor) : Prop where
  nodup : (c.rest.map Token.position).Nodup
  not_mem : ∀ t ∈ c.rest, ⟨.nestingTooDeep, t.position⟩ ∉ c.problems

/-- What is found too deep has been reported, or is one of the tokens that are left. -/
structure Finds (found : List Diagnostic) (d : Cursor) : Prop where
  reported : ∀ p, ⟨.nestingTooDeep, p⟩ ∈ d.problems → ⟨.nestingTooDeep, p⟩ ∈ found
  later : ∀ p, ⟨.nestingTooDeep, p⟩ ∈ found → ⟨.nestingTooDeep, p⟩ ∈ d.problems ∨ ∃ t ∈ d.rest, t.position = p

theorem Passes.fresh (h : Passes c d) (hc : Fresh c) : Fresh d := by
  obtain ⟨gone, hr, -, hn⟩ := h
  have nodup := hc.nodup
  rw [hr, List.map_append, List.nodup_append] at nodup
  obtain ⟨-, hd, apart⟩ := nodup
  refine ⟨hd, fun t ht hp => ?_⟩
  rcases hn _ hp with hp | ⟨u, hu, hpos, -⟩
  · exact hc.not_mem t (hr ▸ List.mem_append_right _ ht) hp
  · exact apart _ (List.mem_map_of_mem hu) _ (List.mem_map_of_mem ht) hpos

theorem Passes.finds (h : Passes c d) (hd : Finds found d) : Finds found c := by
  obtain ⟨gone, hr, hp, hn⟩ := h
  refine ⟨fun p h => hd.reported p (hp h), fun p h => ?_⟩
  rw [hr]
  rcases hd.later p h with h | ⟨t, ht, hpos⟩
  · rcases hn p h with h | ⟨t, ht, hpos, -⟩
    · exact .inl h
    · exact .inr ⟨t, List.mem_append_left _ ht, hpos⟩
  · exact .inr ⟨t, List.mem_append_right _ ht, hpos⟩

theorem Finds.of_leave {levels : Nat} (hd : Finds found (d.leave levels)) : Finds found d :=
  ⟨hd.reported, hd.later⟩

/-- A token that has been passed and not been reported was not found. -/
theorem Finds.not_mem (hd : Finds found d) (gone : List Token)
    (nodup : ((gone ++ d.rest).map Token.position).Nodup) {t : Token} (ht : t ∈ gone)
    (hn : ⟨.nestingTooDeep, t.position⟩ ∉ d.problems) : ⟨.nestingTooDeep, t.position⟩ ∉ found := by
  intro h
  rw [List.map_append, List.nodup_append] at nodup
  obtain ⟨-, -, apart⟩ := nodup
  rcases hd.later _ h with h | ⟨u, hu, hpos⟩
  · exact hn h
  · exact apart _ (List.mem_map_of_mem ht) _ (List.mem_map_of_mem hu) hpos.symm

variable {t : Token} {rest ks : List Token} {depth depth' : Nat} {problems : List Diagnostic}

/-- A token that is passed without a report stays. -/
theorem Finds.keep (hd : Finds found ⟨rest, depth', problems⟩) (hc : Fresh ⟨t :: rest, depth, problems⟩)
    (h : Trims found rest ks) : Trims found (t :: rest) (t :: ks) :=
  .keep (hd.not_mem [t] hc.nodup List.mem_cons_self (hc.not_mem t List.mem_cons_self)) h

/-- So does one that is reported for another reason. -/
theorem Finds.keep_reported {x : Diagnostic} (hx : x.problem ≠ .nestingTooDeep)
    (hd : Finds found ⟨rest, depth', x :: problems⟩) (hc : Fresh ⟨t :: rest, depth, problems⟩)
    (h : Trims found rest ks) : Trims found (t :: rest) (t :: ks) :=
  Finds.keep (Passes.finds (c := ⟨rest, depth', problems⟩) (.reported hx) hd) hc h

theorem Finds.trims_cut (ht : t.lexeme.nests = true)
    (hd : Finds found ⟨groupEnd (openBrackets [t]).length rest, depth', ⟨.nestingTooDeep, t.position⟩ :: problems⟩)
    (hc : Fresh ⟨t :: rest, depth, problems⟩) (h : Trims found (groupEnd (openBrackets [t]).length rest) ks) :
    Trims found (t :: rest) ks := by
  rw [groupEnd_eq_fromUnmatched] at hd h
  obtain ⟨gone, hg⟩ := fromUnmatched_suffix [t] rest
  refine .cut (hd.reported _ List.mem_cons_self) ht hg (fun u hu => ?_) h
  have hu' : u ∈ rest := hg ▸ List.mem_append_left _ hu
  have nodup : (t.position :: (rest.map Token.position)).Nodup := hc.nodup
  rw [List.nodup_cons] at nodup
  refine hd.not_mem gone (hg.symm ▸ nodup.2) hu fun hp => ?_
  rcases List.mem_cons.1 hp with hp | hp
  · exact nodup.1 ((Diagnostic.mk.inj hp).2 ▸ List.mem_map_of_mem hu')
  · exact hc.not_mem u (List.mem_cons_of_mem _ hu') hp

/-! ### What is reported -/

/-- The first diagnostics are the second without those of depth, apart from what is said of negations. -/
structure Agree (ps qs : List Diagnostic) : Prop where
  shallow : ∀ x ∈ ps, x.problem ≠ .nestingTooDeep
  same : ps.filter Diagnostic.stands = qs.filter Diagnostic.stands

namespace Agree

variable {ps qs : List Diagnostic} {x : Diagnostic}

theorem cons (h : Agree ps qs) (hx : x.problem ≠ .nestingTooDeep) : Agree (x :: ps) (x :: qs) :=
  ⟨List.forall_mem_cons.2 ⟨hx, h.shallow⟩, by rw [List.filter_cons, List.filter_cons, h.same]⟩

theorem deep (h : Agree ps qs) {p : Nat} : Agree ps (⟨.nestingTooDeep, p⟩ :: qs) :=
  ⟨h.shallow, h.same⟩

theorem missingNot (h : Agree ps qs) {p : Nat} : Agree (⟨.missingOperand .not, p⟩ :: ps) qs :=
  ⟨List.forall_mem_cons.2 ⟨by simp, h.shallow⟩, h.same⟩

end Agree

/-! ### Retracing -/

/-- The reading from `c` to `d` that gives `a` can be retraced on what cuts leave of the tokens. -/
def Retraces {α : Type} (Reads : Cursor → α → Cursor → Prop) (found : List Diagnostic) (c : Cursor) (a : α)
    (d : Cursor) : Prop :=
  ∀ ks, Trims found d.rest ks → ∃ ks', Trims found c.rest ks' ∧ ∀ ps, Agree ps c.problems →
    ∃ ps', Agree ps' d.problems ∧ Reads ⟨ks', c.depth, ps⟩ a ⟨ks, d.depth, ps'⟩

/-- Where no operand begins, none is read. -/
theorem negation_of_not_starts {c d : Cursor} {e : Option Expr} (h : ReadsNegation c e d)
    (hs : startsOperand c.rest = false) : e = none ∧ d = c := by
  cases h with
  | negated => cases hs
  | cut => cases hs
  | missing => cases hs
  | primary _ h =>
    cases h with
    | word => cases hs
    | group => cases hs
    | cut => cases hs
    | nothing => exact ⟨rfl, rfl⟩

theorem alternation_of_not_starts {c d : Cursor} {e : Option Expr} (h : ReadsAlternation c e d)
    (hs : startsOperand c.rest = false) : e = none ∧ d = c := by
  cases h with
  | nothing h => exact negation_of_not_starts h hs
  | operands h => cases (negation_of_not_starts h hs).1

mutual

theorem conjunction_retraces {opened c es d} : ReadsConjunction opened c es d → Fresh c → Finds found d →
    Retraces (ReadsConjunction opened) found c es d
  | .unclosed, _, _, ks, h => by
    cases h
    exact ⟨[], .nil, fun ps hp => ⟨_, hp.cons nofun, .unclosed⟩⟩
  | .done, _, _, ks, h => by
    cases h
    exact ⟨[], .nil, fun ps hp => ⟨_, hp, .done⟩⟩
  | .close, hc, hd, ks, h => ⟨_, hd.keep hc h, fun ps hp => ⟨_, hp, .close⟩⟩
  | .unmatched hr, hc, hd, ks, h => by
    obtain ⟨ks', hk, ih⟩ := conjunction_retraces hr (Passes.fresh (.dropped (by nofun)) hc) hd ks h
    refine ⟨_, Finds.keep_reported (by nofun) ((conjunction_passes hr).finds hd) hc hk, fun ps hp => ?_⟩
    obtain ⟨ps', hp', hr'⟩ := ih _ (hp.cons (by nofun))
    exact ⟨ps', hp', .unmatched hr'⟩
  | .strayOr hr, hc, hd, ks, h => by
    obtain ⟨ks', hk, ih⟩ := conjunction_retraces hr (Passes.fresh (.dropped (by nofun)) hc) hd ks h
    refine ⟨_, Finds.keep_reported (by nofun) ((conjunction_passes hr).finds hd) hc hk, fun ps hp => ?_⟩
    obtain ⟨ps', hp', hr'⟩ := ih _ (hp.cons (by nofun))
    exact ⟨ps', hp', .strayOr hr'⟩
  | .item _ ha hr, hc, hd, ks, h => by
    obtain ⟨ks₁, hk₁, ih⟩ := conjunction_retraces hr ((alternation_passes ha).fresh hc) hd ks h
    obtain ⟨ks', hk', iha⟩ := alternation_retraces ha hc ((conjunction_passes hr).finds hd) ks₁ hk₁
    refine ⟨ks', hk', fun ps hp => ?_⟩
    obtain ⟨ps₁, hp₁, ha'⟩ := iha ps hp
    obtain ⟨ps', hp', hr'⟩ := ih ps₁ hp₁
    refine ⟨ps', hp', ?_⟩
    by_cases starts : startsOperand ks' = true
    · exact .item starts ha' hr'
    · -- the first operand was cut away
      obtain ⟨rfl, he⟩ := alternation_of_not_starts ha' (Bool.eq_false_iff.2 starts)
      rw [← he]
      exact hr'

theorem alternation_retraces {c e d} : ReadsAlternation c e d → Fresh c → Finds found d →
    Retraces ReadsAlternation found c e d
  | .nothing hn, hc, hd, ks, h => by
    obtain ⟨ks', hk, ih⟩ := negation_retraces hn hc hd ks h
    refine ⟨ks', hk, fun ps hp => ?_⟩
    obtain ⟨ps', hp', hn'⟩ := ih ps hp
    exact ⟨ps', hp', .nothing hn'⟩
  | .operands hn hs, hc, hd, ks, h => by
    obtain ⟨ks₁, hk₁, ih⟩ := alternatives_retraces hs ((negation_passes hn).fresh hc) hd ks h
    obtain ⟨ks', hk', ihn⟩ := negation_retraces hn hc ((alternatives_passes hs).finds hd) ks₁ hk₁
    refine ⟨ks', hk', fun ps hp => ?_⟩
    obtain ⟨ps₁, hp₁, hn'⟩ := ihn ps hp
    obtain ⟨ps', hp', hs'⟩ := ih ps₁ hp₁
    exact ⟨ps', hp', .operands hn' hs'⟩

theorem alternatives_retraces {left links c e d} : ReadsAlternatives left links c e d → Fresh c → Finds found d →
    Retraces (ReadsAlternatives left links) found c e d
  | .stop hn, _, _, ks, h => ⟨ks, h, fun ps hp => ⟨ps, hp, .stop (h.next_ne (by nofun) hn)⟩⟩
  | .link room hn hs, hc, hd, ks, h => by
    have hm := (alternatives_passes hs).finds hd
    obtain ⟨ks₁, hk₁, ih⟩ := alternatives_retraces hs ((negation_passes hn).fresh (Passes.token.fresh hc)) hd ks h
    obtain ⟨ks₂, hk₂, ihn⟩ := negation_retraces hn (Passes.token.fresh hc) hm ks₁ hk₁
    refine ⟨_, Finds.keep ((negation_passes hn).finds hm) hc hk₂, fun ps hp => ?_⟩
    obtain ⟨ps₁, hp₁, hn'⟩ := ihn ps hp
    obtain ⟨ps', hp', hs'⟩ := ih ps₁ hp₁
    exact ⟨ps', hp', .link room hn' hs'⟩
  | .missing (m := m) room hn, hc, hd, ks, h => by
    have hm : Finds found m := Passes.finds (.reported (by nofun)) hd
    obtain ⟨ks', hk, ih⟩ := negation_retraces hn (Passes.token.fresh hc) hm ks h
    refine ⟨_, Finds.keep ((negation_passes hn).finds hm) hc hk, fun ps hp => ?_⟩
    obtain ⟨ps', hp', hn'⟩ := ih ps hp
    exact ⟨_, hp'.cons nofun, .missing room hn'⟩
  | .cut (p := p) _, hc, hd, ks, h => by
    have hk := Finds.trims_cut (t := ⟨.or, p⟩) rfl hd hc h
    refine ⟨ks, hk, fun ps hp => ⟨ps, hp.deep, ?_⟩⟩
    rcases h.of_groupEnd with rfl | ⟨q, ks, rfl⟩
    · exact .stop nofun
    · exact .stop nofun

theorem negation_retraces {c e d} : ReadsNegation c e d → Fresh c → Finds found d → Retraces ReadsNegation found c e d
  | .negated (d := d) _ room hn, hc, hd, ks, h => by
    obtain ⟨ks', hk, ih⟩ := negation_retraces hn (Passes.token.fresh hc) hd.of_leave ks h
    refine ⟨_, Finds.keep ((negation_passes hn).finds hd.of_leave) hc hk, fun ps hp => ?_⟩
    obtain ⟨ps', hp', hn'⟩ := ih ps hp
    by_cases starts : startsOperand ks' = true
    · exact ⟨ps', hp', .negated starts room hn'⟩
    · -- the operand of the negation was cut away
      have starts := Bool.eq_false_iff.2 starts
      obtain ⟨rfl, he⟩ := negation_of_not_starts hn' starts
      obtain ⟨rfl, hdepth, rfl⟩ := Cursor.mk.inj he
      have hdepth : (d.leave 1).depth = _ := congrArg (· - 1) hdepth
      rw [hdepth]
      exact ⟨_, hp'.missingNot, .missing starts⟩
  | .cut (p := p) _ _, hc, hd, ks, h => by
    have hk := Finds.trims_cut (t := ⟨.not, p⟩) rfl hd hc h
    refine ⟨ks, hk, fun ps hp => ⟨ps, hp.deep, ?_⟩⟩
    rcases h.of_groupEnd with rfl | ⟨q, ks, rfl⟩
    · exact .primary nofun (.nothing rfl)
    · exact .primary nofun (.nothing rfl)
  | .missing starts, hc, hd, ks, h => by
    have starts' := h.startsOperand_eq_false starts
    exact ⟨_, Finds.keep_reported (by nofun) hd hc h, fun ps hp => ⟨_, hp.cons (by nofun), .missing starts'⟩⟩
  | .primary hn hp, hc, hd, ks, h => by
    obtain ⟨ks', hk, ih⟩ := primary_retraces hp hc hd ks h
    refine ⟨ks', hk, fun ps hps => ?_⟩
    obtain ⟨ps', hp', hr⟩ := ih ps hps
    exact ⟨ps', hp', .primary (hk.next_ne (by nofun) hn) hr⟩

theorem primary_retraces {c e d} : ReadsPrimary c e d → Fresh c → Finds found d → Retraces ReadsPrimary found c e d
  | .word, hc, hd, ks, h => ⟨_, hd.keep hc h, fun ps hp => ⟨ps, hp, .word⟩⟩
  | .group room hr, hc, hd, ks, h => by
    obtain ⟨ks', hk, ih⟩ := conjunction_retraces hr (Passes.token.fresh hc) hd.of_leave ks h
    refine ⟨_, Finds.keep ((conjunction_passes hr).finds hd.of_leave) hc hk, fun ps hp => ?_⟩
    obtain ⟨ps', hp', hr'⟩ := ih ps hp
    exact ⟨ps', hp', .group room hr'⟩
  | .cut (p := p) _, hc, hd, ks, h => by
    have hk := Finds.trims_cut (t := ⟨.opening, p⟩) rfl hd hc h
    refine ⟨ks, hk, fun ps hp => ⟨ps, hp.deep, ?_⟩⟩
    rcases h.of_groupEnd with rfl | ⟨q, ks, rfl⟩
    · exact .nothing rfl
    · exact .nothing rfl
  | .nothing hp, _, _, ks, h => ⟨ks, h, fun ps hps => ⟨ps, hps, .nothing (h.startsPrimary_eq_false hp)⟩⟩

end

end Cursor

namespace Query

/-- What is found too deep is a token that costs a level. -/
theorem exists_token_of_tooDeep {t : Tokens} (shallow : ∀ x ∈ t.diagnostics, x.problem ≠ .nestingTooDeep) {p : Nat}
    (h : ⟨.nestingTooDeep, p⟩ ∈ (ofTokens t).diagnostics) :
    ∃ u ∈ t.tokens, u.position = p ∧ u.lexeme.nests = true := by
  obtain ⟨es, d, hr, -, hps⟩ := exists_reads t
  obtain ⟨gone, hrest, -, hn⟩ := conjunction_passes hr
  rcases hn p (hps.mem_iff.1 h) with hp | ⟨u, hu, hpos, hl⟩
  · exact absurd rfl (shallow _ (List.mem_reverse.1 hp))
  · have hrest : t.tokens = gone ++ d.rest := hrest
    exact ⟨u, hrest ▸ List.mem_append_left _ hu, hpos, hl⟩

/-- Reading what is left when the constructs that lie too deep have been cut away gives the same expressions and the
same diagnostics, apart from those of depth and of negations. -/
theorem ofTokens_trimmed {t : Tokens} (nodup : (t.tokens.map Token.position).Nodup)
    (shallow : ∀ x ∈ t.diagnostics, x.problem ≠ .nestingTooDeep) : ∃ ks,
      Trims (ofTokens t).diagnostics t.tokens ks ∧ (ofTokens ⟨ks, t.diagnostics⟩).Shallow ∧
        (ofTokens ⟨ks, t.diagnostics⟩).expressions = (ofTokens t).expressions ∧
        ∀ x : Diagnostic, x.stands = true →
          (x ∈ (ofTokens ⟨ks, t.diagnostics⟩).diagnostics ↔ x ∈ (ofTokens t).diagnostics) := by
  obtain ⟨es, d, hr, hes, hps⟩ := exists_reads t
  have before : ∀ x ∈ t.diagnostics.reverse, x.problem ≠ .nestingTooDeep := fun x hx =>
    shallow x (List.mem_reverse.1 hx)
  have finds : Finds (ofTokens t).diagnostics d :=
    ⟨fun p h => hps.mem_iff.2 h, fun p h => .inl (hps.mem_iff.1 h)⟩
  have ends : Trims (ofTokens t).diagnostics d.rest [] := by
    rw [conjunction_rest hr rfl]
    exact .nil
  obtain ⟨ks, hk, retraced⟩ := conjunction_retraces hr ⟨nodup, fun u _ hu => before _ hu rfl⟩ finds [] ends
  obtain ⟨ps, hp, hr'⟩ := retraced _ ⟨before, rfl⟩
  obtain ⟨hes', hps'⟩ := ofTokens_of_reads (t := ⟨ks, t.diagnostics⟩) hr'
  refine ⟨ks, hk, fun x hx => hp.shallow x (hps'.mem_iff.1 hx), hes'.trans hes.symm, fun x hx => ?_⟩
  rw [hps.mem_iff, hps'.mem_iff]
  have same : x ∈ ps.filter Diagnostic.stands ↔ x ∈ d.problems.filter Diagnostic.stands := by rw [hp.same]
  simpa only [List.mem_filter, hx, and_true] using same

theorem not_tooDeep_of_mem_ofChars {text : List Char} {x : Diagnostic} (h : x ∈ (Tokens.ofChars text).diagnostics) :
    x.problem ≠ .nestingTooDeep := by
  intro hx
  rcases Tokens.problem_of_mem_ofChars h with h | h <;> cases h.symm.trans hx

/-- Cuts are local.  Each construct that lies too deep is found where a token stands that costs a level, it goes together
with the rest of its group, and what is left is read as it was read in the whole text. -/
theorem ofText_trimmed (text : String) :
    let found := (ofText text).diagnostics
    let t := Tokens.ofChars text.toList
    let q := ofTokens ⟨trimmed found t.tokens, t.diagnostics⟩
    (∀ p, ⟨.nestingTooDeep, p⟩ ∈ found → ∃ u ∈ t.tokens, u.position = p ∧ u.lexeme.nests = true) ∧
      q.Shallow ∧ q.expressions = (ofText text).expressions ∧
      ∀ x : Diagnostic, x.stands = true → (x ∈ q.diagnostics ↔ x ∈ found) := by
  intro found t q
  have shallow : ∀ x ∈ t.diagnostics, x.problem ≠ .nestingTooDeep := fun x hx => not_tooDeep_of_mem_ofChars hx
  obtain ⟨ks, hk, read⟩ := ofTokens_trimmed (Tokens.ofChars_nodup text.toList) shallow
  rw [hk.eq_trimmed] at read
  exact ⟨fun p hp => exists_token_of_tooDeep shallow hp, read⟩

/-- What is read from a text are the expressions of the derivation of its tokens, once cuts and repairs are made. -/
theorem exists_derivation_trimmed (text : String) : ∃ g : Grammar.Conjunction,
    g.lexemes = repaired (trimmed (ofText text).diagnostics (Tokens.ofChars text.toList).tokens) ∧
      (ofText text).expressions = g.exprs := by
  obtain ⟨ks, hk, shallow, same, -⟩ := ofTokens_trimmed (Tokens.ofChars_nodup text.toList) fun _ =>
    not_tooDeep_of_mem_ofChars
  obtain ⟨g, hl, he⟩ := exists_derivation_of_shallow shallow
  rw [hk.eq_trimmed] at hl
  exact ⟨g, hl, same.symm.trans he⟩

end Query

end TagQuery
