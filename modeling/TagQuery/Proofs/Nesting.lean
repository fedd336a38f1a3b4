import TagQuery.Proofs.Reading

/-!
# How deep expressions nest

Reading charges one level for each negation and each pair of brackets, and it charges an operand of an alternation one
level for each operand before it.  `Expr.cost` is the deepest nesting counted in this way.  It stays within the limit
in each expression that is read, whatever text it is read from (`Query.cost_of_mem`).
-/

namespace TagQuery

open Cursor

namespace Expr

/-- The number of bars of the alternation that the expression is. -/
def bars : Expr → Nat
  | .or l _ => bars l + 1
  | .term _ | .not _ | .group _ => 0

mutual

/-- What reading charges for the expression: a negation and a group cost one level more than what they hold, an operand
of an alternation costs one more for each operand before it. -/
def cost : Expr → Nat
  | .term _ => 0
  | .not e => cost e + 1
  | .or l r => max (cost l) (l.bars + 1 + cost r)
  | .group es => costs es + 1

def costs : List Expr → Nat
  | [] => 0
  | e :: es => max (cost e) (costs es)

end

theorem costs_le_iff {es : List Expr} {n : Nat} : costs es ≤ n ↔ ∀ e ∈ es, e.cost ≤ n := by
  induction es with
  | nil => simp [costs]
  | cons e es ih => rw [costs, Nat.max_le, ih, List.forall_mem_cons]

end Expr

/-! ### What reading charges -/

namespace Cursor

mutual

theorem conjunction_nesting {opened c es d} : ReadsConjunction opened c es d → c.depth ≤ nestingLimit →
    ∀ e ∈ es, c.depth + e.cost ≤ nestingLimit
  | .unclosed, _, _, he => nomatch he
  | .done, _, _, he => nomatch he
  | .close, _, _, he => nomatch he
  | .unmatched h, hd, e, he => by
    have ih := conjunction_nesting h hd e he
    exact ih
  | .strayOr h, hd, e, he => by
    have ih := conjunction_nesting h hd e he
    exact ih
  | .item (e := r) _ ha h, hd, e, he => by
    have hm := (alternation_keeps ha).1
    have ia := alternation_nesting ha hd e
    have ih := conjunction_nesting h (hm ▸ hd) e
    rcases List.mem_append.1 he with he | he
    · exact ia (Option.mem_toList.1 he)
    · rw [← hm]
      exact ih he

theorem alternation_nesting {c r d} : ReadsAlternation c r d → c.depth ≤ nestingLimit → ∀ e, r = some e →
    c.depth + e.cost ≤ nestingLimit
  | .nothing _, _, _, hr => nomatch hr
  | @ReadsAlternation.operands _ left _ _ _ h hs, hd, _, rfl => by
    have hm := (negation_keeps h).1
    obtain ⟨hb, hc⟩ := negation_nesting h hd left rfl
    rw [← hm] at hc
    have ihs := alternatives_nesting hs (hm ▸ hd) (Nat.zero_le _) hb hc
    rw [hm] at ihs
    exact ihs

/-- The levels that the operands before cost are given back at the end. -/
theorem alternatives_nesting {left links c e d} : ReadsAlternatives left links c e d → c.depth ≤ nestingLimit →
    links ≤ c.depth → left.bars = links → c.depth - links + left.cost ≤ nestingLimit →
    c.depth - links + e.cost ≤ nestingLimit
  | .stop _, _, _, _, hc => hc
  | @ReadsAlternatives.link _ _ _ _ n ps right m _ _ room h hs, _, hl, hb, hc => by
    have hm : m.depth = n + 1 := (negation_keeps h).1
    obtain ⟨-, hr⟩ := negation_nesting h room right rfl
    -- the cursor is `links` levels in, so what is left there for the operand is what its fee leaves
    have hr : n + 1 + right.cost ≤ nestingLimit := hr
    have hl : links ≤ n := hl
    have hc : n - links + left.cost ≤ nestingLimit := hc
    have ihs := alternatives_nesting hs (hm ▸ room) (by omega) (by rw [Expr.bars, hb])
    rw [hm, Nat.add_sub_add_right, Expr.cost, hb] at ihs
    exact ihs (by omega)
  | .missing _ _, _, _, _, hc => hc
  | .cut _, _, _, _, hc => hc

theorem negation_nesting {c r d} : ReadsNegation c r d → c.depth ≤ nestingLimit → ∀ e, r = some e →
    e.bars = 0 ∧ c.depth + e.cost ≤ nestingLimit
  | @ReadsNegation.negated _ _ n _ _ _ _ room h, _, _, hr => by
    obtain ⟨e, he, rfl⟩ := Option.map_eq_some_iff.1 hr
    obtain ⟨-, hc⟩ := negation_nesting h room e he
    refine ⟨rfl, ?_⟩
    have hc : n + 1 + e.cost ≤ nestingLimit := hc
    show n + Expr.cost (.not e) ≤ nestingLimit
    rw [Expr.cost]
    omega
  | .cut _ _, _, _, hr => nomatch hr
  | .missing _, _, _, hr => nomatch hr
  | .primary _ h, hd, e, hr => primary_nesting h hd e hr

theorem primary_nesting {c r d} : ReadsPrimary c r d → c.depth ≤ nestingLimit → ∀ e, r = some e →
    e.bars = 0 ∧ c.depth + e.cost ≤ nestingLimit
  | .word, hd, _, rfl => ⟨rfl, hd⟩
  | @ReadsPrimary.group _ _ n _ es _ room h, _, _, rfl => by
    have ih := conjunction_nesting h room
    refine ⟨rfl, ?_⟩
    have hes : Expr.costs es ≤ nestingLimit - (n + 1) := by
      rw [Expr.costs_le_iff]
      intro e he
      have hc : n + 1 + e.cost ≤ nestingLimit := ih e he
      exact Nat.le_sub_of_add_le' hc
    show n + Expr.cost (.group es) ≤ nestingLimit
    rw [Expr.cost]
    omega
  | .cut _, _, _, hr => nomatch hr
  | .nothing _, _, _, hr => nomatch hr

end

end Cursor

namespace Query

theorem cost_of_mem {t : Tokens} {e : Expr} (h : e ∈ (ofTokens t).expressions) : e.cost ≤ nestingLimit := by
  obtain ⟨es, d, hr, hes, -⟩ := exists_reads t
  rw [hes] at h
  have hc := conjunction_nesting hr (Nat.zero_le _) e h
  rw [Nat.zero_add] at hc
  exact hc

end Query

end TagQuery
