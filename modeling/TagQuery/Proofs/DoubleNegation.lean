import TagQuery.Proofs.Composition
import TagQuery.Proofs.Locality

/-!
# Double negation

What two negations before the tokens of a text do to it, whatever is wrong with the text.  If no operand follows them,
both are dropped and the text is read as by itself; otherwise they negate the first operand only, twice
(`negation_not_not`).  The operand may be the first of a chain, and the rest of the chain is read as before
(`exists_operands`).  So the text holds of the same records, as long as nothing lies too deep
(`verdict_not_not`).
-/

namespace TagQuery

open Cursor

namespace Cursor

/-- Further out by `k` levels, the same cursor. -/
theorem moved_zero (k : Nat) (c : Cursor) : c.moved 0 k [] = c.leave k := by
  rw [moved, leave, List.append_nil, List.map_id'' Token.shift_zero, List.map_id'' Diagnostic.shift_zero]

/-- Two negations are dropped if no operand follows, or else negate what is read without them. -/
theorem negation_not_not {p q depth : Nat} {ts : List Token} {problems : List Diagnostic} {e : Option Expr}
    {m : Cursor} (h : ReadsNegation ⟨⟨.not, p⟩ :: ⟨.not, q⟩ :: ts, depth, problems⟩ e m) (hm : m.Shallow) :
    (startsOperand ts = false ∧ e = none ∧ m = ⟨ts, depth, ⟨.missingOperand .not, q⟩ :: problems⟩) ∨
    (startsOperand ts = true ∧ ∃ r, e = (r.map Expr.not).map Expr.not ∧
      ReadsNegation ⟨ts, depth, problems⟩ r m) := by
  cases h with
  | cut => exact absurd hm not_shallow_cut
  | missing starts => exact absurd starts Bool.noConfusion
  | primary hn => exact absurd rfl hn
  | negated _ _ h =>
    cases h with
    | cut => exact absurd hm not_shallow_cut
    | missing starts => exact .inl ⟨starts, rfl, rfl⟩
    | primary hn => exact absurd rfl hn
    | negated starts _ h =>
      have hr := negation_moved 0 2 [] h (Nat.le_add_left ..) (.inr hm)
      rw [moved_zero, moved_zero] at hr
      exact .inr ⟨starts, _, rfl, hr⟩

end Cursor

variable {ρ : Type} [Tagged ρ]

theorem Expr.holds_foldl_or (folding : Folding) (keywordTags : List String) (record : ρ) (operands : List Expr)
    (left : Expr) : (operands.foldl .or left).Holds folding keywordTags record ↔
      left.Holds folding keywordTags record ∨ ∃ e ∈ operands, e.Holds folding keywordTags record := by
  induction operands generalizing left with
  | nil => simp
  | cons right operands ih => simp only [List.foldl_cons, ih, Expr.Holds, or_assoc, List.mem_cons, exists_eq_or_imp]

namespace Query

theorem allHold_not_not (folding : Folding) (keywordTags : List String) (record : ρ) {p q : Nat} {ts : List Token}
    {ds : List Diagnostic} (h : (ofTokens ⟨⟨.not, p⟩ :: ⟨.not, q⟩ :: ts, ds⟩).Shallow) :
    Expr.AllHold folding keywordTags record (ofTokens ⟨⟨.not, p⟩ :: ⟨.not, q⟩ :: ts, ds⟩).expressions ↔
      Expr.AllHold folding keywordTags record (ofTokens ⟨ts, ds⟩).expressions := by
  obtain ⟨es, d, hr, hd, hes, -⟩ := exists_shallow_reads h
  rw [hes]
  cases hr with
  | item starts ha hc =>
    have hm := hd.of_suffix (conjunction_keeps hc).2
    cases ha with
    | nothing hn =>
      rcases negation_not_not hn hm with ⟨-, -, rfl⟩ | ⟨starts, r, hr, hx⟩
      · rw [expressions_of_reads hc]
        rfl
      · -- what follows begins an operand and gives none, with the negations or without
        cases r with
        | some e => cases hr
        | none =>
          rw [expressions_of_reads (.item starts (.nothing hx) hc)]
    | operands hn hs =>
      rcases negation_not_not hn (hm.of_suffix (alternatives_keeps hs).2) with
        ⟨-, hnone, -⟩ | ⟨starts, r, hr, hx⟩
      · cases hnone
      · cases r with
        | none => cases hr
        | some e =>
          cases hr
          obtain ⟨operands, rfl, ho⟩ := exists_operands hs
          rw [expressions_of_reads (.item starts (.operands hx (ho e)) hc)]
          show _ ∧ _ ↔ _ ∧ _
          rw [Expr.holds_foldl_or, Expr.holds_foldl_or, Expr.Holds, Expr.Holds, Classical.not_not]

end Query

theorem Tokens.ofChars_not_not (text : List Char) : ofChars ('!' :: '!' :: text) =
    ⟨⟨.not, 0⟩ :: ⟨.not, 1⟩ :: (ofChars text).tokens.map (Token.shift 2),
      (ofChars text).diagnostics.map (Diagnostic.shift 2)⟩ := by
  rw [ofChars, Scan.run_cons _ (by decide) (by decide), Scan.run_cons _ (by decide) (by decide)]
  exact run_anew [⟨.not, 1⟩, ⟨.not, 0⟩] 2 text

namespace Matcher

open Query

/-- Two negations before a text do not change which records its matcher accepts, unless something lies too deep. -/
theorem verdict_not_not (text : String) (h : (ofText ("!!" ++ text)).Shallow) (o : Options) (record : ρ) :
    verdict o record ("!!" ++ text) = verdict o record text := by
  have ht : ("!!" ++ text).toList = '!' :: '!' :: text.toList := by simp
  rw [ofText, ht, Tokens.ofChars_not_not] at h
  have hv := allHold_not_not o.folding o.keywordTags record h
  rw [ofTokens_shift] at hv
  rw [Bool.eq_iff_iff, verdict_iff rfl, verdict_iff rfl, ofText, ht, Tokens.ofChars_not_not, hv, ofText]

/-- The negations bind the first operand of a chain, and two brackets have no partner. -/
theorem verdict_not_not_chain : (ofText ("!!" ++ "a | b) (c")).Shallow ∧ ∃ (o : Options) (track : Track),
    verdict o track ("!!" ++ "a | b) (c") = true := by
  have shallow : (ofText ("!!" ++ "a | b) (c")).Shallow := ofTokens_shallow_iff.2 (by decide +kernel)
  refine ⟨shallow, { keywordTags := ["title"], optimize := false }, Track.empty.insert "title" (.one "bc"), ?_⟩
  rw [verdict_not_not "a | b) (c" shallow]
  decide +kernel

end Matcher

end TagQuery
