import TagQuery.Proofs.Faults
import TagQuery.Proofs.Retracing

/-!
# Operands that a bar lacks

A bar is reported if it lacks an operand: no operand ends right before it, or none follows, negations left out of
account (`LacksOperand`).  It is also reported if its right operand is there and lies too deep, so that it is cut away
(`LosesOperand`), although the operand is already reported for its depth.  There is no other reason
(`Query.ofText_missingOr`), so the report of a bar can be trusted exactly in a text in which no bar with both operands
loses one.

A bar that is reported is one of the tokens that cuts leave.  What stands before it there ends an operand exactly if
it does in the whole text (`Trims.exists_split`), since a cut ends before a closing bracket or with the text, and an
operand follows there exactly if one does in the whole text and is not cut away (`Trims.operandFollows_iff`).
-/

namespace TagQuery

open Cursor

/-- The bar at position `p` lacks an operand. -/
def LacksOperand (ts : List Token) (p : Nat) : Prop :=
  ∃ before after : List Token, ts = before.reverse ++ ⟨.or, p⟩ :: after ∧
    (endsOperand before = false ∨ operandFollows after = false)

/-- The negations that come next and the bracket after them. -/
def leading : List Token → List Token
  | ⟨.not, p⟩ :: after => ⟨.not, p⟩ :: leading after
  | ⟨.opening, p⟩ :: _ => [⟨.opening, p⟩]
  | _ => []

/-- The right operand of the bar at position `p` lies too deep: a negation before the operand does, or the bracket that
opens it. -/
def LosesOperand (found : List Diagnostic) (ts : List Token) (p : Nat) : Prop :=
  ∃ before after : List Token, ts = before.reverse ++ ⟨.or, p⟩ :: after ∧
    ∃ t ∈ leading after, ⟨.nestingTooDeep, t.position⟩ ∈ found

/-! ### Bars among the faults -/

theorem mem_faultsAfter_iff {before ts : List Token} {x : Diagnostic} : x ∈ faultsAfter before ts ↔
    ∃ gone l after, ts = gone ++ ⟨l, x.position⟩ :: after ∧
      fault (gone.reverse ++ before) l after = some x.problem := by
  induction ts generalizing before with
  | nil =>
    refine ⟨nofun, ?_⟩
    rintro ⟨gone, l, after, h, -⟩
    cases gone <;> cases h
  | cons t ts ih =>
    rw [faultsAfter, List.mem_append, ih, Option.mem_toList, Option.map_eq_some_iff]
    constructor
    · rintro (⟨problem, hf, rfl⟩ | ⟨gone, l, after, rfl, hf⟩)
      · exact ⟨[], t.lexeme, ts, rfl, hf⟩
      · refine ⟨t :: gone, l, after, rfl, ?_⟩
        rw [List.reverse_cons, List.append_assoc]
        exact hf
    · rintro ⟨gone, l, after, h, hf⟩
      cases gone with
      | nil =>
        cases h
        exact .inl ⟨x.problem, hf, rfl⟩
      | cons u gone =>
        cases h
        rw [List.reverse_cons, List.append_assoc] at hf
        exact .inr ⟨gone, l, after, rfl, hf⟩

theorem fault_eq_missingOr_iff {before after : List Token} {l : Lexeme} :
    fault before l after = some (.missingOperand .or) ↔
      l = .or ∧ (endsOperand before = false ∨ operandFollows after = false) := by
  cases l with
  | word w => simp [fault]
  | opening => simp [fault]
  | closing => simp [fault]
  | not => simp [fault]
  | or => simp [fault, Decidable.imp_iff_not_or]

theorem missingOr_mem_faults_iff {ts : List Token} {p : Nat} :
    ⟨.missingOperand .or, p⟩ ∈ faults ts ↔ LacksOperand ts p := by
  have closed : ⟨.missingOperand .or, p⟩ ∉ unclosed (openBrackets ts.reverse) := by
    intro h
    obtain ⟨t, -, ht⟩ := List.mem_map.1 h
    cases ht
  rw [faults, List.mem_append, or_iff_left closed, mem_faultsAfter_iff]
  constructor
  · rintro ⟨gone, l, after, hts, hf⟩
    rw [List.append_nil] at hf
    obtain ⟨rfl, lacks⟩ := fault_eq_missingOr_iff.1 hf
    exact ⟨gone.reverse, after, by rw [List.reverse_reverse]; exact hts, lacks⟩
  · rintro ⟨before, after, hts, hf⟩
    refine ⟨before.reverse, .or, after, hts, fault_eq_missingOr_iff.2 ⟨rfl, ?_⟩⟩
    rw [List.reverse_reverse, List.append_nil]
    exact hf

/-! ### Bars among the tokens that cuts leave -/

theorem openBrackets_congr {before before' : List Token} (h : openBrackets before = openBrackets before') (t : Token) :
    openBrackets (t :: before) = openBrackets (t :: before') := by
  obtain ⟨l, p⟩ := t
  cases l <;> simp [openBrackets, h]

theorem endsOperand_congr {before before' : List Token} (h : openBrackets before = openBrackets before') (t : Token) :
    endsOperand (t :: before) = endsOperand (t :: before') := by
  obtain ⟨l, p⟩ := t
  cases l <;> simp [endsOperand, h]

/-- What an operand begins with lies in one cut or in none. -/
theorem leading_append {us vs : List Token} (hv : vs = [] ∨ ∃ q vs', vs = ⟨.closing, q⟩ :: vs') {t : Token}
    (h : t ∈ leading (us ++ vs)) : t ∈ us := by
  induction us with
  | nil =>
    rcases hv with rfl | ⟨q, vs, rfl⟩ <;> cases h
  | cons u us ih =>
    obtain ⟨l, p⟩ := u
    cases l with
    | not =>
      rcases List.mem_cons.1 h with rfl | h
      · exact List.mem_cons_self
      · exact List.mem_cons_of_mem _ (ih h)
    | opening =>
      cases List.mem_singleton.1 h
      exact List.mem_cons_self
    | _ => cases h

namespace Trims

variable {found : List Diagnostic} {ts ks : List Token}

/-- What stands before a token that stays ends an operand among the tokens that are left exactly if it does among all
of them.  A closing bracket can stand right behind a cut; any other token comes right after the same token as before. -/
theorem exists_split (h : Trims found ts ks) (before before' : List Token) {kept after : List Token} {t : Token}
    (ho : openBrackets before = openBrackets before')
    (he : endsOperand before = endsOperand before' ∨ ∀ u ∈ ks.head?, u.lexeme = .closing)
    (hk : ks = kept ++ t :: after) (ht : t.lexeme ≠ .closing) : ∃ gone rest, ts = gone ++ t :: rest ∧
      Trims found rest after ∧ endsOperand (gone.reverse ++ before) = endsOperand (kept.reverse ++ before') := by
  induction h generalizing before before' kept with
  | nil => cases kept <;> cases hk
  | @keep u ts ks _ h ih =>
    cases kept with
    | nil =>
      cases hk
      refine ⟨[], ts, rfl, h, he.resolve_right fun hc => ?_⟩
      exact ht (hc t rfl)
    | cons v kept =>
      cases hk
      obtain ⟨gone, rest, rfl, hr, hb⟩ := ih _ _ (openBrackets_congr ho u) (.inl (endsOperand_congr ho u)) rfl
      refine ⟨u :: gone, rest, rfl, hr, ?_⟩
      rw [List.reverse_cons, List.append_assoc, List.reverse_cons, List.append_assoc]
      exact hb
  | @cut u _ ts ks _ hu _ _ h ih =>
    rcases fromUnmatched_cases hu ts with hf | ⟨gone, q, rest, hts, hf, hb⟩
    · rw [hf] at h
      cases h
      cases kept <;> cases hk
    · have closing : ∀ v ∈ ks.head?, v.lexeme = .closing := by
        rw [← groupEnd_eq_fromUnmatched] at h
        rcases h.of_groupEnd with rfl | ⟨q, ks, rfl⟩
        · exact nofun
        · rintro v ⟨⟩
          rfl
      obtain ⟨gone', rest', hr, hk', he'⟩ := ih _ _ ((hb before).trans ho) (.inr closing) hk
      refine ⟨u :: gone ++ gone', rest', ?_, hk', ?_⟩
      · rw [hts, ← hf, hr, List.cons_append, List.cons_append, List.append_assoc]
      · rw [← he']
        simp

/-- An operand follows among the tokens that are left exactly if one follows among all of them and is not cut away. -/
theorem operandFollows_iff (h : Trims found ts ks) : operandFollows ks = true ↔
    operandFollows ts = true ∧ ∀ t ∈ leading ts, ⟨.nestingTooDeep, t.position⟩ ∉ found := by
  induction h with
  | nil => simp [operandFollows, leading]
  | @keep t ts ks hn _ ih =>
    obtain ⟨l, p⟩ := t
    cases l with
    | not =>
      rw [operandFollows, operandFollows, leading, ih, List.forall_mem_cons]
      exact and_congr_right fun _ => (and_iff_right hn).symm
    | opening => simpa [operandFollows, startsPrimary, leading] using hn
    | _ => simp [operandFollows, startsPrimary, leading]
  | @cut t _ ts ks hf ht _ _ h ih =>
    have none : operandFollows ks = false := by
      rw [← groupEnd_eq_fromUnmatched] at h
      rcases h.of_groupEnd with rfl | ⟨q, ks, rfl⟩ <;> rfl
    rw [none]
    refine ⟨nofun, fun ⟨ho, hl⟩ => ?_⟩
    obtain ⟨l, p⟩ := t
    cases l with
    | not => exact absurd hf (hl _ List.mem_cons_self)
    | opening => exact absurd hf (hl _ List.mem_cons_self)
    | or => exact absurd ho nofun
    | _ => cases ht

/-- A bar stays if its right operand is cut away. -/
theorem exists_bar (h : Trims found ts ks) {gone after : List Token} {p : Nat}
    (hts : ts = gone ++ ⟨.or, p⟩ :: after) {t : Token} (ht : t ∈ leading after)
    (hf : ⟨.nestingTooDeep, t.position⟩ ∈ found) : ∃ kept rest, ks = kept ++ ⟨.or, p⟩ :: rest ∧
      Trims found after rest := by
  induction h generalizing gone with
  | nil => cases gone <;> cases hts
  | @keep u ts ks _ h ih =>
    cases gone with
    | nil =>
      cases hts
      exact ⟨[], ks, rfl, h⟩
    | cons v gone =>
      cases hts
      obtain ⟨kept, rest, rfl, hr⟩ := ih rfl
      exact ⟨u :: kept, rest, rfl, hr⟩
  | @cut u inside ts ks _ hu hg hi h ih =>
    have ends : fromUnmatched [u] ts = [] ∨ ∃ q rest, fromUnmatched [u] ts = ⟨.closing, q⟩ :: rest := by
      rcases fromUnmatched_cases hu ts with hc | ⟨-, q, rest, -, hc, -⟩
      · exact .inl hc
      · exact .inr ⟨q, rest, hc⟩
    -- the bar stands behind the cut, or else what its operand begins with lies inside the cut
    have hs : (u :: inside) ++ fromUnmatched [u] ts = gone ++ ⟨.or, p⟩ :: after := by
      rw [← hts, List.cons_append, hg]
    rcases List.append_eq_append_iff.1 hs with ⟨more, -, hm⟩ | ⟨more, hm, hr⟩
    · exact ih hm
    · cases more with
      | nil => exact ih (hr.symm.trans (List.nil_append _).symm)
      | cons v more =>
        cases hr
        have hin : t ∈ inside := by
          have hmore := leading_append ends ht
          cases gone with
          | nil =>
            cases hm
            exact hmore
          | cons v gone =>
            cases hm
            exact List.mem_append_right _ (List.mem_cons_of_mem _ hmore)
        exact absurd hf (hi t hin)

end Trims

namespace Query

/-- A bar is reported exactly if it lacks an operand among the tokens that cuts leave. -/
theorem exists_missingOr_iff (text : String) : ∃ ks,
    Trims (ofText text).diagnostics (Tokens.ofChars text.toList).tokens ks ∧
      ∀ p, ⟨.missingOperand .or, p⟩ ∈ (ofText text).diagnostics ↔ LacksOperand ks p := by
  obtain ⟨ks, hk, shallow, -, same⟩ := ofTokens_trimmed (Tokens.ofChars_nodup text.toList) fun _ =>
    not_tooDeep_of_mem_ofChars
  refine ⟨ks, hk, fun p => (same ⟨.missingOperand .or, p⟩ rfl).symm.trans ?_⟩
  rw [(ofTokens_faults shallow).mem_iff, List.mem_append, or_iff_right, missingOr_mem_faults_iff]
  intro hx
  rcases Tokens.problem_of_mem_ofChars hx with h | h <;> cases h

theorem strict_eq_error_iff {text : String} {x : Diagnostic} :
    strict text = .error x ↔ (ofText text).diagnostics.head? = some x := by
  rw [strict]
  split
  · rename_i d ds hd
    simp [hd]
  · rename_i hd
    simp [hd]

/-- A bar that is reported, or that a strict reading fails with, lacks an operand or loses the right one to a cut, and
each bar that loses its right operand is reported. -/
theorem ofText_missingOr (text : String) :
    let found := (ofText text).diagnostics
    let ts := (Tokens.ofChars text.toList).tokens
    (∀ p, ⟨.missingOperand .or, p⟩ ∈ found ∨ strict text = .error ⟨.missingOperand .or, p⟩ →
      LacksOperand ts p ∨ LosesOperand found ts p) ∧
    ∀ p, LosesOperand found ts p → ⟨.missingOperand .or, p⟩ ∈ found := by
  intro found ts
  obtain ⟨ks, hk, reported⟩ := exists_missingOr_iff text
  constructor
  · intro p h
    have h : ⟨.missingOperand .or, p⟩ ∈ found := h.elim id fun h => List.mem_of_head? (strict_eq_error_iff.1 h)
    obtain ⟨before, after', hks, lacks⟩ := (reported p).1 h
    obtain ⟨gone, after, hts, ha, he⟩ := hk.exists_split [] [] rfl (.inl rfl) hks nofun
    rw [List.append_nil, List.append_nil, List.reverse_reverse] at he
    have hts : ts = gone.reverse.reverse ++ ⟨.or, p⟩ :: after := by
      rw [List.reverse_reverse]
      exact hts
    rcases lacks with left | right
    · exact .inl ⟨gone.reverse, after, hts, .inl (he.trans left)⟩
    by_cases follows : operandFollows after = true
    · have cut : ∃ t ∈ leading after, ⟨.nestingTooDeep, t.position⟩ ∈ found :=
        Classical.byContradiction fun hn => Bool.eq_false_iff.1 right
          (ha.operandFollows_iff.2 ⟨follows, fun t ht hf => hn ⟨t, ht, hf⟩⟩)
      exact .inr ⟨gone.reverse, after, hts, cut⟩
    · exact .inl ⟨gone.reverse, after, hts, .inr (Bool.eq_false_iff.2 follows)⟩
  · rintro p ⟨before, after, hts, t, ht, hf⟩
    obtain ⟨kept, after', hks, ha⟩ := hk.exists_bar hts ht hf
    refine (reported p).2 ⟨kept.reverse, after', by rw [List.reverse_reverse]; exact hks, .inr ?_⟩
    exact Bool.eq_false_iff.2 fun h => (ha.operandFollows_iff.1 h).2 t ht hf

set_option maxRecDepth 100000 in
/-- A bar with both operands is reported, because the group behind it lies too deep; a strict reading fails with this
report. -/
theorem exists_not_lacksOperand : ∃ text p, strict text = .error ⟨.missingOperand .or, p⟩ ∧
    ¬LacksOperand (Tokens.ofChars text.toList).tokens p := by
  let chars := List.replicate 255 '(' ++ "a|(b)".toList ++ List.replicate 255 ')'
  have problems : (conjunction none [] ⟨(Tokens.ofChars chars).tokens, 0, (Tokens.ofChars chars).diagnostics.reverse⟩
      ).1.2.problems = [⟨.missingOperand .or, 256⟩, ⟨.nestingTooDeep, 257⟩] := by decide +kernel
  have reported : (ofText (String.ofList chars)).diagnostics.head? = some ⟨.missingOperand .or, 256⟩ := by
    rw [ofText, String.toList_ofList, ofTokens]
    simp only [problems]
    simp [List.mergeSort]
  have complete : ⟨.missingOperand .or, 256⟩ ∉ faults (Tokens.ofChars chars).tokens := by decide +kernel
  refine ⟨String.ofList chars, 256, strict_eq_error_iff.2 reported, mt missingOr_mem_faults_iff.2 ?_⟩
  rw [String.toList_ofList]
  exact complete

end Query

end TagQuery
