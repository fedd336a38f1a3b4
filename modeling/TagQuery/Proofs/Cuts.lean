import TagQuery.Proofs.Recovery

/-!
# Cuts

What lies too deep goes together with the rest of the group it stands in.  The tokens that are left are those outside
the cuts (`trimmed`): a cut begins at a token that was found too deep and ends before the first closing bracket that
has no partner in it, or with the text.  What was found inside a cut would end before it does, so it goes with it.

`Trims found ts ks` says that cuts at what was found make `ks` of the tokens `ts`, and that nothing was found inside a
cut but at its beginning.  Reading reports as too deep only tokens that it passes and that cost a level
(`Cursor.conjunction_passes` and the lemmas beside it).
-/

namespace TagQuery

open Cursor

/-! ### Where a cut ends -/

/-- The tokens from the first closing bracket on that has no partner among those before it; `before` are the tokens
since the matching began, of which the nearest comes first. -/
def fromUnmatched (before : List Token) : List Token → List Token
  | [] => []
  | t :: ts => if t.lexeme = .closing ∧ openBrackets before = [] then t :: ts else fromUnmatched (t :: before) ts

theorem fromUnmatched_suffix (before ts : List Token) : fromUnmatched before ts <:+ ts := by
  induction ts generalizing before with
  | nil => exact List.suffix_refl _
  | cons t ts ih =>
    rw [fromUnmatched]
    split
    · exact List.suffix_refl _
    · exact (ih _).trans (List.suffix_cons ..)

theorem groupEnd_eq_fromUnmatched (before ts : List Token) :
    groupEnd (openBrackets before).length ts = fromUnmatched before ts := by
  induction ts generalizing before with
  | nil => rfl
  | cons t ts ih =>
    obtain ⟨l, p⟩ := t
    have ih := ih (⟨l, p⟩ :: before)
    cases l with
    | closing =>
      rcases hb : openBrackets before with _ | ⟨u, us⟩
      · simp [groupEnd, fromUnmatched, hb]
      · rw [openBrackets, hb] at ih
        simp [groupEnd, fromUnmatched, hb, ← ih]
    | _ => exact ih

/-- Whether the lexeme costs a nesting level. -/
def Lexeme.nests : Lexeme → Bool
  | .opening | .not | .or => true
  | .word _ | .closing => false

/-- A cut ends with the text or before a closing bracket, and leaves the same brackets open. -/
theorem groupEnd_cases (unclosed : Nat) (ts : List Token) : groupEnd unclosed ts = [] ∨ ∃ gone q rest,
    ts = gone ++ ⟨.closing, q⟩ :: rest ∧ groupEnd unclosed ts = ⟨.closing, q⟩ :: rest ∧
      ∀ before, openBrackets (gone.reverse ++ before) = (openBrackets before).drop unclosed := by
  induction ts generalizing unclosed with
  | nil => exact .inl rfl
  | cons t ts ih =>
    -- the brackets that are open after one more token of the cut
    have more : ∀ n, groupEnd unclosed (t :: ts) = groupEnd n ts →
        (∀ before, (openBrackets (t :: before)).drop n = (openBrackets before).drop unclosed) →
        groupEnd unclosed (t :: ts) = [] ∨ ∃ gone q rest, t :: ts = gone ++ ⟨.closing, q⟩ :: rest ∧
          groupEnd unclosed (t :: ts) = ⟨.closing, q⟩ :: rest ∧
          ∀ before, openBrackets (gone.reverse ++ before) = (openBrackets before).drop unclosed := by
      intro n hn hb
      rw [hn]
      rcases ih n with h | ⟨gone, q, rest, hts, he, ho⟩
      · exact .inl h
      · refine .inr ⟨t :: gone, q, rest, congrArg _ hts, he, fun before => ?_⟩
        rw [List.reverse_cons, List.append_assoc]
        exact (ho (t :: before)).trans (hb before)
    obtain ⟨l, p⟩ := t
    cases l with
    | opening => exact more (unclosed + 1) rfl fun _ => rfl
    | closing =>
      cases unclosed with
      | zero => exact .inr ⟨[], p, ts, rfl, rfl, fun _ => rfl⟩
      | succ n => exact more n rfl fun before => by rw [openBrackets, List.drop_tail]
    | word w => exact more unclosed rfl fun _ => rfl
    | not => exact more unclosed rfl fun _ => rfl
    | or => exact more unclosed rfl fun _ => rfl

theorem fromUnmatched_cases {t : Token} (ht : t.lexeme.nests = true) (ts : List Token) :
    fromUnmatched [t] ts = [] ∨ ∃ gone q rest, ts = gone ++ ⟨.closing, q⟩ :: rest ∧
      fromUnmatched [t] ts = ⟨.closing, q⟩ :: rest ∧
      ∀ before, openBrackets (gone.reverse ++ t :: before) = openBrackets before := by
  rw [← groupEnd_eq_fromUnmatched]
  refine (groupEnd_cases _ ts).imp_right ?_
  rintro ⟨gone, q, rest, hts, he, ho⟩
  refine ⟨gone, q, rest, hts, he, fun before => (ho (t :: before)).trans ?_⟩
  obtain ⟨l, p⟩ := t
  cases l with
  | word w => cases ht
  | closing => cases ht
  | _ => rfl

/-! ### What cuts leave -/

/-- What is left of some tokens if each token that was found too deep goes with the rest of its group. -/
def trimmed (found : List Diagnostic) : List Token → List Token
  | [] => []
  | t :: ts =>
    if ⟨.nestingTooDeep, t.position⟩ ∈ found then trimmed found (fromUnmatched [t] ts) else t :: trimmed found ts
termination_by ts => ts.length
decreasing_by
  · exact Nat.lt_succ_of_le (fromUnmatched_suffix _ _).length_le
  · exact Nat.lt_succ_self _

/-- Cuts at the tokens that were found too deep, where none was found inside a cut but the first, make the second list
of the first. -/
inductive Trims (found : List Diagnostic) : List Token → List Token → Prop
  | nil : Trims found [] []
  | keep {t : Token} {ts ks : List Token} : ⟨.nestingTooDeep, t.position⟩ ∉ found → Trims found ts ks →
    Trims found (t :: ts) (t :: ks)
  | cut {t : Token} {gone ts ks : List Token} : ⟨.nestingTooDeep, t.position⟩ ∈ found → t.lexeme.nests = true →
    gone ++ fromUnmatched [t] ts = ts → (∀ u ∈ gone, ⟨.nestingTooDeep, u.position⟩ ∉ found) →
    Trims found (fromUnmatched [t] ts) ks → Trims found (t :: ts) ks

namespace Trims

variable {found : List Diagnostic} {ts ks : List Token}

theorem eq_trimmed (h : Trims found ts ks) : ks = trimmed found ts := by
  induction h with
  | nil => rw [trimmed]
  | keep hn _ ih => rw [trimmed, if_neg hn, ih]
  | cut hf _ _ _ _ ih => rw [trimmed, if_pos hf, ih]

/-- What is left after a cut ends or goes on with a closing bracket. -/
theorem of_groupEnd {unclosed : Nat} (h : Trims found (groupEnd unclosed ts) ks) :
    ks = [] ∨ ∃ q ks', ks = ⟨.closing, q⟩ :: ks' := by
  rcases groupEnd_cases unclosed ts with he | ⟨-, q, rest, -, he, -⟩
  · rw [he] at h
    cases h
    exact .inl rfl
  · rw [he] at h
    cases h with
    | keep => exact .inr ⟨_, _, rfl⟩
    | cut _ hq => cases hq

/-- The first token stays, or what is left begins where a cut ends. -/
theorem head_cases (h : Trims found ts ks) : (∃ t ts' ks', ts = t :: ts' ∧ ks = t :: ks') ∨
    ks = [] ∨ ∃ q ks', ks = ⟨.closing, q⟩ :: ks' := by
  cases h with
  | nil => exact .inr (.inl rfl)
  | keep _ _ => exact .inl ⟨_, _, _, rfl, rfl⟩
  | cut _ _ _ _ h =>
    rw [← groupEnd_eq_fromUnmatched] at h
    exact .inr h.of_groupEnd

theorem startsPrimary_eq_false (h : Trims found ts ks) (hs : startsPrimary ts = false) : startsPrimary ks = false := by
  rcases h.head_cases with ⟨⟨l, p⟩, ts', ks', rfl, rfl⟩ | rfl | ⟨q, ks', rfl⟩
  · cases l <;> exact hs
  · rfl
  · rfl

theorem startsOperand_eq_false (h : Trims found ts ks) (hs : startsOperand ts = false) : startsOperand ks = false := by
  rcases h.head_cases with ⟨⟨l, p⟩, ts', ks', rfl, rfl⟩ | rfl | ⟨q, ks', rfl⟩
  · cases l <;> exact hs
  · rfl
  · rfl

theorem next_ne {l : Lexeme} (h : Trims found ts ks) (hl : l ≠ .closing) {depth depth' : Nat}
    {problems problems' : List Diagnostic} (hn : next ⟨ts, depth, problems⟩ ≠ some l) :
    next ⟨ks, depth', problems'⟩ ≠ some l := by
  rcases h.head_cases with ⟨t, ts', ks', rfl, rfl⟩ | rfl | ⟨q, ks', rfl⟩
  · exact hn
  · exact nofun
  · rw [next_cons]
    exact fun h => hl (Option.some.inj h).symm

end Trims

/-! ### What reading passes -/

namespace Cursor

/-- From `c` to `d`: some tokens are passed, problems are added, and what is new among those that lie too deep is one
of the tokens that were passed. -/
def Passes (c d : Cursor) : Prop :=
  ∃ gone, c.rest = gone ++ d.rest ∧ c.problems ⊆ d.problems ∧
    ∀ p, ⟨.nestingTooDeep, p⟩ ∈ d.problems → ⟨.nestingTooDeep, p⟩ ∈ c.problems ∨
      ∃ t ∈ gone, t.position = p ∧ t.lexeme.nests = true

namespace Passes

variable {c d e : Cursor}

theorem refl (c : Cursor) : Passes c c :=
  ⟨[], rfl, List.Subset.refl _, fun _ h => .inl h⟩

theorem trans (h : Passes c d) (h' : Passes d e) : Passes c e := by
  obtain ⟨gone, hr, hp, hn⟩ := h
  obtain ⟨gone', hr', hp', hn'⟩ := h'
  refine ⟨gone ++ gone', by rw [hr, hr', List.append_assoc], List.Subset.trans hp hp', fun p h => ?_⟩
  rcases hn' p h with h | ⟨t, ht, hpos⟩
  · rcases hn p h with h | ⟨t, ht, hpos⟩
    · exact .inl h
    · exact .inr ⟨t, List.mem_append_left _ ht, hpos⟩
  · exact .inr ⟨t, List.mem_append_right _ ht, hpos⟩

theorem leave (h : Passes c d) (levels : Nat) : Passes c (d.leave levels) := h

variable {t : Token} {rest : List Token} {depth depth' : Nat} {problems : List Diagnostic}

theorem token : Passes ⟨t :: rest, depth, problems⟩ ⟨rest, depth', problems⟩ :=
  ⟨[t], rfl, List.Subset.refl _, fun _ h => .inl h⟩

/-- A problem that is not one of depth. -/
theorem reported {x : Diagnostic} (hx : x.problem ≠ .nestingTooDeep) :
    Passes ⟨rest, depth, problems⟩ ⟨rest, depth', x :: problems⟩ := by
  refine ⟨[], rfl, List.subset_cons_self _ _, fun p h => .inl ?_⟩
  rcases List.mem_cons.1 h with rfl | h
  · exact absurd rfl hx
  · exact h

theorem dropped {x : Diagnostic} (hx : x.problem ≠ .nestingTooDeep) :
    Passes ⟨t :: rest, depth, problems⟩ ⟨rest, depth', x :: problems⟩ :=
  Passes.trans (d := ⟨rest, depth, problems⟩) token (reported hx)

/-- A cut that begins at `t`. -/
theorem cut (ht : t.lexeme.nests = true) : Passes ⟨t :: rest, depth, problems⟩
    ⟨groupEnd (openBrackets [t]).length rest, depth', ⟨.nestingTooDeep, t.position⟩ :: problems⟩ := by
  rw [groupEnd_eq_fromUnmatched]
  obtain ⟨gone, hg⟩ := fromUnmatched_suffix [t] rest
  refine ⟨t :: gone, (congrArg (t :: ·) hg).symm, List.subset_cons_self _ _, fun p h => ?_⟩
  rcases List.mem_cons.1 h with h | h
  · cases h
    exact .inr ⟨t, List.mem_cons_self, rfl, ht⟩
  · exact .inl h

end Passes

mutual

theorem conjunction_passes {opened c es d} : ReadsConjunction opened c es d → Passes c d
  | .unclosed => .reported nofun
  | .done => .refl _
  | .close => .token
  | .unmatched h => (Passes.dropped (by nofun)).trans (conjunction_passes h)
  | .strayOr h => (Passes.dropped (by nofun)).trans (conjunction_passes h)
  | .item _ ha h => (alternation_passes ha).trans (conjunction_passes h)

theorem alternation_passes {c e d} : ReadsAlternation c e d → Passes c d
  | .nothing h => negation_passes h
  | .operands h hs => (negation_passes h).trans (alternatives_passes hs)

theorem alternatives_passes {left links c e d} : ReadsAlternatives left links c e d → Passes c d
  | .stop _ => .refl _
  | .link _ h hs => Passes.token.trans ((negation_passes h).trans (alternatives_passes hs))
  | .missing _ h => Passes.token.trans ((negation_passes h).trans (.reported nofun))
  | .cut (p := p) _ => .cut (t := ⟨.or, p⟩) rfl

theorem negation_passes {c e d} : ReadsNegation c e d → Passes c d
  | .negated _ _ h => Passes.token.trans ((negation_passes h).leave 1)
  | .cut (p := p) _ _ => .cut (t := ⟨.not, p⟩) rfl
  | .missing _ => .dropped nofun
  | .primary _ h => primary_passes h

theorem primary_passes {c e d} : ReadsPrimary c e d → Passes c d
  | .word => .token
  | .group _ h => Passes.token.trans ((conjunction_passes h).leave 1)
  | .cut (p := p) _ => .cut (t := ⟨.opening, p⟩) rfl
  | .nothing _ => .refl _

end

end Cursor

end TagQuery
