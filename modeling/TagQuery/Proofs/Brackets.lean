import TagQuery.Query.Token

/-!
# Matching brackets

Brackets are matched by reading the tokens from left to right: an opening bracket is open from where it stands until a
closing bracket matches it, and a closing bracket matches the innermost bracket that is open, if there is one.
`openBrackets before` are the brackets that are open after the tokens `before`.  The innermost of them is the last
opening bracket that only balanced tokens come after (`openBrackets_eq_cons_iff`).
-/

namespace TagQuery

/-- The opening brackets that are open after the tokens `before`, of which the nearest comes first; the innermost
bracket comes first. -/
def openBrackets : (before : List Token) → List Token
  | [] => []
  | ⟨.opening, p⟩ :: before => ⟨.opening, p⟩ :: openBrackets before
  | ⟨.closing, _⟩ :: before => (openBrackets before).tail
  | _ :: before => openBrackets before

/-- Tokens in which every bracket has its partner. -/
inductive Balanced : List Token → Prop
  | nil : Balanced []
  | single {t ts} : t.lexeme ≠ .opening → t.lexeme ≠ .closing → Balanced ts → Balanced (t :: ts)
  | group {p q inside ts} :
    Balanced inside → Balanced ts → Balanced (⟨.opening, p⟩ :: inside ++ ⟨.closing, q⟩ :: ts)

theorem openBrackets_single {t : Token} (ho : t.lexeme ≠ .opening) (hc : t.lexeme ≠ .closing) (before : List Token) :
    openBrackets (t :: before) = openBrackets before := by
  obtain ⟨l, p⟩ := t
  cases l with
  | opening => exact absurd rfl ho
  | closing => exact absurd rfl hc
  | _ => rfl

theorem lexeme_of_mem_openBrackets {before : List Token} {t : Token} (h : t ∈ openBrackets before) :
    t.lexeme = .opening := by
  fun_induction openBrackets before with
  | case1 => cases h
  | case2 p before ih =>
    rcases List.mem_cons.1 h with rfl | h
    · rfl
    · exact ih h
  | case3 _ before ih => exact ih (List.mem_of_mem_tail h)
  | case4 _ before _ _ ih => exact ih h

theorem Balanced.append {ts us : List Token} (h : Balanced ts) (hu : Balanced us) : Balanced (ts ++ us) := by
  induction h with
  | nil => exact hu
  | single ho hc _ ih => exact .single ho hc ih
  | @group p q inside ts hi _ _ ih =>
    rw [List.append_assoc, List.cons_append]
    exact .group hi ih

/-- Balanced tokens leave the same brackets open. -/
theorem Balanced.openBrackets_eq {ts : List Token} (h : Balanced ts) (before : List Token) :
    openBrackets (ts.reverse ++ before) = openBrackets before := by
  induction h generalizing before with
  | nil => rfl
  | single ho hc _ ih =>
    rw [List.reverse_cons, List.append_assoc, ih]
    exact openBrackets_single ho hc before
  | @group p q inside ts _ _ ihi ih =>
    have e : (⟨.opening, p⟩ :: inside ++ ⟨.closing, q⟩ :: ts).reverse ++ before =
        ts.reverse ++ ⟨.closing, q⟩ :: (inside.reverse ++ ⟨.opening, p⟩ :: before) := by
      simp
    rw [e, ih, openBrackets, ihi, openBrackets]
    rfl

private theorem exists_of_openBrackets (size : Nat) : ∀ {before st : List Token} {t : Token}, before.length ≤ size →
    openBrackets before = t :: st → ∃ inside outer, before = inside.reverse ++ t :: outer ∧ Balanced inside ∧
      openBrackets outer = st := by
  induction size with
  | zero =>
    intro before st t hs h
    rw [List.length_eq_zero_iff.1 (Nat.le_zero.1 hs)] at h
    cases h
  | succ size ih =>
    intro before st t hs h
    cases before with
    | nil => cases h
    | cons x before =>
      have hl : before.length ≤ size := Nat.le_of_succ_le_succ hs
      obtain ⟨l, p⟩ := x
      by_cases ho : l = .opening
      · subst ho
        cases h
        exact ⟨[], before, rfl, .nil, rfl⟩
      by_cases hc : l = .closing
      · subst hc
        -- the bracket that the closing one matches stands inside the one in question
        rcases hb : openBrackets before with _ | ⟨u, us⟩
        · rw [openBrackets, hb] at h
          cases h
        · rw [openBrackets, hb, List.tail_cons] at h
          obtain ⟨inner, outer, rfl, hi, hu⟩ := ih hl hb
          have ho : outer.length ≤ size := by
            rw [List.length_append, List.length_cons] at hl
            omega
          obtain ⟨inside, far, rfl, hf, hst⟩ := ih ho (hu.trans h)
          have hul : u = ⟨.opening, u.position⟩ := by
            rw [← lexeme_of_mem_openBrackets (hb ▸ List.mem_cons_self)]
          refine ⟨inside ++ u :: (inner ++ [⟨.closing, p⟩]), far, by simp, ?_, hst⟩
          rw [hul]
          exact hf.append (.group hi .nil)
      · rw [openBrackets_single ho hc] at h
        obtain ⟨inside, outer, rfl, hi, hst⟩ := ih hl h
        exact ⟨inside ++ [⟨l, p⟩], outer, by simp, hi.append (.single ho hc .nil), hst⟩

/-- The bracket that a closing one after `before` matches is the opening one up to which the tokens are balanced. -/
theorem openBrackets_eq_cons_iff {before st : List Token} {t : Token} :
    openBrackets before = t :: st ↔ ∃ inside outer, before = inside.reverse ++ t :: outer ∧ Balanced inside ∧
      t.lexeme = .opening ∧ openBrackets outer = st := by
  constructor
  · intro h
    obtain ⟨inside, outer, hb, hi, hst⟩ := exists_of_openBrackets _ (Nat.le_refl _) h
    exact ⟨inside, outer, hb, hi, lexeme_of_mem_openBrackets (h ▸ List.mem_cons_self), hst⟩
  · rintro ⟨inside, outer, rfl, hi, ht, rfl⟩
    obtain ⟨l, p⟩ := t
    cases ht
    rw [hi.openBrackets_eq, openBrackets]

end TagQuery
