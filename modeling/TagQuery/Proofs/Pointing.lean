import Mathlib.Data.List.Basic
import TagQuery.Proofs.LexicalFormat

/-!
# What diagnostics point at

A diagnostic points at the character that is to blame: the last backslash, the quote that opened the quotation that is
still open, a bracket or an operator.  The character counts for what it is, for it is not escaped and does not stand
between two quotes (`Diagnostic.PointsAt`).

This holds of what a scan reports (`Tokens.pointsAt_of_mem_ofChars`).  An operator is its own character, and before it
stands a layout (`Tokens.exists_layout_before`), in which every escape and every quotation is complete
(`Layout.closed`).
-/

namespace TagQuery

/-! ### Quotations -/

/-- Position `p` lies between the quote that opens a quotation and the one that closes it.  The first and the second of
the quotes that are not escaped enclose a quotation, so do the third and the fourth, and so on. -/
def InQuotation (text : List Char) (p : Nat) : Prop :=
  ∃ k a b, (quotes text.reverse).reverse[2 * k]? = some a ∧ (quotes text.reverse).reverse[2 * k + 1]? = some b ∧
    a < p ∧ p < b

theorem lt_of_mem_quotes {before : List Char} {q : Nat} (h : q ∈ quotes before) : q < before.length := by
  induction before with
  | nil => cases h
  | cons c before ih =>
    rw [List.length_cons]
    unfold quotes at h
    split at h
    · rcases List.mem_cons.1 h with rfl | h
      · omega
      · have := ih h
        omega
    · have := ih h
      omega

/-- The quotes of a text are those of its first part and some behind it. -/
theorem exists_quotes_append (more before : List Char) :
    ∃ later, quotes (more ++ before) = later ++ quotes before ∧ ∀ q ∈ later, before.length ≤ q := by
  induction more with
  | nil => exact ⟨[], rfl, nofun⟩
  | cons c more ih =>
    obtain ⟨later, hq, hl⟩ := ih
    rw [List.cons_append, quotes, hq]
    split
    · refine ⟨(more ++ before).length :: later, rfl, ?_⟩
      rw [List.forall_mem_cons, List.length_append]
      exact ⟨by omega, hl⟩
    · exact ⟨later, rfl, hl⟩

theorem openQuote_eq_none_iff {before : List Char} : openQuote before = none ↔ (quotes before).length % 2 = 0 := by
  unfold openQuote
  by_cases odd : (quotes before).length % 2 = 1
  · rw [if_pos odd, List.head?_eq_none_iff]
    constructor
    · intro hn
      simp [hn]
    · intro h
      omega
  · rw [if_neg odd]
    simp
    omega

/-- Where no quotation is open, none is completed. -/
theorem not_inQuotation {text : List Char} {p : Nat} (h : openQuote (text.take p).reverse = none) :
    ¬InQuotation text p := by
  rintro ⟨k, a, b, ha, hb, hap, hpb⟩
  rw [openQuote_eq_none_iff] at h
  obtain ⟨later, hq, hl⟩ := exists_quotes_append (text.drop p).reverse (text.take p).reverse
  rw [← List.reverse_append, List.take_append_drop] at hq
  rw [hq, List.reverse_append] at ha hb
  have hp : p ≤ text.length := by
    have hm : b ∈ quotes text.reverse := by
      rw [hq, ← List.mem_reverse, List.reverse_append]
      exact List.mem_of_getElem? hb
    have := lt_of_mem_quotes hm
    rw [List.length_reverse] at this
    omega
  rw [List.length_reverse, List.length_take, Nat.min_eq_left hp] at hl
  -- the quote before `p` is one of the first, and they are even in number
  have first : 2 * k < (quotes (text.take p).reverse).length := by
    by_contra hk
    rw [List.getElem?_append_right (by rw [List.length_reverse]; omega)] at ha
    have := hl a (List.mem_reverse.1 (List.mem_of_getElem? ha))
    omega
  rw [List.getElem?_append_left (by rw [List.length_reverse]; omega)] at hb
  have := lt_of_mem_quotes (List.mem_reverse.1 (List.mem_of_getElem? hb))
  rw [List.length_reverse, List.length_take] at this
  omega

/-- The nearest quote that is not escaped, and what stands before it. -/
theorem exists_of_quotes_eq_cons {before : List Char} {p : Nat} {ps : List Nat} (h : quotes before = p :: ps) :
    ∃ more inner, before = more ++ '"' :: inner ∧ p = inner.length ∧ escapes inner = false ∧ quotes inner = ps := by
  induction before with
  | nil => cases h
  | cons c before ih =>
    unfold quotes at h
    split at h
    · rename_i hc
      rw [List.cons.injEq] at h
      exact ⟨[], before, by rw [hc.1]; rfl, h.1.symm, hc.2, h.2⟩
    · obtain ⟨more, inner, rfl, hp, he, hq⟩ := ih h
      exact ⟨c :: more, inner, rfl, hp, he, hq⟩

/-! ### Characters to blame -/

/-- The characters that can be to blame for a problem. -/
def Problem.culprits : Problem → List Char
  | .trailingEscape => ['\\']
  | .unterminatedQuote => ['"']
  | .unclosedGroup => ['(']
  | .unmatchedClose => [')']
  | .missingOperand op => [op.symbol]
  | .nestingTooDeep => ['(', '!', '|']

/-- The diagnostic points at the character `c` of the text, which is one to blame for the problem.  It is not escaped and
does not stand in a quotation that is closed. -/
structure Diagnostic.PointsAt (x : Diagnostic) (text : List Char) (c : Char) : Prop where
  stands : text[x.position]? = some c
  culprit : c ∈ x.problem.culprits
  bare : escapes (text.take x.position).reverse = false
  outside : ¬InQuotation text x.position
  last : x.problem = .trailingEscape → x.position + 1 = text.length

/-- One character stands at one position. -/
theorem Diagnostic.PointsAt.unique {text : List Char} {x y : Diagnostic} {c c' : Char} (h : x.PointsAt text c)
    (h' : y.PointsAt text c') (same : x.position = y.position) : c = c' := by
  have stands := h.stands
  rw [same, h'.stands] at stands
  exact (Option.some.inj stands).symm

theorem pointsAt_trailingEscape {text : List Char} (h : escapes text.reverse = true) :
    Diagnostic.PointsAt ⟨.trailingEscape, text.length - 1⟩ text '\\' := by
  obtain ⟨before, hb, hi⟩ := exists_of_escapes h
  have ht : text = before.reverse ++ ['\\'] := by rw [← List.reverse_reverse text, hb, List.reverse_cons]
  have hn : text.length - 1 = before.reverse.length := by
    rw [ht, List.length_append]
    rfl
  rw [hn]
  refine ⟨?_, List.mem_singleton_self _, ?_, ?_, fun _ => ?_⟩
  · simp [ht]
  · simpa [ht] using hi
  · -- no quote stands behind the last character
    rintro ⟨k, a, b, -, hb, -, hpb⟩
    have := lt_of_mem_quotes (List.mem_reverse.1 (List.mem_of_getElem? hb))
    rw [List.length_reverse] at this
    have hpb : before.reverse.length < b := hpb
    omega
  · rw [ht, List.length_append]
    rfl

theorem pointsAt_unterminatedQuote {text : List Char} {p : Nat} (h : openQuote text.reverse = some p) :
    Diagnostic.PointsAt ⟨.unterminatedQuote, p⟩ text '"' := by
  unfold openQuote at h
  split at h
  · rename_i odd
    obtain ⟨ps, hps⟩ := List.head?_eq_some_iff.1 h
    obtain ⟨more, inner, hb, hpi, he, hq⟩ := exists_of_quotes_eq_cons hps
    have ht : text = inner.reverse ++ '"' :: more.reverse := by
      rw [← List.reverse_reverse text, hb]
      simp
    have htake : text.take p = inner.reverse := by
      rw [ht, List.take_left' (by rw [List.length_reverse, hpi])]
    have closed : openQuote (text.take p).reverse = none := by
      rw [htake, List.reverse_reverse, openQuote_eq_none_iff, hq]
      rw [hps, List.length_cons] at odd
      omega
    refine ⟨?_, List.mem_singleton_self _, ?_, not_inQuotation closed, nofun⟩
    · show text[p]? = some '"'
      rw [ht, hpi]
      simp
    · show escapes (text.take p).reverse = false
      rw [htake, List.reverse_reverse]
      exact he
  · cases h

namespace Tokens

theorem pointsAt_of_mem_ofChars {text : List Char} {x : Diagnostic} (h : x ∈ (ofChars text).diagnostics) :
    ∃ c, x.PointsAt text c ∧ (c = '\\' ∨ c = '"') := by
  rw [diagnostics_ofChars, misspellings, List.mem_append] at h
  rcases h with h | h
  · split at h
    · rename_i he
      rw [List.mem_singleton.1 h]
      exact ⟨'\\', pointsAt_trailingEscape he, .inl rfl⟩
    · cases h
  · obtain ⟨p, hp, rfl⟩ := Option.map_eq_some_iff.1 (Option.mem_toList.1 h)
    exact ⟨'"', pointsAt_unterminatedQuote hp, .inr rfl⟩

/-- A scan does not report a position twice: a backslash stands at the one, a quote at the other. -/
theorem nodup_diagnostics (text : List Char) : ((ofChars text).diagnostics.map Diagnostic.position).Nodup := by
  rw [diagnostics_ofChars, misspellings]
  by_cases he : escapes text.reverse = true
  · cases ho : openQuote text.reverse with
    | none => simp [he]
    | some p =>
      have hne : text.length - 1 ≠ p := by
        intro same
        have := (pointsAt_trailingEscape he).unique (pointsAt_unterminatedQuote ho) same
        exact absurd this (by decide)
      simpa [he] using hne
  · cases openQuote text.reverse <;> simp [he]

/-! ### Where operators stand -/

/-- What is put right at the end of a text does not change what stands before an operator. -/
theorem exists_of_respelled_eq {text before after : List Char} {c : Char} (hc : c ≠ '"')
    (h : respelled text = before ++ c :: after) : ∃ more, text = before ++ c :: more := by
  have base : ∃ kept gone, text = kept ++ gone ∧ (respelled text = kept ∨ respelled text = kept ++ ['"']) := by
    obtain ⟨gone, hg⟩ : (if escapes text.reverse then text.dropLast else text) <+: text := by
      split
      · exact List.dropLast_prefix text
      · exact List.prefix_refl text
    refine ⟨_, gone, hg.symm, ?_⟩
    unfold respelled
    split <;> split <;> simp
  obtain ⟨kept, gone, ht, hr | hr⟩ := base
  · rw [hr] at h
    exact ⟨after ++ gone, by rw [ht, h, List.append_assoc, List.cons_append]⟩
  · rw [hr] at h
    rcases List.append_eq_append_iff.1 h with ⟨more, hb, hm⟩ | ⟨more, hk, hm⟩
    · -- the operator would be the quote at the end
      cases more with
      | nil =>
        cases hm
        exact absurd rfl hc
      | cons d more =>
        have := congrArg List.length hm
        simp at this
    · cases more with
      | nil =>
        cases hm
        exact absurd rfl hc
      | cons d more =>
        cases hm
        exact ⟨more ++ gone, by rw [ht, hk, List.append_assoc, List.cons_append]⟩

end Tokens

theorem Separated.of_append {parts parts' : List Part} (h : Separated (parts ++ parts')) : Separated parts := by
  induction parts with
  | nil => trivial
  | cons x parts ih =>
    rw [List.cons_append, separated_cons_iff] at h
    refine separated_cons_iff.2 ⟨fun hx y hy => h.1 hx y ?_, ih h.2⟩
    rw [List.head?_append, Option.mem_def.1 hy]
    rfl

/-- No escape and no quotation is open at the end of a layout. -/
theorem Layout.closed (f : Layout) : escapes f.chars.reverse = false ∧ openQuote f.chars.reverse = none := by
  have h := Tokens.diagnostics_ofChars f.chars
  rw [f.ofChars_chars, misspellings] at h
  obtain ⟨he, ho⟩ := List.append_eq_nil_iff.1 h.symm
  constructor
  · by_contra hn
    rw [if_pos (by simpa using hn)] at he
    cases he
  · cases hq : openQuote f.chars.reverse with
    | none => rfl
    | some p =>
      rw [hq] at ho
      cases ho

theorem Lexeme.exists_operator {l : Lexeme} (h : l.isOperator = true) :
    ∃ c, l.chars = [c] ∧ c ≠ '\\' ∧ c ≠ '"' := by
  cases l with
  | word w => cases h
  | opening => exact ⟨'(', rfl, by decide, by decide⟩
  | closing => exact ⟨')', rfl, by decide, by decide⟩
  | not => exact ⟨'!', rfl, by decide, by decide⟩
  | or => exact ⟨'|', rfl, by decide, by decide⟩

theorem Part.chars_of_isOperator {x : Part} {l : Lexeme} (hx : x.lexeme? = some l) (hl : l.isOperator = true) :
    x.chars = l.chars := by
  cases x with
  | space => cases hx
  | operator l' h =>
    cases hx
    rfl
  | word first more =>
    rw [lexeme?] at hx
    split at hx <;> cases hx
    cases hl

/-- Before an operator stands a layout. -/
theorem Tokens.exists_layout_before {text : List Char} {t : Token} (h : t ∈ (ofChars text).tokens)
    (hl : t.lexeme.isOperator = true) : ∃ (f : Layout) (c : Char) (more : List Char), t.lexeme.chars = [c] ∧
      text = f.chars ++ c :: more ∧ t.position = f.chars.length := by
  obtain ⟨f, hf, ht⟩ := exists_layout_respelled text
  rw [ht] at h
  obtain ⟨before, x, after, hp, hx, hpos⟩ := exists_part_of_mem_tokensOf h
  obtain ⟨c, hc, -, hq⟩ := Lexeme.exists_operator hl
  have separated : Separated (before ++ x :: after) := by
    rw [← hp]
    exact f.separated
  have split : respelled text = before.flatMap Part.chars ++ c :: after.flatMap Part.chars := by
    rw [← hf, Layout.chars, hp, List.flatMap_append, List.flatMap_cons, Part.chars_of_isOperator hx hl, hc]
    rfl
  obtain ⟨more, hm⟩ := exists_of_respelled_eq hq split
  exact ⟨⟨before, separated.of_append⟩, c, more, hc, hm, by rw [hpos, Nat.zero_add, Layout.chars]⟩

end TagQuery
