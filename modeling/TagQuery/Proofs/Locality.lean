import TagQuery.Proofs.Recovery
import TagQuery.Proofs.Scanning

/-!
# Readings elsewhere

What is read from some tokens depends neither on where they stand nor on what was wrong before them; nor does it
depend on how many levels are open around them, as long as nothing lies too deep (`conjunction_moved` and the lemmas
beside it).

So a text in which nothing is wrong can stand before any other.  If the other does not begin with a bar, the
expressions of the first come before those of the other, and the problems of the other stay what they are, at
positions moved by the length of what stands before (`ofText_beside`).
-/

namespace TagQuery

open Cursor Grammar

namespace Cursor

/-- The cursor `n` characters later and `k` levels further out, after the problems `earlier`. -/
def moved (n k : Nat) (earlier : List Diagnostic) (c : Cursor) : Cursor where
  rest := c.rest.map (Token.shift n)
  depth := c.depth - k
  problems := c.problems.map (Diagnostic.shift n) ++ earlier

section

variable (n k : Nat) (earlier : List Diagnostic)

theorem startsPrimary_shift (ts : List Token) : startsPrimary (ts.map (Token.shift n)) = startsPrimary ts := by
  rcases ts with _ | ⟨⟨l, p⟩, ts⟩
  · rfl
  · cases l <;> rfl

theorem startsOperand_shift (ts : List Token) : startsOperand (ts.map (Token.shift n)) = startsOperand ts := by
  rcases ts with _ | ⟨⟨l, p⟩, ts⟩
  · rfl
  · cases l <;> rfl

theorem groupEnd_shift (unclosed : Nat) (ts : List Token) :
    groupEnd unclosed (ts.map (Token.shift n)) = (groupEnd unclosed ts).map (Token.shift n) := by
  fun_induction groupEnd unclosed ts with
  | case1 unclosed => rfl
  | case2 unclosed p rest ih => exact ih
  | case3 p rest => rfl
  | case4 p rest unclosed ih => exact ih
  | case5 unclosed t rest ho hz hc ih =>
    obtain ⟨l, p⟩ := t
    cases l with
    | opening => exact absurd rfl (ho p)
    | closing =>
      cases unclosed with
      | zero => exact (hz p rfl rfl).elim
      | succ unclosed => exact (hc unclosed p rfl rfl).elim
    | word w => exact ih
    | not => exact ih
    | or => exact ih

theorem next_moved (c : Cursor) : (c.moved n k earlier).next = c.next := by
  rw [next, moved, List.head?_map, Option.map_map]
  rfl

theorem leave_moved (c : Cursor) (links : Nat) :
    (c.leave links).moved n k earlier = (c.moved n k earlier).leave links := by
  rw [leave, leave, moved, moved, Nat.sub_right_comm]

theorem cut_moved (c : Cursor) (p : Nat) : (cut c p).moved n k earlier = cut (c.moved n k earlier) (p + n) := by
  rw [cut, cut, moved, moved, report, report, groupEnd_shift]
  rfl

/-- One level further in. -/
theorem moved_deeper {rest : List Token} {depth : Nat} {problems : List Diagnostic} (hk : k ≤ depth) :
    moved n k earlier ⟨rest, depth + 1, problems⟩ = { moved n k earlier ⟨rest, depth, problems⟩ with
      depth := depth - k + 1 } := by
  rw [moved, moved, Nat.succ_sub hk]

mutual

theorem conjunction_moved {opened c es d} : ReadsConjunction opened c es d → k ≤ c.depth → (k = 0 ∨ d.Shallow) →
    ReadsConjunction (opened.map (· + n)) (c.moved n k earlier) es (d.moved n k earlier)
  | .unclosed, _, _ => .unclosed
  | .done, _, _ => .done
  | .close, _, _ => .close
  | .unmatched h, hk, hs => .unmatched (conjunction_moved h hk hs)
  | .strayOr h, hk, hs => .strayOr (conjunction_moved h hk hs)
  | .item starts ha h, hk, hs =>
    .item ((startsOperand_shift n _).trans starts)
      (alternation_moved ha hk (hs.imp_right (·.of_suffix (conjunction_keeps h).2)))
      (conjunction_moved h ((alternation_keeps ha).1 ▸ hk) hs)

theorem alternation_moved {c e d} : ReadsAlternation c e d → k ≤ c.depth → (k = 0 ∨ d.Shallow) →
    ReadsAlternation (c.moved n k earlier) e (d.moved n k earlier)
  | .nothing h, hk, hs => .nothing (negation_moved h hk hs)
  | .operands h ho, hk, hs =>
    .operands (negation_moved h hk (hs.imp_right (·.of_suffix (alternatives_keeps ho).2)))
      (alternatives_moved ho ((negation_keeps h).1 ▸ hk) hs)

theorem alternatives_moved {left links c e d} : ReadsAlternatives left links c e d → k ≤ c.depth →
    (k = 0 ∨ d.Shallow) → ReadsAlternatives left links (c.moved n k earlier) e (d.moved n k earlier)
  | .stop (c := c) h, _, _ => by
    rw [leave_moved]
    exact .stop (by rw [next_moved]; exact h)
  | .link (m := m) room h ho, hk, hs => by
    have hk : k ≤ _ := hk
    have hn := negation_moved h (Nat.le_succ_of_le hk) (hs.imp_right (·.of_suffix (alternatives_keeps ho).2))
    rw [moved_deeper n k earlier hk] at hn
    have hm : k ≤ m.depth := (negation_keeps h).1 ▸ Nat.le_succ_of_le hk
    exact .link (Nat.lt_of_le_of_lt (Nat.sub_le ..) room) hn (alternatives_moved ho hm hs)
  | .missing room h, hk, hs => by
    have hk : k ≤ _ := hk
    have hn := negation_moved h (Nat.le_succ_of_le hk) (hs.imp_right (·.of_suffix (List.suffix_cons ..)))
    rw [moved_deeper n k earlier hk] at hn
    rw [leave_moved]
    exact .missing (Nat.lt_of_le_of_lt (Nat.sub_le ..) room) hn
  | .cut full, _, hs => by
    rcases hs with rfl | hs
    · rw [leave_moved, cut_moved]
      exact .cut full
    · exact absurd hs not_shallow_cut

theorem negation_moved {c e d} : ReadsNegation c e d → k ≤ c.depth → (k = 0 ∨ d.Shallow) →
    ReadsNegation (c.moved n k earlier) e (d.moved n k earlier)
  | .negated starts room h, hk, hs => by
    have hk : k ≤ _ := hk
    have hn := negation_moved h (Nat.le_succ_of_le hk) hs
    rw [moved_deeper n k earlier hk] at hn
    rw [leave_moved]
    exact .negated ((startsOperand_shift n _).trans starts) (Nat.lt_of_le_of_lt (Nat.sub_le ..) room) hn
  | .cut starts full, _, hs => by
    rcases hs with rfl | hs
    · rw [cut_moved]
      exact .cut ((startsOperand_shift n _).trans starts) full
    · exact absurd hs not_shallow_cut
  | .missing starts, _, _ => .missing ((startsOperand_shift n _).trans starts)
  | .primary hn h, hk, hs => .primary (by rw [next_moved]; exact hn) (primary_moved h hk hs)

theorem primary_moved {c e d} : ReadsPrimary c e d → k ≤ c.depth → (k = 0 ∨ d.Shallow) →
    ReadsPrimary (c.moved n k earlier) e (d.moved n k earlier)
  | .word, _, _ => .word
  | .group room h, hk, hs => by
    have hk : k ≤ _ := hk
    have hc := conjunction_moved h (Nat.le_succ_of_le hk) hs
    rw [moved_deeper n k earlier hk] at hc
    rw [leave_moved]
    exact .group (Nat.lt_of_le_of_lt (Nat.sub_le ..) room) hc
  | .cut full, _, hs => by
    rcases hs with rfl | hs
    · rw [cut_moved]
      exact .cut full
    · exact absurd hs not_shallow_cut
  | .nothing hp, _, _ => .nothing ((startsPrimary_shift n _).trans hp)

end

end

end Cursor

namespace Query

/-- What was wrong before does not change what is read. -/
theorem expressions_of_reads {ts : List Token} {problems : List Diagnostic} {es : List Expr} {d : Cursor}
    (h : ReadsConjunction none ⟨ts, 0, problems⟩ es d) (ds : List Diagnostic) :
    (ofTokens ⟨ts, ds⟩).expressions = es := by
  obtain ⟨es', hr⟩ := reads.1 none [] ⟨ts, 0, []⟩
  have anywhere : ∀ earlier, ∃ d', ReadsConjunction none ⟨ts, 0, earlier⟩ es' d' := by
    intro earlier
    have hm := conjunction_moved 0 0 earlier hr (Nat.zero_le _) (.inl rfl)
    rw [moved, List.map_id'' Token.shift_zero] at hm
    exact ⟨_, hm⟩
  obtain ⟨d', hd⟩ := anywhere problems
  obtain ⟨d'', hds⟩ := anywhere ds.reverse
  have he : (es, d) = (es', d') := (conjunction_eq h []).symm.trans (conjunction_eq hd [])
  rw [ofTokens_eq_of_reads (t := ⟨ts, ds⟩) hds, (Prod.mk.inj he).1]

theorem ofTokens_shift (n : Nat) (t : Tokens) :
    ofTokens ⟨t.tokens.map (Token.shift n), t.diagnostics.map (Diagnostic.shift n)⟩ =
      ⟨(ofTokens t).expressions, (ofTokens t).diagnostics.map (Diagnostic.shift n)⟩ := by
  obtain ⟨es, d, hr, -⟩ := exists_reads t
  have hm := conjunction_moved n 0 [] hr (Nat.zero_le _) (.inl rfl)
  rw [moved, moved, List.append_nil, List.append_nil, List.map_reverse] at hm
  rw [ofTokens_eq_of_reads hr, ofTokens_eq_of_reads (t := ⟨_, _⟩) hm, ← List.map_reverse, List.map_mergeSort]
  intro a _ b _
  rw [decide_eq_decide]
  exact (Nat.add_le_add_iff_right ..).symm

/-- A derivation within the nesting limit can stand before any tokens that do not go on with it. -/
theorem ofTokens_append {g : Conjunction} {ts us : List Token} (hl : ts.map Token.lexeme = g.lexemes)
    (hc : g.cost ≤ nestingLimit) (hu : (us.map Token.lexeme).head? ≠ some .or) (ds : List Diagnostic) :
    ofTokens ⟨ts ++ us, ds⟩ = ⟨g.exprs ++ (ofTokens ⟨us, ds⟩).expressions, (ofTokens ⟨us, ds⟩).diagnostics⟩ := by
  obtain ⟨es, d, hr, -⟩ := exists_reads ⟨us, ds⟩
  have hg := g.reads 0 ds.reverse hl hu (by omega) hr
  rw [ofTokens_eq_of_reads hr, ofTokens_eq_of_reads (t := ⟨_, _⟩) hg]

theorem ofText_spaces (n : Nat) (y : String) : ofText (String.ofList (List.replicate n ' ') ++ y) =
    ⟨(ofText y).expressions, (ofText y).diagnostics.map (Diagnostic.shift n)⟩ := by
  have skip : ∀ position, (⟨[], none, none⟩ : Scan).run position (List.replicate n ' ' ++ y.toList) =
      (⟨[], none, none⟩ : Scan).run (position + n) y.toList := by
    induction n with
    | zero => exact fun _ => rfl
    | succ n ih =>
      intro position
      rw [List.replicate_succ, List.cons_append, Scan.run_cons _ (by decide) (by decide), Nat.add_comm n,
        ← Nat.add_assoc]
      exact ih (position + 1)
  have ht : Tokens.ofChars (String.ofList (List.replicate n ' ') ++ y).toList =
      ⟨(Tokens.ofChars y.toList).tokens.map (Token.shift n),
        (Tokens.ofChars y.toList).diagnostics.map (Diagnostic.shift n)⟩ := by
    rw [String.toList_append, String.toList_ofList, Tokens.ofChars]
    refine (skip 0).trans ?_
    rw [Nat.zero_add, Tokens.run_anew]
    rfl
  rw [ofText, ht, ofTokens_shift, ofText]

/-- After a text in which nothing is wrong and a space, any text is read as it is by itself unless it begins with a
bar; only the positions of its problems are moved.  Spaces before a text move the positions and change nothing else. -/
theorem ofText_beside (y : String) :
    (∀ x : String, (ofText x).diagnostics = [] → (Tokens.ofChars y.toList).lexemes.head? ≠ some .or →
      ofText (x ++ " " ++ y) = ⟨(ofText x).expressions ++ (ofText y).expressions,
        (ofText y).diagnostics.map (Diagnostic.shift (x.length + 1))⟩) ∧
    ∀ n : Nat, ofText (String.ofList (List.replicate n ' ') ++ y) =
      ⟨(ofText y).expressions, (ofText y).diagnostics.map (Diagnostic.shift n)⟩ := by
  refine ⟨fun x hx hy => ?_, fun n => ofText_spaces n y⟩
  obtain ⟨ht, g, hl, hc⟩ := derivation_of_ofTokens hx
  have he : (ofText x).expressions = g.exprs := (ofTokens_of_derivation ht hl hc).2
  have hs := Tokens.ofChars_append_space ht y.toList
  rw [String.length_toList] at hs
  have hu : (((Tokens.ofChars y.toList).tokens.map (Token.shift (x.length + 1))).map Token.lexeme).head? ≠
      some .or := by
    rw [Scans.map_lexeme_shift]
    exact hy
  have hxy : (x ++ " " ++ y).toList = x.toList ++ ' ' :: y.toList := by simp
  rw [ofText, hxy, hs, ofTokens_append hl.symm hc hu, ofTokens_shift, he, ofText]

/-- A chain before a text with three problems. -/
theorem ofText_beside_chain : (ofText "a | b").diagnostics = [] ∧
    (Tokens.ofChars "c) | !(d".toList).lexemes.head? ≠ some .or ∧
    ofText ("a | b" ++ " " ++ "c) | !(d") = ⟨(ofText "a | b").expressions ++ (ofText "c) | !(d").expressions,
      [⟨.unmatchedClose, 7⟩, ⟨.missingOperand .or, 9⟩, ⟨.unclosedGroup, 12⟩]⟩ := by
  have clean : (ofText "a | b").diagnostics = [] := by decide +kernel
  have first : (Tokens.ofChars "c) | !(d".toList).lexemes.head? ≠ some .or := by decide +kernel
  have problems : (ofText "c) | !(d").diagnostics =
      [⟨.unmatchedClose, 1⟩, ⟨.missingOperand .or, 3⟩, ⟨.unclosedGroup, 6⟩] :=
    (List.mergeSort_of_pairwise (by decide +kernel)).trans (by decide +kernel)
  refine ⟨clean, first, ?_⟩
  rw [(ofText_beside "c) | !(d").1 "a | b" clean first, problems]
  rfl

end Query

end TagQuery
