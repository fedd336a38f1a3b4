import Mathlib.Data.List.Perm.Subperm
import TagQuery.Matching.Matcher
import TagQuery.Proofs.Image
import TagQuery.Proofs.MissingOperands
import TagQuery.Proofs.Pointing
import TagQuery.Proofs.Sorting

/-!
# Who is to blame

What reading reports is blamed on tokens, and no token is blamed twice: from one step to the next, the tokens that have
been blamed and those that are left are all among those that were left before (`Cursor.Blames`).

So each diagnostic of a text points at a character that is to blame, and no two at the same one.  They come in the order
of the text, and a strict reading fails with the leftmost (`Query.ofText_culprits`).
-/

namespace TagQuery

open Cursor

/-! ### Blame -/

/-- Whether a token of this lexeme can be to blame for the problem. -/
def Problem.concerns (x : Problem) (l : Lexeme) : Bool :=
  l.isOperator && l.chars.all x.culprits.contains

/-- A problem and the token to blame for it. -/
structure Blame where
  problem : Problem
  token : Token
  concerns : problem.concerns token.lexeme = true

def Blame.diagnostic (b : Blame) : Diagnostic :=
  ⟨b.problem, b.token.position⟩

theorem Blame.pointsAt {text : List Char} (b : Blame) (h : b.token ∈ (Tokens.ofChars text).tokens) :
    ∃ c, b.diagnostic.PointsAt text c ∧ c ≠ '\\' ∧ c ≠ '"' := by
  obtain ⟨hl, hc⟩ := Bool.and_eq_true_iff.1 b.concerns
  obtain ⟨f, c, more, hchars, ht, hpos⟩ := Tokens.exists_layout_before h hl
  obtain ⟨c', hc', he, hq⟩ := Lexeme.exists_operator hl
  obtain rfl : c = c' := by simpa [hchars] using hc'
  have htake : text.take b.diagnostic.position = f.chars := by
    show text.take b.token.position = f.chars
    rw [ht, hpos, List.take_left]
  have culprit : c ∈ b.problem.culprits := by simpa [hchars] using hc
  refine ⟨c, ⟨?_, culprit, ?_, ?_, ?_⟩, he, hq⟩
  · show text[b.token.position]? = some c
    rw [hpos, ht]
    simp
  · rw [htake]
    exact f.closed.1
  · apply not_inQuotation
    rw [htake]
    exact f.closed.2
  · intro trailing
    have trailing : b.problem = .trailingEscape := trailing
    rw [trailing] at culprit
    exact absurd (List.mem_singleton.1 culprit) he

namespace Cursor

/-- From `c` to `d` problems are reported that are blamed on tokens, and none of these tokens is left, nor blamed
twice. -/
def Blames (c d : Cursor) : Prop :=
  ∃ blames : List Blame, d.problems = blames.map Blame.diagnostic ++ c.problems ∧
    (blames.map Blame.token ++ d.rest).Subperm c.rest

/-- The cursor with more tokens before those that are left. -/
def behind (ts : List Token) (c : Cursor) : Cursor :=
  { c with rest := ts ++ c.rest }

namespace Blames

variable {c d e : Cursor}

theorem of_sublist (hr : d.rest.Sublist c.rest) (hp : d.problems = c.problems) : Blames c d :=
  ⟨[], hp, hr.subperm⟩

theorem refl (c : Cursor) : Blames c c :=
  of_sublist (List.Sublist.refl _) rfl

theorem trans (h : Blames c d) (h' : Blames d e) : Blames c e := by
  obtain ⟨blames, hp, hs⟩ := h
  obtain ⟨blames', hp', hs'⟩ := h'
  refine ⟨blames' ++ blames, by rw [hp', hp, List.map_append, List.append_assoc], ?_⟩
  have swap : (blames'.map Blame.token ++ (blames.map Blame.token ++ e.rest)).Perm
      (blames.map Blame.token ++ (blames'.map Blame.token ++ e.rest)) := List.perm_append_comm_assoc ..
  have later : (blames.map Blame.token ++ (blames'.map Blame.token ++ e.rest)).Subperm
      (blames.map Blame.token ++ d.rest) := (List.subperm_append_left _).2 hs'
  rw [List.map_append, List.append_assoc]
  exact swap.subperm.trans (later.trans hs)

/-- Tokens that are not reached are left. -/
theorem frame (h : Blames c d) (ts : List Token) : Blames (c.behind ts) (d.behind ts) := by
  obtain ⟨blames, hp, hs⟩ := h
  refine ⟨blames, hp, ?_⟩
  have swap : (blames.map Blame.token ++ (ts ++ d.rest)).Perm (ts ++ (blames.map Blame.token ++ d.rest)) :=
    List.perm_append_comm_assoc ..
  exact swap.subperm.trans ((List.subperm_append_left ts).2 hs)

theorem leave (h : Blames c d) (levels : Nat) : Blames c (d.leave levels) := h

variable {l : Lexeme} {p : Nat} {rest : List Token} {depth depth' : Nat} {problems : List Diagnostic}

theorem token : Blames ⟨⟨l, p⟩ :: rest, depth, problems⟩ ⟨rest, depth', problems⟩ :=
  of_sublist (List.sublist_cons_self _ _) rfl

/-- A token is blamed for what is found only after it. -/
theorem report {problem : Problem} (hl : problem.concerns l = true) (h : Blames ⟨rest, depth', problems⟩ d) :
    Blames ⟨⟨l, p⟩ :: rest, depth, problems⟩ (d.report problem p) := by
  obtain ⟨blames, hp, hs⟩ := h
  refine ⟨⟨problem, ⟨l, p⟩, hl⟩ :: blames, congrArg (_ :: ·) hp, ?_⟩
  exact (List.subperm_cons _).2 hs

theorem dropped {problem : Problem} (hl : problem.concerns l = true) :
    Blames ⟨⟨l, p⟩ :: rest, depth, problems⟩ ⟨rest, depth', ⟨problem, p⟩ :: problems⟩ :=
  report hl (refl ⟨rest, depth', problems⟩)

theorem cut (hl : Problem.nestingTooDeep.concerns l = true) (unclosed : Nat) : Blames ⟨⟨l, p⟩ :: rest, depth, problems⟩
    ⟨groupEnd unclosed rest, depth', ⟨.nestingTooDeep, p⟩ :: problems⟩ :=
  have gone : Blames ⟨rest, depth, problems⟩ ⟨groupEnd unclosed rest, depth', problems⟩ :=
    of_sublist (groupEnd_suffix unclosed rest).sublist rfl
  gone.report hl

end Blames

mutual

/-- The bracket that opened the group is still to be blamed if nothing closes it. -/
theorem conjunction_blames {opened c es d} : ReadsConjunction opened c es d →
    Blames (c.behind (openWithin opened [])) d
  | .unclosed => .dropped rfl
  | .done => .refl _
  | .close => .of_sublist ((List.sublist_cons_self _ _).trans (List.sublist_cons_self _ _)) rfl
  | .unmatched h => (Blames.dropped rfl).trans (conjunction_blames h)
  | .strayOr h => ((Blames.dropped rfl).frame _).trans (conjunction_blames h)
  | .item _ ha h => ((alternation_blames ha).frame _).trans (conjunction_blames h)

theorem alternation_blames {c e d} : ReadsAlternation c e d → Blames c d
  | .nothing h => negation_blames h
  | .operands h hs => (negation_blames h).trans (alternatives_blames hs)

theorem alternatives_blames {left links c e d} : ReadsAlternatives left links c e d → Blames c d
  | .stop _ => .refl _
  | .link _ h hs => Blames.token.trans ((negation_blames h).trans (alternatives_blames hs))
  | .missing _ h => ((negation_blames h).report rfl).leave _
  | .cut _ => (Blames.cut rfl 0).leave _

theorem negation_blames {c e d} : ReadsNegation c e d → Blames c d
  | .negated _ _ h => Blames.token.trans ((negation_blames h).leave 1)
  | .cut _ _ => .cut rfl 0
  | .missing _ => .dropped rfl
  | .primary _ h => primary_blames h

theorem primary_blames {c e d} : ReadsPrimary c e d → Blames c d
  | .word => .token
  | .group _ h => (conjunction_blames h).leave 1
  | .cut _ => .cut rfl 1
  | .nothing _ => .refl _

end

end Cursor

namespace Query

/-- What is reported are the problems of the scan and those that are blamed on tokens. -/
theorem exists_blames (text : String) : ∃ blames : List Blame,
    (ofText text).diagnostics.Perm (blames.map Blame.diagnostic ++ (Tokens.ofChars text.toList).diagnostics) ∧
    (blames.map Blame.token).Subperm (Tokens.ofChars text.toList).tokens := by
  obtain ⟨es, d, hr, -, hps⟩ := exists_reads (Tokens.ofChars text.toList)
  obtain ⟨blames, hp, hs⟩ := conjunction_blames hr
  rw [hp] at hps
  refine ⟨blames, hps.trans ((List.reverse_perm _).append_left _), ?_⟩
  exact (List.sublist_append_left _ _).subperm.trans hs

theorem exists_pointsAt {text : String} {x : Diagnostic} (h : x ∈ (ofText text).diagnostics) :
    ∃ c, x.PointsAt text.toList c := by
  obtain ⟨blames, hp, hs⟩ := exists_blames text
  rcases List.mem_append.1 (hp.mem_iff.1 h) with h | h
  · obtain ⟨b, hb, rfl⟩ := List.mem_map.1 h
    obtain ⟨c, hc, -⟩ := b.pointsAt (hs.subset (List.mem_map_of_mem hb))
    exact ⟨c, hc⟩
  · obtain ⟨c, hc, -⟩ := Tokens.pointsAt_of_mem_ofChars h
    exact ⟨c, hc⟩

theorem nodup_diagnostics (text : String) : ((ofText text).diagnostics.map Diagnostic.position).Nodup := by
  obtain ⟨blames, hp, hs⟩ := exists_blames text
  refine (hp.map Diagnostic.position).nodup_iff.2 ?_
  rw [List.map_append, List.nodup_append]
  refine ⟨?_, ?_, ?_⟩
  · -- no token is blamed twice, and no two tokens stand at one position
    obtain ⟨ts, hts, hsub⟩ := hs
    have positions : (blames.map Blame.diagnostic).map Diagnostic.position =
        (blames.map Blame.token).map Token.position := by
      rw [List.map_map, List.map_map]
      rfl
    rw [positions]
    exact (hts.map Token.position).nodup_iff.1 ((Tokens.ofChars_nodup text.toList).sublist (hsub.map _))
  · exact Tokens.nodup_diagnostics text.toList
  · -- tokens are not blamed for a backslash, nor for a quote
    intro p hp q hq same
    obtain ⟨y, hy, rfl⟩ := List.mem_map.1 hp
    obtain ⟨b, hb, rfl⟩ := List.mem_map.1 hy
    obtain ⟨x, hx, rfl⟩ := List.mem_map.1 hq
    obtain ⟨c, hc, escape, quote⟩ := b.pointsAt (hs.subset (List.mem_map_of_mem hb))
    obtain ⟨c', hc', scanned⟩ := Tokens.pointsAt_of_mem_ofChars hx
    rw [hc.unique hc' same] at escape quote
    exact scanned.elim escape quote

theorem diagnostics_pairwise (text : String) :
    (ofText text).diagnostics.Pairwise fun x y => x.position < y.position := by
  obtain ⟨es, d, hr, -, hps⟩ := exists_reads (Tokens.ofChars text.toList)
  have hd : (ofText text).diagnostics =
      d.problems.reverse.mergeSort fun a b => decide (a.position ≤ b.position) :=
    congrArg Query.diagnostics (ofTokens_eq_of_reads hr)
  have hp : ((d.problems.reverse).map Diagnostic.position).Nodup := by
    have same := (hps.trans (List.reverse_perm d.problems).symm).map Diagnostic.position
    exact same.nodup_iff.1 (nodup_diagnostics text)
  rw [hd]
  exact pairwise_mergeSort_key_lt Diagnostic.position hp

end Query

namespace Matcher

theorem compileStrict_eq_error_iff {text : String} {o : Options} {x : Diagnostic} :
    compileStrict text o = .error x ↔ Query.strict text = .error x := by
  unfold compileStrict
  cases Query.strict text with
  | error y => simp [Except.map]
  | ok es => simp [Except.map]

theorem compileStrict_eq_ok_iff {text : String} {o : Options} {m : Matcher} :
    compileStrict text o = .ok m ↔ (Query.ofText text).diagnostics = [] ∧ compile text o = m := by
  unfold compileStrict compile
  cases hs : Query.strict text with
  | error y =>
    have hy := Query.strict_eq_error_iff.1 hs
    simp only [Except.map]
    refine ⟨nofun, fun h => ?_⟩
    rw [h.1] at hy
    cases hy
  | ok es =>
    obtain ⟨hd, he⟩ := Query.strict_eq_ok_iff.1 hs
    have hq : Query.ofText text = ⟨es, []⟩ := by rw [← hd, ← he]
    simp [Except.map, hq]

end Matcher

/-- The diagnostics of a text come in its order, no two at one position, and each points at a character of the text that
is to blame.  A strict reading fails with the leftmost, so does a strict compilation, and without diagnostics both come
to the same as they do otherwise. -/
theorem Query.ofText_culprits (text : String) (o : Options) :
    let found := (ofText text).diagnostics
    (found.Pairwise fun x y => x.position < y.position) ∧
    (∀ x ∈ found, x.position < text.length ∧ ∃ c, x.PointsAt text.toList c) ∧
    (∀ x, strict text = .error x ↔ x ∈ found ∧ ∀ y ∈ found, x.position ≤ y.position) ∧
    (∀ es, strict text = .ok es ↔ found = [] ∧ (ofText text).expressions = es) ∧
    (∀ x, Matcher.compileStrict text o = .error x ↔ x ∈ found ∧ ∀ y ∈ found, x.position ≤ y.position) ∧
    ∀ m, Matcher.compileStrict text o = .ok m ↔ found = [] ∧ Matcher.compile text o = m := by
  intro found
  have ordered : found.Pairwise fun x y => x.position < y.position := diagnostics_pairwise text
  have leftmost : ∀ x, strict text = .error x ↔ x ∈ found ∧ ∀ y ∈ found, x.position ≤ y.position := by
    intro x
    rw [strict_eq_error_iff]
    exact head?_eq_some_iff_of_pairwise Diagnostic.position ordered
  refine ⟨ordered, ?_, leftmost, fun es => strict_eq_ok_iff, ?_, fun m => Matcher.compileStrict_eq_ok_iff⟩
  · intro x hx
    obtain ⟨c, hc⟩ := exists_pointsAt hx
    refine ⟨?_, c, hc⟩
    obtain ⟨hlt, -⟩ := List.getElem?_eq_some_iff.1 hc.stands
    rw [String.length_toList] at hlt
    exact hlt
  · intro x
    rw [Matcher.compileStrict_eq_error_iff]
    exact leftmost x

end TagQuery
