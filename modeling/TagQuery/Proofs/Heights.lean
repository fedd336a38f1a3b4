import TagQuery.Proofs.Retracing
import TagQuery.Proofs.Trees

/-!
# How high expressions are

An alternation is folded to the left, so an operand of it lies below the bar before it and below all bars after it, and
the first operand lies below all of its bars.  Counted in this way, the levels of a derivation are the height of what
it stands for (`Conjunction.heights_exprs`), so the derivation of a text tells how high its expressions are
(`Query.ofText_nesting`).  Reading charges an operand for the operands before it instead, which is not the same: some
texts are read without a problem as expressions that are higher than the limit
(`Query.exists_nestingLimit_lt_height`).

If the cost is at most `b`, the height is at most `b * (b + 3) / 2` (`Expr.height_le_of_cost`), and `tower b`, which
costs no more than `b`, has so many levels (`two_mul_levels_tower`).  So the expressions of a text can be far higher
than the limit (`Query.exists_height_eq`).
-/

namespace TagQuery

open Cursor Grammar

namespace Expr

mutual

/-- The number of negations, alternations and groups on the longest way down. -/
def height : Expr → Nat
  | .term _ => 0
  | .not e => height e + 1
  | .or l r => max (height l) (height r) + 1
  | .group es => heights es + 1

def heights : List Expr → Nat
  | [] => 0
  | e :: es => max (height e) (heights es)

end

theorem heights_le_iff {es : List Expr} {n : Nat} : heights es ≤ n ↔ ∀ e ∈ es, e.height ≤ n := by
  induction es with
  | nil => simp [heights]
  | cons e es ih => rw [heights, Nat.max_le, ih, List.forall_mem_cons]

end Expr

/-! ### The levels of a derivation -/

namespace Grammar

mutual

/-- The levels of what a conjunction stands for: one for a pair of brackets and for a negation, and in an alternation
one for the bar before an operand and for each bar after it. -/
def Conjunction.levels : Conjunction → Nat
  | .nil => 0
  | .cons a c => max a.levels c.levels

def Alternation.levels : Alternation → Nat
  | .mk n os => max (n.levels + os.length) os.levels

def Operands.levels : Operands → Nat
  | .nil => 0
  | .cons n os => max (n.levels + 1 + os.length) os.levels

def Negation.levels : Negation → Nat
  | .not n => n.levels + 1
  | .primary p => p.levels

def Primary.levels : Primary → Nat
  | .word _ => 0
  | .group c => c.levels + 1

end

mutual

theorem Conjunction.heights_exprs : ∀ g : Conjunction, Expr.heights g.exprs = g.levels
  | .nil => rfl
  | .cons a g => by
    rw [Conjunction.exprs, Expr.heights, Alternation.height_expr a, Conjunction.heights_exprs g, Conjunction.levels]

theorem Alternation.height_expr : ∀ a : Alternation, a.expr.height = a.levels
  | .mk n os => by
    rw [Alternation.expr, Operands.height_fold os, Negation.height_expr n, Alternation.levels]

theorem Operands.height_fold : ∀ (os : Operands) (left : Expr),
    (os.fold left).height = max (left.height + os.length) os.levels
  | .nil, left => (Nat.max_zero _).symm
  | .cons n os, left => by
    rw [Operands.fold, Operands.height_fold os, Expr.height, Negation.height_expr n, Operands.levels, Operands.length]
    omega

theorem Negation.height_expr : ∀ n : Negation, n.expr.height = n.levels
  | .not n => by rw [Negation.expr, Expr.height, Negation.height_expr n, Negation.levels]
  | .primary p => by rw [Negation.expr, Primary.height_expr p, Negation.levels]

theorem Primary.height_expr : ∀ p : Primary, p.expr.height = p.levels
  | .word _ => rfl
  | .group g => by rw [Primary.expr, Expr.height, Conjunction.heights_exprs g, Primary.levels]

end

end Grammar

/-! ### The height against the cost -/

namespace Expr

theorem bars_le_cost (e : Expr) : e.bars ≤ e.cost := by
  cases e with
  | or l r =>
    rw [cost, bars]
    omega
  | _ => exact Nat.zero_le _

theorem sq_succ (n : Nat) : (n + 1) * (n + 1) = n * n + 2 * n + 1 := by
  rw [Nat.add_mul, Nat.mul_add]
  omega

mutual

theorem two_mul_height_le : ∀ (e : Expr) {b : Nat}, e.cost ≤ b → 2 * e.height ≤ b * b + b + 2 * e.bars
  | .term _, _, _ => by simp [height]
  | .not e, b, h => by
    rw [cost] at h
    obtain ⟨b, rfl⟩ : ∃ b', b = b' + 1 := ⟨b - 1, by omega⟩
    have ih := two_mul_height_le e (Nat.le_of_succ_le_succ h)
    have hb := bars_le_cost e
    rw [height, bars, sq_succ]
    omega
  | .or l r, b, h => by
    rw [cost] at h
    -- the operand on the right has the bars before it less to spend
    obtain ⟨c, rfl⟩ : ∃ c, b = c + (l.bars + 1) := ⟨b - (l.bars + 1), by omega⟩
    have ihl := two_mul_height_le l (b := c + (l.bars + 1)) (by omega)
    have ihr := two_mul_height_le r (b := c) (by omega)
    have hb := bars_le_cost r
    have hc : c * c + 2 * c + 1 ≤ (c + (l.bars + 1)) * (c + (l.bars + 1)) := by
      rw [← sq_succ]
      exact Nat.mul_le_mul (by omega) (by omega)
    rw [height, bars]
    omega
  | .group es, b, h => by
    rw [cost] at h
    obtain ⟨b, rfl⟩ : ∃ b', b = b' + 1 := ⟨b - 1, by omega⟩
    have ih := two_mul_heights_le es (Nat.le_of_succ_le_succ h)
    rw [height, bars, sq_succ]
    omega

theorem two_mul_heights_le : ∀ (es : List Expr) {b : Nat}, costs es ≤ b → 2 * heights es ≤ b * b + 3 * b
  | [], _, _ => Nat.zero_le _
  | e :: es, b, h => by
    rw [costs] at h
    have he : e.cost ≤ b := Nat.le_trans (Nat.le_max_left ..) h
    have ihe := two_mul_height_le e he
    have ihs := two_mul_heights_le es (Nat.le_trans (Nat.le_max_right ..) h)
    have hb := bars_le_cost e
    rw [heights]
    omega

end

theorem height_le_of_cost {e : Expr} {b : Nat} (h : e.cost ≤ b) : e.height ≤ b * (b + 3) / 2 := by
  have he := two_mul_height_le e h
  have hb := bars_le_cost e
  rw [Nat.le_div_iff_mul_le (by omega), Nat.mul_add]
  omega

end Expr

/-! ### Towers -/

namespace Grammar

/-- So many further operands. -/
def Operands.copies : Nat → Operands
  | 0 => .nil
  | n + 1 => .cons (.primary (.word "a")) (copies n)

/-- A group with the tower below it in, and one bar more than that tower has. -/
def tower : Nat → Alternation
  | 0 => .mk (.primary (.word "a")) .nil
  | b + 1 => .mk (.primary (.group (.cons (tower b) .nil))) (.copies (b + 1))

theorem Operands.length_copies (n : Nat) : (copies n).length = n := by
  induction n with
  | zero => rfl
  | succ n ih => rw [copies, length, ih]

theorem Operands.levels_copies (n : Nat) : (copies n).levels = n := by
  induction n with
  | zero => rfl
  | succ n ih =>
    rw [copies, levels, ih, length_copies]
    show max (0 + 1 + n) n = n + 1
    omega

theorem Operands.cost_copies_le (n index : Nat) {b : Nat} (h : index + n ≤ b + 1) : (copies n).cost index ≤ b := by
  induction n generalizing index with
  | zero => exact Nat.zero_le _
  | succ n ih =>
    have hn := ih (index + 1) (by omega)
    show max (index + 0) ((copies n).cost (index + 1)) ≤ b
    omega

theorem Operands.ne_of_mem_copies {n : Nat} {l : Lexeme} (h : l ∈ (copies n).lexemes) : l ≠ .word "" := by
  induction n with
  | zero => cases h
  | succ n ih =>
    rcases List.mem_cons.1 h with rfl | h
    · exact nofun
    rcases List.mem_cons.1 h with rfl | h
    · decide
    · exact ih h

theorem cost_tower_le (b : Nat) : (tower b).cost ≤ b := by
  induction b with
  | zero => exact Nat.le_refl _
  | succ b ih =>
    have hc := Operands.cost_copies_le (b + 1) 1 (b := b + 1) (by omega)
    show max (max (tower b).cost 0 + 1) ((Operands.copies (b + 1)).cost 1) ≤ b + 1
    omega

theorem two_mul_levels_tower (b : Nat) : 2 * (tower b).levels = b * (b + 3) := by
  induction b with
  | zero => rfl
  | succ b ih =>
    have h : (tower (b + 1)).levels = (tower b).levels + 1 + (b + 1) := by
      rw [tower, Alternation.levels, Operands.length_copies, Operands.levels_copies]
      show max (max (tower b).levels 0 + 1 + (b + 1)) (b + 1) = _
      omega
    rw [h, Nat.mul_add, Nat.mul_add, ih, Nat.add_mul, Nat.add_right_comm b 1 3, Nat.mul_succ b (b + 3)]
    omega

theorem ne_of_mem_tower {b : Nat} {l : Lexeme} (h : l ∈ (tower b).lexemes) : l ≠ .word "" := by
  induction b with
  | zero =>
    rcases List.mem_singleton.1 h with rfl
    decide
  | succ b ih =>
    have h : l ∈ .opening :: (((tower b).lexemes ++ []) ++ [.closing]) ++ (Operands.copies (b + 1)).lexemes := h
    rcases List.mem_append.1 h with h | h
    · rcases List.mem_cons.1 h with rfl | h
      · exact nofun
      rw [List.append_nil] at h
      rcases List.mem_append.1 h with h | h
      · exact ih h
      · rcases List.mem_singleton.1 h with rfl
        exact nofun
    · exact Operands.ne_of_mem_copies h

/-! ### A bar around negations -/

def nots : Nat → Negation
  | 0 => .primary (.word "a")
  | n + 1 => .not (nots n)

theorem lexemes_nots (n : Nat) : (nots n).lexemes = List.replicate n .not ++ [.word "a"] := by
  induction n with
  | zero => rfl
  | succ n ih =>
    rw [nots, Negation.lexemes, ih]
    rfl

theorem cost_nots (n : Nat) : (nots n).cost = n := by
  induction n with
  | zero => rfl
  | succ n ih => rw [nots, Negation.cost, ih]

theorem levels_nots (n : Nat) : (nots n).levels = n := by
  induction n with
  | zero => rfl
  | succ n ih => rw [nots, Negation.levels, ih]

end Grammar

theorem Scan.run_nots (n : Nat) (tokens : List Token) (position : Nat) (rest : List Char) :
    ∃ tokens', (⟨tokens, none, none⟩ : Scan).run position (List.replicate n '!' ++ rest) =
        (⟨tokens', none, none⟩ : Scan).run (position + n) rest ∧
      tokens'.map Token.lexeme = List.replicate n .not ++ tokens.map Token.lexeme := by
  induction n generalizing tokens position with
  | zero => exact ⟨tokens, rfl, rfl⟩
  | succ n ih =>
    obtain ⟨tokens', h, ht⟩ := ih (⟨.not, position⟩ :: tokens) (position + 1)
    refine ⟨tokens', ?_, ?_⟩
    · rw [← Nat.add_assoc, Nat.add_right_comm, ← h]
      rfl
    · rw [ht, List.replicate_succ']
      simp

theorem Tokens.ofChars_nots (n : Nat) :
    (Tokens.ofChars (List.replicate n '!' ++ ['a', '|', 'b'])).lexemes =
      List.replicate n .not ++ [.word "a", .or, .word "b"] ∧
    (Tokens.ofChars (List.replicate n '!' ++ ['a', '|', 'b'])).diagnostics = [] := by
  obtain ⟨tokens', h, ht⟩ := Scan.run_nots n [] 0 ['a', '|', 'b']
  have hr : (⟨tokens', none, none⟩ : Scan).run (0 + n) ['a', '|', 'b'] =
      ⟨(⟨.word "b", 0 + n + 1 + 1⟩ :: ⟨.or, 0 + n + 1⟩ :: ⟨.word "a", 0 + n⟩ :: tokens').reverse, []⟩ := rfl
  rw [Tokens.ofChars, h, hr]
  refine ⟨?_, rfl⟩
  rw [List.map_nil, List.append_nil] at ht
  simp [Tokens.lexemes, ht]

namespace Query

/-- Once cuts and repairs are made, the tokens of a text have a derivation, and the expressions of the text stay within
the limit in height exactly if the levels of this derivation do.  What reading keeps within the limit is the cost, and
with it the height stays within a larger bound. -/
theorem ofText_nesting (text : String) :
    (∃ g : Conjunction,
      g.lexemes = repaired (trimmed (ofText text).diagnostics (Tokens.ofChars text.toList).tokens) ∧
        ((∀ e ∈ (ofText text).expressions, e.height ≤ nestingLimit) ↔ g.levels ≤ nestingLimit)) ∧
    ∀ e ∈ (ofText text).expressions, e.cost ≤ nestingLimit ∧
      e.height ≤ nestingLimit * (nestingLimit + 3) / 2 := by
  constructor
  · obtain ⟨g, hl, he⟩ := exists_derivation_trimmed text
    refine ⟨g, hl, ?_⟩
    rw [he, ← Expr.heights_le_iff, g.heights_exprs]
  · intro e he
    have hc := cost_of_mem he
    exact ⟨hc, Expr.height_le_of_cost hc⟩

/-- The limit is no bound for the height: here the first operand costs as much as it may, and a bar goes around it. -/
theorem exists_nestingLimit_lt_height :
    ∃ e ∈ (ofText (String.ofList (List.replicate 256 '!' ++ ['a', '|', 'b']))).expressions,
      nestingLimit < e.height := by
  have hl : (Conjunction.cons (.mk (nots 256) (.cons (.primary (.word "b")) .nil)) .nil).lexemes =
      (Tokens.ofChars (List.replicate 256 '!' ++ ['a', '|', 'b'])).lexemes := by
    rw [(Tokens.ofChars_nots 256).1, Conjunction.lexemes, Alternation.lexemes, lexemes_nots, List.append_assoc,
      List.append_assoc]
    rfl
  have hc : (Conjunction.cons (.mk (nots 256) (.cons (.primary (.word "b")) .nil)) .nil).cost ≤ nestingLimit := by
    rw [Conjunction.cost, Alternation.cost, cost_nots]
    decide
  obtain ⟨-, he⟩ := ofTokens_of_derivation (Tokens.ofChars_nots 256).2 hl hc
  refine ⟨.or (nots 256).expr (.term (.ofWord "b")), ?_, ?_⟩
  · rw [ofText, String.toList_ofList, he]
    exact List.mem_cons_self
  · rw [Expr.height, Negation.height_expr, levels_nots]
    decide

/-- The larger bound is reached. -/
theorem exists_height_eq : ∃ text : String, (ofText text).diagnostics = [] ∧
    ∃ e ∈ (ofText text).expressions, e.height = nestingLimit * (nestingLimit + 3) / 2 := by
  have hw : ∀ l ∈ (Conjunction.cons (tower nestingLimit) .nil).lexemes, l ≠ .word "" := by
    intro l hl
    rw [Conjunction.lexemes, Conjunction.lexemes, List.append_nil] at hl
    exact ne_of_mem_tower hl
  have hc : (Conjunction.cons (tower nestingLimit) .nil).cost ≤ nestingLimit := by
    have ht := cost_tower_le nestingLimit
    rw [Conjunction.cost, Conjunction.cost]
    omega
  obtain ⟨hd, he⟩ := ofText_spell hw hc
  refine ⟨_, hd, (tower nestingLimit).expr, ?_, ?_⟩
  · rw [he]
    exact List.mem_cons_self
  · rw [Alternation.height_expr, ← two_mul_levels_tower, Nat.mul_div_cancel_left _ (by omega)]

end Query

end TagQuery
