import TagQuery.Query.Expr
import TagQuery.Query.Token

/-!
# The grammar of queries

A derivation is a tree: a conjunction is any number of alternations, an alternation a negation and the further
operands, a negation `!` before a negation or a primary, a primary a word or a conjunction in brackets.  Each tree has
its lexemes, the cost of its nesting, and the expressions it stands for.

The lexemes determine the tree (`Conjunction.lexemes_injective`).  An alternation begins with a word, an opening
bracket or `!`, and nothing that can come after a conjunction does; so what comes first tells how the tree goes on.
-/

namespace TagQuery

def Tokens.lexemes (t : Tokens) : List Lexeme :=
  t.tokens.map Token.lexeme

namespace Grammar

mutual

/-- Any number of alternations. -/
inductive Conjunction
  | nil
  | cons (first : Alternation) (more : Conjunction)

/-- A negation and the further operands, each with `|` before it. -/
inductive Alternation
  | mk (first : Negation) (more : Operands)

inductive Operands
  | nil
  | cons (operand : Negation) (more : Operands)

/-- `!` before a negation, or a primary. -/
inductive Negation
  | not (operand : Negation)
  | primary (operand : Primary)

/-- A word, or a conjunction in brackets. -/
inductive Primary
  | word (text : String)
  | group (inside : Conjunction)

end

mutual

def Conjunction.lexemes : Conjunction → List Lexeme
  | .nil => []
  | .cons a c => a.lexemes ++ c.lexemes

def Alternation.lexemes : Alternation → List Lexeme
  | .mk n os => n.lexemes ++ os.lexemes

def Operands.lexemes : Operands → List Lexeme
  | .nil => []
  | .cons n os => .or :: (n.lexemes ++ os.lexemes)

def Negation.lexemes : Negation → List Lexeme
  | .not n => .not :: n.lexemes
  | .primary p => p.lexemes

def Primary.lexemes : Primary → List Lexeme
  | .word w => [.word w]
  | .group c => .opening :: (c.lexemes ++ [.closing])

end

mutual

/-- The deepest nesting in a conjunction: a pair of brackets and a negation cost one level more than what they hold,
the operand that `index` others come before in an alternation costs `index` levels more. -/
def Conjunction.cost : Conjunction → Nat
  | .nil => 0
  | .cons a c => max a.cost c.cost

def Alternation.cost : Alternation → Nat
  | .mk n os => max n.cost (os.cost 1)

def Operands.cost : (index : Nat) → Operands → Nat
  | _, .nil => 0
  | index, .cons n os => max (index + n.cost) (os.cost (index + 1))

def Negation.cost : Negation → Nat
  | .not n => n.cost + 1
  | .primary p => p.cost

def Primary.cost : Primary → Nat
  | .word _ => 0
  | .group c => c.cost + 1

end

mutual

def Conjunction.exprs : Conjunction → List Expr
  | .nil => []
  | .cons a c => a.expr :: c.exprs

def Alternation.expr : Alternation → Expr
  | .mk n os => os.fold n.expr

/-- The alternation of `left` with the operands, folded to the left. -/
def Operands.fold : (left : Expr) → Operands → Expr
  | left, .nil => left
  | left, .cons n os => os.fold (.or left n.expr)

def Negation.expr : Negation → Expr
  | .not n => .not n.expr
  | .primary p => p.expr

def Primary.expr : Primary → Expr
  | .word w => .term (.ofWord w)
  | .group c => .group c.exprs

end

/-- Whether a lexeme can begin an operand. -/
def opens : Lexeme → Bool
  | .word _ | .opening | .not => true
  | .closing | .or => false

theorem Negation.lexemes_cons (n : Negation) : ∃ l ls, n.lexemes = l :: ls ∧ opens l = true := by
  cases n with
  | not n => exact ⟨_, _, rfl, rfl⟩
  | primary p =>
    cases p with
    | word w => exact ⟨_, _, rfl, rfl⟩
    | group c => exact ⟨_, _, rfl, rfl⟩

theorem Alternation.lexemes_cons (a : Alternation) : ∃ l ls, a.lexemes = l :: ls ∧ opens l = true := by
  obtain ⟨n, os⟩ := a
  obtain ⟨l, ls, h, ho⟩ := n.lexemes_cons
  exact ⟨l, ls ++ os.lexemes, by rw [lexemes, h]; rfl, ho⟩

/-- What can come after a conjunction: nothing, or a closing bracket. -/
def EndsGroup (rest : List Lexeme) : Prop :=
  rest = [] ∨ ∃ ls, rest = .closing :: ls

theorem EndsGroup.ne_alternation {rest : List Lexeme} (h : EndsGroup rest) (a : Alternation) (ls : List Lexeme) :
    rest ≠ a.lexemes ++ ls := by
  obtain ⟨l, ks, ha, ho⟩ := a.lexemes_cons
  rw [ha]
  rcases h with rfl | ⟨ms, rfl⟩
  · exact nofun
  · rintro ⟨⟩
    exact absurd ho Bool.false_ne_true

theorem EndsGroup.head?_ne_or {rest : List Lexeme} (h : EndsGroup rest) : rest.head? ≠ some .or := by
  rcases h with rfl | ⟨ls, rfl⟩ <;> exact nofun

/-- No alternation goes on after a conjunction, nor in one. -/
theorem Conjunction.head?_ne_or (c : Conjunction) {rest : List Lexeme} (h : rest.head? ≠ some .or) :
    (c.lexemes ++ rest).head? ≠ some .or := by
  cases c with
  | nil => exact h
  | cons a c =>
    obtain ⟨l, ks, ha, ho⟩ := a.lexemes_cons
    rw [lexemes, ha]
    rintro ⟨⟩
    exact absurd ho Bool.false_ne_true

mutual

theorem Conjunction.eq_of_lexemes : ∀ (c c' : Conjunction) {r r' : List Lexeme}, EndsGroup r → EndsGroup r' →
    c.lexemes ++ r = c'.lexemes ++ r' → c = c' ∧ r = r'
  | .nil, .nil, _, _, _, _, h => ⟨rfl, h⟩
  | .nil, .cons a c, _, _, hr, _, h => by
    rw [Conjunction.lexemes, Conjunction.lexemes, List.append_assoc] at h
    exact absurd h (hr.ne_alternation a _)
  | .cons a c, .nil, _, _, _, hr', h => by
    rw [Conjunction.lexemes, Conjunction.lexemes, List.append_assoc] at h
    exact absurd h.symm (hr'.ne_alternation a _)
  | .cons a c, .cons a' c', _, _, hr, hr', h => by
    rw [Conjunction.lexemes, Conjunction.lexemes, List.append_assoc, List.append_assoc] at h
    obtain ⟨rfl, hc⟩ := Alternation.eq_of_lexemes a a' (c.head?_ne_or hr.head?_ne_or) (c'.head?_ne_or hr'.head?_ne_or) h
    obtain ⟨rfl, hrest⟩ := Conjunction.eq_of_lexemes c c' hr hr' hc
    exact ⟨rfl, hrest⟩

theorem Alternation.eq_of_lexemes : ∀ (a a' : Alternation) {r r' : List Lexeme}, r.head? ≠ some .or →
    r'.head? ≠ some .or → a.lexemes ++ r = a'.lexemes ++ r' → a = a' ∧ r = r'
  | .mk n os, .mk n' os', _, _, hr, hr', h => by
    rw [Alternation.lexemes, Alternation.lexemes, List.append_assoc, List.append_assoc] at h
    obtain ⟨rfl, hos⟩ := Negation.eq_of_lexemes n n' h
    obtain ⟨rfl, hrest⟩ := Operands.eq_of_lexemes os os' hr hr' hos
    exact ⟨rfl, hrest⟩

theorem Operands.eq_of_lexemes : ∀ (os os' : Operands) {r r' : List Lexeme}, r.head? ≠ some .or →
    r'.head? ≠ some .or → os.lexemes ++ r = os'.lexemes ++ r' → os = os' ∧ r = r'
  | .nil, .nil, _, _, _, _, h => ⟨rfl, h⟩
  | .nil, .cons n os, _, _, hr, _, h => absurd (congrArg List.head? h) hr
  | .cons n os, .nil, _, _, _, hr', h => absurd (congrArg List.head? h.symm) hr'
  | .cons n os, .cons n' os', _, _, hr, hr', h => by
    simp only [Operands.lexemes, List.cons_append, List.append_assoc, List.cons.injEq, true_and] at h
    obtain ⟨rfl, hos⟩ := Negation.eq_of_lexemes n n' h
    obtain ⟨rfl, hrest⟩ := Operands.eq_of_lexemes os os' hr hr' hos
    exact ⟨rfl, hrest⟩

theorem Negation.eq_of_lexemes : ∀ (n n' : Negation) {r r' : List Lexeme},
    n.lexemes ++ r = n'.lexemes ++ r' → n = n' ∧ r = r'
  | .not n, .not n', _, _, h => by
    simp only [Negation.lexemes, List.cons_append, List.cons.injEq, true_and] at h
    obtain ⟨rfl, hrest⟩ := Negation.eq_of_lexemes n n' h
    exact ⟨rfl, hrest⟩
  | .not n, .primary p, _, _, h => by cases p <;> cases h
  | .primary p, .not n, _, _, h => by cases p <;> cases h
  | .primary p, .primary p', _, _, h => by
    obtain ⟨rfl, hrest⟩ := Primary.eq_of_lexemes p p' h
    exact ⟨rfl, hrest⟩

theorem Primary.eq_of_lexemes : ∀ (p p' : Primary) {r r' : List Lexeme},
    p.lexemes ++ r = p'.lexemes ++ r' → p = p' ∧ r = r'
  | .word w, .word w', _, _, h => by
    cases h
    exact ⟨rfl, rfl⟩
  | .word w, .group c, _, _, h => by cases h
  | .group c, .word w, _, _, h => by cases h
  | .group c, .group c', r, r', h => by
    simp only [Primary.lexemes, List.cons_append, List.append_assoc, List.nil_append, List.cons.injEq,
      true_and] at h
    obtain ⟨rfl, hrest⟩ := Conjunction.eq_of_lexemes c c' (.inr ⟨r, rfl⟩) (.inr ⟨r', rfl⟩) h
    exact ⟨rfl, (List.cons.inj hrest).2⟩

end

/-- The grammar is unambiguous. -/
theorem Conjunction.lexemes_injective : Function.Injective Conjunction.lexemes := fun c c' h =>
  (Conjunction.eq_of_lexemes c c' (.inl rfl) (.inl rfl) (congrArg (· ++ []) h)).1

end Grammar

end TagQuery
