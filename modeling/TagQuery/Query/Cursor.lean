import TagQuery.Query.Expr
import TagQuery.Query.Token

/-!
# Reading expressions from tokens

The grammar of a query, brackets binding tightest, then negation, then alternation:

* conjunction: any number of alternations, one after the other;
* alternation: negations with `|` between them, folded to the left;
* negation: `!` before a negation, or a primary;
* primary: a word, or a conjunction in brackets.

A cursor holds the tokens that are left, the nesting levels that are open, and the problems met so far.  Each pair
of brackets, each negation and each further operand of an alternation costs one nesting level.  What would cost one
more than `nestingLimit` is dropped together with the rest of the group it stands in (`Cursor.cut`).  Any other
malformed construct is reported and the rest is read as if it were not there.
-/

namespace TagQuery

/-- The deepest nesting of groups, negations and alternations. -/
def nestingLimit : Nat := 256

structure Cursor where
  rest : List Token
  depth : Nat
  /-- The problems met so far, the latest first. -/
  problems : List Diagnostic
  deriving DecidableEq, Repr

namespace Cursor

def report (c : Cursor) (problem : Problem) (position : Nat) : Cursor :=
  { c with problems := ⟨problem, position⟩ :: c.problems }

/-- The cursor after it has left nesting levels. -/
def leave (c : Cursor) (levels : Nat) : Cursor :=
  { c with depth := c.depth - levels }

/-- The tokens from the bracket on that closes a group in which `unclosed` more groups are open. -/
def groupEnd : (unclosed : Nat) → List Token → List Token
  | _, [] => []
  | n, ⟨.opening, _⟩ :: rest => groupEnd (n + 1) rest
  | 0, ⟨.closing, p⟩ :: rest => ⟨.closing, p⟩ :: rest
  | n + 1, ⟨.closing, _⟩ :: rest => groupEnd n rest
  | n, _ :: rest => groupEnd n rest

/-- Gives up the rest of the group because the construct at `position` lies too deep. -/
def cut (c : Cursor) (position : Nat) : Cursor :=
  { c with rest := groupEnd 0 c.rest }.report .nestingTooDeep position

theorem length_groupEnd_le (n : Nat) (ts : List Token) : (groupEnd n ts).length ≤ ts.length := by
  fun_induction groupEnd n ts <;> simp_all <;> omega

/-- Whether a word or a bracket comes first. -/
def startsPrimary : List Token → Bool
  | ⟨.word _, _⟩ :: _ => true
  | ⟨.opening, _⟩ :: _ => true
  | _ => false

/-- Whether a word, a bracket or a negation comes first. -/
def startsOperand : List Token → Bool
  | ⟨.not, _⟩ :: _ => true
  | ts => startsPrimary ts

/-- A cursor that reading leaves when it begins before `ts`: no token comes back, and if one `must` be taken there
are fewer. -/
def Leaves (ts : List Token) (must : Bool) (d : Cursor) : Prop :=
  d.rest.length ≤ ts.length ∧ (must = true → d.rest.length < ts.length)

/-- What comes of reading an operand from `ts`: the operand, if there is one, and the cursor after it. -/
abbrev Operand (ts : List Token) (must : Bool) :=
  { r : Option Expr × Cursor // Leaves ts must r.2 }

theorem Leaves.of_lt {ts : List Token} {must : Bool} {d : Cursor} (h : d.rest.length < ts.length) :
    Leaves ts must d :=
  ⟨Nat.le_of_lt h, fun _ => h⟩

theorem Leaves.of_eq {ts : List Token} {must : Bool} {d : Cursor} (h : d.rest = ts) (hm : must = false) :
    Leaves ts must d :=
  ⟨Nat.le_of_eq (congrArg List.length h), fun hn => absurd (hm ▸ hn) Bool.false_ne_true⟩

mutual

/-- Reads the expressions that follow up to the end of the group opened at `opened`, or of the query; `parts` are
those before them, the latest first. -/
def conjunction (opened : Option Nat) (parts : List Expr) (c : Cursor) :
    { r : List Expr × Cursor // r.2.rest.length ≤ c.rest.length } :=
  if startsOperand c.rest = true then
    match alternation c with
    | ⟨(e, d), hd⟩ =>
      let r := conjunction opened (e.toList ++ parts) d
      ⟨r.1, Nat.le_trans r.2 hd.1⟩
  else
    match c with
    | ⟨[], depth, problems⟩ =>
      match opened with
      | some p => ⟨(parts.reverse, ⟨[], depth, ⟨.unclosedGroup, p⟩ :: problems⟩), Nat.le_refl _⟩
      | none => ⟨(parts.reverse, ⟨[], depth, problems⟩), Nat.le_refl _⟩
    | ⟨⟨.closing, p⟩ :: rest, depth, problems⟩ =>
      match opened with
      | some _ => ⟨(parts.reverse, ⟨rest, depth, problems⟩), Nat.le_succ rest.length⟩
      | none =>
        let r := conjunction none parts ⟨rest, depth, ⟨.unmatchedClose, p⟩ :: problems⟩
        ⟨r.1, Nat.le_succ_of_le r.2⟩
    | ⟨⟨_, p⟩ :: rest, depth, problems⟩ =>
      let r := conjunction opened parts ⟨rest, depth, ⟨.missingOperand .or, p⟩ :: problems⟩
      ⟨r.1, Nat.le_succ_of_le r.2⟩
termination_by 4 * c.rest.length + 3
decreasing_by
  · omega
  · have : d.rest.length < c.rest.length := hd.2 ‹_›
    omega
  all_goals simp

def alternation (c : Cursor) : Operand c.rest (startsOperand c.rest) :=
  match negation c with
  | ⟨(none, d), h⟩ => ⟨(none, d), h⟩
  | ⟨(some left, d), h⟩ =>
    let r := alternatives left 0 d
    ⟨(some r.1.1, r.1.2), Nat.le_trans r.2 h.1, fun must => Nat.lt_of_le_of_lt r.2 (h.2 must)⟩
termination_by 4 * c.rest.length + 2
decreasing_by
  · omega
  · have : d.rest.length ≤ c.rest.length := h.1
    omega

/-- Reads the operands that follow in an alternation; `left` is made of those before them, which have cost `links`
levels. -/
def alternatives (left : Expr) (links : Nat) (c : Cursor) :
    { r : Expr × Cursor // r.2.rest.length ≤ c.rest.length } :=
  match c with
  | ⟨⟨.or, p⟩ :: rest, depth, problems⟩ =>
    if depth < nestingLimit then
      match negation ⟨rest, depth + 1, problems⟩ with
      | ⟨(some right, d), hd⟩ =>
        let r := alternatives (.or left right) (links + 1) d
        ⟨r.1, Nat.le_succ_of_le (Nat.le_trans r.2 hd.1)⟩
      | ⟨(none, d), hd⟩ =>
        ⟨(left, (d.report (.missingOperand .or) p).leave (links + 1)), Nat.le_succ_of_le hd.1⟩
    else ⟨(left, (cut ⟨rest, depth, problems⟩ p).leave links), Nat.le_succ_of_le (length_groupEnd_le 0 rest)⟩
  | c => ⟨(left, c.leave links), Nat.le_refl _⟩
termination_by 4 * c.rest.length
decreasing_by
  · simp only [List.length_cons]
    omega
  · have : d.rest.length ≤ rest.length := hd.1
    simp only [List.length_cons]
    omega

def negation (c : Cursor) : Operand c.rest (startsOperand c.rest) :=
  match c with
  | ⟨⟨.not, p⟩ :: rest, depth, problems⟩ =>
    if startsOperand rest then
      if depth < nestingLimit then
        match negation ⟨rest, depth + 1, problems⟩ with
        | ⟨(e, d), hd⟩ => ⟨(e.map .not, d.leave 1), .of_lt (Nat.lt_succ_of_le hd.1)⟩
      else ⟨(none, cut ⟨rest, depth, problems⟩ p), .of_lt (Nat.lt_succ_of_le (length_groupEnd_le 0 rest))⟩
    else ⟨(none, ⟨rest, depth, ⟨.missingOperand .not, p⟩ :: problems⟩), .of_lt (Nat.lt_succ_self _)⟩
  | ⟨⟨.word w, p⟩ :: rest, depth, problems⟩ => primary ⟨⟨.word w, p⟩ :: rest, depth, problems⟩
  | ⟨⟨.opening, p⟩ :: rest, depth, problems⟩ => primary ⟨⟨.opening, p⟩ :: rest, depth, problems⟩
  | ⟨[], depth, problems⟩ => ⟨(none, ⟨[], depth, problems⟩), .of_eq rfl rfl⟩
  | ⟨⟨.closing, p⟩ :: rest, depth, problems⟩ =>
    ⟨(none, ⟨⟨.closing, p⟩ :: rest, depth, problems⟩), .of_eq rfl rfl⟩
  | ⟨⟨.or, p⟩ :: rest, depth, problems⟩ => ⟨(none, ⟨⟨.or, p⟩ :: rest, depth, problems⟩), .of_eq rfl rfl⟩
termination_by 4 * c.rest.length + 1

def primary (c : Cursor) : Operand c.rest (startsPrimary c.rest) :=
  match c with
  | ⟨⟨.word w, _⟩ :: rest, depth, problems⟩ =>
    ⟨(some (.term (.ofWord w)), ⟨rest, depth, problems⟩), .of_lt (Nat.lt_succ_self _)⟩
  | ⟨⟨.opening, p⟩ :: rest, depth, problems⟩ =>
    if depth < nestingLimit then
      match conjunction (some p) [] ⟨rest, depth + 1, problems⟩ with
      | ⟨(parts, d), hd⟩ => ⟨(some (.group parts), d.leave 1), .of_lt (Nat.lt_succ_of_le hd)⟩
    else
      ⟨(none, cut ⟨⟨.opening, p⟩ :: rest, depth, problems⟩ p),
        .of_lt (Nat.lt_succ_of_le (length_groupEnd_le 1 rest))⟩
  | ⟨[], depth, problems⟩ => ⟨(none, ⟨[], depth, problems⟩), .of_eq rfl rfl⟩
  | ⟨⟨.closing, p⟩ :: rest, depth, problems⟩ =>
    ⟨(none, ⟨⟨.closing, p⟩ :: rest, depth, problems⟩), .of_eq rfl rfl⟩
  | ⟨⟨.not, p⟩ :: rest, depth, problems⟩ => ⟨(none, ⟨⟨.not, p⟩ :: rest, depth, problems⟩), .of_eq rfl rfl⟩
  | ⟨⟨.or, p⟩ :: rest, depth, problems⟩ => ⟨(none, ⟨⟨.or, p⟩ :: rest, depth, problems⟩), .of_eq rfl rfl⟩
termination_by 4 * c.rest.length

end

end Cursor

end TagQuery
