import TagQuery.Proofs.Sorting
import TagQuery.Query.Expr

/-!
# The order of lengths

The length of an expression is the number of characters of its text without the escapes (`Expr.length_eq_typedLength`).
An escaped text has a backslash before each character that means something else than itself, and nothing is lost when
these backslashes are taken away again (`unescaped_escape`).

Expressions are put in order of this length, and those of one length keep their order.  No other list than the one that
`byLength` gives is in order and has the expressions of each length in the order in which they came
(`eq_of_filter_key`), so to put the list in order again changes nothing (`byLength_eq_iff`).
-/

namespace TagQuery

/-! ### Texts without escapes -/

/-- The text without the backslashes that escape a character. -/
def unescaped : List Char → List Char
  | '\\' :: c :: text => c :: unescaped text
  | c :: text => c :: unescaped text
  | [] => []

theorem unescaped_cons {c : Char} (h : c ≠ '\\') (text : List Char) : unescaped (c :: text) = c :: unescaped text := by
  rw [unescaped]
  intro d more hc
  exact absurd hc h

theorem unescaped_escape (text rest : List Char) : unescaped (escape text ++ rest) = text ++ unescaped rest := by
  induction text with
  | nil => rfl
  | cons c text ih =>
    have he : escape (c :: text) = (if isSpecial c then ['\\', c] else [c]) ++ escape text := rfl
    rw [he, List.append_assoc]
    by_cases h : isSpecial c = true
    · rw [if_pos h]
      show c :: unescaped (escape text ++ rest) = _
      rw [ih, List.cons_append]
    · have hc : c ≠ '\\' := by
        rintro rfl
        exact h rfl
      rw [if_neg h, List.singleton_append, unescaped_cons hc, ih, List.cons_append]

theorem Term.length_unescaped (t : Term) (rest : List Char) :
    (unescaped (t.chars ++ rest)).length = t.length + (unescaped rest).length := by
  have equals : ∀ text, unescaped ('=' :: text) = '=' :: unescaped text := unescaped_cons (by decide)
  cases t with
  | exact tag content =>
    simp [chars, length, unescaped_escape, equals, String.length_toList]
    omega
  | contains tag content =>
    simp [chars, length, unescaped_escape, equals, String.length_toList]
    omega
  | keyword content => simp [chars, length, unescaped_escape, String.length_toList]

namespace Expr

mutual

theorem length_unescaped : ∀ (e : Expr) (rest : List Char),
    (unescaped (e.chars ++ rest)).length = e.length + (unescaped rest).length
  | .term t, rest => t.length_unescaped rest
  | .not e, rest => by
    have ih := length_unescaped e rest
    rw [chars, List.cons_append, unescaped_cons (by decide), List.length_cons, ih, length]
    omega
  | .or l r, rest => by
    have ihl := length_unescaped l (' ' :: '|' :: ' ' :: (r.chars ++ rest))
    have ihr := length_unescaped r rest
    rw [unescaped_cons (by decide), unescaped_cons (by decide), unescaped_cons (by decide)] at ihl
    simp only [List.length_cons] at ihl
    have text : (Expr.or l r).chars ++ rest = l.chars ++ ' ' :: '|' :: ' ' :: (r.chars ++ rest) := by simp [chars]
    rw [text, ihl, ihr, length]
    omega
  | .group es, rest => by
    have ih := length_unescaped_joined es (')' :: rest)
    rw [unescaped_cons (by decide), List.length_cons] at ih
    rw [chars, List.cons_append, List.append_assoc, List.singleton_append, unescaped_cons (by decide),
      List.length_cons, ih, length]
    omega

/-- One space stands between two expressions. -/
theorem length_unescaped_joined : ∀ (es : List Expr) (rest : List Char),
    (unescaped (joined es ++ rest)).length = es.length - 1 + lengths es + (unescaped rest).length
  | [], rest => by simp [joined, lengths]
  | [e], rest => by
    have ih := length_unescaped e rest
    simp [joined, lengths, ih]
  | e :: f :: es, rest => by
    have ih := length_unescaped e (' ' :: (joined (f :: es) ++ rest))
    have ihs := length_unescaped_joined (f :: es) rest
    rw [unescaped_cons (by decide), List.length_cons, ihs] at ih
    have text : joined (e :: f :: es) ++ rest = e.chars ++ ' ' :: (joined (f :: es) ++ rest) := by simp [joined]
    have total : lengths (e :: f :: es) = e.length + lengths (f :: es) := by rw [lengths]
    rw [text, ih, total]
    simp only [List.length_cons]
    omega

end

/-- The number of characters of the text of the expression when its escapes are taken away. -/
def typedLength (e : Expr) : Nat :=
  (unescaped e.text.toList).length

theorem length_eq_typedLength (e : Expr) : e.length = e.typedLength := by
  have h := e.length_unescaped []
  simp only [List.append_nil, unescaped, List.length_nil, Nat.add_zero] at h
  rw [typedLength, text, String.toList_ofList, h]

end Expr

/-! ### Expressions in order -/

/-- The lengths that are written beside the expressions for the sort leave no trace. -/
theorem byLength_eq_mergeSort (es : List Expr) :
    byLength es = es.mergeSort fun a b => decide (a.length ≤ b.length) := by
  have beside : (es.mergeSort fun a b => decide (a.length ≤ b.length)).map (fun e => (e.length, e)) =
      (es.map fun e => (e.length, e)).mergeSort fun a b => decide (a.1 ≤ b.1) :=
    List.map_mergeSort fun _ _ _ _ => rfl
  rw [byLength, ← beside, List.map_map]
  exact List.map_id _

/-- The length of an expression is that of its text without the escapes.  The expressions in order are the same as
before, the short ones first, and those of one length in the order in which they came; no other list has the last two
properties.  To put them in order again changes nothing. -/
theorem byLength_eq_iff (es : List Expr) :
    (∀ e : Expr, e.length = e.typedLength) ∧ (byLength es).Perm es ∧ byLength (byLength es) = byLength es ∧
    ∀ fs : List Expr, byLength es = fs ↔ (fs.Pairwise fun a b => a.typedLength ≤ b.typedLength) ∧
      ∀ n, fs.filter (fun e => e.typedLength == n) = es.filter fun e => e.typedLength == n := by
  have lengths : Expr.length = Expr.typedLength := funext Expr.length_eq_typedLength
  have sorted : ∀ fs, (byLength fs).Pairwise fun a b => a.length ≤ b.length := by
    intro fs
    rw [byLength_eq_mergeSort]
    exact pairwise_mergeSort_key Expr.length fs
  have stable : ∀ fs n, (byLength fs).filter (fun e => e.length == n) = fs.filter fun e => e.length == n := by
    intro fs n
    rw [byLength_eq_mergeSort]
    exact filter_mergeSort_key Expr.length fs n
  rw [← lengths]
  refine ⟨fun _ => rfl, ?_, ?_, ?_⟩
  · rw [byLength_eq_mergeSort]
    exact List.mergeSort_perm _ _
  · exact eq_of_filter_key Expr.length (sorted _) (sorted _) (stable (byLength es))
  · intro fs
    constructor
    · rintro rfl
      exact ⟨sorted es, stable es⟩
    · rintro ⟨inOrder, same⟩
      exact eq_of_filter_key Expr.length (sorted es) inOrder fun n => (stable es n).trans (same n).symm

end TagQuery
