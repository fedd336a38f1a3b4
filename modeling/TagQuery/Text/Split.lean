/-!
# Splitting at the first occurrence

`splitAtFirst sep text` cuts a text in two at the first place where the run `sep` stands.  Nothing but the
separator is lost (`splitAtFirst_eq_some`), and only a text without the run is not cut (`splitAtFirst_eq_none_iff`).
The place is the first one if the run occurs neither in the part before it nor across the end of this part
(`splitAtFirst_append` and `not_infix_of_splitAtFirst`).
-/

namespace TagQuery

/-- Splits a text that comes after `before`, the latest character first. -/
def splitFrom (sep before : List Char) : List Char → Option (List Char × List Char)
  | [] => none
  | c :: rest =>
    if sep.isPrefixOf (c :: rest) then some (before.reverse, (c :: rest).drop sep.length)
    else splitFrom sep (c :: before) rest

/-- The text before and after the first occurrence of the run `sep`, which is not empty. -/
def splitAtFirst (sep text : List Char) : Option (List Char × List Char) :=
  splitFrom sep [] text

private theorem splitFrom_eq_some {sep before text a b : List Char}
    (h : splitFrom sep before text = some (a, b)) : before.reverse ++ text = a ++ sep ++ b := by
  induction text generalizing before with
  | nil => simp [splitFrom] at h
  | cons c rest ih =>
    unfold splitFrom at h
    split at h
    · rename_i hp
      obtain ⟨tail, ht⟩ := List.isPrefixOf_iff_prefix.1 hp
      simp only [Option.some.injEq, Prod.mk.injEq] at h
      obtain ⟨rfl, rfl⟩ := h
      simp [← ht]
    · simpa using ih h

theorem splitAtFirst_eq_some {sep text a b : List Char} (h : splitAtFirst sep text = some (a, b)) :
    text = a ++ sep ++ b := by
  simpa using splitFrom_eq_some h

private theorem splitFrom_eq_none_iff {sep before text : List Char} (hs : sep ≠ []) :
    splitFrom sep before text = none ↔ ¬sep <:+: text := by
  induction text generalizing before with
  | nil => simp [splitFrom, hs]
  | cons c rest ih =>
    rw [splitFrom, List.infix_cons_iff, ← List.isPrefixOf_iff_prefix]
    split
    · rename_i hp
      simp [hp]
    · rename_i hp
      rw [ih]
      simp [hp]

theorem splitAtFirst_eq_none_iff {sep text : List Char} (hs : sep ≠ []) :
    splitAtFirst sep text = none ↔ ¬sep <:+: text :=
  splitFrom_eq_none_iff hs

/-! ### The first occurrence -/

variable {s before text a b : List Char} {z : Char}

/-- A separator that begins before its place would be complete before its last character. -/
private theorem isPrefixOf_concat_append {c : Char} (ha : ¬s ++ [z] <:+: c :: a ++ s) :
    (s ++ [z]).isPrefixOf (c :: (a ++ (s ++ [z]) ++ b)) = false := by
  rw [Bool.eq_false_iff]
  intro h
  have ht : c :: (a ++ (s ++ [z]) ++ b) = c :: a ++ s ++ (z :: b) := by simp
  rw [ht] at h
  have hl : (s ++ [z]).length ≤ (c :: a ++ s).length := by simp
  exact ha (List.prefix_of_prefix_length_le (List.isPrefixOf_iff_prefix.1 h) (List.prefix_append ..) hl).isInfix

private theorem splitFrom_append (ha : ¬s ++ [z] <:+: a ++ s) :
    splitFrom (s ++ [z]) before (a ++ (s ++ [z]) ++ b) = some (before.reverse ++ a, b) := by
  induction a generalizing before with
  | nil =>
    obtain ⟨c, rest, hc⟩ := List.exists_cons_of_ne_nil (List.concat_ne_nil z s)
    have hp : (c :: rest).isPrefixOf (c :: (rest ++ b)) = true :=
      List.isPrefixOf_iff_prefix.2 (List.prefix_append (c :: rest) b)
    rw [hc, List.nil_append, List.cons_append, splitFrom, if_pos hp, ← List.cons_append, List.drop_left,
      List.append_nil]
  | cons c a ih =>
    rw [List.cons_append, List.cons_append, splitFrom, isPrefixOf_concat_append ha, if_neg Bool.false_ne_true,
      ih fun h => ha (List.infix_cons h)]
    simp

theorem splitAtFirst_append (ha : ¬s ++ [z] <:+: a ++ s) :
    splitAtFirst (s ++ [z]) (a ++ (s ++ [z]) ++ b) = some (a, b) :=
  splitFrom_append ha

private theorem not_infix_of_splitFrom (h : splitFrom (s ++ [z]) before text = some (a, b)) :
    ∃ m, a = before.reverse ++ m ∧ ¬s ++ [z] <:+: m ++ s := by
  induction text generalizing before with
  | nil => simp [splitFrom] at h
  | cons c rest ih =>
    unfold splitFrom at h
    split at h
    · simp only [Option.some.injEq, Prod.mk.injEq] at h
      refine ⟨[], by simp [h.1], fun hi => ?_⟩
      have hl := hi.length_le
      rw [List.length_append, List.length_singleton, List.nil_append] at hl
      omega
    · rename_i hp
      obtain ⟨m, rfl, hm⟩ := ih h
      refine ⟨c :: m, by simp, fun hi => ?_⟩
      rcases List.infix_cons_iff.1 hi with hi | hi
      · -- the occurrence is one at the front of the text, where there is none
        have ht : rest = m ++ s ++ (z :: b) := by simpa using splitFrom_eq_some h
        rw [List.isPrefixOf_iff_prefix, ht] at hp
        exact hp (List.prefix_append_of_prefix hi)
      · exact hm hi

theorem not_infix_of_splitAtFirst (h : splitAtFirst (s ++ [z]) text = some (a, b)) :
    ¬s ++ [z] <:+: a ++ s := by
  obtain ⟨m, rfl, hm⟩ := not_infix_of_splitFrom h
  exact hm

end TagQuery
