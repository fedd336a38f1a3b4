import TagQuery.Text.Lowercase

/-!
# The sigma at the end of a word

The lower case of a character is its own affair, with one exception: a capital sigma becomes `ς` or `σ` by what stands
around it.  So the lower case of a text has the lower case of a run in it if the run stands there with its sigmas in
the forms that they have in the run alone (`OccursInForm`).

Whether a sigma has its form from the run alone can be seen from the characters around it in the run (`settles`), where
only the nearest one on either side counts that is not case-ignorable: if the one before it is cased, there must be
one after it, and if there is none before it, the one after it must be cased.  If all sigmas of a run are settled, it
stands wherever it occurs with its sigmas in form.  If one is not, a cased character at one end of the run changes
the form, and the lower case of the run cannot be found in the longer text, which has fewer sigmas of that form
(`exists_lowercase_not_infix`).
-/

namespace TagQuery

/-- The form of a small sigma, at the end of a word or not. -/
def sigmaForm (final : Bool) : Char :=
  if final then 'ς' else 'σ'

/-- The lower case of a text that stands between `before`, the nearest character first, and `after`. -/
def lowercaseBetween (before after : List Char) : List Char → List Char
  | [] => []
  | c :: rest => lowercaseOf before c (rest ++ after) ++ lowercaseBetween (c :: before) after rest

variable {before before' after after' text : List Char}

theorem lowercaseOf_sigma (before after : List Char) :
    lowercaseOf before 'Σ' after = [sigmaForm (isFinal before after)] := by
  rfl

theorem lowercaseOf_of_ne {c : Char} (h : c ≠ 'Σ') : lowercaseOf before c after = lowercaseOf before' c after' := by
  rw [lowercaseOf, lowercaseOf, if_neg h, if_neg h]

theorem lowercaseBetween_append (before after x y : List Char) : lowercaseBetween before after (x ++ y) =
    lowercaseBetween before (y ++ after) x ++ lowercaseBetween (x.reverse ++ before) after y := by
  induction x generalizing before with
  | nil => rfl
  | cons c x ih =>
    rw [List.cons_append, lowercaseBetween, lowercaseBetween, ih, List.append_assoc, List.append_assoc,
      List.reverse_cons, List.append_assoc]
    rfl

theorem lowercaseAfter_eq (before text : List Char) : lowercaseAfter before text = lowercaseBetween before [] text := by
  induction text generalizing before with
  | nil => rfl
  | cons c rest ih => rw [lowercaseAfter, lowercaseBetween, ih, List.append_nil]

theorem lowercase_eq (text : List Char) : lowercase text = lowercaseBetween [] [] text :=
  lowercaseAfter_eq [] text

/-! ### Sigmas that keep their forms -/

/-- Which of the capital sigmas of a text end a word if it stands between `before`, the nearest character first, and
`after`. -/
def sigmaForms (before after : List Char) : List Char → List Bool
  | [] => []
  | c :: rest =>
    if c = 'Σ' then isFinal before (rest ++ after) :: sigmaForms (c :: before) after rest
    else sigmaForms (c :: before) after rest

/-- What stands around a text shows in its lower case only by the forms of its sigmas. -/
theorem lowercaseBetween_congr (h : sigmaForms before after text = sigmaForms before' after' text) :
    lowercaseBetween before after text = lowercaseBetween before' after' text := by
  induction text generalizing before before' with
  | nil => rfl
  | cons c rest ih =>
    rw [sigmaForms, sigmaForms] at h
    rw [lowercaseBetween, lowercaseBetween]
    by_cases hc : c = 'Σ'
    · rw [if_pos hc, if_pos hc] at h
      obtain ⟨head, tail⟩ := List.cons.inj h
      rw [hc, lowercaseOf_sigma, lowercaseOf_sigma, head, ← hc, ih tail]
    · rw [if_neg hc, if_neg hc] at h
      rw [lowercaseOf_of_ne hc, ih h]

/-- The content occurs in the value, at a place where its sigmas have the forms that they have in the content alone. -/
def OccursInForm (content value : List Char) : Prop :=
  ∃ before after, value = before ++ content ++ after ∧
    sigmaForms before.reverse after content = sigmaForms [] [] content

theorem OccursInForm.lowercase_infix {content value : List Char} (h : OccursInForm content value) :
    lowercase content <:+: lowercase value := by
  obtain ⟨before, after, rfl, hf⟩ := h
  have same : lowercaseBetween before.reverse after content = lowercase content := by
    rw [lowercase_eq]
    exact lowercaseBetween_congr hf
  refine ⟨lowercaseBetween [] (content ++ after) before,
    lowercaseBetween (content.reverse ++ before.reverse) [] after, ?_⟩
  rw [lowercase_eq (before ++ content ++ after), List.append_assoc before, lowercaseBetween_append,
    lowercaseBetween_append, ← same]
  simp only [List.append_assoc, List.append_nil]

/-! ### Sigmas that are settled -/

/-- Whether a sigma between these texts has one form, whatever stands around them. -/
def settles (before after : List Char) : Bool :=
  !(reachesCased before && after.all isCaseIgnorable) && !(before.all isCaseIgnorable && !reachesCased after)

/-- Whether the sigmas of a text that comes after `before` are settled. -/
def settledAfter (before : List Char) : List Char → Bool
  | [] => true
  | c :: rest => (c != 'Σ' || settles before rest) && settledAfter (c :: before) rest

def settled (text : List Char) : Bool :=
  settledAfter [] text

theorem reachesCased_append (x y : List Char) :
    reachesCased (x ++ y) = if x.all isCaseIgnorable then reachesCased y else reachesCased x := by
  induction x with
  | nil => rfl
  | cons c x ih =>
    rw [List.cons_append, reachesCased, reachesCased, List.all_cons]
    by_cases hc : isCaseIgnorable c = true
    · rw [if_pos hc, if_pos hc, ih, hc, Bool.true_and]
    · rw [if_neg hc, if_neg hc, Bool.eq_false_iff.2 hc, Bool.false_and]
      rfl

theorem reachesCased_of_all {x : List Char} (h : x.all isCaseIgnorable = true) : reachesCased x = false := by
  have ha := reachesCased_append x []
  rw [List.append_nil, if_pos h] at ha
  exact ha

theorem isFinal_of_settles {x y : List Char} (h : settles x y = true) (before after : List Char) :
    isFinal (x ++ before) (y ++ after) = isFinal x y := by
  rw [settles, Bool.and_eq_true, Bool.not_eq_true', Bool.not_eq_true'] at h
  rw [isFinal, isFinal, reachesCased_append, reachesCased_append]
  by_cases hx : x.all isCaseIgnorable = true
  · by_cases hy : y.all isCaseIgnorable = true
    · simp [hx, reachesCased_of_all hy] at h
    · have hr : reachesCased y = true := by simpa [hx] using h.2
      simp [hy, hr]
  · by_cases hy : y.all isCaseIgnorable = true
    · have hr : reachesCased x = false := by simpa [hy] using h.1
      simp [hx, hr]
    · rw [if_neg hx, if_neg hy]

theorem sigmaForms_of_settledAfter (h : settledAfter before text = true) (further after : List Char) :
    sigmaForms (before ++ further) after text = sigmaForms before [] text := by
  induction text generalizing before with
  | nil => rfl
  | cons c rest ih =>
    rw [settledAfter, Bool.and_eq_true, Bool.or_eq_true, bne_iff_ne] at h
    have tail : sigmaForms (c :: (before ++ further)) after rest = sigmaForms (c :: before) [] rest := ih h.2
    rw [sigmaForms, sigmaForms, tail]
    by_cases hc : c = 'Σ'
    · have hs := h.1.resolve_left fun hn => hn hc
      rw [if_pos hc, if_pos hc, isFinal_of_settles hs, List.append_nil]
    · rw [if_neg hc, if_neg hc]

/-- A settled content has its sigmas in form wherever it occurs. -/
theorem occursInForm_of_settled {content value : List Char} (h : settled content = true) (hi : content <:+: value) :
    OccursInForm content value := by
  obtain ⟨before, after, hv⟩ := hi
  exact ⟨before, after, hv.symm, sigmaForms_of_settledAfter h before.reverse after⟩

/-! ### Sigmas that are not -/

theorem exists_split_of_settledAfter (h : settledAfter before text = false) :
    ∃ x y, text = x ++ 'Σ' :: y ∧ settles (x.reverse ++ before) y = false := by
  induction text generalizing before with
  | nil => cases h
  | cons c rest ih =>
    rw [settledAfter, Bool.and_eq_false_iff, Bool.or_eq_false_iff, bne_eq_false_iff_eq] at h
    rcases h with ⟨rfl, hs⟩ | h
    · exact ⟨[], rest, rfl, hs⟩
    · obtain ⟨x, y, rfl, hs⟩ := ih h
      refine ⟨c :: x, y, rfl, ?_⟩
      rw [List.reverse_cons, List.append_assoc]
      exact hs

theorem count_lowercaseOf_sigma (final : Bool) : (lowercaseOf before 'Σ' after).count (sigmaForm final) =
    if isFinal before after = final then 1 else 0 := by
  rw [lowercaseOf_sigma]
  cases isFinal before after <;> cases final <;> rfl

/-- If each sigma that has a form on the left also has it on the right, there are no fewer of that form on the right. -/
theorem count_lowercaseBetween_le {final : Bool} (h : ∀ x y, text = x ++ 'Σ' :: y →
    isFinal (x.reverse ++ before) (y ++ after) = final → isFinal (x.reverse ++ before') (y ++ after') = final) :
    (lowercaseBetween before after text).count (sigmaForm final) ≤
      (lowercaseBetween before' after' text).count (sigmaForm final) := by
  induction text generalizing before before' with
  | nil => exact Nat.le_refl _
  | cons c rest ih =>
    have tail : (lowercaseBetween (c :: before) after rest).count (sigmaForm final) ≤
        (lowercaseBetween (c :: before') after' rest).count (sigmaForm final) := by
      refine ih fun x y hrest => ?_
      have hx := h (c :: x) y (congrArg (c :: ·) hrest)
      rw [List.reverse_cons, List.append_assoc, List.append_assoc] at hx
      exact hx
    rw [lowercaseBetween, lowercaseBetween, List.count_append, List.count_append]
    refine Nat.add_le_add ?_ tail
    by_cases hc : c = 'Σ'
    · subst hc
      have head : isFinal before (rest ++ after) = final → isFinal before' (rest ++ after') = final := h [] rest rfl
      rw [count_lowercaseOf_sigma, count_lowercaseOf_sigma]
      split
      · exact Nat.le_of_eq (if_pos (head ‹_›)).symm
      · exact Nat.zero_le _
    · exact Nat.le_of_eq (congrArg (List.count _) (lowercaseOf_of_ne hc))

/-- If besides some sigma has the form on the right only, there are more of that form on the right. -/
theorem count_lowercaseBetween_lt {final : Bool} (h : ∀ x y, text = x ++ 'Σ' :: y →
    isFinal (x.reverse ++ before) (y ++ after) = final → isFinal (x.reverse ++ before') (y ++ after') = final)
    {x y : List Char} (ht : text = x ++ 'Σ' :: y) (hl : isFinal (x.reverse ++ before) (y ++ after) ≠ final)
    (hr : isFinal (x.reverse ++ before') (y ++ after') = final) :
    (lowercaseBetween before after text).count (sigmaForm final) <
      (lowercaseBetween before' after' text).count (sigmaForm final) := by
  subst ht
  have first : (lowercaseBetween before ('Σ' :: y ++ after) x).count (sigmaForm final) ≤
      (lowercaseBetween before' ('Σ' :: y ++ after') x).count (sigmaForm final) := by
    refine count_lowercaseBetween_le fun x₁ y₁ hx => ?_
    have hs := h x₁ (y₁ ++ 'Σ' :: y) (by rw [hx, List.append_assoc, List.cons_append])
    rw [List.append_assoc, List.append_assoc] at hs
    exact hs
  have last : (lowercaseBetween ('Σ' :: (x.reverse ++ before)) after y).count (sigmaForm final) ≤
      (lowercaseBetween ('Σ' :: (x.reverse ++ before')) after' y).count (sigmaForm final) := by
    refine count_lowercaseBetween_le fun x₂ y₂ hy => ?_
    have hs := h (x ++ 'Σ' :: x₂) y₂ (by rw [hy, List.append_assoc, List.cons_append])
    rw [List.reverse_append, List.reverse_cons, List.append_assoc, List.append_assoc, List.append_assoc,
      List.append_assoc] at hs
    exact hs
  rw [lowercaseBetween_append, lowercaseBetween_append, lowercaseBetween, lowercaseBetween, List.count_append,
    List.count_append, List.count_append, List.count_append, count_lowercaseOf_sigma, count_lowercaseOf_sigma,
    if_neg hl, if_pos hr]
  omega

/-- Where a text has fewer sigmas of one form than the content, the content is not found. -/
theorem not_infix_of_count_lt {content value : List Char} {z : Char} (h : value.count z < content.count z) :
    ¬content <:+: value :=
  fun hi => Nat.not_le.2 h (hi.sublist.count_le z)

theorem reachesCased_a : reachesCased ['a'] = true := by
  decide +kernel

/-- A sigma that ends a word, up to characters that are case-ignorable, does not end it if a letter is put behind. -/
theorem count_final_lt {x y : List Char} (ht : text = x ++ 'Σ' :: y) (hx : reachesCased x.reverse = true)
    (hy : y.all isCaseIgnorable = true) :
    (lowercase (text ++ ['a'])).count 'ς' < (lowercase text).count 'ς' := by
  have fewer : (lowercaseBetween [] ['a'] text).count (sigmaForm true) <
      (lowercaseBetween [] [] text).count (sigmaForm true) := by
    refine count_lowercaseBetween_lt (fun x y _ hf => ?_) ht ?_ ?_
    · rw [isFinal, reachesCased_append y, reachesCased_a] at hf
      split at hf
      · simp at hf
      · rw [isFinal, List.append_nil y]
        exact hf
    · simp [isFinal, reachesCased_append y, hy, reachesCased_a]
    · simp [isFinal, hx, reachesCased_of_all hy]
  rw [lowercase_eq, lowercaseBetween_append, List.count_append, lowercase_eq]
  exact fewer

/-- A sigma with nothing before it but characters that are case-ignorable ends a word if a letter is put in front. -/
theorem count_inner_lt {x y : List Char} (ht : text = x ++ 'Σ' :: y) (hx : x.all isCaseIgnorable = true)
    (hy : reachesCased y = false) :
    (lowercase ('a' :: text)).count 'σ' < (lowercase text).count 'σ' := by
  have fewer : (lowercaseBetween ['a'] [] text).count (sigmaForm false) <
      (lowercaseBetween [] [] text).count (sigmaForm false) := by
    refine count_lowercaseBetween_lt (fun x y _ hf => ?_) ht ?_ ?_
    · rw [isFinal, reachesCased_append x.reverse, reachesCased_a] at hf
      split at hf
      · rename_i hx
        rw [isFinal, List.append_nil x.reverse, reachesCased_of_all hx, Bool.false_and]
      · rw [isFinal, List.append_nil x.reverse]
        exact hf
    · simp [isFinal, reachesCased_append x.reverse, hx, hy, reachesCased_a]
    · simp [isFinal, reachesCased_of_all (x := x.reverse), hx]
  rw [lowercase_eq, lowercase_eq, lowercaseBetween, List.count_append]
  have letter : (lowercaseOf [] 'a' (text ++ [])).count 'σ' = 0 := rfl
  rw [letter, Nat.zero_add]
  exact fewer

/-- If the sigmas of a content are not settled, it occurs in a text in whose lower case its own is not found. -/
theorem exists_lowercase_not_infix {content : List Char} (h : settled content = false) :
    ∃ value, content <:+: value ∧ ¬lowercase content <:+: lowercase value := by
  obtain ⟨x, y, hc, hs⟩ := exists_split_of_settledAfter h
  rw [List.append_nil, settles, Bool.and_eq_false_iff, Bool.not_eq_false', Bool.not_eq_false', Bool.and_eq_true,
    Bool.and_eq_true, Bool.not_eq_true', List.all_reverse] at hs
  rcases hs with ⟨hx, hy⟩ | ⟨hx, hy⟩
  · exact ⟨content ++ ['a'], (List.prefix_append ..).isInfix, not_infix_of_count_lt (count_final_lt hc hx hy)⟩
  · exact ⟨'a' :: content, (List.suffix_cons ..).isInfix, not_infix_of_count_lt (count_inner_lt hc hx hy)⟩

end TagQuery
