import TagQuery.Query.Term

/-!
# Words and terms

A word of a query always stands for a term, but not every term has a word: the tag of an exact term ends before the
first `==`, that of a containing term before the first `=` of a word without `==`, and a keyword has no `=` at all
(`Term.Expressible`).  Those that do have one (`expressible_ofWord`) are spelled by `Term.quotedLetters`, which
protects the content of a term that is not exact with a pair of quotes of its own (`ofChars_quotedLetters`).

A term is written without these quotes, as `Term.letters`, and read again it can lose blanks or quotes or become
an exact term.  It is the same term exactly if it is `Term.Restored` (`ofChars_letters_iff`).
-/

namespace TagQuery

namespace Term

/-- Some word stands for the term. -/
def Expressible : Term → Prop
  | .exact tag _ => ¬['=', '='] <:+: tag.toList ∧ tag.toList.getLast? ≠ some '='
  | .contains tag content => '=' ∉ tag.toList ∧ ¬['=', '='] <:+: content.toList
  | .keyword content => '=' ∉ content.toList

/-- The letters of the term as typed, without escapes. -/
def letters : Term → List Char
  | .exact tag content => tag.toList ++ ['=', '='] ++ content.toList
  | .contains tag content => tag.toList ++ ['='] ++ content.toList
  | .keyword content => content.toList

/-- The letters of the term with quotes around a content that would lose blanks or quotes. -/
def quotedLetters : Term → List Char
  | .exact tag content => tag.toList ++ ['=', '='] ++ content.toList
  | .contains tag content => tag.toList ++ ['='] ++ ('"' :: (content.toList ++ ['"']))
  | .keyword content => '"' :: (content.toList ++ ['"'])

/-- The term is not lost or changed if its letters are read as a word. -/
def Restored : Term → Prop
  | .exact _ _ => True
  | .contains _ content => content.toList.head? ≠ some '=' ∧ looseContent content.toList = content
  | .keyword content => content ≠ "" ∧ looseContent content.toList = content

end Term

/-! ### Occurrences of the equality signs -/

theorem not_eqEq_infix_of_not_mem {text : List Char} (h : '=' ∉ text) : ¬['=', '='] <:+: text :=
  fun hi => h (hi.subset List.mem_cons_self)

/-- The first `=` of the sign after a tag makes a `==` with the tag only if the tag ends in `=` or has one anyway. -/
theorem eqEq_infix_concat_iff {tag : List Char} :
    ['=', '='] <:+: tag ++ ['='] ↔ ['=', '='] <:+: tag ∨ tag.getLast? = some '=' := by
  rw [List.infix_concat_iff, List.suffix_concat_iff, or_comm]
  refine or_congr_right ?_
  constructor
  · rintro (h | ⟨t, ht, hs⟩)
    · cases h
    · rw [← List.singleton_append, List.append_cancel_right_eq] at ht
      obtain ⟨a, rfl⟩ := ht ▸ hs
      simp
  · intro h
    obtain ⟨a, rfl⟩ := List.getLast?_eq_some_iff.1 h
    exact .inr ⟨['='], rfl, List.suffix_append ..⟩

/-- The sign after a tag makes a `==` with the content if the content begins with `=`. -/
theorem eqEq_infix_append_iff {tag content : List Char} (ht : '=' ∉ tag) :
    ['=', '='] <:+: tag ++ ['='] ++ content ↔ content.head? = some '=' ∨ ['=', '='] <:+: content := by
  induction tag with
  | nil =>
    rw [List.nil_append, List.singleton_append, List.infix_cons_iff, List.cons_prefix_cons]
    refine or_congr_left ?_
    cases content with
    | nil => simp
    | cons d content => simp [List.cons_prefix_cons, eq_comm]
  | cons c tag ih =>
    rw [List.mem_cons, not_or] at ht
    rw [List.cons_append, List.cons_append, List.infix_cons_iff, ih ht.2, List.cons_prefix_cons]
    simp [ht.1]

theorem not_eqEq_infix_quoted {content : List Char} (h : ¬['=', '='] <:+: content) :
    ¬['=', '='] <:+: '"' :: (content ++ ['"']) := by
  rw [List.infix_cons_iff, List.cons_prefix_cons, List.infix_concat_iff, List.suffix_concat_iff]
  rintro (⟨hq, -⟩ | ((hn | ⟨t, ht, -⟩) | hi))
  · cases hq
  · cases hn
  · have hl := congrArg List.getLast? ht
    rw [List.getLast?_concat] at hl
    cases hl
  · exact h hi

/-! ### Loose contents -/

theorem trim_isInfix (text : List Char) : trim text <:+: text := by
  have hd : (text.dropWhile isBlank).reverse.dropWhile isBlank <:+ (text.dropWhile isBlank).reverse :=
    List.dropWhile_suffix _
  rw [← List.reverse_prefix, List.reverse_reverse] at hd
  exact hd.isInfix.trans (List.dropWhile_suffix _).isInfix

theorem unquote_isInfix (text : List Char) : unquote text <:+: text := by
  unfold unquote
  split
  · rename_i rest
    split
    · exact (List.dropLast_prefix rest).isInfix.trans (List.suffix_cons _ rest).isInfix
    · exact List.infix_refl _
  · exact List.infix_refl _

theorem looseContent_isInfix (text : List Char) : (looseContent text).toList <:+: text := by
  rw [looseContent, String.toList_ofList]
  exact (unquote_isInfix _).trans (trim_isInfix text)

theorem looseContent_quoted (content : String) : looseContent ('"' :: (content.toList ++ ['"'])) = content := by
  have hb : isBlank '"' = false := rfl
  have ht : trim ('"' :: (content.toList ++ ['"'])) = '"' :: (content.toList ++ ['"']) := by
    simp [trim, hb]
  rw [looseContent, ht, unquote, if_pos (by simp), List.dropLast_concat, String.ofList_toList]

namespace Term

/-! ### Reading a word -/

theorem ofChars_exact {tag content : List Char} (h : ¬['=', '='] <:+: tag ++ ['=']) :
    ofChars (tag ++ ['=', '='] ++ content) = .exact (String.ofList tag) (String.ofList content) := by
  have hs : splitAtFirst ['=', '='] (tag ++ ['=', '='] ++ content) = some (tag, content) :=
    splitAtFirst_append (s := ['=']) h
  rw [ofChars, hs]

theorem ofChars_contains {tag content : List Char} (ht : '=' ∉ tag) (hc : content.head? ≠ some '=')
    (hd : ¬['=', '='] <:+: content) :
    ofChars (tag ++ ['='] ++ content) = .contains (String.ofList tag) (looseContent content) := by
  have hn : splitAtFirst ['=', '='] (tag ++ ['='] ++ content) = none := by
    rw [splitAtFirst_eq_none_iff (by simp), eqEq_infix_append_iff ht]
    exact not_or.2 ⟨hc, hd⟩
  have hs : splitAtFirst ['='] (tag ++ ['='] ++ content) = some (tag, content) := by
    refine splitAtFirst_append (s := []) fun h => ht ?_
    rw [List.append_nil] at h
    exact h.subset List.mem_cons_self
  rw [ofChars, hn, hs]

/-- With a first `=` of the content the sign after the tag is taken for `==`. -/
theorem ofChars_contains_of_head {tag rest : List Char} (ht : '=' ∉ tag) :
    ofChars (tag ++ ['='] ++ '=' :: rest) = .exact (String.ofList tag) (String.ofList rest) := by
  have hn : ¬['=', '='] <:+: tag ++ ['='] := by
    rw [eqEq_infix_concat_iff, not_or]
    exact ⟨not_eqEq_infix_of_not_mem ht, fun hl => ht (List.mem_of_getLast? hl)⟩
  rw [← ofChars_exact hn]
  simp

theorem ofChars_keyword {content : List Char} (h : '=' ∉ content) :
    ofChars content = .keyword (looseContent content) := by
  have hn : splitAtFirst ['=', '='] content = none := by
    rw [splitAtFirst_eq_none_iff (by simp)]
    exact not_eqEq_infix_of_not_mem h
  have hs : splitAtFirst ['='] content = none := by
    rw [splitAtFirst_eq_none_iff (by simp)]
    exact fun hi => h (hi.subset List.mem_cons_self)
  rw [ofChars, hn, hs]

theorem expressible_ofChars (word : List Char) : (ofChars word).Expressible := by
  unfold ofChars
  split
  · rename_i tag content hs
    have hn : ¬['=', '='] <:+: tag ++ ['='] := not_infix_of_splitAtFirst (s := ['=']) hs
    rw [eqEq_infix_concat_iff, not_or] at hn
    simpa [Expressible] using hn
  · rename_i hd
    have hd : ¬['=', '='] <:+: word := (splitAtFirst_eq_none_iff (by simp)).1 hd
    split
    · rename_i tag content hs
      have hn : ¬['='] <:+: tag ++ [] := not_infix_of_splitAtFirst (s := []) hs
      have hc : content <:+: word := by
        rw [splitAtFirst_eq_some hs]
        exact (List.suffix_append ..).isInfix
      refine ⟨fun h => hn ?_, fun h => hd (h.trans ((looseContent_isInfix content).trans hc))⟩
      rw [String.toList_ofList] at h
      rw [List.append_nil]
      obtain ⟨a, b, rfl⟩ := List.mem_iff_append.1 h
      exact ⟨a, b, by simp⟩
    · rename_i hs
      have hn : ¬['='] <:+: word := (splitAtFirst_eq_none_iff (by simp)).1 hs
      refine fun h => hn ?_
      obtain ⟨a, b, rfl⟩ := List.mem_iff_append.1 ((looseContent_isInfix word).subset h)
      exact ⟨a, b, by simp⟩

theorem expressible_ofWord (w : String) : (ofWord w).Expressible :=
  expressible_ofChars w.toList

theorem quotedLetters_ne_nil (t : Term) : t.quotedLetters ≠ [] := by
  cases t <;> simp [quotedLetters]

theorem ofChars_quotedLetters {t : Term} (h : t.Expressible) : ofChars t.quotedLetters = t := by
  cases t with
  | exact tag content =>
    rw [quotedLetters, ofChars_exact (by rw [eqEq_infix_concat_iff, not_or]; exact h), String.ofList_toList,
      String.ofList_toList]
  | contains tag content =>
    rw [quotedLetters, ofChars_contains h.1 (by simp) (not_eqEq_infix_quoted h.2), looseContent_quoted,
      String.ofList_toList]
  | keyword content =>
    have h : '=' ∉ content.toList := h
    have hc : '=' ∉ '"' :: (content.toList ++ ['"']) := by simp [h]
    rw [quotedLetters, ofChars_keyword hc, looseContent_quoted]

theorem ofChars_letters_iff {t : Term} (h : t.Expressible) :
    t.letters ≠ [] ∧ ofChars t.letters = t ↔ t.Restored := by
  cases t with
  | exact tag content =>
    rw [letters, ofChars_exact (by rw [eqEq_infix_concat_iff, not_or]; exact h), Restored, String.ofList_toList,
      String.ofList_toList]
    simp
  | contains tag content =>
    by_cases hc : content.toList.head? = some '='
    · obtain ⟨rest, hr⟩ := List.head?_eq_some_iff.1 hc
      rw [letters, hr, ofChars_contains_of_head h.1, Restored, hr]
      simp
    · rw [letters, ofChars_contains h.1 hc h.2, Restored, String.ofList_toList]
      simp [hc]
  | keyword content =>
    rw [letters, ofChars_keyword h, Restored]
    simp

theorem escape_letters (t : Term) : escape t.letters = t.chars := by
  cases t <;> simp [letters, chars, escape, isSpecial]

end Term

end TagQuery
