import TagQuery.Proofs.RoundTrip
import TagQuery.Record.Track

/-!
# The text of a matcher

The text of a matcher is its expressions in the query language.  It compiles to a matcher for the expressions with
each term read once more (`Matcher.accepts_compile_text_iff`), unless a keyword without letters is among them, which
leaves no trace in the text.  So the text stands for the same query if every term of the query is restored.  For a
query of a single term this is also necessary: some track tells the matcher from that of its text
(`Matcher.accepts_compile_text`).
-/

namespace TagQuery

open scoped List

theorem Expr.mapAllTerms_eq_map (f : Term → Term) (es : List Expr) : mapAllTerms f es = es.map (mapTerms f) := by
  induction es with
  | nil => rfl
  | cons e es ih => rw [mapAllTerms, ih, List.map_cons]

namespace Matcher

theorem mem_allTerms_ofQuery {q : Query} {o : Options} {t : Term} :
    t ∈ Expr.allTerms (ofQuery q o).expressions ↔ t ∈ Expr.allTerms q.expressions := by
  simp only [Expr.mem_allTerms, mem_expressions_ofQuery]

/-- The text of a matcher is read as its expressions with each term read once more. -/
theorem expressions_ofText_text {query : String} (o : Options)
    (hw : ∀ t ∈ Expr.allTerms (Query.ofText query).expressions, t.word ≠ "") :
    (Query.ofText (compile query o).text).expressions =
      (compile query o).expressions.map (Expr.mapTerms Term.reread) := by
  rw [← Expr.mapAllTerms_eq_map]
  refine (Query.ofText_joined ?_ ?_ ?_).2
  · intro e he
    exact Query.grammatical_ofText query e (mem_expressions_ofQuery.1 he)
  · intro e he
    exact Query.cost_of_mem (mem_expressions_ofQuery.1 he)
  · intro t ht
    exact hw t (mem_allTerms_ofQuery.1 ht)

variable {ρ : Type} [Tagged ρ]

theorem accepts_compile_text_iff {query : String} (o : Options)
    (hw : ∀ t ∈ Expr.allTerms (Query.ofText query).expressions, t.word ≠ "") (record : ρ) :
    (compile (compile query o).text o).accepts record = true ↔
      ∀ e ∈ (Query.ofText query).expressions, (e.mapTerms Term.reread).Holds o.folding o.keywordTags record := by
  rw [compile, accepts_ofQuery_iff, expressions_ofText_text o hw, List.forall_mem_map]
  constructor
  · intro h e he
    exact h e (mem_expressions_ofQuery.2 he)
  · intro h e he
    exact h e (mem_expressions_ofQuery.1 he)

end Matcher

/-! ### Tracks that tell terms apart -/

/-- The track with a list of one value under the tag. -/
def Track.single (tag value : String) : Track :=
  Track.empty.insert tag (.many [value])

theorem Track.value_single (tag value : String) : Tagged.value (single tag value) tag = some (.many [value]) := by
  show (single tag value).find? tag = _
  rw [single, find?_insert, if_pos rfl]

theorem hasText_single {folding : Folding} {tag value content : String} :
    HasText folding (Track.single tag value) tag content ↔
      value ≠ "" ∧ (folding.fold content).toList <:+: (folding.fold value).toList := by
  rw [HasText, Track.value_single, toList_infix_iff]
  simp [TagValue.Absent, TagValue.values]

/-- A track with this value has no single value that is the mark of absence, so an exact term asks for the value. -/
theorem not_holds_exact_single {tag value content : String} (h : value ≠ content) :
    ¬(Term.exact tag content).Holds .sensitive [] (Track.single tag value) := by
  rw [Term.Holds, Track.value_single]
  split
  · simp [TagValue.Absent]
  · simp [TagValue.values, Folding.fold, h]

/-- A content that loses something is not found everywhere where what is left of it is. -/
theorem exists_value_of_looseContent_ne {content : String} (h : looseContent content.toList ≠ content) :
    ∃ v : String, v ≠ "" ∧ (looseContent content.toList).toList <:+: v.toList ∧ ¬content.toList <:+: v.toList := by
  by_cases he : looseContent content.toList = ""
  · refine ⟨"a", by decide, ?_, fun hi => h ?_⟩
    · rw [he]
      exact List.nil_infix
    · -- a content inside this value has no blanks or quotes to lose
      have hi : content.toList <+ ['a'] := hi.sublist
      rcases List.sublist_cons_iff.1 hi with hl | ⟨rest, hl, hrest⟩
      · rw [String.toList_eq_nil_iff.1 (List.sublist_nil.1 hl)]
        rfl
      · rw [List.sublist_nil.1 hrest] at hl
        have ha : content = "a" := String.toList_injective hl
        rw [ha]
        rfl
  · refine ⟨_, he, List.infix_refl _, fun hi => h ?_⟩
    have hl := (looseContent_isInfix content.toList).length_le
    exact String.toList_injective (hi.eq_of_length (Nat.le_antisymm hi.length_le hl)).symm

/-- Where only what is left of the content is found. -/
theorem exists_hasText_of_looseContent_ne {content : String} (h : looseContent content.toList ≠ content)
    (tag : String) : ∃ track : Track,
      HasText .sensitive track tag (looseContent content.toList) ∧ ¬HasText .sensitive track tag content := by
  obtain ⟨v, hv, hi, hn⟩ := exists_value_of_looseContent_ne h
  exact ⟨.single tag v, hasText_single.2 ⟨hv, hi⟩, fun hx => hn (hasText_single.1 hx).2⟩

namespace Term

theorem reread_eq (t : Term) : t.reread = ofChars t.letters := by
  rw [reread, word, ofWord, String.toList_ofList]

section

variable {tag content : String}

theorem reread_exact (h : (exact tag content).Expressible) : (exact tag content).reread = exact tag content := by
  have hn : ¬['=', '='] <:+: tag.toList ++ ['='] := by
    rw [eqEq_infix_concat_iff, not_or]
    exact h
  rw [reread_eq, letters, ofChars_exact hn, String.ofList_toList, String.ofList_toList]

theorem reread_contains_of_head (h : (contains tag content).Expressible) {rest : List Char}
    (hc : content.toList = '=' :: rest) : (contains tag content).reread = exact tag (String.ofList rest) := by
  rw [reread_eq, letters, hc, ofChars_contains_of_head h.1, String.ofList_toList]

theorem reread_contains (h : (contains tag content).Expressible) (hc : content.toList.head? ≠ some '=') :
    (contains tag content).reread = contains tag (looseContent content.toList) := by
  rw [reread_eq, letters, ofChars_contains h.1 hc h.2, String.ofList_toList]

theorem reread_keyword (h : (keyword content).Expressible) :
    (keyword content).reread = keyword (looseContent content.toList) := by
  rw [reread_eq, letters, ofChars_keyword h]

/-- A content that begins with `=` is found in itself, where the content without it is not the whole value. -/
theorem exists_holds_ne_of_head {rest : List Char} (hc : content.toList = '=' :: rest) : ∃ track : Track,
    (contains tag content).Holds .sensitive [] track ∧
      ¬(exact tag (String.ofList rest)).Holds .sensitive [] track := by
  have hne : content ≠ String.ofList rest := by
    intro he
    have hl := congrArg String.toList he
    rw [hc, String.toList_ofList] at hl
    exact List.cons_ne_self _ _ hl
  have hcontent : content ≠ "" := by
    rintro rfl
    cases hc
  exact ⟨.single tag content, hasText_single.2 ⟨hcontent, List.infix_refl _⟩, not_holds_exact_single hne⟩

end

/-- A term that is not read back as it was holds of other tracks. -/
theorem exists_holds_ne {t : Term} (h : t.Expressible) (hr : t.reread ≠ t) :
    ∃ (keywordTags : List String) (track : Track),
      ¬(t.reread.Holds .sensitive keywordTags track ↔ t.Holds .sensitive keywordTags track) := by
  cases t with
  | exact tag content => exact absurd (reread_exact h) hr
  | contains tag content =>
    by_cases hc : content.toList.head? = some '='
    · obtain ⟨rest, hrest⟩ := List.head?_eq_some_iff.1 hc
      obtain ⟨track, hyes, hno⟩ := exists_holds_ne_of_head hrest
      rw [reread_contains_of_head h hrest]
      exact ⟨[], track, fun hh => hno (hh.2 hyes)⟩
    · rw [reread_contains h hc] at hr ⊢
      have hl : looseContent content.toList ≠ content := fun hl => hr (congrArg (contains tag) hl)
      obtain ⟨track, hyes, hno⟩ := exists_hasText_of_looseContent_ne hl tag
      exact ⟨[], track, fun hh => hno (hh.1 hyes)⟩
  | keyword content =>
    rw [reread_keyword h] at hr ⊢
    have hl : looseContent content.toList ≠ content := fun hl => hr (congrArg keyword hl)
    obtain ⟨track, hyes, hno⟩ := exists_hasText_of_looseContent_ne hl "title"
    refine ⟨["title"], track, fun hh => hno ?_⟩
    obtain ⟨tag, htag, hx⟩ := hh.1 ⟨"title", List.mem_singleton_self _, hyes⟩
    rw [List.mem_singleton.1 htag] at hx
    exact hx

end Term

namespace Matcher

variable {ρ : Type} [Tagged ρ]

/-- A keyword without letters, looked for in no tags, holds of nothing; what is read from its text holds of anything. -/
private theorem not_accepts_of_word_eq {query : String} {t : Term} (ht : (Query.ofText query).expressions = [.term t])
    (hw : t.word = "") {record : ρ} :
    (compile (compile query { optimize := false }).text { optimize := false }).accepts record ≠
      (compile query { optimize := false }).accepts record := by
  have hl : t.letters = [] := String.ofList_eq_empty_iff.1 hw
  have hk : t = .keyword "" := by
    cases t with
    | exact tag content => simp [Term.letters] at hl
    | contains tag content => simp [Term.letters] at hl
    | keyword content => rw [String.toList_eq_nil_iff.1 hl]
  have htext : (compile query { optimize := false }).text = String.ofList (Expr.joined []) := by
    show String.ofList (Expr.joined (Query.ofText query).expressions) = _
    rw [ht, hk]
    rfl
  have hempty := (Query.ofText_joined (List.forall_mem_nil _) (List.forall_mem_nil _) (List.forall_mem_nil _)).2
  have hyes : (compile (String.ofList (Expr.joined [])) { optimize := false }).accepts record = true := by
    rw [compile, accepts_ofQuery_iff, hempty]
    exact List.forall_mem_nil _
  have hno : ¬(compile query { optimize := false }).accepts record = true := by
    rw [compile, accepts_ofQuery_iff, ht, hk, List.forall_mem_singleton]
    rintro ⟨tag, htag, -⟩
    cases htag
  rw [htext, hyes]
  exact fun h => hno h.symm

/-- The matcher compiled from the text of a matcher accepts the same records if all the terms of the query are
restored.  If the query is one term, it does so only then. -/
theorem accepts_compile_text (query : String) :
    ((∀ t ∈ Expr.allTerms (Query.ofText query).expressions, t.Restored) → ∀ (o : Options) (record : ρ),
      (compile (compile query o).text o).accepts record = (compile query o).accepts record) ∧
    ∀ t, (Query.ofText query).expressions = [.term t] →
      ((∀ (o : Options) (track : Track),
        (compile (compile query o).text o).accepts track = (compile query o).accepts track) ↔ t.Restored) := by
  have restored : ∀ {ρ : Type} [Tagged ρ], (∀ t ∈ Expr.allTerms (Query.ofText query).expressions, t.Restored) →
      ∀ (o : Options) (record : ρ),
        (compile (compile query o).text o).accepts record = (compile query o).accepts record := by
    intro ρ _ h o record
    have hr : ∀ t ∈ Expr.allTerms (Query.ofText query).expressions, t.word ≠ "" ∧ t.reread = t := fun t ht =>
      (Term.restored_iff (Query.expressible_ofText query t ht)).1 (h t ht)
    have hm := (Expr.mapAllTerms_eq_self_iff Term.reread _).2 fun t ht => (hr t ht).2
    rw [Bool.eq_iff_iff, accepts_compile_text_iff o (fun t ht => (hr t ht).1), compile, accepts_ofQuery_iff,
      ← List.forall_mem_map (f := Expr.mapTerms Term.reread), ← Expr.mapAllTerms_eq_map, hm]
  refine ⟨restored, fun t ht => ⟨fun h => ?_, fun h => restored ?_⟩⟩
  · have hmem : t ∈ Expr.allTerms (Query.ofText query).expressions := by
      rw [ht]
      simp [Expr.allTerms, Expr.terms]
    have hx := Query.expressible_ofText query t hmem
    have hw : t.word ≠ "" := fun hw => not_accepts_of_word_eq ht hw (h _ Track.empty)
    refine (Term.restored_iff hx).2 ⟨hw, Classical.byContradiction fun hr => ?_⟩
    obtain ⟨keywordTags, track, hn⟩ := Term.exists_holds_ne hx hr
    have ha := Bool.eq_iff_iff.1 (h { keywordTags } track)
    rw [accepts_compile_text_iff _ (by rw [ht]; simpa [Expr.allTerms, Expr.terms] using hw), compile,
      accepts_ofQuery_iff, ht, List.forall_mem_singleton, List.forall_mem_singleton] at ha
    exact hn ha
  · rw [ht]
    simpa [Expr.allTerms, Expr.terms] using h

/-- The escape in `t=\\ =x` keeps the content from beginning with `=`.  The text has no escape left there, and a term
that asked for `=x` within a value asks for the value `x`. -/
theorem exists_accepts_compile_text_ne : ∃ track : Track,
    (compile "t=\\ =x" {}).text = "t==x" ∧
    (compile "t=\\ =x" {}).accepts track = true ∧
    (compile (compile "t=\\ =x" {}).text {}).accepts track = false :=
  ⟨Track.empty.insert "t" (.one "a=x"), by decide +kernel⟩

end Matcher

end TagQuery
