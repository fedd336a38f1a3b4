import TagQuery.Proofs.CanonicalText
import TagQuery.Proofs.FinalSigma

/-!
# Switching case sensitivity off

A query without negations asks for contents that are found in values, so it should not lose a match when capital and
small letters are no longer told apart.  It can lose one for a single reason: a sigma of a content has another form in
the content alone than where the content occurs in a value.  A match is kept if every content that is found is found
with its sigmas in form, and all matches are kept if the sigmas of every content are settled; a query of one term keeps
all its matches only then (`Matcher.accepts_insensitive`).

A term that asks for a whole value, or for the absence of the tag, loses nothing.
-/

namespace TagQuery

mutual

/-- Whether the expression has no negation in it. -/
def Expr.affirmative : Expr → Bool
  | .term _ => true
  | .not _ => false
  | .or l r => l.affirmative && r.affirmative
  | .group es => Expr.allAffirmative es

def Expr.allAffirmative : List Expr → Bool
  | [] => true
  | e :: es => e.affirmative && Expr.allAffirmative es

end

variable {ρ : Type} [Tagged ρ]

/-- If the content is found in a value of the tag, it is found in one with its sigmas in form. -/
def FoundInForm (record : ρ) (tag content : String) : Prop :=
  (∃ v ∈ (Tagged.value record tag).values, v ≠ "" ∧ content.toList <:+: v.toList) →
    ∃ v ∈ (Tagged.value record tag).values, v ≠ "" ∧ OccursInForm content.toList v.toList

theorem foundInForm_of_settled {content : String} (h : settled content.toList = true) (record : ρ) (tag : String) :
    FoundInForm record tag content := by
  rintro ⟨v, hv, hne, hi⟩
  exact ⟨v, hv, hne, occursInForm_of_settled h hi⟩

namespace Term

def InForm (keywordTags : List String) (record : ρ) : Term → Prop
  | exact _ _ => True
  | contains tag content => FoundInForm record tag content
  | keyword content => ∀ tag ∈ keywordTags, FoundInForm record tag content

/-- Whether the sigmas of the content are settled, if it is looked for within values. -/
def settled : Term → Bool
  | exact _ _ => true
  | contains _ content | keyword content => TagQuery.settled content.toList

theorem inForm_of_settled {t : Term} (h : t.settled = true) (keywordTags : List String) (record : ρ) :
    t.InForm keywordTags record := by
  cases t with
  | exact tag content => trivial
  | contains tag content => exact foundInForm_of_settled h record tag
  | keyword content => exact fun tag _ => foundInForm_of_settled h record tag

end Term

/-! ### Matches that are kept -/

theorem hasText_insensitive {record : ρ} {tag content : String} (hf : FoundInForm record tag content)
    (h : HasText .sensitive record tag content) : HasText .insensitive record tag content := by
  obtain ⟨present, v, hv, hne, hi⟩ := h
  obtain ⟨u, hu, hne, ho⟩ := hf ⟨v, hv, hne, toList_infix_iff.2 hi⟩
  refine ⟨present, u, hu, hne, toList_infix_iff.1 ?_⟩
  simp only [Folding.fold, String.toList_ofList]
  exact ho.lowercase_infix

theorem Term.holds_insensitive {t : Term} {keywordTags : List String} {record : ρ} (hf : t.InForm keywordTags record)
    (h : t.Holds .sensitive keywordTags record) : t.Holds .insensitive keywordTags record := by
  cases t with
  | exact tag content =>
    rw [Term.Holds] at h ⊢
    split at h
    · rename_i ha
      rw [if_pos ha]
      exact h
    · rename_i ha
      rw [if_neg ha]
      obtain ⟨present, v, hv, he⟩ := h
      exact ⟨present, v, hv, congrArg (Folding.fold .insensitive) he⟩
  | contains tag content => exact hasText_insensitive hf h
  | keyword content =>
    obtain ⟨tag, ht, h⟩ := h
    exact ⟨tag, ht, hasText_insensitive (hf tag ht) h⟩

mutual

theorem Expr.holds_insensitive {keywordTags : List String} {record : ρ} : ∀ {e : Expr}, e.affirmative = true →
    (∀ t ∈ e.terms, t.InForm keywordTags record) → e.Holds .sensitive keywordTags record →
      e.Holds .insensitive keywordTags record
  | .term t, _, hf, h => t.holds_insensitive (hf t (List.mem_singleton_self _)) h
  | .or l r, ha, hf, h => by
    rw [Expr.affirmative, Bool.and_eq_true] at ha
    rw [Expr.terms, List.forall_mem_append] at hf
    rw [Expr.Holds] at h ⊢
    exact h.imp (Expr.holds_insensitive ha.1 hf.1) (Expr.holds_insensitive ha.2 hf.2)
  | .group es, ha, hf, h => Expr.allHold_insensitive ha hf h

theorem Expr.allHold_insensitive {keywordTags : List String} {record : ρ} : ∀ {es : List Expr},
    Expr.allAffirmative es = true → (∀ t ∈ Expr.allTerms es, t.InForm keywordTags record) →
      Expr.AllHold .sensitive keywordTags record es → Expr.AllHold .insensitive keywordTags record es
  | [], _, _, _ => trivial
  | e :: es, ha, hf, h => by
    rw [Expr.allAffirmative, Bool.and_eq_true] at ha
    rw [Expr.allTerms, List.forall_mem_append] at hf
    rw [Expr.AllHold] at h ⊢
    exact h.imp (Expr.holds_insensitive ha.1 hf.1) (Expr.allHold_insensitive ha.2 hf.2)

end

/-! ### Matches that are lost -/

theorem exists_hasText_lost {content : String} (h : settled content.toList = false) (tag : String) :
    ∃ track : Track, HasText .sensitive track tag content ∧ ¬HasText .insensitive track tag content := by
  obtain ⟨value, hi, hn⟩ := exists_lowercase_not_infix h
  have hne : String.ofList value ≠ "" := by
    intro he
    rw [String.ofList_eq_empty_iff.1 he] at hi
    rw [List.infix_nil.1 hi] at h
    cases h
  refine ⟨.single tag (String.ofList value), hasText_single.2 ⟨hne, ?_⟩, fun hx => hn ?_⟩
  · rw [Folding.fold, Folding.fold, String.toList_ofList]
    exact hi
  · have hx := (hasText_single.1 hx).2
    simp only [Folding.fold, String.toList_ofList] at hx
    exact hx

theorem Term.exists_lost {t : Term} (h : t.settled = false) : ∃ (keywordTags : List String) (track : Track),
    t.Holds .sensitive keywordTags track ∧ ¬t.Holds .insensitive keywordTags track := by
  cases t with
  | exact tag content => cases h
  | contains tag content =>
    obtain ⟨track, hyes, hno⟩ := exists_hasText_lost h tag
    exact ⟨[], track, hyes, hno⟩
  | keyword content =>
    obtain ⟨track, hyes, hno⟩ := exists_hasText_lost h "title"
    refine ⟨["title"], track, ⟨"title", List.mem_singleton_self _, hyes⟩, ?_⟩
    rintro ⟨tag, htag, hx⟩
    rw [List.mem_singleton.1 htag] at hx
    exact hno hx

namespace Matcher

/-- A query without negations keeps a match when case sensitivity is switched off if its contents are found with their
sigmas in form.  It keeps all its matches if the sigmas of all its contents are settled, and a query of one term does
so only then. -/
theorem accepts_insensitive (text : String) (affirmative : Expr.allAffirmative (Query.ofText text).expressions = true) :
    (∀ (o : Options) (record : ρ),
      (∀ t ∈ Expr.allTerms (Query.ofText text).expressions, t.InForm o.keywordTags record) →
      (compile text { o with folding := .sensitive }).accepts record = true →
        (compile text { o with folding := .insensitive }).accepts record = true) ∧
    ((∀ t ∈ Expr.allTerms (Query.ofText text).expressions, t.settled = true) → ∀ (o : Options) (record : ρ),
      (compile text { o with folding := .sensitive }).accepts record = true →
        (compile text { o with folding := .insensitive }).accepts record = true) ∧
    ∀ t, (Query.ofText text).expressions = [.term t] →
      ((∀ (o : Options) (track : Track),
        (compile text { o with folding := .sensitive }).accepts track = true →
          (compile text { o with folding := .insensitive }).accepts track = true) ↔ t.settled = true) := by
  have kept : ∀ {ρ : Type} [Tagged ρ] (o : Options) (record : ρ),
      (∀ t ∈ Expr.allTerms (Query.ofText text).expressions, t.InForm o.keywordTags record) →
      (compile text { o with folding := .sensitive }).accepts record = true →
        (compile text { o with folding := .insensitive }).accepts record = true := by
    intro ρ _ o record hf h
    rw [compile, accepts_ofQuery_iff, ← Expr.allHold_iff] at h ⊢
    exact Expr.allHold_insensitive affirmative hf h
  refine ⟨kept, fun hs o record => kept o record fun t ht => Term.inForm_of_settled (hs t ht) _ _, fun t ht => ⟨?_, ?_⟩⟩
  · intro h
    refine Classical.byContradiction fun hs => ?_
    obtain ⟨keywordTags, track, hyes, hno⟩ := Term.exists_lost (Bool.eq_false_iff.2 hs)
    have ha := h { keywordTags } track
    rw [compile, accepts_ofQuery_iff, compile, accepts_ofQuery_iff, ht, List.forall_mem_singleton,
      List.forall_mem_singleton] at ha
    exact hno (ha hyes)
  · intro hs o track
    refine kept o track fun u hu => Term.inForm_of_settled ?_ _ _
    rw [ht] at hu
    rw [List.mem_singleton.1 hu]
    exact hs

/-- The first content has a settled sigma.  The second has not, but is found where a word ends with it. -/
theorem accepts_insensitive_in_form : ∃ track : Track,
    Expr.allAffirmative (Query.ofText "t=ΑΣΒ | ΟΔΟΣ").expressions = true ∧
    (Expr.allTerms (Query.ofText "t=ΑΣΒ | ΟΔΟΣ").expressions).map Term.settled = [true, false] ∧
    (compile "t=ΑΣΒ | ΟΔΟΣ" { folding := .sensitive, keywordTags := ["t"] }).accepts track = true ∧
    (compile "t=ΑΣΒ | ΟΔΟΣ" { folding := .insensitive, keywordTags := ["t"] }).accepts track = true := by
  let track := Track.empty.insert "t" (.one "ΟΔΟΣ ΜΟΥ")
  have affirmative : Expr.allAffirmative (Query.ofText "t=ΑΣΒ | ΟΔΟΣ").expressions = true := by decide +kernel
  have terms : Expr.allTerms (Query.ofText "t=ΑΣΒ | ΟΔΟΣ").expressions = [.contains "t" "ΑΣΒ", .keyword "ΟΔΟΣ"] := by
    decide +kernel
  have values : (Tagged.value track "t").values = ["ΟΔΟΣ ΜΟΥ"] := by decide +kernel
  have matched : (compile "t=ΑΣΒ | ΟΔΟΣ" { folding := .sensitive, keywordTags := ["t"] }).accepts track = true := by
    decide +kernel
  refine ⟨track, affirmative, by rw [terms]; decide +kernel, matched,
    (accepts_insensitive _ affirmative).1 { keywordTags := ["t"] } track ?_ matched⟩
  rw [terms]
  refine List.forall_mem_cons.2 ⟨Term.inForm_of_settled (by decide +kernel) _ _, List.forall_mem_singleton.2 ?_⟩
  intro tag htag _
  rw [List.mem_singleton.1 htag, values]
  exact ⟨"ΟΔΟΣ ΜΟΥ", List.mem_singleton_self _, by decide, [], " ΜΟΥ".toList, by decide +kernel, by decide +kernel⟩

/-- The sigma of the content ends a word in the content alone, but not in the value. -/
theorem exists_not_accepts_insensitive : ∃ track : Track,
    Expr.allAffirmative (Query.ofText "t=ΑΣ").expressions = true ∧
    (compile "t=ΑΣ" { folding := .sensitive }).accepts track = true ∧
    (compile "t=ΑΣ" { folding := .insensitive }).accepts track = false :=
  ⟨Track.empty.insert "t" (.one "ΑΣΒ"), by decide +kernel⟩

end Matcher

end TagQuery
