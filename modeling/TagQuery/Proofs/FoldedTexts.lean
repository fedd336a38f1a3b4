import Mathlib.Data.List.Forall2
import TagQuery.Proofs.Evaluation
import TagQuery.Record.Track

/-!
# What evaluation sees of texts

Of the contents of a query, and of the values of a record, evaluation sees what they fold to and whether they are the
mark of absence.  Whether a value is empty is looked up before it is folded, but the folded text shows it as well
(`Folding.fold_eq_empty_iff`).

So expressions that differ only in texts that fold to the same are compiled to the same conditions
(`Condition.ofExpr_alike`), and a condition says the same of records that differ only so and reports the same tags
(`Condition.holds_alike`, `Condition.reported_alike`).  A matcher does not tell such queries apart, nor such records
(`Matcher.test_alike`).
-/

namespace TagQuery

/-! ### Texts that fold to the same -/

theorem Folding.fold_eq_empty_iff (folding : Folding) {text : String} : folding.fold text = "" ↔ text = "" := by
  cases folding with
  | sensitive => exact Iff.rfl
  | insensitive => rw [fold, String.ofList_eq_empty_iff, lowercase_eq_nil_iff, String.toList_eq_nil_iff]

variable (folding : Folding)

/-- Terms of one kind with one tag, whose contents fold to the same.  A content that asks for the absence of the tag is
like no other. -/
inductive Term.Alike : Term → Term → Prop
  | exact {tag content content' : String} : folding.fold content = folding.fold content' →
    (content = absentMark ↔ content' = absentMark) → Alike (.exact tag content) (.exact tag content')
  | contains {tag content content' : String} : folding.fold content = folding.fold content' →
    Alike (.contains tag content) (.contains tag content')
  | keyword {content content' : String} : folding.fold content = folding.fold content' →
    Alike (.keyword content) (.keyword content')

mutual

/-- Expressions of one shape, with like terms. -/
inductive Expr.Alike : Expr → Expr → Prop
  | term {t t' : Term} : t.Alike folding t' → Expr.Alike (.term t) (.term t')
  | not {e e' : Expr} : Expr.Alike e e' → Expr.Alike (.not e) (.not e')
  | or {l l' r r' : Expr} : Expr.Alike l l' → Expr.Alike r r' → Expr.Alike (.or l r) (.or l' r')
  | group {es es' : List Expr} : Expr.AllAlike es es' → Expr.Alike (.group es) (.group es')

inductive Expr.AllAlike : List Expr → List Expr → Prop
  | nil : Expr.AllAlike [] []
  | cons {e e' : Expr} {es es' : List Expr} :
    Expr.Alike e e' → Expr.AllAlike es es' → Expr.AllAlike (e :: es) (e' :: es')

end

/-- Two values, or two lists of values of one length, that fold to the same.  A single value that is the mark of absence
is like no other. -/
inductive Entry.Alike : Entry → Entry → Prop
  | one {value value' : String} : folding.fold value = folding.fold value' →
    (value = absentMark ↔ value' = absentMark) → Alike (.one value) (.one value')
  | many {values values' : List String} :
    List.Forall₂ (fun v v' => folding.fold v = folding.fold v') values values' → Alike (.many values) (.many values')

variable {ρ σ : Type} [Tagged ρ] [Tagged σ]

/-- Records with the same tags and like entries under them. -/
def RecordsAlike (record : ρ) (record' : σ) : Prop :=
  ∀ tag, Option.Rel (Entry.Alike folding) (Tagged.value record tag) (Tagged.value record' tag)

variable {folding}

theorem RecordsAlike.insert {track track' : Track} (h : RecordsAlike folding track track') (tag : String)
    {entry entry' : Entry} (he : entry.Alike folding entry') :
    RecordsAlike folding (track.insert tag entry) (track'.insert tag entry') := by
  intro other
  show Option.Rel _ ((track.insert tag entry).find? other) ((track'.insert tag entry').find? other)
  rw [Track.find?_insert, Track.find?_insert]
  split
  · exact .some he
  · exact h other

/-! ### Queries -/

namespace Condition

theorem ofTerm_alike {t t' : Term} (h : t.Alike folding t') (keywordTags : List String) :
    ofTerm folding keywordTags t = ofTerm folding keywordTags t' := by
  cases h with
  | exact hf ha => simp only [ofTerm, hf, ha]
  | contains hf => rw [ofTerm, ofTerm, hf]
  | keyword hf => rw [ofTerm, ofTerm, hf]

mutual

theorem ofExpr_alike (keywordTags : List String) : ∀ {e e' : Expr}, e.Alike folding e' →
    ofExpr folding keywordTags e = ofExpr folding keywordTags e'
  | _, _, .term h => by rw [ofExpr, ofExpr, ofTerm_alike h]
  | _, _, .not h => by rw [ofExpr, ofExpr, ofExpr_alike keywordTags h]
  | _, _, .or hl hr => by rw [ofExpr, ofExpr, ofExpr_alike keywordTags hl, ofExpr_alike keywordTags hr]
  | _, _, .group h => by rw [ofExpr, ofExpr, ofExprs_alike keywordTags h]

theorem ofExprs_alike (keywordTags : List String) : ∀ {es es' : List Expr}, Expr.AllAlike folding es es' →
    ofExprs folding keywordTags es = ofExprs folding keywordTags es'
  | _, _, .nil => rfl
  | _, _, .cons h hs => by rw [ofExprs, ofExprs, ofExpr_alike keywordTags h, ofExprs_alike keywordTags hs]

end

theorem ofExprs_eq_map (keywordTags : List String) (es : List Expr) :
    ofExprs folding keywordTags es = es.map (ofExpr folding keywordTags) := by
  induction es with
  | nil => rfl
  | cons e es ih => rw [ofExprs, ih, List.map_cons]

/-! ### Records -/

theorem valueEquals_of_fold_eq {v v' : String} (h : folding.fold v = folding.fold v') (content : Option String) :
    valueEquals folding content (some v) = valueEquals folding content (some v') := by
  cases content with
  | none => rfl
  | some content => rw [valueEquals, valueEquals, h]

theorem valueContains_of_fold_eq {v v' : String} (h : folding.fold v = folding.fold v') (content : String) :
    valueContains folding content (some v) = valueContains folding content (some v') := by
  have he : v.isEmpty = v'.isEmpty := by
    rw [Bool.eq_iff_iff, String.isEmpty_iff, String.isEmpty_iff, ← folding.fold_eq_empty_iff, h,
      folding.fold_eq_empty_iff]
  rw [valueContains, valueContains, h, he]

end Condition

theorem any_map_some_of_alike {values values' : List String}
    (h : List.Forall₂ (fun v v' => folding.fold v = folding.fold v') values values') {passes : Option String → Bool}
    (sees : ∀ {v v'}, folding.fold v = folding.fold v' → passes (some v) = passes (some v')) :
    (values.map some).any passes = (values'.map some).any passes := by
  induction h with
  | nil => rfl
  | cons hv _ ih => rw [List.map_cons, List.map_cons, List.any_cons, List.any_cons, ih, sees hv]

/-- A test that sees only folded texts does not tell like values apart. -/
theorem TagValue.any_alike {v v' : TagValue} (h : Option.Rel (Entry.Alike folding) v v') {passes : Option String → Bool}
    (sees : ∀ {v v'}, folding.fold v = folding.fold v' → passes (some v) = passes (some v')) :
    v.any passes = v'.any passes := by
  cases h with
  | none => rfl
  | some h =>
    cases h with
    | @one value value' hf ha =>
      by_cases hv : value = absentMark
      · rw [hv, ha.1 hv]
      · have hv' : value' ≠ absentMark := fun hn => hv (ha.2 hn)
        simp [any, presented, isAbsent, hv, hv', sees hf]
    | many hs =>
      rcases hs with _ | ⟨hv, hs⟩
      · rfl
      · exact any_map_some_of_alike (.cons hv hs) sees

namespace Condition

variable {record : ρ} {record' : σ}

theorem tagContains_alike (h : RecordsAlike folding record record') (content tag : String) :
    tagContains folding record content tag = tagContains folding record' content tag :=
  TagValue.any_alike (h tag) fun hf => valueContains_of_fold_eq hf content

mutual

theorem holds_alike (h : RecordsAlike folding record record') :
    ∀ c : Condition, c.holds folding record = c.holds folding record'
  | .equals tag content => by
    rw [holds, holds]
    exact TagValue.any_alike (h tag) fun hf => valueEquals_of_fold_eq hf content
  | .contains tag content => by rw [holds, holds, tagContains_alike h]
  | .keyword tags content => by
    rw [holds, holds]
    exact congrArg tags.any (funext (tagContains_alike h content))
  | .not c => by rw [holds, holds, holds_alike h c]
  | .or l r => by rw [holds, holds, holds_alike h l, holds_alike h r]
  | .all cs => by rw [holds, holds, allHold_alike h cs]

theorem allHold_alike (h : RecordsAlike folding record record') :
    ∀ cs : List Condition, allHold folding record cs = allHold folding record' cs
  | [] => rfl
  | c :: cs => by rw [allHold, allHold, holds_alike h c, allHold_alike h cs]

end

theorem reported_alike (h : RecordsAlike folding record record') (c : Condition) :
    c.reported folding record = c.reported folding record' := by
  cases c with
  | keyword tags content =>
    rw [reported, reported]
    exact congrArg (tags.filter ·) (funext (tagContains_alike h content))
  | _ => rfl

theorem reports_alike (h : RecordsAlike folding record record') (ks : List Condition) :
    reports folding record ks = reports folding record' ks := by
  have holds : (holds folding record) = holds folding record' := funext (holds_alike h)
  have reported : (reported folding record) = reported folding record' := funext (reported_alike h)
  rw [reports, reports, holds, reported]

end Condition

/-! ### Matchers -/

namespace Matcher

/-- Queries that differ only in texts that fold to the same give the same verdicts on records that differ only so, and
the candidates note the same tags. -/
theorem test_alike {es es' : List Expr} (he : Expr.AllAlike folding es es') {record : ρ} {record' : σ}
    (hr : RecordsAlike folding record record') (keywordTags onTags : List String) (ds ds' : List Diagnostic) :
    (ofQuery ⟨es, ds⟩ { folding, keywordTags, optimize := false }).accepts record =
      (ofQuery ⟨es', ds'⟩ { folding, keywordTags, optimize := false }).accepts record' ∧
    ((ofQuery ⟨es, ds⟩ { folding, keywordTags, optimize := false }).test ⟨record, onTags⟩).1 =
      ((ofQuery ⟨es', ds'⟩ { folding, keywordTags, optimize := false }).test ⟨record', onTags⟩).1 ∧
    ((ofQuery ⟨es, ds⟩ { folding, keywordTags, optimize := false }).test ⟨record, onTags⟩).2.onTags =
      ((ofQuery ⟨es', ds'⟩ { folding, keywordTags, optimize := false }).test ⟨record', onTags⟩).2.onTags := by
  have conditions : es.map (Condition.ofExpr folding keywordTags) = es'.map (Condition.ofExpr folding keywordTags) := by
    rw [← Condition.ofExprs_eq_map, ← Condition.ofExprs_eq_map, Condition.ofExprs_alike keywordTags he]
  have accepted : (ofQuery ⟨es, ds⟩ { folding, keywordTags, optimize := false }).accepts record =
      (ofQuery ⟨es', ds'⟩ { folding, keywordTags, optimize := false }).accepts record' := by
    show (es.map _).all _ = (es'.map _).all _
    rw [conditions]
    exact congrArg (List.all _) (funext (Condition.holds_alike hr))
  have reported : (ofQuery ⟨es, ds⟩ { folding, keywordTags, optimize := false }).reports record =
      (ofQuery ⟨es', ds'⟩ { folding, keywordTags, optimize := false }).reports record' := by
    show Condition.reports folding record (es.map _) = Condition.reports folding record' (es'.map _)
    rw [conditions, Condition.reports_alike hr]
  rw [test_eq, test_eq]
  refine ⟨accepted, accepted, ?_⟩
  rw [Candidate.onTags_foldl_note, Candidate.onTags_foldl_note, reported]

/-- An exact term, a negation and a keyword that ends in a final sigma, on a track with a list of values. -/
theorem test_alike_sigma : ∃ (es es' : List Expr) (track track' : Track),
    Expr.AllAlike .insensitive es es' ∧ es.map Expr.text ≠ es'.map Expr.text ∧
    RecordsAlike .insensitive track track' ∧ track ≠ track' ∧
    ((ofQuery ⟨es, []⟩ { folding := .insensitive, keywordTags := ["album", "title"], optimize := false }).test
      ⟨track, ["genre"]⟩).1 = true ∧
    ((ofQuery ⟨es, []⟩ { folding := .insensitive, keywordTags := ["album", "title"], optimize := false }).test
      ⟨track, ["genre"]⟩).2.onTags = ["genre", "artist", "title"] := by
  let es : List Expr :=
    [.term (.exact "artist" "TOOL"), .not (.term (.contains "genre" "POP")), .term (.keyword "ΟΔΟΣ")]
  let es' : List Expr :=
    [.term (.exact "artist" "tool"), .not (.term (.contains "genre" "pop")), .term (.keyword "οδος")]
  let track := ((Track.empty.insert "artist" (.one "Tool")).insert "genre" (.many ["Metal", ""])).insert "title"
    (.one "ΟΔΟΣ ΜΟΥ")
  let track' := ((Track.empty.insert "artist" (.one "tOOL")).insert "genre" (.many ["METAL", ""])).insert "title"
    (.one "οδος μου")
  have alike : Expr.AllAlike .insensitive es es' :=
    .cons (.term (.exact (by decide +kernel) (by decide))) (.cons (.not (.term (.contains (by decide +kernel))))
      (.cons (.term (.keyword (by decide +kernel))) .nil))
  have empty : RecordsAlike .insensitive Track.empty Track.empty := fun _ => .none
  have records : RecordsAlike .insensitive track track' :=
    ((empty.insert "artist" (.one (by decide +kernel) (by decide))).insert "genre"
      (.many (.cons (by decide +kernel) (.cons rfl .nil)))).insert "title" (.one (by decide +kernel) (by decide))
  obtain ⟨-, verdict, tags⟩ := test_alike alike records ["album", "title"] ["genre"] [] []
  refine ⟨es, es', track, track', alike, by decide +kernel, records, by decide +kernel, ?_, ?_⟩
  · rw [verdict]
    decide +kernel
  · rw [tags]
    decide +kernel

end Matcher

end TagQuery
