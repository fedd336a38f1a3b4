import TagQuery.Proofs.Evaluation
import TagQuery.Record.Track

/-!
# Provenance

What a candidate knows after any number of matchers have been tried on it, some of them in vain, and after any number
of searches and refinements have let it through (`Run`).  Its tags are those that the matchers report, noted in their
order, and nothing else in it has changed (`Run.eq_foldl_note`).  So a tag is there once, and for a reason: some term of
an earlier matcher holds on account of it (`Matcher.exists_of_mem_reports`).

A matcher only reads the record.  So its verdict does not depend on what happened before, and if it is tried again it
reports nothing that the candidate does not know (`Run.tags_accounted`).
-/

namespace TagQuery

variable {ρ : Type} [Tagged ρ]

/-- From a record to a candidate by way of the matchers that have been tried on it, in order. -/
inductive Run (record : ρ) : List Matcher → Candidate ρ → Prop
  | fresh : Run record [] { record }
  /-- A matcher is tried by itself, and the candidate goes on whatever the verdict is. -/
  | tested {ms : List Matcher} {c : Candidate ρ} (m : Matcher) : Run record ms c → Run record (ms ++ [m]) (m.test c).2
  /-- The candidate passes all the matchers of a search. -/
  | passed {ms : List Matcher} {c d : Candidate ρ} (ns : List Matcher) :
    Run record ms c → c.passing ns = some d → Run record (ms ++ ns) d

namespace Run

variable {record : ρ} {ms : List Matcher} {c : Candidate ρ}

/-- The candidate has noted what the matchers report of the record, those that failed included. -/
theorem eq_foldl_note (run : Run record ms c) :
    c = (ms.flatMap (·.reports record)).foldl Candidate.note { record } := by
  induction run with
  | fresh => rfl
  | tested m _ ih =>
    rw [Matcher.test_eq, ih, Candidate.record_foldl_note, List.flatMap_append, List.foldl_append, List.flatMap_cons,
      List.flatMap_nil, List.append_nil]
  | passed ns _ h ih =>
    rw [Candidate.passing_eq] at h
    split at h
    · rw [ih, Candidate.record_foldl_note, ← List.foldl_append, ← List.flatMap_append] at h
      exact (Option.some.inj h).symm
    · cases h

theorem record_eq (run : Run record ms c) : c.record = record := by
  rw [run.eq_foldl_note, Candidate.record_foldl_note]

theorem nodup (run : Run record ms c) : c.onTags.Nodup := by
  rw [run.eq_foldl_note]
  exact Candidate.nodup_foldl_note _ List.nodup_nil

theorem mem_onTags_iff (run : Run record ms c) {tag : String} :
    tag ∈ c.onTags ↔ ∃ m ∈ ms, tag ∈ m.reports record := by
  rw [run.eq_foldl_note, Candidate.mem_onTags_foldl_note, List.mem_flatMap]
  simp

/-- A matcher that has been tried has nothing new to report. -/
theorem test_of_mem (run : Run record ms c) {m : Matcher} (hm : m ∈ ms) : (m.test c).2 = c := by
  rw [Matcher.test_eq, run.record_eq]
  apply Candidate.foldl_note_of_subset
  intro tag htag
  rw [run.mem_onTags_iff]
  exact ⟨m, hm, htag⟩

end Run

/-! ### Where tags come from -/

/-- The term holds of the record on account of the tag. -/
def Term.HoldsOn (folding : Folding) (keywordTags : List String) (record : ρ) (tag : String) : Term → Prop
  | .exact name content => name = tag ∧ (Term.exact name content).Holds folding keywordTags record
  | .contains name content => name = tag ∧ HasText folding record name content
  | .keyword content => tag ∈ keywordTags ∧ HasText folding record tag content

/-- Only terms report tags, and those on account of which they hold. -/
theorem Condition.exists_of_mem_reported {folding : Folding} {keywordTags : List String} {record : ρ} {tag : String}
    {e : Expr} (h : (ofExpr folding keywordTags e).holds folding record = true)
    (htag : tag ∈ (ofExpr folding keywordTags e).reported folding record) :
    ∃ t, e = .term t ∧ t.HoldsOn folding keywordTags record tag := by
  cases e with
  | term t =>
    rw [ofExpr] at h htag
    rw [holds_ofTerm] at h
    refine ⟨t, rfl, ?_⟩
    cases t with
    | exact name content =>
      rw [ofTerm, reported, List.mem_singleton] at htag
      exact ⟨htag.symm, h⟩
    | contains name content =>
      rw [ofTerm, reported, List.mem_singleton] at htag
      exact ⟨htag.symm, h⟩
    | keyword content =>
      rw [ofTerm, reported, List.mem_filter, tagContains_iff] at htag
      exact htag
  | not e =>
    rw [ofExpr, reported] at htag
    cases htag
  | or l r =>
    rw [ofExpr, reported] at htag
    cases htag
  | group es =>
    rw [ofExpr, reported] at htag
    cases htag

namespace Matcher

theorem exists_of_mem_reports {q : Query} {o : Options} {record : ρ} {tag : String}
    (h : tag ∈ (ofQuery q o).reports record) :
    ∃ t, .term t ∈ q.expressions ∧ t.HoldsOn o.folding o.keywordTags record tag := by
  rw [reports, Condition.reports, List.mem_flatMap] at h
  obtain ⟨k, hk, htag⟩ := h
  have holds : k.holds o.folding record = true := List.mem_takeWhile_imp hk
  have hk : k ∈ (ofQuery q o).expressions.map (Condition.ofExpr o.folding o.keywordTags) :=
    (List.takeWhile_sublist _).subset hk
  rw [List.mem_map] at hk
  obtain ⟨e, he, rfl⟩ := hk
  obtain ⟨t, rfl, ht⟩ := Condition.exists_of_mem_reported holds htag
  exact ⟨t, mem_expressions_ofQuery.1 he, ht⟩

end Matcher

namespace Run

/-- After any run, the record is the same and no tag is there twice; each tag has made a term of a matcher of the run
hold; any matcher says of the candidate what it says of the record, and keeps the tags that are there; and a matcher of
the run changes nothing.  The results of searches and refinements come from such runs. -/
theorem tags_accounted {record : ρ} {ms : List Matcher} {c : Candidate ρ} (run : Run record ms c)
    (compiled : ∀ m ∈ ms, ∃ q o, m = Matcher.ofQuery q o) :
    c.record = record ∧ c.onTags.Nodup ∧
    (∀ tag ∈ c.onTags, ∃ q o t, Matcher.ofQuery q o ∈ ms ∧ .term t ∈ q.expressions ∧
      t.HoldsOn o.folding o.keywordTags record tag) ∧
    (∀ m : Matcher, (m.test c).1 = m.accepts record ∧ c.onTags <+: (m.test c).2.onTags) ∧
    (∀ ns : List Matcher, (c.passing ns).isSome = ns.all (·.accepts record) ∧
      ∀ d, c.passing ns = some d → c.onTags <+: d.onTags) ∧
    (∀ m ∈ ms, (m.test c).2 = c) ∧
    (∀ (ns : List Matcher) (records : List ρ), ∀ d ∈ (search ns).all records, ∃ r ∈ records, Run r ns d) ∧
    ∀ {ι : Type} (ns : List Matcher) (source : Source ι (Candidate ρ)) (inputs : List ι),
      ∀ d ∈ (refine ns source).all inputs, ∃ b ∈ source.all inputs, ∀ r ls, Run r ls b → Run r (ls ++ ns) d := by
  have record_eq := run.record_eq
  refine ⟨record_eq, run.nodup, ?_, ?_, ?_, fun m => run.test_of_mem, ?_, ?_⟩
  · intro tag htag
    obtain ⟨m, hm, htag⟩ := run.mem_onTags_iff.1 htag
    obtain ⟨q, o, rfl⟩ := compiled m hm
    obtain ⟨t, ht, holds⟩ := Matcher.exists_of_mem_reports htag
    exact ⟨q, o, t, hm, ht, holds⟩
  · intro m
    rw [Matcher.test_eq, record_eq]
    exact ⟨rfl, Candidate.onTags_prefix_foldl_note _ _⟩
  · intro ns
    rw [Candidate.passing_eq, record_eq]
    constructor
    · cases ns.all (·.accepts record) <;> rfl
    · intro d hd
      split at hd
      · rw [← Option.some.inj hd]
        exact Candidate.onTags_prefix_foldl_note _ _
      · cases hd
  · intro ns records d hd
    rw [all_search, List.mem_filterMap] at hd
    obtain ⟨r, hr, hd⟩ := hd
    exact ⟨r, hr, .passed ns .fresh hd⟩
  · intro ι ns source inputs d hd
    rw [all_refine, List.mem_filterMap] at hd
    obtain ⟨b, hb, hd⟩ := hd
    exact ⟨b, hb, fun r ls hr => .passed ns hr hd⟩

/-- A matcher fails after it has reported a tag, and a search for a keyword lets the candidate through. -/
theorem tags_accounted_failing : ∃ (track : Track) (m n : Matcher) (c d : Candidate Track),
    Run track [m] c ∧ m.accepts track = false ∧ c.onTags = ["artist"] ∧
    Run track [m, n] d ∧ d.onTags = ["artist", "album"] ∧
    (∀ tag ∈ d.onTags, ∃ q o t, Matcher.ofQuery q o ∈ [m, n] ∧ .term t ∈ q.expressions ∧
      t.HoldsOn o.folding o.keywordTags track tag) ∧
    (m.test d).2 = d := by
  let track := (Track.empty.insert "artist" (.one "Tool")).insert "album" (.one "Lateralus")
  let m := Matcher.compile "artist=Tool album=Undertow" { optimize := false }
  let n := Matcher.compile "l" { keywordTags := ["album", "artist"], optimize := false }
  have first : Run track [m] (m.test { record := track }).2 := .tested m .fresh
  have second : Run track [m, n] (n.test (m.test { record := track }).2).2 := .passed [n] first (by decide +kernel)
  have compiled : ∀ k ∈ [m, n], ∃ q o, k = Matcher.ofQuery q o := by
    intro k hk
    rw [List.mem_cons, List.mem_singleton] at hk
    rcases hk with rfl | rfl
    · exact ⟨_, _, rfl⟩
    · exact ⟨_, _, rfl⟩
  obtain ⟨-, -, reasons, -, -, again, -⟩ := tags_accounted second compiled
  exact ⟨track, m, n, _, _, first, by decide +kernel, by decide +kernel, second, by decide +kernel, reasons,
    again m List.mem_cons_self⟩

end Run

end TagQuery
