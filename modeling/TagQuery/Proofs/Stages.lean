import TagQuery.Proofs.Composition
import TagQuery.Proofs.Evaluation
import TagQuery.Proofs.Pulling
import TagQuery.Proofs.Sorting
import TagQuery.Record.Track

/-!
# Searches in stages and in parts

Candidates pass the matchers of two lists one list after the other (`Candidate.passing_append`), and they pass a matcher
that has the conditions of two others as they pass the two (`Candidate.passing_split`).  So it is the same search
whether two texts are searched for as one, by a matcher each, or in two stages (`search_in_stages`).

A search with one matcher finds the records that it accepts, each with what it notes by itself (`all_search_single`).
A record counts by itself here, so the records can be searched in parts, at whatever time each part is searched
(`search_by_entry`).
-/

namespace TagQuery

variable {ρ : Type} [Tagged ρ]

/-! ### Stages -/

namespace Candidate

theorem passing_append (ms ns : List Matcher) (c : Candidate ρ) :
    c.passing (ms ++ ns) = (c.passing ms).bind (passing ns) := by
  induction ms generalizing c with
  | nil => rfl
  | cons m ms ih =>
    rw [List.cons_append, passing, passing]
    rcases m.test c with ⟨verdict, d⟩
    cases verdict with
    | true => exact ih d
    | false => rfl

end Candidate

section

variable {m m₁ m₂ : Matcher} (h₁ : m₁.folding = m.folding) (h₂ : m₂.folding = m.folding)
  (h : m.conditions = m₁.conditions ++ m₂.conditions)

include h₁ h₂ h

theorem Matcher.accepts_split (record : ρ) : m.accepts record = (m₁.accepts record && m₂.accepts record) := by
  rw [accepts, accepts, accepts, h, h₁, h₂, List.all_append]

/-- If all conditions hold, none keeps a later one from reporting its tags. -/
theorem Matcher.reports_split {record : ρ} (ha : m.accepts record = true) :
    m.reports record = m₁.reports record ++ m₂.reports record := by
  have both := ha
  rw [accepts_split h₁ h₂ h, Bool.and_eq_true] at both
  rw [reports_of_accepts ha, reports_of_accepts both.1, reports_of_accepts both.2, h, h₁, h₂, List.flatMap_append]

/-- The conditions may be those of one matcher or of two. -/
theorem Candidate.passing_split (c : Candidate ρ) : c.passing [m] = c.passing [m₁, m₂] := by
  rw [passing_eq, passing_eq]
  simp only [List.all_cons, List.all_nil, Bool.and_true, List.flatMap_cons, List.flatMap_nil, List.append_nil]
  rw [← Matcher.accepts_split h₁ h₂ h]
  by_cases ha : m.accepts c.record = true
  · rw [if_pos ha, if_pos ha, Matcher.reports_split h₁ h₂ h ha]
  · rw [if_neg ha, if_neg ha]

end

theorem search_append (ms ns : List Matcher) : search (ms ++ ns) = refine (ρ := ρ) ns (search ms) := by
  rw [search, search, refine, refine, refine, Source.filterMap_filterMap]
  congr 1
  funext c
  exact c.passing_append ms ns

/-- Side by side, two texts in which nothing is wrong are read as their expressions side by side. -/
theorem Query.expressions_both {x y : String} (hx : (ofText x).diagnostics = []) (hy : (ofText y).diagnostics = []) :
    (ofText (x ++ " " ++ y)).expressions = (ofText x).expressions ++ (ofText y).expressions := by
  obtain ⟨g, hg, hgx, -⟩ := Derives.of_clean hx
  obtain ⟨h, hh, hhy, -⟩ := Derives.of_clean hy
  rw [(hg.both hh).expressions_of_shallow (shallow_both hx hy), Grammar.Conjunction.exprs_append, hgx, hhy]

namespace Matcher

/-- In the order of the text, the conditions of two texts side by side are those of one and then those of the other. -/
theorem conditions_both {x y : String} (hx : (Query.ofText x).diagnostics = [])
    (hy : (Query.ofText y).diagnostics = []) {o : Options} (ho : o.optimize = false) :
    (compile (x ++ " " ++ y) o).conditions = (compile x o).conditions ++ (compile y o).conditions := by
  have plain : ∀ text, (compile text o).conditions =
      (Query.ofText text).expressions.map (Condition.ofExpr o.folding o.keywordTags) := by
    intro text
    rw [compile, ofQuery, ho]
    rfl
  rw [plain, plain, plain, Query.expressions_both hx hy, List.map_append]

end Matcher

/-- A search with the matchers of two lists is the search with the first, refined by the second.  For two texts in
which nothing is wrong, a matcher of each searches like the one matcher of both that tries the conditions in the order
of the text.  The searches are the same source: they give the same results with the same tags in the same order, and
they read the records no further than each other. -/
theorem search_in_stages : (∀ ms ns : List Matcher, search (ms ++ ns) = refine (ρ := ρ) ns (search ms)) ∧
    ∀ (x y : String) (o : Options), (Query.ofText x).diagnostics = [] → (Query.ofText y).diagnostics = [] →
      o.optimize = false →
      search (ρ := ρ) [.compile (x ++ " " ++ y) o] = search [.compile x o, .compile y o] ∧
      search (ρ := ρ) [.compile (x ++ " " ++ y) o] = refine [.compile y o] (search [.compile x o]) := by
  refine ⟨search_append, ?_⟩
  intro x y o hx hy ho
  have whole : search (ρ := ρ) [.compile (x ++ " " ++ y) o] = search [.compile x o, .compile y o] := by
    rw [search, search, refine, refine]
    congr 1
    funext c
    refine Candidate.passing_split ?_ ?_ (Matcher.conditions_both hx hy ho) c
    · rfl
    · rfl
  refine ⟨whole, ?_⟩
  rw [whole, ← search_append]
  rfl

/-- A chain and a negation, and a keyword that reports a tag after the first text has reported another. -/
theorem search_in_stages_chain : ∃ (o : Options) (track : Track), o.optimize = false ∧
    (Query.ofText "a=x b | c").diagnostics = [] ∧ (Query.ofText "!(d) key").diagnostics = [] ∧
    (search [.compile ("a=x b | c" ++ " " ++ "!(d) key") o]).all [track] =
      (refine [.compile "!(d) key" o] (search [.compile "a=x b | c" o])).all [track] ∧
    (search [.compile ("a=x b | c" ++ " " ++ "!(d) key") o]).all [track] = [⟨track, ["a", "t"]⟩] := by
  let o : Options := { keywordTags := ["a", "t"], optimize := false }
  let track := (Track.empty.insert "a" (.one "x")).insert "t" (.one "b key")
  have hx : (Query.ofText "a=x b | c").diagnostics = [] := by decide +kernel
  have hy : (Query.ofText "!(d) key").diagnostics = [] := by decide +kernel
  obtain ⟨whole, staged⟩ := (search_in_stages (ρ := Track)).2 "a=x b | c" "!(d) key" o hx hy rfl
  refine ⟨o, track, rfl, hx, hy, ?_, ?_⟩
  · rw [staged]
  · rw [whole, all_search]
    decide +kernel

/-! ### One matcher -/

namespace Matcher

/-- The records that the matcher accepts, each with the tags that the matcher notes for it. -/
def results (m : Matcher) (records : List ρ) : List (Candidate ρ) :=
  (records.filter m.accepts).map fun record => (m.test { record }).2

theorem map_record_results (m : Matcher) (records : List ρ) :
    (m.results records).map Candidate.record = records.filter m.accepts := by
  rw [results, List.map_map]
  have same : Candidate.record ∘ (fun record => (m.test { record }).2) = (id : ρ → ρ) := by
    funext record
    rw [Function.comp_apply, test_eq, Candidate.record_foldl_note]
    rfl
  rw [same, List.map_id]

end Matcher

theorem Candidate.passing_single (m : Matcher) (c : Candidate ρ) :
    c.passing [m] = if m.accepts c.record then some (m.test c).2 else none := by
  rw [passing_eq, Matcher.test_eq]
  simp

theorem all_search_single (m : Matcher) (records : List ρ) : (search [m]).all records = m.results records := by
  rw [all_search, Matcher.results]
  induction records with
  | nil => rfl
  | cons record records ih =>
    rw [List.filterMap_cons, Candidate.passing_single, List.filter_cons]
    by_cases h : m.accepts record = true
    · simp [h, ih]
    · simp [h, ih]

/-! ### Parts -/

theorem searchParts_eq (ms : List Matcher) (parts : List (List ρ)) :
    searchParts ms parts = (search ms).all parts.flatten := by
  rw [searchParts, all_search, List.filterMap_flatten, List.flatMap]
  congr 2
  funext part
  exact all_search ms part

/-- Parts of the records with their positions, searched one after the other by themselves.  The results are put in
order of the positions. -/
def searchJobs (matchers : List Matcher) (jobs : List (List ρ × Nat)) : List (Candidate ρ) :=
  ((jobs.map (Prod.map (search matchers).all id)).mergeSort fun a b => decide (a.2 ≤ b.2)).flatMap Prod.fst

private theorem pairwise_zipIdx {α : Type} (xs : List α) (n : Nat) : (xs.zipIdx n).Pairwise fun a b => a.2 < b.2 := by
  induction xs generalizing n with
  | nil => exact List.Pairwise.nil
  | cons x xs ih =>
    rw [List.zipIdx_cons, List.pairwise_cons]
    exact ⟨fun b hb => List.le_snd_of_mem_zipIdx hb, ih (n + 1)⟩

theorem searchJobs_eq (ms : List Matcher) {parts : List (List ρ)} {jobs : List (List ρ × Nat)}
    (h : jobs.Perm parts.zipIdx) : searchJobs ms jobs = searchParts ms parts := by
  have done : (jobs.map (Prod.map (search ms).all id)).Perm (parts.map (search ms).all).zipIdx := by
    rw [List.zipIdx_map]
    exact h.map _
  -- parts that come in any order are brought back to their positions
  have back := mergeSort_key_of_perm Prod.snd done (pairwise_zipIdx _ 0)
  rw [searchJobs, back, List.flatMap, List.zipIdx_map_fst, searchParts, List.flatMap]

/-- However the search for a text is begun, it finds the records that the matcher of the text accepts, in their order and
each as often as it is there, with the tags that the matcher notes for the record by itself.  The records may be
searched in parts, and the parts in any order. -/
theorem search_by_entry (records : List ρ) (query : String) (o : Options) :
    (searchFor query o).all records = (Matcher.compile query o).results records ∧
    (search [.compile query o]).all records = (Matcher.compile query o).results records ∧
    (∀ parts : List (List ρ), parts.flatten = records →
      searchParts [.compile query o] parts = (Matcher.compile query o).results records ∧
      ∀ jobs : List (List ρ × Nat), jobs.Perm parts.zipIdx →
        searchJobs [.compile query o] jobs = (Matcher.compile query o).results records) ∧
    ((Matcher.compile query o).results records).map Candidate.record =
      records.filter (Matcher.compile query o).accepts ∧
    searchText (ρ := ρ) query o.folding.isSensitive o.keywordTags = searchFor query { o with optimize := true } := by
  have single := all_search_single (Matcher.compile query o) records
  refine ⟨single, single, ?_, Matcher.map_record_results _ _, ?_⟩
  · intro parts hparts
    have hp : searchParts [.compile query o] parts = (Matcher.compile query o).results records := by
      rw [searchParts_eq, hparts, single]
    refine ⟨hp, ?_⟩
    intro jobs hjobs
    rw [searchJobs_eq _ hjobs, hp]
  · have folding : Folding.ofSensitive o.folding.isSensitive = o.folding := by
      cases o.folding <;> rfl
    rw [searchText, folding]

/-- The last part is searched first, and the second part is empty. -/
theorem search_by_entry_parts : ∃ (first second third : Track),
    [[first], [], [second, third]].flatten = [first, second, third] ∧
    [([second, third], 2), ([first], 0), ([], 1)].Perm [[first], [], [second, third]].zipIdx ∧
    searchJobs [.compile "artist=ool" {}] [([second, third], 2), ([first], 0), ([], 1)] =
      [⟨first, ["artist"]⟩, ⟨third, ["artist"]⟩] := by
  let first := Track.empty.insert "artist" (.one "Tool")
  let second := Track.empty.insert "artist" (.one "NIN")
  let third := Track.empty.insert "artist" (.many ["Cool", "Kool"])
  have perm : [([second, third], 2), ([first], 0), ([], 1)].Perm [[first], [], [second, third]].zipIdx := by
    decide +kernel
  refine ⟨first, second, third, rfl, perm, ?_⟩
  obtain ⟨-, -, parts, -⟩ := search_by_entry [first, second, third] "artist=ool" {}
  rw [(parts [[first], [], [second, third]] rfl).2 _ perm]
  decide +kernel

end TagQuery
