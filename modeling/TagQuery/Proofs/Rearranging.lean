import Mathlib.Data.List.Perm.Basic
import TagQuery.Proofs.Evaluation
import TagQuery.Record.Track

/-!
# The order of conditions

Which conditions are tried on a record, and so which tags are noted, depends on the order in which they come.  But a
record is a result only if all of them hold, and then all of them have been tried and all have reported their tags.  So
neither the order of the expressions in a matcher nor that of the matchers decides which records are found, and the tags
of a result are the same up to their order (`search_rearranged`).
-/

namespace TagQuery

variable {ρ : Type}

/-- The same record, with the same tags in whatever order. -/
def Candidate.SameUpToOrder (c d : Candidate ρ) : Prop :=
  c.record = d.record ∧ c.onTags.Perm d.onTags

variable [Tagged ρ]

namespace Matcher

/-- Compiled from the same expressions, in whatever order they are given and tried, for the same folding and keyword
tags. -/
inductive Reordered : Matcher → Matcher → Prop
  | of_perm {q q' : Query} {o o' : Options} : q.expressions.Perm q'.expressions → o.folding = o'.folding →
    o.keywordTags = o'.keywordTags → Reordered (ofQuery q o) (ofQuery q' o')

/-- Matchers in any order, each with its expressions in any order. -/
def Rearranged (ms ms' : List Matcher) : Prop :=
  ∃ ls, ms.Perm ls ∧ List.Forall₂ Reordered ls ms'

/-- It does not matter whether short conditions are tried before long ones. -/
theorem reordered_optimize (text : String) (o : Options) (optimize : Bool) :
    Reordered (compile text o) (compile text { o with optimize }) :=
  .of_perm (List.Perm.refl _) rfl rfl

/-- The tags that all the expressions of a query report if they hold. -/
theorem mem_reports_ofQuery_iff {q : Query} {o : Options} {record : ρ} (ha : (ofQuery q o).accepts record = true)
    {tag : String} : tag ∈ (ofQuery q o).reports record ↔
      ∃ e ∈ q.expressions, tag ∈ (Condition.ofExpr o.folding o.keywordTags e).reported o.folding record := by
  rw [reports_of_accepts ha, List.mem_flatMap]
  constructor
  · rintro ⟨k, hk, htag⟩
    obtain ⟨e, he, rfl⟩ := List.mem_map.1 hk
    exact ⟨e, mem_expressions_ofQuery.1 he, htag⟩
  · rintro ⟨e, he, htag⟩
    exact ⟨_, List.mem_map_of_mem (mem_expressions_ofQuery.2 he), htag⟩

namespace Reordered

variable {m m' : Matcher}

theorem symm (h : Reordered m m') : Reordered m' m := by
  cases h with
  | of_perm hq hf hk => exact .of_perm hq.symm hf.symm hk.symm

theorem accepts_eq (h : Reordered m m') (record : ρ) : m.accepts record = m'.accepts record := by
  cases h with
  | of_perm hq hf hk =>
    rw [Bool.eq_iff_iff, accepts_ofQuery_iff, accepts_ofQuery_iff, hf, hk]
    simp only [hq.mem_iff]

/-- If all expressions hold, all report their tags. -/
theorem mem_reports_iff (h : Reordered m m') {record : ρ} (ha : m.accepts record = true) (tag : String) :
    tag ∈ m.reports record ↔ tag ∈ m'.reports record := by
  have ha' : m'.accepts record = true := (h.accepts_eq record).symm.trans ha
  cases h with
  | of_perm hq hf hk =>
    rw [mem_reports_ofQuery_iff ha, mem_reports_ofQuery_iff ha', hf, hk]
    simp only [hq.mem_iff]

end Reordered

namespace Rearranged

variable {ms ms' : List Matcher}

theorem symm (h : Rearranged ms ms') : Rearranged ms' ms := by
  obtain ⟨ls, hp, hr⟩ := h
  have hs : List.Forall₂ Reordered ms' ls := (hr.imp fun _ _ => Reordered.symm).flip
  have hc : Relation.Comp (List.Forall₂ Reordered) List.Perm ms' ms := ⟨ls, hs, hp.symm⟩
  rw [List.forall₂_comp_perm_eq_perm_comp_forall₂] at hc
  exact hc

theorem exists_of_mem (h : Rearranged ms ms') {m : Matcher} (hm : m ∈ ms) : ∃ m' ∈ ms', Reordered m m' := by
  obtain ⟨ls, hp, hr⟩ := h
  have hm := hp.mem_iff.1 hm
  clear hp
  induction hr with
  | nil => cases hm
  | cons h _ ih =>
    rcases List.mem_cons.1 hm with rfl | hm
    · exact ⟨_, List.mem_cons_self, h⟩
    · obtain ⟨m', hm', h'⟩ := ih hm
      exact ⟨m', List.mem_cons_of_mem _ hm', h'⟩

private theorem accepts_of_accepts (h : Rearranged ms ms') {record : ρ} (ha : ∀ m ∈ ms, m.accepts record = true) :
    ∀ m' ∈ ms', m'.accepts record = true := by
  intro m' hm'
  obtain ⟨m, hm, hr⟩ := h.symm.exists_of_mem hm'
  rw [hr.accepts_eq]
  exact ha m hm

theorem all_accepts_eq (h : Rearranged ms ms') (record : ρ) :
    ms.all (·.accepts record) = ms'.all (·.accepts record) := by
  rw [Bool.eq_iff_iff, List.all_eq_true, List.all_eq_true]
  exact ⟨h.accepts_of_accepts, h.symm.accepts_of_accepts⟩

private theorem mem_reports_of_accepts (h : Rearranged ms ms') {record : ρ} (ha : ∀ m ∈ ms, m.accepts record = true)
    {tag : String} (htag : tag ∈ ms.flatMap (·.reports record)) : tag ∈ ms'.flatMap (·.reports record) := by
  rw [List.mem_flatMap] at htag ⊢
  obtain ⟨m, hm, htag⟩ := htag
  obtain ⟨m', hm', hr⟩ := h.exists_of_mem hm
  exact ⟨m', hm', (hr.mem_reports_iff (ha m hm) tag).1 htag⟩

/-- If all matchers accept the record, they report the same tags. -/
theorem mem_reports_iff (h : Rearranged ms ms') {record : ρ} (ha : ∀ m ∈ ms, m.accepts record = true) (tag : String) :
    tag ∈ ms.flatMap (·.reports record) ↔ tag ∈ ms'.flatMap (·.reports record) :=
  ⟨h.mem_reports_of_accepts ha, h.symm.mem_reports_of_accepts (h.accepts_of_accepts ha)⟩

end Rearranged

end Matcher

namespace Candidate

theorem passing_rearranged {ms ms' : List Matcher} (h : Matcher.Rearranged ms ms') (c : Candidate ρ) :
    Option.Rel SameUpToOrder (c.passing ms) (c.passing ms') := by
  rw [passing_eq, passing_eq, ← h.all_accepts_eq]
  by_cases ha : ms.all (·.accepts c.record) = true
  · rw [if_pos ha, if_pos ha]
    apply Option.Rel.some
    constructor
    · rw [record_foldl_note, record_foldl_note]
    · exact onTags_foldl_note_perm (h.mem_reports_iff (List.all_eq_true.1 ha)) c
  · rw [if_neg ha, if_neg ha]
    exact Option.Rel.none

end Candidate

/-- Matchers in any order, each with its expressions in any order, let the same records through, in the same order and
with the same tags up to their order, whatever tags the candidates come with. -/
theorem search_rearranged {ms ms' : List Matcher} (h : Matcher.Rearranged ms ms') :
    (∀ {ι : Type} (source : Source ι (Candidate ρ)) (inputs : List ι),
      List.Forall₂ Candidate.SameUpToOrder ((refine ms source).all inputs) ((refine ms' source).all inputs)) ∧
    ∀ records : List ρ,
      List.Forall₂ Candidate.SameUpToOrder ((search ms).all records) ((search ms').all records) := by
  have whole : ∀ {ι : Type} (source : Source ι (Candidate ρ)) (inputs : List ι),
      List.Forall₂ Candidate.SameUpToOrder ((refine ms source).all inputs) ((refine ms' source).all inputs) := by
    intro ι source inputs
    rw [all_refine, all_refine]
    apply List.rel_filterMap (R := Eq)
    · rintro c _ rfl
      exact c.passing_rearranged h
    · exact List.forall₂_refl _
  exact ⟨whole, whole _⟩

/-- Two matchers in the other order, one of which tries its short condition, a keyword, before the other. -/
theorem search_rearranged_short_first : ∃ (track : Track) (ms ms' : List Matcher), Matcher.Rearranged ms ms' ∧
    (search ms').all [track] = [⟨track, ["year", "album", "artist"]⟩] ∧
    List.Forall₂ Candidate.SameUpToOrder ((search ms).all [track]) [⟨track, ["year", "album", "artist"]⟩] := by
  let track := ((Track.empty.insert "artist" (.one "Tool")).insert "album" (.one "Lateralus")).insert "year" (.one "2001")
  let o : Options := { keywordTags := ["artist"] }
  let m := Matcher.compile "album=Lat ool" o
  let m' := Matcher.compile "album=Lat ool" { o with optimize := false }
  let n := Matcher.compile "year==2001" { optimize := false }
  have rearranged : Matcher.Rearranged [m, n] [n, m'] := by
    refine ⟨[n, m], List.Perm.swap n m [], ?_⟩
    exact .cons (Matcher.reordered_optimize _ _ _) (.cons (Matcher.reordered_optimize _ _ _) .nil)
  have found : (search [n, m']).all [track] = [⟨track, ["year", "album", "artist"]⟩] := by
    rw [all_search]
    decide +kernel
  refine ⟨track, _, _, rearranged, found, ?_⟩
  rw [← found]
  exact (search_rearranged rearranged).2 [track]

end TagQuery
