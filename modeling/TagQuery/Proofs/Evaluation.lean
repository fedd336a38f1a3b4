import Mathlib.Data.List.TakeWhile
import TagQuery.Proofs.Meaning
import TagQuery.Search

/-!
# Evaluating a candidate

What matchers make of a candidate.  Tags that are noted one after the other come after those that were there, each
once (`Candidate.onTags_foldl_note`), so noting them keeps what was there and noting them again changes nothing.

A matcher says of a candidate what it says of its record, and the candidate notes the tags that the conditions report
up to the first that fails (`Matcher.test_eq`).  A candidate passes some matchers if all of them accept its record, and
then it has noted all that they report (`Candidate.passing_eq`).
-/

namespace TagQuery

variable {ρ : Type}

namespace Candidate

/-! ### Noting tags -/

private theorem nodup_eraseDups : ∀ tags : List String, tags.eraseDups.Nodup
  | [] => List.nodup_nil
  | tag :: tags => by
    rw [List.eraseDups_cons, List.nodup_cons]
    constructor
    · simp
    · exact nodup_eraseDups _
termination_by tags => tags.length
decreasing_by exact Nat.lt_succ_of_le (List.length_filter_le _ _)

private theorem mem_removeAll {tags known : List String} {tag : String} :
    tag ∈ tags.removeAll known ↔ tag ∈ tags ∧ tag ∉ known := by
  simp [List.removeAll]

private theorem removeAll_concat (tags known : List String) (tag : String) :
    tags.removeAll (known ++ [tag]) = (tags.removeAll known).filter fun other => !other == tag := by
  unfold List.removeAll
  rw [List.filter_filter]
  apply List.filter_congr
  intro other _
  simp [Bool.and_comm, beq_eq_decide]

@[simp] theorem record_foldl_note (tags : List String) (c : Candidate ρ) : (tags.foldl note c).record = c.record := by
  induction tags generalizing c with
  | nil => rfl
  | cons tag tags ih =>
    rw [List.foldl_cons, ih]
    unfold note
    split <;> rfl

/-- The tags that are new to the candidate come after the others, in order and each once. -/
theorem onTags_foldl_note (tags : List String) (c : Candidate ρ) :
    (tags.foldl note c).onTags = c.onTags ++ (tags.removeAll c.onTags).eraseDups := by
  induction tags generalizing c with
  | nil => simp
  | cons tag tags ih =>
    rw [List.foldl_cons, ih, List.cons_removeAll]
    unfold note
    by_cases h : tag ∈ c.onTags
    · simp [h]
    · simp [h, removeAll_concat, List.eraseDups_cons]

@[simp] theorem mem_onTags_foldl_note {tags : List String} {c : Candidate ρ} {tag : String} :
    tag ∈ (tags.foldl note c).onTags ↔ tag ∈ c.onTags ∨ tag ∈ tags := by
  rw [onTags_foldl_note, List.mem_append, List.mem_eraseDups, mem_removeAll]
  by_cases h : tag ∈ c.onTags <;> simp [h]

theorem onTags_prefix_foldl_note (tags : List String) (c : Candidate ρ) : c.onTags <+: (tags.foldl note c).onTags := by
  rw [onTags_foldl_note]
  exact List.prefix_append _ _

theorem nodup_foldl_note (tags : List String) {c : Candidate ρ} (h : c.onTags.Nodup) :
    (tags.foldl note c).onTags.Nodup := by
  rw [onTags_foldl_note, List.nodup_append]
  refine ⟨h, nodup_eraseDups _, ?_⟩
  intro a ha b hb hab
  rw [List.mem_eraseDups, mem_removeAll] at hb
  exact hb.2 (hab ▸ ha)

theorem foldl_note_of_subset {tags : List String} {c : Candidate ρ} (h : ∀ tag ∈ tags, tag ∈ c.onTags) :
    tags.foldl note c = c := by
  induction tags with
  | nil => rfl
  | cons tag tags ih =>
    have hc : c.note tag = c := if_pos (h tag List.mem_cons_self)
    rw [List.foldl_cons, hc]
    exact ih fun other hother => h other (List.mem_cons_of_mem _ hother)

/-- The same tags are noted in whatever order they come. -/
theorem onTags_foldl_note_perm {tags tags' : List String} (h : ∀ tag, tag ∈ tags ↔ tag ∈ tags') (c : Candidate ρ) :
    (tags.foldl note c).onTags.Perm (tags'.foldl note c).onTags := by
  rw [onTags_foldl_note, onTags_foldl_note]
  apply List.Perm.append_left
  rw [List.perm_ext_iff_of_nodup (nodup_eraseDups _) (nodup_eraseDups _)]
  intro tag
  simp only [List.mem_eraseDups, mem_removeAll, h]

end Candidate

/-! ### Conditions and matchers -/

variable [Tagged ρ]

/-- The tags that the conditions report up to the first that fails. -/
def Condition.reports (folding : Folding) (record : ρ) (ks : List Condition) : List String :=
  (ks.takeWhile (·.holds folding record)).flatMap (·.reported folding record)

theorem Condition.reports_of_all {folding : Folding} {record : ρ} {ks : List Condition}
    (h : ks.all (·.holds folding record) = true) :
    reports folding record ks = ks.flatMap (·.reported folding record) := by
  rw [reports, List.takeWhile_eq_self_iff.2 (List.all_eq_true.1 h)]

theorem Candidate.meet_eq (folding : Folding) (ks : List Condition) (c : Candidate ρ) :
    c.meet folding ks =
      (ks.all (·.holds folding c.record), (Condition.reports folding c.record ks).foldl note c) := by
  induction ks generalizing c with
  | nil => rfl
  | cons k ks ih =>
    rw [meet, Condition.examine_eq]
    by_cases h : k.holds folding c.record = true
    · rw [if_pos h]
      simp only [ih, record_foldl_note]
      rw [Condition.reports, Condition.reports, List.takeWhile_cons_of_pos h, List.flatMap_cons, List.foldl_append,
        List.all_cons, h, Bool.true_and]
    · rw [if_neg h]
      have hf : k.holds folding c.record = false := Bool.eq_false_iff.2 h
      rw [Condition.reports, List.takeWhile_cons_of_neg h, List.all_cons, hf, Bool.false_and]
      rfl

namespace Matcher

/-- The tags that the matcher's conditions report up to the first that fails. -/
def reports (m : Matcher) (record : ρ) : List String :=
  Condition.reports m.folding record m.conditions

theorem test_eq (m : Matcher) (c : Candidate ρ) :
    m.test c = (m.accepts c.record, (m.reports c.record).foldl Candidate.note c) :=
  c.meet_eq m.folding m.conditions

theorem reports_of_accepts {m : Matcher} {record : ρ} (h : m.accepts record = true) :
    m.reports record = m.conditions.flatMap (·.reported m.folding record) :=
  Condition.reports_of_all h

end Matcher

theorem Candidate.passing_eq (ms : List Matcher) (c : Candidate ρ) :
    c.passing ms =
      if ms.all (·.accepts c.record) then some ((ms.flatMap (·.reports c.record)).foldl note c) else none := by
  induction ms generalizing c with
  | nil => rfl
  | cons m ms ih =>
    rw [passing, Matcher.test_eq, List.all_cons]
    by_cases h : m.accepts c.record = true
    · rw [h]
      simp only [ih, record_foldl_note]
      rw [List.flatMap_cons, List.foldl_append, Bool.true_and]
    · rw [Bool.eq_false_iff.2 h]
      rfl

/-! ### Searches -/

theorem all_refine {ι : Type} (ms : List Matcher) (source : Source ι (Candidate ρ)) (inputs : List ι) :
    (refine ms source).all inputs = (source.all inputs).filterMap (Candidate.passing ms) :=
  Source.all_filterMap _ source inputs

theorem all_search (ms : List Matcher) (records : List ρ) :
    (search ms).all records = records.filterMap fun record => Candidate.passing ms { record } := by
  rw [search, all_refine, Source.all_each, List.filterMap_map]
  rfl

end TagQuery
