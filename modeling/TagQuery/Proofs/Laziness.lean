import TagQuery.Proofs.Stages

/-!
# How far a search reads

A search that is asked for `n` results reads its records up to the `n`th that matches and no further; if there are not so
many, it reads all of them (`Source.Needs`).  What it finds are the first `n` results of the whole search, and whatever
comes after the records that it has read makes no difference (`Source.ReadsFewest`).

The same holds of a refinement of results, and of the refinement of a search: the second stage asks the first for one
result after the other, and the first reads the records for them (`search_reads_fewest`).
-/

namespace TagQuery

namespace Source

variable {ι α β : Type}

/-! ### The fewest inputs -/

/-- `k` inputs are needed to see `n` wanted ones: they are enough, or all that there are, and fewer are not enough. -/
structure Needs (wanted : ι → Bool) (n : Nat) (inputs : List ι) (k : Nat) : Prop where
  within : k ≤ inputs.length
  enough : n ≤ (inputs.take k).countP wanted ∨ k = inputs.length
  fewest : ∀ j < k, (inputs.take j).countP wanted < n

namespace Needs

variable {wanted : ι → Bool} {n k k' : Nat} {i : ι} {inputs : List ι}

theorem zero (inputs : List ι) : Needs wanted 0 inputs 0 where
  within := Nat.zero_le _
  enough := .inl (Nat.zero_le _)
  fewest j hj := absurd hj (Nat.not_lt_zero j)

theorem nil : Needs wanted n [] 0 where
  within := Nat.zero_le _
  enough := .inr rfl
  fewest j hj := absurd hj (Nat.not_lt_zero j)

/-- One input more is needed if it comes before the others. -/
theorem cons_wanted (h : Needs wanted n inputs k) (hi : wanted i = true) : Needs wanted (n + 1) (i :: inputs) (k + 1) := by
  refine ⟨Nat.succ_le_succ h.within, ?_, ?_⟩
  · rw [List.take_succ_cons, List.countP_cons_of_pos hi, List.length_cons]
    have := h.enough
    omega
  · intro j hj
    cases j with
    | zero => simp
    | succ j =>
      have := h.fewest j (by omega)
      rw [List.take_succ_cons, List.countP_cons_of_pos hi]
      omega

theorem cons_other (h : Needs wanted (n + 1) inputs k) (hi : ¬wanted i = true) :
    Needs wanted (n + 1) (i :: inputs) (k + 1) := by
  refine ⟨Nat.succ_le_succ h.within, ?_, ?_⟩
  · rw [List.take_succ_cons, List.countP_cons_of_neg hi, List.length_cons]
    have := h.enough
    omega
  · intro j hj
    cases j with
    | zero => simp
    | succ j =>
      have := h.fewest j (by omega)
      rw [List.take_succ_cons, List.countP_cons_of_neg hi]
      omega

theorem unique (h : Needs wanted n inputs k) (h' : Needs wanted n inputs k') : k = k' := by
  have le : ∀ {k k'}, Needs wanted n inputs k → Needs wanted n inputs k' → k ≤ k' := by
    intro k k' h h'
    by_contra hlt
    have few := h.fewest k' (by omega)
    have := h.within
    have := h'.enough
    omega
  exact Nat.le_antisymm (le h h') (le h' h)

/-- Inputs that come after those that are enough do not matter. -/
theorem of_enough (h : Needs wanted n inputs k) (he : n ≤ (inputs.take k).countP wanted) (others : List ι) :
    Needs wanted n (inputs.take k ++ others) k := by
  have hk : (inputs.take k).length = k := List.length_take_of_le h.within
  refine ⟨?_, .inl ?_, ?_⟩
  · rw [List.length_append, hk]
    omega
  · rw [List.take_left' hk]
    exact he
  · intro j hj
    rw [List.take_append_of_le_length (by omega), List.take_take, Nat.min_eq_left (by omega)]
    exact h.fewest j hj

end Needs

/-! ### Reading some items -/

/-- Asked for `n` items, the source gives the first `n` of all its items.  It reads the inputs that are needed to see `n`
wanted ones and leaves the others, and if it has seen so many, it does not matter what the others are. -/
structure ReadsFewest (s : Source ι α) (wanted : ι → Bool) (n : Nat) (inputs : List ι) : Prop where
  items : (s.read (some n) inputs).1 = (s.all inputs).take n
  needs : Needs wanted n inputs (s.read (some n) inputs).2
  left : (s.take n inputs).2 = inputs.drop (s.read (some n) inputs).2
  others : ∀ others, n ≤ (inputs.take (s.read (some n) inputs).2).countP wanted →
    s.read (some n) (inputs.take (s.read (some n) inputs).2 ++ others) = s.read (some n) inputs

variable (f : α → Option β) (g : ι → α)

/-- One item is made of each input that the function makes something of. -/
theorem exists_needs (n : Nat) (inputs : List ι) : ∃ k, Needs (fun i => (f (g i)).isSome) n inputs k ∧
    ((each g).filterMap f).take n inputs = ((inputs.filterMap fun i => f (g i)).take n, inputs.drop k) := by
  induction inputs generalizing n with
  | nil =>
    refine ⟨0, .nil, ?_⟩
    cases n with
    | zero => rfl
    | succ n => exact take_succ_none (pull_filterMap_none rfl) n
  | cons i inputs ih =>
    cases n with
    | zero => exact ⟨0, .zero _, by rw [List.take_zero]; rfl⟩
    | succ n =>
      have hp : (each g).pull (i :: inputs) = some (g i, inputs) := rfl
      rcases hf : f (g i) with _ | b
      · obtain ⟨k, hk, ht⟩ := ih (n + 1)
        refine ⟨k + 1, hk.cons_other (by simp [hf]), ?_⟩
        rw [take_succ_congr (pull_filterMap_skip hp hf), ht, List.drop_succ_cons]
        simp only [List.filterMap_cons, hf]
      · obtain ⟨k, hk, ht⟩ := ih n
        refine ⟨k + 1, hk.cons_wanted (by simp [hf]), ?_⟩
        rw [take_succ_some (pull_filterMap_some hp hf), ht, List.drop_succ_cons]
        simp only [List.filterMap_cons, hf, List.take_succ_cons]

theorem all_each_filterMap (inputs : List ι) :
    ((each g).filterMap f).all inputs = inputs.filterMap fun i => f (g i) := by
  rw [all_filterMap, all_each, List.filterMap_map]
  rfl

/-- What is read, and the number of inputs that it takes. -/
theorem exists_read (n : Nat) (inputs : List ι) : ∃ k, Needs (fun i => (f (g i)).isSome) n inputs k ∧
    ((each g).filterMap f).read (some n) inputs = ((inputs.filterMap fun i => f (g i)).take n, k) ∧
    (((each g).filterMap f).take n inputs).2 = inputs.drop k := by
  obtain ⟨k, hk, ht⟩ := exists_needs f g n inputs
  have hw := hk.within
  refine ⟨k, hk, ?_, congrArg Prod.snd ht⟩
  rw [read, ht]
  simp only [List.length_drop, Prod.mk.injEq, true_and]
  omega

theorem readsFewest_filterMap (n : Nat) (inputs : List ι) :
    ReadsFewest ((each g).filterMap f) (fun i => (f (g i)).isSome) n inputs := by
  obtain ⟨k, hk, hr, hl⟩ := exists_read f g n inputs
  refine ⟨?_, ?_, ?_, ?_⟩
  · rw [hr, all_each_filterMap]
  · rw [hr]
    exact hk
  · rw [hr, hl]
  · intro others he
    rw [hr] at he ⊢
    obtain ⟨k', hk', hr', -⟩ := exists_read f g n (inputs.take k ++ others)
    have same : k' = k := hk'.unique (hk.of_enough he others)
    have many : n ≤ ((inputs.take k).filterMap fun i => f (g i)).length := by
      rw [List.length_filterMap_eq_countP]
      exact he
    have items : ((inputs.take k ++ others).filterMap fun i => f (g i)).take n =
        (inputs.filterMap fun i => f (g i)).take n := by
      conv => rhs; rw [← List.take_append_drop k inputs]
      rw [List.filterMap_append, List.filterMap_append, List.take_append_of_le_length many,
        List.take_append_of_le_length many]
    rw [hr', same, items]

end Source

/-! ### Searches -/

variable {ρ : Type} [Tagged ρ]

theorem Candidate.isSome_passing (ms : List Matcher) (c : Candidate ρ) :
    (c.passing ms).isSome = ms.all (·.accepts c.record) := by
  rw [passing_eq]
  cases ms.all (·.accepts c.record) <;> rfl

/-- A search reads the records up to the last one that is needed for the results that it is asked for, and so do a
refinement of results and a refinement of a search. -/
theorem search_reads_fewest (ms ns : List Matcher) (n : Nat) :
    (∀ records : List ρ, (search ms).ReadsFewest (fun record => ms.all (·.accepts record)) n records) ∧
    (∀ results : List (Candidate ρ),
      (refine ms (.each id)).ReadsFewest (fun c => ms.all (·.accepts c.record)) n results) ∧
    ∀ records : List ρ,
      (refine ns (search ms)).ReadsFewest (fun record => (ms ++ ns).all (·.accepts record)) n records := by
  have searching : ∀ (ms : List Matcher) (records : List ρ),
      (search ms).ReadsFewest (fun record => ms.all (·.accepts record)) n records := by
    intro ms records
    have h := Source.readsFewest_filterMap (Candidate.passing ms) (fun record : ρ => { record }) n records
    simp only [Candidate.isSome_passing] at h
    exact h
  refine ⟨searching ms, ?_, ?_⟩
  · intro results
    have h := Source.readsFewest_filterMap (Candidate.passing ms) (id : Candidate ρ → Candidate ρ) n results
    simp only [Candidate.isSome_passing] at h
    exact h
  · intro records
    rw [← search_append]
    exact searching (ms ++ ns) records

end TagQuery
