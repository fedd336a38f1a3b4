import Mathlib.Data.List.Basic

/-!
# Sorting by a key

A list in order of a key is told by the items of each key in their order (`eq_of_filter_key`).  Merge sort puts a list
in order and keeps the items of each key in their order (`pairwise_mergeSort_key`, `filter_mergeSort_key`).  If no two
items have one key, the key increases from each item to the next (`pairwise_mergeSort_key_lt`), and the first item is
the one with the least key.
-/

namespace TagQuery

variable {α : Type} (key : α → Nat)

theorem eq_of_filter_key {l l' : List α} (h : l.Pairwise fun a b => key a ≤ key b)
    (h' : l'.Pairwise fun a b => key a ≤ key b)
    (same : ∀ n, l.filter (fun a => key a == n) = l'.filter fun a => key a == n) : l = l' := by
  induction l generalizing l' with
  | nil =>
    cases l' with
    | nil => rfl
    | cons b l' =>
      have hb := same (key b)
      simp at hb
  | cons a l ih =>
    cases l' with
    | nil =>
      have ha := same (key a)
      simp at ha
    | cons b l' =>
      rw [List.pairwise_cons] at h h'
      -- each head is an item of the other list, so neither key is the smaller one
      have hba : key b ≤ key a := by
        have ha : a ∈ (b :: l').filter fun x => key x == key a := by simp [← same]
        rcases List.mem_cons.1 (List.mem_filter.1 ha).1 with rfl | ha
        · exact Nat.le_refl _
        · exact h'.1 a ha
      have hab : key a ≤ key b := by
        have hb : b ∈ (a :: l).filter fun x => key x == key b := by simp [same]
        rcases List.mem_cons.1 (List.mem_filter.1 hb).1 with rfl | hb
        · exact Nat.le_refl _
        · exact h.1 b hb
      have hkey : key b = key a := by omega
      have heads := same (key a)
      simp only [List.filter_cons, hkey, beq_self_eq_true, if_true, List.cons.injEq] at heads
      obtain ⟨rfl, tails⟩ := heads
      congr 1
      apply ih h.2 h'.2
      intro n
      by_cases hn : key a = n
      · rw [← hn]
        exact tails
      · have hs := same n
        simpa [List.filter_cons, hn] using hs

/-- In a list in strict order the first item is the one with the least key. -/
theorem head?_eq_some_iff_of_pairwise {l : List α} (h : l.Pairwise fun a b => key a < key b) {a : α} :
    l.head? = some a ↔ a ∈ l ∧ ∀ b ∈ l, key a ≤ key b := by
  cases l with
  | nil => simp
  | cons c l =>
    rw [List.pairwise_cons] at h
    rw [List.head?_cons, Option.some.injEq]
    constructor
    · rintro rfl
      refine ⟨List.mem_cons_self, fun b hb => ?_⟩
      rcases List.mem_cons.1 hb with rfl | hb
      · exact Nat.le_refl _
      · have := h.1 b hb
        omega
    · rintro ⟨ha, least⟩
      rcases List.mem_cons.1 ha with rfl | ha
      · rfl
      · have := h.1 a ha
        have := least c List.mem_cons_self
        omega

private theorem decide_key_trans (a b c : α) (hab : decide (key a ≤ key b) = true)
    (hbc : decide (key b ≤ key c) = true) : decide (key a ≤ key c) = true := by
  rw [decide_eq_true_iff] at *
  omega

private theorem decide_key_total (a b : α) : (decide (key a ≤ key b) || decide (key b ≤ key a)) = true := by
  rw [Bool.or_eq_true, decide_eq_true_iff, decide_eq_true_iff]
  omega

theorem pairwise_mergeSort_key (l : List α) :
    (l.mergeSort fun a b => decide (key a ≤ key b)).Pairwise fun a b => key a ≤ key b :=
  (List.pairwise_mergeSort (decide_key_trans key) (decide_key_total key) l).imp of_decide_eq_true

theorem pairwise_mergeSort_key_lt {l : List α} (h : (l.map key).Nodup) :
    (l.mergeSort fun a b => decide (key a ≤ key b)).Pairwise fun a b => key a < key b := by
  have distinct := h.perm ((List.mergeSort_perm l fun a b => decide (key a ≤ key b)).map key).symm
  rw [List.Nodup, List.pairwise_map] at distinct
  refine (pairwise_mergeSort_key key l).imp₂ ?_ distinct
  intro a b hle hne
  omega

/-- If no two items have one key, there is only one order of them. -/
theorem mergeSort_key_of_perm {l l' : List α} (h : l.Perm l') (ordered : l'.Pairwise fun a b => key a < key b) :
    l.mergeSort (fun a b => decide (key a ≤ key b)) = l' := by
  have distinct : (l.map key).Nodup := by
    rw [(h.map key).nodup_iff, List.Nodup, List.pairwise_map]
    exact ordered.imp Nat.ne_of_lt
  have hp := (List.mergeSort_perm l fun a b => decide (key a ≤ key b)).trans h
  refine List.Perm.eq_of_pairwise ?_ (pairwise_mergeSort_key_lt key distinct) ordered hp
  intro a b _ _ hab hba
  omega

theorem filter_mergeSort_key (l : List α) (n : Nat) :
    (l.mergeSort fun a b => decide (key a ≤ key b)).filter (fun a => key a == n) =
      l.filter fun a => key a == n := by
  have hperm := (List.mergeSort_perm l fun a b => decide (key a ≤ key b)).filter fun a => key a == n
  have equal : (l.filter fun a => key a == n).Pairwise fun a b => decide (key a ≤ key b) = true := by
    rw [List.pairwise_filter]
    exact List.pairwise_of_forall fun a b ha hb => by simp_all
  -- items of one key are in order already, and what is in order stays so
  have hsub := List.sublist_mergeSort (decide_key_trans key) (decide_key_total key) equal List.filter_sublist
  have hfilter := hsub.filter fun a => key a == n
  simp only [List.filter_filter, Bool.and_self] at hfilter
  exact (hfilter.eq_of_length hperm.length_eq.symm).symm

end TagQuery
