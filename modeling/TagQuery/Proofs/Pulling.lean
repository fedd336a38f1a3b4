import TagQuery.Source

/-!
# Pulling items

What a source gives when it is asked for one item, and which inputs it has not read then (`Source.pull`).  Two sources
that agree in this are the same (`Source.ext_of_pull`), however much of them is read.  A source of what a function makes
of the items of another pulls items until the function makes something of one (`Source.pull_filterMap_skip`), so two such
stages are one (`Source.filterMap_filterMap`).  To take some items is to pull one and to take the rest of them from the
inputs that are left (`Source.take_succ_some`).
-/

namespace TagQuery

namespace Source

variable {ι α β γ : Type}

/-- The next item and the inputs that are left. -/
def pull (s : Source ι α) (inputs : List ι) : Option (α × List ι) :=
  (s.next inputs).map fun x => (x.1, x.2.val)

theorem ext_of_pull {s t : Source ι α} (h : ∀ inputs, s.pull inputs = t.pull inputs) : s = t := by
  obtain ⟨sn⟩ := s
  obtain ⟨tn⟩ := t
  congr 1
  funext inputs
  apply Option.map_injective _ (h inputs)
  rintro ⟨a, rest⟩ ⟨b, rest'⟩ hab
  rw [Prod.mk.injEq] at hab
  exact Prod.ext hab.1 (Subtype.ext hab.2)

theorem length_lt_of_pull {s : Source ι α} {inputs rest : List ι} {a : α} (h : s.pull inputs = some (a, rest)) :
    rest.length < inputs.length := by
  obtain ⟨⟨b, rest', shorter⟩, -, hb⟩ := Option.map_eq_some_iff.1 h
  rw [Prod.mk.injEq] at hb
  rw [← hb.2]
  exact shorter

private theorem next_of_pull {s : Source ι α} {inputs rest : List ι} {a : α} (h : s.pull inputs = some (a, rest)) :
    s.next inputs = some (a, ⟨rest, length_lt_of_pull h⟩) := by
  obtain ⟨⟨b, rest', shorter⟩, hn, hb⟩ := Option.map_eq_some_iff.1 h
  rw [Prod.mk.injEq] at hb
  obtain ⟨rfl, rfl⟩ := hb
  exact hn

/-! ### Taking some items -/

section

variable {s : Source ι α} {inputs inputs' rest : List ι} {a : α}

theorem take_succ_none (h : s.pull inputs = none) (n : Nat) : s.take (n + 1) inputs = ([], []) := by
  have hn : s.next inputs = none := Option.map_eq_none_iff.1 h
  rw [take, hn]

theorem take_succ_some (h : s.pull inputs = some (a, rest)) (n : Nat) :
    s.take (n + 1) inputs = (a :: (s.take n rest).1, (s.take n rest).2) := by
  rw [take, next_of_pull h]

theorem take_succ_congr (h : s.pull inputs = s.pull inputs') (n : Nat) :
    s.take (n + 1) inputs = s.take (n + 1) inputs' := by
  rcases hp : s.pull inputs' with _ | ⟨a, rest⟩
  · rw [take_succ_none hp, take_succ_none (h.trans hp)]
  · rw [take_succ_some hp, take_succ_some (h.trans hp)]

end

/-! ### Items that a function makes something of -/

/-- What is found does not depend on the number of inputs that there may be. -/
private theorem nextSome_size (f : α → Option β) (s : Source ι α) {size size' : Nat} {inputs : List ι}
    (h : inputs.length ≤ size) (h' : inputs.length ≤ size') :
    (nextSome f s size inputs h).map (fun x => (x.1, x.2.val)) =
      (nextSome f s size' inputs h').map fun x => (x.1, x.2.val) := by
  fun_induction nextSome f s size inputs h with
  | case1 inputs h hn =>
    conv => rhs; rw [nextSome, hn]
    rfl
  | case2 inputs h a rest shorter hn shorter' b hb =>
    conv => rhs; rw [nextSome, hn]
    simp only [hb]
    rfl
  | case3 inputs h a rest shorter hn shorter' hb ih =>
    conv => rhs; rw [nextSome, hn]
    simp only [hb]
    apply ih

variable {f : α → Option β} {s : Source ι α} {inputs rest : List ι} {a : α}

private theorem pull_filterMap : (s.filterMap f).pull inputs =
    (nextSome f s inputs.length inputs (Nat.le_refl _)).map fun x => (x.1, x.2.val) :=
  rfl

theorem pull_filterMap_none (h : s.pull inputs = none) : (s.filterMap f).pull inputs = none := by
  have hn : s.next inputs = none := Option.map_eq_none_iff.1 h
  rw [pull_filterMap, nextSome, hn]
  rfl

theorem pull_filterMap_some {b : β} (h : s.pull inputs = some (a, rest)) (hf : f a = some b) :
    (s.filterMap f).pull inputs = some (b, rest) := by
  rw [pull_filterMap, nextSome, next_of_pull h]
  simp only [hf]
  rfl

/-- If the function makes nothing of an item, the next item is looked for behind it. -/
theorem pull_filterMap_skip (h : s.pull inputs = some (a, rest)) (hf : f a = none) :
    (s.filterMap f).pull inputs = (s.filterMap f).pull rest := by
  rw [pull_filterMap, nextSome, next_of_pull h]
  simp only [hf]
  apply nextSome_size

theorem pull_filterMap_congr {inputs' : List ι} (h : s.pull inputs = s.pull inputs') :
    (s.filterMap f).pull inputs = (s.filterMap f).pull inputs' := by
  rcases hp : s.pull inputs' with _ | ⟨a, rest⟩
  · rw [pull_filterMap_none hp, pull_filterMap_none (h.trans hp)]
  · rcases hf : f a with _ | b
    · rw [pull_filterMap_skip hp hf, pull_filterMap_skip (h.trans hp) hf]
    · rw [pull_filterMap_some hp hf, pull_filterMap_some (h.trans hp) hf]

private theorem pull_filterMap_filterMap (f : α → Option β) (g : β → Option γ) (s : Source ι α) (inputs : List ι) :
    ((s.filterMap f).filterMap g).pull inputs = (s.filterMap fun a => (f a).bind g).pull inputs := by
  rcases hp : s.pull inputs with _ | ⟨a, rest⟩
  · rw [pull_filterMap_none (pull_filterMap_none hp), pull_filterMap_none hp]
  · have shorter := length_lt_of_pull hp
    rcases hf : f a with _ | b
    · -- the first stage goes on by itself
      have hn : (f a).bind g = none := by rw [hf, Option.bind_none]
      rw [pull_filterMap_congr (pull_filterMap_skip hp hf), pull_filterMap_skip hp hn]
      exact pull_filterMap_filterMap f g s rest
    · have hb : (f a).bind g = g b := by rw [hf, Option.bind_some]
      rcases hg : g b with _ | c
      · rw [pull_filterMap_skip (pull_filterMap_some hp hf) hg, pull_filterMap_skip hp (hb.trans hg)]
        exact pull_filterMap_filterMap f g s rest
      · rw [pull_filterMap_some (pull_filterMap_some hp hf) hg, pull_filterMap_some hp (hb.trans hg)]
termination_by inputs.length

/-- Two stages are one, and it reads the inputs no further than they do. -/
theorem filterMap_filterMap (f : α → Option β) (g : β → Option γ) (s : Source ι α) :
    (s.filterMap f).filterMap g = s.filterMap fun a => (f a).bind g :=
  ext_of_pull (pull_filterMap_filterMap f g s)

end Source

end TagQuery
