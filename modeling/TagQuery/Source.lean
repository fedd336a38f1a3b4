/-!
# Sources

A source makes a sequence of items from a list of inputs and reads the inputs only as far as an item asks for it.
Read to its end it gives one item for each input (`all_each`), or those that a function makes of the items of another
source (`all_filterMap`).
-/

namespace TagQuery

/-- Items of type `α` made from inputs of type `ι`: `next` gives the next item and the inputs that were not needed
for it, and nothing if the inputs end before there is another item. -/
structure Source (ι α : Type) where
  next : (inputs : List ι) → Option (α × { rest : List ι // rest.length < inputs.length })

namespace Source

variable {ι α β : Type}

/-- One item for each input. -/
def each (f : ι → α) : Source ι α where
  next
    | [] => none
    | i :: rest => some (f i, ⟨rest, Nat.lt_succ_self _⟩)

/-- The next item that `f` makes something of, and the inputs after it; there are at most `size` inputs. -/
def nextSome (f : α → Option β) (s : Source ι α) (size : Nat) (inputs : List ι) (h : inputs.length ≤ size) :
    Option (β × { rest : List ι // rest.length < size }) :=
  match s.next inputs with
  | none => none
  | some (a, ⟨rest, shorter⟩) =>
    have shorter : rest.length < size := Nat.lt_of_lt_of_le shorter h
    match f a with
    | some b => some (b, ⟨rest, shorter⟩)
    | none => nextSome f s size rest (Nat.le_of_lt shorter)
termination_by inputs.length

/-- The items of the source that `f` makes something of. -/
def filterMap (f : α → Option β) (s : Source ι α) : Source ι β where
  next inputs := nextSome f s inputs.length inputs (Nat.le_refl _)

/-- The first `n` items, or all if there are fewer, and the inputs that were not read for them. -/
def take (s : Source ι α) : (n : Nat) → (inputs : List ι) → List α × List ι
  | 0, inputs => ([], inputs)
  | n + 1, inputs =>
    match s.next inputs with
    | none => ([], [])
    | some (a, rest) =>
      let (items, left) := s.take n rest
      (a :: items, left)

def all (s : Source ι α) (inputs : List ι) : List α :=
  match s.next inputs with
  | none => []
  | some (a, ⟨rest, _⟩) => a :: s.all rest
termination_by inputs.length

theorem all_of_next_none {s : Source ι α} {inputs : List ι} (h : s.next inputs = none) : s.all inputs = [] := by
  rw [all, h]

theorem all_of_next_some {s : Source ι α} {inputs : List ι} {a : α} {rest : { r : List ι // r.length < inputs.length }}
    (h : s.next inputs = some (a, rest)) : s.all inputs = a :: s.all rest := by
  rw [all, h]

theorem all_each (f : ι → α) (inputs : List ι) : (each f).all inputs = inputs.map f := by
  induction inputs with
  | nil => exact all_of_next_none rfl
  | cons i rest ih =>
    have h : (each f).next (i :: rest) = some (f i, ⟨rest, Nat.lt_succ_self _⟩) := rfl
    rw [all_of_next_some h, ih, List.map_cons]

private theorem filterMap_nextSome (f : α → Option β) (s : Source ι α) (size : Nat) (inputs : List ι)
    (h : inputs.length ≤ size) :
    match nextSome f s size inputs h with
    | none => (s.all inputs).filterMap f = []
    | some (b, rest) => (s.all inputs).filterMap f = b :: (s.all rest).filterMap f := by
  fun_induction nextSome f s size inputs h with
  | case1 inputs h hn => simp [all_of_next_none hn]
  | case2 inputs h a rest shorter hn shorter' b hb => simp [all_of_next_some hn, hb]
  | case3 inputs h a rest shorter hn shorter' hb ih => simpa [all_of_next_some hn, hb] using ih

theorem all_filterMap (f : α → Option β) (s : Source ι α) (inputs : List ι) :
    (s.filterMap f).all inputs = (s.all inputs).filterMap f := by
  fun_induction all (s.filterMap f) inputs with
  | case1 inputs h =>
    have hs := filterMap_nextSome f s inputs.length inputs (Nat.le_refl _)
    simp_all [filterMap]
  | case2 inputs b rest h shorter ih =>
    have hs := filterMap_nextSome f s inputs.length inputs (Nat.le_refl _)
    simp_all [filterMap]

/-- The items that are read when there is a limit to their number, or none, and the number of inputs it takes. -/
def read (s : Source ι α) (limit : Option Nat) (inputs : List ι) : List α × Nat :=
  match limit with
  | none => (s.all inputs, inputs.length)
  | some n =>
    let (items, left) := s.take n inputs
    (items, inputs.length - left.length)

end Source

end TagQuery
