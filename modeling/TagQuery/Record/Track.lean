import TagQuery.Record.TagValue

/-!
# Tracks

A track holds entries under the names of tags, one for each name, in the order of the names' code points.  An entry
that is inserted replaces the one that was there and changes no other (`Track.find?_insert`).
-/

namespace TagQuery

/-- The tags with an entry put in at its place, or in place of the entry of that name. -/
def insertEntry (tag : String) (entry : Entry) : List (String × Entry) → List (String × Entry)
  | [] => [(tag, entry)]
  | (other, old) :: rest =>
    if tag = other then (tag, entry) :: rest
    else if tag < other then (tag, entry) :: (other, old) :: rest
    else (other, old) :: insertEntry tag entry rest

private theorem mem_insertEntry {tag : String} {entry : Entry} {tags : List (String × Entry)}
    {x : String × Entry} (h : x ∈ insertEntry tag entry tags) : x = (tag, entry) ∨ x ∈ tags := by
  induction tags with
  | nil => simpa [insertEntry] using h
  | cons t rest ih =>
    unfold insertEntry at h
    split at h
    · rcases List.mem_cons.1 h with h | h <;> simp [h]
    · split at h
      · rcases List.mem_cons.1 h with h | h
        · exact .inl h
        · exact .inr h
      · rcases List.mem_cons.1 h with h | h
        · simp [h]
        · exact (ih h).imp id (List.mem_cons_of_mem _)

private theorem sorted_insertEntry {tag : String} {entry : Entry} {tags : List (String × Entry)}
    (h : tags.Pairwise fun a b => a.1 < b.1) : (insertEntry tag entry tags).Pairwise fun a b => a.1 < b.1 := by
  induction tags with
  | nil => simp [insertEntry]
  | cons t rest ih =>
    rw [List.pairwise_cons] at h
    unfold insertEntry
    split
    · rename_i he
      exact List.pairwise_cons.2 ⟨fun x hx => he ▸ h.1 x hx, h.2⟩
    · rename_i he
      split
      · rename_i hlt
        refine List.pairwise_cons.2 ⟨fun x hx => ?_, List.pairwise_cons.2 h⟩
        rcases List.mem_cons.1 hx with rfl | hx
        · exact hlt
        · exact String.lt_trans hlt (h.1 x hx)
      · rename_i hlt
        refine List.pairwise_cons.2 ⟨fun x hx => ?_, ih h.2⟩
        rcases mem_insertEntry hx with rfl | hx
        · exact String.not_le.1 fun hle => he (String.le_antisymm hle (String.not_lt.1 hlt))
        · exact h.1 x hx

structure Track where
  /-- The names of the tags and their entries. -/
  tags : List (String × Entry) := []
  sorted : tags.Pairwise fun a b => a.1 < b.1 := by exact List.Pairwise.nil
  deriving DecidableEq, Repr

namespace Track

def empty : Track := {}

def insert (t : Track) (tag : String) (entry : Entry) : Track :=
  ⟨insertEntry tag entry t.tags, sorted_insertEntry t.sorted⟩

/-- The track that results from inserting the entries one after the other. -/
def ofEntries (entries : List (String × Entry)) : Track :=
  entries.foldl (fun t e => t.insert e.1 e.2) empty

def find? (t : Track) (tag : String) : TagValue :=
  t.tags.lookup tag

/-- The value of a tag in the form that is shown: a list is joined into one value. -/
def shown? (t : Track) (tag : String) : TagValue :=
  (t.find? tag).map Entry.joined

instance : Tagged Track := ⟨find?⟩

private theorem lookup_entry_cons (tag other : String) (entry : Entry) (tags : List (String × Entry)) :
    ((tag, entry) :: tags).lookup other = if other = tag then some entry else tags.lookup other := by
  by_cases h : other = tag
  · simp [h]
  · simp [List.lookup_cons, h, beq_false_of_ne h]

private theorem lookup_insertEntry (tag other : String) (entry : Entry) (tags : List (String × Entry)) :
    (insertEntry tag entry tags).lookup other = if other = tag then some entry else tags.lookup other := by
  induction tags with
  | nil => simp only [insertEntry, lookup_entry_cons]
  | cons x rest ih =>
    obtain ⟨name, old⟩ := x
    unfold insertEntry
    split
    · rename_i h
      subst h
      simp only [lookup_entry_cons]
      split <;> rfl
    · rename_i h
      split
      · simp only [lookup_entry_cons]
      · simp only [lookup_entry_cons, ih]
        by_cases ho : other = tag
        · subst ho
          simp [h]
        · simp [ho]

theorem find?_insert (t : Track) (tag other : String) (entry : Entry) :
    (t.insert tag entry).find? other = if other = tag then some entry else t.find? other :=
  lookup_insertEntry tag other entry t.tags

end Track

end TagQuery
