/-!
# The bytes of a text

A text is searched by its bytes in UTF-8.  The first byte of a character differs from the bytes inside one, and what
begins with the bytes of a character begins with no other; so the bytes of one text occur among those of another
exactly where the text occurs in the other (`utf8_infix_iff`).
-/

namespace TagQuery

def utf8 (text : List Char) : List UInt8 :=
  text.flatMap String.utf8EncodeChar

private theorem utf8_cons (c : Char) (text : List Char) : utf8 (c :: text) = String.utf8EncodeChar c ++ utf8 text :=
  List.flatMap_cons

/-- A character begins with its first byte and with no other of its bytes. -/
private theorem utf8EncodeChar_eq_cons (c : Char) : ∃ first more, String.utf8EncodeChar c = first :: more ∧
    first.IsUTF8FirstByte ∧ ∀ b ∈ more, ¬b.IsUTF8FirstByte := by
  obtain ⟨first, more, h⟩ := List.exists_cons_of_ne_nil (String.utf8EncodeChar_ne_nil (c := c))
  have at_index : ∀ i (hi : i < (first :: more).length), (first :: more)[i].IsUTF8FirstByte ↔ i = 0 := by
    intro i hi
    simp only [← h]
    exact UInt8.isUTF8FirstByte_getElem_utf8EncodeChar
  refine ⟨first, more, h, (at_index 0 (Nat.zero_lt_succ _)).2 rfl, ?_⟩
  intro b hb hfirst
  obtain ⟨i, hi, rfl⟩ := List.getElem_of_mem hb
  exact absurd ((at_index (i + 1) (Nat.succ_lt_succ hi)).1 hfirst) (Nat.succ_ne_zero i)

private theorem eq_of_utf8EncodeChar_append {c d : Char} {bs cs : List UInt8}
    (h : String.utf8EncodeChar c ++ bs = String.utf8EncodeChar d ++ cs) : c = d ∧ bs = cs := by
  have decode : ∀ (c : Char) (bs : List UInt8),
      (String.utf8EncodeChar c ++ bs).toByteArray.utf8DecodeChar? 0 = some c := by
    intro c bs
    rw [List.toByteArray_append]
    exact ByteArray.utf8DecodeChar?_utf8EncodeChar_append
  have hd := decode c bs
  rw [h, decode d cs] at hd
  cases hd
  exact ⟨rfl, List.append_cancel_left h⟩

theorem utf8_prefix_iff {needle text : List Char} : utf8 needle <+: utf8 text ↔ needle <+: text := by
  induction needle generalizing text with
  | nil => simp [utf8]
  | cons c needle ih =>
    cases text with
    | nil => simp [utf8]
    | cons d text =>
      rw [utf8_cons, utf8_cons, List.cons_prefix_cons]
      constructor
      · rintro ⟨bs, h⟩
        rw [List.append_assoc] at h
        obtain ⟨hcd, hrest⟩ := eq_of_utf8EncodeChar_append h
        exact ⟨hcd, ih.1 ⟨bs, hrest⟩⟩
      · rintro ⟨rfl, h⟩
        exact (List.prefix_append_right_inj _).2 (ih.2 h)

/-- A run that begins with a first byte does not begin inside a character. -/
private theorem infix_of_infix_append {first : UInt8} {bs more rest : List UInt8} (hf : first.IsUTF8FirstByte)
    (hm : ∀ b ∈ more, ¬b.IsUTF8FirstByte) (h : first :: bs <:+: more ++ rest) : first :: bs <:+: rest := by
  induction more with
  | nil => exact h
  | cons b more ih =>
    rcases List.infix_cons_iff.1 h with h | h
    · have hb : first = b := (List.cons_prefix_cons.1 h).1
      exact absurd hf (hb ▸ hm b List.mem_cons_self)
    · exact ih (fun b' hb' => hm b' (List.mem_cons_of_mem b hb')) h

theorem utf8_infix_iff {needle text : List Char} : utf8 needle <:+: utf8 text ↔ needle <:+: text := by
  rcases needle with _ | ⟨c, needle⟩
  · simp [utf8]
  induction text with
  | nil => simp [utf8]
  | cons d text ih =>
    rw [List.infix_cons_iff, ← utf8_prefix_iff, ← ih]
    constructor
    · intro h
      obtain ⟨first, bs, hc, hf, -⟩ := utf8EncodeChar_eq_cons c
      obtain ⟨first', more, hd, -, hm⟩ := utf8EncodeChar_eq_cons d
      rw [utf8_cons d, hd, List.cons_append] at h ⊢
      rcases List.infix_cons_iff.1 h with h | h
      · exact .inl h
      · rw [utf8_cons c, hc, List.cons_append] at h ⊢
        exact .inr (infix_of_infix_append hf hm h)
    · rintro (h | h)
      · exact h.isInfix
      · rw [utf8_cons d]
        exact h.trans (List.suffix_append _ _).isInfix

end TagQuery
