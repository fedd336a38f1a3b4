import Mathlib.Data.List.TakeWhile
import TagQuery.Proofs.StringLiterals

/-!
# The spelling of JSON tokens

What a token may look like (`JsonToken.Spells`): a mark, the name of a constant, a number, a string.  A text spells
tokens if they stand in it one after the other, with white space where one likes (`JsonToken.SpellsAll`).  Cut into
tokens, a text gives those that it spells (`JsonToken.ofChars?_of_spellsAll`).
-/

namespace TagQuery

namespace JsonToken

/-- No character of the kind comes first. -/
def Stops (p : Char → Bool) (cs : List Char) : Prop :=
  ∀ c ∈ cs.head?, p c = false

theorem takeWhile_append {p : Char → Bool} {cs rest : List Char} (h : cs.all p = true) (hr : Stops p rest) :
    (cs ++ rest).takeWhile p = cs := by
  rw [List.takeWhile_append_of_pos (List.all_eq_true.1 h)]
  cases rest with
  | nil => simp
  | cons c rest => rw [List.takeWhile_cons_of_neg (Bool.eq_false_iff.1 (hr c rfl)), List.append_nil]

theorem dropWhile_append {p : Char → Bool} {cs rest : List Char} (h : cs.all p = true) (hr : Stops p rest) :
    (cs ++ rest).dropWhile p = rest := by
  rw [List.dropWhile_append_of_pos (List.all_eq_true.1 h)]
  cases rest with
  | nil => rfl
  | cons c rest => exact List.dropWhile_cons_of_neg (Bool.eq_false_iff.1 (hr c rfl))

/-! ### Numbers -/

/-- An integer has no leading zero. -/
inductive SpellsInteger : List Char → Prop
  | zero : SpellsInteger ['0']
  | digits {c cs} : c.isDigit = true → c ≠ '0' → cs.all Char.isDigit = true → SpellsInteger (c :: cs)

inductive SpellsFraction : List Char → Prop
  | none : SpellsFraction []
  | digits {c cs} : c.isDigit = true → cs.all Char.isDigit = true → SpellsFraction ('.' :: c :: cs)

inductive SpellsExponent : List Char → Prop
  | none : SpellsExponent []
  | digits {e c cs} : e = 'e' ∨ e = 'E' → c.isDigit = true → cs.all Char.isDigit = true →
      SpellsExponent (e :: c :: cs)
  | signed {e sign c cs} : e = 'e' ∨ e = 'E' → sign = '+' ∨ sign = '-' → c.isDigit = true →
      cs.all Char.isDigit = true → SpellsExponent (e :: sign :: c :: cs)

/-- A number is an integer, possibly negative, with a fraction and an exponent, which both may be missing. -/
inductive SpellsNumber : List Char → Prop
  | positive {int frac exp} : SpellsInteger int → SpellsFraction frac → SpellsExponent exp →
      SpellsNumber (int ++ (frac ++ exp))
  | negative {int frac exp} : SpellsInteger int → SpellsFraction frac → SpellsExponent exp →
      SpellsNumber ('-' :: (int ++ (frac ++ exp)))

theorem isDigit_eq : isDigit = Char.isDigit := rfl

theorem ne_of_isDigit {c d : Char} (h : c.isDigit = true) (hd : d.isDigit = false) : c ≠ d := by
  rintro rfl
  rw [h] at hd
  cases hd

theorem SpellsExponent.isExponent {exp : List Char} (h : SpellsExponent exp) : isExponent exp = true := by
  cases h with
  | none => rfl
  | digits he hc hd =>
    rw [JsonToken.isExponent, isDigit_eq]
    · simp_all
    · intro ds h
      exact ne_of_isDigit hc (by decide) (List.cons.inj h).1
    · intro ds h
      exact ne_of_isDigit hc (by decide) (List.cons.inj h).1
  | signed he hs hc hd =>
    rcases hs with rfl | rfl <;> simp_all [JsonToken.isExponent, isDigit_eq]

theorem SpellsExponent.stops {exp : List Char} (h : SpellsExponent exp) : Stops Char.isDigit exp := by
  cases h with
  | none => simp [Stops]
  | digits he => rcases he with rfl | rfl <;> simp [Stops]
  | signed he => rcases he with rfl | rfl <;> simp [Stops]

theorem SpellsExponent.isFraction {exp : List Char} (h : SpellsExponent exp) : isFraction exp = true := by
  rw [JsonToken.isFraction]
  · exact h.isExponent
  · rintro c rest rfl
    cases h with
    | digits he => exact absurd he (by decide)
    | signed he => exact absurd he (by decide)

theorem SpellsFraction.isFraction {frac exp : List Char} (h : SpellsFraction frac) (he : SpellsExponent exp) :
    isFraction (frac ++ exp) = true := by
  cases h with
  | none => exact he.isFraction
  | digits hc hd =>
    rw [List.cons_append, List.cons_append, JsonToken.isFraction, isDigit_eq, hc, dropWhile_append hd he.stops, he.isExponent]
    rfl

theorem SpellsFraction.stops {frac exp : List Char} (h : SpellsFraction frac) (he : SpellsExponent exp) :
    Stops Char.isDigit (frac ++ exp) := by
  cases h with
  | none => exact he.stops
  | digits => simp [Stops]

theorem SpellsInteger.isMagnitude {int rest : List Char} (h : SpellsInteger int) (hs : Stops Char.isDigit rest)
    (hf : isFraction rest = true) : isMagnitude (int ++ rest) = true := by
  cases h with
  | zero => exact hf
  | digits hc hz hd =>
    rw [List.cons_append, JsonToken.isMagnitude, isDigit_eq, dropWhile_append hd hs, hc, hf, Bool.and_self]
    exact hz

theorem SpellsNumber.isNumber {cs : List Char} (h : SpellsNumber cs) : isNumber cs = true := by
  cases h with
  | positive hi hf he =>
    have magnitude := hi.isMagnitude (hf.stops he) (hf.isFraction he)
    rw [JsonToken.isNumber]
    · exact magnitude
    · intro rest h
      cases hi with
      | zero => cases h
      | digits hc => exact ne_of_isDigit hc (by decide) (List.cons.inj h).1
  | negative hi hf he => exact hi.isMagnitude (hf.stops he) (hf.isFraction he)

/-! ### Runs of bare characters -/

theorem isBare_of_isDigit {c : Char} (h : c.isDigit = true) : isBare c = true := by
  simp [isBare, Char.isAlphanum, h]

theorem bare_of_digits {cs : List Char} (h : cs.all Char.isDigit = true) : cs.all isBare = true :=
  List.all_eq_true.2 fun c hc => isBare_of_isDigit (List.all_eq_true.1 h c hc)

theorem SpellsInteger.bare {int : List Char} (h : SpellsInteger int) : int.all isBare = true := by
  cases h with
  | zero => decide
  | digits hc _ hd => simp [isBare_of_isDigit hc, bare_of_digits hd]

theorem SpellsFraction.bare {frac : List Char} (h : SpellsFraction frac) : frac.all isBare = true := by
  cases h with
  | none => rfl
  | digits hc hd => simp [isBare_of_isDigit hc, bare_of_digits hd, (by decide : isBare '.' = true)]

theorem SpellsExponent.bare {exp : List Char} (h : SpellsExponent exp) : exp.all isBare = true := by
  have mark : ∀ e, e = 'e' ∨ e = 'E' → isBare e = true := by
    rintro e (rfl | rfl) <;> decide
  have sign : ∀ s, s = '+' ∨ s = '-' → isBare s = true := by
    rintro s (rfl | rfl) <;> decide
  cases h with
  | none => rfl
  | digits he hc hd => simp [isBare_of_isDigit hc, bare_of_digits hd, mark _ he]
  | signed he hs hc hd => simp [isBare_of_isDigit hc, bare_of_digits hd, mark _ he, sign _ hs]

theorem SpellsNumber.bare {cs : List Char} (h : SpellsNumber cs) : cs.all isBare = true := by
  cases h with
  | positive hi hf he => simp [List.all_append, hi.bare, hf.bare, he.bare]
  | negative hi hf he => simp [List.all_append, hi.bare, hf.bare, he.bare, (by decide : isBare '-' = true)]

theorem ofBare?_number {cs : List Char} (h : SpellsNumber cs) : ofBare? cs = some (.num (String.ofList cs)) := by
  have number := h.isNumber
  have name : ∀ run, JsonToken.isNumber run = false → cs ≠ run := by
    rintro run hn rfl
    rw [number] at hn
    cases hn
  rw [ofBare?, if_neg (name _ (by decide)), if_neg (name _ (by decide)), if_neg (name _ (by decide)), if_pos number]

/-! ### Texts -/

def whiteSpace : List Char := [' ', '\t', '\n', '\r']

def marks : List (Char × JsonToken) :=
  [('[', .beginArray), (']', .endArray), ('{', .beginObject), ('}', .endObject), (':', .colon), (',', .comma)]

/-- The characters spell the token. -/
inductive Spells : List Char → JsonToken → Prop
  | mark {c t} : (c, t) ∈ marks → Spells [c] t
  | null : Spells ['n', 'u', 'l', 'l'] .null
  | yes : Spells ['t', 'r', 'u', 'e'] (.bool true)
  | no : Spells ['f', 'a', 'l', 's', 'e'] (.bool false)
  | num {cs} : SpellsNumber cs → Spells cs (.num (String.ofList cs))
  | str {cs ns text} : SpellsCodes cs ns → Encodes ns text →
      Spells ('"' :: (cs ++ ['"'])) (.str (some (String.ofList text)))
  | noText {cs ns} : SpellsCodes cs ns → (∀ text, ¬ Encodes ns text) → Spells ('"' :: (cs ++ ['"'])) (.str none)

/-- The token is a number or the name of a constant. -/
def isBareToken : JsonToken → Bool
  | .null | .bool _ | .num _ => true
  | _ => false

/-- White space, a mark or nothing comes next. -/
def Ends (rest : List Char) : Prop :=
  ∀ c ∈ rest.head?, c ∈ whiteSpace ∨ c ∈ marks.map Prod.fst

/-- The characters spell the tokens one after the other, with white space where one likes.  A number or the name of a
constant is not followed by another one at once. -/
inductive SpellsAll : List Char → List JsonToken → Prop
  | nil : SpellsAll [] []
  | space {c cs ts} : c ∈ whiteSpace → SpellsAll cs ts → SpellsAll (c :: cs) ts
  | token {cs t rest ts} : Spells cs t → (t.isBareToken = true → Ends rest) → SpellsAll rest ts →
      SpellsAll (cs ++ rest) (t :: ts)

theorem isSpace_iff {c : Char} : isSpace c = true ↔ c ∈ whiteSpace := by
  simp [isSpace, whiteSpace, or_assoc]

theorem mark_of_mem : ∀ m ∈ marks, ofMark? m.1 = some m.2 ∧ isSpace m.1 = false ∧ m.1 ≠ '"' ∧
    m.2.isBareToken = false := by
  decide

theorem mem_of_ofMark? {c : Char} {t : JsonToken} (h : ofMark? c = some t) : (c, t) ∈ marks := by
  unfold ofMark? at h
  split at h <;> cases h <;> decide

theorem isBare_eq_false {c : Char} (h : c ∈ whiteSpace ∨ c ∈ marks.map Prod.fst) : isBare c = false := by
  have all : (whiteSpace ++ marks.map Prod.fst).all (fun c => !isBare c) = true := by decide
  simpa using List.all_eq_true.1 all c (List.mem_append.2 h)

theorem Ends.stops {rest : List Char} (h : Ends rest) : Stops isBare rest :=
  fun c hc => isBare_eq_false (h c hc)

theorem SpellsAll.mark {c : Char} {t : JsonToken} {cs : List Char} {ts : List JsonToken} (h : (c, t) ∈ marks)
    (hs : SpellsAll cs ts) : SpellsAll (c :: cs) (t :: ts) := by
  obtain ⟨-, -, -, noBare⟩ := mark_of_mem _ h
  exact @SpellsAll.token [c] t cs ts (.mark h) (fun ht => absurd (noBare.symm.trans ht) Bool.false_ne_true) hs

theorem scan_space (before : List JsonToken) {c : Char} (h : c ∈ whiteSpace) (rest : List Char) :
    scan before (c :: rest) = scan before rest := by
  rw [scan, if_pos (isSpace_iff.2 h)]

theorem scan_mark (before : List JsonToken) {c : Char} {t : JsonToken} (h : (c, t) ∈ marks) (rest : List Char) :
    scan before (c :: rest) = scan (t :: before) rest := by
  obtain ⟨mark, noSpace, noQuote, -⟩ := mark_of_mem _ h
  rw [scan, if_neg (Bool.eq_false_iff.1 noSpace), if_neg noQuote, mark]

theorem scan_bare (before : List JsonToken) {cs rest : List Char} {t : JsonToken} (ht : ofBare? cs = some t)
    (h : cs.all isBare = true) (hr : Ends rest) : scan before (cs ++ rest) = scan (t :: before) rest := by
  cases cs with
  | nil => cases ht
  | cons c run =>
    obtain ⟨hc, hrun⟩ : isBare c = true ∧ run.all isBare = true := by simpa using h
    -- the first character decides what is scanned, and no other way is open for it
    have other : ¬ (c ∈ whiteSpace ∨ c ∈ marks.map Prod.fst) := by
      intro h
      rw [isBare_eq_false h] at hc
      cases hc
    have noSpace : ¬ isSpace c = true := fun h => other (.inl (isSpace_iff.1 h))
    have noQuote : c ≠ '"' := by
      rintro rfl
      exact absurd hc (by decide)
    have noMark : ofMark? c = none :=
      Option.eq_none_iff_forall_ne_some.2 fun t h => other (.inr (List.mem_map_of_mem (mem_of_ofMark? h)))
    rw [List.cons_append, scan, if_neg noSpace, if_neg noQuote, noMark, takeWhile_append hrun hr.stops,
      dropWhile_append hrun hr.stops, ht]

theorem scan_string (before : List JsonToken) {cs : List Char} {ns : List Nat} (h : SpellsCodes cs ns)
    (rest : List Char) : scan before ('"' :: (cs ++ ['"']) ++ rest) =
      scan (.str ((joinSurrogates ns).map String.ofList) :: before) rest := by
  have body := stringBody_of_spells h rest []
  rw [List.cons_append, List.append_assoc, List.singleton_append, scan, if_neg (by decide), if_pos rfl]
  split
  · next codes after hb =>
    cases hb.symm.trans body
    rfl
  · next hb => cases hb.symm.trans body

theorem scan_of_spells {cs : List Char} {t : JsonToken} (h : Spells cs t) (before : List JsonToken)
    {rest : List Char} (hr : t.isBareToken = true → Ends rest) :
    scan before (cs ++ rest) = scan (t :: before) rest := by
  cases h with
  | mark h => exact scan_mark before h rest
  | null => exact scan_bare before rfl (by decide) (hr rfl)
  | yes => exact scan_bare before rfl (by decide) (hr rfl)
  | no => exact scan_bare before rfl (by decide) (hr rfl)
  | num h => exact scan_bare before (ofBare?_number h) h.bare (hr rfl)
  | str h he => rw [scan_string before h, joinSurrogates_of_encodes he]; rfl
  | noText h hn => rw [scan_string before h, joinSurrogates_eq_none h.lt hn]; rfl

theorem scan_of_spellsAll {cs : List Char} {ts : List JsonToken} (h : SpellsAll cs ts) :
    ∀ before, scan before cs = some (before.reverse ++ ts) := by
  induction h with
  | nil => intro before; simp [scan]
  | space hc _ ih => intro before; rw [scan_space before hc, ih]
  | token ht hr _ ih =>
    intro before
    rw [scan_of_spells ht before hr, ih]
    simp

theorem ofChars?_of_spellsAll {cs : List Char} {ts : List JsonToken} (h : SpellsAll cs ts) : ofChars? cs = some ts :=
  scan_of_spellsAll h []

end JsonToken

end TagQuery
