import TagQuery.Json.Basic
import TagQuery.Json.Token

/-!
# JSON strings

Between the quotes of a string its code points are spelled one after the other: as the character itself, if it is not a
control character, a quote or a backslash, or by a backslash with a letter or with four digits
(`JsonToken.SpellsCodes`).  The code points stand for characters, each for its own, or two surrogates together for one
(`Encodes`).

A string in any such spelling is read as the characters it stands for (`JsonToken.stringBody_of_spells`,
`joinSurrogates_of_encodes`), and as no text if there are none (`joinSurrogates_eq_none`).  What is written for a text
is a spelling of it (`Json.spells_escaped`).
-/

namespace TagQuery

/-- The code points stand for the characters: each for its own, or two surrogates together for one. -/
inductive Encodes : List Nat → List Char → Prop
  | nil : Encodes [] []
  | own {c : Char} {ns cs} : Encodes ns cs → Encodes (c.toNat :: ns) (c :: cs)
  | pair {high low ns cs} : 0xD800 ≤ high ∧ high < 0xDC00 → 0xDC00 ≤ low ∧ low < 0xE000 → Encodes ns cs →
      Encodes (high :: low :: ns) (Char.ofNat (0x10000 + (high - 0xD800) * 0x400 + (low - 0xDC00)) :: cs)

theorem isHighSurrogate_iff {code : Nat} : isHighSurrogate code = true ↔ 0xD800 ≤ code ∧ code < 0xDC00 := by
  simp [isHighSurrogate]

theorem isLowSurrogate_iff {code : Nat} : isLowSurrogate code = true ↔ 0xDC00 ≤ code ∧ code < 0xE000 := by
  simp [isLowSurrogate]

theorem encodes_self (cs : List Char) : Encodes (cs.map Char.toNat) cs := by
  induction cs with
  | nil => exact .nil
  | cons c cs ih => exact .own ih

private theorem toNat_valid (c : Char) : c.toNat < 0xD800 ∨ 0xDFFF < c.toNat ∧ c.toNat < 0x110000 :=
  c.valid

theorem toNat_lt (c : Char) : c.toNat < 0x110000 := by
  have := toNat_valid c
  omega

theorem not_isSurrogate (c : Char) : isHighSurrogate c.toNat = false ∧ isLowSurrogate c.toNat = false := by
  have := toNat_valid c
  simp only [isHighSurrogate, isLowSurrogate, Bool.and_eq_false_iff, decide_eq_false_iff_not]
  omega

private theorem joinFrom_of_encodes {ns : List Nat} {cs : List Char} (h : Encodes ns cs) :
    ∀ before, joinFrom before ns = some (before.reverse ++ cs) := by
  induction h with
  | nil => intro before; simp [joinFrom]
  | @own c ns cs _ ih =>
    intro before
    obtain ⟨hh, hl⟩ := not_isSurrogate c
    rw [joinFrom.eq_def]
    simp [hh, hl, Char.ofNat_toNat, ih]
  | pair hh hl _ ih =>
    intro before
    rw [joinFrom.eq_def]
    simp [isHighSurrogate_iff.2 hh, isLowSurrogate_iff.2 hl, ih, ofSurrogates]

theorem joinSurrogates_of_encodes {ns : List Nat} {cs : List Char} (h : Encodes ns cs) :
    joinSurrogates ns = some cs :=
  joinFrom_of_encodes h []

private theorem encodes_of_joinFrom {before : List Char} {ns : List Nat} {cs : List Char}
    (hb : ∀ n ∈ ns, n < 0x110000) (h : joinFrom before ns = some cs) :
    ∃ text, Encodes ns text ∧ cs = before.reverse ++ text := by
  fun_induction joinFrom before ns with
  | case1 before => exact ⟨[], .nil, by simpa using h.symm⟩
  | case2 before high hh low rest hl ih =>
    obtain ⟨text, ht, rfl⟩ := ih (fun n hn => hb n (by simp [hn])) h
    exact ⟨_, .pair (isHighSurrogate_iff.1 hh) (isLowSurrogate_iff.1 hl) ht, by simp [ofSurrogates]⟩
  | case3 => cases h
  | case4 => cases h
  | case5 => cases h
  | case6 before code rest hh hl ih =>
    obtain ⟨text, ht, rfl⟩ := ih (fun n hn => hb n (by simp [hn])) h
    have valid : code.isValidChar := by
      have bound := hb code (by simp)
      rw [isHighSurrogate_iff] at hh
      rw [isLowSurrogate_iff] at hl
      simp only [Nat.isValidChar]
      omega
    have own : (Char.ofNat code).toNat = code := by
      rw [Char.ofNat, dif_pos valid]
      rfl
    have hn := Encodes.own (c := Char.ofNat code) ht
    rw [own] at hn
    exact ⟨_, hn, by simp⟩

theorem joinSurrogates_eq_none {ns : List Nat} (hb : ∀ n ∈ ns, n < 0x110000) (h : ∀ cs, ¬ Encodes ns cs) :
    joinSurrogates ns = none := by
  refine Option.eq_none_iff_forall_ne_some.2 fun cs hcs => ?_
  obtain ⟨text, ht, -⟩ := encodes_of_joinFrom hb hcs
  exact h text ht

namespace JsonToken

/-- The letters that stand for a character after a backslash. -/
def escapes : List (Char × Char) :=
  [('"', '"'), ('\\', '\\'), ('/', '/'), ('b', '\x08'), ('f', '\x0c'), ('n', '\n'), ('r', '\r'), ('t', '\t')]

/-- The digits to the base of sixteen, with their values. -/
def hexDigits : List (Char × Nat) :=
  "0123456789abcdef".toList.zipIdx ++ "0123456789ABCDEF".toList.zipIdx

/-- The characters spell the code point. -/
inductive SpellsCode : List Char → Nat → Prop
  | plain {c : Char} : c ≠ '"' → c ≠ '\\' → 0x20 ≤ c.toNat → SpellsCode [c] c.toNat
  | short {letter c : Char} : (letter, c) ∈ escapes → SpellsCode ['\\', letter] c.toNat
  | digits {a b c d : Char} {i j k l : Nat} : (a, i) ∈ hexDigits → (b, j) ∈ hexDigits → (c, k) ∈ hexDigits →
      (d, l) ∈ hexDigits → SpellsCode ['\\', 'u', a, b, c, d] (((i * 16 + j) * 16 + k) * 16 + l)

/-- The characters spell the code points one after the other. -/
inductive SpellsCodes : List Char → List Nat → Prop
  | nil : SpellsCodes [] []
  | cons {cs n cs' ns} : SpellsCode cs n → SpellsCodes cs' ns → SpellsCodes (cs ++ cs') (n :: ns)

theorem unescaped?_of_mem {letter c : Char} (h : (letter, c) ∈ escapes) :
    letter ≠ 'u' ∧ unescaped? letter = some c := by
  have all : escapes.all (fun e => e.1 != 'u' && unescaped? e.1 == some e.2) = true := by decide
  simpa using List.all_eq_true.1 all _ h

theorem hexDigit?_of_mem : ∀ e ∈ hexDigits, hexDigit? e.1 = some e.2 ∧ e.2 < 16 := by
  decide +kernel

theorem digitChar_mem : ∀ n < 16, (Nat.digitChar n, n) ∈ hexDigits := by
  decide +kernel

theorem stringBody_of_spellsCode {cs : List Char} {n : Nat} (h : SpellsCode cs n) (before : List Nat)
    (rest : List Char) : stringBody before (cs ++ rest) = stringBody (n :: before) rest := by
  cases h with
  | plain hq hb hc =>
    rw [List.singleton_append, stringBody]
    · rw [if_neg (not_or.2 ⟨hb, Nat.not_lt.2 hc⟩)]
    all_goals simp_all
  | short h =>
    obtain ⟨hu, he⟩ := unescaped?_of_mem h
    rw [List.cons_append, List.singleton_append, stringBody]
    · rw [he]
    · exact fun _ _ _ _ _ hl _ => hu hl
  | @digits a b c d i j k l ha hb hc hd =>
    have code : hexCode? a b c d = some (((i * 16 + j) * 16 + k) * 16 + l) := by
      simp [hexCode?, (hexDigit?_of_mem _ ha).1, (hexDigit?_of_mem _ hb).1, (hexDigit?_of_mem _ hc).1,
        (hexDigit?_of_mem _ hd).1]
    simp [stringBody, code]

theorem stringBody_of_spells {cs : List Char} {ns : List Nat} (h : SpellsCodes cs ns) (rest : List Char) :
    ∀ before, stringBody before (cs ++ '"' :: rest) = some (before.reverse ++ ns, rest) := by
  induction h with
  | nil => intro before; simp [stringBody]
  | cons hc _ ih =>
    intro before
    rw [List.append_assoc, stringBody_of_spellsCode hc, ih]
    simp

theorem SpellsCode.lt {cs : List Char} {n : Nat} (h : SpellsCode cs n) : n < 0x110000 := by
  cases h with
  | plain => exact toNat_lt _
  | short => exact toNat_lt _
  | digits ha hb hc hd =>
    have := (hexDigit?_of_mem _ ha).2
    have := (hexDigit?_of_mem _ hb).2
    have := (hexDigit?_of_mem _ hc).2
    have := (hexDigit?_of_mem _ hd).2
    omega

theorem SpellsCodes.lt {cs : List Char} {ns : List Nat} (h : SpellsCodes cs ns) : ∀ n ∈ ns, n < 0x110000 := by
  induction h with
  | nil => simp
  | cons hc _ ih => exact List.forall_mem_cons.2 ⟨hc.lt, ih⟩

end JsonToken

namespace Json

open JsonToken

theorem spellsCode_escapedChar (c : Char) : SpellsCode (escapedChar c) c.toNat := by
  unfold escapedChar
  split
  case h_8 hq hb _ _ _ _ _ =>
    split
    · next hc =>
      have zero := digitChar_mem 0 (by decide)
      have code := SpellsCode.digits zero zero (digitChar_mem (c.toNat / 16) (by omega))
        (digitChar_mem (c.toNat % 16) (by omega))
      rwa [show ((0 * 16 + 0) * 16 + c.toNat / 16) * 16 + c.toNat % 16 = c.toNat by omega] at code
    · next hc => exact .plain hq hb (Nat.not_lt.1 hc)
  all_goals exact .short (by decide)

theorem spells_escaped (cs : List Char) : SpellsCodes (cs.flatMap escapedChar) (cs.map Char.toNat) := by
  induction cs with
  | nil => exact .nil
  | cons c cs ih => exact .cons (spellsCode_escapedChar c) ih

end Json

end TagQuery
