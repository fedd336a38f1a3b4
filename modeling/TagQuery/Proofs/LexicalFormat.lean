import TagQuery.Proofs.Scanning

/-!
# The lexical format

How the text of a query is laid out.  A text in which no escape and no quote is wrong is a row of parts (`Layout`):
spaces, operators and words, and between two words stands a space.  A word is written in pieces, each a letter or a
quotation, and a letter stands for itself or behind a backslash.

A scan has nothing to report exactly if the text is the text of a layout, and it then finds the lexemes of the layout
where they begin (`ofChars_layout`).  What else it can report is told by the backslash at the end of the text and by
the number of quotes that are not escaped; apart from that such a text is scanned like the layout that it becomes
without the last backslash and with the quotation closed.
-/

namespace TagQuery

/-! ### Layouts -/

/-- How a letter is written where the characters that are `bare` stand for themselves. -/
inductive Letter (bare : Char → Bool)
  | plain (c : Char) (h : bare c = true)
  | escaped (c : Char)

namespace Letter

variable {bare : Char → Bool}

def chars : Letter bare → List Char
  | plain c _ => [c]
  | escaped c => ['\\', c]

def value : Letter bare → Char
  | plain c _ | escaped c => c

end Letter

/-- Whether a character stands for itself outside quotations. -/
def isBare (c : Char) : Bool :=
  !isSpecial c

/-- Whether a character stands for itself in a quotation. -/
def isQuotable (c : Char) : Bool :=
  c != '"' && c != '\\'

inductive Piece
  | letter (l : Letter isBare)
  | quotation (body : List (Letter isQuotable))

namespace Piece

def chars : Piece → List Char
  | letter l => l.chars
  | quotation body => '"' :: (body.flatMap Letter.chars ++ ['"'])

def value : Piece → List Char
  | letter l => [l.value]
  | quotation body => body.map Letter.value

end Piece

inductive Part
  | space
  | operator (l : Lexeme) (h : l.isOperator = true)
  | word (first : Piece) (more : List Piece)

namespace Part

def chars : Part → List Char
  | space => [' ']
  | operator l _ => l.chars
  | word first more => (first :: more).flatMap Piece.chars

/-- A space is no lexeme, nor is a word without letters. -/
def lexeme? : Part → Option Lexeme
  | space => none
  | operator l _ => some l
  | word first more =>
    match (first :: more).flatMap Piece.value with
    | [] => none
    | letters => some (.word (String.ofList letters))

def isWord : Part → Bool
  | word _ _ => true
  | space | operator _ _ => false

end Part

/-- No two words stand side by side. -/
def Separated : List Part → Prop
  | x :: y :: parts => (x.isWord = true → y.isWord = false) ∧ Separated (y :: parts)
  | _ => True

theorem separated_cons_iff {x : Part} {parts : List Part} : Separated (x :: parts) ↔
    (x.isWord = true → ∀ y ∈ parts.head?, y.isWord = false) ∧ Separated parts := by
  cases parts <;> simp [Separated]

/-- The lexemes of parts that begin at `position`, each where its part begins. -/
def tokensOf (position : Nat) : List Part → List Token
  | [] => []
  | x :: parts => (x.lexeme?.map (⟨·, position⟩)).toList ++ tokensOf (position + x.chars.length) parts

/-- A text that is written as the format wants it. -/
structure Layout where
  parts : List Part
  separated : Separated parts

namespace Layout

def chars (f : Layout) : List Char :=
  f.parts.flatMap Part.chars

def tokens (f : Layout) : List Token :=
  tokensOf 0 f.parts

end Layout

/-! ### What is wrong with other texts -/

/-- Whether the characters before, the nearest first, escape the one that comes next: a backslash stands there that is
not itself escaped. -/
def escapes : (before : List Char) → Bool
  | '\\' :: before => !escapes before
  | _ => false

/-- The positions of the quotes that are not escaped, of which the nearest comes first. -/
def quotes : (before : List Char) → List Nat
  | [] => []
  | c :: before => if c = '"' ∧ escapes before = false then before.length :: quotes before else quotes before

/-- The position of the quote that opened the quotation in force.  If the number of quotes is odd, it is the last. -/
def openQuote (before : List Char) : Option Nat :=
  if (quotes before).length % 2 = 1 then (quotes before).head? else none

/-- What is wrong with the escapes and quotes of a text: a last backslash that escapes nothing, and a quotation that is
still open at the end. -/
def misspellings (text : List Char) : List Diagnostic :=
  (if escapes text.reverse then [⟨.trailingEscape, text.length - 1⟩] else []) ++
    ((openQuote text.reverse).map (⟨.unterminatedQuote, ·⟩)).toList

/-- The text without a last backslash that escapes nothing, and with the quotation closed. -/
def respelled (text : List Char) : List Char :=
  (if escapes text.reverse then text.dropLast else text) ++ if (openQuote text.reverse).isSome then ['"'] else []

/-! ### Scanning a layout -/

theorem length_chars_of_isOperator {l : Lexeme} (hl : l.isOperator = true) : l.chars.length = 1 := by
  cases l with
  | word w => cases hl
  | opening | closing | not | or => rfl

namespace Scan

variable (tokens : List Token)

theorem endWord_quote (s : Scan) : s.endWord.quote = s.quote := by
  obtain ⟨tokens, _ | ⟨start, _ | ⟨c, letters⟩⟩, quote⟩ := s <;> rfl

theorem plain_quote (s : Scan) (position : Nat) (c : Char) : (s.plain position c).quote = s.quote := by
  unfold plain
  split <;> first | rfl | exact endWord_quote s

/-- A letter is read as what it stands for, where a bare character is. -/
theorem run_letter {bare : Char → Bool} {s : Scan} {position : Nat} {rest : List Char}
    (reads : ∀ c, bare c = true → s.run position (c :: rest) = (s.letter position c).run (position + 1) rest)
    (l : Letter bare) :
    s.run position (l.chars ++ rest) = (s.letter position l.value).run (position + l.chars.length) rest := by
  cases l with
  | plain c h => exact reads c h
  | escaped c => rfl

theorem run_letter_bare {s : Scan} (hs : s.quote = none) (position : Nat) (l : Letter isBare) (rest : List Char) :
    s.run position (l.chars ++ rest) = (s.letter position l.value).run (position + l.chars.length) rest :=
  run_letter (fun c hc => run_bare hs position (by simpa [isBare] using hc) rest) l

theorem run_letter_quotable {s : Scan} (hs : s.quote.isSome = true) (position : Nat) (l : Letter isQuotable)
    (rest : List Char) :
    s.run position (l.chars ++ rest) = (s.letter position l.value).run (position + l.chars.length) rest := by
  refine run_letter (fun c hc => ?_) l
  obtain ⟨hq, he⟩ : c ≠ '"' ∧ c ≠ '\\' := by simpa [isQuotable] using hc
  rw [run_cons rest he hq, if_pos hs]

theorem run_body (start quote : Nat) (letters : List Char) (position : Nat) (body : List (Letter isQuotable))
    (rest : List Char) :
    (⟨tokens, some ⟨start, letters⟩, some quote⟩ : Scan).run position (body.flatMap Letter.chars ++ rest) =
      (⟨tokens, some ⟨start, (body.map Letter.value).reverse ++ letters⟩, some quote⟩ : Scan).run
        (position + (body.flatMap Letter.chars).length) rest := by
  induction body generalizing letters position with
  | nil => rfl
  | cons l body ih =>
    rw [List.flatMap_cons, List.append_assoc, run_letter_quotable rfl]
    refine (ih (l.value :: letters) _).trans ?_
    rw [List.map_cons, List.reverse_cons, List.append_assoc, List.length_append, Nat.add_assoc]
    rfl

theorem run_piece (start : Nat) (letters : List Char) (position : Nat) (x : Piece) (rest : List Char) :
    (⟨tokens, some ⟨start, letters⟩, none⟩ : Scan).run position (x.chars ++ rest) =
      (⟨tokens, some ⟨start, x.value.reverse ++ letters⟩, none⟩ : Scan).run (position + x.chars.length) rest := by
  cases x with
  | letter l =>
    rw [Piece.chars, run_letter_bare rfl]
    rfl
  | quotation body =>
    rw [Piece.chars, List.cons_append, List.append_assoc, run]
    refine (run_body tokens start position letters (position + 1) body ('"' :: rest)).trans ?_
    rw [run, List.length_cons, List.length_append, List.length_singleton]
    have hp : position + 1 + (body.flatMap Letter.chars).length + 1 =
        position + ((body.flatMap Letter.chars).length + 1 + 1) := by
      omega
    rw [hp]
    rfl

theorem run_pieces (start : Nat) (letters : List Char) (position : Nat) (xs : List Piece) (rest : List Char) :
    (⟨tokens, some ⟨start, letters⟩, none⟩ : Scan).run position (xs.flatMap Piece.chars ++ rest) =
      (⟨tokens, some ⟨start, (xs.flatMap Piece.value).reverse ++ letters⟩, none⟩ : Scan).run
        (position + (xs.flatMap Piece.chars).length) rest := by
  induction xs generalizing letters position with
  | nil => rfl
  | cons x xs ih =>
    rw [List.flatMap_cons, List.append_assoc, run_piece, ih, List.flatMap_cons, List.reverse_append,
      List.append_assoc, List.length_append, Nat.add_assoc]

/-- A piece begins a word where it stands. -/
theorem run_first_piece (position : Nat) (x : Piece) (rest : List Char) :
    (⟨tokens, none, none⟩ : Scan).run position (x.chars ++ rest) =
      (⟨tokens, some ⟨position, []⟩, none⟩ : Scan).run position (x.chars ++ rest) := by
  cases x with
  | letter l =>
    rw [Piece.chars, run_letter_bare rfl, run_letter_bare rfl]
    rfl
  | quotation body =>
    rw [Piece.chars, List.cons_append, run, run]
    rfl

theorem endWord_endWord (s : Scan) : s.endWord.endWord = s.endWord := by
  obtain ⟨tokens, _ | ⟨start, _ | ⟨c, letters⟩⟩, quote⟩ := s <;> rfl

/-- Parts that do not begin with a word end the one before them. -/
theorem run_endWord {parts : List Part} (h : ∀ x ∈ parts.head?, x.isWord = false) {s : Scan} (hq : s.quote = none)
    (position : Nat) :
    s.run position (parts.flatMap Part.chars) = s.endWord.run position (parts.flatMap Part.chars) := by
  have hq' : s.endWord.quote = none := (endWord_quote s).trans hq
  cases parts with
  | nil =>
    show s.finish [] = s.endWord.finish []
    rw [finish, finish, endWord_endWord, hq, hq']
  | cons x parts =>
    rw [List.flatMap_cons]
    cases x with
    | space =>
      rw [Part.chars, List.singleton_append, run_cons _ (by decide) (by decide),
        run_cons _ (by decide) (by decide), hq, hq']
      show s.endWord.run _ _ = s.endWord.endWord.run _ _
      rw [endWord_endWord]
    | operator l hl => rw [Part.chars, run_operator hq _ hl, run_operator hq' _ hl, mark, mark, endWord_endWord]
    | word first more => exact absurd (h _ rfl) (by simp [Part.isWord])

theorem endWord_word (position : Nat) (first : Piece) (more : List Piece) :
    (⟨tokens, some ⟨position, ((first :: more).flatMap Piece.value).reverse⟩, none⟩ : Scan).endWord =
      ⟨((Part.word first more).lexeme?.map (⟨·, position⟩)).toList ++ tokens, none, none⟩ := by
  rw [Part.lexeme?]
  split
  · rename_i h
    rw [h]
    rfl
  · rename_i h
    rw [endWord_letters _ (mt List.reverse_eq_nil_iff.1 h), List.reverse_reverse]
    rfl

theorem run_parts (position : Nat) (parts : List Part) (h : Separated parts) :
    (⟨tokens, none, none⟩ : Scan).run position (parts.flatMap Part.chars) =
      ⟨tokens.reverse ++ tokensOf position parts, []⟩ := by
  induction parts generalizing tokens position with
  | nil =>
    rw [tokensOf, List.append_nil]
    rfl
  | cons x parts ih =>
    obtain ⟨hx, hs⟩ := separated_cons_iff.1 h
    rw [List.flatMap_cons, tokensOf]
    cases x with
    | space =>
      rw [Part.chars, List.singleton_append, run_cons _ (by decide) (by decide)]
      exact ih tokens (position + 1) hs
    | operator l hl =>
      rw [Part.chars, run_operator rfl _ hl, length_chars_of_isOperator hl]
      refine (ih (⟨l, position⟩ :: tokens) _ hs).trans ?_
      rw [List.reverse_cons, List.append_assoc]
      rfl
    | word first more =>
      have hw : (⟨tokens, none, none⟩ : Scan).run position
          ((Part.word first more).chars ++ parts.flatMap Part.chars) =
          (⟨tokens, some ⟨position, ((first :: more).flatMap Piece.value).reverse⟩, none⟩ : Scan).run
            (position + (Part.word first more).chars.length) (parts.flatMap Part.chars) := by
        rw [Part.chars, List.flatMap_cons, List.append_assoc, run_first_piece, ← List.append_assoc,
          ← List.flatMap_cons, run_pieces, List.append_nil]
      rw [hw, run_endWord (hx rfl) rfl, endWord_word, ih _ _ hs, List.reverse_append, List.append_assoc]
      cases (Part.word first more).lexeme? <;> rfl

end Scan

theorem Layout.ofChars_chars (f : Layout) : Tokens.ofChars f.chars = ⟨f.tokens, []⟩ :=
  Scan.run_parts [] 0 f.parts f.separated

/-! ### Laying out a text -/

/-- The text can go on from within a word: pieces of the word, and then parts. -/
def GoesOn (text : List Char) : Prop :=
  ∃ (xs : List Piece) (parts : List Part), Separated parts ∧ (∀ y ∈ parts.head?, y.isWord = false) ∧
    text = xs.flatMap Piece.chars ++ parts.flatMap Part.chars

/-- The text can go on from within a quotation. -/
def GoesOnQuoted (text : List Char) : Prop :=
  ∃ (body : List (Letter isQuotable)) (rest : List Char), text = body.flatMap Letter.chars ++ '"' :: rest ∧ GoesOn rest

namespace GoesOn

variable {text : List Char}

theorem nil : GoesOn [] :=
  ⟨[], [], trivial, nofun, rfl⟩

theorem piece (h : GoesOn text) (x : Piece) : GoesOn (x.chars ++ text) := by
  obtain ⟨xs, parts, hs, hh, rfl⟩ := h
  exact ⟨x :: xs, parts, hs, hh, by rw [List.flatMap_cons, List.append_assoc]⟩

theorem exists_layout (h : GoesOn text) : ∃ f : Layout, f.chars = text := by
  obtain ⟨xs, parts, hs, hh, rfl⟩ := h
  cases xs with
  | nil => exact ⟨⟨parts, hs⟩, rfl⟩
  | cons x xs => exact ⟨⟨.word x xs :: parts, separated_cons_iff.2 ⟨fun _ => hh, hs⟩⟩, rfl⟩

/-- A part that is no word ends the word. -/
theorem part (h : GoesOn text) {x : Part} (hx : x.isWord = false) : GoesOn (x.chars ++ text) := by
  obtain ⟨⟨parts, hs⟩, rfl⟩ := h.exists_layout
  refine ⟨[], x :: parts, separated_cons_iff.2 ⟨fun hw => ?_, hs⟩, ?_, rfl⟩
  · rw [hx] at hw
    cases hw
  · rintro _ ⟨⟩
    exact hx

end GoesOn

namespace GoesOnQuoted

variable {text : List Char}

theorem letter (h : GoesOnQuoted text) (l : Letter isQuotable) : GoesOnQuoted (l.chars ++ text) := by
  obtain ⟨body, rest, rfl, hr⟩ := h
  exact ⟨l :: body, rest, by rw [List.flatMap_cons, List.append_assoc], hr⟩

theorem quotation (h : GoesOnQuoted text) : GoesOn ('"' :: text) := by
  obtain ⟨body, rest, rfl, hr⟩ := h
  have hp := hr.piece (.quotation body)
  rw [Piece.chars, List.cons_append, List.append_assoc] at hp
  exact hp

end GoesOnQuoted

/-- A character that is not a letter of a word by itself is a part. -/
theorem exists_part {c : Char} (h : isBare c = false) (he : c ≠ '\\') (hq : c ≠ '"') :
    ∃ x : Part, x.isWord = false ∧ x.chars = [c] := by
  have hs : isSpecial c = true := by simpa [isBare] using h
  have hc : c = ' ' ∨ c = '(' ∨ c = ')' ∨ c = '!' ∨ c = '|' := by
    simpa [isSpecial, he, hq, or_assoc] using hs
  rcases hc with rfl | rfl | rfl | rfl | rfl
  · exact ⟨.space, rfl, rfl⟩
  · exact ⟨.operator .opening rfl, rfl, rfl⟩
  · exact ⟨.operator .closing rfl, rfl, rfl⟩
  · exact ⟨.operator .not rfl, rfl, rfl⟩
  · exact ⟨.operator .or rfl, rfl, rfl⟩

/-- A scan that reports nothing has gone over pieces and parts. -/
theorem Scan.goesOn_of_run (s : Scan) (position : Nat) (text : List Char)
    (h : (s.run position text).diagnostics = []) : if s.quote.isSome then GoesOnQuoted text else GoesOn text := by
  -- the text is taken apart from behind: what the scan goes over next comes before something that can go on
  fun_induction run s position text with
  | case1 s position =>
    cases hq : s.quote with
    | none => exact .nil
    | some p => simp [finish, hq] at h
  | case2 s position => simp [finish] at h
  | case3 s position c rest ih =>
    have ih : if s.quote.isSome then GoesOnQuoted rest else GoesOn rest := ih h
    split at ih
    · rw [if_pos ‹_›]
      exact ih.letter (.escaped c)
    · rw [if_neg ‹_›]
      exact ih.piece (.letter (.escaped c))
  | case4 s position rest ih =>
    have ih := ih h
    cases hq : s.quote with
    | none =>
      rw [toggleQuote, hq] at ih
      exact GoesOnQuoted.quotation ih
    | some p =>
      rw [toggleQuote, hq] at ih
      exact ⟨[], rest, rfl, ih⟩
  | case5 s position c rest hn hc hq ih =>
    have he := ne_escape hn hc
    have ih := ih h
    by_cases quoted : s.quote.isSome = true
    · rw [if_pos quoted] at ih ⊢
      rw [if_pos (show (s.letter position c).quote.isSome = true from quoted)] at ih
      have hc : isQuotable c = true := by
        rw [isQuotable, Bool.and_eq_true, bne_iff_ne, bne_iff_ne]
        exact ⟨hq, he⟩
      exact ih.letter (.plain c hc)
    · rw [if_neg quoted] at ih ⊢
      rw [if_neg (by rw [plain_quote]; exact quoted)] at ih
      by_cases hb : isBare c = true
      · exact ih.piece (.letter (.plain c hb))
      · obtain ⟨x, hx, hxc⟩ := exists_part (by simpa using hb) he hq
        have hp := ih.part hx
        rw [hxc] at hp
        exact hp

theorem Tokens.exists_layout {text : List Char} (h : (ofChars text).diagnostics = []) :
    ∃ f : Layout, f.chars = text :=
  (Scan.goesOn_of_run {} 0 text h : GoesOn text).exists_layout

/-! ### What a scan reports -/

theorem escapes_cons_of_ne {c : Char} (h : c ≠ '\\') (before : List Char) : escapes (c :: before) = false := by
  rw [escapes]
  rintro _ ⟨⟩
  exact h rfl

/-- An escape stands at the end. -/
theorem exists_of_escapes {before : List Char} (h : escapes before = true) :
    ∃ more, before = '\\' :: more ∧ escapes more = false := by
  unfold escapes at h
  split at h
  · rename_i more
    exact ⟨more, rfl, by simpa using h⟩
  · cases h

theorem openQuote_cons {c : Char} {before : List Char} (h : c = '"' → escapes before = true) :
    openQuote (c :: before) = openQuote before := by
  have hq : quotes (c :: before) = quotes before := by
    rw [quotes, if_neg]
    rintro ⟨hc, he⟩
    rw [h hc] at he
    cases he
  rw [openQuote, hq, openQuote]

theorem openQuote_quote {before : List Char} (h : escapes before = false) :
    openQuote ('"' :: before) = if (openQuote before).isSome then none else some before.length := by
  have hq : quotes ('"' :: before) = before.length :: quotes before := by
    rw [quotes, if_pos ⟨rfl, h⟩]
  rw [openQuote, hq, openQuote, List.length_cons]
  by_cases odd : (quotes before).length % 2 = 1
  · obtain ⟨p, ps, hp⟩ := List.exists_cons_of_ne_nil (l := quotes before) (by rintro hn; simp [hn] at odd)
    rw [if_neg (by omega), if_pos odd, hp]
    rfl
  · rw [if_pos (by omega), if_neg odd]
    rfl

/-- A scan knows the quote that is open, and goes on as before after a text that ends in no escape. -/
theorem Scan.run_goes_on (s : Scan) (position : Nat) (text before : List Char) (hp : position = before.length)
    (hq : s.quote = openQuote before) (hb : escapes before = false) (h : escapes (text.reverse ++ before) = false) :
    ∃ s' : Scan, s'.quote = openQuote (text.reverse ++ before) ∧
      ∀ rest, s.run position (text ++ rest) = s'.run (position + text.length) rest := by
  -- no escape stands right before where a step of the scan begins
  fun_induction run s position text generalizing before with
  | case1 s position => exact ⟨s, hq, fun _ => rfl⟩
  | case2 s position =>
    have he : escapes ('\\' :: before) = true := by rw [escapes, hb]; rfl
    exact absurd (he.symm.trans h) Bool.noConfusion
  | case3 s position c text ih =>
    have he : escapes ('\\' :: before) = true := by rw [escapes, hb]; rfl
    have hc : escapes (c :: '\\' :: before) = false := by
      by_cases hs : c = '\\'
      · rw [hs, escapes, he]
        rfl
      · exact escapes_cons_of_ne hs _
    have ho : openQuote (c :: '\\' :: before) = openQuote before :=
      (openQuote_cons fun _ => he).trans (openQuote_cons fun hq => absurd hq (by decide))
    rw [List.reverse_cons, List.reverse_cons, List.append_assoc, List.append_assoc] at h ⊢
    obtain ⟨s', hs, hr⟩ := ih (c :: '\\' :: before) (by simp [hp]) (hq.trans ho.symm) hc h
    refine ⟨s', hs, fun rest => ?_⟩
    rw [List.cons_append, List.cons_append, run, hr, List.length_cons, List.length_cons, Nat.add_assoc,
      Nat.add_comm 2]
  | case4 s position text ih =>
    have ho : openQuote ('"' :: before) = if s.quote.isSome then none else some position := by
      rw [openQuote_quote hb, hq, hp]
    rw [List.reverse_cons, List.append_assoc] at h ⊢
    obtain ⟨s', hs, hr⟩ := ih ('"' :: before) (by simp [hp]) ho.symm
      (escapes_cons_of_ne (by decide) before) h
    refine ⟨s', hs, fun rest => ?_⟩
    rw [List.cons_append, run, hr, List.length_cons, Nat.add_assoc, Nat.add_comm 1]
  | case5 s position c text hn hc hne ih =>
    have he := ne_escape hn hc
    have hs : (if s.quote.isSome then s.letter position c else s.plain position c).quote = openQuote (c :: before) := by
      rw [openQuote_cons fun hc => absurd hc hne, ← hq]
      split
      · rfl
      · exact plain_quote s position c
    rw [List.reverse_cons, List.append_assoc] at h ⊢
    obtain ⟨s', hs, hr⟩ := ih (c :: before) (by simp [hp]) hs (escapes_cons_of_ne he before) h
    refine ⟨s', hs, fun rest => ?_⟩
    rw [List.cons_append, run_cons _ he hne, hr, List.length_cons, Nat.add_assoc, Nat.add_comm 1]

namespace Tokens

/-- The scan of a text that does not end in an escape, and of the text with its quotation closed. -/
private theorem exists_scan (text : List Char) (h : escapes text.reverse = false) : ∃ s : Scan,
    s.quote = openQuote text.reverse ∧ (∀ rest, ofChars (text ++ rest) = s.run text.length rest) ∧
      ofChars (text ++ if (openQuote text.reverse).isSome then ['"'] else []) = ⟨s.endWord.tokens.reverse, []⟩ := by
  have hr := Scan.run_goes_on {} 0 text [] rfl rfl rfl
  rw [List.append_nil, Nat.zero_add] at hr
  obtain ⟨s, hq, hr⟩ := hr h
  refine ⟨s, hq, hr, (hr _).trans ?_⟩
  rw [← hq]
  obtain ⟨tokens, pending, quote⟩ := s
  cases quote with
  | none => rfl
  | some p => rcases pending with _ | ⟨start, _ | ⟨c, letters⟩⟩ <;> rfl

/-- What a scan reports, and what it finds. -/
private theorem ofChars_eq (text : List Char) : (ofChars text).diagnostics = misspellings text ∧
    ofChars (respelled text) = ⟨(ofChars text).tokens, []⟩ := by
  rw [misspellings, respelled]
  by_cases he : escapes text.reverse = true
  · obtain ⟨before, hb, hi⟩ := exists_of_escapes he
    have ht : text = before.reverse ++ ['\\'] := by
      rw [← List.reverse_reverse text, hb, List.reverse_cons]
    have ho : openQuote text.reverse = openQuote before := by
      rw [hb, openQuote_cons (c := '\\') nofun]
    obtain ⟨s, hq, hr, hc⟩ := exists_scan before.reverse (by rw [List.reverse_reverse]; exact hi)
    rw [List.reverse_reverse] at hq hc
    have hs : ofChars text = s.finish [⟨.trailingEscape, before.reverse.length⟩] := by
      rw [ht, hr]
      rfl
    rw [if_pos he, if_pos he, ho, hs, ← hq]
    refine ⟨?_, ?_⟩
    · rw [ht, List.length_append]
      rfl
    · rw [hq, ht, List.dropLast_concat, hc]
      rfl
  · obtain ⟨s, hq, hr, hc⟩ := exists_scan text (by simpa using he)
    have hs : ofChars text = s.finish [] := by
      have h := hr []
      rw [List.append_nil] at h
      exact h
    rw [if_neg he, if_neg he, hc, hs, ← hq]
    exact ⟨rfl, rfl⟩

theorem diagnostics_ofChars (text : List Char) : (ofChars text).diagnostics = misspellings text :=
  (ofChars_eq text).1

theorem exists_layout_respelled (text : List Char) :
    ∃ f : Layout, f.chars = respelled text ∧ (ofChars text).tokens = f.tokens := by
  have respelt := (ofChars_eq text).2
  obtain ⟨f, hf⟩ := exists_layout (congrArg diagnostics respelt)
  refine ⟨f, hf, ?_⟩
  rw [← congrArg tokens respelt, ← hf, f.ofChars_chars]

/-- A scan has nothing to report exactly if the text is laid out as the format wants it, and its tokens are then the
lexemes of the layout.  In general it reports the last backslash if this escapes nothing, and the quote that opened a
quotation which is still open at the end, and its tokens are those of the text in which this is put right. -/
theorem ofChars_layout (text : List Char) :
    ((ofChars text).diagnostics = [] ↔ ∃ f : Layout, f.chars = text) ∧
    (∀ f : Layout, f.chars = text → (ofChars text).tokens = f.tokens) ∧
    (ofChars text).diagnostics = misspellings text ∧
    ∃ f : Layout, f.chars = respelled text ∧ (ofChars text).tokens = f.tokens := by
  refine ⟨⟨exists_layout, ?_⟩, ?_, diagnostics_ofChars text, exists_layout_respelled text⟩
  · rintro ⟨f, rfl⟩
    rw [f.ofChars_chars]
  · rintro f rfl
    rw [f.ofChars_chars]

end Tokens

/-! ### Where tokens stand -/

theorem Part.length_chars_pos (x : Part) : 0 < x.chars.length := by
  cases x with
  | space => exact Nat.one_pos
  | operator l hl =>
    rw [chars, length_chars_of_isOperator hl]
    exact Nat.one_pos
  | word first more =>
    rw [chars, List.flatMap_cons, List.length_append]
    refine Nat.add_pos_left ?_ _
    cases first with
    | letter l => cases l <;> exact Nat.succ_pos _
    | quotation body => exact Nat.succ_pos _

/-- A token stands where the part begins of which it is the lexeme. -/
theorem exists_part_of_mem_tokensOf {position : Nat} {parts : List Part} {t : Token}
    (h : t ∈ tokensOf position parts) : ∃ before x after, parts = before ++ x :: after ∧
      x.lexeme? = some t.lexeme ∧ t.position = position + (before.flatMap Part.chars).length := by
  induction parts generalizing position with
  | nil => cases h
  | cons x parts ih =>
    rw [tokensOf, List.mem_append] at h
    rcases h with h | h
    · obtain ⟨l, hl, rfl⟩ := Option.map_eq_some_iff.1 (Option.mem_toList.1 h)
      exact ⟨[], x, parts, rfl, hl, rfl⟩
    · obtain ⟨before, y, after, rfl, hy, hp⟩ := ih h
      refine ⟨x :: before, y, after, rfl, hy, ?_⟩
      rw [hp, List.flatMap_cons, List.length_append, Nat.add_assoc]

theorem le_position_of_mem_tokensOf {position : Nat} {parts : List Part} {t : Token}
    (h : t ∈ tokensOf position parts) : position ≤ t.position := by
  obtain ⟨before, x, after, -, -, hp⟩ := exists_part_of_mem_tokensOf h
  omega

theorem tokensOf_pairwise (position : Nat) (parts : List Part) :
    (tokensOf position parts).Pairwise fun t u => t.position < u.position := by
  induction parts generalizing position with
  | nil => exact .nil
  | cons x parts ih =>
    rw [tokensOf]
    cases x.lexeme? with
    | none => exact ih _
    | some l =>
      refine .cons (fun t ht => ?_) (ih _)
      exact Nat.lt_of_lt_of_le (Nat.lt_add_of_pos_right x.length_chars_pos) (le_position_of_mem_tokensOf ht)

namespace Tokens

/-- Each token stands after the one before it. -/
theorem ofChars_pairwise (text : List Char) :
    (ofChars text).tokens.Pairwise fun t u => t.position < u.position := by
  obtain ⟨f, -, ht⟩ := exists_layout_respelled text
  rw [ht]
  exact tokensOf_pairwise 0 f.parts

theorem ofChars_nodup (text : List Char) : ((ofChars text).tokens.map Token.position).Nodup :=
  List.pairwise_map.2 ((ofChars_pairwise text).imp Nat.ne_of_lt)

/-- A scan finds nothing wrong but escapes and quotes. -/
theorem problem_of_mem_ofChars {text : List Char} {x : Diagnostic} (h : x ∈ (ofChars text).diagnostics) :
    x.problem = .trailingEscape ∨ x.problem = .unterminatedQuote := by
  rw [diagnostics_ofChars, misspellings, List.mem_append] at h
  rcases h with h | h
  · split at h
    · cases List.mem_singleton.1 h
      exact .inl rfl
    · cases h
  · obtain ⟨p, -, rfl⟩ := Option.map_eq_some_iff.1 (Option.mem_toList.1 h)
    exact .inr rfl

end Tokens

end TagQuery
