import TagQuery.Query.Parsed

/-!
# Readings

What one step of reading can do, said once.  `ReadsConjunction opened c es d` holds if reading the expressions up to
the end of the group opened at `opened`, or of the query, leads from the cursor `c` to the expressions `es` and the
cursor `d`; the other four relations say the same of an alternation, of the operands that follow in one, of a negation
and of a primary.  Every function of `Cursor` computes its relation (`reads`), and the relations hold of nothing else
(`conjunction_eq` and the lemmas beside it), so a property of all readings is proved by induction over them.

Reading keeps the level and adds to the problems (`conjunction_keeps` and the lemmas beside it), a query is read to its
end (`conjunction_rest`), and a chain of operands goes on with any operand in the same way (`exists_operands`).
-/

namespace TagQuery

namespace Cursor

/-- The lexeme that comes next. -/
def next (c : Cursor) : Option Lexeme :=
  c.rest.head?.map Token.lexeme

mutual

inductive ReadsConjunction : Option Nat → Cursor → List Expr → Cursor → Prop
  | unclosed {p depth problems} :
    ReadsConjunction (some p) ⟨[], depth, problems⟩ [] ⟨[], depth, ⟨.unclosedGroup, p⟩ :: problems⟩
  | done {depth problems} : ReadsConjunction none ⟨[], depth, problems⟩ [] ⟨[], depth, problems⟩
  | close {p q rest depth problems} :
    ReadsConjunction (some p) ⟨⟨.closing, q⟩ :: rest, depth, problems⟩ [] ⟨rest, depth, problems⟩
  | unmatched {q rest depth problems es d} :
    ReadsConjunction none ⟨rest, depth, ⟨.unmatchedClose, q⟩ :: problems⟩ es d →
    ReadsConjunction none ⟨⟨.closing, q⟩ :: rest, depth, problems⟩ es d
  | strayOr {opened q rest depth problems es d} :
    ReadsConjunction opened ⟨rest, depth, ⟨.missingOperand .or, q⟩ :: problems⟩ es d →
    ReadsConjunction opened ⟨⟨.or, q⟩ :: rest, depth, problems⟩ es d
  | item {opened c e m es d} :
    startsOperand c.rest = true → ReadsAlternation c e m → ReadsConjunction opened m es d →
    ReadsConjunction opened c (e.toList ++ es) d

inductive ReadsAlternation : Cursor → Option Expr → Cursor → Prop
  | nothing {c d} : ReadsNegation c none d → ReadsAlternation c none d
  | operands {c left m e d} :
    ReadsNegation c (some left) m → ReadsAlternatives left 0 m e d → ReadsAlternation c (some e) d

inductive ReadsAlternatives : Expr → Nat → Cursor → Expr → Cursor → Prop
  | stop {left links c} : c.next ≠ some .or → ReadsAlternatives left links c left (c.leave links)
  | link {left links p rest depth problems right m e d} :
    depth < nestingLimit → ReadsNegation ⟨rest, depth + 1, problems⟩ (some right) m →
    ReadsAlternatives (.or left right) (links + 1) m e d →
    ReadsAlternatives left links ⟨⟨.or, p⟩ :: rest, depth, problems⟩ e d
  | missing {left links p rest depth problems m} :
    depth < nestingLimit → ReadsNegation ⟨rest, depth + 1, problems⟩ none m →
    ReadsAlternatives left links ⟨⟨.or, p⟩ :: rest, depth, problems⟩ left
      ((m.report (.missingOperand .or) p).leave (links + 1))
  | cut {left links p rest depth problems} :
    nestingLimit ≤ depth →
    ReadsAlternatives left links ⟨⟨.or, p⟩ :: rest, depth, problems⟩ left
      ((cut ⟨rest, depth, problems⟩ p).leave links)

inductive ReadsNegation : Cursor → Option Expr → Cursor → Prop
  | negated {p rest depth problems e d} :
    startsOperand rest = true → depth < nestingLimit → ReadsNegation ⟨rest, depth + 1, problems⟩ e d →
    ReadsNegation ⟨⟨.not, p⟩ :: rest, depth, problems⟩ (e.map .not) (d.leave 1)
  | cut {p rest depth problems} :
    startsOperand rest = true → nestingLimit ≤ depth →
    ReadsNegation ⟨⟨.not, p⟩ :: rest, depth, problems⟩ none (cut ⟨rest, depth, problems⟩ p)
  | missing {p rest depth problems} :
    startsOperand rest = false →
    ReadsNegation ⟨⟨.not, p⟩ :: rest, depth, problems⟩ none ⟨rest, depth, ⟨.missingOperand .not, p⟩ :: problems⟩
  | primary {c e d} : c.next ≠ some .not → ReadsPrimary c e d → ReadsNegation c e d

inductive ReadsPrimary : Cursor → Option Expr → Cursor → Prop
  | word {w p rest depth problems} :
    ReadsPrimary ⟨⟨.word w, p⟩ :: rest, depth, problems⟩ (some (.term (.ofWord w))) ⟨rest, depth, problems⟩
  | group {p rest depth problems es d} :
    depth < nestingLimit → ReadsConjunction (some p) ⟨rest, depth + 1, problems⟩ es d →
    ReadsPrimary ⟨⟨.opening, p⟩ :: rest, depth, problems⟩ (some (.group es)) (d.leave 1)
  | cut {p rest depth problems} :
    nestingLimit ≤ depth →
    ReadsPrimary ⟨⟨.opening, p⟩ :: rest, depth, problems⟩ none (cut ⟨⟨.opening, p⟩ :: rest, depth, problems⟩ p)
  | nothing {c} : startsPrimary c.rest = false → ReadsPrimary c none c

end

variable {opened : Option Nat} {parts : List Expr} {left right : Expr} {links p q depth : Nat} {w : String}
  {rest : List Token} {problems : List Diagnostic} {c d m : Cursor} {e : Option Expr} {es : List Expr}

@[simp] theorem next_nil : next ⟨[], depth, problems⟩ = none := rfl

@[simp] theorem next_cons {l : Lexeme} : next ⟨⟨l, p⟩ :: rest, depth, problems⟩ = some l := rfl

theorem next_eq (c : Cursor) : c.next = (c.rest.map Token.lexeme).head? :=
  List.head?_map.symm

theorem startsOperand_of_next {c : Cursor} (h : c.next ≠ some .not) :
    startsOperand c.rest = startsPrimary c.rest := by
  obtain ⟨_ | ⟨⟨l, p⟩, rest⟩, depth, problems⟩ := c
  · rfl
  · cases l with
    | not => exact absurd rfl h
    | _ => rfl

theorem conjunction_item (starts : startsOperand c.rest = true) (ha : (alternation c).1 = (e, m)) :
    (conjunction opened parts c).1 = (conjunction opened (e.toList ++ parts) m).1 := by
  rw [conjunction.eq_def, if_pos starts]
  split
  rename_i e' d' hd h
  rw [h] at ha
  cases ha
  rfl

theorem conjunction_unclosed : (conjunction (some p) parts ⟨[], depth, problems⟩).1 =
    (parts.reverse, ⟨[], depth, ⟨.unclosedGroup, p⟩ :: problems⟩) := by
  rw [conjunction.eq_def]
  rfl

theorem conjunction_done : (conjunction none parts ⟨[], depth, problems⟩).1 =
    (parts.reverse, ⟨[], depth, problems⟩) := by
  rw [conjunction.eq_def]
  rfl

theorem conjunction_close : (conjunction (some p) parts ⟨⟨.closing, q⟩ :: rest, depth, problems⟩).1 =
    (parts.reverse, ⟨rest, depth, problems⟩) := by
  rw [conjunction.eq_def]
  rfl

theorem conjunction_unmatched : (conjunction none parts ⟨⟨.closing, q⟩ :: rest, depth, problems⟩).1 =
    (conjunction none parts ⟨rest, depth, ⟨.unmatchedClose, q⟩ :: problems⟩).1 := by
  rw [conjunction.eq_def]
  rfl

theorem conjunction_strayOr : (conjunction opened parts ⟨⟨.or, q⟩ :: rest, depth, problems⟩).1 =
    (conjunction opened parts ⟨rest, depth, ⟨.missingOperand .or, q⟩ :: problems⟩).1 := by
  rw [conjunction.eq_def]
  rfl

theorem alternation_nothing (hn : (negation c).1 = (none, d)) : (alternation c).1 = (none, d) := by
  rw [alternation]
  split <;> simp_all

theorem alternation_operands (hn : (negation c).1 = (some left, m)) :
    (alternation c).1 = (some (alternatives left 0 m).1.1, (alternatives left 0 m).1.2) := by
  rw [alternation]
  split
  · rename_i d' hd h
    rw [h] at hn
    cases hn
  · rename_i left' d' hd h
    rw [h] at hn
    cases hn
    rfl

theorem alternatives_stop (h : c.next ≠ some .or) : (alternatives left links c).1 = (left, c.leave links) := by
  rw [alternatives.eq_def]
  split
  · exact absurd rfl h
  · rfl

theorem alternatives_link (room : depth < nestingLimit)
    (hn : (negation ⟨rest, depth + 1, problems⟩).1 = (some right, m)) :
    (alternatives left links ⟨⟨.or, p⟩ :: rest, depth, problems⟩).1 =
      (alternatives (.or left right) (links + 1) m).1 := by
  rw [alternatives, if_pos room]
  split
  · rename_i right' d' hd h
    rw [h] at hn
    cases hn
    rfl
  · rename_i d' hd h
    rw [h] at hn
    cases hn

theorem alternatives_missing (room : depth < nestingLimit)
    (hn : (negation ⟨rest, depth + 1, problems⟩).1 = (none, m)) :
    (alternatives left links ⟨⟨.or, p⟩ :: rest, depth, problems⟩).1 =
      (left, (m.report (.missingOperand .or) p).leave (links + 1)) := by
  rw [alternatives, if_pos room]
  split <;> simp_all

theorem alternatives_cut (full : nestingLimit ≤ depth) :
    (alternatives left links ⟨⟨.or, p⟩ :: rest, depth, problems⟩).1 =
      (left, (cut ⟨rest, depth, problems⟩ p).leave links) := by
  rw [alternatives, if_neg (Nat.not_lt.2 full)]

theorem negation_negated (starts : startsOperand rest = true) (room : depth < nestingLimit) :
    (negation ⟨⟨.not, p⟩ :: rest, depth, problems⟩).1 =
      ((negation ⟨rest, depth + 1, problems⟩).1.1.map .not, (negation ⟨rest, depth + 1, problems⟩).1.2.leave 1) := by
  rw [negation, if_pos starts, if_pos room]

theorem negation_cut (starts : startsOperand rest = true) (full : nestingLimit ≤ depth) :
    (negation ⟨⟨.not, p⟩ :: rest, depth, problems⟩).1 = (none, cut ⟨rest, depth, problems⟩ p) := by
  rw [negation, if_pos starts, if_neg (Nat.not_lt.2 full)]

theorem negation_missing (starts : startsOperand rest = false) :
    (negation ⟨⟨.not, p⟩ :: rest, depth, problems⟩).1 =
      (none, ⟨rest, depth, ⟨.missingOperand .not, p⟩ :: problems⟩) := by
  rw [negation, if_neg (by simp [starts])]

theorem negation_primary (h : c.next ≠ some .not) : (negation c).1 = (primary c).1 := by
  obtain ⟨_ | ⟨⟨l, p⟩, rest⟩, depth, problems⟩ := c
  · rw [negation, primary]
  · cases l with
    | not => exact absurd rfl h
    | word w => rw [negation]
    | opening => rw [negation]
    | closing => rw [negation, primary]
    | or => rw [negation, primary]

theorem primary_word : (primary ⟨⟨.word w, p⟩ :: rest, depth, problems⟩).1 =
    (some (.term (.ofWord w)), ⟨rest, depth, problems⟩) := by
  rw [primary]

theorem primary_group (room : depth < nestingLimit) :
    (primary ⟨⟨.opening, p⟩ :: rest, depth, problems⟩).1 =
      (some (.group (conjunction (some p) [] ⟨rest, depth + 1, problems⟩).1.1),
        (conjunction (some p) [] ⟨rest, depth + 1, problems⟩).1.2.leave 1) := by
  rw [primary, if_pos room]

theorem primary_cut (full : nestingLimit ≤ depth) :
    (primary ⟨⟨.opening, p⟩ :: rest, depth, problems⟩).1 =
      (none, cut ⟨⟨.opening, p⟩ :: rest, depth, problems⟩ p) := by
  rw [primary, if_neg (Nat.not_lt.2 full)]

theorem primary_nothing (h : startsPrimary c.rest = false) : (primary c).1 = (none, c) := by
  obtain ⟨_ | ⟨⟨l, p⟩, rest⟩, depth, problems⟩ := c
  · rw [primary]
  · cases l with
    | word w => cases h
    | opening => cases h
    | not => rw [primary]
    | closing => rw [primary]
    | or => rw [primary]

/-! ### A reading is what the functions compute -/

mutual

theorem conjunction_eq {opened c es d} : ReadsConjunction opened c es d →
    ∀ parts, (conjunction opened parts c).1 = (parts.reverse ++ es, d)
  | .unclosed, parts => by rw [conjunction_unclosed, List.append_nil]
  | .done, parts => by rw [conjunction_done, List.append_nil]
  | .close, parts => by rw [conjunction_close, List.append_nil]
  | .unmatched h, parts => by rw [conjunction_unmatched, conjunction_eq h parts]
  | .strayOr h, parts => by rw [conjunction_strayOr, conjunction_eq h parts]
  | .item (e := e) starts ha h, parts => by
    rw [conjunction_item starts (alternation_eq ha), conjunction_eq h (e.toList ++ parts)]
    cases e <;> simp

theorem alternation_eq {c e d} : ReadsAlternation c e d → (alternation c).1 = (e, d)
  | .nothing h => alternation_nothing (negation_eq h)
  | .operands h hs => by rw [alternation_operands (negation_eq h), alternatives_eq hs]

theorem alternatives_eq {left links c right d} : ReadsAlternatives left links c right d →
    (alternatives left links c).1 = (right, d)
  | .stop h => alternatives_stop h
  | .link room h hs => by rw [alternatives_link room (negation_eq h), alternatives_eq hs]
  | .missing room h => alternatives_missing room (negation_eq h)
  | .cut full => alternatives_cut full

theorem negation_eq {c e d} : ReadsNegation c e d → (negation c).1 = (e, d)
  | .negated starts room h => by rw [negation_negated starts room, negation_eq h]
  | .cut starts full => negation_cut starts full
  | .missing starts => negation_missing starts
  | .primary hn h => by rw [negation_primary hn, primary_eq h]

theorem primary_eq {c e d} : ReadsPrimary c e d → (primary c).1 = (e, d)
  | .word => primary_word
  | .group room h => by rw [primary_group room, conjunction_eq h []]; rfl
  | .cut full => primary_cut full
  | .nothing hp => primary_nothing hp

end

theorem reads :
    (∀ opened parts c, ∃ es, ReadsConjunction opened c es (conjunction opened parts c).1.2) ∧
    (∀ c, ReadsAlternation c (alternation c).1.1 (alternation c).1.2) ∧
    (∀ left links c, ReadsAlternatives left links c (alternatives left links c).1.1 (alternatives left links c).1.2) ∧
    (∀ c, ReadsNegation c (negation c).1.1 (negation c).1.2) ∧
    ∀ c, ReadsPrimary c (primary c).1.1 (primary c).1.2 := by
  -- one case for each way through the functions: the calls on that way have readings, so the call itself has one
  refine conjunction.mutual_induct
    (fun opened parts c => ∃ es, ReadsConjunction opened c es (conjunction opened parts c).1.2)
    (fun c => ReadsAlternation c (alternation c).1.1 (alternation c).1.2)
    (fun left links c =>
      ReadsAlternatives left links c (alternatives left links c).1.1 (alternatives left links c).1.2)
    (fun c => ReadsNegation c (negation c).1.1 (negation c).1.2)
    (fun c => ReadsPrimary c (primary c).1.1 (primary c).1.2)
    ?item ?unclosed ?done ?close ?unmatched ?strayOr ?nothing ?operands ?link ?missingOr ?cutOr ?stop ?negated ?cutNot
    ?missingNot ?toWord ?toGroup ?noneEnd ?noneClose ?noneOr ?word ?group ?cutGroup ?primEnd ?primClose ?primNot
    ?primOr
  case item =>
    rintro opened parts c starts e d hd he ha ⟨es, ih⟩
    rw [he] at ha
    have hv : (alternation c).1 = (e, d) := by rw [he]
    rw [conjunction_item starts hv]
    exact ⟨e.toList ++ es, .item starts ha ih⟩
  case unclosed =>
    intro parts depth problems p _
    rw [conjunction_unclosed]
    exact ⟨[], .unclosed⟩
  case done =>
    intro parts depth problems _
    rw [conjunction_done]
    exact ⟨[], .done⟩
  case close =>
    intro parts q rest depth problems p _
    rw [conjunction_close]
    exact ⟨[], .close⟩
  case unmatched =>
    rintro parts q rest depth problems _ ⟨es, ih⟩
    rw [conjunction_unmatched]
    exact ⟨es, .unmatched ih⟩
  case strayOr =>
    rintro opened parts l q rest depth problems hl starts ⟨es, ih⟩
    cases l with
    | or => rw [conjunction_strayOr]; exact ⟨es, .strayOr ih⟩
    | closing => exact absurd rfl hl
    | _ => exact absurd rfl starts
  case nothing =>
    intro c d hd he hn
    rw [he] at hn
    rw [alternation_nothing (by rw [he])]
    exact .nothing hn
  case operands =>
    intro c left d hd he hn ih
    rw [he] at hn
    rw [alternation_operands (by rw [he])]
    exact .operands hn ih
  case link =>
    intro left links p rest depth problems room right d hd he hn ih
    rw [he] at hn
    rw [alternatives_link room (by rw [he])]
    exact .link room hn ih
  case missingOr =>
    intro left links p rest depth problems room d hd he hn
    rw [he] at hn
    rw [alternatives_missing room (by rw [he])]
    exact .missing room hn
  case cutOr =>
    intro left links p rest depth problems full
    rw [alternatives_cut (Nat.not_lt.1 full)]
    exact .cut (Nat.not_lt.1 full)
  case stop =>
    intro left links c hc
    have hn : c.next ≠ some .or := by
      obtain ⟨_ | ⟨⟨l, p⟩, rest⟩, depth, problems⟩ := c
      · exact nofun
      · rintro ⟨⟩
        exact hc p rest depth problems rfl
    rw [alternatives_stop hn]
    exact .stop hn
  case negated =>
    intro p rest depth problems starts room e d hd he hn
    rw [negation_negated starts room]
    exact .negated starts room hn
  case cutNot =>
    intro p rest depth problems starts full
    rw [negation_cut starts (Nat.not_lt.1 full)]
    exact .cut starts (Nat.not_lt.1 full)
  case missingNot =>
    intro p rest depth problems starts
    have starts : startsOperand rest = false := by simpa using starts
    rw [negation_missing starts]
    exact .missing starts
  case word =>
    intro w p rest depth problems
    rw [primary_word]
    exact .word
  case group =>
    rintro p rest depth problems room es d hd he ⟨es', h⟩
    rw [primary_group room]
    have hc := conjunction_eq h []
    rw [hc] at h ⊢
    exact .group room h
  case cutGroup =>
    intro p rest depth problems full
    rw [primary_cut (Nat.not_lt.1 full)]
    exact .cut (Nat.not_lt.1 full)
  case toWord =>
    intro w p rest depth problems h
    rw [negation_primary (by simp)]
    exact .primary (by simp) h
  case toGroup =>
    intro p rest depth problems h
    rw [negation_primary (by simp)]
    exact .primary (by simp) h
  case noneEnd =>
    intro depth problems
    rw [negation_primary (by simp), primary_nothing rfl]
    exact .primary (by simp) (.nothing rfl)
  case noneClose | noneOr =>
    intro p rest depth problems
    rw [negation_primary (by simp), primary_nothing rfl]
    exact .primary (by simp) (.nothing rfl)
  case primEnd =>
    intro depth problems
    rw [primary_nothing rfl]
    exact .nothing rfl
  case primClose | primNot | primOr =>
    intro p rest depth problems
    rw [primary_nothing rfl]
    exact .nothing rfl

/-! ### Levels and problems -/

mutual

theorem conjunction_keeps {opened c es d} : ReadsConjunction opened c es d →
    d.depth = c.depth ∧ c.problems <:+ d.problems
  | .unclosed => ⟨rfl, List.suffix_cons ..⟩
  | .done => ⟨rfl, List.suffix_refl _⟩
  | .close => ⟨rfl, List.suffix_refl _⟩
  | .unmatched h => by
    obtain ⟨hd, hp⟩ := conjunction_keeps h
    exact ⟨hd, (List.suffix_cons ..).trans hp⟩
  | .strayOr h => by
    obtain ⟨hd, hp⟩ := conjunction_keeps h
    exact ⟨hd, (List.suffix_cons ..).trans hp⟩
  | .item _ ha h => by
    obtain ⟨had, hap⟩ := alternation_keeps ha
    obtain ⟨hd, hp⟩ := conjunction_keeps h
    exact ⟨hd.trans had, hap.trans hp⟩

theorem alternation_keeps {c e d} : ReadsAlternation c e d → d.depth = c.depth ∧ c.problems <:+ d.problems
  | .nothing h => negation_keeps h
  | .operands h hs => by
    obtain ⟨hnd, hnp⟩ := negation_keeps h
    obtain ⟨hd, hp⟩ := alternatives_keeps hs
    exact ⟨hd.trans hnd, hnp.trans hp⟩

theorem alternatives_keeps {left links c e d} : ReadsAlternatives left links c e d →
    d.depth = c.depth - links ∧ c.problems <:+ d.problems
  | .stop _ => ⟨rfl, List.suffix_refl _⟩
  | .link _ h hs => by
    obtain ⟨hnd, hnp⟩ := negation_keeps h
    obtain ⟨hd, hp⟩ := alternatives_keeps hs
    rw [hnd] at hd
    exact ⟨hd.trans (Nat.add_sub_add_right ..), hnp.trans hp⟩
  | .missing (m := m) _ h => by
    obtain ⟨hnd, hnp⟩ := negation_keeps h
    refine ⟨?_, hnp.trans (List.suffix_cons ..)⟩
    show m.depth - _ = _
    rw [hnd]
    exact Nat.add_sub_add_right ..
  | .cut _ => ⟨rfl, List.suffix_cons ..⟩

theorem negation_keeps {c e d} : ReadsNegation c e d → d.depth = c.depth ∧ c.problems <:+ d.problems
  | .negated (d := d) _ _ h => by
    obtain ⟨hd, hp⟩ := negation_keeps h
    exact ⟨congrArg (· - 1) hd, hp⟩
  | .cut _ _ => ⟨rfl, List.suffix_cons ..⟩
  | .missing _ => ⟨rfl, List.suffix_cons ..⟩
  | .primary _ h => primary_keeps h

theorem primary_keeps {c e d} : ReadsPrimary c e d → d.depth = c.depth ∧ c.problems <:+ d.problems
  | .word => ⟨rfl, List.suffix_refl _⟩
  | .group _ h => by
    obtain ⟨hd, hp⟩ := conjunction_keeps h
    exact ⟨congrArg (· - 1) hd, hp⟩
  | .cut _ => ⟨rfl, List.suffix_cons ..⟩
  | .nothing _ => ⟨rfl, List.suffix_refl _⟩

end

/-- An operand that begins and fails is reported. -/
theorem negation_none {c r d} : ReadsNegation c r d → r = none → startsOperand c.rest = true →
    c.problems.length < d.problems.length
  | .negated starts _ h, hr, _ => by
    have ih := negation_none h (Option.map_eq_none_iff.1 hr) starts
    exact ih
  | .cut _ _, _, _ => Nat.lt_succ_self _
  | .missing _, _, _ => Nat.lt_succ_self _
  | .primary hn h, hr, starts => by
    rw [startsOperand_of_next hn] at starts
    cases h with
    | word => cases hr
    | group => cases hr
    | cut => exact Nat.lt_succ_self _
    | nothing hp =>
      rw [starts] at hp
      cases hp

theorem alternation_none {c d} (h : ReadsAlternation c none d) (starts : startsOperand c.rest = true) :
    c.problems.length < d.problems.length := by
  cases h with
  | nothing hn => exact negation_none hn rfl starts

/-- Reading a query reads all of it. -/
theorem conjunction_rest {opened c es d} : ReadsConjunction opened c es d → opened = none → d.rest = []
  | .unclosed, _ => rfl
  | .done, _ => rfl
  | .unmatched h, ho => conjunction_rest h ho
  | .strayOr h, ho => conjunction_rest h ho
  | .item _ _ h, ho => conjunction_rest h ho

/-- The operands that follow in an alternation do not depend on what stands before them. -/
theorem exists_operands {left links c e d} : ReadsAlternatives left links c e d → ∃ operands : List Expr,
    e = operands.foldl .or left ∧ ∀ left', ReadsAlternatives left' links c (operands.foldl .or left') d
  | .stop h => ⟨[], rfl, fun _ => .stop h⟩
  | .link room h hs => by
    obtain ⟨operands, he, hr⟩ := exists_operands hs
    exact ⟨_ :: operands, he, fun left' => .link room h (hr (.or left' _))⟩
  | .missing room h => ⟨[], rfl, fun _ => .missing room h⟩
  | .cut full => ⟨[], rfl, fun _ => .cut full⟩

end Cursor

namespace Query

open Cursor

/-- The query is what a reading of its tokens gives. -/
theorem exists_reads (t : Tokens) : ∃ es d, ReadsConjunction none ⟨t.tokens, 0, t.diagnostics.reverse⟩ es d ∧
    (ofTokens t).expressions = es ∧ (ofTokens t).diagnostics.Perm d.problems := by
  obtain ⟨es, h⟩ := reads.1 none [] ⟨t.tokens, 0, t.diagnostics.reverse⟩
  have he := congrArg Prod.fst (conjunction_eq h [])
  exact ⟨es, _, h, he, (List.mergeSort_perm _ _).trans (List.reverse_perm _)⟩

theorem ofTokens_eq_of_reads {t : Tokens} {es : List Expr} {d : Cursor}
    (h : ReadsConjunction none ⟨t.tokens, 0, t.diagnostics.reverse⟩ es d) :
    ofTokens t = ⟨es, d.problems.reverse.mergeSort fun a b => decide (a.position ≤ b.position)⟩ := by
  have he := conjunction_eq h []
  rw [ofTokens, he]
  rfl

theorem ofTokens_of_reads {t : Tokens} {es : List Expr} {d : Cursor}
    (h : ReadsConjunction none ⟨t.tokens, 0, t.diagnostics.reverse⟩ es d) :
    (ofTokens t).expressions = es ∧ (ofTokens t).diagnostics.Perm d.problems := by
  rw [ofTokens_eq_of_reads h]
  exact ⟨rfl, (List.mergeSort_perm _ _).trans (List.reverse_perm _)⟩

end Query

end TagQuery
