import TagQuery.Json.Read
import TagQuery.Proofs.JsonTokens

/-!
# JSON values and their texts

Tokens make up a value as the format has it (`Json.Makes`), and a text stands for a value if the tokens that it spells
make up the value (`Json.StandsFor`).  Every text that stands for a value is read as that value
(`Json.parse?_of_standsFor`), and the compact text of a value is one of them (`Json.standsFor_text`), provided that the
numbers in it are spelled as numbers.
-/

namespace TagQuery

namespace Json

open JsonToken (Ends Spells SpellsAll SpellsNumber SpellsCodes marks SpellsCode)

mutual

/-- The tokens make up the value. -/
inductive Makes : List JsonToken → Json → Prop
  | null : Makes [.null] .null
  | bool {b} : Makes [.bool b] (.bool b)
  | num {literal} : Makes [.num literal] (.num literal)
  | str {text} : Makes [.str (some text)] (.str text)
  | noText : Makes [.str none] .illFormed
  | emptyArray : Makes [.beginArray, .endArray] (.arr [])
  | array {ts vs} : MakesItems ts vs → Makes (.beginArray :: (ts ++ [.endArray])) (.arr vs)
  | emptyObject : Makes [.beginObject, .endObject] (.obj [])
  | object {ts ms} : MakesMembers ts (ms.map fun m => (some m.1, m.2)) →
      Makes (.beginObject :: (ts ++ [.endObject])) (.obj ms)
  /-- A name is no text. -/
  | unnamed {ts ms v} : MakesMembers ts ms → (none, v) ∈ ms → Makes (.beginObject :: (ts ++ [.endObject])) .illFormed

/-- The tokens make up the items of an array. -/
inductive MakesItems : List JsonToken → List Json → Prop
  | last {ts v} : Makes ts v → MakesItems ts [v]
  | more {ts v ts' vs} : Makes ts v → MakesItems ts' vs → MakesItems (ts ++ .comma :: ts') (v :: vs)

/-- The tokens make up the members of an object. -/
inductive MakesMembers : List JsonToken → List (Option String × Json) → Prop
  | last {name ts v} : Makes ts v → MakesMembers (.str name :: .colon :: ts) [(name, v)]
  | more {name ts v ts' ms} : Makes ts v → MakesMembers ts' ms →
      MakesMembers (.str name :: .colon :: (ts ++ .comma :: ts')) ((name, v) :: ms)

end

/-- The text spells tokens that make up the value. -/
def StandsFor (text : String) (v : Json) : Prop :=
  ∃ ts, SpellsAll text.toList ts ∧ Makes ts v

/-! ### Reading -/

namespace Reading

variable {r r' : Reading} {members : List (Option String × Json)} {outer : List Frame} {ts : List JsonToken}

/-- A value comes next, within the frames; instead of it an array may end. -/
def Awaits (r : Reading) (outer : List Frame) : Prop :=
  ∀ t, t ≠ .endArray → r.step t = start outer t

/-- A name comes next, after the members. -/
def AwaitsName (r : Reading) (members : List (Option String × Json)) (outer : List Frame) : Prop :=
  ∀ name, r.step (.str name) = some (.colon members name outer)

theorem awaits_value (outer : List Frame) : (value outer).Awaits outer :=
  fun _ _ => rfl

theorem awaits_array (outer : List Frame) : (array outer).Awaits (.array [] :: outer) := by
  intro t ht
  cases t <;> first | rfl | exact absurd rfl ht

theorem foldlM_cons {t : JsonToken} (h : r.step t = some r') (ts : List JsonToken) :
    (t :: ts).foldlM step r = ts.foldlM step r' := by
  rw [List.foldlM_cons, h]
  rfl

theorem foldlM_append (h : ts.foldlM step r = some r') (ts' : List JsonToken) :
    (ts ++ ts').foldlM step r = ts'.foldlM step r' := by
  rw [List.foldlM_append, h]
  rfl

theorem Awaits.foldlM (h : r.Awaits outer) {t : JsonToken} (ht : t ≠ .endArray) (hs : start outer t = some r')
    (ts : List JsonToken) : (t :: ts).foldlM step r = ts.foldlM step r' :=
  foldlM_cons ((h t ht).trans hs) ts

theorem AwaitsName.foldlM (h : r.AwaitsName members outer) (name : Option String) (ts : List JsonToken) :
    (.str name :: .colon :: ts).foldlM step r = ts.foldlM step (.value (.object members name :: outer)) :=
  (foldlM_cons (h name) _).trans (foldlM_cons rfl ts)

end Reading

theorem mapM_map_self {α β : Type} {f : β → Option α} {g : α → β} (h : ∀ x, f (g x) = some x) (xs : List α) :
    (xs.map g).mapM f = some xs := by
  induction xs with
  | nil => rfl
  | cons x xs ih => simp [h, ih]

theorem texts?_strs (texts : List String) : (Json.arr (texts.map .str)).texts? = some texts :=
  mapM_map_self (by intro text; rfl) texts

theorem ofMembers_named (ms : List (String × Json)) :
    ofMembers (ms.map fun m => (some m.1, m.2)).reverse = .obj ms := by
  have named : (ms.map fun m => (some m.1, m.2)).mapM
      (fun m : Option String × Json => m.1.map fun name => (name, m.2)) = some ms :=
    mapM_map_self (by intro m; rfl) ms
  simp only [ofMembers, List.reverse_reverse, named]

theorem ofMembers_unnamed {ms : List (Option String × Json)} {v : Json} (h : (none, v) ∈ ms) :
    ofMembers ms.reverse = .illFormed := by
  have unnamed : ms.mapM (fun m => m.1.map fun name => (name, m.2)) = none := by
    induction ms with
    | nil => cases h
    | cons m ms ih =>
      rcases List.mem_cons.1 h with rfl | h
      · rfl
      · simp [ih h]
  simp only [ofMembers, List.reverse_reverse, unnamed]

mutual

/-- Where a value comes next, the tokens of one are taken as that value, whatever is around it. -/
theorem foldlM_of_makes {ts v} : Makes ts v → ∀ {r outer}, Reading.Awaits r outer →
    ts.foldlM Reading.step r = some (.ended v outer)
  | .null, _, _, hr => hr.foldlM (by decide) rfl []
  | .bool, _, _, hr => hr.foldlM (by simp) rfl []
  | .num, _, _, hr => hr.foldlM (by simp) rfl []
  | .str, _, _, hr => hr.foldlM (by simp) rfl []
  | .noText, _, _, hr => hr.foldlM (by decide) rfl []
  | .emptyArray, _, _, hr => hr.foldlM (t := .beginArray) (by decide) rfl [.endArray]
  | .array h, _, outer, hr =>
    (hr.foldlM (t := .beginArray) (by decide) rfl _).trans (foldlM_of_makesItems h (Reading.awaits_array outer))
  | .emptyObject, _, _, hr => hr.foldlM (t := .beginObject) (by decide) rfl [.endObject]
  | .object h, r, outer, hr => by
    -- the names are all texts, so the members are those of an object
    have members := foldlM_of_makesMembers h (r := .object outer) (fun _ => rfl)
    rw [List.append_nil, ofMembers_named] at members
    exact (hr.foldlM (t := .beginObject) (by decide) rfl _).trans members
  | .unnamed h hn, r, outer, hr => by
    have members := foldlM_of_makesMembers h (r := .object outer) (fun _ => rfl)
    rw [List.append_nil, ofMembers_unnamed hn] at members
    exact (hr.foldlM (t := .beginObject) (by decide) rfl _).trans members

theorem foldlM_of_makesItems {ts vs} : MakesItems ts vs → ∀ {r before outer},
    Reading.Awaits r (.array before :: outer) →
    (ts ++ [JsonToken.endArray]).foldlM Reading.step r = some (.ended (.arr (before.reverse ++ vs)) outer)
  | .last h, r, before, outer, hr => by
    rw [Reading.foldlM_append (foldlM_of_makes h hr), ← List.reverse_cons]
    rfl
  | .more (v := v) h h', r, before, outer, hr => by
    have others := foldlM_of_makesItems h' (Reading.awaits_value (.array (v :: before) :: outer))
    rw [List.append_assoc, Reading.foldlM_append (foldlM_of_makes h hr), List.cons_append,
      Reading.foldlM_cons rfl, others, List.reverse_cons, List.append_assoc, List.singleton_append]

theorem foldlM_of_makesMembers {ts ms} : MakesMembers ts ms → ∀ {r before outer},
    Reading.AwaitsName r before outer →
    (ts ++ [JsonToken.endObject]).foldlM Reading.step r = some (.ended (ofMembers (ms.reverse ++ before)) outer)
  | @MakesMembers.last name _ _ h, r, before, outer, hr => by
    have value := foldlM_of_makes h (Reading.awaits_value (.object before name :: outer))
    rw [List.cons_append, List.cons_append, hr.foldlM, Reading.foldlM_append value]
    rfl
  | @MakesMembers.more name _ v _ _ h h', r, before, outer, hr => by
    have value := foldlM_of_makes h (Reading.awaits_value (.object before name :: outer))
    have others := foldlM_of_makesMembers h' (r := .name ((name, v) :: before) outer) (fun _ => rfl)
    rw [List.cons_append, List.cons_append, List.append_assoc, hr.foldlM, Reading.foldlM_append value,
      List.cons_append, Reading.foldlM_cons rfl, others, List.reverse_cons, List.append_assoc, List.singleton_append]

end

theorem parse?_of_standsFor {text : String} {v : Json} (h : StandsFor text v) : parse? text = some v := by
  obtain ⟨ts, spelled, made⟩ := h
  have read := foldlM_of_makes made (Reading.awaits_value [])
  rw [parse?, JsonToken.ofChars?_of_spellsAll spelled, Option.bind_some, ofTokens?, read]
  rfl

/-! ### Writing -/

/-- The numbers in the value are spelled as numbers. -/
inductive Writable : Json → Prop
  | null : Writable .null
  | bool {b} : Writable (.bool b)
  | num {literal : String} : SpellsNumber literal.toList → Writable (.num literal)
  | str {text} : Writable (.str text)
  | arr {vs} : (∀ v ∈ vs, Writable v) → Writable (.arr vs)
  | obj {ms : List (String × Json)} : (∀ m ∈ ms, Writable m.2) → Writable (.obj ms)
  | illFormed : Writable .illFormed

theorem writable_strs (texts : List String) : (Json.arr (texts.map .str)).Writable := by
  refine .arr fun v hv => ?_
  obtain ⟨text, -, rfl⟩ := List.mem_map.1 hv
  exact .str

/-- The characters spell the tokens, whatever ends them. -/
def Lays (cs : List Char) (ts : List JsonToken) : Prop :=
  ∀ rest us, Ends rest → SpellsAll rest us → SpellsAll (cs ++ rest) (ts ++ us)

theorem Lays.nil : Lays [] [] :=
  fun _ _ _ h => h

theorem Lays.token {cs : List Char} {t : JsonToken} (h : Spells cs t) : Lays cs [t] :=
  fun _ _ hr hs => .token h (fun _ => hr) hs

theorem Lays.append {cs cs' : List Char} {ts ts' : List JsonToken} {c : Char} {t : JsonToken} (h : Lays cs ts)
    (hc : (c, t) ∈ marks) (h' : Lays cs' ts') : Lays (cs ++ c :: cs') (ts ++ t :: ts') := by
  intro rest us hr hs
  have ends : Ends (c :: (cs' ++ rest)) := by
    rintro d ⟨⟩
    exact .inr (List.mem_map_of_mem hc)
  rw [List.append_assoc, List.append_assoc]
  exact h _ _ ends (.mark hc (h' rest us hr hs))

theorem Lays.enclosed {cs : List Char} {ts : List JsonToken} {c d : Char} {t u : JsonToken} (h : Lays cs ts)
    (hc : (c, t) ∈ marks) (hd : (d, u) ∈ marks) : Lays (c :: (cs ++ [d])) (t :: (ts ++ [u])) :=
  Lays.nil.append hc (h.append hd .nil)

theorem spellsAll_stringChars (text : String) {rest : List Char} {us : List JsonToken} (h : SpellsAll rest us) :
    SpellsAll (stringChars text ++ rest) (.str (some text) :: us) := by
  have spelled := Spells.str (spells_escaped text.toList) (encodes_self text.toList)
  rw [String.ofList_toList] at spelled
  exact .token spelled (fun ht => nomatch ht) h

theorem lays_stringChars (text : String) : Lays (stringChars text) [.str (some text)] :=
  fun _ _ _ h => spellsAll_stringChars text h

theorem exists_makesItems {v : Json} {vs : List Json} (h : ∀ w ∈ v :: vs, ∃ ts, Makes ts w ∧ Lays w.chars ts) :
    ∃ ts, MakesItems ts (v :: vs) ∧ Lays (itemChars (v :: vs)) ts := by
  induction vs generalizing v with
  | nil =>
    obtain ⟨ts, made, laid⟩ := h v List.mem_cons_self
    exact ⟨ts, .last made, laid⟩
  | cons w vs ih =>
    obtain ⟨ts, made, laid⟩ := h v List.mem_cons_self
    obtain ⟨us, others, rest⟩ := ih fun w hw => h w (List.mem_cons_of_mem v hw)
    exact ⟨ts ++ .comma :: us, .more made others, laid.append (by decide) rest⟩

theorem exists_makesMembers {m : String × Json} {ms : List (String × Json)}
    (h : ∀ n ∈ m :: ms, ∃ ts, Makes ts n.2 ∧ Lays n.2.chars ts) :
    ∃ ts, MakesMembers ts ((m :: ms).map fun n => (some n.1, n.2)) ∧ Lays (memberChars (m :: ms)) ts := by
  induction ms generalizing m with
  | nil =>
    obtain ⟨ts, made, laid⟩ := h m List.mem_cons_self
    exact ⟨_, .last made, (lays_stringChars m.1).append (by decide) laid⟩
  | cons n ms ih =>
    obtain ⟨ts, made, laid⟩ := h m List.mem_cons_self
    obtain ⟨us, others, rest⟩ := ih fun n hn => h n (List.mem_cons_of_mem m hn)
    exact ⟨_, .more made others, (lays_stringChars m.1).append (by decide) (laid.append (by decide) rest)⟩

/-- What is written for a value are tokens that make it up. -/
theorem exists_makes {v : Json} (h : Writable v) : ∃ ts, Makes ts v ∧ Lays v.chars ts := by
  induction h with
  | null => exact ⟨_, .null, .token .null⟩
  | @bool b => cases b with
    | true => exact ⟨_, .bool, .token .yes⟩
    | false => exact ⟨_, .bool, .token .no⟩
  | num h =>
    have spelled := Spells.num h
    rw [String.ofList_toList] at spelled
    exact ⟨_, .num, .token spelled⟩
  | str => exact ⟨_, .str, lays_stringChars _⟩
  | @arr vs _ ih => cases vs with
    | nil => exact ⟨_, .emptyArray, Lays.nil.enclosed (by decide) (by decide)⟩
    | cons v vs =>
      obtain ⟨ts, made, laid⟩ := exists_makesItems ih
      exact ⟨_, .array made, laid.enclosed (by decide) (by decide)⟩
  | @obj ms _ ih => cases ms with
    | nil => exact ⟨_, .emptyObject, Lays.nil.enclosed (by decide) (by decide)⟩
    | cons m ms =>
      obtain ⟨ts, made, laid⟩ := exists_makesMembers ih
      exact ⟨_, .object made, laid.enclosed (by decide) (by decide)⟩
  | illFormed =>
    -- what is written has the first of two surrogates in it, and nothing else
    have zero := JsonToken.digitChar_mem 0 (by decide)
    have code := SpellsCode.digits (JsonToken.digitChar_mem 13 (by decide)) (JsonToken.digitChar_mem 8 (by decide))
      zero zero
    have half : SpellsCodes ['\\', 'u', 'd', '8', '0', '0'] [0xD800] := .cons code .nil
    exact ⟨_, .noText, .token (.noText half fun text he => by cases joinSurrogates_of_encodes he)⟩

theorem standsFor_text {v : Json} (h : Writable v) : StandsFor v.text v := by
  obtain ⟨ts, made, laid⟩ := exists_makes h
  have spelled := laid [] [] (by simp [Ends]) .nil
  rw [List.append_nil, List.append_nil] at spelled
  exact ⟨ts, by rwa [text, String.toList_ofList], made⟩

end Json

end TagQuery
