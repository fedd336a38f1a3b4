import TagQuery.Json.Tracks
import TagQuery.Proofs.JsonValues

/-!
# Tracks and their texts

A track is determined by what it answers for each tag (`Track.ext_find?`).  A track that results from inserting entries
answers with the last one that is given for the tag (`Track.find?_ofEntries`), so any track results from its own entries
(`Track.ofEntries_tags`) and is what its object is read as (`Track.ofJson?_toJson`).
-/

namespace TagQuery

theorem Entry.ofJson?_toJson (e : Entry) : Entry.ofJson? e.toJson = some e := by
  cases e with
  | one => rfl
  | many values => simp [Entry.toJson, Entry.ofJson?, Json.texts?_strs]

theorem Entry.writable_toJson (e : Entry) : e.toJson.Writable := by
  cases e with
  | one => exact .str
  | many values => exact Json.writable_strs values

namespace Track

/-- The last of the entries that are given for the tag. -/
def lastGiven (es : List (String × Entry)) (tag : String) : Option Entry :=
  ((es.filter fun e => e.1 == tag).getLast?).map (·.2)

theorem lastGiven_cons (e : String × Entry) (es : List (String × Entry)) (tag : String) :
    lastGiven (e :: es) tag = (lastGiven es tag).or (if tag = e.1 then some e.2 else none) := by
  by_cases h : tag = e.1
  · rw [if_pos h, lastGiven, List.filter_cons_of_pos (by simp [h]), List.getLast?_cons, lastGiven]
    cases (es.filter fun e => e.1 == tag).getLast? <;> rfl
  · rw [if_neg h, lastGiven, List.filter_cons_of_neg (by simpa using Ne.symm h), Option.or_none, lastGiven]

theorem lastGiven_eq_none_iff {es : List (String × Entry)} {tag : String} :
    lastGiven es tag = none ↔ tag ∉ es.map (·.1) := by
  induction es with
  | nil => simp [lastGiven]
  | cons e es ih =>
    rw [lastGiven_cons, Option.or_eq_none_iff, ih, List.map_cons, List.mem_cons, not_or, and_comm]
    by_cases h : tag = e.1 <;> simp [h]

theorem find?_ofEntries (es : List (String × Entry)) (tag : String) :
    (ofEntries es).find? tag = lastGiven es tag := by
  have inserted : ∀ t : Track,
      (es.foldl (fun t e => t.insert e.1 e.2) t).find? tag = (lastGiven es tag).or (t.find? tag) := by
    induction es with
    | nil => exact fun _ => rfl
    | cons e es ih =>
      intro t
      rw [List.foldl_cons, ih, find?_insert, lastGiven_cons, Option.or_assoc]
      by_cases h : tag = e.1 <;> simp [h]
  exact (inserted empty).trans Option.or_none

/-! ### The order of the tags -/

variable {tags : List (String × Entry)} {tag : String} {e : Entry}

theorem lookup_eq_none_of_lt (h : ∀ x ∈ tags, tag < x.1) : tags.lookup tag = none := by
  refine List.lookup_eq_none_iff.2 fun x hx => bne_iff_ne.2 fun he => ?_
  exact String.lt_irrefl x.1 (he ▸ h x hx)

theorem lookup_eq_lastGiven (sorted : tags.Pairwise fun a b => a.1 < b.1) : tags.lookup tag = lastGiven tags tag := by
  induction tags with
  | nil => rfl
  | cons t rest ih =>
    obtain ⟨smaller, sorted⟩ := List.pairwise_cons.1 sorted
    rw [lastGiven_cons, List.lookup_cons, ← ih sorted]
    by_cases h : tag = t.1
    · -- the other names are larger, so none of the others is given for the tag
      simp [h, lookup_eq_none_of_lt smaller]
    · simp [h, beq_false_of_ne h]

theorem mem_iff_lookup (sorted : tags.Pairwise fun a b => a.1 < b.1) : (tag, e) ∈ tags ↔ tags.lookup tag = some e := by
  induction tags with
  | nil => simp
  | cons t rest ih =>
    obtain ⟨smaller, sorted⟩ := List.pairwise_cons.1 sorted
    rw [List.mem_cons, ih sorted, List.lookup_cons]
    by_cases h : tag = t.1
    · simp [h, lookup_eq_none_of_lt smaller, Prod.ext_iff, eq_comm]
    · simp [h, beq_false_of_ne h, Prod.ext_iff]

theorem nodup_tags (t : Track) : t.tags.Nodup := by
  refine t.sorted.imp ?_
  rintro a b h rfl
  exact String.lt_irrefl _ h

/-- There is one list of the entries in the order of the names. -/
theorem ext_find? {t u : Track} (h : ∀ tag, t.find? tag = u.find? tag) : t = u := by
  have same : t.tags.Perm u.tags := by
    refine (List.perm_ext_iff_of_nodup t.nodup_tags u.nodup_tags).2 fun x => ?_
    rw [show x = (x.1, x.2) from rfl, mem_iff_lookup t.sorted, mem_iff_lookup u.sorted]
    exact iff_of_eq (congrArg (· = some x.2) (h x.1))
  have tags : t.tags = u.tags :=
    same.eq_of_pairwise (fun a b _ _ hab hba => absurd (String.lt_trans hab hba) (String.lt_irrefl _)) t.sorted u.sorted
  cases t
  cases u
  cases tags
  rfl

theorem pairwise_codes (t : Track) :
    t.tags.Pairwise fun a b => a.1.toList.map Char.toNat < b.1.toList.map Char.toNat := by
  refine t.sorted.imp ?_
  intro a b h
  exact List.map_lt (fun _ _ hc => hc) (String.lt_iff.1 h)

theorem ofEntries_tags (t : Track) : ofEntries t.tags = t :=
  ext_find? fun tag => (find?_ofEntries t.tags tag).trans (lookup_eq_lastGiven t.sorted).symm

/-! ### Objects -/

theorem mem_members_iff {t : Track} {v : Json} :
    (tag, v) ∈ t.tags.map (fun m => (m.1, m.2.toJson)) ↔ ∃ e, t.find? tag = some e ∧ v = e.toJson := by
  rw [List.mem_map]
  constructor
  · rintro ⟨x, hx, he⟩
    cases he
    exact ⟨x.2, (mem_iff_lookup t.sorted).1 hx, rfl⟩
  · rintro ⟨e, he, rfl⟩
    exact ⟨(tag, e), (mem_iff_lookup t.sorted).2 he, rfl⟩

theorem ofJson?_members (es : List (String × Entry)) :
    ofJson? (.obj (es.map fun e => (e.1, e.2.toJson))) = some (ofEntries es) := by
  have read : (es.map fun e => (e.1, e.2.toJson)).mapM
      (fun m : String × Json => (Entry.ofJson? m.2).map fun e => (m.1, e)) = some es :=
    Json.mapM_map_self (fun e => by simp [Entry.ofJson?_toJson]) es
  rw [ofJson?, read]
  rfl

theorem ofJson?_toJson (t : Track) : ofJson? t.toJson = some t := by
  rw [toJson, ofJson?_members, ofEntries_tags]

theorem listOfJson?_toJson (ts : List Track) : listOfJson? (.arr (ts.map toJson)) = some ts :=
  Json.mapM_map_self ofJson?_toJson ts

theorem parseList_of_standsFor {text : String} {v : Json} {ts : List Track} (h : Json.StandsFor text v)
    (hv : listOfJson? v = some ts) : parseList text = .ok ts := by
  rw [parseList, Json.parse?_of_standsFor h, Option.bind_some, hv]

/-! ### Texts -/

theorem writable_toJson (t : Track) : t.toJson.Writable := by
  refine .obj fun m hm => ?_
  obtain ⟨x, -, rfl⟩ := List.mem_map.1 hm
  exact x.2.writable_toJson

/-- The text of a list of tracks stands for it and for no other list, and is read as it. -/
theorem parseList_text (ts : List Track) :
    let text := (Json.arr (ts.map toJson)).text
    Json.StandsFor text (.arr (ts.map toJson)) ∧ parseList text = .ok ts ∧
      ∀ us : List Track, (Json.arr (us.map toJson)).text = text → us = ts := by
  have stands : ∀ us : List Track, Json.StandsFor (Json.arr (us.map toJson)).text (.arr (us.map toJson)) := by
    refine fun us => Json.standsFor_text (.arr fun v hv => ?_)
    obtain ⟨t, -, rfl⟩ := List.mem_map.1 hv
    exact t.writable_toJson
  have read : ∀ us : List Track, parseList (Json.arr (us.map toJson)).text = .ok us :=
    fun us => parseList_of_standsFor (stands us) (listOfJson?_toJson us)
  refine ⟨stands ts, read ts, fun us h => ?_⟩
  have both : Except.ok us = Except.ok ts := (read us).symm.trans ((congrArg parseList h).trans (read ts))
  exact Except.ok.inj both

/-- An object is read as if its members had been inserted one after the other: for each tag the last one counts.  What
results is written in the order of the code points and tells apart only what the last ones tell apart. -/
theorem parseList_as_inserted {es : List (String × Entry)} {text : String}
    (h : Json.StandsFor text (.arr [.obj (es.map fun e => (e.1, e.2.toJson))])) :
    ∃ t, parseList text = .ok [t] ∧ t = es.foldl (fun t e => t.insert e.1 e.2) empty ∧
      (∀ tag, t.find? tag = lastGiven es tag) ∧
      (∀ tag, tag ∉ es.map (·.1) → t.find? tag = none ∧ t.shown? tag = none) ∧
      (∀ tag value, lastGiven es tag = some (.one value) → t.shown? tag = some (.one value)) ∧
      (∀ tag values, lastGiven es tag = some (.many values) →
        t.shown? tag = some (.one (" / ".intercalate values))) ∧
      (∃ ms, t.toJson = .obj ms ∧
        (ms.Pairwise fun a b => a.1.toList.map Char.toNat < b.1.toList.map Char.toNat) ∧
        ∀ tag v, (tag, v) ∈ ms ↔ ∃ e, lastGiven es tag = some e ∧ v = e.toJson) ∧
      ∀ es' : List (String × Entry), es'.foldl (fun t e => t.insert e.1 e.2) empty = t ↔
        ∀ tag, lastGiven es' tag = lastGiven es tag := by
  have found := find?_ofEntries es
  have shown : ∀ tag, (ofEntries es).shown? tag = (lastGiven es tag).map Entry.joined :=
    fun tag => congrArg (Option.map Entry.joined) (found tag)
  refine ⟨ofEntries es, parseList_of_standsFor h ?_, rfl, found, fun tag ht => ?_, fun tag value hv => ?_,
    fun tag values hv => ?_, ⟨_, rfl, ?_, fun tag v => ?_⟩, fun es' => ⟨fun he tag => ?_, fun he => ?_⟩⟩
  · simp [listOfJson?, ofJson?_members]
  · rw [found, shown, lastGiven_eq_none_iff.2 ht]
    exact ⟨rfl, rfl⟩
  · rw [shown, hv]
    rfl
  · rw [shown, hv]
    rfl
  · exact List.pairwise_map.2 (ofEntries es).pairwise_codes
  · rw [mem_members_iff, found]
  · rw [← found, ← find?_ofEntries es', ← he]
    rfl
  · exact ext_find? fun tag => (find?_ofEntries es' tag).trans ((he tag).trans (found tag).symm)

/-- A tag is given twice, the second time with an escape in its name. -/
theorem parseList_as_inserted_escaped :
    let es := [("a", Entry.one "x"), ("a", Entry.many ["y", "z"])]
    let text := "[ \x7b\"a\":\"x\",\"\\u0061\":[\"y\",\"z\"]\x7d]"
    Json.StandsFor text (.arr [.obj (es.map fun e => (e.1, e.2.toJson))]) ∧
    ∃ t, parseList text = .ok [t] ∧ t.find? "a" = some (.many ["y", "z"]) ∧ t.shown? "a" = some (.one "y / z") ∧
      t.find? "b" = none := by
  intro es text
  have mark := @JsonToken.SpellsAll.mark
  have string := @Json.spellsAll_stringChars
  have zero := JsonToken.digitChar_mem 0 (by decide)
  have code := JsonToken.SpellsCode.digits zero zero (JsonToken.digitChar_mem 6 (by decide))
    (JsonToken.digitChar_mem 1 (by decide))
  have codes : JsonToken.SpellsCodes ['\\', 'u', '0', '0', '6', '1'] ['a'.toNat] := .cons code .nil
  have escaped : JsonToken.Spells ('"' :: (['\\', 'u', '0', '0', '6', '1'] ++ ['"'])) (.str (some "a")) :=
    .str codes (.own .nil)
  have closing := mark (c := ']') (t := .endArray) (by decide) (mark (c := '}') (t := .endObject) (by decide)
    (mark (c := ']') (t := .endArray) (by decide) .nil))
  have values := mark (c := ':') (t := .colon) (by decide) (mark (c := '[') (t := .beginArray) (by decide)
    (string "y" (mark (c := ',') (t := .comma) (by decide) (string "z" closing))))
  have members := string "a" (mark (c := ':') (t := .colon) (by decide) (string "x"
    (mark (c := ',') (t := .comma) (by decide) (.token escaped (fun ht => nomatch ht) values))))
  have spelled := mark (c := '[') (t := .beginArray) (by decide) (.space (c := ' ') (by decide)
    (mark (c := '{') (t := .beginObject) (by decide) members))
  have stands : Json.StandsFor text (.arr [.obj (es.map fun e => (e.1, e.2.toJson))]) := by
    refine ⟨_, ?_, .array (.last (.object (.more .str (.last (.array (.more .str (.last .str)))))))⟩
    convert spelled using 1
    · decide +kernel
    · rfl
  obtain ⟨t, read, -, found, absent, -, shown, -⟩ := parseList_as_inserted stands
  exact ⟨stands, t, read, found "a", shown "a" ["y", "z"] rfl, (absent "b" (by decide)).1⟩

end Track

end TagQuery
