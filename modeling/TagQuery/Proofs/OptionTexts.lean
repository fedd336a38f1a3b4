import TagQuery.Json.Options
import TagQuery.Proofs.JsonValues

/-!
# Options and their texts

A field of options is read from the member of its name, wherever that stands: a single one counts, more of them are an
error (`Options.field_of_filter`, `Options.field_eq_none`).  So an object is read alike whatever the order of its members and
whatever else it has, what it leaves out has its default, and options are what their own text is read as
(`Options.parse_given`).
-/

namespace TagQuery

namespace Options

inductive Field where
  | folding
  | keywordTags
  | optimize
  deriving DecidableEq

def Field.name : Field → String
  | .folding => "case_folding"
  | .keywordTags => "keyword_tags"
  | .optimize => "optimize"

def Field.all : List Field := [.folding, .keywordTags, .optimize]

/-- The value of a field as it is written. -/
def value (o : Options) : Field → Json
  | .folding => .str o.folding.name
  | .keywordTags => .arr (o.keywordTags.map .str)
  | .optimize => .bool o.optimize

def member (o : Options) (f : Field) : String × Json :=
  (f.name, o.value f)

/-- The options with the default for each field that is not given. -/
def only (o : Options) (given : Field → Bool) : Options where
  folding := if given .folding then o.folding else ({} : Options).folding
  keywordTags := if given .keywordTags then o.keywordTags else ({} : Options).keywordTags
  optimize := if given .optimize then o.optimize else ({} : Options).optimize

theorem folding_ofJson?_name (k : Folding) : Folding.ofJson? (.str k.name) = some k := by
  cases k <;> decide

/-! ### Objects -/

variable {α : Type} {name : String} {decode : Json → Option α} {ms : List (String × Json)}

theorem field_of_filter (default : α) {v : Json} {x : α} {g : Bool}
    (h : (ms.filter fun m => m.1 == name) = if g then [(name, v)] else []) (hv : decode v = some x) :
    field name decode default ms = some (if g then x else default) := by
  cases g <;> simp [field, h, hv]

theorem field_eq_none (default : α)
    (h : 1 < (ms.map (·.1)).count name ∨ ∃ v, (name, v) ∈ ms ∧ decode v = none) :
    field name decode default ms = none := by
  have count : (ms.map (·.1)).count name = (ms.filter fun m => m.1 == name).length := by
    rw [List.count, List.countP_map, List.countP_eq_length_filter]
    rfl
  have mem : ∀ v, (name, v) ∈ ms → (name, v) ∈ ms.filter fun m => m.1 == name :=
    fun v hv => List.mem_filter.2 ⟨hv, beq_self_eq_true name⟩
  rw [count] at h
  -- only a single member of the name is looked at, so it is the one in question
  unfold field
  split
  · next none =>
    rw [none] at h mem
    rcases h with more | ⟨v, hv, -⟩
    · cases more
    · cases mem v hv
  · next m single =>
    rw [single] at h mem
    rcases h with more | ⟨v, hv, hd⟩
    · exact absurd more (Nat.lt_irrefl 1)
    · rw [← List.mem_singleton.1 (mem v hv), hd]
  · rfl

/-- The field is given more than once, or nothing or a number is given for it. -/
def Refused (name : String) (ms : List (String × Json)) : Prop :=
  1 < (ms.map (·.1)).count name ∨ (name, .null) ∈ ms ∨ ∃ literal, (name, .num literal) ∈ ms

theorem field_of_refused (default : α) (h : Refused name ms) (hn : decode .null = none)
    (hl : ∀ literal, decode (.num literal) = none) : field name decode default ms = none := by
  refine field_eq_none default ?_
  rcases h with more | null | ⟨literal, number⟩
  · exact .inl more
  · exact .inr ⟨_, null, hn⟩
  · exact .inr ⟨_, number, hl literal⟩

theorem name_beq_name (f f' : Field) : (f.name == f'.name) = (f == f') := by
  cases f <;> cases f' <;> decide

theorem filter_member {o : Options} {given : Field → Bool} {others : List (String × Json)}
    (h : ms.Perm ((Field.all.filter given).map o.member ++ others)) (ho : ∀ m ∈ others, ∀ f : Field, m.1 ≠ f.name)
    (f : Field) : (ms.filter fun m => m.1 == f.name) = if given f then [o.member f] else [] := by
  have none : (others.filter fun m => m.1 == f.name) = [] :=
    List.filter_eq_nil_iff.2 fun m hm => by simpa using ho m hm f
  have own : (((Field.all.filter given).map o.member).filter fun m => m.1 == f.name) =
      if given f then [o.member f] else [] := by
    have named : ((fun m : String × Json => m.1 == f.name) ∘ o.member) = fun f' => f' == f :=
      funext fun f' => name_beq_name f' f
    rw [List.filter_map, named, List.filter_filter]
    cases f <;> simp [Field.all, List.filter_cons] <;> split <;> rfl
  have found := h.filter fun m => m.1 == f.name
  rw [List.filter_append, none, own, List.append_nil] at found
  cases hg : given f <;> rw [hg] at found
  · exact List.perm_nil.1 found
  · exact List.perm_singleton.1 found

theorem ofJson?_given {o : Options} {given : Field → Bool} {others : List (String × Json)}
    (h : ms.Perm ((Field.all.filter given).map o.member ++ others)) (ho : ∀ m ∈ others, ∀ f : Field, m.1 ≠ f.name) :
    ofJson? (.obj ms) = some (o.only given) := by
  have folding := field_of_filter .sensitive (filter_member h ho .folding) (folding_ofJson?_name o.folding)
  have tags := field_of_filter [] (filter_member h ho .keywordTags) (Json.texts?_strs o.keywordTags)
  have optimize := field_of_filter true (filter_member h ho .optimize) (show Json.bool? _ = some o.optimize from rfl)
  simp only [Field.name] at folding tags optimize
  simp only [ofJson?, foldingField, tagsField, optimizeField, folding, tags, optimize, Option.bind_eq_bind,
    Option.bind_some]
  rfl

theorem ofJson?_of_refused {f : Field} (h : Refused f.name ms) : ofJson? (.obj ms) = none := by
  cases f with
  | folding =>
    have folding := field_of_refused Folding.sensitive h (show Folding.ofJson? .null = none from rfl) fun _ => rfl
    simp only [Field.name] at folding
    simp [ofJson?, foldingField, folding]
  | keywordTags =>
    have tags := field_of_refused [] h (show Json.texts? .null = none from rfl) fun _ => rfl
    simp only [Field.name] at tags
    simp [ofJson?, tagsField, tags]
  | optimize =>
    have optimize := field_of_refused true h (show Json.bool? .null = none from rfl) fun _ => rfl
    simp only [Field.name] at optimize
    simp [ofJson?, optimizeField, optimize]

/-! ### Arrays -/

theorem ofJson?_firsts (o : Options) {k : Nat} (hk : k ≤ 3) :
    ofJson? (.arr ((Field.all.take k).map o.value)) = some (o.only fun f => decide (f ∈ Field.all.take k)) := by
  have folding := folding_ofJson?_name o.folding
  have tags := Json.texts?_strs o.keywordTags
  have values : k = 0 ∨ k = 1 ∨ k = 2 ∨ k = 3 := by omega
  rcases values with rfl | rfl | rfl | rfl
  all_goals simp [Field.all, value, ofJson?, place, only, folding, tags, Json.bool?]

/-! ### Texts -/

theorem only_all (o : Options) : o.only (fun _ => true) = o := rfl

theorem writable_toJson (o : Options) : o.toJson.Writable := by
  refine .obj fun m hm => ?_
  simp only [List.mem_cons, List.not_mem_nil, or_false] at hm
  rcases hm with rfl | rfl | rfl
  · exact .str
  · exact Json.writable_strs o.keywordTags
  · exact .bool

theorem parse_of_standsFor {text : String} {v : Json} {o : Options} (h : Json.StandsFor text v)
    (hv : ofJson? v = some o) : parse text = .ok o := by
  rw [parse, Json.parse?_of_standsFor h, Option.bind_some, hv]

theorem parse_of_refused {text : String} {v : Json} (h : Json.StandsFor text v) (hv : ofJson? v = none) :
    parse text = .error .options := by
  rw [parse, Json.parse?_of_standsFor h, Option.bind_some, hv]

/-- Options are read from their own text, from any object that gives some of the fields once and has whatever members of
other names, in any order, and from the first of their values as an array; fields that are not given have their default.
No object is read that gives a field twice, or nothing or a number for it. -/
theorem parse_given (o : Options) :
    parse o.toJson.text = .ok o ∧
    (∀ (given : Field → Bool) (others ms : List (String × Json)) (text : String),
      (∀ m ∈ others, ∀ f : Field, m.1 ≠ f.name) → ms.Perm ((Field.all.filter given).map o.member ++ others) →
      Json.StandsFor text (.obj ms) → parse text = .ok (o.only given)) ∧
    (∀ k ≤ 3, ∀ text, Json.StandsFor text (.arr ((Field.all.take k).map o.value)) →
      parse text = .ok (o.only fun f => decide (f ∈ Field.all.take k))) ∧
    ∀ (f : Field) (ms : List (String × Json)) (text : String), Refused f.name ms → Json.StandsFor text (.obj ms) →
      parse text = .error .options := by
  have given : ∀ (given : Field → Bool) (others ms : List (String × Json)) (text : String),
      (∀ m ∈ others, ∀ f : Field, m.1 ≠ f.name) → ms.Perm ((Field.all.filter given).map o.member ++ others) →
      Json.StandsFor text (.obj ms) → parse text = .ok (o.only given) :=
    fun _ _ _ _ ho hp h => parse_of_standsFor h (ofJson?_given hp ho)
  refine ⟨?_, given, fun k hk text h => parse_of_standsFor h (ofJson?_firsts o hk), fun f ms text hr h => ?_⟩
  · have all := given (fun _ => true) [] _ o.toJson.text (by simp) (.refl _)
    rw [only_all] at all
    exact all (Json.standsFor_text o.writable_toJson)
  · exact parse_of_refused h (ofJson?_of_refused hr)

/-- One field is left out, another one is given after a member that does not count. -/
theorem parse_given_without_tags :
    let o : Options := ⟨.insensitive, ["a"], false⟩
    let others := [("x", Json.obj [("optimize", .num "1")])]
    let ms := [("x", Json.obj [("optimize", .num "1")]), ("optimize", .bool false), ("case_folding", .str "insensitive")]
    let text := "\x7b\"x\":\x7b\"optimize\":1\x7d,\"optimize\":false,\"case_folding\":\"insensitive\"\x7d"
    (∀ m ∈ others, ∀ f : Field, m.1 ≠ f.name) ∧
    ms.Perm ((Field.all.filter (· ≠ .keywordTags)).map o.member ++ others) ∧ Json.StandsFor text (.obj ms) ∧
    parse text = .ok ⟨.insensitive, [], false⟩ ∧ parse "[\"insensitive\"]" = .ok ⟨.insensitive, [], true⟩ ∧
    parse "\x7b\"optimize\":true,\"optimize\":true\x7d" = .error .options := by
  intro o others ms text
  have one : JsonToken.SpellsNumber ['1'] :=
    .positive (@JsonToken.SpellsInteger.digits '1' [] rfl (by decide) rfl) .none .none
  have other : ∀ m ∈ others, ∀ f : Field, m.1 ≠ f.name := by
    intro m hm f
    rw [List.mem_singleton.1 hm]
    cases f <;> decide
  have order : ms.Perm ((Field.all.filter (· ≠ .keywordTags)).map o.member ++ others) :=
    (List.Perm.swap _ _ _).trans (.trans (.cons _ (.swap _ _ _)) (.swap _ _ _))
  have object : Json.StandsFor text (.obj ms) := by
    have written : (Json.obj ms).text = text := by decide +kernel
    refine written ▸ Json.standsFor_text (.obj fun m hm => ?_)
    simp only [ms, List.mem_cons, List.not_mem_nil, or_false] at hm
    rcases hm with rfl | rfl | rfl
    · exact .obj fun m hm => List.mem_singleton.1 hm ▸ .num one
    · exact .bool
    · exact .str
  have array : Json.StandsFor "[\"insensitive\"]" (.arr ((Field.all.take 1).map o.value)) := by
    have written : (Json.arr ((Field.all.take 1).map o.value)).text = "[\"insensitive\"]" := by decide +kernel
    exact written ▸ Json.standsFor_text (.arr fun v hv => List.mem_singleton.1 hv ▸ .str)
  have twice : Json.StandsFor "\x7b\"optimize\":true,\"optimize\":true\x7d"
      (.obj [("optimize", .bool true), ("optimize", .bool true)]) := by
    have written : (Json.obj [("optimize", .bool true), ("optimize", .bool true)]).text =
      "\x7b\"optimize\":true,\"optimize\":true\x7d" := by decide +kernel
    refine written ▸ Json.standsFor_text (.obj fun m hm => ?_)
    rw [(by simpa using hm : m = ("optimize", .bool true))]
    exact .bool
  obtain ⟨-, given, firsts, refused⟩ := parse_given o
  exact ⟨other, order, object, given _ others ms text other order object, firsts 1 (by decide) _ array,
    refused .optimize _ _ (.inl (by decide)) twice⟩

end Options

end TagQuery
