import TagQuery.Proofs.Cuts
import TagQuery.Proofs.Image

/-!
# Traces

The trace of a call are the cursors it goes through, in order: the one it begins with, what each change makes of it, and
the one that is returned (`Cursor.Call.trace`).  What can be changed at once is a `Cursor.Move`: tokens are passed, a
problem is reported, a level is entered below the limit, levels that are open are left.

From any cursor within the limit the trace is a path of such moves to the cursor that the function returns; it stays
between the level it began at and the limit, and is paid for by the tokens that are passed (`Cursor.conjunction_course`
and the lemmas beside it).  Brackets that are open are closed by nothing but the group they open
(`Cursor.conjunction_closes` and the lemmas beside it).  So calls keep the levels, the order of the tokens and the ends
of the groups (`Cursor.calls_within`).
-/

namespace TagQuery

namespace Cursor

/-- A call of one of the functions that read. -/
inductive Call where
  | conjunction (opened : Option Nat) (parts : List Expr) (c : Cursor)
  | alternation (c : Cursor)
  | alternatives (left : Expr) (links : Nat) (c : Cursor)
  | negation (c : Cursor)
  | primary (c : Cursor)

namespace Call

/-- The cursor that the call begins with. -/
def entry : Call → Cursor
  | conjunction _ _ c | alternation c | alternatives _ _ c | negation c | primary c => c

/-- The cursor that the call returns. -/
def exit : Call → Cursor
  | conjunction opened parts c => (Cursor.conjunction opened parts c).1.2
  | alternation c => (Cursor.alternation c).1.2
  | alternatives left links c => (Cursor.alternatives left links c).1.2
  | negation c => (Cursor.negation c).1.2
  | primary c => (Cursor.primary c).1.2

/-- The levels that were entered before the call and are left by it. -/
def links : Call → Nat
  | alternatives _ links _ => links
  | _ => 0

def size : Call → Nat
  | conjunction _ _ c => 4 * c.rest.length + 3
  | alternation c => 4 * c.rest.length + 2
  | alternatives _ _ c => 4 * c.rest.length
  | negation c => 4 * c.rest.length + 1
  | primary c => 4 * c.rest.length

/-- The cursors that the call goes through.  The trace of a call that it makes begins with the cursor that is handed
over and ends with the one that comes back. -/
def trace : Call → List Cursor
  | conjunction opened parts c =>
    if startsOperand c.rest = true then
      trace (alternation c) ++
        trace (conjunction opened ((Cursor.alternation c).1.1.toList ++ parts) (Cursor.alternation c).1.2)
    else
      match opened, c with
      | some p, ⟨[], depth, problems⟩ => [⟨[], depth, problems⟩, ⟨[], depth, ⟨.unclosedGroup, p⟩ :: problems⟩]
      | none, ⟨[], depth, problems⟩ => [⟨[], depth, problems⟩]
      | some _, ⟨⟨.closing, q⟩ :: rest, depth, problems⟩ =>
        [⟨⟨.closing, q⟩ :: rest, depth, problems⟩, ⟨rest, depth, problems⟩]
      | none, ⟨⟨.closing, q⟩ :: rest, depth, problems⟩ =>
        ⟨⟨.closing, q⟩ :: rest, depth, problems⟩ :: ⟨rest, depth, problems⟩ ::
          trace (conjunction none parts ⟨rest, depth, ⟨.unmatchedClose, q⟩ :: problems⟩)
      | opened, ⟨⟨l, q⟩ :: rest, depth, problems⟩ =>
        ⟨⟨l, q⟩ :: rest, depth, problems⟩ :: ⟨rest, depth, problems⟩ ::
          trace (conjunction opened parts ⟨rest, depth, ⟨.missingOperand .or, q⟩ :: problems⟩)
  | alternation c =>
    match (Cursor.negation c).1 with
    | (none, _) => trace (negation c)
    | (some left, _) => trace (negation c) ++ trace (alternatives left 0 (Cursor.negation c).1.2)
  | alternatives left links ⟨⟨.or, p⟩ :: rest, depth, problems⟩ =>
    if depth < nestingLimit then
      match (Cursor.negation ⟨rest, depth + 1, problems⟩).1 with
      | (some right, _) =>
        ⟨⟨.or, p⟩ :: rest, depth, problems⟩ :: ⟨rest, depth, problems⟩ ::
          (trace (negation ⟨rest, depth + 1, problems⟩) ++
            trace (alternatives (.or left right) (links + 1) (Cursor.negation ⟨rest, depth + 1, problems⟩).1.2))
      | (none, m) =>
        ⟨⟨.or, p⟩ :: rest, depth, problems⟩ :: ⟨rest, depth, problems⟩ ::
          (trace (negation ⟨rest, depth + 1, problems⟩) ++ [m.report (.missingOperand .or) p] ++
            [(m.report (.missingOperand .or) p).leave (links + 1)])
    else
      ⟨⟨.or, p⟩ :: rest, depth, problems⟩ ::
        ([⟨rest, depth, problems⟩, ⟨rest, depth, ⟨.nestingTooDeep, p⟩ :: problems⟩, cut ⟨rest, depth, problems⟩ p] ++
          [(cut ⟨rest, depth, problems⟩ p).leave links])
  | alternatives _ links c => [c, c.leave links]
  | negation ⟨⟨.not, p⟩ :: rest, depth, problems⟩ =>
    if startsOperand rest = true then
      if depth < nestingLimit then
        ⟨⟨.not, p⟩ :: rest, depth, problems⟩ :: ⟨rest, depth, problems⟩ ::
          (trace (negation ⟨rest, depth + 1, problems⟩) ++
            [(Cursor.negation ⟨rest, depth + 1, problems⟩).1.2.leave 1])
      else
        [⟨⟨.not, p⟩ :: rest, depth, problems⟩, ⟨rest, depth, problems⟩,
          ⟨rest, depth, ⟨.nestingTooDeep, p⟩ :: problems⟩, cut ⟨rest, depth, problems⟩ p]
    else
      [⟨⟨.not, p⟩ :: rest, depth, problems⟩, ⟨rest, depth, problems⟩,
        ⟨rest, depth, ⟨.missingOperand .not, p⟩ :: problems⟩]
  | negation c => trace (primary c)
  | primary ⟨⟨.word w, p⟩ :: rest, depth, problems⟩ =>
    [⟨⟨.word w, p⟩ :: rest, depth, problems⟩, ⟨rest, depth, problems⟩]
  | primary ⟨⟨.opening, p⟩ :: rest, depth, problems⟩ =>
    if depth < nestingLimit then
      ⟨⟨.opening, p⟩ :: rest, depth, problems⟩ :: ⟨⟨.opening, p⟩ :: rest, depth + 1, problems⟩ ::
        (trace (conjunction (some p) [] ⟨rest, depth + 1, problems⟩) ++
          [(Cursor.conjunction (some p) [] ⟨rest, depth + 1, problems⟩).1.2.leave 1])
    else
      [⟨⟨.opening, p⟩ :: rest, depth, problems⟩,
        ⟨⟨.opening, p⟩ :: rest, depth, ⟨.nestingTooDeep, p⟩ :: problems⟩,
        cut ⟨⟨.opening, p⟩ :: rest, depth, problems⟩ p]
  | primary c => [c]
termination_by k => k.size
decreasing_by
  all_goals simp only [size, List.length_cons]
  all_goals first
    | omega
    | (have shorter := (Cursor.alternation c).2.2 ‹_›; omega)
    | (have noLonger := (Cursor.negation c).2.1; omega)
    | (have noLonger := (Cursor.negation ⟨rest, depth + 1, problems⟩).2.1; simp only at noLonger; omega)

end Call

/-! ### Moves -/

/-- What can be changed at once. -/
inductive Move : Cursor → Cursor → Prop
  | pass (gone : List Token) {rest depth problems} : Move ⟨gone ++ rest, depth, problems⟩ ⟨rest, depth, problems⟩
  | report {rest depth problems x} : Move ⟨rest, depth, problems⟩ ⟨rest, depth, x :: problems⟩
  | enter {rest depth problems} : depth < nestingLimit → Move ⟨rest, depth, problems⟩ ⟨rest, depth + 1, problems⟩
  | leave {rest depth levels problems} : Move ⟨rest, depth + levels, problems⟩ ⟨rest, depth, problems⟩

/-- The level is not below `low`, and not beyond the limit. -/
def Within (low : Nat) (c : Cursor) : Prop :=
  low ≤ c.depth ∧ c.depth ≤ nestingLimit

/-- From `c` to `d`, through the cursors listed, of which each is within the levels and a move away from the next. -/
inductive Path (low : Nat) : Cursor → List Cursor → Cursor → Prop
  | refl {c} : Within low c → Path low c [c] c
  | cons {c m d ts} : Within low c → Move c m → Path low m ts d → Path low c (c :: ts) d

theorem Move.suffix {c d : Cursor} (h : Move c d) : d.rest <:+ c.rest := by
  cases h with
  | pass gone => exact List.suffix_append gone _
  | report => exact List.suffix_refl _
  | enter => exact List.suffix_refl _
  | leave => exact List.suffix_refl _

theorem Move.of_suffix {rest rest' : List Token} (h : rest' <:+ rest) (depth : Nat) (problems : List Diagnostic) :
    Move ⟨rest, depth, problems⟩ ⟨rest', depth, problems⟩ := by
  obtain ⟨gone, rfl⟩ := h
  exact .pass gone

theorem Move.of_leave {c : Cursor} {levels : Nat} (h : levels ≤ c.depth) : Move c (c.leave levels) := by
  obtain ⟨rest, depth, problems⟩ := c
  obtain ⟨k, rfl⟩ : ∃ k, depth = k + levels := ⟨depth - levels, (Nat.sub_add_cancel h).symm⟩
  rw [Cursor.leave, Nat.add_sub_cancel]
  exact .leave

namespace Path

variable {low low' depth p : Nat} {c m m' d x : Cursor} {ts us : List Cursor} {rest : List Token}
  {problems : List Diagnostic}

theorem append (h : Path low c ts m) (hm : Move m m') (h' : Path low m' us d) : Path low c (ts ++ us) d := by
  induction h with
  | refl hw => exact .cons hw hm h'
  | cons hw hn _ ih => exact .cons hw hn (ih hm)

theorem trans (h : Path low c ts m) (h' : Path low m us d) : Path low c (ts ++ us) d :=
  h.append (.pass []) h'

theorem mono (h : Path low c ts d) (hl : low' ≤ low) : Path low' c ts d := by
  induction h with
  | refl hw => exact .refl ⟨Nat.le_trans hl hw.1, hw.2⟩
  | cons hw hm _ ih => exact .cons ⟨Nat.le_trans hl hw.1, hw.2⟩ hm ih

theorem within (h : Path low c ts d) (hx : x ∈ ts) : Within low x := by
  induction h with
  | refl hw => exact List.mem_singleton.1 hx ▸ hw
  | cons hw _ _ ih =>
    rcases List.mem_cons.1 hx with rfl | hx
    · exact hw
    · exact ih hx

theorem start_mem (h : Path low c ts d) : c ∈ ts := by
  cases h <;> exact List.mem_cons_self

theorem end_mem (h : Path low c ts d) : d ∈ ts := by
  induction h with
  | refl => exact List.mem_cons_self
  | cons _ _ _ ih => exact List.mem_cons_of_mem _ ih

theorem suffix (h : Path low c ts d) (hx : x ∈ ts) : x.rest <:+ c.rest := by
  induction h with
  | refl => exact List.mem_singleton.1 hx ▸ List.suffix_refl _
  | cons _ hm _ ih =>
    rcases List.mem_cons.1 hx with rfl | hx
    · exact List.suffix_refl _
    · exact (ih hx).trans hm.suffix

/-- No token comes back on the way. -/
theorem pairwise (h : Path low c ts d) : ts.Pairwise fun a b => b.rest <:+ a.rest := by
  induction h with
  | refl => exact List.pairwise_singleton _ _
  | cons _ hm h ih => exact List.pairwise_cons.2 ⟨fun _ hx => (h.suffix hx).trans hm.suffix, ih⟩

end Path

/-- A path of no more cursors than seven for each token that is passed, and `more` besides. -/
structure Course (low : Nat) (more : Int) (c : Cursor) (ts : List Cursor) (d : Cursor) : Prop where
  path : Path low c ts d
  paid : ts.length + 7 * d.rest.length ≤ 7 * c.rest.length + more

namespace Course

variable {low low' depth p : Nat} {more more' : Int} {c m d : Cursor} {ts us : List Cursor} {t : Token}
  {rest : List Token} {problems : List Diagnostic}

theorem refl (hw : Within low c) : Course low 1 c [c] c :=
  ⟨.refl hw, by simp [Int.add_comm]⟩

theorem trans (h : Course low more c ts m) (h' : Course low more' m us d) :
    Course low (more + more') c (ts ++ us) d := by
  refine ⟨h.path.trans h'.path, ?_⟩
  have := h.paid
  have := h'.paid
  rw [List.length_append]
  omega

theorem mono (h : Course low more c ts d) (hl : low' ≤ low) : Course low' more c ts d :=
  ⟨h.path.mono hl, h.paid⟩

theorem weaken (h : Course low more c ts d) (hm : more ≤ more') : Course low more' c ts d :=
  ⟨h.path, Int.le_trans h.paid (Int.add_le_add_left hm _)⟩

theorem token (h : Course low more ⟨rest, depth, problems⟩ ts d) :
    Course low (more - 6) ⟨t :: rest, depth, problems⟩ (⟨t :: rest, depth, problems⟩ :: ts) d := by
  refine ⟨.cons (h.path.within h.path.start_mem :) (.pass [t]) h.path, ?_⟩
  have := h.paid
  simp only [List.length_cons] at this ⊢
  omega

theorem reported {x : Diagnostic} (h : Course low more ⟨rest, depth, x :: problems⟩ ts d) :
    Course low (more + 1) ⟨rest, depth, problems⟩ (⟨rest, depth, problems⟩ :: ts) d := by
  refine ⟨.cons (h.path.within h.path.start_mem :) .report h.path, ?_⟩
  have := h.paid
  simp only [List.length_cons] at this ⊢
  omega

theorem deeper (room : depth < nestingLimit) (h : Course low more ⟨rest, depth + 1, problems⟩ ts d)
    (hl : low ≤ depth) : Course low (more + 1) ⟨rest, depth, problems⟩ (⟨rest, depth, problems⟩ :: ts) d := by
  refine ⟨.cons ⟨hl, Nat.le_of_lt room⟩ (.enter room) h.path, ?_⟩
  have := h.paid
  simp only [List.length_cons] at this ⊢
  omega

/-- In the end levels are left. -/
theorem leave {levels : Nat} (h : Course (low + levels) more c ts d) :
    Course low (more + 1) c (ts ++ [d.leave levels]) (d.leave levels) := by
  have hd := h.path.within h.path.end_mem
  have left : Within low (d.leave levels) := ⟨Nat.le_sub_of_add_le hd.1, Nat.le_trans (Nat.sub_le _ _) hd.2⟩
  have hp := h.path.mono (Nat.le_add_right low levels)
  refine ⟨hp.append (.of_leave (Nat.le_trans (Nat.le_add_left _ _) hd.1)) (.refl left), ?_⟩
  have paid : ts.length + 7 * (d.leave levels).rest.length ≤ 7 * c.rest.length + more := h.paid
  rw [List.length_append, List.length_singleton]
  omega

/-- In the end a problem is reported. -/
theorem report {x : Problem} (h : Course low more c ts d) :
    Course low (more + 1) c (ts ++ [d.report x p]) (d.report x p) := by
  refine ⟨h.path.append .report (.refl (h.path.within h.path.end_mem :)), ?_⟩
  have paid : ts.length + 7 * (d.report x p).rest.length ≤ 7 * c.rest.length + more := h.paid
  rw [List.length_append, List.length_singleton]
  omega

/-- A cut: the problem is reported, and tokens are passed. -/
private theorem cut_passing (gone : Nat) (hw : Within low ⟨rest, depth, problems⟩)
    (hg : (groupEnd 0 rest).length + gone ≤ rest.length) : Course low (3 - 7 * gone) ⟨rest, depth, problems⟩
      [⟨rest, depth, problems⟩, ⟨rest, depth, ⟨.nestingTooDeep, p⟩ :: problems⟩, Cursor.cut ⟨rest, depth, problems⟩ p]
      (Cursor.cut ⟨rest, depth, problems⟩ p) := by
  refine ⟨.cons hw .report (.cons hw (.of_suffix (groupEnd_suffix 0 rest) _ _) (.refl hw)), ?_⟩
  simp only [Cursor.cut, Cursor.report, List.length_cons, List.length_nil]
  omega

theorem cut (hw : Within low ⟨rest, depth, problems⟩) : Course low 3 ⟨rest, depth, problems⟩
    [⟨rest, depth, problems⟩, ⟨rest, depth, ⟨.nestingTooDeep, p⟩ :: problems⟩, Cursor.cut ⟨rest, depth, problems⟩ p]
    (Cursor.cut ⟨rest, depth, problems⟩ p) :=
  cut_passing 0 hw (length_groupEnd_le 0 rest)

theorem cut_opening {q : Nat} (hw : Within low ⟨⟨.opening, q⟩ :: rest, depth, problems⟩) :
    Course low (-4) ⟨⟨.opening, q⟩ :: rest, depth, problems⟩
      [⟨⟨.opening, q⟩ :: rest, depth, problems⟩, ⟨⟨.opening, q⟩ :: rest, depth, ⟨.nestingTooDeep, p⟩ :: problems⟩,
        Cursor.cut ⟨⟨.opening, q⟩ :: rest, depth, problems⟩ p]
      (Cursor.cut ⟨⟨.opening, q⟩ :: rest, depth, problems⟩ p) :=
  cut_passing 1 hw (Nat.succ_le_succ (length_groupEnd_le 1 rest))

end Course

/-- What the course of an operand needs besides what the tokens pay for.  An operand that starts passes a token, which
pays for the call that asked for it as well. -/
def due (starts : Bool) : Int :=
  if starts then -2 else 1

theorem due_le (starts : Bool) : due starts ≤ 1 := by
  cases starts <;> decide

theorem Course.of_starts {low : Nat} {more : Int} {c d : Cursor} {ts : List Cursor} (h : Course low more c ts d)
    (hm : more ≤ -2) : Course low (due true) c ts d :=
  h.weaken hm

/-! ### The courses of readings -/

theorem Call.trace_item {opened : Option Nat} {parts : List Expr} {c m : Cursor} {e : Option Expr}
    (starts : startsOperand c.rest = true) (ha : (Cursor.alternation c).1 = (e, m)) :
    (conjunction opened parts c).trace =
      (alternation c).trace ++ (conjunction opened (e.toList ++ parts) m).trace := by
  rw [trace.eq_def]
  exact (if_pos starts).trans (by rw [ha])

private theorem sub_add_succ_le {links depth : Nat} (h : links ≤ depth) : depth - links + (links + 1) ≤ depth + 1 :=
  Nat.le_of_eq (congrArg (· + 1) (Nat.sub_add_cancel h))

mutual

theorem conjunction_course {opened c es d} : ReadsConjunction opened c es d → ∀ parts, c.depth ≤ nestingLimit →
    Course c.depth 2 c (Call.conjunction opened parts c).trace d
  | .unclosed, parts, hc => by
    rw [Call.trace]
    exact .reported (.refl ⟨Nat.le_refl _, hc⟩)
  | .done, parts, hc => by
    rw [Call.trace]
    exact .weaken (.refl ⟨Nat.le_refl _, hc⟩) (by decide)
  | .close, parts, hc => by
    rw [Call.trace]
    exact .weaken (.token (.refl ⟨Nat.le_refl _, hc⟩)) (by decide)
  | .unmatched h, parts, hc => by
    rw [Call.trace]
    exact (conjunction_course h parts hc).reported.token.weaken (by decide)
  | .strayOr h, parts, hc => by
    rw [Call.trace]
    · exact (conjunction_course h parts hc).reported.token.weaken (by decide)
    · exact nofun
    · exact nofun
  | .item (e := e) starts ha h, parts, hc => by
    have hm := (alternation_keeps ha).1
    have hn := alternation_course ha hc
    have hp := conjunction_course h (e.toList ++ parts) (hm ▸ hc)
    rw [starts] at hn
    rw [hm] at hp
    rw [Call.trace_item starts (alternation_eq ha)]
    exact hn.trans hp

theorem alternation_course {c e d} : ReadsAlternation c e d → c.depth ≤ nestingLimit →
    Course c.depth (due (startsOperand c.rest) + 2) c (Call.alternation c).trace d
  | .nothing h, hc => by
    rw [Call.trace, negation_eq h]
    exact (negation_course h hc).weaken (Int.le_add_of_nonneg_right (by decide))
  | .operands h hs, hc => by
    have hm := (negation_keeps h).1
    have hp := alternatives_course hs (Nat.zero_le _) (hm ▸ hc)
    rw [hm] at hp
    rw [Call.trace, negation_eq h]
    exact (negation_course h hc).trans hp

theorem alternatives_course {left links c e d} : ReadsAlternatives left links c e d → links ≤ c.depth →
    c.depth ≤ nestingLimit → Course (c.depth - links) 2 c (Call.alternatives left links c).trace d
  | .stop hn, hl, hc => by
    rw [Call.trace]
    · exact .leave (.refl ⟨Nat.le_of_eq (Nat.sub_add_cancel hl), hc⟩)
    · intro p rest depth problems hc
      exact hn (hc ▸ rfl)
  | .link room h hs, hl, hc => by
    have hm := (negation_keeps h).1
    have hn := ((negation_course h room).weaken (due_le _)).mono (Nat.le_succ_of_le (Nat.sub_le _ links))
    have hp := alternatives_course hs (hm ▸ Nat.succ_le_succ hl) (hm ▸ room)
    rw [hm, Nat.add_sub_add_right] at hp
    rw [Call.trace, if_pos room, negation_eq h]
    exact .weaken (.token (.deeper room (hn.trans hp) (Nat.sub_le _ _))) (by decide)
  | .missing room h, hl, hc => by
    have hn := ((negation_course h room).weaken (due_le _)).mono (sub_add_succ_le hl)
    rw [Call.trace, if_pos room, negation_eq h]
    exact .weaken (.token (.deeper room hn.report.leave (Nat.sub_le _ _))) (by decide)
  | .cut full, hl, hc => by
    rw [Call.trace, if_neg (Nat.not_lt.2 full)]
    exact .weaken (.token (.leave (.cut ⟨Nat.le_of_eq (Nat.sub_add_cancel hl), hc⟩))) (by decide)

theorem negation_course {c e d} : ReadsNegation c e d → c.depth ≤ nestingLimit →
    Course c.depth (due (startsOperand c.rest)) c (Call.negation c).trace d
  | .negated starts room h, hc => by
    have hn := negation_course h room
    rw [starts] at hn
    rw [Call.trace, if_pos starts, if_pos room, negation_eq h]
    exact .of_starts (.token (.deeper room hn.leave (Nat.le_refl _))) (by decide)
  | .cut starts full, hc => by
    rw [Call.trace, if_pos starts, if_neg (Nat.not_lt.2 full)]
    exact .of_starts (.token (.cut ⟨Nat.le_refl _, hc⟩)) (by decide)
  | .missing starts, hc => by
    rw [Call.trace, if_neg (starts ▸ Bool.false_ne_true)]
    exact .of_starts (.token (.reported (.refl ⟨Nat.le_refl _, hc⟩))) (by decide)
  | .primary hn h, hc => by
    rw [Call.trace, startsOperand_of_next hn]
    · exact primary_course h hc
    · intro p rest depth problems hc
      exact hn (hc ▸ rfl)

theorem primary_course {c e d} : ReadsPrimary c e d → c.depth ≤ nestingLimit →
    Course c.depth (due (startsPrimary c.rest)) c (Call.primary c).trace d
  | .word, hc => by
    rw [Call.trace]
    exact .of_starts (.token (.refl ⟨Nat.le_refl _, hc⟩)) (by decide)
  | .group room h, hc => by
    rw [Call.trace, if_pos room, conjunction_eq h []]
    exact .of_starts (.deeper room (.token (conjunction_course h [] room).leave) (Nat.le_refl _)) (by decide)
  | .cut full, hc => by
    rw [Call.trace, if_neg (Nat.not_lt.2 full)]
    exact .of_starts (.cut_opening ⟨Nat.le_refl _, hc⟩) (by decide)
  | .nothing hp, hc => by
    rw [Call.trace, hp]
    · exact .refl ⟨Nat.le_refl _, hc⟩
    · intro w p rest depth problems hc
      rw [hc] at hp
      cases hp
    · intro p rest depth problems hc
      rw [hc] at hp
      cases hp

end

theorem Call.course (k : Call) (hl : k.links ≤ k.entry.depth) (h : k.entry.depth ≤ nestingLimit) :
    Course (k.entry.depth - k.links) 3 k.entry k.trace k.exit := by
  obtain ⟨conjunctions, alternations, alternatives, negations, primaries⟩ := reads
  cases k with
  | conjunction opened parts c =>
    obtain ⟨es, hr⟩ := conjunctions opened parts c
    exact (conjunction_course hr parts h).weaken (by decide)
  | alternation c =>
    exact (alternation_course (alternations c) h).weaken (Int.add_le_add_right (due_le _) 2)
  | alternatives left links c => exact (alternatives_course (alternatives left links c) hl h).weaken (by decide)
  | negation c => exact (negation_course (negations c) h).weaken (Int.le_trans (due_le _) (by decide))
  | primary c => exact (primary_course (primaries c) h).weaken (Int.le_trans (due_le _) (by decide))

theorem Call.depth_exit (k : Call) : k.exit.depth = k.entry.depth - k.links := by
  obtain ⟨conjunctions, alternations, alternatives, negations, primaries⟩ := reads
  cases k with
  | conjunction opened parts c =>
    obtain ⟨es, hr⟩ := conjunctions opened parts c
    exact (conjunction_keeps hr).1
  | alternation c => exact (alternation_keeps (alternations c)).1
  | alternatives left links c => exact (alternatives_keeps (alternatives left links c)).1
  | negation c => exact (negation_keeps (negations c)).1
  | primary c => exact (primary_keeps (primaries c)).1

/-! ### Where a group ends -/

theorem groupEnd_groupEnd (m n : Nat) (ts : List Token) : groupEnd n (groupEnd m ts) = groupEnd (n + m) ts := by
  fun_induction groupEnd m ts with
  | case1 => rfl
  | case2 m p rest ih => exact ih
  | case3 p rest => rfl
  | case4 m p rest ih => exact ih
  | case5 m t rest h h' h'' ih =>
    obtain ⟨l, p⟩ := t
    cases l with
    | opening => exact (h p rfl).elim
    | closing =>
      cases m with
      | zero => exact (h' p rfl rfl).elim
      | succ m => exact (h'' m p rfl rfl).elim
    | _ => exact ih

mutual

theorem conjunction_closes {opened c es d} : ReadsConjunction opened c es d → ∀ p, opened = some p →
    d.rest = (groupEnd 0 c.rest).tail ∧ ∀ n, groupEnd n d.rest = groupEnd (n + 1) c.rest
  | .unclosed, _, _ => ⟨rfl, fun _ => rfl⟩
  | .close, _, _ => ⟨rfl, fun _ => rfl⟩
  | .strayOr h, p, hp => by
    obtain ⟨hd, hn⟩ := conjunction_closes h p hp
    exact ⟨hd, hn⟩
  | .item _ ha h, p, hp => by
    have keeps := alternation_stays ha
    obtain ⟨hd, hn⟩ := conjunction_closes h p hp
    rw [keeps 0] at hd
    exact ⟨hd, fun n => (hn n).trans (keeps (n + 1))⟩

theorem alternation_stays {c e d} : ReadsAlternation c e d → ∀ n, groupEnd n d.rest = groupEnd n c.rest
  | .nothing h, n => negation_stays h n
  | .operands h hs, n => (alternatives_stays hs n).trans (negation_stays h n)

theorem alternatives_stays {left links c e d} : ReadsAlternatives left links c e d →
    ∀ n, groupEnd n d.rest = groupEnd n c.rest
  | .stop _, _ => rfl
  | .link _ h hs, n => (alternatives_stays hs n).trans (negation_stays h n)
  | .missing _ h, n => negation_stays h n
  | .cut _, n => groupEnd_groupEnd 0 n _

theorem negation_stays {c e d} : ReadsNegation c e d → ∀ n, groupEnd n d.rest = groupEnd n c.rest
  | .negated _ _ h, n => negation_stays h n
  | .cut _ _, n => groupEnd_groupEnd 0 n _
  | .missing _, _ => rfl
  | .primary _ h, n => primary_stays h n

theorem primary_stays {c e d} : ReadsPrimary c e d → ∀ n, groupEnd n d.rest = groupEnd n c.rest
  | .word, _ => rfl
  | .group _ h, n => (conjunction_closes h _ rfl).2 n
  | .cut _, n => groupEnd_groupEnd 0 n _
  | .nothing _, _ => rfl

end

/-- A call that begins at `c`, within the limit, goes through a path of moves to the cursor that it returns: at no point
is the level below that of `c` or beyond the limit, it is that of `c` again in the end, no token comes back, and there
are no more cursors than seven for each token and three besides.  Where an operand starts, an alternation passes a
token.  A group is read to the bracket that closes it, which is passed, or to the end; a query is read to the end. -/
theorem calls_within (c : Cursor) (h : c.depth ≤ nestingLimit) :
    (∀ k : Call, k.entry = c → k.links = 0 →
      Path c.depth c k.trace k.exit ∧ (∀ m ∈ k.trace, c.depth ≤ m.depth ∧ m.depth ≤ nestingLimit) ∧
      k.exit.depth = c.depth ∧ (k.trace.Pairwise fun a b => b.rest <:+ a.rest) ∧
      k.trace.length ≤ 7 * c.rest.length + 3) ∧
    (startsOperand c.rest = true →
      (alternation c).1.2.rest <:+ c.rest ∧ (alternation c).1.2.rest.length < c.rest.length) ∧
    (∀ p parts, (conjunction (some p) parts c).1.2.rest = (fromUnmatched [] c.rest).tail) ∧
    ∀ parts, (conjunction none parts c).1.2.rest = [] := by
  refine ⟨?_, fun starts => ?_, fun p parts => ?_, fun parts => ?_⟩
  · rintro k rfl links
    have hk := k.course (links ▸ Nat.zero_le _) h
    have hd := k.depth_exit
    rw [links] at hk hd
    have paid := hk.paid
    refine ⟨hk.path, fun m hm => hk.path.within hm, hd, hk.path.pairwise, ?_⟩
    omega
  · have hk := (Call.alternation c).course (Nat.zero_le _) h
    exact ⟨hk.path.suffix hk.path.end_mem, (alternation c).2.2 starts⟩
  · obtain ⟨es, hr⟩ := reads.1 (some p) parts c
    rw [(conjunction_closes hr p rfl).1]
    exact congrArg List.tail (groupEnd_eq_fromUnmatched [] c.rest)
  · obtain ⟨es, hr⟩ := reads.1 none parts c
    exact conjunction_rest hr rfl

/-- At the limit a negation is entered and the bracket after it is cut. -/
theorem calls_within_at_limit :
    let c : Cursor := ⟨[⟨.not, 0⟩, ⟨.opening, 1⟩, ⟨.word "a", 2⟩, ⟨.closing, 3⟩], 255, []⟩
    c.depth ≤ nestingLimit ∧ (Call.alternation c).exit.depth = 255 ∧
    (∀ m ∈ (Call.alternation c).trace, 255 ≤ m.depth ∧ m.depth ≤ nestingLimit) ∧
    (Call.alternation c).trace.length ≤ 31 ∧ (alternation c).1.2.rest.length < 4 := by
  intro c
  have h : c.depth ≤ nestingLimit := by decide
  obtain ⟨hk, ha, -, -⟩ := calls_within c h
  obtain ⟨-, levels, depth, -, length⟩ := hk (.alternation c) rfl rfl
  exact ⟨h, depth, levels, length, (ha rfl).2⟩

end Cursor

end TagQuery
