/-!
# Runs of a text

`occursIn needle text` searches a text for a run; it finds one exactly if the text has it as an infix
(`occursIn_iff`).
-/

namespace TagQuery

variable {α : Type} [BEq α]

def occursIn (needle : List α) : List α → Bool
  | [] => needle.isEmpty
  | c :: rest => needle.isPrefixOf (c :: rest) || occursIn needle rest

theorem occursIn_iff [LawfulBEq α] {needle text : List α} : occursIn needle text = true ↔ needle <:+: text := by
  induction text with
  | nil => simp [occursIn]
  | cons c rest ih => simp [occursIn, List.infix_cons_iff, ih]

end TagQuery
