/-!
# Surrogates

Characters beyond the first 65536 can be written as two surrogates, a high and a low one.  `joinSurrogates` reads a
sequence of code points in which such pairs stand; a surrogate without its partner makes it no text.
-/

namespace TagQuery

def isHighSurrogate (code : Nat) : Bool :=
  decide (0xD800 ≤ code) && decide (code < 0xDC00)

def isLowSurrogate (code : Nat) : Bool :=
  decide (0xDC00 ≤ code) && decide (code < 0xE000)

/-- The character that a high and a low surrogate stand for together. -/
def ofSurrogates (high low : Nat) : Char :=
  Char.ofNat (0x10000 + (high - 0xD800) * 0x400 + (low - 0xDC00))

/-- Reads code points that come after the characters `before`, the latest first. -/
def joinFrom (before : List Char) : List Nat → Option (List Char)
  | [] => some before.reverse
  | code :: rest =>
    if isHighSurrogate code then
      match rest with
      | low :: rest => if isLowSurrogate low then joinFrom (ofSurrogates code low :: before) rest else none
      | [] => none
    else if isLowSurrogate code then none
    else joinFrom (Char.ofNat code :: before) rest

def joinSurrogates (codes : List Nat) : Option (List Char) :=
  joinFrom [] codes

end TagQuery
