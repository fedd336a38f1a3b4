import TagQuery.Folding

/-!
# Search options

How the text of a query is turned into a matcher.
-/

namespace TagQuery

/-- The tags that keywords are usually looked for in. -/
def defaultKeywordTags : List String := ["artist", "album", "title"]

structure Options where
  folding : Folding := .sensitive
  /-- The tags that a keyword is looked for in. -/
  keywordTags : List String := []
  /-- Whether short conditions are tried before long ones. -/
  optimize : Bool := true
  deriving DecidableEq, Repr

end TagQuery
