import TagQuery.Query.Diagnostic

/-!
# Failures

Why a strict query or a JSON text is refused.
-/

namespace TagQuery

inductive Failure where
  /-- The text of a query is malformed. -/
  | query (d : Diagnostic)
  /-- The text is not JSON, or not that of options. -/
  | options
  /-- The text is not JSON, or not that of a list of tracks. -/
  | tracks
  deriving DecidableEq, Repr

def Failure.message : Failure → String
  | .query d => "Query parse error: " ++ d.message
  | .options => "Config error"
  | .tracks => "Serialization error"

end TagQuery
