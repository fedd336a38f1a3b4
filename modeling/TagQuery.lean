import TagQuery.Json.Options
import TagQuery.Json.Tracks
import TagQuery.Log
import TagQuery.Search
import TagQuery.Proofs.Reading
import TagQuery.Proofs.Grammar
import TagQuery.Proofs.Derivation
import TagQuery.Proofs.Brackets
import TagQuery.Proofs.Recovery
import TagQuery.Proofs.Spelling
import TagQuery.Proofs.Nesting
import TagQuery.Proofs.Meaning
import TagQuery.Proofs.Words
import TagQuery.Proofs.Scanning
import TagQuery.Proofs.Trees
import TagQuery.Proofs.Image
import TagQuery.Proofs.RoundTrip
import TagQuery.Proofs.CanonicalText
import TagQuery.Proofs.Composition
import TagQuery.Proofs.LexicalFormat
import TagQuery.Proofs.DoubleNegation
import TagQuery.Proofs.Faults
import TagQuery.Proofs.Evaluation
import TagQuery.Proofs.Provenance
import TagQuery.Proofs.Rearranging
import TagQuery.Proofs.Pulling
import TagQuery.Proofs.Stages
import TagQuery.Proofs.FoldedTexts
import TagQuery.Proofs.Cuts
import TagQuery.Proofs.Retracing
import TagQuery.Proofs.Heights
import TagQuery.Proofs.MissingOperands
import TagQuery.Proofs.FinalSigma
import TagQuery.Proofs.Sensitivity
import TagQuery.Proofs.Sorting
import TagQuery.Proofs.Lengths
import TagQuery.Proofs.Reports
import TagQuery.Proofs.Laziness
import TagQuery.Proofs.Pointing
import TagQuery.Proofs.Culprits
import TagQuery.Proofs.Traces
import TagQuery.Proofs.StringLiterals
import TagQuery.Proofs.JsonTokens
import TagQuery.Proofs.JsonValues
import TagQuery.Proofs.TrackTexts
import TagQuery.Proofs.OptionTexts
