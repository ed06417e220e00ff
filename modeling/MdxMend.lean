import MdxMend.Text.Utf8
import MdxMend.Repair
import MdxMend.Failure
import MdxMend.Json.Value
import MdxMend.Settings.Keep
import MdxMend.Main
import MdxMend.Decimal.Shortest
import MdxMend.Proofs.Closing
import MdxMend.Proofs.Spans
import MdxMend.Proofs.Grammar
import MdxMend.Proofs.Escaper
import MdxMend.Proofs.ProseRules
import MdxMend.Proofs.Crowding
import MdxMend.Proofs.FenceLines
import MdxMend.Proofs.ProsePhase
import MdxMend.Proofs.FencePhase
import MdxMend.Proofs.Again
import MdxMend.Proofs.Layout
import MdxMend.Proofs.Disturbance
import MdxMend.Proofs.InStep
import MdxMend.Proofs.KeptCode
import MdxMend.Proofs.Tagged
import MdxMend.Proofs.Alternating
import MdxMend.Proofs.Spots
import MdxMend.Proofs.Counting
import MdxMend.Proofs.LineByLine
import MdxMend.Proofs.Apart
import MdxMend.Proofs.Locality
import MdxMend.Proofs.Returns
import MdxMend.Proofs.LineEndings
import MdxMend.Proofs.Passes
import MdxMend.Proofs.FailSoft
import MdxMend.Proofs.RealChange
import MdxMend.Proofs.ReadBack
import MdxMend.Proofs.SavedSettings
import MdxMend.Proofs.Ways
import MdxMend.Proofs.Access
import MdxMend.Proofs.PathNames
import MdxMend.Proofs.OneByOne
import MdxMend.Proofs.Modes
import MdxMend.Proofs.Retagging
import MdxMend.Proofs.Moving
import MdxMend.Proofs.KeptPlaces
import MdxMend.Proofs.Saving
import MdxMend.Proofs.Neighbours
import MdxMend.Proofs.Splicing
import MdxMend.Proofs.SmallLetters
import MdxMend.Proofs.Sanitized
import MdxMend.Proofs.Layering
import MdxMend.Proofs.WithoutCode
import MdxMend.Proofs.Totals
import MdxMend.Proofs.PathOrder
import MdxMend.Proofs.Collected
import MdxMend.Proofs.Threads
import MdxMend.Proofs.Backtracking
import MdxMend.Proofs.Written
