import Montage.CommandLine.Run
import Montage.Compiler
import Montage.Config.Format
import Montage.Files.Stored
import Montage.Files.Tree
import Montage.Layout.Format
import Montage.Main
import Montage.Problem
import Montage.Proofs.Payload.Coverage
import Montage.Proofs.Payload.Tracks
import Montage.Proofs.Payload.Visibility
import Montage.Proofs.Payload.Captions
import Montage.Proofs.Payload.Agreement
import Montage.Proofs.Numbers.Unpacked
import Montage.Proofs.Numbers.Double
import Montage.Proofs.Numbers.DoubleLaws
import Montage.Proofs.Verdict
import Montage.Proofs.Warnings
import Montage.Proofs.Numbers.Signed
import Montage.Proofs.Overflow
import Montage.Proofs.Payload.Filled
import Montage.Proofs.Numbers.Parts
import Montage.Proofs.Numbers.Reading
import Montage.Proofs.Json.Numerals
import Montage.Proofs.Json.Tokens
import Montage.Proofs.Json.Outlines
import Montage.Proofs.Json.Storable
import Montage.Proofs.Json.Structures
import Montage.Proofs.Plan.RoundTrip
import Montage.Proofs.Files
import Montage.Proofs.Plan.Saved
import Montage.Proofs.Tuning
import Montage.Proofs.Keys
import Montage.Proofs.Edit
import Montage.Proofs.Numbers.Spacing
import Montage.Proofs.Numbers.Rounded
import Montage.Proofs.Steady
import Montage.Proofs.Append
import Montage.Proofs.Room
import Montage.Proofs.Captioning
import Montage.Proofs.Relabelling
import Montage.Proofs.CommandLine.Information
import Montage.Proofs.CommandLine.Traces
import Montage.Proofs.Placement
import Montage.Proofs.Paths
import Montage.Proofs.Standing
import Montage.Proofs.Config.RoundTrip
import Montage.Proofs.Config.Saved
import Montage.Proofs.CommandLine.Initializing
import Montage.Proofs.Json.Lexemes
import Montage.Proofs.Json.Grammar
import Montage.Proofs.Json.Members
import Montage.Proofs.Json.Edits
import Montage.Proofs.Plan.Presentation
import Montage.Proofs.Retraction
import Montage.Proofs.Durations
import Montage.Proofs.Payload.Drift
import Montage.Proofs.Lookup
import Montage.Proofs.Clock.Tiling
