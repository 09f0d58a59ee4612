import Semicolon.Lines.ByteScan
import Semicolon.Lines.Canonical
import Semicolon.Lines.Position
import Semicolon.Main
import Semicolon.Progress
import Semicolon.Proofs.Numeral
import Semicolon.Proofs.Transform
import Semicolon.Report.Reader
import Semicolon.Proofs.RuleOrder
import Semicolon.Proofs.FileTree
import Semicolon.Proofs.Utf8
import Semicolon.Proofs.Layout
import Semicolon.Proofs.Running
import Semicolon.Proofs.Opening
import Semicolon.Proofs.Delivery
import Semicolon.Proofs.InPlace
import Semicolon.Proofs.Concatenation
import Semicolon.Tally.Bounded
import Semicolon.Proofs.Accounting
import Semicolon.Proofs.Session
import Semicolon.Proofs.Explanation
import Semicolon.Proofs.TokenGrammar
import Semicolon.Proofs.LastWord
import Semicolon.Proofs.Indentation
import Semicolon.Proofs.Failing
import Semicolon.Proofs.Validation
import Semicolon.Proofs.TrailingBlanks
import Semicolon.Proofs.Canonical
import Semicolon.Proofs.Merging
import Semicolon.Proofs.ByteScan
import Semicolon.Proofs.Size
import Semicolon.Proofs.PathOrder
import Semicolon.Proofs.Resolution
import Semicolon.Proofs.Spelling
import Semicolon.Proofs.Configuration
import Semicolon.Proofs.Diagnosis
import Semicolon.Proofs.Decoding
import Semicolon.Json.Grammar
import Semicolon.Proofs.JsonReading
import Semicolon.Proofs.JsonWriting
import Semicolon.Proofs.Reports
