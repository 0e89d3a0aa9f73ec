import Lox.Main
import Lox.Proofs.Parser.Acceptance
import Lox.Proofs.LexicalScoping
import Lox.Proofs.FrameChains
import Lox.Proofs.Defects
import Lox.Proofs.Scanner.Segments
import Lox.Proofs.Scope.Occurrences
import Lox.Proofs.Scope.Resolution
import Lox.Proofs.ScopeRules
import Lox.Proofs.Dispatch.Lineage
import Lox.Proofs.Dispatch.Run
import Lox.Proofs.Scope.Paths
import Lox.Proofs.SuperDispatch
import Lox.Proofs.CurrentFrame
import Lox.Proofs.LinearSearch
import Lox.Proofs.Continuation
import Lox.Proofs.Recovery
import Lox.Proofs.Fuel
import Lox.Proofs.Breakpoints
import Lox.Proofs.Finish
import Lox.Proofs.OutputLimit
import Lox.Proofs.FirstFailure
import Lox.Proofs.LoneExpression
import Lox.Proofs.Scanner.Seams
import Lox.Proofs.PrintedExpression
import Lox.Proofs.StaticGate
import Lox.Proofs.Scanner.Layout
import Lox.Proofs.Footprint
import Lox.Proofs.Hygiene
import Lox.Proofs.Parser.Progress
import Lox.Proofs.Lines.Parsing
import Lox.Proofs.Lines.Scoping
import Lox.Proofs.Lines.Values
import Lox.Proofs.Lines.Evaluation
import Lox.Proofs.LineIndependence
import Lox.Proofs.Numbering
import Lox.Proofs.Instances.Run
import Lox.Proofs.Initializers
import Lox.Proofs.Scanner.LongestMatch
import Lox.Proofs.Loops.Programs
import Lox.Proofs.NearestBinding
import Lox.Proofs.Calls.Parameters
import Lox.Proofs.ErrorPlaces
import Lox.Proofs.PrintedNumbers
import Lox.Proofs.UniqueReading
