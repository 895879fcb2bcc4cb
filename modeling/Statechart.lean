import Statechart.Chart.Basic
import Statechart.Chart.Build
import Statechart.Chart.File
import Statechart.Chart.Printer
import Statechart.Chart.Reader
import Statechart.Checksum
import Statechart.Configuration.Basic
import Statechart.Configuration.Move
import Statechart.Configuration.Selection
import Statechart.Content
import Statechart.Decimal.Layout
import Statechart.Decimal.Shortest
import Statechart.Engine.Basic
import Statechart.Engine.Phase
import Statechart.Engine.Run
import Statechart.Engine.Step
import Statechart.Error
import Statechart.Evaluator
import Statechart.Event.Basic
import Statechart.Event.Descriptor
import Statechart.Event.Queue
import Statechart.Expr.Basic
import Statechart.Expr.Eval
import Statechart.Expr.Lexer
import Statechart.Expr.Parser
import Statechart.Expr.Path
import Statechart.Expr.Token
import Statechart.Json.Basic
import Statechart.Json.Printer
import Statechart.Json.Reader
import Statechart.Json.Token
import Statechart.Main
import Statechart.Model.Basic
import Statechart.Model.Kind
import Statechart.Model.Outline
import Statechart.Model.Tree
import Statechart.Model.Validation
import Statechart.NodeSet
import Statechart.Prompt
import Statechart.Proofs.Chart.Branches
import Statechart.Proofs.Chart.Encoding
import Statechart.Proofs.Chart.Flat
import Statechart.Proofs.Chart.ReadBack
import Statechart.Proofs.Chart.Worded
import Statechart.Proofs.Configuration.Addition
import Statechart.Proofs.Configuration.Atomic
import Statechart.Proofs.Configuration.Conflicts
import Statechart.Proofs.Configuration.Domains
import Statechart.Proofs.Configuration.Legality
import Statechart.Proofs.Configuration.Maximality
import Statechart.Proofs.Configuration.Preemption
import Statechart.Proofs.Configuration.Selection
import Statechart.Proofs.Configuration.Taking
import Statechart.Proofs.Engine.Blocks
import Statechart.Proofs.Engine.Chain
import Statechart.Proofs.Engine.Coherence
import Statechart.Proofs.Engine.Completion
import Statechart.Proofs.Engine.ContentOrder
import Statechart.Proofs.Engine.Coupling
import Statechart.Proofs.Engine.Course
import Statechart.Proofs.Engine.Delivery
import Statechart.Proofs.Engine.Draining
import Statechart.Proofs.Engine.Exposure
import Statechart.Proofs.Engine.Failure
import Statechart.Proofs.Engine.Interleaving
import Statechart.Proofs.Engine.Labels
import Statechart.Proofs.Engine.Microstep
import Statechart.Proofs.Engine.Observation
import Statechart.Proofs.Engine.Publication
import Statechart.Proofs.Engine.Restart
import Statechart.Proofs.Engine.Session
import Statechart.Proofs.Engine.Soundness
import Statechart.Proofs.Engine.Stability
import Statechart.Proofs.Engine.Stabilization
import Statechart.Proofs.Engine.Stepping
import Statechart.Proofs.Engine.Stopping
import Statechart.Proofs.Evaluation.Caching
import Statechart.Proofs.Evaluation.Calls
import Statechart.Proofs.Evaluation.Coupling
import Statechart.Proofs.Evaluation.Unread
import Statechart.Proofs.Event.Matching
import Statechart.Proofs.Expr.Assignment
import Statechart.Proofs.Expr.Dotted
import Statechart.Proofs.Expr.Grammar
import Statechart.Proofs.Expr.Locality
import Statechart.Proofs.Expr.Spelling
import Statechart.Proofs.Json.Fields
import Statechart.Proofs.Model.Ancestry
import Statechart.Proofs.Model.Closure
import Statechart.Proofs.Model.Consistency
import Statechart.Proofs.Model.Continuation
import Statechart.Proofs.Model.Domain
import Statechart.Proofs.Model.Layout
import Statechart.Proofs.Model.Shape
import Statechart.Proofs.Model.Validity
import Statechart.Proofs.Model.WellFormed
import Statechart.Proofs.Prompt
import Statechart.Proofs.Scope
import Statechart.Proofs.Text.Words
import Statechart.Proofs.Tree.Record
import Statechart.Report
import Statechart.Scope
import Statechart.Settings
import Statechart.Text.Blank
import Statechart.Text.Digits
import Statechart.Text.Letter
import Statechart.Text.Quoted
import Statechart.Tree.Basic
import Statechart.Tree.Plain
import Statechart.Tree.Reading
import Statechart.Yaml.Cursor
import Statechart.Yaml.Node
import Statechart.Yaml.Scalar
import Statechart.Yaml.Token
