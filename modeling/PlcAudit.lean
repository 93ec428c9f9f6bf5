import PlcAudit.Code.Basic
import PlcAudit.Code.Build
import PlcAudit.Code.Comment
import PlcAudit.Code.Complexity
import PlcAudit.Code.Literal
import PlcAudit.Code.Node
import PlcAudit.Code.Tree
import PlcAudit.Code.TypeText
import PlcAudit.Code.Walk
import PlcAudit.Confidence.Basic
import PlcAudit.Confidence.Statistics
import PlcAudit.Config.Basic
import PlcAudit.Config.Document
import PlcAudit.Data.Order
import PlcAudit.Data.Schedule
import PlcAudit.Data.Table
import PlcAudit.Fault
import PlcAudit.Flow.Access
import PlcAudit.Flow.Analysis
import PlcAudit.Flow.Constant
import PlcAudit.Flow.Fact
import PlcAudit.Graph.Call
import PlcAudit.Graph.Dependency
import PlcAudit.Graph.Dot
import PlcAudit.Graph.Project
import PlcAudit.Graph.Search
import PlcAudit.Issue.Basic
import PlcAudit.Json.Basic
import PlcAudit.Json.Reader
import PlcAudit.Metrics
import PlcAudit.Number.Fixed
import PlcAudit.Project.Analysis
import PlcAudit.Project.Result
import PlcAudit.Project.Session
import PlcAudit.Report.Code
import PlcAudit.Report.Config
import PlcAudit.Report.Flow
import PlcAudit.Report.Graph
import PlcAudit.Report.Issue
import PlcAudit.Report.Project
import PlcAudit.Report.Review
import PlcAudit.Report.Usage
import PlcAudit.Review.Catalogue.Basic
import PlcAudit.Review.Catalogue.Declarations
import PlcAudit.Review.Catalogue.Execution
import PlcAudit.Review.Catalogue.Operations
import PlcAudit.Review.Catalogue.Rows
import PlcAudit.Review.Catalogue.Typing
import PlcAudit.Review.Catalogue.Upkeep
import PlcAudit.Review.Change
import PlcAudit.Review.Engine
import PlcAudit.Review.Enhancement
import PlcAudit.Review.Rule.Access
import PlcAudit.Review.Rule.Basic
import PlcAudit.Review.Rule.Declaration
import PlcAudit.Review.Rule.Extent
import PlcAudit.Review.Rule.Naming
import PlcAudit.Review.Rule.Registry
import PlcAudit.Review.Rule.Structure
import PlcAudit.Review.Rule.Value
import PlcAudit.Review.Run
import PlcAudit.Review.Suppression
import PlcAudit.Text.Alphabet
import PlcAudit.Text.Capital
import PlcAudit.Text.Digest
import PlcAudit.Text.Glob
import PlcAudit.Text.Line
import PlcAudit.Text.Pattern.Basic
import PlcAudit.Text.Pattern.Matcher
import PlcAudit.Text.Pattern.Parser
import PlcAudit.Usage
import PlcAudit.Proofs.Flow.Path
import PlcAudit.Proofs.Flow.Coverage
import PlcAudit.Proofs.Data.Table
import PlcAudit.Proofs.Flow.Reachability
import PlcAudit.Proofs.Flow.Record
import PlcAudit.Proofs.Flow.ControlFlow
import PlcAudit.Proofs.Flow.Initialization
import PlcAudit.Proofs.Flow.Traversal
import PlcAudit.Proofs.Flow.AccessRecord
import PlcAudit.Proofs.Graph.CycleSearch
import PlcAudit.Proofs.Graph.CycleStep
import PlcAudit.Proofs.Graph.Dependency
import PlcAudit.Proofs.Graph.Call
import PlcAudit.Proofs.Graph.Recursion
import PlcAudit.Proofs.Issue.Order
import PlcAudit.Proofs.Review.Run
import PlcAudit.Proofs.Graph.Merge
import PlcAudit.Proofs.Graph.CallRecord
import PlcAudit.Proofs.Graph.CallHistory
import PlcAudit.Proofs.Graph.Agreement
import PlcAudit.Proofs.Code.ParentForest
import PlcAudit.Proofs.Flow.Constant
import PlcAudit.Proofs.Config.Rejection
import PlcAudit.Proofs.Graph.FileOrder
import PlcAudit.Proofs.Text.Pattern.Layout
import PlcAudit.Proofs.Review.Marker
import PlcAudit.Proofs.Review.Suppression
import PlcAudit.Proofs.Flow.CalledName
import PlcAudit.Proofs.Review.Enhancement
import PlcAudit.Proofs.Usage.UnusedFunction
import PlcAudit.Proofs.Code.Preorder
import PlcAudit.Proofs.Review.Interruption
import PlcAudit.Proofs.Data.Schedule
import PlcAudit.Proofs.Project.Parallel
import PlcAudit.Proofs.Text.Line
import PlcAudit.Proofs.Review.Location
import PlcAudit.Proofs.Metrics.Account
import PlcAudit.Proofs.Flow.Precision
import PlcAudit.Proofs.Flow.DeadCode
import PlcAudit.Proofs.Project.Answer
import PlcAudit.Proofs.Flow.Nesting
import PlcAudit.Proofs.Flow.ArgumentOrder
import PlcAudit.Proofs.Flow.InstanceCall
import PlcAudit.Proofs.Usage.FunctionSlot
import PlcAudit.Proofs.Issue.Repetition
import PlcAudit.Proofs.Review.Override
import PlcAudit.Proofs.Code.Complexity
import PlcAudit.Proofs.Code.Nesting
import PlcAudit.Proofs.Confidence.Aggregate
import PlcAudit.Proofs.Review.RepeatedCode
import PlcAudit.Proofs.Review.PointerTest
import PlcAudit.Proofs.Text.Pattern.Count
import PlcAudit.Proofs.Code.Outline
import PlcAudit.Proofs.Review.Keyword
import PlcAudit.Proofs.Review.LoopText
import PlcAudit.Proofs.Review.NestingDepth
import PlcAudit.Proofs.Review.KeywordCount
import PlcAudit.Proofs.Review.LabelCount
import PlcAudit.Proofs.Review.CommentComplexity
import PlcAudit.Proofs.Review.DefaultBranch
import PlcAudit.Proofs.Code.Literal
import PlcAudit.Proofs.Graph.Drawing
import PlcAudit.Proofs.Graph.Spelling
import PlcAudit.Proofs.Text.Cut
import PlcAudit.Proofs.Graph.WrappedType
import PlcAudit.Proofs.Graph.TypeUse
import PlcAudit.Proofs.Code.Numbering
import PlcAudit.Proofs.Project.FileCount
