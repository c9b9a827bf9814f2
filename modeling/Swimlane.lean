import Swimlane.Assoc
import Swimlane.Bpmn.Document
import Swimlane.Bpmn.Element
import Swimlane.Bpmn.Expression
import Swimlane.Bpmn.Process
import Swimlane.Bpmn.SequenceFlow
import Swimlane.Bpmn.Xml
import Swimlane.Bundle
import Swimlane.CommandLine.Arguments
import Swimlane.CommandLine.Command
import Swimlane.CommandLine.Files
import Swimlane.CommandLine.Run
import Swimlane.Compiler
import Swimlane.Diagram.Column
import Swimlane.Diagram.Lane
import Swimlane.Diagram.Layout
import Swimlane.Diagram.Route
import Swimlane.Failure
import Swimlane.Form.Basic
import Swimlane.Form.Hint
import Swimlane.Form.Inference
import Swimlane.Graph.Basic
import Swimlane.Graph.Document
import Swimlane.Graph.Edit
import Swimlane.Graph.Forms
import Swimlane.Graph.OfStory
import Swimlane.Graph.Reach
import Swimlane.Graph.Search
import Swimlane.Graph.Validation
import Swimlane.Http.Charset.Basic
import Swimlane.Http.Charset.Decode
import Swimlane.Http.Charset.Names
import Swimlane.Http.Continuation
import Swimlane.Http.EncodedWord
import Swimlane.Http.Field
import Swimlane.Http.MediaType
import Swimlane.Http.Parameter
import Swimlane.Http.RawText
import Swimlane.Http.Target
import Swimlane.Insights
import Swimlane.Json.Basic
import Swimlane.Json.Display
import Swimlane.Json.Printer
import Swimlane.Json.Reader
import Swimlane.Main
import Swimlane.Misfit
import Swimlane.Number.Binary64
import Swimlane.Number.Numeral
import Swimlane.Number.Shortest
import Swimlane.Placeholder
import Swimlane.Proofs.Assoc
import Swimlane.Proofs.BuiltGraph
import Swimlane.Proofs.Canonical
import Swimlane.Proofs.DeadCode
import Swimlane.Proofs.Derivations
import Swimlane.Proofs.Drawable
import Swimlane.Proofs.Drawing
import Swimlane.Proofs.Except
import Swimlane.Proofs.FallThrough
import Swimlane.Proofs.FreshNames
import Swimlane.Proofs.Identifiers
import Swimlane.Proofs.JsonText
import Swimlane.Proofs.Links
import Swimlane.Proofs.Meaning
import Swimlane.Proofs.Pipeline
import Swimlane.Proofs.Placement
import Swimlane.Proofs.Preservation
import Swimlane.Proofs.Reachability
import Swimlane.Proofs.RoundTrip
import Swimlane.Proofs.ScriptDocuments
import Swimlane.Proofs.Search
import Swimlane.Proofs.Simulation
import Swimlane.Proofs.SoundLayouts
import Swimlane.Proofs.StateNames
import Swimlane.Proofs.TextFiles
import Swimlane.Proofs.Validation
import Swimlane.Proofs.Validity
import Swimlane.Report
import Swimlane.Service
import Swimlane.Settings
import Swimlane.Story.Line
import Swimlane.Story.Parser
import Swimlane.Story.Sentence
import Swimlane.Story.Statement
import Swimlane.Text.Base64
import Swimlane.Text.Blank
import Swimlane.Text.CaseRun
import Swimlane.Text.CodeRange
import Swimlane.Text.DecimalDigit
import Swimlane.Text.Fresh
import Swimlane.Text.Hexadecimal
import Swimlane.Text.Identifier
import Swimlane.Text.Keyword
import Swimlane.Text.Lines
import Swimlane.Text.LowerCase
import Swimlane.Text.Printable
import Swimlane.Text.Quoted
import Swimlane.Text.Surrogate
import Swimlane.Text.UpperCase
import Swimlane.Text.Utf8
import Swimlane.Text.WordChar
import Swimlane.Proofs.LayoutParts
import Swimlane.Proofs.XmlTree
import Swimlane.Proofs.DocumentParts
import Swimlane.Proofs.Grouping
import Swimlane.Proofs.SequenceFlows
import Swimlane.Proofs.DocumentIds
import Swimlane.Proofs.References
import Swimlane.Proofs.UniqueIds
import Swimlane.Proofs.Entities
import Swimlane.Proofs.MarkupReader
import Swimlane.Proofs.MarkupSafety
import Swimlane.Proofs.Collisions
import Swimlane.Proofs.Emission
import Swimlane.Proofs.DocumentTypes
import Swimlane.Proofs.Exports
import Swimlane.Proofs.StartEvent
import Swimlane.Proofs.FormArtifacts
import Swimlane.Proofs.FormKeys
import Swimlane.Proofs.SourceLayout
import Swimlane.Proofs.Endpoints
import Swimlane.Proofs.StateOrder
import Swimlane.Proofs.ShortestPaths
import Swimlane.Proofs.LanePartition
import Swimlane.Proofs.Occupancy
import Swimlane.Proofs.LetterCase
import Swimlane.Proofs.Labels
import Swimlane.Proofs.Subjects
import Swimlane.Proofs.ActingLanes
import Swimlane.Proofs.Routes
import Swimlane.Proofs.StraightRoutes
import Swimlane.Proofs.FlowLines
import Swimlane.Proofs.Firsts
import Swimlane.Proofs.Keywords
import Swimlane.Proofs.Placeholders
import Swimlane.Proofs.Clauses
import Swimlane.Proofs.FormFields
import Swimlane.Proofs.BlamedLines
import Swimlane.Proofs.Conditions
import Swimlane.Proofs.SendLines
import Swimlane.Proofs.Slugs
import Swimlane.Proofs.Bundles
import Swimlane.Proofs.FlowInsights
import Swimlane.Proofs.LegalText
import Swimlane.Proofs.LegalForms
import Swimlane.Proofs.LegalMarkup
import Swimlane.Proofs.LegalParts
import Swimlane.Proofs.StatementTexts
import Swimlane.Proofs.LegalDocuments
import Swimlane.Proofs.NameWords
