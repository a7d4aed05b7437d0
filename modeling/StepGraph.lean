import StepGraph.FieldFunction
import StepGraph.Imaging.Barcode
import StepGraph.Graph.Route
import StepGraph.Value.Cast
import StepGraph.File.Name
import StepGraph.File.Payload
import StepGraph.Http.Target
import StepGraph.Service.Http
import StepGraph.Mail.Message
import StepGraph.Service.Delivery
import StepGraph.Context.Mapping
import StepGraph.Ai.Match
import StepGraph.Steps.ReadEmail
import StepGraph.Http.Form
import StepGraph.Records.Audit
import StepGraph.Records.Database
import StepGraph.Records.Profile
import StepGraph.Records.Imaging
import StepGraph.Records.Workflow
import StepGraph.Service.Collaborator
import StepGraph.Service.Profile
import StepGraph.Imaging.Filing
import StepGraph.Time.Pacific
import StepGraph.Audit.Recorder
import StepGraph.Walk
import StepGraph.Steps.Request
import StepGraph.Steps.Check
import StepGraph.Steps.Rename
import StepGraph.Steps.Upload
import StepGraph.Steps.Email
import StepGraph.Steps.Form
import StepGraph.Steps.Imaging
import StepGraph.Run.Visit
import StepGraph.FieldFunction.Apply
import StepGraph.Run.Seed
import StepGraph.Run.Launch
import StepGraph.Imaging.Indexing
import StepGraph.Server.Answer
import StepGraph.Records.Changes
import StepGraph.Service.Journal
import StepGraph.Records.Connection
import StepGraph.Ai.Model
import StepGraph.Ai.Registry
import StepGraph.Ai.Question
import StepGraph.Decimal.Places
import StepGraph.Logging.Message
import StepGraph.Logging.Line
import StepGraph.Logging.Setup
import StepGraph.Http.Address
import StepGraph.Http.Outgoing
import StepGraph.Decimal.Binary64
import StepGraph.Proofs.DataFaults
import StepGraph.Proofs.Exec
import StepGraph.Proofs.Trail
import StepGraph.Proofs.Course
import StepGraph.Proofs.Heap
import StepGraph.Proofs.HeapWrite
import StepGraph.Proofs.HeapProgram
import StepGraph.Proofs.Effects
import StepGraph.Proofs.Journal
import StepGraph.Proofs.Steps
import StepGraph.Proofs.Executors
import StepGraph.Proofs.VisitHeap
import StepGraph.Proofs.VisitLog
import StepGraph.Proofs.Account
import StepGraph.Proofs.WalkLog
import StepGraph.Proofs.ExecutorHeap
import StepGraph.Proofs.Frame
import StepGraph.Proofs.Prepare
import StepGraph.Proofs.RunLog
import StepGraph.Proofs.Numbering
import StepGraph.Proofs.Coverage
import StepGraph.Proofs.VisitTogether
import StepGraph.Proofs.RunTogether
import StepGraph.Proofs.Retrace
import StepGraph.Proofs.ReadBack
import StepGraph.Proofs.Planted
import StepGraph.Proofs.Sending
import StepGraph.Proofs.Overlay
import StepGraph.Proofs.VisitSending
import StepGraph.Proofs.Submission
import StepGraph.Proofs.DataFile
import StepGraph.Proofs.ScannedDocument
import StepGraph.Proofs.StoredFile
import StepGraph.Proofs.Custody
import StepGraph.Proofs.VisitCustody
import StepGraph.Proofs.PlantedGraph
import StepGraph.Proofs.Configs
import StepGraph.Proofs.KeptEntry
import StepGraph.Proofs.ComputedField
import StepGraph.Proofs.SeedCustody
import StepGraph.Proofs.Departure
import StepGraph.Proofs.OriginalData
import StepGraph.Proofs.QueuedRun
import StepGraph.Proofs.Dates
import StepGraph.Proofs.FilingHistory
import StepGraph.Proofs.Mirror
import StepGraph.Proofs.FunctionMirror
import StepGraph.Proofs.Owned
import StepGraph.Proofs.OwnedWrite
import StepGraph.Proofs.EachRecord
import StepGraph.Proofs.Together
import StepGraph.Proofs.VisitInStep
import StepGraph.Proofs.OwnRun
import StepGraph.Proofs.Twin
import StepGraph.Proofs.TwinRun
import StepGraph.Proofs.Turns
import StepGraph.Proofs.TurnTwin
import StepGraph.Proofs.Isolation
import StepGraph.Proofs.Writable
import StepGraph.Proofs.MatchCheck
import StepGraph.Proofs.Alone
import StepGraph.Proofs.CandidateLookup
import StepGraph.Proofs.CheckedReply
import StepGraph.Proofs.Choice
import StepGraph.Proofs.Selection
import StepGraph.Proofs.StoredMatch
import StepGraph.Proofs.Keys
import StepGraph.Proofs.NumberedPrompt
import StepGraph.Proofs.Reach
import StepGraph.Proofs.ResponseCopy
import StepGraph.Proofs.Precedence
import StepGraph.Proofs.FunctionFaults
import StepGraph.Proofs.Computing
import StepGraph.Proofs.Enrichment
import StepGraph.Proofs.SettingOut
import StepGraph.Proofs.Placeholders
import StepGraph.Proofs.Literals
import StepGraph.Proofs.PathVariables
import StepGraph.Proofs.Conditions
import StepGraph.Proofs.Verdict
import StepGraph.Proofs.PrintedBarcode
import StepGraph.Proofs.Dialects
import StepGraph.Proofs.LocalWrite
import StepGraph.Proofs.FannedWrite
import StepGraph.Proofs.Numerals
import StepGraph.Proofs.RemotePath
import StepGraph.Proofs.DateForms
import StepGraph.Proofs.Casting
import StepGraph.Proofs.Doubles
import StepGraph.Proofs.CastOutcome
import StepGraph.Proofs.FileNames
import StepGraph.Proofs.FilledFields
import StepGraph.Proofs.Routing
import StepGraph.Proofs.Fences
import StepGraph.Proofs.AddressLookup
import StepGraph.Proofs.Substring
