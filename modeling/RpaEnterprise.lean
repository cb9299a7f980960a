import RpaEnterprise.Api.Csv
import RpaEnterprise.Api.Pagination
import RpaEnterprise.Api.Promotion
import RpaEnterprise.Api.WebhookFires
import RpaEnterprise.Api.WebhookSigning
import RpaEnterprise.ControlPlane.ApprovalRows
import RpaEnterprise.ControlPlane.AtMostOnce
import RpaEnterprise.ControlPlane.IdempotentCommands
import RpaEnterprise.Documents.Extraction
import RpaEnterprise.Documents.Jobs
import RpaEnterprise.Executor.Actions
import RpaEnterprise.Executor.Page
import RpaEnterprise.Executor.PagePromises
import RpaEnterprise.Executor.Session
import RpaEnterprise.Gateway.AdapterProtocol
import RpaEnterprise.Gateway.CodexSse
import RpaEnterprise.Gateway.CodexSseTransport
import RpaEnterprise.Gateway.Contract
import RpaEnterprise.Gateway.Effort
import RpaEnterprise.Gateway.Exclusivity
import RpaEnterprise.Gateway.LlmGateway
import RpaEnterprise.Gateway.ProviderUsage
import RpaEnterprise.Gateway.ResponseReplay
import RpaEnterprise.Gateway.UsageAccounting
import RpaEnterprise.Governance.Compile
import RpaEnterprise.Governance.Decisions
import RpaEnterprise.Governance.Store
import RpaEnterprise.Identity.ExactSync
import RpaEnterprise.Identity.ScimSync
import RpaEnterprise.Integration.FinishedHandoffs
import RpaEnterprise.Integration.Handoffs
import RpaEnterprise.Interpreter.Actions
import RpaEnterprise.Interpreter.AsOf
import RpaEnterprise.Interpreter.BudgetAdequacy
import RpaEnterprise.Interpreter.Commits
import RpaEnterprise.Interpreter.DecisionBranches
import RpaEnterprise.Interpreter.ExtractDedupe
import RpaEnterprise.Interpreter.ExtractMerge
import RpaEnterprise.Interpreter.Flow
import RpaEnterprise.Interpreter.FormAnswers
import RpaEnterprise.Interpreter.GraphCoverage
import RpaEnterprise.Interpreter.HumanTask
import RpaEnterprise.Interpreter.InterruptedFallback
import RpaEnterprise.Interpreter.KeptOutputs
import RpaEnterprise.Interpreter.LoopBound
import RpaEnterprise.Interpreter.LoopEntry
import RpaEnterprise.Interpreter.Machine
import RpaEnterprise.Interpreter.Moves
import RpaEnterprise.Interpreter.OperatorPause
import RpaEnterprise.Interpreter.Outcomes
import RpaEnterprise.Interpreter.Outputs
import RpaEnterprise.Interpreter.Positions
import RpaEnterprise.Interpreter.RecordDiscovery
import RpaEnterprise.Interpreter.Runs
import RpaEnterprise.Interpreter.StepBudget
import RpaEnterprise.Interpreter.Translate
import RpaEnterprise.Interpreter.Translated
import RpaEnterprise.Ir.Accepted
import RpaEnterprise.Ir.Compiled
import RpaEnterprise.Ir.Cycles
import RpaEnterprise.Ir.Scenario
import RpaEnterprise.Ir.StaticValidation
import RpaEnterprise.Irel.Compile
import RpaEnterprise.Irel.Evaluate
import RpaEnterprise.Irel.HostZones
import RpaEnterprise.Irel.Parser
import RpaEnterprise.Irel.Resolution
import RpaEnterprise.Irel.SilentFailures
import RpaEnterprise.Irel.Soundness
import RpaEnterprise.Irel.Syntax
import RpaEnterprise.Lib.Calendar
import RpaEnterprise.Lib.CanonicalJson
import RpaEnterprise.Lib.CodeUnits
import RpaEnterprise.Lib.Components
import RpaEnterprise.Lib.Descent
import RpaEnterprise.Lib.Dialogue
import RpaEnterprise.Lib.Doubles
import RpaEnterprise.Lib.Execution
import RpaEnterprise.Lib.FirstOccurrence
import RpaEnterprise.Lib.Framing
import RpaEnterprise.Lib.Json
import RpaEnterprise.Lib.KeyOrder
import RpaEnterprise.Lib.Overwriting
import RpaEnterprise.Lib.Results
import RpaEnterprise.Lib.Rfc4180
import RpaEnterprise.Lib.Rounds
import RpaEnterprise.Lib.Search
import RpaEnterprise.Lib.Session
import RpaEnterprise.Lib.Successive
import RpaEnterprise.Lib.Table
import RpaEnterprise.Lib.Text
import RpaEnterprise.Lib.Transaction
import RpaEnterprise.Offboarding.PurgeLedger
import RpaEnterprise.Pipeline.DeadLetterReplay
import RpaEnterprise.Pipeline.Normalize
import RpaEnterprise.Pipeline.RawHash
import RpaEnterprise.Pipeline.SinkDelivery
import RpaEnterprise.Runtime.AuditChain
import RpaEnterprise.Runtime.CheckoutTimer
import RpaEnterprise.Runtime.Checkouts
import RpaEnterprise.Runtime.CronFires
import RpaEnterprise.Runtime.CronSchedule
import RpaEnterprise.Runtime.CronSemantics
import RpaEnterprise.Runtime.Database
import RpaEnterprise.Runtime.ResumeTokens
import RpaEnterprise.Runtime.StateMachine
import RpaEnterprise.Runtime.TokenVerification
import RpaEnterprise.Runtime.Transitions
import RpaEnterprise.Worker.FanOutSweeper
import RpaEnterprise.Worker.SiteCircuit
