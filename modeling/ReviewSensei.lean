import ReviewSensei.Effects
import ReviewSensei.Dict
import ReviewSensei.ExecutionData
import ReviewSensei.ExecutionCall
import ReviewSensei.ExecutionPlan
import ReviewSensei.ExecutionSave
import ReviewSensei.CallRules
import ReviewSensei.ExecutionLoop
import ReviewSensei.PlanRules
import ReviewSensei.AdmissionRules
import ReviewSensei.SaveNaming
import ReviewSensei.SavedAggregate
import ReviewSensei.Restart
import ReviewSensei.Receipts
import ReviewSensei.DurableRuns
import ReviewSensei.AtMostOnce
import ReviewSensei.DurableOperation
import ReviewSensei.WorkRecovery
import ReviewSensei.OutputLiability
import ReviewSensei.RecoveryOperation
import ReviewSensei.Sha256
import ReviewSensei.SessionData
import ReviewSensei.SessionMutations
import ReviewSensei.Fenced
import ReviewSensei.SessionSteps
import ReviewSensei.SessionAdmission
import ReviewSensei.SessionLedger
import ReviewSensei.RoundAccounting
import ReviewSensei.PublicationMachine
import ReviewSensei.ApiWork
import ReviewSensei.ApiWorkSteps
import ReviewSensei.ApiWorkRuns
import ReviewSensei.AssessmentQueue
import ReviewSensei.Concurrency
import ReviewSensei.ReadBudget
import ReviewSensei.ReadBudgetRuns
import ReviewSensei.FindingSet
import ReviewSensei.FindingRuns
import ReviewSensei.FindingUniqueness
import ReviewSensei.Json
import ReviewSensei.ReviewComment
import ReviewSensei.ReviewResult
import ReviewSensei.VerdictSteps
import ReviewSensei.VerdictRuns
import ReviewSensei.Dispositions
import ReviewSensei.DispositionCommands
import ReviewSensei.DispositionRuns
import ReviewSensei.DiffPaths
import ReviewSensei.DiffParser
import ReviewSensei.DiffParserSteps
import ReviewSensei.DiffTracking
import ReviewSensei.Coverage
import ReviewSensei.ChangePlan
import ReviewSensei.PlanPacking
import ReviewSensei.PlanOutcomes
import ReviewSensei.PlanCoverage
import ReviewSensei.PlanSoundness
import ReviewSensei.JsonSchema
import ReviewSensei.StagingData
import ReviewSensei.StagingSteps
import ReviewSensei.StagingRuns
import ReviewSensei.HistoricalHolds
import ReviewSensei.HoldChains
import ReviewSensei.Base64
import ReviewSensei.JsonFields
import ReviewSensei.Evidence
import ReviewSensei.EvidenceSteps
import ReviewSensei.EvidenceSizes
import ReviewSensei.QuarantineState
import ReviewSensei.QuarantineOrigins
import ReviewSensei.QuarantineSteps
import ReviewSensei.QuarantinePending
import ReviewSensei.QuarantineChains
import ReviewSensei.HumanInventory
import ReviewSensei.Approval
import ReviewSensei.HumanFiles
import ReviewSensei.Eligibility
import ReviewSensei.BroaderReview
import ReviewSensei.Rescan
import ReviewSensei.RemainingProgress
import ReviewSensei.RescanRuns
import ReviewSensei.Convergence
import ReviewSensei.LaterFindings
import ReviewSensei.AdmissionRuns
import ReviewSensei.Slots
import ReviewSensei.PackedBound
import ReviewSensei.PackedCensus
import ReviewSensei.PackedWalk
import ReviewSensei.CheckOutcome
import ReviewSensei.Finalize
import ReviewSensei.MergeGate
import ReviewSensei.MergeGateSteps
import ReviewSensei.MergeGateRuns
import ReviewSensei.MergeGateSoundness
import ReviewSensei.HostResponses
import ReviewSensei.HostFinalize
import ReviewSensei.ApprovalSoundness
import ReviewSensei.Follows
import ReviewSensei.DiffTwins
import ReviewSensei.DiffLines
import ReviewSensei.DiffSegments
import ReviewSensei.DiffRecords
import ReviewSensei.DiffSlices
import ReviewSensei.CallerRequests
import ReviewSensei.CallerRequestSteps
import ReviewSensei.CallerRequestSound
import ReviewSensei.CallerRequestRuns
import ReviewSensei.CallerProtection
import ReviewSensei.CallerResponses
import ReviewSensei.NativeCapacity
import ReviewSensei.NativeAdmission
import ReviewSensei.NativeScans
import ReviewSensei.NativeLoads
import ReviewSensei.NativePromises
import ReviewSensei.NativeCharges
import ReviewSensei.NativeRuns
import ReviewSensei.CommentHost
import ReviewSensei.CommentCensus
import ReviewSensei.CommentScans
import ReviewSensei.CommentFreshness
import ReviewSensei.CommentRuns
import ReviewSensei.PackConservation
import ReviewSensei.DiffReplay
import ReviewSensei.GitRoundTrip
import ReviewSensei.PlanWorkRuns
import ReviewSensei.JsonOrder
import ReviewSensei.QueueDocuments
import ReviewSensei.FactoredHistory
import ReviewSensei.FactoredCodec
import ReviewSensei.FactoredCanonical
import ReviewSensei.FactoredRoundTrip
import ReviewSensei.FactoredRuns
import ReviewSensei.QueueState
import ReviewSensei.QueueStateRuns
import ReviewSensei.JournalRecord
import ReviewSensei.JournalRuns
import ReviewSensei.EvidenceRoundTrip
import ReviewSensei.SegmentGlob
import ReviewSensei.Discovery
import ReviewSensei.DiscoveryRuns
import ReviewSensei.FindingIdentifiers
import ReviewSensei.FindingReferences
import ReviewSensei.OverflowReview
import ReviewSensei.OverflowRuns
import ReviewSensei.BaselineDocument
import ReviewSensei.BaselineReading
import ReviewSensei.BaselineHistory
import ReviewSensei.ScopePlan
import ReviewSensei.ScopePlanSteps
import ReviewSensei.ScopePlanRuns
import ReviewSensei.CappedChoice
import ReviewSensei.PublicationSelection
import ReviewSensei.SelectionSteps
import ReviewSensei.SelectionRuns
import ReviewSensei.FrozenSelection
import ReviewSensei.JsonReading
import ReviewSensei.FileConfirmation
import ReviewSensei.FileRequestRuns
import ReviewSensei.FileReceiptRuns
import ReviewSensei.HumanFutures
import ReviewSensei.PromptAdmission
