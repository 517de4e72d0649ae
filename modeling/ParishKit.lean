import ParishKit.Accounts.Authority
import ParishKit.Accounts.AuthorityInvariant
import ParishKit.Accounts.ConfigurationInstallation
import ParishKit.Accounts.InstallationSafety
import ParishKit.Jobs.TaskMove
import ParishKit.Jobs.TaskRun
import ParishKit.Lib.Except
import ParishKit.Lib.Keyed
import ParishKit.Lib.Transition
import ParishKit.Pipeline
import ParishKit.Responses.AcceptedBase
import ParishKit.Responses.Capabilities
import ParishKit.Responses.CensusBook
import ParishKit.Responses.CensusDerivation
import ParishKit.Responses.CensusIndex
import ParishKit.Responses.CensusResubmission
import ParishKit.Responses.CensusReview
import ParishKit.Responses.Change
import ParishKit.Responses.Comparison
import ParishKit.Responses.ConflictVisibility
import ParishKit.Responses.Creation
import ParishKit.Responses.Merge
import ParishKit.Responses.MinistryDerivation
import ParishKit.Responses.MinistryForm
import ParishKit.Responses.Publication
import ParishKit.Responses.PublicationRuns
import ParishKit.Responses.PublicationSafety
import ParishKit.Responses.PublicationTables
import ParishKit.Responses.PublicationWorker
import ParishKit.Responses.Reconciliation
import ParishKit.Responses.ReviewedCensus
import ParishKit.Responses.Source
import ParishKit.Workflows.MinistryBookInvariant
import ParishKit.Workflows.MinistryRequests
import ParishKit.Workflows.MinistryResubmission
import ParishKit.Workflows.OneRequest
import ParishKit.Jobs.TaskMove
import ParishKit.Jobs.TaskRun
import ParishKit.Jobs.TaskChains
import ParishKit.Jobs.TaskFencing
import ParishKit.Jobs.OutboxMessage
import ParishKit.Jobs.OutboxStorage
import ParishKit.Jobs.OutboxCommands
import ParishKit.Jobs.OutboxCreation
import ParishKit.Jobs.OutboxJournal
import ParishKit.Jobs.MailJournal
import ParishKit.Jobs.AddressRetry
import ParishKit.Jobs.AddressRetryOutcome
import ParishKit.Jobs.AddressRetryRuns
import ParishKit.Jobs.AddressFollowUps
import ParishKit.Lib.Calendar
import ParishKit.Source.Compaction
import ParishKit.Source.RetentionPolicy
import ParishKit.Source.CompactionSafety
import ParishKit.Lib.DateText
import ParishKit.Campaigns.RepeatRule
import ParishKit.Campaigns.RepeatReading
import ParishKit.Campaigns.RepeatDays
import ParishKit.Campaigns.RepeatAgreement
import ParishKit.Campaigns.ReportSchedule
import ParishKit.Campaigns.ReportCandidates
import ParishKit.Campaigns.ReportSlots
import ParishKit.Responses.NotSeen
import ParishKit.Responses.RefreshRecording
import ParishKit.Responses.RefreshSettled
import ParishKit.Campaigns.Intervals
import ParishKit.Campaigns.ReportPaging
import ParishKit.Campaigns.ReportForecast
import ParishKit.Runner.LockFile
import ParishKit.Runner.LockSafety
import ParishKit.Campaigns.ScheduleRecovery
import ParishKit.Campaigns.RecoveryRuns
import ParishKit.SignIn.AddressMatch
import ParishKit.SignIn.MatchSafety
import ParishKit.Lib.Separated
import ParishKit.Responses.TextLaws
import ParishKit.Responses.AnswerValidation
import ParishKit.Responses.ReadBack
import ParishKit.Responses.PublishAgain
import ParishKit.Source.Corpus
import ParishKit.Source.FamilyEligibility
import ParishKit.Source.LoadedCorpus
import ParishKit.Source.LoadedEligibility
import ParishKit.Source.LoadPromotes
import ParishKit.Source.RefreshCadence
import ParishKit.Source.RefreshProduction
import ParishKit.Source.RefreshShortcut
import ParishKit.Source.RefreshRuns
import ParishKit.Campaigns.LocalDays
import ParishKit.Campaigns.LocalBoundary
import ParishKit.Source.RefreshWindow
import ParishKit.Source.DataAge
import ParishKit.Accounts.LocalBuckets
import ParishKit.Accounts.LimiterWindow
import ParishKit.Accounts.LimiterAggregate
import ParishKit.Source.RefreshRules
import ParishKit.Source.ScheduleUpgrade
import ParishKit.Lib.ForwardPass
import ParishKit.Reports.Calculations
import ParishKit.Reports.DayByDay
import ParishKit.Configuration.Documents
import ParishKit.Configuration.RequestPatch
import ParishKit.Configuration.PatchEffect
import ParishKit.Configuration.DocumentOrder
import ParishKit.Configuration.PatchOrder
import ParishKit.Configuration.PatchFrame
import ParishKit.Lib.DecimalText
import ParishKit.Lib.InstantText
import ParishKit.Lib.JsonReading
import ParishKit.Source.Canonical
import ParishKit.Source.CanonicalForm
import ParishKit.Source.FamilyNames
import ParishKit.Source.FamilyNamesSql
import ParishKit.Source.FamilyNamesAgree
import ParishKit.Source.FamilyNamesShown
import ParishKit.Lib.Records
import ParishKit.ParishSoft.Dataset
import ParishKit.ParishSoft.ClosedDataset
import ParishKit.GoogleGroup.Desired
import ParishKit.GoogleGroup.Actions
import ParishKit.GoogleGroup.Converges
import ParishKit.ContactSync.Desired
import ParishKit.ContactSync.Actions
import ParishKit.ContactSync.Executed
import ParishKit.ContactSync.Settles
import ParishKit.ContactSync.Converges
import ParishKit.ContactSync.Names
import ParishKit.ContactSync.Planned
import ParishKit.ContactSync.RunActions
import ParishKit.GoogleGroup.DesiredSet
import ParishKit.Lib.DataTree
import ParishKit.Lib.Dict
import ParishKit.Lib.InTurn
import ParishKit.Lib.JsonText
import ParishKit.Lib.Search
import ParishKit.Lib.SortedSet
import ParishKit.Lib.TokenBucket
import ParishKit.Lib.Zone
import ParishKit.ParishSoft.Addresses
import ParishKit.ParishSoft.FilterPasses
import ParishKit.Reservations.Events
import ParishKit.Responses.RefreshChecks
import ParishKit.Reservations.Decisions
import ParishKit.Reservations.ListingOrder
import ParishKit.Reservations.Answering
import ParishKit.ParishSoft.Pages
import ParishKit.Reservations.CalendarRuns
import ParishKit.ParishSoft.PagesSound
import ParishKit.ParishSoft.PagesExact
import ParishKit.Campaigns.CanonicalRule
import ParishKit.Campaigns.RuleCuts
import ParishKit.Lib.DateOrder
import ParishKit.Lib.Distinct
import ParishKit.Lib.RecordEdits
import ParishKit.ReminderSeries.Edited
import ParishKit.ReminderSeries.Plan
import ParishKit.ReminderSeries.PlanSafety
import ParishKit.ReminderSeries.PlanSteps
import ParishKit.ReminderSeries.Records
import ParishKit.ReminderSeries.Repeats
import ParishKit.ReminderSeries.SeriesEdits
import ParishKit.ReminderSeries.Upkeep
import ParishKit.Lifecycle.Transitions
import ParishKit.Lifecycle.Activation
import ParishKit.Lifecycle.Storage
import ParishKit.Lifecycle.Writes
import ParishKit.Lifecycle.Invariant
import ParishKit.Lifecycle.ActivationSafety
import ParishKit.Lifecycle.Admission
import ParishKit.Lifecycle.Agreement
import ParishKit.Lifecycle.Ledger
import ParishKit.Lifecycle.Commands
import ParishKit.Lifecycle.Locked
