import MacroKeyboard.PlanWellFormed
import MacroKeyboard.LiteralText
import MacroKeyboard.Executor.ReleaseSafety
import MacroKeyboard.Executor.Confirmation
import MacroKeyboard.Executor.Cancellation
import MacroKeyboard.Executor.SingleFlight
import MacroKeyboard.Executor.TerminalReady
import MacroKeyboard.Records.PaddedText
import MacroKeyboard.Settings.Coherence
import MacroKeyboard.Device.Credentials
import MacroKeyboard.Auth.Sessions
import MacroKeyboard.Auth.RateLimit
import MacroKeyboard.Threads.Restarts
import MacroKeyboard.Blobs.Storage
import MacroKeyboard.Blobs.Acceptance
import MacroKeyboard.Settings.Frame
import MacroKeyboard.Device.ConfirmationPolicy
import MacroKeyboard.Device.LostUpdates
import MacroKeyboard.Device.Verifier
import MacroKeyboard.Auth.Lifetimes
import MacroKeyboard.Device.Unwinding
import MacroKeyboard.Webapp.SaveOutcomes
import MacroKeyboard.Webapp.SendOnce
import MacroKeyboard.Threads.Alone
import MacroKeyboard.Web.RequestsAgree
import MacroKeyboard.Webapp.CompilersAgree
import MacroKeyboard.Auth.Lockout
import MacroKeyboard.Web.CandidateFrames
import MacroKeyboard.Web.SetupRestart
import MacroKeyboard.Files.AtomicOutcome
import MacroKeyboard.Blobs.RoundTrip
import MacroKeyboard.Executor.CompiledRuns
import MacroKeyboard.Reset.Refusals
import MacroKeyboard.Reset.BootErasure
import MacroKeyboard.Webapp.Repository
import MacroKeyboard.Webapp.RepositoryEdits
import MacroKeyboard.Blobs.Identifiers
import MacroKeyboard.Settings.Utf8Checks
import MacroKeyboard.Web.SessionCookie
import MacroKeyboard.Web.JsonWriter
import MacroKeyboard.Webapp.RepositoryRoundTrip
import MacroKeyboard.AccessPoint.Interleaving
import MacroKeyboard.Web.CredentialMemory
import MacroKeyboard.Blobs.PowerLoss
import MacroKeyboard.Reset.CrashProtocol
import MacroKeyboard.Async.Dispatch
import MacroKeyboard.Async.Ownership
import MacroKeyboard.Async.RequestOwnership
import MacroKeyboard.Webapp.Tracking
import MacroKeyboard.Web.SendBody
import MacroKeyboard.Web.TreeResults
import MacroKeyboard.AccessPoint.SequentialStart
import MacroKeyboard.Reset.ResetRuns
import MacroKeyboard.Blobs.StoreRuns
