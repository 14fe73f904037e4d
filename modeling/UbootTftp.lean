import UbootTftp.Runs
import UbootTftp.Protocol
import UbootTftp.DownloadJobs
import UbootTftp.Config
import UbootTftp.Sessions
import UbootTftp.Handlers
import UbootTftp.Terminal
import UbootTftp.Scripted
import UbootTftp.Server
import UbootTftp.Continuations
import UbootTftp.ReadRequests
import UbootTftp.Answers
import UbootTftp.SoundSessions
import UbootTftp.SessionMoves
import UbootTftp.ProperHandlers
import UbootTftp.DistinctTokens
import UbootTftp.ContinuationTokens
import UbootTftp.SessionCleanup
import UbootTftp.SessionOrigins
import UbootTftp.SessionShapes
import UbootTftp.PreflightGate
import UbootTftp.CallbackErrors
import UbootTftp.UploadHandles
import UbootTftp.PendingReceives
import UbootTftp.PendingContents
import UbootTftp.UploadRecords
import UbootTftp.UploadDelivery
import UbootTftp.FlashImages
import UbootTftp.EnvRoundTrip
import UbootTftp.LayoutSources
import UbootTftp.PatchBounds
import UbootTftp.PatchInference
import UbootTftp.SettledInference
import UbootTftp.ExportKeys
import UbootTftp.CrcIntegrity
import UbootTftp.Unquoting
import UbootTftp.RequestPaths
import UbootTftp.ReturnKeys
import UbootTftp.ReturnedValues
import UbootTftp.UpdatedKeys
import UbootTftp.ReferenceCounts
import UbootTftp.DownloadLifeCycle
import UbootTftp.ArtifactContents
import UbootTftp.EmittedRequests
import UbootTftp.ClientParts
import UbootTftp.ClientIsolation
import UbootTftp.Numbers
import UbootTftp.UbootScripts
import UbootTftp.OpenIpc
import UbootTftp.HandlerRuns
import UbootTftp.Avoidance
import UbootTftp.FlashScripts
import UbootTftp.InstallScripts
import UbootTftp.SafeFlashing
import UbootTftp.PatchAlgebra
import UbootTftp.MarkerBounds
import UbootTftp.TerminatedEnvs
import UbootTftp.TextExports
import UbootTftp.EmbeddedRecovery
import UbootTftp.MemberCandidates
import UbootTftp.MtdpartsLayouts
import UbootTftp.LexicalPaths
import UbootTftp.StaticTargets
import UbootTftp.PathConfinement
import UbootTftp.StaticUploads
import UbootTftp.ServedUploads
import UbootTftp.Casing
import UbootTftp.ClientIds
import UbootTftp.MemoryRanges
import UbootTftp.ActiveMemory
import UbootTftp.ActiveSearch
import UbootTftp.EchoedMessages
import UbootTftp.ScriptImages
import UbootTftp.NorProbe
import UbootTftp.DownloadPolls
import UbootTftp.SessionRequests
import UbootTftp.SimulatedFlows
import UbootTftp.ScriptTransfers
import UbootTftp.UnreportedShells
import UbootTftp.BoardFlashing
import UbootTftp.InstalledBoards
import UbootTftp.RestoredBackups
