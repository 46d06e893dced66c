import Aprovan.Runtime.Leader
import Aprovan.Client.SyncScope
import Aprovan.Grants.CapabilityCards
import Aprovan.Actions.ReleaseOnce
import Aprovan.Fs.StoresAgree
import Aprovan.Apps.RemovalFinal
import Aprovan.Apps.Metering
import Aprovan.Apps.CreationExclusive
import Aprovan.Vcs.SessionUpdates
import Aprovan.Vcs.SessionIsolation
import Aprovan.Vfs.ContractRuns
import Aprovan.Vfs.RouteGuard
import Aprovan.Vfs.Shares
import Aprovan.Delegation.Narrowing
import Aprovan.Fs.PrefixExact
import Aprovan.Vcs.SnapshotIds
import Aprovan.Events.Channel
import Aprovan.Apps.InstallGrants
import Aprovan.Vcs.MountTable
import Aprovan.Webhooks.ManagementWins
import Aprovan.Webhooks.Hijacks
import Aprovan.Sandboxes.ClaimOnce
import Aprovan.Sandboxes.MountPartition
import Aprovan.Sandboxes.CommitRuns
import Aprovan.Identity.SingleUse
import Aprovan.Identity.BackendsAgree
import Aprovan.Auth.Coherence
import Aprovan.Realtime.OutboundChannel
import Aprovan.Realtime.Rejections
import Aprovan.Realtime.Revocation
import Aprovan.Realtime.PresenceExact
import Aprovan.Automations.Standing
import Aprovan.Apps.DailyUsage
import Aprovan.Workflows.CronIndex
import Aprovan.Realtime.MessageSeqs
import Aprovan.Agents.ChatTurns
import Aprovan.Agents.RunCancel
import Aprovan.Agents.RunStream
import Aprovan.Records.ContractKeyValue
import Aprovan.Credentials.Resolve
import Aprovan.Actions.ReleaseFailure
import Aprovan.Editor.ApplyDiffs
import Aprovan.Doc.Reconcile
import Aprovan.Vcs.Restore
import Aprovan.Vfs.AppConfined
import Aprovan.Apps.InstallExact
import Aprovan.Apps.UpdateFailure
import Aprovan.Client.JournalDrains
import Aprovan.Client.RunChunks
import Aprovan.Vfs.ListedPages
import Aprovan.Interfaces.LegacyBindings
import Aprovan.Vcs.Transcript
import Aprovan.Apps.CutReleases
import Aprovan.Doc.FlushThreshold
import Aprovan.Apps.AllowedTools
import Aprovan.Compiler.ChangeRecords
import Aprovan.Sync.CsvExport
import Aprovan.Vcs.ConfigHash
