import GrantTapRelay.Library.Runs
import GrantTapRelay.Library.Leases
import GrantTapRelay.Mailbox.AcceptedSubmissions
import GrantTapRelay.Relay.Validation
import GrantTapRelay.TaskDispatch.OneReceiver
import GrantTapRelay.TaskDispatch.Revocation
import GrantTapRelay.TaskDispatch.Offers
import GrantTapRelay.Wake.Throttle
import GrantTapRelay.Wake.Budget
import GrantTapRelay.Push.Registrations
import GrantTapRelay.RetainedState.LatestRevision
import GrantTapRelay.Node.Retention
import GrantTapRelay.Node.ManagedAdmission
import GrantTapRelay.Relay.ConnectionPolicy
import GrantTapRelay.Node.SpentCoolDowns
import GrantTapRelay.Node.ManagedSockets
import GrantTapRelay.Node.HelloReplay
import GrantTapRelay.Laws.Routing
import GrantTapRelay.Library.Eviction
import GrantTapRelay.Relay.LongestSuffix
import GrantTapRelay.Mailbox.Agreement
import GrantTapRelay.Pairing.SingleUse
import GrantTapRelay.Mailbox.Flush
import GrantTapRelay.Library.Chains
import GrantTapRelay.TaskActivities.Once
import GrantTapRelay.TaskActivities.Agreement
import GrantTapRelay.Laws.StoredReceipts
import GrantTapRelay.Laws.Addressees
import GrantTapRelay.Laws.ConnectionLeases
import GrantTapRelay.TaskDispatch.Capacity
import GrantTapRelay.TaskDispatch.Ciphertexts
import GrantTapRelay.Relay.WireGrammar
import GrantTapRelay.Node.SendLedger
import GrantTapRelay.Node.Allowances
import GrantTapRelay.Relay.CoolDownSeries
import GrantTapRelay.Relay.RelayLog
import GrantTapRelay.RetainedState.Convergence
import GrantTapRelay.RetainedState.Interrupted
import GrantTapRelay.TaskDispatch.Paging
import GrantTapRelay.TaskDispatch.Resubmission
import GrantTapRelay.TaskDispatch.LazyExpiry
import GrantTapRelay.Laws.OneStrike
import GrantTapRelay.TaskDispatch.Interchangeable
import GrantTapRelay.TaskDispatch.InterleavedReads
import GrantTapRelay.Endpoints.Agreement
import GrantTapRelay.Room.Deadlines
import GrantTapRelay.Library.Expiring
import GrantTapRelay.Library.Recent
import GrantTapRelay.Relay.RecentDevices
import GrantTapRelay.Laws.RoomPresence
import GrantTapRelay.TaskDispatch.RoomRegistry
import GrantTapRelay.TaskDispatch.Registries
import GrantTapRelay.TaskDispatch.GrantLifetimes
import GrantTapRelay.Library.Watchdog
import GrantTapRelay.Node.Heartbeat
import GrantTapRelay.Push.NodeRegistrations
import GrantTapRelay.Library.Verdicts
import GrantTapRelay.Push.Requests
