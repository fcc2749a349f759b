import GuardedHttp.Breaker.Session
import GuardedHttp.Client.Schedule
import GuardedHttp.Client.Assembly
import GuardedHttp.Config.Document
import GuardedHttp.Stack.Users
import GuardedHttp.Stack.Layers
import GuardedHttp.Proofs.Breaker.Admission
import GuardedHttp.Proofs.Breaker.Sessions
import GuardedHttp.Proofs.Breaker.Stale
import GuardedHttp.Proofs.Retry.Completion
import GuardedHttp.Proofs.Retry.LinearBackoff
import GuardedHttp.Proofs.Client.Execution
import GuardedHttp.Proofs.Client.Course
import GuardedHttp.Proofs.Client.Timing
import GuardedHttp.Proofs.Client.Readiness
import GuardedHttp.Proofs.Client.Lockstep
import GuardedHttp.Proofs.Breaker.Streak
import GuardedHttp.Proofs.Breaker.Recovery
import GuardedHttp.Proofs.Breaker.Roster
import GuardedHttp.Proofs.Breaker.SideBySide
import GuardedHttp.Proofs.Breaker.Renewal
import GuardedHttp.Proofs.Breaker.Abandonment
import GuardedHttp.Proofs.Client.Callers
import GuardedHttp.Proofs.Client.Abandonment
import GuardedHttp.Proofs.Breaker.EventLog
import GuardedHttp.Proofs.Breaker.Accounts
import GuardedHttp.Proofs.Breaker.Listening
import GuardedHttp.Proofs.Client.Statuses
import GuardedHttp.Proofs.Client.Traffic
import GuardedHttp.Proofs.Client.Conservation
import GuardedHttp.Proofs.Client.Bodies
import GuardedHttp.Proofs.Client.Categories
import GuardedHttp.Proofs.Client.Scopes
import GuardedHttp.Proofs.Client.Propagation
import GuardedHttp.Proofs.Json.Spelling
import GuardedHttp.Proofs.Config.Assignments
import GuardedHttp.Proofs.Config.FrontEnds
import GuardedHttp.Proofs.Config.Construction
import GuardedHttp.Proofs.Config.Loading
import GuardedHttp.Proofs.Config.Reports
import GuardedHttp.Proofs.Breaker.Uses
import GuardedHttp.Proofs.Stack.Contacts
import GuardedHttp.Proofs.Stack.Layers
import GuardedHttp.Proofs.Stack.Readiness
import GuardedHttp.Proofs.Stack.WholeCalls
import GuardedHttp.Proofs.Events.Isolation
import GuardedHttp.Proofs.Events.Reactions
import GuardedHttp.Events.Callbacks
import GuardedHttp.Duration.Words
import GuardedHttp.Proofs.Retry.LinearDelays
import GuardedHttp.Proofs.Client.Rests
