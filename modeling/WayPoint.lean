import WayPoint.Container.BrowserSession
import WayPoint.Container.HeartBeat
import WayPoint.Container.Rendezvous
import WayPoint.Container.StartUp
import WayPoint.Container.Supervision
import WayPoint.Container.Tasks
import WayPoint.Foundations.Acyclic
import WayPoint.Foundations.Atomic
import WayPoint.Foundations.Exceptions
import WayPoint.Foundations.FailStop
import WayPoint.Foundations.FiniteMap
import WayPoint.Foundations.FormUrlencoded
import WayPoint.Foundations.History
import WayPoint.Foundations.Interleaving
import WayPoint.Foundations.Lock
import WayPoint.Foundations.Methods
import WayPoint.Foundations.Overlap
import WayPoint.Foundations.Ownership
import WayPoint.Foundations.Pipeline
import WayPoint.Foundations.Program
import WayPoint.Foundations.Serial
import WayPoint.Foundations.Spawn
import WayPoint.Foundations.Trace
import WayPoint.Foundations.Turns
import WayPoint.Foundations.TwoRuns
import WayPoint.Foundations.UnsignedAge
import WayPoint.Foundations.Utf8
import WayPoint.Foundations.Worklist
import WayPoint.Gateway.BrowserLease
import WayPoint.Gateway.Chain
import WayPoint.Gateway.Cli
import WayPoint.Gateway.ConnectionDialogue
import WayPoint.Gateway.Delivery
import WayPoint.Gateway.EphemeralBrowserProxy
import WayPoint.Gateway.ExclusiveSession
import WayPoint.Gateway.ForwardedBytes
import WayPoint.Gateway.HeadFraming
import WayPoint.Gateway.HeadGrammar
import WayPoint.Gateway.HeadRoundTrip
import WayPoint.Gateway.HeaderOverride
import WayPoint.Gateway.Http
import WayPoint.Gateway.LineFeeds
import WayPoint.Gateway.ProxyConfig
import WayPoint.Gateway.Splitting
import WayPoint.Manager.Abstraction
import WayPoint.Manager.Acceptance
import WayPoint.Manager.Applied
import WayPoint.Manager.Atomicity
import WayPoint.Manager.Carried
import WayPoint.Manager.Cascade
import WayPoint.Manager.Consistency
import WayPoint.Manager.Dashboard
import WayPoint.Manager.Directory
import WayPoint.Manager.Effect
import WayPoint.Manager.EitherEnd
import WayPoint.Manager.ExactUpdate
import WayPoint.Manager.ExactVerdict
import WayPoint.Manager.Fields
import WayPoint.Manager.Finality
import WayPoint.Manager.Forest
import WayPoint.Manager.Framing
import WayPoint.Manager.Handlers
import WayPoint.Manager.Health
import WayPoint.Manager.InstanceLinks
import WayPoint.Manager.Interference
import WayPoint.Manager.KillCascade
import WayPoint.Manager.KillLoop
import WayPoint.Manager.KillPass
import WayPoint.Manager.Labels
import WayPoint.Manager.Lasting
import WayPoint.Manager.Lifecycle
import WayPoint.Manager.Lifetime
import WayPoint.Manager.Links
import WayPoint.Manager.Messages
import WayPoint.Manager.Metrics
import WayPoint.Manager.Moments
import WayPoint.Manager.Noninterference
import WayPoint.Manager.PageCache
import WayPoint.Manager.Registration
import WayPoint.Manager.Sections
import WayPoint.Manager.ServedFresh
import WayPoint.Manager.ServerTime
import WayPoint.Manager.Service
import WayPoint.Manager.Siblings
import WayPoint.Manager.StaleEvidence
import WayPoint.Manager.StatusPage
import WayPoint.Manager.TimedSections
import WayPoint.Manager.Traits
import WayPoint.Manager.UniqueRegistration
import WayPoint.Manager.Unstamped
import WayPoint.Manager.Untimed
import WayPoint.Manager.Work
import WayPoint.Wright.Actions
import WayPoint.Wright.Client
import WayPoint.Wright.ClientSession
import WayPoint.Wright.Lifecycle
import WayPoint.Wright.Models
import WayPoint.Wright.Pairing
import WayPoint.Wright.Python
import WayPoint.Wright.RemoteBrowser
import WayPoint.Wright.RemoteCall
import WayPoint.Wright.Replies
import WayPoint.Wright.RoundTrip
import WayPoint.Wright.Server
