import DnscryptProxy.Query.ProbeSlots
import DnscryptProxy.Query.Integrity
import DnscryptProxy.Cache.Key
import DnscryptProxy.Upstream.UdpExchange
import DnscryptProxy.Anon.FailClosed
import DnscryptProxy.Scheduler.Recovery
import DnscryptProxy.Scheduler.Primary
import DnscryptProxy.Scheduler.ColdStart
import DnscryptProxy.Query.Rates
import DnscryptProxy.Query.Quality
import DnscryptProxy.Crypto.PqEpoch
import DnscryptProxy.Scheduler.Scores
import DnscryptProxy.Scheduler.TieBand
import DnscryptProxy.Scheduler.ProbeOrder
import DnscryptProxy.Upstream.PoolRun
import DnscryptProxy.Upstream.OdohGate
import DnscryptProxy.Scheduler.Refinement
import DnscryptProxy.Reload.Watcher
import DnscryptProxy.Query.Drop
import DnscryptProxy.Query.Forward
import DnscryptProxy.Rules.Schedules
import DnscryptProxy.Cloak.Ptr
import DnscryptProxy.Crypto.CertChoice
import DnscryptProxy.Crypto.Txt
import DnscryptProxy.Query.Framing
import DnscryptProxy.Query.OdohConfigs
import DnscryptProxy.Crypto.PqSizes
import DnscryptProxy.Cache.Ttls
import DnscryptProxy.Rules.Comments
import DnscryptProxy.Scheduler.Percentiles
import DnscryptProxy.Scheduler.Config
import DnscryptProxy.Anon.Farthest
import DnscryptProxy.Dns64.Discovery
import DnscryptProxy.Upstream.GracePeriod
import DnscryptProxy.Sources.CacheStamp
import DnscryptProxy.Sources.Parse
import DnscryptProxy.Query.Padding
import DnscryptProxy.Net.Monitor
import DnscryptProxy.Upstream.AltSupport
