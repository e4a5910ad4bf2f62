import Amnezia.Android.RouteCompaction
import Amnezia.Collector.Binding
import Amnezia.Daemon.ExclusionPolicy
import Amnezia.Headless.LogBatches
import Amnezia.Headless.PausedProfiles
import Amnezia.Headless.UpdateChecks
import Amnezia.Headless.UpdateProvenance
import Amnezia.Ipc.OpenVpnSafety
import Amnezia.Ipc.ProxyReading
import Amnezia.Migration.Authorization
import Amnezia.Migration.Commit
import Amnezia.Migration.Transport
import Amnezia.Net.IpRangeSet
import Amnezia.Routing.RuleMatcher
import Amnezia.Routing.ServerPolicy
import Amnezia.Server.ControlRecovery
import Amnezia.Settings.SplitTunneling
import Amnezia.Union.Connections
import Amnezia.Union.Device
import Amnezia.Updater.Generations
import Amnezia.Utils.BoundedQueuedSnapshot
import Amnezia.Utils.ConfigPayloadCodec
import Amnezia.Utils.InstallerDiagnostics
