import NasnetPanel.Network.Lan
import NasnetPanel.Network.DeadmanSafety
import NasnetPanel.Network.DeadmanConfirm
import NasnetPanel.Network.DeadmanBudget
import NasnetPanel.Network.WANSubnets
import NasnetPanel.Network.PortForward
import NasnetPanel.Network.PortMap
import NasnetPanel.Network.VPNPool
import NasnetPanel.Network.Reconcile
import NasnetPanel.Network.Transport
import NasnetPanel.Usage.Acknowledge
import NasnetPanel.Usage.ExactlyOnce
import NasnetPanel.Usage.Lifetime
import NasnetPanel.Jobs.Engine
import NasnetPanel.Jobs.Subscribe
import NasnetPanel.Provisioning.Intent
import NasnetPanel.Subscription.Service
import NasnetPanel.WireGuard.Devices
import NasnetPanel.Ingest.Shares
import NasnetPanel.Ingest.Sweep
import NasnetPanel.Ingest.SyncGate
import NasnetPanel.RemoteNodes.Converge
import NasnetPanel.RemoteNodes.Link
import NasnetPanel.RemoteNodes.StoreSafety
import NasnetPanel.RemoteNodes.Report
import NasnetPanel.RemoteNodes.LimitsHold
import NasnetPanel.RemoteNodes.SupervisorSafety
import NasnetPanel.RemoteNodes.Ring
import NasnetPanel.Update.Copies
import NasnetPanel.Update.Owner
import NasnetPanel.Update.BundleSafety
import NasnetPanel.Xray.HotApplySafety
import NasnetPanel.Alerting.Engine
import NasnetPanel.Node.XrayWatch
import NasnetPanel.Node.ReverseDelete
import NasnetPanel.MTProto.Flood
import NasnetPanel.MTProto.Settings
import NasnetPanel.Agent.PromMetric
