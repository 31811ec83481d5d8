import VmManager.Mailbox
import VmManager.MailboxTheorems
import VmManager.AbandonTheorems
import VmManager.CidPool
import VmManager.Config
import VmManager.ConfigTheorems
import VmManager.SanitizeTheorems
import VmManager.Tui
import VmManager.Aaf
import VmManager.AafTheorems
import VmManager.Passthrough
import VmManager.Process
import VmManager.Builder
import VmManager.BuilderSteps
import VmManager.CommandSteps
import VmManager.VsockTheorems
import VmManager.DeviceTheorems
import VmManager.HostArgTheorems
import VmManager.SysfsTheorems
import VmManager.HugePageTheorems
import VmManager.PciTheorems
import VmManager.CleanupTheorems
import VmManager.FormTheorems
import VmManager.Listener
import VmManager.PendingTheorems
import VmManager.Server
import VmManager.ServerMoves
import VmManager.LookupTheorems
import VmManager.ServerInvariants
import VmManager.ThreadInvariants
import VmManager.StartTheorems
import VmManager.LaunchInvariants
import VmManager.LaunchTheorems
import VmManager.ListenerTheorems
import VmManager.CidTheorems
import VmManager.PoolTheorems
import VmManager.InstanceMoves
import VmManager.StateInvariants
import VmManager.StopTheorems
import VmManager.LockInvariants
import VmManager.RequestTheorems
import VmManager.FailureTheorems
import VmManager.StateTheorems
import VmManager.SpawnTheorems
import VmManager.NameTheorems
import VmManager.Endpoints
import VmManager.SocketTheorems
import VmManager.ConfigPath
import VmManager.ConfigPathTheorems
import VmManager.Client
import VmManager.ProbeTheorems
import VmManager.InfoTheorems
import VmManager.Flash
import VmManager.ImageTheorems
import VmManager.DiskTheorems
import VmManager.MailboxProgress
import VmManager.Segment
import VmManager.Manager
import VmManager.ManagerTheorems
import VmManager.ListTheorems
import VmManager.DeliveryTheorems
import VmManager.Environment
import VmManager.ExitTheorems
import VmManager.RewriteTheorems
import VmManager.Lib.Fleet
import VmManager.FleetTheorems
import VmManager.Lib.Names
import VmManager.Lib.Descriptors
import VmManager.Service
import VmManager.ServiceTheorems
import VmManager.Dialog
import VmManager.DialogTheorems
