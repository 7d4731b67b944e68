import PiCluster.Lib.Text
import PiCluster.Lib.UnixPath
import PiCluster.Lib.Bytes
import PiCluster.Lib.StepRun
import PiCluster.Lib.Effects
import PiCluster.Lib.Wire
import PiCluster.Lib.Document
import PiCluster.Lib.MergePatch
import PiCluster.Lib.FileTree
import PiCluster.Crd
import PiCluster.CrdSchema
import PiCluster.Device
import PiCluster.Safety
import PiCluster.BootDisk
import PiCluster.Reformat
import PiCluster.GuardLaws
import PiCluster.Fstab
import PiCluster.FstabLaws
import PiCluster.Candidate
import PiCluster.Promotion
import PiCluster.PromotionRun
import PiCluster.PromotionFailure
import PiCluster.ClusterPromotion
import PiCluster.Reconcile
import PiCluster.TopologyCounts
import PiCluster.EtcdHealth
import PiCluster.PromotionTask
import PiCluster.Tftp
import PiCluster.TftpRequest
import PiCluster.TftpTransfer
import PiCluster.TftpDelivery
import PiCluster.TftpTermination
import PiCluster.Election
import PiCluster.ElectionSafety
import PiCluster.LeaseRelease
import PiCluster.Leadership
import PiCluster.Storage
import PiCluster.AuditTrail
import PiCluster.AuditClosure
import PiCluster.AuditJson
import PiCluster.AuditFile
import PiCluster.AuditWriters
import PiCluster.Provision
import PiCluster.Host
import PiCluster.TargetResolution
import PiCluster.ProvisionRun
import PiCluster.ProvisionLifetime
import PiCluster.AssignRole
import PiCluster.AssignRoleRace
import PiCluster.ConfirmUnmounted
import PiCluster.Machine
import PiCluster.MountState
import PiCluster.MountSource
import PiCluster.DryRun
import PiCluster.NodeLookup
import PiCluster.ProxyDhcp
import PiCluster.CloudInit
import PiCluster.AssetSync
import PiCluster.AssetTrace
import PiCluster.AssetPass
import PiCluster.AssetHistory
import PiCluster.GfsAdmin
import PiCluster.PromotionSnapshot
import PiCluster.DrainRun
import PiCluster.StatusPatch
import PiCluster.LeaseDocument
import PiCluster.LeaseProgress
import PiCluster.TftpSocket
import PiCluster.OperatorCluster
import PiCluster.BootChain
import PiCluster.DhcpSegment
import PiCluster.Evacuation
import PiCluster.NetbootFile
import PiCluster.HttpBoot
import PiCluster.TftpWire
