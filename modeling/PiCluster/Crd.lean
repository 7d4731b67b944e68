/-
The custom resources the operator and the host daemons share: node roles and
phases, disk states, the promotion snapshot kept in a node's status, and the
topology the operator works towards.
-/
import PiCluster.Lib.Text

namespace PiCluster

open Text

inductive NodeRole where
  | pending
  | seed
  | master
  | worker
  | decommissioned
deriving DecidableEq, Repr, Inhabited

/-- The `Debug` form of a role, as it appears in error texts. -/
def NodeRole.debug : NodeRole → Str
  | .pending => "Pending".toList
  | .seed => "Seed".toList
  | .master => "Master".toList
  | .worker => "Worker".toList
  | .decommissioned => "Decommissioned".toList

inductive NodePhase where
  | discovered
  | provisioning
  | ready
  | promoting
  | draining
  | decommissioning
  | failed
deriving DecidableEq, Repr, Inhabited

inductive DiskState where
  | unformatted
  | formatting
  | mountedEtcd
  | mountedGfs
  | error (message : Str)
deriving DecidableEq, Repr, Inhabited

inductive PromotionStep where
  | detecting
  | selectingCandidate
  | evacuatingGfs
  | preparingDisk
  | reformattingDisk
  | promotingK3s
  | joiningEtcd
  | verifying
  | complete
  | failed
deriving DecidableEq, Repr, Inhabited

/-- The resumable snapshot of a promotion. -/
structure PromotionState where
  candidateNode : Str
  currentStep : PromotionStep
  startedAt : Str
  updatedAt : Str
  drainHandle : Option Str
  failureReason : Option Str
  attemptCount : Nat
deriving DecidableEq, Repr

structure PiNodeSpec where
  hardwareSerial : Str
  macAddress : Str
  desiredRole : NodeRole
  targetDiskId : Option Str
  reformatConfirmed : Bool
  ipAddress : Option Str
  hostname : Option Str
deriving DecidableEq, Repr

structure PiNodeStatus where
  phase : NodePhase
  diskState : DiskState
  lastHeartbeat : Option Str
  promotion : Option PromotionState
  activeMount : Option Str
  filesystemUuid : Option Str
deriving DecidableEq, Repr

/-- `PiNodeStatus::default()`. -/
def PiNodeStatus.default : PiNodeStatus where
  phase := .discovered
  diskState := .unformatted
  lastHeartbeat := none
  promotion := none
  activeMount := none
  filesystemUuid := none

structure PiNode where
  spec : PiNodeSpec
  status : Option PiNodeStatus
deriving DecidableEq, Repr

structure ClusterTopologySpec where
  seedNode : Str
  targetMasterCount : UInt8
deriving DecidableEq, Repr

/-- Without `active_mutation` and `conditions`, which are always written empty. -/
structure ClusterTopologyStatus where
  currentMasterCount : UInt8
  currentWorkerCount : UInt8
  quorumHealthy : Bool
  seedRetired : Bool
deriving DecidableEq, Repr

structure ClusterTopology where
  name : Option Str
  spec : ClusterTopologySpec
  status : Option ClusterTopologyStatus
deriving DecidableEq, Repr

end PiCluster
