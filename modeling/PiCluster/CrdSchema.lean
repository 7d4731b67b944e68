/-
The shipped CRD schemas against the Rust types.  The schemas are those of the
Helm chart; the readers are what the derived `Deserialize` does with a document
and the writers what `Serialize` makes of a status.
-/
import PiCluster.Crd
import PiCluster.Lib.Document

namespace PiCluster

open Text Document

structure TopologyCondition where
  type : Str
  status : Str
  lastTransitionTime : Str
  reason : Str
  message : Str
deriving DecidableEq, Repr

/-- The topology's spec with the fields only the document has a use for. -/
structure ClusterTopologySpecDocument extends ClusterTopologySpec where
  targetGfsReplication : UInt8
  clusterVip : Str
deriving DecidableEq, Repr

structure ClusterTopologyStatusDocument extends ClusterTopologyStatus where
  activeMutation : Option Str
  conditions : List TopologyCondition
deriving DecidableEq, Repr

structure ClusterTopologyDocument where
  spec : ClusterTopologySpecDocument
  status : Option ClusterTopologyStatusDocument
deriving DecidableEq, Repr

namespace CrdSchema

def promotion : Schema :=
  .object [] [
    ("candidate_node".toList, .string), ("current_step".toList, .string),
    ("started_at".toList, .string), ("updated_at".toList, .string),
    ("drain_handle".toList, .string), ("failure_reason".toList, .string),
    ("attempt_count".toList, .integer none)]

def nodeSpec : Schema :=
  .object ["hardware_serial".toList, "mac_address".toList, "desired_role".toList] [
    ("hardware_serial".toList, .string), ("mac_address".toList, .string),
    ("desired_role".toList, .oneOf ["Seed".toList, "Master".toList, "Worker".toList,
      "Pending".toList, "Decommissioned".toList]),
    ("target_disk_id".toList, .string), ("reformat_confirmed".toList, .boolean),
    ("ip_address".toList, .string), ("hostname".toList, .string)]

def nodeStatus : Schema :=
  .object [] [
    ("phase".toList, .string), ("disk_state".toList, .string),
    ("last_heartbeat".toList, .string), ("active_mount".toList, .string),
    ("filesystem_uuid".toList, .string), ("promotion".toList, promotion)]

/-- `pinodes.cluster.pi.io`. -/
def pinode : Schema :=
  .object [] [("spec".toList, nodeSpec), ("status".toList, nodeStatus)]

def topologySpec : Schema :=
  .object ["seed_node".toList] [
    ("seed_node".toList, .string), ("target_master_count".toList, .integer (some 1)),
    ("target_gfs_replication".toList, .integer (some 1)), ("cluster_vip".toList, .string)]

def condition : Schema :=
  .object [] [
    ("type".toList, .string), ("status".toList, .string),
    ("last_transition_time".toList, .string), ("reason".toList, .string),
    ("message".toList, .string)]

def topologyStatus : Schema :=
  .object [] [
    ("current_master_count".toList, .integer none),
    ("current_worker_count".toList, .integer none),
    ("quorum_healthy".toList, .boolean), ("seed_retired".toList, .boolean),
    ("active_mutation".toList, .string), ("conditions".toList, .array condition)]

/-- `clustertopologies.cluster.pi.io`. -/
def clusterTopology : Schema :=
  .object [] [("spec".toList, topologySpec), ("status".toList, topologyStatus)]

end CrdSchema

def NodePhase.name : NodePhase → Str
  | .discovered => "Discovered".toList
  | .provisioning => "Provisioning".toList
  | .ready => "Ready".toList
  | .promoting => "Promoting".toList
  | .draining => "Draining".toList
  | .decommissioning => "Decommissioning".toList
  | .failed => "Failed".toList

def PromotionStep.name : PromotionStep → Str
  | .detecting => "Detecting".toList
  | .selectingCandidate => "SelectingCandidate".toList
  | .evacuatingGfs => "EvacuatingGfs".toList
  | .preparingDisk => "PreparingDisk".toList
  | .reformattingDisk => "ReformattingDisk".toList
  | .promotingK3s => "PromotingK3s".toList
  | .joiningEtcd => "JoiningEtcd".toList
  | .verifying => "Verifying".toList
  | .complete => "Complete".toList
  | .failed => "Failed".toList

def roleNames : List (Str × NodeRole) :=
  [.pending, .seed, .master, .worker, .decommissioned].map fun role => (role.debug, role)

def phaseNames : List (Str × NodePhase) :=
  [.discovered, .provisioning, .ready, .promoting, .draining, .decommissioning,
    .failed].map fun phase => (phase.name, phase)

def stepNames : List (Str × PromotionStep) :=
  [.detecting, .selectingCandidate, .evacuatingGfs, .preparingDisk, .reformattingDisk,
    .promotingK3s, .joiningEtcd, .verifying, .complete, .failed].map
      fun step => (step.name, step)

/-- The disk states without data. -/
def diskNames : List (Str × DiskState) :=
  [("Unformatted".toList, .unformatted), ("Formatting".toList, .formatting),
    ("MountedEtcd".toList, .mountedEtcd), ("MountedGfs".toList, .mountedGfs)]

def readDiskState : Json → Option DiskState
  | .obj [(tag, .str message)] =>
      if tag = "Error".toList then some (.error message) else none
  | value => variant diskNames value

def u8Bound : Nat := 0x100

def u32Bound : Nat := 0x100000000

def readPromotion (fields : Fields) : Option PromotionState :=
  PromotionState.mk <$> required "candidate_node".toList text fields
    <*> required "current_step".toList (variant stepNames) fields
    <*> required "started_at".toList text fields
    <*> required "updated_at".toList text fields
    <*> optional "drain_handle".toList text fields
    <*> optional "failure_reason".toList text fields
    <*> required "attempt_count".toList (unsigned u32Bound) fields

def readNodeSpec (fields : Fields) : Option PiNodeSpec :=
  PiNodeSpec.mk <$> required "hardware_serial".toList text fields
    <*> required "mac_address".toList text fields
    <*> required "desired_role".toList (variant roleNames) fields
    <*> optional "target_disk_id".toList text fields
    <*> defaulted "reformat_confirmed".toList flag false fields
    <*> optional "ip_address".toList text fields
    <*> optional "hostname".toList text fields

/-- A time is read by the parser of the `Time` type. -/
def readTime (parseTime : Str → Option Str) (value : Json) : Option Str :=
  (text value).bind parseTime

def readNodeStatus (parseTime : Str → Option Str) (fields : Fields) : Option PiNodeStatus :=
  PiNodeStatus.mk <$> required "phase".toList (variant phaseNames) fields
    <*> required "disk_state".toList readDiskState fields
    <*> optional "last_heartbeat".toList (readTime parseTime) fields
    <*> optional "promotion".toList (record readPromotion) fields
    <*> optional "active_mount".toList text fields
    <*> optional "filesystem_uuid".toList text fields

def readPiNode (parseTime : Str → Option Str) : Json → Option PiNode :=
  record fun fields =>
    PiNode.mk <$> required "spec".toList (record readNodeSpec) fields
      <*> optional "status".toList (record (readNodeStatus parseTime)) fields

def readU8 (name : Str) (fields : Fields) : Option UInt8 :=
  UInt8.ofNat <$> required name (unsigned u8Bound) fields

def readTopologySpec (fields : Fields) : Option ClusterTopologySpecDocument :=
  ClusterTopologySpecDocument.mk
    <$> (ClusterTopologySpec.mk <$> required "seed_node".toList text fields
      <*> (UInt8.ofNat <$> defaulted "target_master_count".toList (unsigned u8Bound) 3 fields))
    <*> (UInt8.ofNat <$> defaulted "target_gfs_replication".toList (unsigned u8Bound) 3 fields)
    <*> defaulted "cluster_vip".toList text "192.168.1.200".toList fields

def readCondition (fields : Fields) : Option TopologyCondition :=
  TopologyCondition.mk <$> required "type".toList text fields
    <*> required "status".toList text fields
    <*> required "last_transition_time".toList text fields
    <*> required "reason".toList text fields
    <*> required "message".toList text fields

def readTopologyStatus (fields : Fields) : Option ClusterTopologyStatusDocument :=
  ClusterTopologyStatusDocument.mk
    <$> (ClusterTopologyStatus.mk <$> readU8 "current_master_count".toList fields
      <*> readU8 "current_worker_count".toList fields
      <*> required "quorum_healthy".toList flag fields
      <*> required "seed_retired".toList flag fields)
    <*> optional "active_mutation".toList text fields
    <*> required "conditions".toList (sequence (record readCondition)) fields

def readClusterTopology : Json → Option ClusterTopologyDocument :=
  record fun fields =>
    ClusterTopologyDocument.mk <$> required "spec".toList (record readTopologySpec) fields
      <*> optional "status".toList (record readTopologyStatus) fields

def writeDiskState : DiskState → Json
  | .unformatted => .str "Unformatted".toList
  | .formatting => .str "Formatting".toList
  | .mountedEtcd => .str "MountedEtcd".toList
  | .mountedGfs => .str "MountedGfs".toList
  | .error message => .obj [("Error".toList, .str message)]

def writePromotion (state : PromotionState) : Json :=
  .obj ([("candidate_node".toList, .str state.candidateNode),
      ("current_step".toList, .str state.currentStep.name),
      ("started_at".toList, .str state.startedAt),
      ("updated_at".toList, .str state.updatedAt)] ++
    member "drain_handle".toList .str state.drainHandle ++
    member "failure_reason".toList .str state.failureReason ++
    [("attempt_count".toList, .int state.attemptCount)])

def writeNodeStatus (status : PiNodeStatus) : Json :=
  .obj ([("phase".toList, .str status.phase.name),
      ("disk_state".toList, writeDiskState status.diskState)] ++
    member "last_heartbeat".toList .str status.lastHeartbeat ++
    member "promotion".toList writePromotion status.promotion ++
    member "active_mount".toList .str status.activeMount ++
    member "filesystem_uuid".toList .str status.filesystemUuid)

def writeCondition (condition : TopologyCondition) : Json :=
  .obj [("type".toList, .str condition.type), ("status".toList, .str condition.status),
    ("last_transition_time".toList, .str condition.lastTransitionTime),
    ("reason".toList, .str condition.reason), ("message".toList, .str condition.message)]

def writeTopologyStatus (status : ClusterTopologyStatusDocument) : Json :=
  .obj ([("current_master_count".toList, .int status.currentMasterCount.toNat),
      ("current_worker_count".toList, .int status.currentWorkerCount.toNat),
      ("quorum_healthy".toList, .bool status.quorumHealthy),
      ("seed_retired".toList, .bool status.seedRetired)] ++
    member "active_mutation".toList .str status.activeMutation ++
    [("conditions".toList, .arr (status.conditions.map writeCondition))])

/-- One of the names of the type. -/
def NameIn {α : Type} (names : List (Str × α)) : Json → Prop :=
  StringOf fun tag => names.lookup tag

/-- What a promotion has to hold beyond its schema to be read. -/
structure PromotionReadable (fields : Fields) : Prop where
  candidateNode : Present "candidate_node".toList fields
  currentStep : Has "current_step".toList (NameIn stepNames) fields
  startedAt : Present "started_at".toList fields
  updatedAt : Present "updated_at".toList fields
  attemptCount : Has "attempt_count".toList (Below u32Bound) fields

/-- The phase and the disk state are there, the disk state as one without data. -/
structure NodeStatusReadable (parseTime : Str → Option Str) (fields : Fields) : Prop where
  phase : Has "phase".toList (NameIn phaseNames) fields
  diskState : Has "disk_state".toList (NameIn diskNames) fields
  lastHeartbeat : MayHave "last_heartbeat".toList (StringOf parseTime) fields
  promotion : MayHave "promotion".toList (RecordOf PromotionReadable) fields

structure PiNodeReadable (parseTime : Str → Option Str) (fields : Fields) : Prop where
  spec : Present "spec".toList fields
  status : MayHave "status".toList (RecordOf (NodeStatusReadable parseTime)) fields

/-- The targets fit their byte. -/
structure TopologySpecReadable (fields : Fields) : Prop where
  targetMasterCount : MayHave "target_master_count".toList (Below u8Bound) fields
  targetGfsReplication : MayHave "target_gfs_replication".toList (Below u8Bound) fields

structure ConditionReadable (fields : Fields) : Prop where
  type : Present "type".toList fields
  status : Present "status".toList fields
  lastTransitionTime : Present "last_transition_time".toList fields
  reason : Present "reason".toList fields
  message : Present "message".toList fields

structure TopologyStatusReadable (fields : Fields) : Prop where
  currentMasterCount : Has "current_master_count".toList (Below u8Bound) fields
  currentWorkerCount : Has "current_worker_count".toList (Below u8Bound) fields
  quorumHealthy : Present "quorum_healthy".toList fields
  seedRetired : Present "seed_retired".toList fields
  conditions : Has "conditions".toList (ArrayOf (RecordOf ConditionReadable)) fields

structure ClusterTopologyReadable (fields : Fields) : Prop where
  spec : Has "spec".toList (RecordOf TopologySpecReadable) fields
  status : MayHave "status".toList (RecordOf TopologyStatusReadable) fields

section Reading

variable {fields : Fields}

theorem isSome_readPromotion_iff
    (hadmits : CrdSchema.promotion.admits (.obj fields) = true) :
    (readPromotion fields).isSome = true ↔ PromotionReadable fields := by
  obtain ⟨-, htyped⟩ := admits_object_iff.mp hadmits
  simp only [List.forall_mem_cons] at htyped
  obtain ⟨hcandidate, hstep, hstarted, hupdated, hdrain, hfailure, hattempts, -⟩ := htyped
  have hsteps : ReadsWhen .string (variant stepNames) (NameIn stepNames) :=
    readsWhen_string fun _ => rfl
  simp only [readPromotion, isSome_seq, isSome_map, Bool.and_eq_true,
    readsWhen_text.required hcandidate, hsteps.required hstep,
    readsWhen_text.required hstarted, readsWhen_text.required hupdated,
    readsWhen_text.optional hdrain, readsWhen_text.optional hfailure,
    (readsWhen_unsigned none u32Bound).required hattempts, mayHave_true, and_true]
  constructor
  · rintro ⟨⟨⟨⟨hcandidate, hstep⟩, hstarted⟩, hupdated⟩, hattempts⟩
    exact ⟨hcandidate, hstep, hstarted, hupdated, hattempts⟩
  · rintro ⟨hcandidate, hstep, hstarted, hupdated, hattempts⟩
    exact ⟨⟨⟨⟨hcandidate, hstep⟩, hstarted⟩, hupdated⟩, hattempts⟩

/-- The spec's schema and type agree. -/
theorem isSome_readNodeSpec (hadmits : CrdSchema.nodeSpec.admits (.obj fields) = true) :
    (readNodeSpec fields).isSome = true := by
  obtain ⟨hpresent, htyped⟩ := admits_object_iff.mp hadmits
  simp only [List.forall_mem_cons] at hpresent htyped
  obtain ⟨hserial, hmac, hrole, -⟩ := hpresent
  obtain ⟨htserial, htmac, htrole, htdisk, htconfirmed, htip, hthostname, -⟩ := htyped
  have hroles : ReadsWhen (.oneOf ["Seed".toList, "Master".toList, "Worker".toList,
      "Pending".toList, "Decommissioned".toList]) (variant roleNames) fun _ => True :=
    readsWhen_variant (List.all_eq_true.mp (by decide))
  simp only [readNodeSpec, isSome_seq, isSome_map, Bool.and_eq_true,
    readsWhen_text.required htserial, readsWhen_text.required htmac, hroles.required htrole,
    readsWhen_text.optional htdisk, readsWhen_flag.defaulted htconfirmed,
    readsWhen_text.optional htip, readsWhen_text.optional hthostname, mayHave_true, and_true]
  exact ⟨⟨hserial, hmac⟩, hrole⟩

theorem isSome_readNodeStatus_iff (parseTime : Str → Option Str)
    (hadmits : CrdSchema.nodeStatus.admits (.obj fields) = true) :
    (readNodeStatus parseTime fields).isSome = true ↔
      NodeStatusReadable parseTime fields := by
  obtain ⟨-, htyped⟩ := admits_object_iff.mp hadmits
  simp only [List.forall_mem_cons] at htyped
  obtain ⟨hphase, hdisk, htime, hmount, huuid, hpromotion, -⟩ := htyped
  have hphases : ReadsWhen .string (variant phaseNames) (NameIn phaseNames) :=
    readsWhen_string fun _ => rfl
  have hdisks : ReadsWhen .string readDiskState (NameIn diskNames) :=
    readsWhen_string fun _ => rfl
  have htimes : ReadsWhen .string (readTime parseTime) (StringOf parseTime) :=
    readsWhen_string fun _ => rfl
  have hpromotions : ReadsWhen CrdSchema.promotion (record readPromotion)
      (RecordOf PromotionReadable) :=
    readsWhen_record fun _ => isSome_readPromotion_iff
  simp only [readNodeStatus, isSome_seq, isSome_map, Bool.and_eq_true,
    hphases.required hphase, hdisks.required hdisk, htimes.optional htime,
    hpromotions.optional hpromotion, readsWhen_text.optional hmount,
    readsWhen_text.optional huuid, mayHave_true, and_true]
  constructor
  · rintro ⟨⟨⟨hphase, hdisk⟩, htime⟩, hpromotion⟩
    exact ⟨hphase, hdisk, htime, hpromotion⟩
  · rintro ⟨hphase, hdisk, htime, hpromotion⟩
    exact ⟨⟨⟨hphase, hdisk⟩, htime⟩, hpromotion⟩

theorem readsWhen_piNode (parseTime : Str → Option Str) :
    ReadsWhen CrdSchema.pinode (readPiNode parseTime)
      (RecordOf (PiNodeReadable parseTime)) := by
  apply readsWhen_record
  intro fields hadmits
  obtain ⟨-, htyped⟩ := admits_object_iff.mp hadmits
  simp only [List.forall_mem_cons] at htyped
  obtain ⟨hspec, hstatus, -⟩ := htyped
  have hspecs : ReadsWhen CrdSchema.nodeSpec (record readNodeSpec) fun _ => True := by
    intro value hvalue
    obtain ⟨inner, rfl⟩ := exists_obj_of_admits hvalue
    simpa [record] using isSome_readNodeSpec hvalue
  have hstatuses : ReadsWhen CrdSchema.nodeStatus (record (readNodeStatus parseTime))
      (RecordOf (NodeStatusReadable parseTime)) :=
    readsWhen_record fun _ => isSome_readNodeStatus_iff parseTime
  simp only [isSome_seq, isSome_map, Bool.and_eq_true, hspecs.required hspec,
    hstatuses.optional hstatus]
  constructor
  · rintro ⟨hspec, hstatus⟩
    exact ⟨hspec, hstatus⟩
  · rintro ⟨hspec, hstatus⟩
    exact ⟨hspec, hstatus⟩

theorem isSome_readTopologySpec_iff
    (hadmits : CrdSchema.topologySpec.admits (.obj fields) = true) :
    (readTopologySpec fields).isSome = true ↔ TopologySpecReadable fields := by
  obtain ⟨hpresent, htyped⟩ := admits_object_iff.mp hadmits
  simp only [List.forall_mem_cons] at hpresent htyped
  obtain ⟨hseed, -⟩ := hpresent
  obtain ⟨htseed, htmasters, htreplication, htvip, -⟩ := htyped
  have hbytes := readsWhen_unsigned (some 1) u8Bound
  simp only [readTopologySpec, isSome_seq, isSome_map, Bool.and_eq_true,
    readsWhen_text.required htseed, hbytes.defaulted htmasters,
    hbytes.defaulted htreplication, readsWhen_text.defaulted htvip, mayHave_true, and_true]
  constructor
  · rintro ⟨⟨-, hmasters⟩, hreplication⟩
    exact ⟨hmasters, hreplication⟩
  · rintro ⟨hmasters, hreplication⟩
    exact ⟨⟨hseed, hmasters⟩, hreplication⟩

theorem isSome_readCondition_iff
    (hadmits : CrdSchema.condition.admits (.obj fields) = true) :
    (readCondition fields).isSome = true ↔ ConditionReadable fields := by
  obtain ⟨-, htyped⟩ := admits_object_iff.mp hadmits
  simp only [List.forall_mem_cons] at htyped
  obtain ⟨htype, hstatus, htime, hreason, hmessage, -⟩ := htyped
  simp only [readCondition, isSome_seq, isSome_map, Bool.and_eq_true,
    readsWhen_text.required htype, readsWhen_text.required hstatus,
    readsWhen_text.required htime, readsWhen_text.required hreason,
    readsWhen_text.required hmessage]
  constructor
  · rintro ⟨⟨⟨⟨htype, hstatus⟩, htime⟩, hreason⟩, hmessage⟩
    exact ⟨htype, hstatus, htime, hreason, hmessage⟩
  · rintro ⟨htype, hstatus, htime, hreason, hmessage⟩
    exact ⟨⟨⟨⟨htype, hstatus⟩, htime⟩, hreason⟩, hmessage⟩

theorem isSome_readTopologyStatus_iff
    (hadmits : CrdSchema.topologyStatus.admits (.obj fields) = true) :
    (readTopologyStatus fields).isSome = true ↔ TopologyStatusReadable fields := by
  obtain ⟨-, htyped⟩ := admits_object_iff.mp hadmits
  simp only [List.forall_mem_cons] at htyped
  obtain ⟨hmasters, hworkers, hquorum, hretired, hmutation, hconditions, -⟩ := htyped
  have hbytes := readsWhen_unsigned none u8Bound
  have hlists : ReadsWhen (.array CrdSchema.condition) (sequence (record readCondition))
      (ArrayOf (RecordOf ConditionReadable)) :=
    (readsWhen_record fun _ => isSome_readCondition_iff).sequence
  simp only [readTopologyStatus, readU8, isSome_seq, isSome_map, Bool.and_eq_true,
    hbytes.required hmasters, hbytes.required hworkers, readsWhen_flag.required hquorum,
    readsWhen_flag.required hretired, readsWhen_text.optional hmutation,
    hlists.required hconditions, mayHave_true, and_true]
  constructor
  · rintro ⟨⟨⟨⟨hmasters, hworkers⟩, hquorum⟩, hretired⟩, hconditions⟩
    exact ⟨hmasters, hworkers, hquorum, hretired, hconditions⟩
  · rintro ⟨hmasters, hworkers, hquorum, hretired, hconditions⟩
    exact ⟨⟨⟨⟨hmasters, hworkers⟩, hquorum⟩, hretired⟩, hconditions⟩

theorem readsWhen_clusterTopology :
    ReadsWhen CrdSchema.clusterTopology readClusterTopology
      (RecordOf ClusterTopologyReadable) := by
  apply readsWhen_record
  intro fields hadmits
  obtain ⟨-, htyped⟩ := admits_object_iff.mp hadmits
  simp only [List.forall_mem_cons] at htyped
  obtain ⟨hspec, hstatus, -⟩ := htyped
  have hspecs : ReadsWhen CrdSchema.topologySpec (record readTopologySpec)
      (RecordOf TopologySpecReadable) :=
    readsWhen_record fun _ => isSome_readTopologySpec_iff
  have hstatuses : ReadsWhen CrdSchema.topologyStatus (record readTopologyStatus)
      (RecordOf TopologyStatusReadable) :=
    readsWhen_record fun _ => isSome_readTopologyStatus_iff
  simp only [isSome_seq, isSome_map, Bool.and_eq_true, hspecs.required hspec,
    hstatuses.optional hstatus]
  constructor
  · rintro ⟨hspec, hstatus⟩
    exact ⟨hspec, hstatus⟩
  · rintro ⟨hspec, hstatus⟩
    exact ⟨hspec, hstatus⟩

end Reading

theorem writePromotion_admitted (state : PromotionState) :
    CrdSchema.promotion.admits (writePromotion state) = true := by
  apply admits_object_of_fits
  · decide
  · simp only [List.forall_mem_append, List.forall_mem_cons]
    refine ⟨⟨⟨⟨?_, ?_, ?_, ?_, List.forall_mem_nil _⟩, ?_⟩, ?_⟩, ?_, List.forall_mem_nil _⟩
    · exact ⟨_, rfl, rfl⟩
    · exact ⟨_, rfl, rfl⟩
    · exact ⟨_, rfl, rfl⟩
    · exact ⟨_, rfl, rfl⟩
    · exact fits_member rfl admits_str _
    · exact fits_member rfl admits_str _
    · exact ⟨_, rfl, rfl⟩

theorem writeDiskState_admitted_iff (state : DiskState) :
    Schema.string.admits (writeDiskState state) = true ↔
      ∀ message, state ≠ .error message := by
  cases state <;> simp [writeDiskState, Schema.admits]

theorem writeNodeStatus_admitted_iff (status : PiNodeStatus) :
    CrdSchema.nodeStatus.admits (writeNodeStatus status) = true ↔
      ∀ message, status.diskState ≠ .error message := by
  rw [← writeDiskState_admitted_iff]
  constructor
  · intro hadmits
    obtain ⟨-, htyped⟩ := admits_object_iff.mp hadmits
    simp only [List.forall_mem_cons] at htyped
    obtain ⟨-, hdisk, -⟩ := htyped
    exact hdisk _ rfl
  · intro hdisk
    apply admits_object_of_fits
    · decide
    · simp only [List.forall_mem_append, List.forall_mem_cons]
      refine ⟨⟨⟨⟨⟨?_, ?_, List.forall_mem_nil _⟩, ?_⟩, ?_⟩, ?_⟩, ?_⟩
      · exact ⟨_, rfl, rfl⟩
      · exact ⟨_, rfl, hdisk⟩
      · exact fits_member rfl admits_str _
      · exact fits_member rfl writePromotion_admitted _
      · exact fits_member rfl admits_str _
      · exact fits_member rfl admits_str _

theorem writeCondition_admitted (condition : TopologyCondition) :
    CrdSchema.condition.admits (writeCondition condition) = true := by
  apply admits_object_of_fits
  · decide
  · simp only [List.forall_mem_cons]
    exact ⟨⟨_, rfl, rfl⟩, ⟨_, rfl, rfl⟩, ⟨_, rfl, rfl⟩, ⟨_, rfl, rfl⟩, ⟨_, rfl, rfl⟩,
      List.forall_mem_nil _⟩

theorem writeTopologyStatus_admitted (status : ClusterTopologyStatusDocument) :
    CrdSchema.topologyStatus.admits (writeTopologyStatus status) = true := by
  have hconditions : (Schema.array CrdSchema.condition).admits
      (.arr (status.conditions.map writeCondition)) = true := by
    simp [Schema.admits, writeCondition_admitted]
  apply admits_object_of_fits
  · decide
  · simp only [List.forall_mem_append, List.forall_mem_cons]
    refine ⟨⟨⟨?_, ?_, ?_, ?_, List.forall_mem_nil _⟩, ?_⟩, ?_, List.forall_mem_nil _⟩
    · exact ⟨_, rfl, rfl⟩
    · exact ⟨_, rfl, rfl⟩
    · exact ⟨_, rfl, rfl⟩
    · exact ⟨_, rfl, rfl⟩
    · exact fits_member rfl admits_str _
    · exact ⟨_, rfl, hconditions⟩

/-- Where the schemas and the types agree.  A document its schema admits is read
exactly when it is readable, a node's status is admitted exactly when its disk state
is not an error, and a topology's status always. -/
theorem crdSchema_agrees_iff (parseTime : Str → Option Str) :
    (∀ document, CrdSchema.pinode.admits document = true →
      ((readPiNode parseTime document).isSome = true ↔
        RecordOf (PiNodeReadable parseTime) document)) ∧
    (∀ document, CrdSchema.clusterTopology.admits document = true →
      ((readClusterTopology document).isSome = true ↔
        RecordOf ClusterTopologyReadable document)) ∧
    (∀ status, CrdSchema.nodeStatus.admits (writeNodeStatus status) = true ↔
      ∀ message, status.diskState ≠ .error message) ∧
    ∀ status, CrdSchema.topologyStatus.admits (writeTopologyStatus status) = true :=
  ⟨readsWhen_piNode parseTime, readsWhen_clusterTopology, writeNodeStatus_admitted_iff,
    writeTopologyStatus_admitted⟩

namespace CrdWitness

def spec : Json :=
  .obj [("hardware_serial".toList, .str "10000000abcdef12".toList),
    ("mac_address".toList, .str "dc:a6:32:01:02:03".toList),
    ("desired_role".toList, .str "Worker".toList)]

def status : Fields :=
  [("phase".toList, .str "Ready".toList), ("disk_state".toList, .str "MountedGfs".toList)]

def ready : Json :=
  .obj [("spec".toList, spec), ("status".toList, .obj status)]

theorem status_readable : NodeStatusReadable some status where
  phase := ⟨_, rfl, _, rfl, rfl⟩
  diskState := ⟨_, rfl, _, rfl, rfl⟩
  lastHeartbeat := nofun
  promotion := nofun

theorem ready_node_read :
    CrdSchema.pinode.admits ready = true ∧ (readPiNode some ready).isSome = true := by
  have hadmits : CrdSchema.pinode.admits ready = true := by decide
  refine ⟨hadmits, ((crdSchema_agrees_iff some).1 ready hadmits).mpr ⟨_, rfl, ?_⟩⟩
  constructor
  · exact ⟨_, rfl, trivial⟩
  · rintro value hvalue
    obtain rfl := Option.some.inj hvalue
    exact ⟨_, rfl, status_readable⟩

/-- A node whose status has been cleared. -/
def cleared : Json :=
  .obj [("spec".toList, spec), ("status".toList, .obj [])]

/-- The status the host daemon's failure leads to. -/
def failed : PiNodeStatus :=
  { PiNodeStatus.default with diskState := .error "mkfs failed".toList }

/-- The empty status is admitted and not read, and a disk error is written and not
admitted. -/
theorem schema_and_types_differ :
    CrdSchema.pinode.admits cleared = true ∧ readPiNode some cleared = none ∧
      CrdSchema.nodeStatus.admits (writeNodeStatus failed) = false := by
  decide

end CrdWitness

end PiCluster
