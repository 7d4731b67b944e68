/-
The requests of the disk manager's socket that change the host.  `AssignRole`
reads the mount table and scans the devices, chooses the disk, asks the guard,
then formats and mounts; the readings come first, so they are an argument, and
what follows is a program whose disk is fixed by them.  `PrepareEvacuation`
unmounts the storage.
-/
import PiCluster.ProvisionRun

namespace PiCluster

open Text Effects

inductive NodeRoleProto where
  | unspecified
  | seed
  | master
  | worker
  | pending
  | decommissioned
deriving DecidableEq, Repr

structure AssignRoleRequest where
  desiredRole : NodeRoleProto
  targetDiskId : Str
  reformatConfirmed : Bool
  dryRun : Bool
deriving DecidableEq, Repr

structure PrepareEvacuationRequest where
  mountPoint : Str
deriving DecidableEq, Repr

structure PrepareEvacuationResponse where
  ready : Bool
  message : Str
deriving DecidableEq, Repr

structure ProvisionResult where
  success : Bool
  message : Str
  formattedDevice : Str
  filesystemUuid : Str
  mountPoint : Str
deriving DecidableEq, Repr

inductive Status where
  | invalidArgument (message : Str)
  | notFound (message : Str)
  | failedPrecondition (message : Str)
  | internal (message : Str)
deriving DecidableEq, Repr

structure LdmIpcService where
  auditLogPath : Str
  fstabPath : Str
  sysfsRoot : Str
  dryRun : Bool
deriving DecidableEq, Repr

def SafetyError.display : SafetyError → Str
  | .bootDiskViolation device signal => "Target device '".toList ++ device ++
      "' is a protected boot device (signal: ".toList ++ signal ++ ")".toList
  | .ambiguousDevice device reason =>
      "Safety check produced ambiguous result for device '".toList ++ device ++
        "': ".toList ++ reason
  | .missingConfirmation device => "Destructive reformat of device '".toList ++ device ++
      "' rejected: explicit 'reformat_confirmed' flag is false".toList

def DeviceError.display : DeviceError → Str
  | .notFound device => "Device '".toList ++ device ++
      "' was not found in sysfs or disk inventory".toList
  | .sysfsRead path source =>
      "Failed to read sysfs entry at '".toList ++ path ++ "': ".toList ++ source
  | .invalidMountTable reason => "Failed to parse mount table: ".toList ++ reason
  | .resolution reason => "Device resolution error: ".toList ++ reason

def AuditError.display : AuditError → Str
  | .io error => "Audit log I/O failed: ".toList ++ error
  | .serialization error => "Audit log serialization error: ".toList ++ error
  | .fsyncFailed reason => "Failed to fsync audit record: ".toList ++ reason

def ClusterError.display : ClusterError → Str
  | .safety error => error.display
  | .audit error => error.display
  | .device error => error.display
  | .internal reason => "Internal cluster error: ".toList ++ reason

namespace LdmIpcService

/-- The roles a request may ask for. -/
def desiredRole : NodeRoleProto → Except Status NodeRole
  | .master => .ok .master
  | .seed => .ok .seed
  | .worker => .ok .worker
  | .decommissioned => .ok .decommissioned
  | .unspecified | .pending =>
      .error (.invalidArgument "Invalid or unspecified desired role".toList)

def targetId (req : AssignRoleRequest) : Option Str :=
  if req.targetDiskId = [] then none else some req.targetDiskId

abbrev ServiceProg := Prog StorageEffect StorageAnswer Status

def requester : Str := "cluster-ldm-ipc".toList

variable (service : LdmIpcService) (req : AssignRoleRequest)

/-- The configuration of the formatter and the mounter a request builds. -/
def storage : StorageConfig :=
  ⟨req.dryRun || service.dryRun, service.auditLogPath, service.fstabPath⟩

/-- The readings and checks of `assign_role`. -/
def assignPlan (view : HostView) : Except Status ProvisionPlan := do
  let role ← desiredRole req.desiredRole
  let mountTable := view.mounts.toOption.getD .empty
  let target ← (DeviceDiscovery.resolveTargetDisk (targetId req) service.sysfsRoot view.sysfs
    view.byIdDir mountTable role).mapError fun e =>
      .notFound ("Target device resolution failed: ".toList ++ e.display)
  let allDevices ← (BlockDevice.scanAll service.sysfsRoot view.sysfs view.byIdDir
    mountTable).mapError fun e => .internal ("Failed to scan devices: ".toList ++ e.display)
  let decision ← (SafetyGuard.evaluateFormat target role req.reformatConfirmed mountTable
    allDevices).mapError fun e =>
      .failedPrecondition ("Safety guard check failed: ".toList ++ e.display)
  return ⟨target, role, decision⟩

def formatTarget (plan : ProvisionPlan) : ServiceProg Str :=
  (Formatter.formatDevice (service.storage req) plan.target plan.role requester).mapError
    fun e => .internal ("Formatting failed: ".toList ++ e.display)

def mountTarget (plan : ProvisionPlan) (uuid : Str) : ServiceProg Str :=
  (Mounter.mountRoleStorage (service.storage req) plan.target uuid plan.role
    requester).mapError fun e => .internal ("Mount failed: ".toList ++ e.display)

/-- `Formatter::new` and `Mounter::new` each open the audit log. -/
def openLog : ServiceProg Unit :=
  (AuditLog.new (service.storage req)).mapError fun e => .internal e.display

/-- What `assign_role` does once the decision is made. -/
def carryOut (plan : ProvisionPlan) : ServiceProg ProvisionResult := do
  service.openLog req
  service.openLog req
  match plan.decision with
  | .proceedWithFormat =>
      let uuid ← service.formatTarget req plan
      let mountPoint ← service.mountTarget req plan uuid
      return ⟨true, "Disk formatted and mounted successfully".toList, plan.target.devPath, uuid,
        mountPoint⟩
  | .skipFormatAlreadyMatching _ targetMount =>
      return ⟨true, "Disk already matches desired role layout, formatting skipped".toList,
        plan.target.devPath, plan.target.uuid.getD [], targetMount⟩

def assignRole (view : HostView) : ServiceProg ProvisionResult := do
  let plan ← Prog.lift (service.assignPlan req view)
  service.carryOut req plan

/-- The mount point a request names, or the storage of a worker. -/
def evacuationMount (req : PrepareEvacuationRequest) : Str :=
  if req.mountPoint = [] then SafetyGuard.gfsMountPoint else req.mountPoint

/-- The configuration of the mounter of an evacuation: only the service's own
flag makes it a dry run. -/
def mounterConfig : StorageConfig :=
  ⟨service.dryRun, service.auditLogPath, service.fstabPath⟩

def prepareEvacuation (req : PrepareEvacuationRequest) :
    ServiceProg PrepareEvacuationResponse := do
  let mountPoint := evacuationMount req
  (AuditLog.new service.mounterConfig).mapError fun e => .internal e.display
  (Mounter.unmountPath service.mounterConfig mountPoint
    "cluster-ldm-ipc-evacuate".toList).mapError fun e => .internal
      ("Failed to unmount ".toList ++ mountPoint ++ ": ".toList ++ e.display)
  return ⟨true, "Mount ".toList ++ mountPoint ++ " unmounted successfully".toList⟩

end LdmIpcService

/-- The path of the disk a plan is going to format; a dry run formats none. -/
def ProvisionPlan.victim (plan : ProvisionPlan) (dryRun : Bool) : Option Str :=
  match plan.decision with
  | .proceedWithFormat => if dryRun then none else some plan.target.devPath
  | .skipFormatAlreadyMatching _ _ => none

/-- An event that runs `mkfs.ext4`, if at all, on the given path. -/
def FormatsOnly (victim : Option Str) (event : StorageEvent) : Prop :=
  ∀ run, runOf .mkfsExt4 event = some run → ∃ path, victim = some path ∧
    run.1.args.getLast? = some path

section Programs

instance (effect : StorageEffect) : Nonempty (StorageAnswer effect) := by
  cases effect with
  | record entry => exact ⟨AuditOutcome.committed⟩
  | run command => exact ⟨CommandOutcome.spawnFailed []⟩
  | fileExists path => exact ⟨false⟩
  | createDir | readFile | writeFile | openAudit => exact ⟨Except.error []⟩

variable {service : LdmIpcService} {req : AssignRoleRequest} {plan : ProvisionPlan}
  {trace : List StorageEvent} {result : Except Status ProvisionResult}

theorem runs_openLog {result : Except Status Unit}
    (hruns : (service.openLog req).Runs trace result) :
    ∃ answer : Except Str Unit,
      trace = [⟨.openAudit (service.storage req).auditLog, answer⟩] ∧
        result.toBool = answer.toBool := by
  obtain ⟨first, hfirst, rfl⟩ := Prog.Runs.of_mapError hruns
  obtain ⟨answer, rfl, hanswer⟩ := runs_auditNew hfirst
  refine ⟨answer, rfl, ?_⟩
  rw [← hanswer]
  cases first <;> rfl

/-- What `assign_role` answers for a plan it has carried out. -/
def Answers (plan : ProvisionPlan) (ended : Option (Str × Str))
    (result : Except Status ProvisionResult) : Prop :=
  match ended with
  | none => ∃ status, result = .error status
  | some (uuid, mountPoint) => ∃ message, result =
      .ok ⟨true, message, plan.target.devPath, uuid, mountPoint⟩

theorem planRun_carryOut (hruns : (service.carryOut req plan).Runs trace result) :
    ∃ ended, PlanRun (service.storage req) LdmIpcService.requester plan trace ended ∧
      Answers plan ended result := by
  rcases runs_openTwice (fun _ _ => runs_openLog) hruns with ⟨hopens, hresult⟩ |
    ⟨opens, later, rfl, hopens, hlater⟩
  · refine ⟨none, .unopened hopens, ?_⟩
    cases result with
    | ok answer => cases hresult
    | error status => exact ⟨status, rfl⟩
  · cases hdecision : plan.decision with
    | skipFormatAlreadyMatching fs mount =>
        rw [hdecision] at hlater
        obtain ⟨rfl, rfl⟩ := Prog.Runs.of_done hlater
        rw [List.append_nil]
        exact ⟨_, .skipped hopens hdecision, _, rfl⟩
    | proceedWithFormat =>
        rw [hdecision] at hlater
        rcases hlater.bind_cases with ⟨status, hformat, rfl⟩ |
          ⟨format, uuid, rest, rfl, hformat, hrest⟩
        · obtain ⟨e, hfailed⟩ := hformat.of_mapError_error
          exact ⟨none, .unformatted hopens hdecision (Formatter.runs_formatDevice hfailed),
            status, rfl⟩
        · have hcourse := Formatter.runs_formatDevice hformat.of_mapError_ok
          rcases hrest.bind_cases with ⟨status, hmount, rfl⟩ |
            ⟨mount, mountPoint, last, rfl, hmount, hlast⟩
          · obtain ⟨e, hfailed⟩ := hmount.of_mapError_error
            exact ⟨none, .unmounted hopens hdecision hcourse
              (Mounter.runs_mountRoleStorage hfailed), status, rfl⟩
          · obtain ⟨rfl, rfl⟩ := hlast.of_done
            rw [List.append_nil]
            exact ⟨_, .mounted hopens hdecision hcourse
              (Mounter.runs_mountRoleStorage hmount.of_mapError_ok), _, rfl⟩

/-- An evacuation opens the log and unmounts. -/
theorem runs_prepareEvacuation {req : PrepareEvacuationRequest}
    {result : Except Status PrepareEvacuationResponse}
    (hruns : (service.prepareEvacuation req).Runs trace result) :
    (∃ e, trace = [⟨.openAudit service.auditLogPath, Except.error e⟩] ∧
        result.toBool = false) ∨
      ∃ later ended, trace = ⟨.openAudit service.auditLogPath, Except.ok ()⟩ :: later ∧
        (Mounter.unmountSpec service.mounterConfig (LdmIpcService.evacuationMount req)
          "cluster-ldm-ipc-evacuate".toList).Course service.dryRun later ended ∧
        result.toBool = ended.toBool := by
  rcases hruns.bind_cases with ⟨status, hopen, rfl⟩ | ⟨past, _, later, rfl, hopen, hlater⟩
  · obtain ⟨e, hfailed⟩ := hopen.of_mapError_error
    obtain ⟨answer, rfl, hanswer⟩ := runs_auditNew hfailed
    cases answer with
    | ok value => cases hanswer
    | error e => exact Or.inl ⟨e, rfl, rfl⟩
  · obtain ⟨answer, rfl, hanswer⟩ := runs_auditNew hopen.of_mapError_ok
    cases answer with
    | error e => cases hanswer
    | ok value =>
        rcases hlater.bind_cases with ⟨status, hunmount, rfl⟩ |
          ⟨unmount, _, last, rfl, hunmount, hlast⟩
        · obtain ⟨e, hfailed⟩ := hunmount.of_mapError_error
          exact Or.inr ⟨later, .error e, rfl, Mounter.runs_unmountPath hfailed, rfl⟩
        · obtain ⟨rfl, rfl⟩ := hlast.of_done
          refine Or.inr ⟨unmount, .ok (), ?_,
            Mounter.runs_unmountPath hunmount.of_mapError_ok, rfl⟩
          rw [List.append_nil]
          rfl

/-- A request formats the disk it decided to format and no other, and none in dry-run
mode. -/
theorem carryOut_always (service : LdmIpcService) (req : AssignRoleRequest)
    (plan : ProvisionPlan) :
    (service.carryOut req plan).Always
      (FormatsOnly (plan.victim (service.storage req).dryRun)) := by
  apply Prog.always_of_runs
  intro trace result hruns event hevent run hrun
  obtain ⟨ended, hplanRun, -⟩ := planRun_carryOut hruns
  have hmem : run ∈ runsOf .mkfsExt4 trace := List.mem_filterMap.mpr ⟨event, hevent, hrun⟩
  obtain ⟨hproceed, hwet, hlast⟩ := hplanRun.of_mem_runsOf hmem
  refine ⟨plan.target.devPath, ?_, hlast⟩
  rw [ProvisionPlan.victim, hproceed, hwet]
  rfl

end Programs

end PiCluster
