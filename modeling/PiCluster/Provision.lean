/-
Boot-time provisioning: the choice of the target disk among the scanned devices
and the run that formats and mounts it.  Everything provisioning reads comes
before everything it changes, so the readings are arguments.
-/
import PiCluster.Storage

namespace PiCluster

open Text Effects

/-- What a daemon reads from the host before it acts. -/
structure HostView where
  sysfs : SysfsRoot
  byIdDir : List ByIdLink
  mounts : Except DeviceError MountTable
deriving DecidableEq

namespace DeviceDiscovery

def isEligible (desiredRole : NodeRole) (mountTable : MountTable)
    (allDevices : List BlockDevice) (device : BlockDevice) : Bool :=
  !device.isPartition &&
    (SafetyGuard.evaluateFormat device desiredRole true mountTable allDevices).toBool

/-- The whole disks the guard would let pass with the confirmation flag set. -/
def scanEligibleDevices (sysfsRoot : Str) (sysfs : SysfsRoot) (byIdDir : List ByIdLink)
    (mountTable : MountTable) (desiredRole : NodeRole) :
    Except DeviceError (List BlockDevice) := do
  let allDevices ← BlockDevice.scanAll sysfsRoot sysfs byIdDir mountTable
  return allDevices.filter (isEligible desiredRole mountTable allDevices)

def notFoundError (target : Str) : DeviceError :=
  .notFound ("Requested target disk '".toList ++ target ++
    "' was not found among eligible non-boot devices".toList)

def noneEligibleError : DeviceError :=
  .notFound "No eligible non-boot block storage devices found on this node".toList

def ambiguousError (eligible : List BlockDevice) : DeviceError :=
  .resolution ("Multiple eligible data disks found (".toList ++
    join ", ".toList (eligible.map BlockDevice.name) ++
    "); an explicit 'target_disk_id' is required".toList)

def resolveTargetDisk (targetId : Option Str) (sysfsRoot : Str) (sysfs : SysfsRoot)
    (byIdDir : List ByIdLink) (mountTable : MountTable) (desiredRole : NodeRole) :
    Except DeviceError BlockDevice := do
  let eligible ← scanEligibleDevices sysfsRoot sysfs byIdDir mountTable desiredRole
  match targetId with
  | some target =>
      match eligible.find? fun device => device.matchesIdentifier target with
      | some device => return device
      | none => throw (notFoundError target)
  | none =>
      match eligible with
      | [device] => return device
      | [] => throw noneEligibleError
      | _ => throw (ambiguousError eligible)

theorem isEligible_iff {desiredRole : NodeRole} {mount : Str}
    (hrole : SafetyGuard.expectedMount desiredRole = some mount) (mountTable : MountTable)
    (allDevices : List BlockDevice) (device : BlockDevice) :
    isEligible desiredRole mountTable allDevices device = true ↔
      device.isPartition = false ∧
        ¬ SafetyGuard.BootRefused device mountTable allDevices := by
  have hguard : (SafetyGuard.evaluateFormat device desiredRole true mountTable
      allDevices).toBool = true ↔ ¬ SafetyGuard.BootRefused device mountTable allDevices := by
    by_cases hrefused : SafetyGuard.BootRefused device mountTable allDevices
    · obtain ⟨err, herr⟩ :=
        SafetyGuard.evaluateFormat_error_of_refused hrefused desiredRole true
      simp [herr, hrefused, Except.toBool]
    · obtain ⟨decision, hdecision⟩ :=
        SafetyGuard.evaluateFormat_confirmed_ok hrefused hrole
      simp [hdecision, hrefused, Except.toBool]
  simp [isEligible, hguard]

/-- The resolved disk is eligible, it matches the identifier when one is given
and is the only eligible disk otherwise. -/
theorem resolveTargetDisk_eq_ok {targetId : Option Str} {sysfsRoot : Str} {sysfs : SysfsRoot}
    {byIdDir : List ByIdLink} {mountTable : MountTable} {desiredRole : NodeRole}
    {device : BlockDevice}
    (hresolve : resolveTargetDisk targetId sysfsRoot sysfs byIdDir mountTable desiredRole =
      .ok device) :
    ∃ allDevices, BlockDevice.scanAll sysfsRoot sysfs byIdDir mountTable = .ok allDevices ∧
      device ∈ allDevices.filter (isEligible desiredRole mountTable allDevices) ∧
      (∀ id, targetId = some id → device.matchesIdentifier id = true) ∧
      (targetId = none →
        allDevices.filter (isEligible desiredRole mountTable allDevices) = [device]) := by
  unfold resolveTargetDisk scanEligibleDevices at hresolve
  cases hscan : BlockDevice.scanAll sysfsRoot sysfs byIdDir mountTable with
  | error e => simp [hscan, bind, Except.bind] at hresolve
  | ok allDevices =>
      refine ⟨allDevices, rfl, ?_⟩
      simp only [hscan, bind, Except.bind, pure, Except.pure] at hresolve
      generalize allDevices.filter (isEligible desiredRole mountTable allDevices) = eligible
        at hresolve ⊢
      cases targetId with
      | some id =>
          cases hfind : eligible.find? fun device => device.matchesIdentifier id with
          | none => simp [hfind, throw, throwThe, MonadExceptOf.throw] at hresolve
          | some found =>
              simp only [hfind, Except.ok.injEq] at hresolve
              subst hresolve
              have hmatch := List.find?_some hfind
              exact ⟨List.mem_of_find?_eq_some hfind, by simpa using hmatch, nofun⟩
      | none =>
          match eligible, hresolve with
          | [only], hresolve =>
              simp only [Except.ok.injEq] at hresolve
              simp [hresolve]

end DeviceDiscovery

structure RoleConfigFile where
  role : NodeRole
  targetDiskId : Option Str
  reformatConfirmed : Option Bool
deriving DecidableEq, Repr

/-- The role file; `failed` carries the text of a read or parse error. -/
inductive RoleSource where
  | missing
  | failed (error : Str)
  | config (file : RoleConfigFile)
deriving DecidableEq, Repr

structure ProvisionParams where
  roleSource : RoleSource
  targetDiskOverride : Option Str
  cliReformatConfirmed : Bool
  sysfsRoot : Str
  storage : StorageConfig
deriving DecidableEq, Repr

namespace ProvisionParams

variable (params : ProvisionParams)

def roleConfig : Except ClusterError RoleConfigFile :=
  match params.roleSource with
  | .missing => .ok ⟨.pending, none, none⟩
  | .failed e => .error (.internal e)
  | .config file => .ok file

def targetId (file : RoleConfigFile) : Option Str :=
  params.targetDiskOverride.or file.targetDiskId

def reformatConfirmed (file : RoleConfigFile) : Bool :=
  params.cliReformatConfirmed || file.reformatConfirmed.getD false

end ProvisionParams

/-- What provisioning decides to do with which disk. -/
structure ProvisionPlan where
  target : BlockDevice
  role : NodeRole
  decision : FormatDecision
deriving DecidableEq, Repr

/-- The readings and checks of `run_provision`; nothing is done for a
non-operational role. -/
def provisionPlan (params : ProvisionParams) (view : HostView) :
    Except ClusterError (Option ProvisionPlan) := do
  let file ← params.roleConfig
  if file.role = .pending ∨ file.role = .decommissioned then return none
  else
    let mountTable := view.mounts.toOption.getD .empty
    let target ← (DeviceDiscovery.resolveTargetDisk (params.targetId file) params.sysfsRoot
      view.sysfs view.byIdDir mountTable file.role).mapError .device
    let allDevices ← (BlockDevice.scanAll params.sysfsRoot view.sysfs view.byIdDir
      mountTable).mapError .device
    let decision ← (SafetyGuard.evaluateFormat target file.role
      (params.reformatConfirmed file) mountTable allDevices).mapError .safety
    return some ⟨target, file.role, decision⟩

/-- What a plan was made from. -/
theorem provisionPlan_eq_some {params : ProvisionParams} {view : HostView}
    {plan : ProvisionPlan} (hplan : provisionPlan params view = .ok (some plan)) :
    ∃ file allDevices, params.roleConfig = .ok file ∧ plan.role = file.role ∧
      file.role ≠ .pending ∧ file.role ≠ .decommissioned ∧
      DeviceDiscovery.resolveTargetDisk (params.targetId file) params.sysfsRoot view.sysfs
        view.byIdDir (view.mounts.toOption.getD .empty) file.role = .ok plan.target ∧
      BlockDevice.scanAll params.sysfsRoot view.sysfs view.byIdDir
        (view.mounts.toOption.getD .empty) = .ok allDevices ∧
      SafetyGuard.evaluateFormat plan.target file.role (params.reformatConfirmed file)
        (view.mounts.toOption.getD .empty) allDevices = .ok plan.decision := by
  unfold provisionPlan at hplan
  generalize view.mounts.toOption.getD .empty = mountTable at hplan ⊢
  cases hfile : params.roleConfig with
  | error e => simp [hfile, bind, Except.bind] at hplan
  | ok file =>
      simp only [hfile, bind, Except.bind, pure, Except.pure] at hplan
      split at hplan
      · simp at hplan
      · rename_i hrole
        rw [not_or] at hrole
        cases hresolve : DeviceDiscovery.resolveTargetDisk (params.targetId file)
            params.sysfsRoot view.sysfs view.byIdDir mountTable file.role with
        | error e => simp [hresolve, Except.mapError] at hplan
        | ok target =>
            cases hscan : BlockDevice.scanAll params.sysfsRoot view.sysfs view.byIdDir
                mountTable with
            | error e => simp [hresolve, hscan, Except.mapError] at hplan
            | ok allDevices =>
                cases hguard : SafetyGuard.evaluateFormat target file.role
                    (params.reformatConfirmed file) mountTable allDevices with
                | error e => simp [hresolve, hscan, hguard, Except.mapError] at hplan
                | ok decision =>
                    simp only [hresolve, hscan, hguard, Except.mapError, Except.ok.injEq,
                      Option.some.injEq] at hplan
                    subst hplan
                    exact ⟨file, allDevices, rfl, rfl, hrole.1, hrole.2, hresolve, rfl, hguard⟩

def provisionRequester : Str := "cluster-ldm-provision".toList

def formatAndMount (config : StorageConfig) (target : BlockDevice) (role : NodeRole) :
    StorageProg Unit := do
  let uuid ← Formatter.formatDevice config target role provisionRequester
  let _ ← Mounter.mountRoleStorage config target uuid role provisionRequester

def runProvision (params : ProvisionParams) (view : HostView) : StorageProg Unit := do
  match ← (Prog.lift (provisionPlan params view) : StorageProg (Option ProvisionPlan)) with
  | none => pure ()
  | some plan =>
      AuditLog.new params.storage
      AuditLog.new params.storage
      match plan.decision with
      | .proceedWithFormat => formatAndMount params.storage plan.target plan.role
      | .skipFormatAlreadyMatching _ _ => pure ()

end PiCluster
