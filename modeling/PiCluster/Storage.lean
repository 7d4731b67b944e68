/-
The mutating operations of the local disk manager.  Each is a program over the
effects it has on the host: audit records, external commands and file
operations.  Their outcomes are answers of the world, so every path through an
error exit is a run of the program.
-/
import PiCluster.Device
import PiCluster.Fstab
import PiCluster.Lib.Bytes
import PiCluster.Lib.Effects
import PiCluster.Safety

namespace PiCluster

open Text Bytes Effects

inductive AuditAction where
  | format
  | mount
  | unmount
  | eepromWrite
  | roleChange
  | evacuate
  | demote
  | promote
deriving DecidableEq, Repr

inductive AuditPhase where
  | preMutation
  | postMutation
  | failed
deriving DecidableEq, Repr

/-- The values in the flat JSON objects of audit records, whose members stand in the
order of the map. -/
inductive JsonValue where
  | null
  | bool (value : Bool)
  | int (value : Int)
  | str (value : Str)
  | strs (values : List Str)
deriving DecidableEq, Repr

abbrev JsonObject := List (Str × JsonValue)

def JsonValue.ofOption (value : Option Str) : JsonValue := (value.map .str).getD .null

/-- An audit record without its time stamp; an absent state is `Null`. -/
structure AuditEntry where
  deviceSerial : Str
  devicePath : Option Str
  action : AuditAction
  phase : AuditPhase
  requestedBy : Str
  beforeState : Option JsonObject
  afterState : Option JsonObject
  details : Option JsonObject
deriving DecidableEq, Repr

/-- `AuditEntry::builder(..)` with the builder's defaults. -/
def AuditEntry.builder (deviceSerial : Str) (action : AuditAction) (requestedBy : Str) :
    AuditEntry where
  deviceSerial := deviceSerial
  devicePath := none
  action := action
  phase := .preMutation
  requestedBy := requestedBy
  beforeState := none
  afterState := none
  details := none

/-- How `AuditLog::record` ends; only `committed` was written and fsynced. -/
inductive AuditOutcome where
  | committed
  | ioFailed (error : Str)
  | serializationFailed (error : Str)
  | fsyncFailed (error : Str)
deriving DecidableEq, Repr

inductive AuditError where
  | io (error : Str)
  | serialization (error : Str)
  | fsyncFailed (reason : Str)
deriving DecidableEq, Repr

inductive ClusterError where
  | safety (error : SafetyError)
  | audit (error : AuditError)
  | device (error : DeviceError)
  | internal (reason : Str)
deriving DecidableEq, Repr

inductive HostProgram where
  | mkfsExt4
  | mount
  | umount
  | blkid
  | systemctl
deriving DecidableEq, Repr

structure HostCommand where
  program : HostProgram
  args : List Str
deriving DecidableEq, Repr

/-- How an external command ends; `code` is `none` when a signal killed it. -/
inductive CommandOutcome where
  | spawnFailed (error : Str)
  | exited (code : Option Int) (stdout stderr : List UInt8)
deriving DecidableEq, Repr

def CommandOutcome.success : CommandOutcome → Bool
  | .exited (some 0) _ _ => true
  | _ => false

inductive StorageEffect where
  | record (entry : AuditEntry)
  | run (command : HostCommand)
  | createDir (path : Str)
  | fileExists (path : Str)
  | readFile (path : Str)
  | writeFile (path content : Str)
  | openAudit (path : Str)
deriving DecidableEq, Repr

def StorageAnswer : StorageEffect → Type
  | .record _ => AuditOutcome
  | .run _ => CommandOutcome
  | .createDir _ => Except Str Unit
  | .fileExists _ => Bool
  | .readFile _ => Except Str Str
  | .writeFile _ _ => Except Str Unit
  | .openAudit _ => Except Str Unit

abbrev StorageProg := Prog StorageEffect StorageAnswer ClusterError
abbrev StorageEvent := Event StorageEffect StorageAnswer

def perform (effect : StorageEffect) : StorageProg (StorageAnswer effect) :=
  Prog.call effect

/-- The configuration the formatter and the mounter are built with. -/
structure StorageConfig where
  dryRun : Bool
  auditLog : Str
  fstabPath : Str
deriving DecidableEq, Repr

/-- The `Debug` form of a path without characters that need escaping. -/
def debugPath (path : Str) : Str := '"' :: path ++ ['"']

def debugCode : Option Int → Str
  | none => "None".toList
  | some code => "Some(".toList ++ (toString code).toList ++ ")".toList

/-- `map_err(|e| ClusterError::Internal(format!("..: {}", e)))?`. -/
def orInternal {α : Type} (context : Str) (result : Except Str α) : StorageProg α :=
  match result with
  | .ok value => pure value
  | .error e => Prog.fail (.internal (context ++ ": ".toList ++ e))

/-- `AuditLog::new`: create the directory and open the file for appending. -/
def AuditLog.new (config : StorageConfig) : StorageProg Unit := do
  let opened : Except Str Unit ← perform (.openAudit config.auditLog)
  match opened with
  | .ok _ => pure ()
  | .error e => Prog.fail (.audit (.io e))

/-- `AuditLog::record`. -/
def AuditLog.record (config : StorageConfig) (entry : AuditEntry) : StorageProg Unit := do
  let outcome : AuditOutcome ← perform (.record entry)
  match outcome with
  | .committed => pure ()
  | .ioFailed e => Prog.fail (.audit (.io e))
  | .serializationFailed e => Prog.fail (.audit (.serialization e))
  | .fsyncFailed e => Prog.fail (.audit (.fsyncFailed
      ("Failed to fsync audit record to ".toList ++ debugPath config.auditLog ++
        ": ".toList ++ e)))

def runCommand (program : HostProgram) (args : List Str) : StorageProg CommandOutcome :=
  perform (.run ⟨program, args⟩)

def createDirAll (path : Str) : StorageProg (Except Str Unit) := perform (.createDir path)

def writeFile (path content : Str) : StorageProg (Except Str Unit) :=
  perform (.writeFile path content)

namespace FstabManager

def readFstab (config : StorageConfig) : StorageProg Str := do
  let content : Except Str Str ← perform (.readFile config.fstabPath)
  orInternal ("Failed to read ".toList ++ debugPath config.fstabPath) content

def fstabExists (config : StorageConfig) : StorageProg Bool :=
  perform (.fileExists config.fstabPath)

def upsert (config : StorageConfig) (uuid mountPoint fsType options : Str) :
    StorageProg Unit := do
  if ← fstabExists config then
    let content ← readFstab config
    let written ← writeFile config.fstabPath
      (upsertEntry (some content) uuid mountPoint fsType options)
    orInternal "Failed to write updated fstab".toList written
  else
    let written ← writeFile config.fstabPath
      (upsertEntry none uuid mountPoint fsType options)
    orInternal "Failed to write initial fstab".toList written

def remove (config : StorageConfig) (mountPointOrUuid : Str) : StorageProg Unit := do
  if ← fstabExists config then
    let content ← readFstab config
    -- a file that exists keeps existing
    let updated := (removeEntry (some content) mountPointOrUuid).getD []
    let written ← writeFile config.fstabPath updated
    orInternal "Failed to write updated fstab".toList written
  else pure ()

end FstabManager

namespace Formatter

def etcdLabel : Str := "ETCD_STORAGE".toList
def gfsLabel : Str := "GFS_STORAGE".toList

def dropinDir : Str := "/etc/systemd/system/k3s.service.d".toList
def dropinFile : Str := "/etc/systemd/system/k3s.service.d/io-priority.conf".toList
def dropinContent : Str :=
  "[Service]\nIOSchedulingClass=1\nIOSchedulingPriority=0\n".toList

def dryRunUuid : Str := "dry-run-uuid-0000-0000".toList
def unknownUuid : Str := "unknown-uuid".toList

def writeK3sIoPriorityDropin (config : StorageConfig) : StorageProg Unit := do
  if config.dryRun then pure ()
  else
    let created ← createDirAll dropinDir
    orInternal "Failed to create systemd dropin directory".toList created
    let written ← writeFile dropinFile dropinContent
    orInternal "Failed to write k3s io-priority dropin".toList written
    (runCommand .systemctl ["daemon-reload".toList]).ignore

def queryUuid (devPath : Str) : StorageProg Str := do
  let outcome ← runCommand .blkid
    ["-s".toList, "UUID".toList, "-o".toList, "value".toList, devPath]
  match outcome with
  | .spawnFailed e => Prog.fail (.internal ("Failed to run blkid: ".toList ++ e))
  | .exited code stdout _ =>
      let uuid := trim (decodeLossy stdout)
      if code = some 0 ∧ uuid ≠ [] then pure uuid
      else Prog.fail (.internal ("Failed to retrieve UUID for ".toList ++ debugPath devPath))

/-- The label `mkfs.ext4` writes for a role. -/
def roleLabel : NodeRole → Option Str
  | .master | .seed => some etcdLabel
  | .worker => some gfsLabel
  | _ => none

/-- The arguments of `mkfs.ext4` after `-F`.  For an etcd role the k3s drop-in
is written first. -/
def mkfsArgs (config : StorageConfig) (role : NodeRole) : StorageProg (List Str) :=
  match role with
  | .master | .seed => do
      writeK3sIoPriorityDropin config
      pure ["-b".toList, "4096".toList, "-L".toList, etcdLabel]
  | .worker => pure ["-T".toList, "largefile4".toList, "-L".toList, gfsLabel]
  | _ => Prog.fail (.internal ("Invalid role ".toList ++ role.debug ++
      " for disk formatting".toList))

section Entries

variable (device : BlockDevice) (role : NodeRole) (requestedBy : Str)

def entry : AuditEntry :=
  { AuditEntry.builder (device.serial.getD device.name) .format requestedBy with
    devicePath := some device.devPath }

def preEntry (dryRun : Bool) : AuditEntry :=
  { entry device requestedBy with
    phase := .preMutation
    beforeState := some [
      ("fs_type".toList, .ofOption device.fsType), ("label".toList, .ofOption device.label),
      ("target_role".toList, .str role.debug), ("uuid".toList, .ofOption device.uuid)]
    afterState := some [
      ("dry_run".toList, .bool dryRun), ("target_role".toList, .str role.debug)] }

def failedEntry (key text : Str) : AuditEntry :=
  { entry device requestedBy with phase := .failed, details := some [(key, .str text)] }

def postEntry (uuid : Str) : AuditEntry :=
  { entry device requestedBy with
    phase := .postMutation
    afterState := some [
      ("fs_type".toList, .str SafetyGuard.ext4), ("role".toList, .str role.debug),
      ("uuid".toList, .str uuid)] }

end Entries

def formatDevice (config : StorageConfig) (device : BlockDevice) (role : NodeRole)
    (requestedBy : Str) : StorageProg Str := do
  AuditLog.record config (preEntry device role requestedBy config.dryRun)
  if config.dryRun then pure dryRunUuid
  else
    let args ← mkfsArgs config role
    let outcome ← runCommand .mkfsExt4 (["-F".toList] ++ args ++ [device.devPath])
    match outcome with
    | .spawnFailed e =>
        (AuditLog.record config (failedEntry device requestedBy "error".toList e)).ignore
        Prog.fail (.internal ("Failed to execute mkfs.ext4: ".toList ++ e))
    | .exited code _ stderr =>
        if code ≠ some 0 then
          let text := decodeLossy stderr
          (AuditLog.record config
            (failedEntry device requestedBy "stderr".toList text)).ignore
          Prog.fail (.internal ("mkfs.ext4 failed with exit code ".toList ++
            debugCode code ++ ": ".toList ++ text))
        else
          let uuid ← (queryUuid device.devPath).getD unknownUuid
          AuditLog.record config (postEntry device role requestedBy uuid)
          pure uuid

end Formatter

namespace Mounter

/-- The mount destination and options of a role. -/
def getMountConfig : NodeRole → Str × Str
  | .master | .seed =>
      (SafetyGuard.etcdMountPoint, "data=ordered,barrier=1,noatime".toList)
  | .worker => (SafetyGuard.gfsMountPoint, "commit=60,noatime".toList)
  | _ => ("/mnt/storage".toList, "noatime".toList)

section Entries

variable (device : BlockDevice) (uuid : Str) (role : NodeRole) (requestedBy : Str)

def entry : AuditEntry :=
  { AuditEntry.builder (device.serial.getD device.name) .mount requestedBy with
    devicePath := some device.devPath }

def preEntry : AuditEntry :=
  { entry device requestedBy with
    phase := .preMutation
    beforeState := some [
      ("current_mounts".toList, .strs device.mountPoints), ("uuid".toList, .str uuid)]
    afterState := some [
      ("mount_point".toList, .str (getMountConfig role).1),
      ("options".toList, .str (getMountConfig role).2), ("role".toList, .str role.debug)] }

def failedEntry (code : Option Int) : AuditEntry :=
  { entry device requestedBy with
    phase := .failed
    details := some [("exit_code".toList, (code.map JsonValue.int).getD .null)] }

def postEntry : AuditEntry :=
  { entry device requestedBy with
    phase := .postMutation
    afterState := some [
      ("mount_point".toList, .str (getMountConfig role).1),
      ("status".toList, .str "mounted".toList), ("uuid".toList, .str uuid)] }

/-- The records of `unmount_path` name no device. -/
def unmountEntry : AuditEntry := .builder "UNMOUNT".toList .unmount requestedBy

def unmountPreEntry (mountPoint : Str) : AuditEntry :=
  { unmountEntry requestedBy with
    phase := .preMutation
    beforeState := some [("mount_point".toList, .str mountPoint)] }

def unmountPostEntry (mountPoint : Str) : AuditEntry :=
  { unmountEntry requestedBy with
    phase := .postMutation
    afterState := some [
      ("mount_point".toList, .str mountPoint), ("status".toList, .str "unmounted".toList)] }

end Entries

/-- What `mount` is asked to mount. -/
def mountSource (device : BlockDevice) (uuid : Str) : Str :=
  if startsWith uuid "dry-run".toList ∨ uuid = Formatter.unknownUuid then device.devPath
  else "UUID=".toList ++ uuid

def mountRoleStorage (config : StorageConfig) (device : BlockDevice) (uuid : Str)
    (role : NodeRole) (requestedBy : Str) : StorageProg Str := do
  let mountPoint := (getMountConfig role).1
  let mountOpts := (getMountConfig role).2
  AuditLog.record config (preEntry device uuid role requestedBy)
  if config.dryRun then pure mountPoint
  else
    let created ← createDirAll mountPoint
    orInternal ("Failed to create mount dir ".toList ++ mountPoint) created
    let outcome ← runCommand .mount
      ["-o".toList, mountOpts, mountSource device uuid, mountPoint]
    match outcome with
    | .spawnFailed e => Prog.fail (.internal ("Failed to invoke mount: ".toList ++ e))
    | .exited code _ _ =>
        if code ≠ some 0 then
          (AuditLog.record config (failedEntry device requestedBy code)).ignore
          Prog.fail (.internal ("Mount command failed for UUID=".toList ++ uuid ++
            " to ".toList ++ mountPoint))
        else
          FstabManager.upsert config uuid mountPoint SafetyGuard.ext4 mountOpts
          AuditLog.record config (postEntry device uuid role requestedBy)
          pure mountPoint

def unmountPath (config : StorageConfig) (mountPoint requestedBy : Str) :
    StorageProg Unit := do
  AuditLog.record config (unmountPreEntry requestedBy mountPoint)
  if config.dryRun then pure ()
  else
    let outcome ← runCommand .umount [mountPoint]
    match outcome with
    | .spawnFailed e => Prog.fail (.internal ("Failed to execute umount: ".toList ++ e))
    | .exited code _ _ =>
        if code ≠ some 0 then
          Prog.fail (.internal ("umount failed for ".toList ++ mountPoint))
        else
          (FstabManager.remove config mountPoint).ignore
          AuditLog.record config (unmountPostEntry requestedBy mountPoint)

end Mounter

end PiCluster
