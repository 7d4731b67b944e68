/-
The machine provisioning runs on, over its lifetime: its block devices, what is
on them, and its mounts.  The boot-disk checks see the same machine after any
reboot, whatever the probes report and whatever is mounted for data.
-/
import PiCluster.Provision

namespace PiCluster

open Text UnixPath SafetyGuard

/-- What `mkfs.ext4` leaves on a disk. -/
structure FileSystem where
  fsType : Str
  label : Option Str
deriving DecidableEq, Repr

/-- A machine with the file systems on its disks, by kernel name.  The mounts at
the root and boot mount points are the system's; the others are data mounts. -/
structure Host where
  blocks : List SysfsBlock
  contents : Str → Option FileSystem
  byIdDir : List ByIdLink
  systemMounts : List MountEntry
  dataMounts : List MountEntry
  distinct : (blocks.map SysfsBlock.name).Nodup
  separate : ∀ entry ∈ dataMounts, entry.mountPoint ≠ ['/'] ∧
    MountTable.isBootMountPoint entry.mountPoint = false

/-- A block directory up to what the probe last reported about the disk. -/
def SysfsBlock.hardware (block : SysfsBlock) : SysfsBlock := { block with uevent := none }

@[simp] theorem SysfsBlock.hardware_name (block : SysfsBlock) :
    block.hardware.name = block.name := rfl

@[simp] theorem SysfsBlock.hardware_hasPartitionFile (block : SysfsBlock) :
    block.hardware.hasPartitionFile = block.hasPartitionFile := rfl

namespace Host

variable (host : Host) (sysfsRoot : Str)

def mountTable : MountTable := ⟨host.systemMounts ++ host.dataMounts⟩

def device (block : SysfsBlock) : BlockDevice :=
  .fromSysfs sysfsRoot block host.byIdDir host.mountTable

/-- The devices a scan of this machine lists. -/
def scan : List BlockDevice :=
  ((host.blocks.filter fun block => !BlockDevice.isVirtualName block.name).map
    (host.device sysfsRoot)).insertionSort
      fun left right => strLe left.name right.name = true

theorem scanAll_eq_scan :
    BlockDevice.scanAll sysfsRoot (.entries host.blocks) host.byIdDir host.mountTable =
      .ok (host.scan sysfsRoot) := rfl

/-- What a daemon may read from this machine; a reading may also fail. -/
structure Sees (view : HostView) : Prop where
  sysfs : view.sysfs = .entries host.blocks ∨
    ∃ path error, view.sysfs = .unreadable path error
  byIdDir : view.byIdDir = host.byIdDir
  mounts : view.mounts = .ok host.mountTable ∨ ∃ error, view.mounts = .error error

/-- The same disks, links and system mounts. -/
structure SameMachine (before after : Host) : Prop where
  blocks : after.blocks.map SysfsBlock.hardware = before.blocks.map SysfsBlock.hardware
  byIdDir : after.byIdDir = before.byIdDir
  systemMounts : after.systemMounts = before.systemMounts

theorem SameMachine.refl : SameMachine host host := ⟨rfl, rfl, rfl⟩

theorem SameMachine.symm {before after : Host} (hsame : SameMachine before after) :
    SameMachine after before :=
  ⟨hsame.blocks.symm, hsame.byIdDir.symm, hsame.systemMounts.symm⟩

theorem SameMachine.trans {before middle after : Host} (hfirst : SameMachine before middle)
    (hsecond : SameMachine middle after) : SameMachine before after :=
  ⟨hsecond.blocks.trans hfirst.blocks, hsecond.byIdDir.trans hfirst.byIdDir,
    hsecond.systemMounts.trans hfirst.systemMounts⟩

variable {host sysfsRoot}

theorem mem_scan {device : BlockDevice} :
    device ∈ host.scan sysfsRoot ↔ ∃ block ∈ host.blocks,
      BlockDevice.isVirtualName block.name = false ∧
        host.device sysfsRoot block = device := by
  simp [scan, List.mem_insertionSort, and_assoc]

/-- A scan lists one device for a name. -/
theorem eq_of_mem_scan {left right : BlockDevice} (hleft : left ∈ host.scan sysfsRoot)
    (hright : right ∈ host.scan sysfsRoot) (hname : left.name = right.name) :
    left = right := by
  obtain ⟨leftBlock, hleftMem, _, rfl⟩ := mem_scan.mp hleft
  obtain ⟨rightBlock, hrightMem, _, rfl⟩ := mem_scan.mp hright
  rw [List.inj_on_of_nodup_map host.distinct hleftMem hrightMem hname]

theorem find?_scan {device : BlockDevice} (hmem : device ∈ host.scan sysfsRoot) :
    (host.scan sysfsRoot).find? (fun other => other.name == device.name) = some device := by
  cases hfind : (host.scan sysfsRoot).find? fun other => other.name == device.name with
  | none => simpa using List.find?_eq_none.mp hfind device hmem
  | some found =>
      have hname : found.name = device.name := by simpa using List.find?_some hfind
      rw [eq_of_mem_scan (List.mem_of_find?_eq_some hfind) hmem hname]

/-- Two readings of one disk, before and after. -/
structure SameDisk (before after : BlockDevice) : Prop where
  name : after.name = before.name
  devPath : after.devPath = before.devPath
  byIdPaths : after.byIdPaths = before.byIdPaths
  isPartition : after.isPartition = before.isPartition
  parentDisk : after.parentDisk = before.parentDisk

theorem SameDisk.symm {before after : BlockDevice} (hdisk : SameDisk before after) :
    SameDisk after before :=
  ⟨hdisk.name.symm, hdisk.devPath.symm, hdisk.byIdPaths.symm, hdisk.isPartition.symm,
    hdisk.parentDisk.symm⟩

theorem SameMachine.sameDisk {before after : Host} (hsame : SameMachine before after)
    {block block' : SysfsBlock} (hblock : block'.hardware = block.hardware) :
    SameDisk (before.device sysfsRoot block) (after.device sysfsRoot block') := by
  have hname : block'.name = block.name := by simpa using congrArg SysfsBlock.name hblock
  have hpart : block'.hasPartitionFile = block.hasPartitionFile := by
    simpa using congrArg SysfsBlock.hasPartitionFile hblock
  constructor <;> simp [device, BlockDevice.fromSysfs, hname, hpart, hsame.byIdDir]

/-- Every listed disk is listed again later. -/
theorem SameMachine.exists_mem_scan {before after : Host} (hsame : SameMachine before after)
    {device : BlockDevice} (hmem : device ∈ before.scan sysfsRoot) :
    ∃ device' ∈ after.scan sysfsRoot, SameDisk device device' := by
  obtain ⟨block, hblock, hvirtual, rfl⟩ := mem_scan.mp hmem
  have hhardware : block.hardware ∈ after.blocks.map SysfsBlock.hardware := by
    rw [hsame.blocks]
    exact List.mem_map_of_mem hblock
  obtain ⟨block', hblock', heq⟩ := List.mem_map.mp hhardware
  have hname : block'.name = block.name := by simpa using congrArg SysfsBlock.name heq
  exact ⟨_, mem_scan.mpr ⟨block', hblock', by rw [hname, hvirtual], rfl⟩,
    hsame.sameDisk heq⟩

theorem getRootDevice_mountTable :
    host.mountTable.getRootDevice = (MountTable.mk host.systemMounts).getRootDevice := by
  have hdata : host.dataMounts.find? (fun entry => entry.mountPoint == ['/']) = none :=
    List.find?_eq_none.mpr fun entry hentry => by simpa using (host.separate entry hentry).1
  simp [mountTable, MountTable.getRootDevice, MountTable.findByMountPoint,
    List.find?_append, hdata]

theorem getBootDevices_mountTable :
    host.mountTable.getBootDevices = (MountTable.mk host.systemMounts).getBootDevices := by
  have hdata : host.dataMounts.filter
      (fun entry => MountTable.isBootMountPoint entry.mountPoint) = [] :=
    List.filter_eq_nil_iff.mpr fun entry hentry => by simp [(host.separate entry hentry).2]
  simp [mountTable, MountTable.getBootDevices, hdata]

theorem SameMachine.specNames {before after : Host} (hsame : SameMachine before after)
    {device device' : BlockDevice} (hdisk : SameDisk device device') {spec : Str}
    (hnames : SpecNames device spec (before.scan sysfsRoot)) :
    SpecNames device' spec (after.scan sysfsRoot) := by
  cases hnames with
  | devPath hpath => exact .devPath (by rw [hdisk.devPath, hpath])
  | byId path hmem hpath => exact .byId path (by rwa [hdisk.byIdPaths]) hpath
  | namePrefix name hname hstarts => exact .namePrefix name hname (by rwa [hdisk.name])
  | parentPrefix name parent hname hparent hstarts =>
      exact .parentPrefix name parent hname (by rw [hdisk.parentDisk, hparent]) hstarts
  | listedChild name child hname hfind hparent =>
      obtain ⟨child', hmem, hchild⟩ :=
        hsame.exists_mem_scan (List.mem_of_find?_eq_some hfind)
      have hchildName : child.name = name := by simpa using List.find?_some hfind
      have hfind' := find?_scan hmem
      rw [hchild.name, hchildName] at hfind'
      exact .listedChild name child' hname hfind' (by rw [hchild.parentDisk, hparent, hdisk.name])

/-- The boot-disk checks refuse a disk whenever they refused it before. -/
theorem SameMachine.bootRefused {before after : Host} (hsame : SameMachine before after)
    {device device' : BlockDevice} (hdisk : SameDisk device device')
    (hrefused : BootRefused device before.mountTable (before.scan sysfsRoot)) :
    BootRefused device' after.mountTable (after.scan sysfsRoot) := by
  have hroots : after.mountTable.getRootDevice = before.mountTable.getRootDevice := by
    rw [getRootDevice_mountTable, getRootDevice_mountTable, hsame.systemMounts]
  have hboots : after.mountTable.getBootDevices = before.mountTable.getBootDevices := by
    rw [getBootDevices_mountTable, getBootDevices_mountTable, hsame.systemMounts]
  cases hrefused with
  | denylisted denied hmem hstarts => exact .denylisted denied hmem (by rwa [hdisk.name])
  | noRoot hroot => exact .noRoot (hroots.trans hroot)
  | root spec hroot hnames => exact .root spec (hroots.trans hroot) (hsame.specNames hdisk hnames)
  | boot spec hboot hnames =>
      exact .boot spec (by rwa [hboots]) (hsame.specNames hdisk hnames)

end Host

end PiCluster
