/-
Laws of the safety guard over several calls.  A boot-disk violation rests on the
first root entry, the boot entries and the names of devices, so longer lists
cannot undo it; the root lookup sees one root entry only; the active-mount step
lets most mounts of a disk in use fall through; discovery and the final gate ask
the same questions except for the confirmation flag.
-/
import PiCluster.BootDisk
import PiCluster.Provision

namespace PiCluster

open Text UnixPath

namespace SafetyGuard

/-- The inputs on which the guard answers with a boot-disk violation. -/
inductive BootViolation (target : BlockDevice) (mountTable : MountTable)
    (allDevices : List BlockDevice) : Prop
  | denylisted (denied : Str) (hmem : denied ∈ staticBootDenylist)
      (hstarts : denied <+: target.name)
  | root (spec : Str) (hroot : mountTable.getRootDevice = some spec)
      (hnames : SpecNames target spec allDevices)
  | boot (root spec : Str) (hroot : mountTable.getRootDevice = some root)
      (hboot : spec ∈ mountTable.getBootDevices)
      (hnames : SpecNames target spec allDevices)

section Violation

variable {target : BlockDevice} {mountTable : MountTable} {allDevices : List BlockDevice}

theorem BootViolation.refused (hviolation : BootViolation target mountTable allDevices) :
    BootRefused target mountTable allDevices := by
  cases hviolation with
  | denylisted denied hmem hstarts => exact .denylisted denied hmem hstarts
  | root spec hroot hnames => exact .root spec hroot hnames
  | boot root spec _ hboot hnames => exact .boot spec hboot hnames

/-- A refusal without a violation is a table without a root entry. -/
theorem BootRefused.violation_or_noRoot
    (hrefused : BootRefused target mountTable allDevices) :
    BootViolation target mountTable allDevices ∨ mountTable.getRootDevice = none := by
  cases hrefused with
  | denylisted denied hmem hstarts => exact Or.inl (.denylisted denied hmem hstarts)
  | noRoot hroot => exact Or.inr hroot
  | root spec hroot hnames => exact Or.inl (.root spec hroot hnames)
  | boot spec hboot hnames =>
      cases hroot : mountTable.getRootDevice with
      | none => exact Or.inr rfl
      | some root => exact Or.inl (.boot root spec hroot hboot hnames)

/-- The checks answer `ambiguousDevice` only for want of a root entry. -/
theorem checkBootDisk_eq_error {err : SafetyError}
    (hcheck : checkBootDisk target mountTable allDevices = .error err) :
    (∃ signal, err = .bootDiskViolation target.devPath signal) ∨
      (staticBootDenylist.find? (matchesDenied target.name) = none ∧
        mountTable.getRootDevice = none) := by
  unfold checkBootDisk at hcheck
  cases hdenied : staticBootDenylist.find? (matchesDenied target.name) with
  | some denied =>
      rw [hdenied] at hcheck
      exact Or.inl ⟨_, (Except.error.inj hcheck).symm⟩
  | none =>
      rw [hdenied] at hcheck
      cases hroot : mountTable.getRootDevice with
      | none => exact Or.inr ⟨rfl, rfl⟩
      | some root =>
          simp only [hroot] at hcheck
          split at hcheck
          · exact Or.inl ⟨_, (Except.error.inj hcheck).symm⟩
          · split at hcheck
            · exact Or.inl ⟨_, (Except.error.inj hcheck).symm⟩
            · cases hcheck

theorem checkBootDisk_eq_violation_iff :
    (∃ device signal, checkBootDisk target mountTable allDevices =
        .error (.bootDiskViolation device signal)) ↔
      BootViolation target mountTable allDevices := by
  constructor
  · rintro ⟨device, signal, hcheck⟩
    have hrefused : BootRefused target mountTable allDevices := by
      by_contra hpass
      rw [(checkBootDisk_eq_ok_iff _ _ _).mpr hpass] at hcheck
      cases hcheck
    rcases hrefused.violation_or_noRoot with hviolation | hroot
    · exact hviolation
    · cases hdenied : staticBootDenylist.find? (matchesDenied target.name) with
      | some denied =>
          exact .denylisted denied (List.mem_of_find?_eq_some hdenied)
            ((matchesDenied_iff _ _).mp (List.find?_some hdenied))
      | none =>
          simp [checkBootDisk, hdenied, hroot] at hcheck
  · intro hviolation
    obtain ⟨err, herr⟩ := checkBootDisk_error_of_refused hviolation.refused
    rcases checkBootDisk_eq_error herr with ⟨signal, rfl⟩ | ⟨hdenied, hroot⟩
    · exact ⟨target.devPath, signal, herr⟩
    · rw [List.find?_eq_none] at hdenied
      cases hviolation with
      | denylisted denied hmem hstarts =>
          exact absurd ((matchesDenied_iff _ _).mpr hstarts) (hdenied denied hmem)
      | root spec hspec _ => simp [hroot] at hspec
      | boot root _ hspec _ _ => simp [hroot] at hspec

theorem checkActiveMounts_ne_violation (desiredRole : NodeRole) (device signal : Str) :
    checkActiveMounts target desiredRole ≠ .error (.bootDiskViolation device signal) := by
  unfold checkActiveMounts
  split
  · simp
  · cases expectedMount desiredRole with
    | none => simp
    | some mount =>
        simp only
        split <;> simp

theorem checkConfirmation_ne_violation (reformatConfirmed : Bool) (device signal : Str) :
    checkConfirmation target reformatConfirmed ≠
      .error (.bootDiskViolation device signal) := by
  unfold checkConfirmation
  split <;> simp

/-- Only the boot-disk checks answer with a violation; role and flag play no
part. -/
theorem evaluateFormat_eq_violation_iff (desiredRole : NodeRole) (reformatConfirmed : Bool) :
    (∃ device signal, evaluateFormat target desiredRole reformatConfirmed mountTable
        allDevices = .error (.bootDiskViolation device signal)) ↔
      BootViolation target mountTable allDevices := by
  rw [← checkBootDisk_eq_violation_iff]
  cases hcheck : checkBootDisk target mountTable allDevices with
  | error err => simp [evaluateFormat, hcheck, bind, Except.bind]
  | ok _ =>
      have hpass := (checkBootDisk_eq_ok_iff _ _ _).mp hcheck
      simp only [reduceCtorEq, exists_false, iff_false, not_exists]
      intro device signal hviolation
      rw [evaluateFormat_of_not_refused hpass] at hviolation
      cases hmounts : checkActiveMounts target desiredRole with
      | error err =>
          have herr : err = .bootDiskViolation device signal := by
            simpa [hmounts, Except.bind] using hviolation
          exact checkActiveMounts_ne_violation desiredRole device signal (herr ▸ hmounts)
      | ok settled =>
          rw [hmounts] at hviolation
          cases settled with
          | some decision => cases hviolation
          | none => exact checkConfirmation_ne_violation _ _ _ hviolation

theorem SpecNames.append {spec : Str} (hnames : SpecNames target spec allDevices)
    (more : List BlockDevice) : SpecNames target spec (allDevices ++ more) := by
  cases hnames with
  | devPath hpath => exact .devPath hpath
  | byId path hmem hpath => exact .byId path hmem hpath
  | namePrefix name hname hstarts => exact .namePrefix name hname hstarts
  | parentPrefix name parent hname hparent hstarts =>
      exact .parentPrefix name parent hname hparent hstarts
  | listedChild name device hname hfind hparent =>
      refine .listedChild name device hname ?_ hparent
      rw [List.find?_append, hfind, Option.some_or]

theorem getRootDevice_append {spec : Str} (hroot : mountTable.getRootDevice = some spec)
    (more : List MountEntry) :
    MountTable.getRootDevice ⟨mountTable.entries ++ more⟩ = some spec := by
  simp only [MountTable.getRootDevice, MountTable.findByMountPoint,
    Option.map_eq_some_iff] at hroot ⊢
  obtain ⟨entry, hfind, hspec⟩ := hroot
  refine ⟨entry, ?_, hspec⟩
  rw [List.find?_append, hfind, Option.some_or]

theorem mem_getBootDevices_append {spec : Str} (hboot : spec ∈ mountTable.getBootDevices)
    (more : List MountEntry) :
    spec ∈ MountTable.getBootDevices ⟨mountTable.entries ++ more⟩ := by
  simp only [MountTable.getBootDevices, List.filter_append, List.map_append]
  exact List.mem_append_left _ hboot

/-- Further entries and devices come after the ones a violation rests on. -/
theorem BootViolation.append (hviolation : BootViolation target mountTable allDevices)
    (moreEntries : List MountEntry) (moreDevices : List BlockDevice) :
    BootViolation target ⟨mountTable.entries ++ moreEntries⟩ (allDevices ++ moreDevices) := by
  cases hviolation with
  | denylisted denied hmem hstarts => exact .denylisted denied hmem hstarts
  | root spec hroot hnames =>
      exact .root spec (getRootDevice_append hroot _) (hnames.append _)
  | boot root spec hroot hboot hnames =>
      exact .boot root spec (getRootDevice_append hroot _)
        (mem_getBootDevices_append hboot _) (hnames.append _)

end Violation

/-- A boot-disk violation cannot be overridden: neither by another role or flag
nor by further mount entries or devices. -/
theorem evaluateFormat_violation_append {target : BlockDevice} {mountTable : MountTable}
    {allDevices : List BlockDevice} {role : NodeRole} {confirmed : Bool}
    (hviolation : ∃ device signal, evaluateFormat target role confirmed mountTable
      allDevices = .error (.bootDiskViolation device signal))
    (role' : NodeRole) (confirmed' : Bool) (moreEntries : List MountEntry)
    (moreDevices : List BlockDevice) :
    ∃ device signal, evaluateFormat target role' confirmed'
      ⟨mountTable.entries ++ moreEntries⟩ (allDevices ++ moreDevices) =
        .error (.bootDiskViolation device signal) := by
  rw [evaluateFormat_eq_violation_iff] at hviolation ⊢
  exact hviolation.append moreEntries moreDevices

namespace GuardWitness

open BootDiskWitness

/-- A later overlay at `/` and a further disk do not lift the refusal of the
root disk. -/
theorem violation_survives_overlay :
    ∃ device signal, evaluateFormat (disk (rootOn "/dev/nvme0n1p2".toList)) .worker true
      ⟨(rootOn "/dev/nvme0n1p2".toList).entries ++
        [⟨"overlay".toList, ['/'], "overlay".toList, []⟩]⟩
      ([] ++ [part (rootOn "/dev/nvme0n1p2".toList)]) =
        .error (.bootDiskViolation device signal) := by
  have hviolation : ∃ device signal,
      evaluateFormat (disk (rootOn "/dev/nvme0n1p2".toList)) .pending false
        (rootOn "/dev/nvme0n1p2".toList) [] = .error (.bootDiskViolation device signal) :=
    (evaluateFormat_eq_violation_iff _ _).mpr
      (.root "/dev/nvme0n1p2".toList rfl
        (.namePrefix "nvme0n1p2".toList (by decide) (by decide)))
  exact evaluateFormat_violation_append hviolation .worker true _ _

end GuardWitness

/-- A mount of the root file system, at any position of the table, from the
target's own node or from one of its partitions. -/
structure RootMountOf (target : BlockDevice) (entry : MountEntry)
    (mountTable : MountTable) : Prop where
  mounted : entry ∈ mountTable.entries
  mountPoint : entry.mountPoint = ['/']
  onTarget : entry.device = target.devPath ∨
    ∃ part : BlockDevice, part.isPartition = true ∧
      part.parentDisk = some target.name ∧ entry.device = part.devPath

theorem RootMountOf.getRootDevice_ne_none {target : BlockDevice} {entry : MountEntry}
    {mountTable : MountTable} (hmount : RootMountOf target entry mountTable) :
    mountTable.getRootDevice ≠ none := by
  intro hnone
  simp only [MountTable.getRootDevice, MountTable.findByMountPoint, Option.map_eq_none_iff,
    List.find?_eq_none, beq_iff_eq] at hnone
  exact hnone entry hmount.mounted hmount.mountPoint

/-- A disk that carries a root mount is refused exactly when it is denylisted or
one of the specs the guard looks at is recognised: that of the first root entry
or that of a boot entry. -/
theorem evaluateFormat_refuses_rootMount_iff {target : BlockDevice} {entry : MountEntry}
    {mountTable : MountTable} (hmount : RootMountOf target entry mountTable)
    (allDevices : List BlockDevice) :
    (∀ desiredRole reformatConfirmed, ∃ err,
        evaluateFormat target desiredRole reformatConfirmed mountTable allDevices =
          .error err) ↔
      (∃ denied ∈ staticBootDenylist, denied <+: target.name) ∨
        ∃ spec, (mountTable.getRootDevice = some spec ∨
            spec ∈ mountTable.getBootDevices) ∧
          SpecNames target spec allDevices := by
  rw [evaluateFormat_always_error_iff]
  constructor
  · intro hrefused
    cases hrefused with
    | denylisted denied hmem hstarts => exact Or.inl ⟨denied, hmem, hstarts⟩
    | noRoot hroot => exact absurd hroot hmount.getRootDevice_ne_none
    | root spec hroot hnames => exact Or.inr ⟨spec, Or.inl hroot, hnames⟩
    | boot spec hboot hnames => exact Or.inr ⟨spec, Or.inr hboot, hnames⟩
  · rintro (⟨denied, hmem, hstarts⟩ | ⟨spec, hroot | hboot, hnames⟩)
    · exact .denylisted denied hmem hstarts
    · exact .root spec hroot hnames
    · exact .boot spec hboot hnames

namespace GuardWitness

open BootDiskWitness

def rootEntry : MountEntry := ⟨"/dev/nvme0n1p2".toList, ['/'], ext4, []⟩

/-- The kernel's `rootfs` entry before the live root. -/
def rootfsFirst : MountTable :=
  ⟨[⟨"rootfs".toList, ['/'], "rootfs".toList, []⟩, rootEntry]⟩

theorem rootMountOf_disk {mountTable : MountTable}
    (hmounted : rootEntry ∈ mountTable.entries) :
    RootMountOf (disk mountTable) rootEntry mountTable where
  mounted := hmounted
  mountPoint := rfl
  onTarget := Or.inr ⟨part mountTable, rfl, rfl, rfl⟩

theorem first_root_refused :
    ∃ err, evaluateFormat (disk (rootOn "/dev/nvme0n1p2".toList)) .worker true
      (rootOn "/dev/nvme0n1p2".toList) [] = .error err := by
  have hrecognised : SpecNames (disk (rootOn "/dev/nvme0n1p2".toList))
      "/dev/nvme0n1p2".toList [] :=
    .namePrefix "nvme0n1p2".toList (by decide) (by decide)
  exact (evaluateFormat_refuses_rootMount_iff (rootMountOf_disk List.mem_cons_self) []).mpr
    (Or.inr ⟨"/dev/nvme0n1p2".toList, Or.inl rfl, hrecognised⟩) .worker true

theorem later_root_formatted :
    RootMountOf (disk rootfsFirst) rootEntry rootfsFirst ∧
      evaluateFormat (disk rootfsFirst) .worker true rootfsFirst
        [disk rootfsFirst, part rootfsFirst] = .ok .proceedWithFormat := by
  refine ⟨rootMountOf_disk (List.mem_cons_of_mem _ List.mem_cons_self), ?_⟩
  rfl

end GuardWitness

/-- The device of a mount entry is a node or a link of the block device. -/
def MountedFrom (device : BlockDevice) (entry : MountEntry) : Prop :=
  entry.device = device.devPath ∨ entry.device ∈ device.byIdPaths

/-- A mount outside the system's own mount points uses the disk, directly or
through a device whose parent it is. -/
def InUse (target : BlockDevice) (mountTable : MountTable)
    (allDevices : List BlockDevice) : Prop :=
  ∃ entry ∈ mountTable.entries, entry.mountPoint ≠ ['/'] ∧
    MountTable.isBootMountPoint entry.mountPoint = false ∧
    (MountedFrom target entry ∨
      ∃ device ∈ allDevices, device.parentDisk = some target.name ∧
        MountedFrom device entry)

/-- The mount points of a device as `from_sysfs` fills them. -/
def MountsFilled (mountTable : MountTable) (device : BlockDevice) : Prop :=
  device.mountPoints = (mountTable.entries.filter
    (BlockDevice.entryNamesDevice device.name device.devPath device.byIdPaths)).map
      MountEntry.mountPoint

/-- An entry of the table by which `from_sysfs` takes the device as mounted. -/
def MountedAs (mountTable : MountTable) (device : BlockDevice) (entry : MountEntry) : Prop :=
  entry ∈ mountTable.entries ∧
    BlockDevice.entryNamesDevice device.name device.devPath device.byIdPaths entry = true

/-- The active-mount step stops: the device itself is mounted and the role has
no storage, or the device is mounted where the role wants it, with `ext4`. -/
def StopsAtMounts (target : BlockDevice) (desiredRole : NodeRole)
    (mountTable : MountTable) : Prop :=
  (∃ entry, MountedAs mountTable target entry) ∧
    ∀ mount, expectedMount desiredRole = some mount →
      (∃ entry, MountedAs mountTable target entry ∧ entry.mountPoint = mount) ∧
        target.fsType = some ext4

theorem mem_mountPoints_iff {target : BlockDevice} {mountTable : MountTable}
    (hfilled : MountsFilled mountTable target) {mount : Str} :
    mount ∈ target.mountPoints ↔
      ∃ entry, MountedAs mountTable target entry ∧ entry.mountPoint = mount := by
  rw [hfilled]
  simp [MountedAs]

theorem stopsAtMounts_iff {target : BlockDevice} {mountTable : MountTable}
    (hfilled : MountsFilled mountTable target) (desiredRole : NodeRole) :
    StopsAtMounts target desiredRole mountTable ↔ ¬ FallsThrough target desiredRole := by
  have hmounted : (∃ entry, MountedAs mountTable target entry) ↔
      target.mountPoints ≠ [] := by
    rw [← List.length_pos_iff, List.length_pos_iff_exists_mem]
    simp [mem_mountPoints_iff hfilled]
  simp only [StopsAtMounts, FallsThrough, hmounted, ← mem_mountPoints_iff hfilled]
  rw [not_or, not_exists]
  refine and_congr_right fun _ => forall_congr' fun mount => ?_
  rw [not_and, not_not]

/-- Approvals spare a disk in use exactly when, for each disk in use, one of the
guard's steps stops: the boot-disk checks, the active-mount step or the missing
confirmation. -/
theorem evaluateFormat_spares_inUse_iff {target : BlockDevice} {mountTable : MountTable}
    (hfilled : MountsFilled mountTable target) (desiredRole : NodeRole)
    (reformatConfirmed : Bool) (allDevices : List BlockDevice) :
    (evaluateFormat target desiredRole reformatConfirmed mountTable allDevices =
        .ok .proceedWithFormat → ¬ InUse target mountTable allDevices) ↔
      (InUse target mountTable allDevices →
        BootRefused target mountTable allDevices ∨
          StopsAtMounts target desiredRole mountTable ∨
          ((target.fsType.isSome = true ∨ target.uuid.isSome = true) ∧
            reformatConfirmed = false)) := by
  have hexisting : hasExistingFs target = true ↔
      target.fsType.isSome = true ∨ target.uuid.isSome = true := by
    simp [hasExistingFs]
  rw [evaluateFormat_eq_proceed_iff, stopsAtMounts_iff hfilled, ← hexisting]
  constructor
  · intro hspares huse
    by_contra hnone
    rw [not_or, not_or, not_not, not_and, Bool.not_eq_false] at hnone
    exact hspares hnone huse
  · rintro hstops ⟨hpass, hfalls, hconfirmed⟩ huse
    rcases hstops huse with hrefused | hmounts | ⟨hfs, hflag⟩
    · exact hpass hrefused
    · exact hmounts hfalls
    · rw [hconfirmed hfs] at hflag
      cases hflag

namespace GuardWitness

open BootDiskWitness

/-- The data partition of the disk at a mount point of its own. -/
def dataMounted : MountTable :=
  ⟨[⟨"/dev/mmcblk0p2".toList, ['/'], ext4, []⟩,
    ⟨"/dev/nvme0n1p2".toList, "/srv/data".toList, ext4, []⟩]⟩

/-- The whole disk at the worker's mount point. -/
def storageMounted : MountTable :=
  ⟨[⟨"/dev/mmcblk0p2".toList, ['/'], ext4, []⟩,
    ⟨"/dev/nvme0n1".toList, gfsMountPoint, ext4, []⟩]⟩

def formattedDisk (mountTable : MountTable) : BlockDevice :=
  .fromSysfs "/sys/class/block".toList
    (block "nvme0n1".toList false "ID_FS_TYPE=ext4".toList) byIdDir mountTable

theorem storage_in_use_spared :
    InUse (formattedDisk storageMounted) storageMounted [] ∧
      evaluateFormat (formattedDisk storageMounted) .worker true storageMounted [] ≠
        .ok .proceedWithFormat := by
  have hfilled : MountsFilled storageMounted (formattedDisk storageMounted) := rfl
  have hmounted : MountedAs storageMounted (formattedDisk storageMounted)
      ⟨"/dev/nvme0n1".toList, gfsMountPoint, ext4, []⟩ :=
    ⟨List.mem_cons_of_mem _ List.mem_cons_self, by decide⟩
  have huse : InUse (formattedDisk storageMounted) storageMounted [] :=
    ⟨_, hmounted.1, by decide, by decide, Or.inl (Or.inl (by decide))⟩
  have hstops : StopsAtMounts (formattedDisk storageMounted) .worker storageMounted :=
    ⟨⟨_, hmounted⟩, fun mount hmount => ⟨⟨_, hmounted, Option.some.inj hmount⟩, by decide⟩⟩
  refine ⟨huse, fun hproceed => ?_⟩
  exact (evaluateFormat_spares_inUse_iff hfilled .worker true []).mpr
    (fun _ => Or.inr (Or.inl hstops)) hproceed huse

theorem data_in_use_formatted :
    evaluateFormat (disk dataMounted) .worker false dataMounted
        [disk dataMounted, part dataMounted] = .ok .proceedWithFormat ∧
      InUse (disk dataMounted) dataMounted [disk dataMounted, part dataMounted] := by
  refine ⟨rfl, ⟨"/dev/nvme0n1p2".toList, "/srv/data".toList, ext4, []⟩,
    List.mem_cons_of_mem _ List.mem_cons_self, by decide, by decide, Or.inr ?_⟩
  exact ⟨part dataMounted, List.mem_cons_of_mem _ List.mem_cons_self, by decide,
    Or.inl (by decide)⟩

end GuardWitness

/-- Nothing is decided on a table without a root entry. -/
theorem exists_root_of_evaluateFormat_ok {target : BlockDevice} {desiredRole : NodeRole}
    {reformatConfirmed : Bool} {mountTable : MountTable} {allDevices : List BlockDevice}
    {decision : FormatDecision}
    (hok : evaluateFormat target desiredRole reformatConfirmed mountTable allDevices =
      .ok decision) : ∃ entry ∈ mountTable.entries, entry.mountPoint = ['/'] := by
  by_contra hnone
  apply not_refused_of_evaluateFormat_ok hok
  apply BootRefused.noRoot
  simp only [MountTable.getRootDevice, MountTable.findByMountPoint, Option.map_eq_none_iff,
    List.find?_eq_none, beq_iff_eq]
  intro entry hentry hmount
  exact hnone ⟨entry, hentry, hmount⟩

/-- Without the flag an approval can only turn into the missing
confirmation. -/
theorem evaluateFormat_of_confirmed {target : BlockDevice} {desiredRole : NodeRole}
    {mountTable : MountTable} {allDevices : List BlockDevice} {decision : FormatDecision}
    (hconfirmed : evaluateFormat target desiredRole true mountTable allDevices =
      .ok decision) (reformatConfirmed : Bool) :
    evaluateFormat target desiredRole reformatConfirmed mountTable allDevices =
        .ok decision ∨
      (evaluateFormat target desiredRole reformatConfirmed mountTable allDevices =
          .error (.missingConfirmation target.devPath) ∧
        reformatConfirmed = false ∧ hasExistingFs target = true) := by
  have hpass := not_refused_of_evaluateFormat_ok hconfirmed
  rw [evaluateFormat_of_not_refused hpass] at hconfirmed ⊢
  cases hmounts : checkActiveMounts target desiredRole with
  | error err =>
      rw [hmounts] at hconfirmed
      cases hconfirmed
  | ok settled =>
      rw [hmounts] at hconfirmed
      cases settled with
      | some settledDecision => exact Or.inl hconfirmed
      | none =>
          have hproceed : decision = .proceedWithFormat := by
            simpa [Except.bind, checkConfirmation, eq_comm] using hconfirmed
          subst hproceed
          cases hfs : hasExistingFs target <;> cases reformatConfirmed <;>
            simp [Except.bind, checkConfirmation, hfs]

end SafetyGuard

namespace DeviceDiscovery

open SafetyGuard

/-- The disk discovery resolves passes the final gate with the decision
discovery saw, or lacks only the confirmation. -/
theorem resolveTargetDisk_passes_gate {targetId : Option Str} {sysfsRoot : Str}
    {sysfs : SysfsRoot} {byIdDir : List ByIdLink} {mountTable : MountTable}
    {desiredRole : NodeRole} {allDevices : List BlockDevice} {device : BlockDevice}
    (hscan : BlockDevice.scanAll sysfsRoot sysfs byIdDir mountTable = .ok allDevices)
    (hresolve : resolveTargetDisk targetId sysfsRoot sysfs byIdDir mountTable desiredRole =
      .ok device) (reformatConfirmed : Bool) :
    device ∈ allDevices ∧ device.isPartition = false ∧
      (∀ id, targetId = some id → device.matchesIdentifier id = true) ∧
      (targetId = none →
        allDevices.filter (isEligible desiredRole mountTable allDevices) = [device]) ∧
      (∃ decision,
        evaluateFormat device desiredRole true mountTable allDevices = .ok decision ∧
          (evaluateFormat device desiredRole reformatConfirmed mountTable allDevices =
              .ok decision ∨
            (evaluateFormat device desiredRole reformatConfirmed mountTable allDevices =
                .error (.missingConfirmation device.devPath) ∧
              reformatConfirmed = false ∧
              (device.fsType.isSome = true ∨ device.uuid.isSome = true)))) ∧
      ∃ entry ∈ mountTable.entries, entry.mountPoint = ['/'] := by
  obtain ⟨scanned, hscanned, hmem, hmatch, honly⟩ := resolveTargetDisk_eq_ok hresolve
  obtain rfl : scanned = allDevices := by
    rw [hscan] at hscanned
    exact (Except.ok.inj hscanned).symm
  obtain ⟨hlisted, heligible⟩ := List.mem_filter.mp hmem
  simp only [isEligible, Bool.and_eq_true, Bool.not_eq_true'] at heligible
  obtain ⟨hpartition, hguard⟩ := heligible
  cases hconfirmed : evaluateFormat device desiredRole true mountTable scanned with
  | error err => simp [hconfirmed, Except.toBool] at hguard
  | ok decision =>
      refine ⟨hlisted, hpartition, hmatch, honly, ⟨decision, rfl, ?_⟩, ?_⟩
      · rcases evaluateFormat_of_confirmed hconfirmed reformatConfirmed with
          hsame | ⟨hmissing, hflag, hfs⟩
        · exact Or.inl hsame
        · exact Or.inr ⟨hmissing, hflag, by simpa [hasExistingFs] using hfs⟩
      · exact exists_root_of_evaluateFormat_ok hconfirmed

namespace GateWitness

open BootDiskWitness

def cardRoot : MountTable := rootOn "/dev/mmcblk0p2".toList

/-- The only data disk is resolved without an identifier and passes the gate
without the flag. -/
theorem blank_disk_passes_gate :
    evaluateFormat (disk cardRoot) .worker false cardRoot [disk cardRoot] =
        .ok .proceedWithFormat ∨
      (evaluateFormat (disk cardRoot) .worker false cardRoot [disk cardRoot] =
          .error (.missingConfirmation (disk cardRoot).devPath) ∧
        false = false ∧
        ((disk cardRoot).fsType.isSome = true ∨ (disk cardRoot).uuid.isSome = true)) := by
  have hscan : BlockDevice.scanAll "/sys/class/block".toList (.entries [diskBlock]) byIdDir
      cardRoot = .ok [disk cardRoot] := rfl
  have hresolve : resolveTargetDisk none "/sys/class/block".toList (.entries [diskBlock])
      byIdDir cardRoot .worker = .ok (disk cardRoot) := rfl
  obtain ⟨decision, hconfirmed, hgate⟩ :=
    (resolveTargetDisk_passes_gate hscan hresolve false).2.2.2.2.1
  have hdecision : decision = .proceedWithFormat :=
    Except.ok.inj (hconfirmed.symm.trans rfl)
  rw [hdecision] at hgate
  exact hgate

end GateWitness

end DeviceDiscovery

end PiCluster
