/-
Boot-disk exclusion.  Kernel names of one disk family always meet the guard's
name tests, so a mount spec given by kernel name protects the whole disk; a
spec given by a link or a UUID of a partition does so only when one of the
name tests happens to recognise it.
-/
import PiCluster.Safety

namespace PiCluster

open Text UnixPath SafetyGuard

/-- A non-empty string of decimal digits. -/
def IsNumber (digits : Str) : Prop :=
  digits ≠ [] ∧ ∀ c ∈ digits, c.isDigit = true

/-- Kernel names of whole disks. -/
inductive WholeDiskName : Str → Prop
  | mmc (card : Str) (hcard : IsNumber card) :
      WholeDiskName ("mmcblk".toList ++ card)
  | nvme (controller namespaceId : Str) (hcontroller : IsNumber controller)
      (hnamespace : IsNumber namespaceId) :
      WholeDiskName ("nvme".toList ++ controller ++ 'n' :: namespaceId)
  | lettered (bus letters : Str)
      (hbus : bus ∈ ["sd".toList, "vd".toList, "hd".toList, "xvd".toList])
      (hletters : ∀ c ∈ letters, c.isLower = true) :
      WholeDiskName (bus ++ letters)

def endsInDigit (name : Str) : Bool := name.getLast?.any Char.isDigit

/-- The kernel name of partition `number` of a disk. -/
def partitionName (disk number : Str) : Str :=
  if endsInDigit disk then disk ++ 'p' :: number else disk ++ number

/-- The disk itself or one of its partitions. -/
def InFamily (disk name : Str) : Prop :=
  name = disk ∨ ∃ number, IsNumber number ∧ name = partitionName disk number

theorem prefix_partitionName (disk number : Str) :
    disk <+: partitionName disk number := by
  unfold partitionName
  split
  · exact List.prefix_append disk _
  · exact List.prefix_append disk _

theorem InFamily.starts {disk name : Str} (hfamily : InFamily disk name) :
    disk <+: name := by
  rcases hfamily with rfl | ⟨number, _, rfl⟩
  · exact List.prefix_refl name
  · exact prefix_partitionName disk number

theorem endsInDigit_append {digits : Str} (hdigits : IsNumber digits) (start : Str) :
    endsInDigit (start ++ digits) = true := by
  obtain ⟨hne, hall⟩ := hdigits
  rw [endsInDigit, List.getLast?_append_of_ne_nil _ hne,
    List.getLast?_eq_some_getLast hne]
  exact hall _ (List.getLast_mem hne)

theorem isLower_of_mem_bus {bus : Str}
    (hbus : bus ∈ ["sd".toList, "vd".toList, "hd".toList, "xvd".toList]) :
    ∀ c ∈ bus, c.isLower = true := by
  simp only [List.mem_cons, List.not_mem_nil, or_false] at hbus
  rcases hbus with rfl | rfl | rfl | rfl <;> exact forall_mem_of_all (by decide)

/-- Only characters of kernel names: letters and digits, never a separator or
a dot. -/
theorem WholeDiskName.alphanum {disk : Str} (hdisk : WholeDiskName disk) :
    ∀ c ∈ disk, c.isDigit = true ∨ c.isLower = true := by
  intro c hc
  cases hdisk with
  | mmc card hcard =>
      rcases List.mem_append.mp hc with hc | hc
      · have hlit : ∀ c ∈ "mmcblk".toList, c.isLower = true :=
          forall_mem_of_all (by decide)
        exact Or.inr (hlit c hc)
      · exact Or.inl (hcard.2 c hc)
  | nvme controller namespaceId hcontroller hnamespace =>
      rcases List.mem_append.mp hc with hc | hc
      · rcases List.mem_append.mp hc with hc | hc
        · have hlit : ∀ c ∈ "nvme".toList, c.isLower = true :=
            forall_mem_of_all (by decide)
          exact Or.inr (hlit c hc)
        · exact Or.inl (hcontroller.2 c hc)
      · rcases List.mem_cons.mp hc with rfl | hc
        · right
          decide
        · exact Or.inl (hnamespace.2 c hc)
  | lettered bus letters hbus hletters =>
      rcases List.mem_append.mp hc with hc | hc
      · exact Or.inr (isLower_of_mem_bus hbus c hc)
      · exact Or.inr (hletters c hc)

theorem WholeDiskName.ne_nil {disk : Str} (hdisk : WholeDiskName disk) : disk ≠ [] := by
  cases hdisk with
  | mmc card hcard => simp
  | nvme controller namespaceId hcontroller hnamespace => simp
  | lettered bus letters hbus hletters =>
      have hbuses : ∀ bus ∈ ["sd".toList, "vd".toList, "hd".toList, "xvd".toList],
          bus ≠ [] := by decide
      simp [hbuses bus hbus]

theorem InFamily.alphanum {disk name : Str} (hdisk : WholeDiskName disk)
    (hfamily : InFamily disk name) :
    ∀ c ∈ name, c.isDigit = true ∨ c.isLower = true := by
  intro c hc
  rcases hfamily with rfl | ⟨number, hnumber, rfl⟩
  · exact hdisk.alphanum c hc
  · unfold partitionName at hc
    split at hc
    · rcases List.mem_append.mp hc with hc | hc
      · exact hdisk.alphanum c hc
      · rcases List.mem_cons.mp hc with rfl | hc
        · exact Or.inr (by decide)
        · exact Or.inl (hnumber.2 c hc)
    · rcases List.mem_append.mp hc with hc | hc
      · exact hdisk.alphanum c hc
      · exact Or.inl (hnumber.2 c hc)

/-- A kernel name is the file name of its device node. -/
theorem fileName_devNode {disk name : Str} (hdisk : WholeDiskName disk)
    (hfamily : InFamily disk name) :
    fileName ("/dev/".toList ++ name) = some name := by
  have hchars := hfamily.alphanum hdisk
  have hne : name ≠ [] := by
    rintro rfl
    exact hdisk.ne_nil (List.prefix_nil.mp hfamily.starts)
  have hsep : '/' ∉ name := fun hmem => by
    have := hchars _ hmem
    revert this
    decide
  have hdots : '.' ∉ name := fun hmem => by
    have := hchars _ hmem
    revert this
    decide
  have hfile : fileName ("/dev".toList ++ '/' :: name) = some name :=
    fileName_append_sep hsep hne
    (fun heq => hdots (by simp [heq])) (fun heq => hdots (by simp [heq]))
  simpa using hfile

/-- With a `p` separator the parent is what stands before the last `p`. -/
theorem determineParentDisk_of_separator {disk number : Str} (hnumber : IsNumber number)
    (hstart : startsWith (disk ++ 'p' :: number) "mmcblk".toList = true ∨
      startsWith (disk ++ 'p' :: number) "nvme".toList = true) :
    determineParentDisk (disk ++ 'p' :: number) = some disk := by
  have hnot : 'p' ∉ number := fun hmem => by
    have := hnumber.2 _ hmem
    revert this
    decide
  have hcontains : (disk ++ 'p' :: number).contains 'p' = true := by simp
  have hscheme : (startsWith (disk ++ 'p' :: number) "mmcblk".toList ||
      startsWith (disk ++ 'p' :: number) "nvme".toList) = true := by
    rcases hstart with hstart | hstart <;> rw [hstart] <;> simp
  unfold determineParentDisk
  simp only [hcontains, hscheme, Bool.and_self, ↓reduceIte, rfind_append_cons hnot,
    List.take_left]

/-- Without a separator the parent is the name without its trailing digits. -/
theorem determineParentDisk_of_digits {disk number : Str} (hnumber : IsNumber number)
    (hne : disk ≠ []) (hlast : ∀ hdisk : disk ≠ [], isNumeric (disk.getLast hdisk) = false)
    (hmmc : startsWith (disk ++ number) "mmcblk".toList = false)
    (hnvme : startsWith (disk ++ number) "nvme".toList = false) :
    determineParentDisk (disk ++ number) = some disk := by
  have hstripped : trimEndMatches isNumeric (disk ++ number) = disk :=
    trimEndMatches_append (fun c hc => isNumeric_of_isDigit (hnumber.2 c hc)) hlast
  have hshorter : disk ≠ disk ++ number := by
    intro heq
    exact hnumber.1 (List.self_eq_append_right.mp heq)
  simp only [determineParentDisk, hmmc, hnvme, hstripped, Bool.or_self, Bool.and_false,
    Bool.false_eq_true, ↓reduceIte, hne, ne_eq, not_false_eq_true, and_true, hshorter]

/-- The parent parser agrees with the naming scheme on every disk family. -/
theorem determineParentDisk_partitionName {disk number : Str}
    (hdisk : WholeDiskName disk) (hnumber : IsNumber number) :
    determineParentDisk (partitionName disk number) = some disk := by
  cases hdisk with
  | mmc card hcard =>
      rw [partitionName, if_pos (endsInDigit_append hcard _)]
      exact determineParentDisk_of_separator hnumber
        (Or.inl (by rw [List.append_assoc]; exact startsWith_append _ _))
  | nvme controller namespaceId hcontroller hnamespace =>
      have hends : endsInDigit ("nvme".toList ++ controller ++ 'n' :: namespaceId) = true := by
        have := endsInDigit_append hnamespace ("nvme".toList ++ controller ++ ['n'])
        simpa using this
      rw [partitionName, if_pos hends]
      exact determineParentDisk_of_separator hnumber
        (Or.inr (by rw [List.append_assoc, List.append_assoc]; exact startsWith_append _ _))
  | lettered bus letters hbus hletters =>
      have hne : bus ++ letters ≠ [] :=
        (WholeDiskName.lettered bus letters hbus hletters).ne_nil
      have hlower : ∀ c ∈ bus ++ letters, c.isLower = true := by
        intro c hc
        rcases List.mem_append.mp hc with hc | hc
        · exact isLower_of_mem_bus hbus c hc
        · exact hletters c hc
      have hends : endsInDigit (bus ++ letters) = false := by
        rw [endsInDigit, List.getLast?_eq_some_getLast hne, Option.any_some,
          Bool.eq_false_iff]
        intro hdigit
        have hlow := toNat_of_isLower (hlower _ (List.getLast_mem hne))
        have hdig := toNat_of_isDigit hdigit
        omega
      rw [partitionName, hends, if_neg Bool.false_ne_true]
      apply determineParentDisk_of_digits hnumber hne
      · intro hdisk
        exact isNumeric_of_isLower (hlower _ (List.getLast_mem hdisk))
      · simp only [List.mem_cons, List.not_mem_nil, or_false] at hbus
        rcases hbus with rfl | rfl | rfl | rfl <;> rfl
      · simp only [List.mem_cons, List.not_mem_nil, or_false] at hbus
        rcases hbus with rfl | rfl | rfl | rfl <;> rfl

/-- The fields a sysfs scan derives from a device's name. -/
structure SysfsShape (target : BlockDevice) : Prop where
  devPath : target.devPath = "/dev/".toList ++ target.name
  parentDisk : target.parentDisk =
    if target.isPartition then determineParentDisk target.name else none

theorem fromSysfs_shape (sysfsRoot : Str) (block : SysfsBlock) (byIdDir : List ByIdLink)
    (mountTable : MountTable) :
    SysfsShape (BlockDevice.fromSysfs sysfsRoot block byIdDir mountTable) where
  devPath := rfl
  parentDisk := rfl

/-- A scanned device that is the disk or one of its partitions. -/
def TargetsDisk (disk : Str) (target : BlockDevice) : Prop :=
  (target.isPartition = false ∧ target.name = disk) ∨
    (target.isPartition = true ∧
      ∃ number, IsNumber number ∧ target.name = partitionName disk number)

/-- The first `/` entry, or some boot entry, mounts the disk or one of its
partitions by kernel name. -/
def KernelNamedMount (disk : Str) (mountTable : MountTable) : Prop :=
  ∃ mounted, InFamily disk mounted ∧
    (mountTable.getRootDevice = some ("/dev/".toList ++ mounted) ∨
      ∃ entry ∈ mountTable.entries, MountTable.isBootMountPoint entry.mountPoint = true ∧
        entry.device = "/dev/".toList ++ mounted)

theorem mem_getBootDevices {mountTable : MountTable} {entry : MountEntry}
    (hmem : entry ∈ mountTable.entries)
    (hboot : MountTable.isBootMountPoint entry.mountPoint = true) :
    entry.device ∈ mountTable.getBootDevices := by
  simp only [MountTable.getBootDevices, List.mem_map, List.mem_filter]
  exact ⟨entry, ⟨hmem, hboot⟩, rfl⟩

/-- Any two names of one disk family meet one of the guard's name tests. -/
theorem specNames_of_family {disk mounted : Str} {target : BlockDevice}
    (hdisk : WholeDiskName disk) (hshape : SysfsShape target)
    (htarget : TargetsDisk disk target) (hmounted : InFamily disk mounted)
    (allDevices : List BlockDevice) :
    SpecNames target ("/dev/".toList ++ mounted) allDevices := by
  have hfile := fileName_devNode hdisk hmounted
  rcases htarget with ⟨_, hname⟩ | ⟨hpartition, number, hnumber, hname⟩
  · exact .namePrefix mounted hfile (hname ▸ hmounted.starts)
  · have hparent : target.parentDisk = some disk := by
      rw [hshape.parentDisk, hpartition, if_pos rfl, hname]
      exact determineParentDisk_partitionName hdisk hnumber
    exact .parentPrefix mounted disk hfile hparent hmounted.starts

theorem bootRefused_of_kernelNamedMount {disk : Str} {target : BlockDevice}
    {mountTable : MountTable} (hdisk : WholeDiskName disk) (hshape : SysfsShape target)
    (htarget : TargetsDisk disk target) (hmount : KernelNamedMount disk mountTable)
    (allDevices : List BlockDevice) : BootRefused target mountTable allDevices := by
  obtain ⟨mounted, hmounted, hroot | ⟨entry, hmem, hboot, hdevice⟩⟩ := hmount
  · exact .root _ hroot (specNames_of_family hdisk hshape htarget hmounted allDevices)
  · refine .boot _ (mem_getBootDevices hmem hboot) ?_
    rw [hdevice]
    exact specNames_of_family hdisk hshape htarget hmounted allDevices

/-- Boot-disk exclusion for kernel-named mounts: a disk family that backs the
root or a boot mount is refused, whichever of its names is the target. -/
theorem evaluateFormat_refuses_kernelNamedMount {disk : Str} {target : BlockDevice}
    {mountTable : MountTable} (hdisk : WholeDiskName disk) (hshape : SysfsShape target)
    (htarget : TargetsDisk disk target) (hmount : KernelNamedMount disk mountTable)
    (desiredRole : NodeRole) (reformatConfirmed : Bool) (allDevices : List BlockDevice) :
    ∃ err, evaluateFormat target desiredRole reformatConfirmed mountTable allDevices =
      .error err :=
  evaluateFormat_error_of_refused
    (bootRefused_of_kernelNamedMount hdisk hshape htarget hmount allDevices)
    desiredRole reformatConfirmed

namespace BootDiskWitness

def block (name : Str) (isPartition : Bool) (uevent : Str) : SysfsBlock where
  name := name
  size := some "1953525168".toList
  hasPartitionFile := isPartition
  uevent := some uevent
  deviceModel := none
  deviceSerial := none

def byIdDir : List ByIdLink :=
  [⟨"/dev/disk/by-id/nvme-Samsung".toList, some "nvme0n1".toList⟩,
   ⟨"/dev/disk/by-id/nvme-Samsung-part2".toList, some "nvme0n1p2".toList⟩]

def rootOn (device : Str) : MountTable := ⟨[⟨device, ['/'], ext4, []⟩]⟩

def diskBlock : SysfsBlock := block "nvme0n1".toList false []

def partBlock : SysfsBlock :=
  block "nvme0n1p2".toList true "ID_FS_TYPE=ext4\nID_FS_UUID=abcd-1234".toList

def disk (mountTable : MountTable) : BlockDevice :=
  .fromSysfs "/sys/class/block".toList diskBlock byIdDir mountTable

def part (mountTable : MountTable) : BlockDevice :=
  .fromSysfs "/sys/class/block".toList partBlock byIdDir mountTable

/-- A sibling partition of the root partition is refused. -/
theorem kernelNamedMount_refuses_sibling :
    ∃ err, evaluateFormat
      (.fromSysfs "/sys/class/block".toList
        (block "nvme0n1p1".toList true []) byIdDir (rootOn "/dev/nvme0n1p2".toList))
      .worker true (rootOn "/dev/nvme0n1p2".toList) [] = .error err := by
  have hzero : IsNumber ['0'] := ⟨by decide, forall_mem_of_all (by decide)⟩
  have hone : IsNumber ['1'] := ⟨by decide, forall_mem_of_all (by decide)⟩
  have htwo : IsNumber ['2'] := ⟨by decide, forall_mem_of_all (by decide)⟩
  exact evaluateFormat_refuses_kernelNamedMount (.nvme ['0'] ['1'] hzero hone)
    (fromSysfs_shape _ _ _ _) (Or.inr ⟨rfl, ['1'], hone, by decide⟩)
    ⟨"nvme0n1p2".toList, Or.inr ⟨['2'], htwo, by decide⟩, Or.inl (by decide)⟩ _ _ _

end BootDiskWitness

/-- A mount entry at `/`, `/boot` or `/boot/firmware` that names a partition of
the target disk by one of its links or by its file system UUID. -/
structure IndirectMount (target part : BlockDevice) (entry : MountEntry)
    (mountTable : MountTable) (allDevices : List BlockDevice) : Prop where
  wholeDisk : target.isPartition = false ∧ target.parentDisk = none
  listed : part ∈ allDevices
  parent : part.parentDisk = some target.name
  mounted : entry ∈ mountTable.entries
  mountPoint : entry.mountPoint = ['/'] ∨
    MountTable.isBootMountPoint entry.mountPoint = true
  indirect : entry.device ∈ part.byIdPaths ∨
    ∃ uuid, part.uuid = some uuid ∧ entry.device = "UUID=".toList ++ uuid

/-- What the guard can recognise of a whole disk in a mount spec. -/
def RecognisedOn (target : BlockDevice) (spec : Str) (allDevices : List BlockDevice) :
    Prop :=
  components target.devPath = components spec ∨
    (∃ path ∈ target.byIdPaths, components path = components spec) ∨
    ∃ name, fileName spec = some name ∧
      (target.name <+: name ∨
        ∃ device, allDevices.find? (fun device => device.name == name) = some device ∧
          device.parentDisk = some target.name)

theorem specNames_iff_recognisedOn {target : BlockDevice}
    (hdisk : target.parentDisk = none) (spec : Str) (allDevices : List BlockDevice) :
    SpecNames target spec allDevices ↔ RecognisedOn target spec allDevices := by
  constructor
  · intro hnames
    cases hnames with
    | devPath hpath => exact Or.inl hpath
    | byId path hmem hpath => exact Or.inr (Or.inl ⟨path, hmem, hpath⟩)
    | namePrefix name hname hstarts =>
        exact Or.inr (Or.inr ⟨name, hname, Or.inl hstarts⟩)
    | parentPrefix name parent hname hparent hstarts => simp [hdisk] at hparent
    | listedChild name device hname hfind hparent =>
        exact Or.inr (Or.inr ⟨name, hname, Or.inr ⟨device, hfind, hparent⟩⟩)
  · rintro (hpath | ⟨path, hmem, hpath⟩ | ⟨name, hname, hstarts | ⟨device, hfind, hparent⟩⟩)
    · exact .devPath hpath
    · exact .byId path hmem hpath
    · exact .namePrefix name hname hstarts
    · exact .listedChild name device hname hfind hparent

/-- The names a role change or the confirmation flag cannot talk the guard out
of are exactly those the boot-disk checks refuse. -/
theorem evaluateFormat_always_error_iff (target : BlockDevice) (mountTable : MountTable)
    (allDevices : List BlockDevice) :
    (∀ desiredRole reformatConfirmed, ∃ err,
        evaluateFormat target desiredRole reformatConfirmed mountTable allDevices =
          .error err) ↔
      BootRefused target mountTable allDevices := by
  constructor
  · intro hall
    by_contra hpass
    obtain ⟨err, herr⟩ := hall .worker true
    obtain ⟨decision, hdecision⟩ := evaluateFormat_confirmed_ok hpass
      (show expectedMount .worker = some gfsMountPoint from rfl)
    rw [herr] at hdecision
    cases hdecision
  · intro hrefused desiredRole reformatConfirmed
    exact evaluateFormat_error_of_refused hrefused desiredRole reformatConfirmed

/-- An indirectly named mount protects the disk exactly when the denylist, a
missing root entry or one of the name tests does. -/
theorem evaluateFormat_refuses_indirectMount_iff {target part : BlockDevice}
    {entry : MountEntry} {mountTable : MountTable} {allDevices : List BlockDevice}
    (hmount : IndirectMount target part entry mountTable allDevices) :
    (∀ desiredRole reformatConfirmed, ∃ err,
        evaluateFormat target desiredRole reformatConfirmed mountTable allDevices =
          .error err) ↔
      (∃ denied ∈ staticBootDenylist, denied <+: target.name) ∨
        mountTable.getRootDevice = none ∨
        ∃ spec, (mountTable.getRootDevice = some spec ∨
            spec ∈ mountTable.getBootDevices) ∧
          RecognisedOn target spec allDevices := by
  rw [evaluateFormat_always_error_iff]
  have hiff := specNames_iff_recognisedOn hmount.wholeDisk.2
  constructor
  · intro hrefused
    cases hrefused with
    | denylisted denied hmem hstarts => exact Or.inl ⟨denied, hmem, hstarts⟩
    | noRoot hroot => exact Or.inr (Or.inl hroot)
    | root spec hroot hnames =>
        exact Or.inr (Or.inr ⟨spec, Or.inl hroot, (hiff spec allDevices).mp hnames⟩)
    | boot spec hboot hnames =>
        exact Or.inr (Or.inr ⟨spec, Or.inr hboot, (hiff spec allDevices).mp hnames⟩)
  · rintro (⟨denied, hmem, hstarts⟩ | hroot | ⟨spec, hroot | hboot, hrecognised⟩)
    · exact .denylisted denied hmem hstarts
    · exact .noRoot hroot
    · exact .root spec hroot ((hiff spec allDevices).mpr hrecognised)
    · exact .boot spec hboot ((hiff spec allDevices).mpr hrecognised)

namespace BootDiskWitness

def partLink : Str := "/dev/disk/by-id/nvme-Samsung-part2".toList

/-- The root partition named by its link, the boot partition by kernel name. -/
def rootByLink : MountTable :=
  ⟨[⟨partLink, ['/'], ext4, []⟩,
    ⟨"/dev/nvme0n1p1".toList, "/boot/firmware".toList, "vfat".toList, []⟩]⟩

theorem indirectMount_refuses_kernelNamedBoot :
    ∃ err, evaluateFormat (disk rootByLink) .worker true rootByLink
      [disk rootByLink, part rootByLink] = .error err := by
  have hmount : IndirectMount (disk rootByLink) (part rootByLink)
      ⟨partLink, ['/'], ext4, []⟩ rootByLink [disk rootByLink, part rootByLink] :=
    ⟨by decide, by simp, by decide, by decide, by decide, Or.inl (by decide)⟩
  refine (evaluateFormat_refuses_indirectMount_iff hmount).mpr ?_ .worker true
  refine Or.inr (Or.inr ⟨"/dev/nvme0n1p1".toList, Or.inr (by decide), ?_⟩)
  exact Or.inr (Or.inr ⟨"nvme0n1p1".toList, by decide, Or.inl (by decide)⟩)

theorem indirectMount_formats_root_disk :
    IndirectMount (disk (rootOn partLink)) (part (rootOn partLink))
        ⟨partLink, ['/'], ext4, []⟩ (rootOn partLink)
        [disk (rootOn partLink), part (rootOn partLink)] ∧
      evaluateFormat (disk (rootOn partLink)) .worker true (rootOn partLink)
        [disk (rootOn partLink), part (rootOn partLink)] = .ok .proceedWithFormat := by
  refine ⟨⟨by decide, by simp, by decide, by decide, by decide, Or.inl (by decide)⟩, ?_⟩
  rfl

end BootDiskWitness

end PiCluster
