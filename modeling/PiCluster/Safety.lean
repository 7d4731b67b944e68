/-
The safety guard that every format decision passes through.  The boot-disk
checks come first and depend on names only; the layout and confirmation checks
come after them.
-/
import PiCluster.Crd
import PiCluster.Device

namespace PiCluster

open Text UnixPath

inductive SafetyError where
  | bootDiskViolation (device signal : Str)
  | ambiguousDevice (device reason : Str)
  | missingConfirmation (device : Str)
deriving DecidableEq, Repr

inductive FormatDecision where
  | proceedWithFormat
  | skipFormatAlreadyMatching (existingFs targetMount : Str)
deriving DecidableEq, Repr

/-- Boot devices, SD controllers and virtual devices that are never
formatted. -/
def staticBootDenylist : List Str :=
  ["mmcblk0".toList, "mmcblk0boot0".toList, "mmcblk0boot1".toList,
   "mmcblk0rpmb".toList, "mmcblk1".toList, "mmcblk1boot0".toList,
   "mmcblk1boot1".toList, "ram0".toList, "ram1".toList, "loop0".toList,
   "zram0".toList]

namespace SafetyGuard

def matchesDenied (name denied : Str) : Bool := name == denied || startsWith name denied

/-- Whether `target` is the same device, a partition or the parent of
`mountedSpec`.  The source wraps the answer in a `Result` and never takes its
error exit. -/
def isDeviceOrParentMatch (target : BlockDevice) (mountedSpec : Str)
    (allDevices : List BlockDevice) : Bool :=
  let mountedName := (fileName mountedSpec).getD []
  pathEq target.devPath mountedSpec ||
    target.byIdPaths.any (fun path => pathEq path mountedSpec) ||
    (!mountedName.isEmpty &&
      (startsWith mountedName target.name ||
        (match target.parentDisk with
          | some parent => mountedName == parent || startsWith mountedName parent
          | none => false) ||
        (match allDevices.find? fun device => device.name == mountedName with
          | some mountedDev => mountedDev.parentDisk == some target.name
          | none => false)))

/-- Steps 1 to 3 of `evaluate_format`: denylist, root mount, boot mounts. -/
def checkBootDisk (target : BlockDevice) (mountTable : MountTable)
    (allDevices : List BlockDevice) : Except SafetyError Unit :=
  match staticBootDenylist.find? (matchesDenied target.name) with
  | some denied => .error (.bootDiskViolation target.devPath
      ("Matched static boot denylist pattern '".toList ++ denied ++ "'".toList))
  | none =>
      match mountTable.getRootDevice with
      | none => .error (.ambiguousDevice target.devPath
          "Unable to resolve active root filesystem ('/') from mount table".toList)
      | some rootDev =>
          if isDeviceOrParentMatch target rootDev allDevices then
            .error (.bootDiskViolation target.devPath
              ("Device backs active root filesystem ('/') via '".toList ++ rootDev ++
                "'".toList))
          else
            match mountTable.getBootDevices.find? fun bootDev =>
                isDeviceOrParentMatch target bootDev allDevices with
            | some bootDev => .error (.bootDiskViolation target.devPath
                ("Device backs active boot partition ('/boot' or '/boot/firmware') via '".toList ++
                  bootDev ++ "'".toList))
            | none => .ok ()

/-- The file system type every role's storage uses. -/
def ext4 : Str := "ext4".toList

def etcdMountPoint : Str := "/var/lib/rancher/k3s/server/db/etcd".toList

def gfsMountPoint : Str := "/mnt/gfs-storage".toList

/-- The mount point a role's storage is expected at. -/
def expectedMount : NodeRole → Option Str
  | .master | .seed => some etcdMountPoint
  | .worker => some gfsMountPoint
  | _ => none

/-- Step 4: an active mount either settles the decision or falls through. -/
def checkActiveMounts (target : BlockDevice) (desiredRole : NodeRole) :
    Except SafetyError (Option FormatDecision) :=
  if target.mountPoints = [] then .ok none
  else match expectedMount desiredRole with
    | none => .error (.ambiguousDevice target.devPath
        ("Cannot format device for non-operational role ".toList ++ desiredRole.debug))
    | some mount =>
        if target.mountPoints.contains mount && target.fsType == some ext4 then
          .ok (some (.skipFormatAlreadyMatching ext4 mount))
        else .ok none

def hasExistingFs (device : BlockDevice) : Bool :=
  device.fsType.isSome || device.uuid.isSome

/-- Step 5: an existing file system needs the confirmation flag. -/
def checkConfirmation (target : BlockDevice) (reformatConfirmed : Bool) :
    Except SafetyError FormatDecision :=
  if hasExistingFs target && !reformatConfirmed then
    .error (.missingConfirmation target.devPath)
  else .ok .proceedWithFormat

def evaluateFormat (target : BlockDevice) (desiredRole : NodeRole)
    (reformatConfirmed : Bool) (mountTable : MountTable)
    (allDevices : List BlockDevice) : Except SafetyError FormatDecision := do
  checkBootDisk target mountTable allDevices
  match ← checkActiveMounts target desiredRole with
  | some decision => return decision
  | none => checkConfirmation target reformatConfirmed

/-- How a mount spec can be recognised as lying on `target`'s disk: by path, by
one of the target's own links, or by the kernel name at the end of the spec. -/
inductive SpecNames (target : BlockDevice) (spec : Str) (allDevices : List BlockDevice) :
    Prop
  | devPath (hpath : components target.devPath = components spec)
  | byId (path : Str) (hmem : path ∈ target.byIdPaths)
      (hpath : components path = components spec)
  | namePrefix (name : Str) (hname : fileName spec = some name)
      (hstarts : target.name <+: name)
  | parentPrefix (name parent : Str) (hname : fileName spec = some name)
      (hparent : target.parentDisk = some parent) (hstarts : parent <+: name)
  | listedChild (name : Str) (device : BlockDevice) (hname : fileName spec = some name)
      (hfind : allDevices.find? (fun device => device.name == name) = some device)
      (hparent : device.parentDisk = some target.name)

theorem isDeviceOrParentMatch_of_fileName {target : BlockDevice} {spec name : Str}
    {allDevices : List BlockDevice} (hname : fileName spec = some name)
    (hkernel : (startsWith name target.name ||
      (match target.parentDisk with
        | some parent => name == parent || startsWith name parent
        | none => false) ||
      (match allDevices.find? fun device => device.name == name with
        | some mountedDev => mountedDev.parentDisk == some target.name
        | none => false)) = true) :
    isDeviceOrParentMatch target spec allDevices = true := by
  have hne : name.isEmpty = false := by
    simpa using fileName_ne_nil hname
  simp only [isDeviceOrParentMatch, hname, Option.getD_some, hne, Bool.not_false,
    Bool.true_and, hkernel, Bool.or_true]

theorem isDeviceOrParentMatch_iff (target : BlockDevice) (spec : Str)
    (allDevices : List BlockDevice) :
    isDeviceOrParentMatch target spec allDevices = true ↔
      SpecNames target spec allDevices := by
  constructor
  · intro hmatch
    simp only [isDeviceOrParentMatch, Bool.or_eq_true, Bool.and_eq_true,
      List.any_eq_true] at hmatch
    rcases hmatch with (hdev | ⟨path, hmem, hpath⟩) | ⟨hne, hkernel⟩
    · exact .devPath (by simpa [pathEq] using hdev)
    · exact .byId path hmem (by simpa [pathEq] using hpath)
    · cases hname : fileName spec with
      | none => simp [hname] at hne
      | some name =>
          simp only [hname, Option.getD_some] at hkernel
          rcases hkernel with (hstarts | hparent) | hlisted
          · exact .namePrefix name hname (startsWith_iff.mp hstarts)
          · cases hdisk : target.parentDisk with
            | none => simp [hdisk] at hparent
            | some parent =>
                simp only [hdisk, Bool.or_eq_true, beq_iff_eq] at hparent
                rcases hparent with rfl | hparent
                · exact .parentPrefix name name hname hdisk (List.prefix_refl name)
                · exact .parentPrefix name parent hname hdisk (startsWith_iff.mp hparent)
          · cases hfind : allDevices.find? fun device => device.name == name with
            | none => simp [hfind] at hlisted
            | some device =>
                simp only [hfind, beq_iff_eq] at hlisted
                exact .listedChild name device hname hfind hlisted
  · intro hnames
    cases hnames with
    | devPath hpath => simp [isDeviceOrParentMatch, pathEq, hpath]
    | byId path hmem hpath =>
        have hany : target.byIdPaths.any (fun path => pathEq path spec) = true :=
          List.any_eq_true.mpr ⟨path, hmem, by simp [pathEq, hpath]⟩
        simp [isDeviceOrParentMatch, hany]
    | namePrefix name hname hstarts =>
        exact isDeviceOrParentMatch_of_fileName hname
          (by simp [startsWith_iff.mpr hstarts])
    | parentPrefix name parent hname hparent hstarts =>
        exact isDeviceOrParentMatch_of_fileName hname
          (by simp [hparent, startsWith_iff.mpr hstarts])
    | listedChild name device hname hfind hparent =>
        exact isDeviceOrParentMatch_of_fileName hname
          (by simp [hfind, hparent])

/-- The inputs on which the boot-disk checks refuse a target. -/
inductive BootRefused (target : BlockDevice) (mountTable : MountTable)
    (allDevices : List BlockDevice) : Prop
  | denylisted (denied : Str) (hmem : denied ∈ staticBootDenylist)
      (hstarts : denied <+: target.name)
  | noRoot (hroot : mountTable.getRootDevice = none)
  | root (spec : Str) (hroot : mountTable.getRootDevice = some spec)
      (hnames : SpecNames target spec allDevices)
  | boot (spec : Str) (hboot : spec ∈ mountTable.getBootDevices)
      (hnames : SpecNames target spec allDevices)

theorem matchesDenied_iff (name denied : Str) :
    matchesDenied name denied = true ↔ denied <+: name := by
  simp only [matchesDenied, Bool.or_eq_true, beq_iff_eq, startsWith_iff]
  constructor
  · rintro (rfl | hstarts)
    · exact List.prefix_refl name
    · exact hstarts
  · exact Or.inr

theorem checkBootDisk_eq_ok_iff (target : BlockDevice) (mountTable : MountTable)
    (allDevices : List BlockDevice) :
    checkBootDisk target mountTable allDevices = .ok () ↔
      ¬ BootRefused target mountTable allDevices := by
  unfold checkBootDisk
  cases hdenied : staticBootDenylist.find? (matchesDenied target.name) with
  | some denied =>
      have hmem := List.mem_of_find?_eq_some hdenied
      have hmatch := (matchesDenied_iff _ _).mp (List.find?_some hdenied)
      simp only [reduceCtorEq, false_iff, not_not]
      exact .denylisted denied hmem hmatch
  | none =>
      rw [List.find?_eq_none] at hdenied
      cases hroot : mountTable.getRootDevice with
      | none => simpa using BootRefused.noRoot hroot
      | some root =>
          by_cases hmatch : isDeviceOrParentMatch target root allDevices = true
          · simp only [hmatch, ↓reduceIte, reduceCtorEq, false_iff, not_not]
            exact .root root hroot ((isDeviceOrParentMatch_iff _ _ _).mp hmatch)
          · simp only [hmatch, Bool.false_eq_true, ↓reduceIte]
            cases hboot : mountTable.getBootDevices.find? fun bootDev =>
                isDeviceOrParentMatch target bootDev allDevices with
            | some boot =>
                have hmem := List.mem_of_find?_eq_some hboot
                have hmatchBoot : isDeviceOrParentMatch target boot allDevices = true := by
                  simpa using List.find?_some hboot
                have hnames := (isDeviceOrParentMatch_iff _ _ _).mp hmatchBoot
                simpa using BootRefused.boot boot hmem hnames
            | none =>
                rw [List.find?_eq_none] at hboot
                simp only [true_iff]
                rintro (⟨denied, hmem, hstarts⟩ | hnone | ⟨spec, hspec, hnames⟩ |
                  ⟨spec, hspec, hnames⟩)
                · exact hdenied denied hmem ((matchesDenied_iff _ _).mpr hstarts)
                · simp [hroot] at hnone
                · rw [hroot, Option.some.injEq] at hspec
                  subst hspec
                  exact hmatch ((isDeviceOrParentMatch_iff _ _ _).mpr hnames)
                · exact hboot spec hspec ((isDeviceOrParentMatch_iff _ _ _).mpr hnames)

theorem checkBootDisk_error_of_refused {target : BlockDevice} {mountTable : MountTable}
    {allDevices : List BlockDevice} (hrefused : BootRefused target mountTable allDevices) :
    ∃ err, checkBootDisk target mountTable allDevices = .error err := by
  cases hcheck : checkBootDisk target mountTable allDevices with
  | error err => exact ⟨err, rfl⟩
  | ok _ => exact absurd hrefused ((checkBootDisk_eq_ok_iff _ _ _).mp hcheck)

theorem evaluateFormat_error_of_refused {target : BlockDevice} {mountTable : MountTable}
    {allDevices : List BlockDevice} (hrefused : BootRefused target mountTable allDevices)
    (desiredRole : NodeRole) (reformatConfirmed : Bool) :
    ∃ err, evaluateFormat target desiredRole reformatConfirmed mountTable allDevices =
      .error err := by
  obtain ⟨err, herr⟩ := checkBootDisk_error_of_refused hrefused
  exact ⟨err, by simp [evaluateFormat, herr, bind, Except.bind]⟩

theorem not_refused_of_evaluateFormat_ok {target : BlockDevice} {desiredRole : NodeRole}
    {reformatConfirmed : Bool} {mountTable : MountTable} {allDevices : List BlockDevice}
    {decision : FormatDecision}
    (hok : evaluateFormat target desiredRole reformatConfirmed mountTable allDevices =
      .ok decision) : ¬ BootRefused target mountTable allDevices := by
  intro hrefused
  obtain ⟨err, herr⟩ := evaluateFormat_error_of_refused hrefused desiredRole reformatConfirmed
  rw [herr] at hok
  cases hok

/-- Past the boot-disk checks only the mounts, the role and the flag decide. -/
theorem evaluateFormat_of_not_refused {target : BlockDevice} {mountTable : MountTable}
    {allDevices : List BlockDevice} (hpass : ¬ BootRefused target mountTable allDevices)
    (desiredRole : NodeRole) (reformatConfirmed : Bool) :
    evaluateFormat target desiredRole reformatConfirmed mountTable allDevices =
      (checkActiveMounts target desiredRole).bind fun
        | some decision => .ok decision
        | none => checkConfirmation target reformatConfirmed := by
  have hcheck := (checkBootDisk_eq_ok_iff _ _ _).mpr hpass
  simp only [evaluateFormat, hcheck, bind, Except.bind]
  rfl

/-- Step 4 settles the decision exactly for an `ext4` target mounted where the
role expects it. -/
theorem checkActiveMounts_eq_some_iff (target : BlockDevice) (desiredRole : NodeRole)
    (decision : FormatDecision) :
    checkActiveMounts target desiredRole = .ok (some decision) ↔
      ∃ mount, expectedMount desiredRole = some mount ∧ mount ∈ target.mountPoints ∧
        target.fsType = some ext4 ∧
        decision = .skipFormatAlreadyMatching ext4 mount := by
  unfold checkActiveMounts
  split
  · rename_i hnil
    simp [hnil]
  · cases hmount : expectedMount desiredRole with
    | none => simp
    | some mount =>
        by_cases hmem : mount ∈ target.mountPoints <;>
          by_cases hfs : target.fsType = some ext4 <;>
          simp [hmem, hfs, eq_comm (b := decision)]

/-- The mounts let the decision fall through to the confirmation check. -/
def FallsThrough (target : BlockDevice) (desiredRole : NodeRole) : Prop :=
  target.mountPoints = [] ∨
    ∃ mount, expectedMount desiredRole = some mount ∧
      ¬ (mount ∈ target.mountPoints ∧ target.fsType = some ext4)

theorem checkActiveMounts_eq_none_iff (target : BlockDevice) (desiredRole : NodeRole) :
    checkActiveMounts target desiredRole = .ok none ↔ FallsThrough target desiredRole := by
  unfold checkActiveMounts FallsThrough
  split
  · rename_i hnil
    simp [hnil]
  · rename_i hnil
    cases hmount : expectedMount desiredRole with
    | none => simp [hnil]
    | some mount =>
        by_cases hmem : mount ∈ target.mountPoints <;>
          by_cases hfs : target.fsType = some ext4 <;>
          simp [hmem, hfs, hnil]

theorem checkConfirmation_ne_skip (target : BlockDevice) (reformatConfirmed : Bool)
    (existingFs targetMount : Str) :
    checkConfirmation target reformatConfirmed ≠
      .ok (.skipFormatAlreadyMatching existingFs targetMount) := by
  unfold checkConfirmation
  split <;> simp

theorem evaluateFormat_eq_skip_iff (target : BlockDevice) (desiredRole : NodeRole)
    (reformatConfirmed : Bool) (mountTable : MountTable) (allDevices : List BlockDevice)
    (existingFs targetMount : Str) :
    evaluateFormat target desiredRole reformatConfirmed mountTable allDevices =
        .ok (.skipFormatAlreadyMatching existingFs targetMount) ↔
      ¬ BootRefused target mountTable allDevices ∧
        expectedMount desiredRole = some targetMount ∧
        targetMount ∈ target.mountPoints ∧ target.fsType = some ext4 ∧
        existingFs = ext4 := by
  by_cases hpass : BootRefused target mountTable allDevices
  · obtain ⟨err, herr⟩ :=
      evaluateFormat_error_of_refused hpass desiredRole reformatConfirmed
    simp [herr, hpass]
  · -- only step 4 can decide to skip
    have hstep : evaluateFormat target desiredRole reformatConfirmed mountTable allDevices =
        .ok (.skipFormatAlreadyMatching existingFs targetMount) ↔
        checkActiveMounts target desiredRole =
          .ok (some (.skipFormatAlreadyMatching existingFs targetMount)) := by
      rw [evaluateFormat_of_not_refused hpass]
      rcases checkActiveMounts target desiredRole with err | (_ | decision)
      · simp [Except.bind]
      · simp [Except.bind, checkConfirmation_ne_skip]
      · simp [Except.bind]
    rw [hstep, checkActiveMounts_eq_some_iff]
    constructor
    · rintro ⟨mount, hrole, hmem, hfs, heq⟩
      simp only [FormatDecision.skipFormatAlreadyMatching.injEq] at heq
      obtain ⟨rfl, rfl⟩ := heq
      exact ⟨hpass, hrole, hmem, hfs, rfl⟩
    · rintro ⟨_, hrole, hmem, hfs, rfl⟩
      exact ⟨targetMount, hrole, hmem, hfs, rfl⟩

theorem evaluateFormat_eq_proceed_iff (target : BlockDevice) (desiredRole : NodeRole)
    (reformatConfirmed : Bool) (mountTable : MountTable) (allDevices : List BlockDevice) :
    evaluateFormat target desiredRole reformatConfirmed mountTable allDevices =
        .ok .proceedWithFormat ↔
      ¬ BootRefused target mountTable allDevices ∧ FallsThrough target desiredRole ∧
        (hasExistingFs target = true → reformatConfirmed = true) := by
  by_cases hpass : BootRefused target mountTable allDevices
  · obtain ⟨err, herr⟩ :=
      evaluateFormat_error_of_refused hpass desiredRole reformatConfirmed
    simp [herr, hpass]
  · rw [evaluateFormat_of_not_refused hpass, ← checkActiveMounts_eq_none_iff]
    simp only [hpass, not_false_eq_true, true_and]
    cases hmounts : checkActiveMounts target desiredRole with
    | error err => simp [Except.bind]
    | ok settled =>
        cases settled with
        | some decision =>
            obtain ⟨mount, _, _, _, rfl⟩ :=
              (checkActiveMounts_eq_some_iff _ _ _).mp hmounts
            simp [Except.bind]
        | none =>
            simp only [Except.bind, true_and, checkConfirmation]
            by_cases hfs : hasExistingFs target = true <;>
              cases reformatConfirmed <;> simp [hfs]

/-- Past the boot-disk checks a confirmed request for an operational role is
never an error. -/
theorem evaluateFormat_confirmed_ok {target : BlockDevice} {desiredRole : NodeRole}
    {mountTable : MountTable} {allDevices : List BlockDevice} {mount : Str}
    (hpass : ¬ BootRefused target mountTable allDevices)
    (hrole : expectedMount desiredRole = some mount) :
    ∃ decision, evaluateFormat target desiredRole true mountTable allDevices =
      .ok decision := by
  by_cases hmatch : mount ∈ target.mountPoints ∧ target.fsType = some ext4
  · exact ⟨_, (evaluateFormat_eq_skip_iff _ _ _ _ _ ext4 mount).mpr
      ⟨hpass, hrole, hmatch.1, hmatch.2, rfl⟩⟩
  · exact ⟨_, (evaluateFormat_eq_proceed_iff _ _ _ _ _).mpr
      ⟨hpass, Or.inr ⟨mount, hrole, hmatch⟩, fun _ => rfl⟩⟩

end SafetyGuard

end PiCluster
