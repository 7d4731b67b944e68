/-
Evacuating a mount through the disk manager's socket.  A client asks for the unmount,
again if it has to, and then asks for the confirmation.  Each request that gets as far
as a successful `umount` takes one file system off the mount point, also when its answer
is an error, and the confirmation counts what is left.  The report of the disk state
never names a mount that the confirmation denies.
-/
import PiCluster.AssignRole
import PiCluster.ConfirmUnmounted
import PiCluster.MountState

namespace PiCluster

open Text Effects

namespace LdmIpcService

section Request

variable {Disks : Type} {rewrite : HostCommand → CommandOutcome → Disks → Disks}
  {machine : Machine Disks} {service : LdmIpcService} {req : PrepareEvacuationRequest}
  {trace : List StorageEvent} {result : Except Status PrepareEvacuationResponse}

/-- An unmount takes one file system off the mount point or none. -/
theorem mounts_unmount {config : StorageConfig} {mountPoint requestedBy : Str}
    {result : Except ClusterError Unit}
    (hcourse : (Mounter.unmountSpec config mountPoint requestedBy).Course false trace result)
    (hhonest : machine.Honest rewrite trace) :
    (machine.run rewrite trace).mounts (machine.locate mountPoint) +
        (if trace.any commandSucceeded then 1 else 0) =
      machine.mounts (machine.locate mountPoint) := by
  have hchanges := (hcourse.carried (Mounter.editsFstab_unmount _ _ _)).changes hhonest
  cases hchanges with
  | idle e hidle hmounts hfile =>
      rw [hmounts, hidle]
      rfl
  | moved done hmoved hsuccess hallows hmounts hfile hfailed hended =>
      rw [hmounts, hmoved, if_pos rfl]
      exact CallRun.mounts_umount hsuccess hallows

theorem mounts_prepareEvacuation (hwet : service.dryRun = false)
    (hruns : (service.prepareEvacuation req).Runs trace result)
    (hhonest : machine.Honest rewrite trace) :
    (machine.run rewrite trace).mounts (machine.locate (evacuationMount req)) +
        (if trace.any commandSucceeded then 1 else 0) =
      machine.mounts (machine.locate (evacuationMount req)) := by
  rcases runs_prepareEvacuation hruns with ⟨e, rfl, -⟩ | ⟨later, ended, rfl, hunmount, -⟩
  · rfl
  · rw [hwet] at hunmount
    have hmounts : _ = machine.mounts (machine.locate (evacuationMount req)) :=
      mounts_unmount hunmount hhonest.2
    exact hmounts

theorem unmounted_of_ready (hwet : service.dryRun = false)
    (hruns : (service.prepareEvacuation req).Runs trace result)
    (hready : result.toBool = true) : trace.any commandSucceeded = true := by
  rcases runs_prepareEvacuation hruns with ⟨e, rfl, hrefused⟩ |
    ⟨later, ended, rfl, hunmount, hended⟩
  · rw [hready] at hrefused
    cases hrefused
  · rw [hwet] at hunmount
    rw [hready] at hended
    have hcarried := hunmount.carried (Mounter.editsFstab_unmount _ _ _)
    cases hcarried with
    | idle hcalm e => cases hended
    | moved hpast hfiles hrecords hsuccess hedits hclosing hclosed hresult =>
        simp [ran, commandSucceeded, hsuccess]

end Request

/-- A request for an evacuation that has been carried out. -/
structure Evacuation (service : LdmIpcService) (req : PrepareEvacuationRequest) where
  trace : List StorageEvent
  result : Except Status PrepareEvacuationResponse
  runs : (service.prepareEvacuation req).Runs trace result

namespace Evacuation

variable {service : LdmIpcService} {req : PrepareEvacuationRequest}

/-- Its `umount` succeeded. -/
def unmounted (call : Evacuation service req) : Bool := call.trace.any commandSucceeded

def traces (calls : List (Evacuation service req)) : List StorageEvent :=
  calls.flatMap Evacuation.trace

/-- Every call takes off what it unmounted. -/
theorem mounts_traces {Disks : Type} {rewrite : HostCommand → CommandOutcome → Disks → Disks}
    {machine : Machine Disks} (hwet : service.dryRun = false)
    (calls : List (Evacuation service req)) (hhonest : machine.Honest rewrite (traces calls)) :
    (machine.run rewrite (traces calls)).mounts (machine.locate (evacuationMount req)) +
      calls.countP unmounted = machine.mounts (machine.locate (evacuationMount req)) := by
  induction calls generalizing machine with
  | nil => rfl
  | cons call rest ih =>
      obtain ⟨hcall, hrest⟩ := (machine.honest_append_iff rewrite).mp hhonest
      have hstep : _ + (if call.unmounted then 1 else 0) = _ :=
        mounts_prepareEvacuation hwet call.runs hcall
      have hlater := ih hrest
      rw [(machine.places_run call.trace).1] at hlater
      have hrun : machine.run rewrite (traces (call :: rest)) =
          (machine.run rewrite call.trace).run rewrite (traces rest) := List.foldl_append
      rw [hrun, List.countP_cons]
      omega

end Evacuation

end LdmIpcService

namespace KernelMount

/-- A path that `/proc/mounts` shows as it is. -/
def Literal (path : Str) : Prop := ∀ c ∈ path, escapeChar c = [c]

theorem escape_of_literal {path : Str} (hliteral : Literal path) : escape path = path := by
  induction path with
  | nil => rfl
  | cons c rest ih =>
      obtain ⟨hc, hrest⟩ := List.forall_mem_cons.mp hliteral
      have hstep : escape (c :: rest) = escapeChar c ++ escape rest := List.flatMap_cons
      rw [hstep, hc, ih hrest]
      rfl

theorem backslash_mem_or_eq (c : Char) : '\\' ∈ escapeChar c ∨ escapeChar c = [c] := by
  unfold escapeChar
  split
  · exact Or.inl List.mem_cons_self
  · split
    · exact Or.inl List.mem_cons_self
    · split
      · exact Or.inl List.mem_cons_self
      · split
        · exact Or.inl List.mem_cons_self
        · exact Or.inr rfl

/-- What is shown as such a path is that path. -/
theorem eq_of_escape {path shown : Str} (hliteral : Literal path)
    (hshown : escape shown = path) : shown = path := by
  have hclean : Literal shown := by
    intro c hc
    rcases backslash_mem_or_eq c with hbackslash | hsame
    · have hmem : '\\' ∈ path := by
        rw [← hshown]
        exact List.mem_flatMap.mpr ⟨c, hc, hbackslash⟩
      exact absurd (hliteral _ hmem) (by decide)
    · exact hsame
  rw [← hshown, escape_of_literal hclean]

end KernelMount

namespace LdmIpcService

open KernelMount

/-- On plain lines the answer to such a path counts the mounts there. -/
theorem isUnmounted_procMounts_iff {mounts : List KernelMount}
    (hplain : ∀ mount ∈ mounts, mount.Plain) (req : ConfirmUnmountedRequest)
    (hliteral : Literal (confirmedMount req)) :
    (confirmUnmounted (.ok (procMounts mounts)) req).isUnmounted = true ↔
      mounts.countP (fun mount => decide (mount.mountPoint = confirmedMount req)) = 0 := by
  have hreading : ∀ content, (Except.ok (procMounts mounts) : Except Str Str) = .ok content →
      content = procMounts mounts := fun content hcontent => (Except.ok.inj hcontent).symm
  rw [← Bool.not_eq_false, isUnmounted_eq_false_iff_shows hreading, shows_iff_of_plain hplain,
    List.countP_eq_zero]
  constructor
  · intro hnone mount hmount hpath
    refine hnone ⟨⟨_, rfl⟩, mount, hmount, ?_⟩
    rw [of_decide_eq_true hpath]
    exact escape_of_literal hliteral
  · rintro hnone ⟨-, mount, hmount, hpath⟩
    exact hnone mount hmount (decide_eq_true (eq_of_escape hliteral hpath))

/-- The kernel's list has as many mounts at each mount point as the host. -/
def Lists {Disks : Type} (mounts : List KernelMount) (machine : Machine Disks) : Prop :=
  ∀ place, machine.mounts place = mounts.countP fun mount => decide (mount.mountPoint = place)

/-- The confirmation after any number of requests for a mount point by its own name.  The
answer is "unmounted" exactly if as many of them as there were mounts there have unmounted
one; those that answered "ready" are among them. -/
theorem evacuations_confirmed_iff {Disks : Type}
    (rewrite : HostCommand → CommandOutcome → Disks → Disks) (machine : Machine Disks)
    {service : LdmIpcService} (hwet : service.dryRun = false) (req : PrepareEvacuationRequest)
    (hplace : machine.locate (evacuationMount req) = evacuationMount req)
    (hliteral : Literal (evacuationMount req)) (calls : List (Evacuation service req))
    (hhonest : machine.Honest rewrite (Evacuation.traces calls)) {mounts : List KernelMount}
    (hplain : ∀ mount ∈ mounts, mount.Plain)
    (hlists : Lists mounts (machine.run rewrite (Evacuation.traces calls))) :
    ((confirmUnmounted (.ok (procMounts mounts)) ⟨req.mountPoint⟩).isUnmounted = true ↔
      calls.countP Evacuation.unmounted = machine.mounts (evacuationMount req)) ∧
    calls.countP (fun call => call.result.toBool) ≤ calls.countP Evacuation.unmounted := by
  constructor
  · have hmounts := Evacuation.mounts_traces hwet calls hhonest
    rw [hplace] at hmounts
    rw [isUnmounted_procMounts_iff hplain ⟨req.mountPoint⟩ hliteral]
    change mounts.countP (fun mount => decide (mount.mountPoint = evacuationMount req)) = 0 ↔ _
    rw [← hlists]
    omega
  · apply List.countP_mono_left
    intro call _ hready
    exact unmounted_of_ready hwet call.runs hready

namespace EvacuationWitness

open ConfirmWitness

def service : LdmIpcService :=
  ⟨"/var/log/audit.jsonl".toList, "/etc/fstab".toList, "/sys/class/block".toList, false⟩

/-- Two file systems stacked on the storage path. -/
def stacked : Machine Unit where
  locate := MountWitness.plainPlace
  entryPlace := MountWitness.plainPlace
  mounts path := if path = SafetyGuard.gfsMountPoint then 2 else 0
  files _ := none
  disks := ()
  audit := []

def evacuated : Evacuation service ⟨[]⟩ where
  trace := (Prog.exec AuditWitness.compliant [] (service.prepareEvacuation ⟨[]⟩)).1
  result := (Prog.exec AuditWitness.compliant [] (service.prepareEvacuation ⟨[]⟩)).2
  runs := Prog.exec_runs AuditWitness.compliant [] _

theorem literal_gfs : Literal (evacuationMount ⟨[]⟩) := by
  have hall : (evacuationMount ⟨[]⟩).all (fun c => escapeChar c == [c]) = true := rfl
  intro c hc
  exact eq_of_beq (List.all_eq_true.mp hall c hc)

theorem lists_stacked : Lists mounted
    (stacked.run MountWitness.keep (Evacuation.traces [evacuated])) := by
  intro path
  have hafter : (stacked.run MountWitness.keep (Evacuation.traces [evacuated])).mounts =
      Function.update stacked.mounts SafetyGuard.gfsMountPoint 1 := rfl
  rw [hafter]
  by_cases hpath : path = SafetyGuard.gfsMountPoint
  · subst hpath
    rw [Function.update_self]
    rfl
  · have hstorage : ¬ ConfirmWitness.storage.mountPoint = path := fun heq => hpath heq.symm
    rw [Function.update_of_ne hpath, mounted, List.countP_singleton,
      if_neg (by simpa using hstorage)]
    exact if_neg hpath

/-- The request answers that the mount is ready, and the one below is still there. -/
theorem stacked_still_mounted :
    evacuated.result.toBool = true ∧
      ¬ (confirmUnmounted (.ok (procMounts mounted)) ⟨[]⟩).isUnmounted = true := by
  refine ⟨rfl, ?_⟩
  have hconfirmed := (evacuations_confirmed_iff MountWitness.keep stacked rfl ⟨[]⟩ rfl
    literal_gfs [evacuated]
    ⟨trivial, trivial, fun _ _ _ hlast => by cases hlast; exact Nat.two_pos, rfl, trivial,
      trivial⟩ (List.forall_mem_singleton.mpr storage_plain) lists_stacked).1
  intro hunmounted
  exact absurd (hconfirmed.mp hunmounted) (by decide)

end EvacuationWitness

/-- The answer of `GetDiskState`. -/
structure DiskStateReport where
  state : Str
  devicePath : Str
  filesystemUuid : Str
  mountPoint : Str
  errorMessage : Str
deriving DecidableEq, Repr

/-- The report on a mount point of a device, if it is one of the two storage paths. -/
def mountReport (device : BlockDevice) (mountPoint : Str) : Option DiskStateReport :=
  if mountPoint = SafetyGuard.etcdMountPoint then
    some ⟨"MountedEtcd".toList, device.devPath, device.uuid.getD [], mountPoint, []⟩
  else if mountPoint = SafetyGuard.gfsMountPoint then
    some ⟨"MountedGfs".toList, device.devPath, device.uuid.getD [], mountPoint, []⟩
  else none

def unformattedReport : DiskStateReport := ⟨"Unformatted".toList, [], [], [], []⟩

/-- The devices a request scans; whatever cannot be read counts as empty. -/
def scannedDevices (service : LdmIpcService) (reading : Except Str Str) (sysfs : SysfsRoot)
    (byIdDir : List ByIdLink) : List BlockDevice :=
  (BlockDevice.scanAll service.sysfsRoot sysfs byIdDir
    ((MountTable.readLive reading).toOption.getD .empty)).toOption.getD []

/-- The first storage path in the order of the devices and of their mount points. -/
def getDiskState (service : LdmIpcService) (reading : Except Str Str) (sysfs : SysfsRoot)
    (byIdDir : List ByIdLink) : DiskStateReport :=
  ((service.scannedDevices reading sysfs byIdDir).findSome? fun device =>
    device.mountPoints.findSome? (mountReport device)).getD unformattedReport

section Report

variable {service : LdmIpcService} {reading : Except Str Str} {sysfs : SysfsRoot}
  {byIdDir : List ByIdLink}

theorem mountReport_eq_some {device : BlockDevice} {mountPoint : Str}
    {report : DiskStateReport} (hreport : mountReport device mountPoint = some report) :
    report.mountPoint = mountPoint ∧ report.devicePath = device.devPath ∧
      (mountPoint = SafetyGuard.etcdMountPoint ∧ report.state = "MountedEtcd".toList ∨
        mountPoint = SafetyGuard.gfsMountPoint ∧ report.state = "MountedGfs".toList) := by
  unfold mountReport at hreport
  split at hreport
  · rename_i hetcd
    obtain rfl := Option.some.inj hreport
    exact ⟨rfl, rfl, Or.inl ⟨hetcd, rfl⟩⟩
  · split at hreport
    · rename_i hgfs
      obtain rfl := Option.some.inj hreport
      exact ⟨rfl, rfl, Or.inr ⟨hgfs, rfl⟩⟩
    · cases hreport

theorem mountReport_eq_none_iff (device : BlockDevice) (mountPoint : Str) :
    mountReport device mountPoint = none ↔
      mountPoint ≠ SafetyGuard.etcdMountPoint ∧ mountPoint ≠ SafetyGuard.gfsMountPoint := by
  unfold mountReport
  split
  · rename_i hetcd
    simp [hetcd]
  · rename_i hetcd
    split
    · rename_i hgfs
      simp [hgfs]
    · rename_i hgfs
      simp [hetcd, hgfs]

/-- A device's mount points are in the mount table it was scanned with. -/
theorem mem_table_of_mem_mountPoints {device : BlockDevice}
    (hdevice : device ∈ service.scannedDevices reading sysfs byIdDir) {mountPoint : Str}
    (hmount : mountPoint ∈ device.mountPoints) :
    ∃ entry ∈ ((MountTable.readLive reading).toOption.getD .empty).entries,
      entry.mountPoint = mountPoint := by
  unfold scannedDevices BlockDevice.scanAll at hdevice
  cases sysfs with
  | missing | unreadable path e => cases hdevice
  | entries blocks =>
      have hscanned := (List.mem_insertionSort _).mp hdevice
      obtain ⟨block, -, rfl⟩ := List.mem_map.mp hscanned
      obtain ⟨entry, hentry, rfl⟩ := List.mem_map.mp hmount
      exact ⟨entry, (List.mem_filter.mp hentry).1, rfl⟩

theorem isUnmounted_of_mem_table {mountPoint : Str} (hpath : mountPoint ≠ [])
    (hentry : ∃ entry ∈ ((MountTable.readLive reading).toOption.getD .empty).entries,
      entry.mountPoint = mountPoint) :
    (confirmUnmounted reading ⟨mountPoint⟩).isUnmounted = false := by
  obtain ⟨entry, hmem, hmount⟩ := hentry
  have hrequested : confirmedMount ⟨mountPoint⟩ = mountPoint := if_neg hpath
  rw [← Bool.not_eq_true]
  change ¬ (MountTable.findByMountPoint _ (confirmedMount ⟨mountPoint⟩)).isNone = true
  rw [hrequested, Option.isNone_iff_eq_none, MountTable.findByMountPoint, List.find?_eq_none]
  intro hnone
  exact hnone entry hmem (by simpa using hmount)

/-- The first storage path among the mount points of the devices. -/
theorem findReport_eq_none_iff (devices : List BlockDevice) :
    (devices.findSome? fun device => device.mountPoints.findSome? (mountReport device)) =
        none ↔
      ∀ device ∈ devices, SafetyGuard.etcdMountPoint ∉ device.mountPoints ∧
        SafetyGuard.gfsMountPoint ∉ device.mountPoints := by
  rw [List.findSome?_eq_none_iff]
  refine forall₂_congr fun device _ => ?_
  rw [List.findSome?_eq_none_iff]
  constructor
  · intro hall
    constructor
    · intro hmem
      exact ((mountReport_eq_none_iff device _).mp (hall _ hmem)).1 rfl
    · intro hmem
      exact ((mountReport_eq_none_iff device _).mp (hall _ hmem)).2 rfl
  · rintro ⟨hetcd, hgfs⟩ mountPoint hmem
    apply (mountReport_eq_none_iff device mountPoint).mpr
    exact ⟨fun heq => hetcd (heq ▸ hmem), fun heq => hgfs (heq ▸ hmem)⟩

theorem findReport_eq_some {devices : List BlockDevice} {report : DiskStateReport}
    (hfound : (devices.findSome? fun device =>
      device.mountPoints.findSome? (mountReport device)) = some report) :
    report.mountPoint ≠ [] ∧ ∃ device ∈ devices, device.devPath = report.devicePath ∧
      report.mountPoint ∈ device.mountPoints := by
  obtain ⟨device, hdevice, hreport⟩ := List.exists_of_findSome?_eq_some hfound
  obtain ⟨mountPoint, hmount, hreport⟩ := List.exists_of_findSome?_eq_some hreport
  obtain ⟨rfl, hpath, hstate⟩ := mountReport_eq_some hreport
  refine ⟨?_, device, hdevice, hpath.symm, hmount⟩
  rcases hstate with ⟨hetcd, -⟩ | ⟨hgfs, -⟩
  · rw [hetcd]
    decide
  · rw [hgfs]
    decide

/-- The two ways to ask agree on every content of `/proc/mounts`: the report is
"Unformatted" exactly if no scanned device is mounted on a storage path, and a mount
that it names is confirmed to be still there. -/
theorem getDiskState_agrees (service : LdmIpcService) (reading : Except Str Str)
    (sysfs : SysfsRoot) (byIdDir : List ByIdLink) :
    (service.getDiskState reading sysfs byIdDir = unformattedReport ↔
      ∀ device ∈ service.scannedDevices reading sysfs byIdDir,
        SafetyGuard.etcdMountPoint ∉ device.mountPoints ∧
          SafetyGuard.gfsMountPoint ∉ device.mountPoints) ∧
    (service.getDiskState reading sysfs byIdDir ≠ unformattedReport →
      (confirmUnmounted reading
        ⟨(service.getDiskState reading sysfs byIdDir).mountPoint⟩).isUnmounted = false ∧
      ∃ device ∈ service.scannedDevices reading sysfs byIdDir,
        device.devPath = (service.getDiskState reading sysfs byIdDir).devicePath ∧
        (service.getDiskState reading sysfs byIdDir).mountPoint ∈ device.mountPoints) := by
  unfold getDiskState
  cases hfound : (service.scannedDevices reading sysfs byIdDir).findSome? fun device =>
      device.mountPoints.findSome? (mountReport device) with
  | none =>
      constructor
      · exact iff_of_true rfl ((findReport_eq_none_iff _).mp hfound)
      · intro hne
        exact absurd rfl hne
  | some report =>
      obtain ⟨hmounted, device, hdevice, hpath, hmount⟩ := findReport_eq_some hfound
      have hformatted : report ≠ unformattedReport := by
        rintro rfl
        exact hmounted rfl
      rw [Option.getD_some]
      constructor
      · apply iff_of_false hformatted
        intro hall
        rw [← findReport_eq_none_iff, hfound] at hall
        cases hall
      · intro _
        exact ⟨isUnmounted_of_mem_table hmounted (mem_table_of_mem_mountPoints hdevice hmount),
          device, hdevice, hpath, hmount⟩

end Report

end LdmIpcService

end PiCluster
