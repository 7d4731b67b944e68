/-
Provisioning over the lifetime of a machine: one provision that formats the
target disk, then any number of reboots and further provisions with the same
role file.  Whether a later provision formats again depends on what the guard can
recognise, so the condition is on the machine each provision starts from.
-/
import PiCluster.Host
import PiCluster.ProvisionRun

namespace PiCluster

open Text Effects SafetyGuard

namespace Host

/-- The same machine with the same file systems: a reboot, or the passing of
time.  What the probes report and what is mounted for data may differ. -/
structure Still (before after : Host) : Prop extends SameMachine before after where
  contents : after.contents = before.contents

/-- What an effect may do to the file systems: only `mkfs.ext4` touches them, on
the disk it is given, and leaves an `ext4` one there when it succeeds. -/
def ContentsAfter (before after : Host) (event : StorageEvent) : Prop :=
  match runOf .mkfsExt4 event with
  | none => after.contents = before.contents
  | some (command, outcome) => ∀ name,
      if command.args.getLast? = some ("/dev/".toList ++ name) then
        outcome.success = true → after.contents name = some ⟨ext4, labelArg command.args⟩
      else after.contents name = before.contents name

/-- How the machine goes through the effects of a program. -/
inductive Evolves : Host → List StorageEvent → Host → Prop
  | idle {before after : Host} (hstill : Still before after) : Evolves before [] after
  | event {before middle after : Host} {event : StorageEvent} {trace : List StorageEvent}
      (hsame : SameMachine before middle) (hcontents : ContentsAfter before middle event)
      (hrest : Evolves middle trace after) : Evolves before (event :: trace) after

theorem Evolves.sameMachine {before after : Host} {trace : List StorageEvent}
    (hevolves : Evolves before trace after) : SameMachine before after := by
  induction hevolves with
  | idle hstill => exact hstill.toSameMachine
  | event hsame hcontents hrest ih => exact hsame.trans ih

theorem Evolves.contents_of_quiet {before after : Host} {trace : List StorageEvent}
    (hevolves : Evolves before trace after) (hquiet : runsOf .mkfsExt4 trace = []) :
    after.contents = before.contents := by
  induction hevolves with
  | idle hstill => exact hstill.contents
  | event hsame hcontents hrest ih =>
      obtain ⟨hevent, hquiet⟩ := List.forall_mem_cons.mp (List.filterMap_eq_nil_iff.mp hquiet)
      rw [ContentsAfter, hevent] at hcontents
      rw [ih (List.filterMap_eq_nil_iff.mpr hquiet), hcontents]

/-- After one successful `mkfs.ext4` on a disk its file system is the one
written. -/
theorem Evolves.contents_of_format {before after : Host} {trace : List StorageEvent}
    (hevolves : Evolves before trace after) {command : HostCommand} {outcome : CommandOutcome}
    (hruns : runsOf .mkfsExt4 trace = [(command, outcome)]) (hsuccess : outcome.success = true)
    {name : Str} (hlast : command.args.getLast? = some ("/dev/".toList ++ name)) :
    after.contents name = some ⟨ext4, labelArg command.args⟩ := by
  induction hevolves with
  | idle hstill => simp at hruns
  | @event before middle after event trace hsame hcontents hrest ih =>
      cases hevent : runOf .mkfsExt4 event with
      | none => exact ih (by rwa [runsOf, List.filterMap_cons_none hevent] at hruns)
      | some run =>
          rw [runsOf, List.filterMap_cons_some hevent, List.cons.injEq] at hruns
          obtain ⟨rfl, hquiet⟩ := hruns
          simp only [ContentsAfter, hevent] at hcontents
          have hname := hcontents name
          rw [if_pos hlast] at hname
          rw [hrest.contents_of_quiet hquiet, hname hsuccess]

/-- Effects that run no `mkfs.ext4` may leave the machine as it was. -/
theorem Evolves.quiet_append {before after : Host} {past later : List StorageEvent}
    (hquiet : runsOf .mkfsExt4 past = []) (hlater : Evolves before later after) :
    Evolves before (past ++ later) after := by
  induction past with
  | nil => exact hlater
  | cons event past ih =>
      obtain ⟨hevent, hquiet⟩ := List.forall_mem_cons.mp (List.filterMap_eq_nil_iff.mp hquiet)
      refine .event (SameMachine.refl before) ?_ (ih (List.filterMap_eq_nil_iff.mpr hquiet))
      rw [ContentsAfter, hevent]

end Host

/-- What a plan made on a machine says about the machine. -/
structure PlannedOn (params : ProvisionParams) (file : RoleConfigFile) (host : Host)
    (plan : ProvisionPlan) : Prop where
  role : plan.role = file.role
  operational : ∃ mount, expectedMount file.role = some mount
  listed : plan.target ∈ host.scan params.sysfsRoot
  wholeDisk : plan.target.isPartition = false
  passes : ¬ BootRefused plan.target host.mountTable (host.scan params.sysfsRoot)
  matched : ∀ id, params.targetId file = some id → plan.target.matchesIdentifier id = true
  only : params.targetId file = none → ∀ device ∈ host.scan params.sysfsRoot,
    device.isPartition = false →
    ¬ BootRefused device host.mountTable (host.scan params.sysfsRoot) → device = plan.target
  decided : evaluateFormat plan.target file.role (params.reformatConfirmed file)
    host.mountTable (host.scan params.sysfsRoot) = .ok plan.decision

theorem exists_expectedMount {role : NodeRole} (hpending : role ≠ .pending)
    (hdecommissioned : role ≠ .decommissioned) : ∃ mount, expectedMount role = some mount := by
  cases role <;> simp_all [expectedMount]

/-- A plan is only made when the readings succeeded: without a mount table
every disk is refused. -/
theorem provisionPlan_plannedOn {params : ProvisionParams} {file : RoleConfigFile}
    {host : Host} {view : HostView} {plan : ProvisionPlan}
    (hfile : params.roleConfig = .ok file) (hsees : host.Sees view)
    (hplan : provisionPlan params view = .ok (some plan)) :
    PlannedOn params file host plan := by
  obtain ⟨file', allDevices, hfile', hrole, hpending, hdecommissioned, hresolve, hscan,
    hguard⟩ := provisionPlan_eq_some hplan
  obtain rfl := Except.ok.inj (hfile.symm.trans hfile')
  obtain ⟨mount, hmount⟩ := exists_expectedMount hpending hdecommissioned
  obtain ⟨listed, hlisted, heligible, hmatched, honly⟩ :=
    DeviceDiscovery.resolveTargetDisk_eq_ok hresolve
  obtain rfl := Except.ok.inj (hscan.symm.trans hlisted)
  have hpasses := DeviceDiscovery.isEligible_iff hmount
  obtain ⟨hmem, hwhole⟩ := List.mem_filter.mp heligible
  have htarget := (hpasses _ _ _).mp hwhole
  have hmounts : view.mounts.toOption.getD .empty = host.mountTable := by
    rcases hsees.mounts with hmounts | ⟨error, hmounts⟩
    · rw [hmounts]
      rfl
    · rw [hmounts] at htarget
      exact absurd (.noRoot rfl) htarget.2
  rw [hmounts] at htarget honly hguard
  rw [hmounts, hsees.byIdDir] at hscan
  rcases hsees.sysfs with hsysfs | ⟨path, error, hsysfs⟩
  · rw [hsysfs, host.scanAll_eq_scan] at hscan
    obtain rfl := Except.ok.inj hscan
    refine ⟨hrole, ⟨mount, hmount⟩, hmem, htarget.1, htarget.2, hmatched, ?_, hguard⟩
    intro hid device hdevice hpart hpass
    have heligible' := List.mem_filter.mpr ⟨hdevice, (hpasses _ _ _).mpr ⟨hpart, hpass⟩⟩
    rw [honly hid] at heligible'
    exact List.mem_singleton.mp heligible'
  · simp [hsysfs, BlockDevice.scanAll] at hscan

/-- A successful provision that formats the target disk. -/
structure FirstProvision where
  params : ProvisionParams
  file : RoleConfigFile
  before : Host
  after : Host
  view : HostView
  plan : ProvisionPlan
  trace : List StorageEvent
  configured : params.roleConfig = .ok file
  sees : before.Sees view
  planned : provisionPlan params view = .ok (some plan)
  decided : plan.decision = .proceedWithFormat
  wet : params.storage.dryRun = false
  runs : (runProvision params view).Runs trace (.ok ())
  evolves : before.Evolves trace after

/-- What happens on the machine afterwards: reboots, and provisions from
machines that meet the condition. -/
inductive Lifetime (params : ProvisionParams) (cond : Host → Prop) (start : Host) :
    List StorageEvent → Host → Prop
  | start : Lifetime params cond start [] start
  | reboot {trace : List StorageEvent} {host host' : Host}
      (hpast : Lifetime params cond start trace host) (hstill : host.Still host') :
      Lifetime params cond start trace host'
  | provision {trace run : List StorageEvent} {host host' : Host} {view : HostView}
      {result : Except ClusterError Unit} (hpast : Lifetime params cond start trace host)
      (hcond : cond host) (hsees : host.Sees view)
      (hruns : (runProvision params view).Runs run result)
      (hevolves : host.Evolves run host') : Lifetime params cond start (trace ++ run) host'

namespace FirstProvision

variable (first : FirstProvision)

/-- The name of the formatted disk. -/
def disk : Str := first.plan.target.name

/-- The condition on a machine that is provisioned again: the scan reports the
file system that is on the disk, the flag is off or the disk is mounted where
the role expects it, and no other disk goes by the configured identifier. -/
structure Recognisable (host : Host) : Prop where
  reported : ∀ device ∈ host.scan first.params.sysfsRoot, device.name = first.disk →
    device.fsType = (host.contents first.disk).map FileSystem.fsType
  kept : first.params.reformatConfirmed first.file = false ∨
    ∃ device ∈ host.scan first.params.sysfsRoot, device.name = first.disk ∧
      ∃ mount, expectedMount first.file.role = some mount ∧ mount ∈ device.mountPoints
  identified : ∀ id, first.params.targetId first.file = some id →
    ∀ device ∈ host.scan first.params.sysfsRoot, device.isPartition = false →
      device.matchesIdentifier id = true → device.name = first.disk

/-- The invariant of a lifetime: the same machine, and the role's file system on
the disk. -/
structure LayoutKept (host : Host) : Prop where
  same : Host.SameMachine first.before host
  contents : host.contents first.disk =
    some ⟨ext4, Formatter.roleLabel first.plan.role⟩

theorem plannedOn : PlannedOn first.params first.file first.before first.plan :=
  provisionPlan_plannedOn first.configured first.sees first.planned

theorem formats : Formats first.plan.target first.plan.role first.trace :=
  runProvision_formats first.planned first.decided first.wet first.runs

theorem layoutKept_after : first.LayoutKept first.after := by
  obtain ⟨command, outcome, hruns, hsuccess, hlast, hlabel⟩ := first.formats
  obtain ⟨block, _, _, htarget⟩ := Host.mem_scan.mp first.plannedOn.listed
  have hpath : first.plan.target.devPath = "/dev/".toList ++ first.disk := by
    rw [disk, ← htarget]
    rfl
  rw [hpath] at hlast
  refine ⟨first.evolves.sameMachine, ?_⟩
  rw [first.evolves.contents_of_format hruns hsuccess hlast, hlabel]

variable {first} {host : Host} {plan : ProvisionPlan}

/-- A later plan is about the same disk. -/
theorem LayoutKept.target_name (hkept : first.LayoutKept host)
    (hcond : first.Recognisable host)
    (hplanned : PlannedOn first.params first.file host plan) :
    plan.target.name = first.disk := by
  cases hid : first.params.targetId first.file with
  | some id =>
      exact hcond.identified id hid _ hplanned.listed hplanned.wholeDisk
        (hplanned.matched id hid)
  | none =>
      -- the only eligible disk then is the only eligible disk now
      obtain ⟨device, hmem, hdisk⟩ := hkept.same.symm.exists_mem_scan hplanned.listed
      have hpass : ¬ BootRefused device first.before.mountTable
          (first.before.scan first.params.sysfsRoot) := fun hrefused =>
        hplanned.passes (hkept.same.bootRefused hdisk.symm hrefused)
      have hsame := first.plannedOn.only hid device hmem
        (hdisk.isPartition.trans hplanned.wholeDisk) hpass
      rw [← hdisk.name, hsame, disk]

theorem LayoutKept.not_proceed (hkept : first.LayoutKept host)
    (hcond : first.Recognisable host)
    (hplanned : PlannedOn first.params first.file host plan) :
    plan.decision ≠ .proceedWithFormat := by
  intro hproceed
  have hname := hkept.target_name hcond hplanned
  have hfs : plan.target.fsType = some ext4 := by
    rw [hcond.reported _ hplanned.listed hname, hkept.contents]
    rfl
  have hdecided := hplanned.decided
  rw [hproceed] at hdecided
  obtain ⟨_, hfalls, hconfirmed⟩ := (evaluateFormat_eq_proceed_iff _ _ _ _ _).mp hdecided
  have hflag := hconfirmed (by simp [hasExistingFs, hfs])
  rcases hcond.kept with hoff | ⟨device, hmem, hdevice, mount, hmount, hmounted⟩
  · exact Bool.false_ne_true (hoff.symm.trans hflag)
  · obtain rfl := Host.eq_of_mem_scan hmem hplanned.listed (hdevice.trans hname.symm)
    rcases hfalls with hnil | ⟨mount', hmount', hnot⟩
    · simp [hnil] at hmounted
    · obtain rfl := Option.some.inj (hmount.symm.trans hmount')
      exact hnot ⟨hmounted, hfs⟩

/-- No later provision formats, and the layout stays on the disk. -/
theorem layoutKept_lifetime {trace : List StorageEvent}
    (hlife : Lifetime first.params first.Recognisable first.after trace host) :
    first.LayoutKept host ∧ runsOf .mkfsExt4 trace = [] := by
  induction hlife with
  | start => exact ⟨first.layoutKept_after, rfl⟩
  | reboot hpast hstill ih =>
      obtain ⟨hkept, hquiet⟩ := ih
      exact ⟨⟨hkept.same.trans hstill.toSameMachine, by rw [hstill.contents, hkept.contents]⟩,
        hquiet⟩
  | provision hpast hcond hsees hruns hevolves ih =>
      obtain ⟨hkept, hquiet⟩ := ih
      have hrun := runProvision_quiet (fun plan hplan => hkept.not_proceed hcond
        (provisionPlan_plannedOn first.configured hsees hplan)) hruns
      refine ⟨⟨hkept.same.trans hevolves.sameMachine, ?_⟩, ?_⟩
      · rw [hevolves.contents_of_quiet hrun, hkept.contents]
      · rw [runsOf_append, hquiet, hrun, List.append_nil]

end FirstProvision

/-- A disk past the boot-disk checks with the file system and label that
formatting writes for the role. -/
structure CarriesLayout (target : BlockDevice) (role : NodeRole) (mountTable : MountTable)
    (allDevices : List BlockDevice) : Prop where
  passes : ¬ BootRefused target mountTable allDevices
  fsType : target.fsType = some ext4
  label : ∃ label, Formatter.roleLabel role = some label ∧ target.label = some label

/-- Formatting is skipped for a disk that carries the layout exactly when it is
mounted where the role expects it, and over a lifetime `mkfs.ext4` runs once if
every later provision starts from a machine on which the disk is recognisable. -/
theorem reprovision_keeps_layout (target : BlockDevice) (role : NodeRole) (confirmed : Bool)
    (mountTable : MountTable) (allDevices : List BlockDevice) :
    (CarriesLayout target role mountTable allDevices →
      ((∃ existingFs targetMount,
        evaluateFormat target role confirmed mountTable allDevices =
          .ok (.skipFormatAlreadyMatching existingFs targetMount)) ↔
        ∃ mount, expectedMount role = some mount ∧ mount ∈ target.mountPoints)) ∧
    ∀ (first : FirstProvision) (trace : List StorageEvent) (host : Host),
      Lifetime first.params first.Recognisable first.after trace host →
      (runsOf .mkfsExt4 (first.trace ++ trace)).length = 1 ∧
        host.contents first.disk = some ⟨ext4, Formatter.roleLabel first.plan.role⟩ := by
  refine ⟨?_, ?_⟩
  · intro hlayout
    simp only [evaluateFormat_eq_skip_iff, hlayout.passes, hlayout.fsType,
      not_false_eq_true, true_and]
    constructor
    · rintro ⟨_, mount, hmount, hmounted, rfl⟩
      exact ⟨mount, hmount, hmounted⟩
    · rintro ⟨mount, hmount, hmounted⟩
      exact ⟨ext4, mount, hmount, hmounted, rfl⟩
  · intro first trace host hlife
    obtain ⟨hkept, hquiet⟩ := FirstProvision.layoutKept_lifetime hlife
    obtain ⟨command, outcome, hruns, _⟩ := first.formats
    refine ⟨?_, hkept.contents⟩
    rw [runsOf_append, hquiet, hruns]
    rfl

namespace LifetimeWitness

def ssd : Str := "nvme0n1".toList

def sysfsDisk (name uevent : Str) : SysfsBlock := ⟨name, none, false, some uevent, none, none⟩

def systemMounts : List MountEntry :=
  [⟨"/dev/mmcblk0p2".toList, ['/'], ext4, []⟩,
   ⟨"/dev/mmcblk0p1".toList, "/boot/firmware".toList, "vfat".toList, []⟩]

def dataMount : MountEntry :=
  ⟨"/dev/nvme0n1".toList, gfsMountPoint, ext4, ["commit=60".toList, "noatime".toList]⟩

/-- A worker with an SD card it boots from and one other disk. -/
def node (uevent : Str) (fileSystem : Option FileSystem) (isMounted : Bool) : Host where
  blocks := [sysfsDisk "mmcblk0".toList [], sysfsDisk ssd uevent]
  contents name := if name = ssd then fileSystem else none
  byIdDir := []
  systemMounts := systemMounts
  dataMounts := if isMounted then [dataMount] else []
  distinct := show ["mmcblk0".toList, ssd].Nodup from by decide
  separate := by cases isMounted <;> decide

def layout : FileSystem := ⟨ext4, some Formatter.gfsLabel⟩

def layoutUevent : Str := "ID_FS_TYPE=ext4\nID_FS_LABEL=GFS_STORAGE\n".toList

def blank : Host := node [] none false

/-- The machine after a provision that formats. -/
def mounted : Host := node layoutUevent (some layout) true

/-- The same machine after a reboot: nothing is mounted for data. -/
def rebooted : Host := node layoutUevent (some layout) false

def params (confirmed : Bool) : ProvisionParams where
  roleSource := .config ⟨.worker, none, some confirmed⟩
  targetDiskOverride := none
  cliReformatConfirmed := false
  sysfsRoot := "/sys/class/block".toList
  storage := AuditWitness.config

def view (host : Host) : HostView := ⟨.entries host.blocks, host.byIdDir, .ok host.mountTable⟩

theorem sees_view (host : Host) : host.Sees (view host) := ⟨.inl rfl, rfl, .inl rfl⟩

/-- A provision of the machine on which every effect succeeds. -/
def provisioned (confirmed : Bool) (host : Host) :
    List StorageEvent × Except ClusterError Unit :=
  Prog.exec AuditWitness.compliant [] (runProvision (params confirmed) (view host))

theorem provisioned_runs (confirmed : Bool) (host : Host) :
    (runProvision (params confirmed) (view host)).Runs (provisioned confirmed host).1
      (provisioned confirmed host).2 :=
  Prog.exec_runs AuditWitness.compliant [] _

theorem sameMachine_node (uevent uevent' : Str) (fileSystem fileSystem' : Option FileSystem)
    (isMounted isMounted' : Bool) :
    (node uevent fileSystem isMounted).SameMachine (node uevent' fileSystem' isMounted') :=
  ⟨rfl, rfl, rfl⟩

theorem mounted_still_rebooted : mounted.Still rebooted :=
  ⟨sameMachine_node _ _ _ _ _ _, rfl⟩

def mkfsCommand : HostCommand :=
  ⟨.mkfsExt4, ["-F".toList, "-T".toList, "largefile4".toList, "-L".toList,
    Formatter.gfsLabel, "/dev/nvme0n1".toList]⟩

theorem contentsAfter_mkfs (uevent : Str) (fileSystem : Option FileSystem)
    (outcome : CommandOutcome) :
    (node uevent fileSystem false).ContentsAfter rebooted (ran mkfsCommand outcome) := by
  intro name
  have hlast : mkfsCommand.args.getLast? = some ("/dev/".toList ++ ssd) := rfl
  by_cases hname : name = ssd
  · subst hname
    rw [if_pos hlast]
    exact fun _ => rfl
  · rw [if_neg (by rw [hlast]; simpa using Ne.symm hname)]
    simp [rebooted, node, hname]

/-- A provision of the unmounted machine that formats the disk and mounts it. -/
theorem evolves_mounted {uevent : Str} {fileSystem : Option FileSystem}
    {outcome : CommandOutcome} {past later : List StorageEvent} (hpast : runsOf .mkfsExt4 past = [])
    (hlater : runsOf .mkfsExt4 later = []) :
    (node uevent fileSystem false).Evolves (past ++ ran mkfsCommand outcome :: later)
      mounted := by
  refine .quiet_append hpast (.event (sameMachine_node _ _ _ _ _ _)
    (contentsAfter_mkfs uevent fileSystem outcome) ?_)
  have hidle : rebooted.Evolves [] mounted := .idle ⟨sameMachine_node _ _ _ _ _ _, rfl⟩
  have hevolves := hidle.quiet_append hlater
  rwa [List.append_nil] at hevolves

/-- The effects of a provision that has decided to format the disk. -/
def formatted (target : BlockDevice) : List StorageEvent × Except ClusterError Unit :=
  Prog.exec AuditWitness.compliant [] do
    AuditLog.new AuditWitness.config
    AuditLog.new AuditWitness.config
    formatAndMount AuditWitness.config target .worker

theorem provisioned_eq_formatted {confirmed : Bool} {host : Host} {target : BlockDevice}
    (hplan : provisionPlan (params confirmed) (view host) =
      .ok (some ⟨target, .worker, .proceedWithFormat⟩)) :
    provisioned confirmed host = formatted target := by
  rw [provisioned, runProvision, hplan]
  rfl

section Formatted

variable {target : BlockDevice} (htarget : target.devPath = "/dev/nvme0n1".toList)

include htarget

/-- `mkfs.ext4` comes after opening the audit log twice and the write-ahead
record. -/
theorem formatted_split :
    (formatted target).1 = (formatted target).1.take 3 ++
      ran mkfsCommand (.exited (some 0) [] []) :: (formatted target).1.drop 4 := by
  rw [mkfsCommand, ← htarget]
  rfl

theorem runsOf_formatted :
    runsOf .mkfsExt4 (formatted target).1 = [(mkfsCommand, .exited (some 0) [] [])] := by
  rw [mkfsCommand, ← htarget]
  rfl

theorem formatted_evolves (uevent : Str) (fileSystem : Option FileSystem) :
    (node uevent fileSystem false).Evolves (formatted target).1 mounted := by
  rw [formatted_split htarget]
  exact evolves_mounted rfl rfl

end Formatted

def blankPlan : ProvisionPlan :=
  ⟨blank.device "/sys/class/block".toList (sysfsDisk ssd []), .worker, .proceedWithFormat⟩

/-- On a blank disk the flag makes no difference. -/
theorem planned_blank (confirmed : Bool) :
    provisionPlan (params confirmed) (view blank) = .ok (some blankPlan) := by
  cases confirmed <;> rfl

theorem provisioned_blank (confirmed : Bool) :
    provisioned confirmed blank = formatted blankPlan.target :=
  provisioned_eq_formatted (planned_blank confirmed)

theorem provisioned_blank_runs (confirmed : Bool) :
    (runProvision (params confirmed) (view blank)).Runs (provisioned confirmed blank).1
      (.ok ()) := by
  have hok : (provisioned confirmed blank).2 = .ok () := by
    rw [provisioned_blank]
    rfl
  rw [← hok]
  exact provisioned_runs confirmed blank

theorem provisioned_evolves (confirmed : Bool) :
    blank.Evolves (provisioned confirmed blank).1 mounted := by
  rw [provisioned_blank]
  exact formatted_evolves rfl [] none

def first (confirmed : Bool) : FirstProvision where
  params := params confirmed
  file := ⟨.worker, none, some confirmed⟩
  before := blank
  after := mounted
  view := view blank
  plan := blankPlan
  trace := (provisioned confirmed blank).1
  configured := rfl
  sees := sees_view blank
  planned := planned_blank confirmed
  decided := rfl
  wet := rfl
  runs := provisioned_blank_runs confirmed
  evolves := provisioned_evolves confirmed

def devices : List BlockDevice := rebooted.scan "/sys/class/block".toList

def formattedDisk : BlockDevice :=
  rebooted.device "/sys/class/block".toList (sysfsDisk ssd layoutUevent)

theorem formattedDisk_carriesLayout :
    CarriesLayout formattedDisk .worker rebooted.mountTable devices :=
  ⟨(checkBootDisk_eq_ok_iff _ _ _).mp (by decide), by decide, Formatter.gfsLabel, rfl,
    by decide⟩

theorem rebooted_recognisable : (first false).Recognisable rebooted :=
  ⟨by decide, .inl rfl, nofun⟩

/-- A reboot and another provision. -/
theorem lifetime_rebooted {confirmed : Bool} {cond : Host → Prop} {host : Host}
    (hcond : cond rebooted)
    (hevolves : rebooted.Evolves (provisioned confirmed rebooted).1 host) :
    Lifetime (params confirmed) cond mounted (provisioned confirmed rebooted).1 host := by
  have hrebooted : Lifetime (params confirmed) cond mounted [] rebooted :=
    .reboot .start mounted_still_rebooted
  have hagain := hrebooted.provision hcond (sees_view rebooted)
    (provisioned_runs confirmed rebooted) hevolves
  rwa [List.nil_append] at hagain

/-- With the flag off the provision after the reboot leaves the disk alone. -/
theorem unconfirmed_formats_once :
    (¬ ∃ existingFs targetMount,
      evaluateFormat formattedDisk .worker false rebooted.mountTable devices =
        .ok (.skipFormatAlreadyMatching existingFs targetMount)) ∧
    ∃ trace host,
      Lifetime (first false).params (first false).Recognisable (first false).after trace host ∧
      (runsOf .mkfsExt4 ((first false).trace ++ trace)).length = 1 := by
  have hlife : Lifetime (first false).params (first false).Recognisable
      (first false).after (provisioned false rebooted).1 rebooted :=
    lifetime_rebooted rebooted_recognisable (.idle ⟨Host.SameMachine.refl rebooted, rfl⟩)
  obtain ⟨hskip, honce⟩ :=
    reprovision_keeps_layout formattedDisk .worker false rebooted.mountTable devices
  refine ⟨?_, _, _, hlife, (honce _ _ _ hlife).1⟩
  rw [hskip formattedDisk_carriesLayout]
  rintro ⟨mount, _, hmounted⟩
  exact absurd hmounted List.not_mem_nil

/-- With the flag on in the role file, the provision after a reboot formats the
disk that already carries the layout, as nothing is mounted yet. -/
theorem confirmed_formats_twice :
    CarriesLayout formattedDisk .worker rebooted.mountTable devices ∧
    evaluateFormat formattedDisk .worker true rebooted.mountTable devices =
      .ok .proceedWithFormat ∧
    ∃ trace host,
      Lifetime (first true).params (fun _ => True) (first true).after trace host ∧
      (runsOf .mkfsExt4 ((first true).trace ++ trace)).length = 2 := by
  have hplan : provisionPlan (params true) (view rebooted) =
      .ok (some ⟨formattedDisk, .worker, .proceedWithFormat⟩) := rfl
  have hagain := provisioned_eq_formatted hplan
  have hevolves : rebooted.Evolves (provisioned true rebooted).1 mounted := by
    rw [hagain]
    exact formatted_evolves rfl layoutUevent (some layout)
  have hruns : runsOf .mkfsExt4 ((first true).trace ++ (provisioned true rebooted).1) =
      [(mkfsCommand, .exited (some 0) [] []), (mkfsCommand, .exited (some 0) [] [])] := by
    have hfirst : (first true).trace = (formatted blankPlan.target).1 :=
      congrArg Prod.fst (provisioned_blank true)
    have hblank : blankPlan.target.devPath = "/dev/nvme0n1".toList := rfl
    have hdisk : formattedDisk.devPath = "/dev/nvme0n1".toList := rfl
    rw [runsOf_append, hfirst, hagain, runsOf_formatted hblank, runsOf_formatted hdisk]
    rfl
  exact ⟨formattedDisk_carriesLayout, by decide, (provisioned true rebooted).1, mounted,
    lifetime_rebooted trivial hevolves, congrArg List.length hruns⟩

end LifetimeWitness

end PiCluster
