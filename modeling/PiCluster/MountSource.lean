/-
What a freshly formatted device is mounted by, and what its fstab entry names.
The formatter returns the UUID that `blkid` found, or a sentinel; the mounter
passes a sentinel's device node to `mount`, but the fstab line is always written
for the UUID.
-/
import PiCluster.MountState

namespace PiCluster

open Text Bytes Effects FstabManager

namespace FstabManager

/-- The mount point has an entry, and its entries have the source as their
first field. -/
def EntryNames (fstab : Option Str) (mountPoint source : Str) : Prop :=
  HasEntry fstab mountPoint ∧ ∀ spec,
    (∃ line ∈ fileLines fstab, entryKeys line = some (spec, mountPoint)) → spec = source

theorem EntryNames.entry {fstab : Option Str} {mountPoint source : Str}
    (hnames : EntryNames fstab mountPoint source) :
    ∃ line ∈ fileLines fstab, entryKeys line = some (source, mountPoint) := by
  obtain ⟨spec, hentry⟩ := (hasEntry_iff fstab mountPoint).mp hnames.1
  obtain rfl := hnames.2 spec hentry
  exact hentry

theorem entryNames_upsertEntry_iff (fstab : Option Str)
    (uuid mountPoint fsType options source : Str) :
    EntryNames (some (upsertEntry fstab uuid mountPoint fsType options)) mountPoint source ↔
      EntryNames (some (newLine uuid mountPoint fsType options ++ ['\n'])) mountPoint
        source := by
  simp only [EntryNames, hasEntry_upsertEntry_iff, entry_upsertEntry_iff]

/-- A line of words is the entry of its UUID and of nothing else. -/
theorem entryNames_newLine_iff {uuid mountPoint fsType options : Str}
    (hwords : WordFields uuid mountPoint fsType options) (source : Str) :
    EntryNames (some (newLine uuid mountPoint fsType options ++ ['\n'])) mountPoint source ↔
      source = uuidSpec uuid := by
  have hkeys : ∀ line ∈ fileLines (some (newLine uuid mountPoint fsType options ++ ['\n'])),
      entryKeys line = some (uuidSpec uuid, mountPoint) := by
    intro line hline
    have hdrop := (mem_lines_terminated (newline_not_mem_newLine hwords) line).mp hline
    rw [hdrop, entryKeys_dropCr, entryKeys_newLine hwords]
  constructor
  · intro hnames
    obtain ⟨line, hline, hentry⟩ := hnames.entry
    rw [hkeys line hline] at hentry
    exact (congrArg Prod.fst (Option.some.inj hentry)).symm
  · rintro rfl
    refine ⟨hasEntry_newLine hwords, ?_⟩
    rintro spec ⟨line, hline, hentry⟩
    rw [hkeys line hline] at hentry
    exact (congrArg Prod.fst (Option.some.inj hentry)).symm

/-- The first field of an entry is a word. -/
theorem isWord_of_entryKeys {line spec mountPoint : Str}
    (hkeys : entryKeys line = some (spec, mountPoint)) : IsWord spec := by
  unfold entryKeys at hkeys
  simp only at hkeys
  split at hkeys
  · cases hkeys
  · split at hkeys
    · rename_i heq
      cases hkeys
      exact isWord_of_mem_splitWhitespace (heq ▸ List.mem_cons_self)
    · cases hkeys

end FstabManager

namespace Formatter

theorem probedUuid_ne_nil {outcome : CommandOutcome} {uuid : Str}
    (hprobed : probedUuid outcome = some uuid) : uuid ≠ [] := by
  cases outcome with
  | spawnFailed e => cases hprobed
  | exited code stdout stderr =>
      simp only [probedUuid, Option.ite_none_right_eq_some] at hprobed
      obtain ⟨⟨_, hne⟩, hsome⟩ := hprobed
      exact Option.some.inj hsome ▸ hne

theorem Prepares.runsOf_blkid {role : NodeRole} {prep : List StorageEvent} {ready : Bool}
    (hprep : Prepares role prep ready) : runsOf .blkid prep = [] := by
  cases hprep <;> rfl

/-- A format outside dry-run mode asks `blkid` once and returns what it found. -/
theorem runsOf_blkid_format {config : StorageConfig} (hwet : config.dryRun = false)
    {device : BlockDevice} {role : NodeRole} {requestedBy uuid : Str}
    {trace : List StorageEvent}
    (hruns : (formatDevice config device role requestedBy).Runs trace (.ok uuid)) :
    ∃ outcome, runsOf .blkid trace = [(blkid device.devPath, outcome)] ∧
      uuid = uuidOf outcome := by
  have hcourse := runs_formatDevice hruns
  rw [hwet] at hcourse
  cases hcourse with
  | @closed prep finish mkfs _ closing hprep hsuccess hfinish =>
      obtain ⟨outcome⟩ := hfinish
      refine ⟨outcome, ?_, rfl⟩
      change runsOf .blkid (prep ++ _) = _
      rw [runsOf_append, hprep.runsOf_blkid]
      rfl

end Formatter

namespace Mounter

/-- The UUIDs of a dry run and of a failed probe, for which the device node is
mounted. -/
def Sentinel (uuid : Str) : Prop :=
  startsWith uuid "dry-run".toList ∨ uuid = Formatter.unknownUuid

instance (uuid : Str) : Decidable (Sentinel uuid) := inferInstanceAs (Decidable (_ ∨ _))

theorem mountSource_of_sentinel {uuid : Str} (hsentinel : Sentinel uuid)
    (device : BlockDevice) : mountSource device uuid = device.devPath := if_pos hsentinel

theorem mountSource_of_not_sentinel {uuid : Str} (hfound : ¬ Sentinel uuid)
    (device : BlockDevice) : mountSource device uuid = uuidSpec uuid := if_neg hfound

/-- The file that `upsert_entry` writes when there is none. -/
def writtenFile (uuid : Str) (role : NodeRole) : Str :=
  newLine uuid (getMountConfig role).1 SafetyGuard.ext4 (getMountConfig role).2 ++ ['\n']

/-- The probe found a UUID of one word that is not taken for a sentinel.  The
other cases need a device whose node is spelt like a UUID spec, or a text that
starts like a sentinel and goes on with an entry for the node. -/
def Nameable (device : BlockDevice) (role : NodeRole) (outcome : CommandOutcome) : Prop :=
  match Formatter.probedUuid outcome with
  | none => device.devPath = uuidSpec Formatter.unknownUuid
  | some uuid =>
      (IsWord uuid ∧ (¬ Sentinel uuid ∨ device.devPath = uuidSpec uuid)) ∨
        (¬ IsWord uuid ∧ Sentinel uuid ∧
          EntryNames (some (writtenFile uuid role)) (getMountConfig role).1 device.devPath)

section Written

variable {uuid : Str} (device : BlockDevice) (role : NodeRole)

theorem entryNames_written_of_isWord (huuid : IsWord uuid) :
    EntryNames (some (writtenFile uuid role)) (getMountConfig role).1
        (mountSource device uuid) ↔
      ¬ Sentinel uuid ∨ device.devPath = uuidSpec uuid := by
  rw [writtenFile, entryNames_newLine_iff (wordFields_mountConfig huuid role)]
  by_cases hsentinel : Sentinel uuid
  · simp [mountSource_of_sentinel hsentinel, hsentinel]
  · simp [mountSource_of_not_sentinel hsentinel, hsentinel]

/-- A spec with white space in it is no field of the written line. -/
theorem sentinel_of_entryNames (hne : uuid ≠ []) (huuid : ¬ IsWord uuid)
    (hnames : EntryNames (some (writtenFile uuid role)) (getMountConfig role).1
      (mountSource device uuid)) : Sentinel uuid := by
  by_contra hsentinel
  rw [mountSource_of_not_sentinel hsentinel] at hnames
  obtain ⟨line, _, hkeys⟩ := hnames.entry
  have hspec := isWord_of_entryKeys hkeys
  exact huuid ⟨hne, fun c hc => hspec.2 c (List.mem_append_right _ hc)⟩

theorem entryNames_written_iff (outcome : CommandOutcome) :
    EntryNames (some (writtenFile (Formatter.uuidOf outcome) role)) (getMountConfig role).1
        (mountSource device (Formatter.uuidOf outcome)) ↔
      Nameable device role outcome := by
  unfold Formatter.uuidOf Nameable
  cases hprobed : Formatter.probedUuid outcome with
  | none =>
      have hword : IsWord Formatter.unknownUuid :=
        isWord_of_all (List.cons_ne_nil _ _) (by decide)
      have hsentinel : Sentinel Formatter.unknownUuid := Or.inr rfl
      refine (entryNames_written_of_isWord device role hword).trans ?_
      simp [hsentinel]
  | some uuid =>
      have hne := Formatter.probedUuid_ne_nil hprobed
      by_cases hword : IsWord uuid
      · refine (entryNames_written_of_isWord device role hword).trans ?_
        simp [hword]
      · simp only [hword, false_and, not_false_eq_true, true_and, false_or, Option.getD_some]
        constructor
        · intro hnames
          have hsentinel := sentinel_of_entryNames device role hne hword hnames
          rw [mountSource_of_sentinel hsentinel] at hnames
          exact ⟨hsentinel, hnames⟩
        · rintro ⟨hsentinel, hnames⟩
          rwa [mountSource_of_sentinel hsentinel]

end Written

/-- A mount that succeeds outside dry-run mode has updated the fstab. -/
theorem mount_files {Disks : Type} {rewrite : HostCommand → CommandOutcome → Disks → Disks}
    {machine : Machine Disks} {config : StorageConfig} {device : BlockDevice}
    {uuid mountPoint : Str} {role : NodeRole} {requestedBy : Str} {trace : List StorageEvent}
    (hcourse : (mountSpec config device uuid role requestedBy).Course false trace
      (.ok mountPoint)) (hhonest : machine.Honest rewrite trace) :
    (machine.run rewrite trace).files config.fstabPath =
      some (upsertEntry (machine.files config.fstabPath) uuid (getMountConfig role).1
        SafetyGuard.ext4 (getMountConfig role).2) := by
  have hchanges := (hcourse.carried (editsFstab_mount _ _ _ _ _)).changes hhonest
  cases hchanges with
  | moved done hmoved hsuccess hallows hmounts hfile hfailed hended =>
      have hdone : done = true := by
        cases done <;> simp_all [Except.toBool]
      rw [hfile, hdone]
      rfl

/-- When a device is formatted and then mounted outside dry-run mode, the fstab
entry of the mount point has the source of the `mount` command as its first field
exactly when the probe after the format has made it nameable. -/
theorem mountedSource_in_fstab_iff {Disks : Type}
    (rewrite : HostCommand → CommandOutcome → Disks → Disks) (machine : Machine Disks)
    {config : StorageConfig} (hwet : config.dryRun = false) (device : BlockDevice)
    (role : NodeRole) {formattedBy mountedBy uuid mountPoint : Str}
    {formatTrace mountTrace : List StorageEvent}
    (hformat : (Formatter.formatDevice config device role formattedBy).Runs formatTrace
      (.ok uuid))
    (hmount : (mountRoleStorage config device uuid role mountedBy).Runs mountTrace
      (.ok mountPoint))
    (hhonest : machine.Honest rewrite mountTrace) :
    (∃ source outcome, runsOf .mount mountTrace = [(mount role source, outcome)] ∧
        EntryNames ((machine.run rewrite mountTrace).files config.fstabPath)
          (getMountConfig role).1 source) ↔
      ∃ outcome, runsOf .blkid formatTrace =
          [(Formatter.blkid device.devPath, outcome)] ∧ Nameable device role outcome := by
  obtain ⟨probe, hprobe, rfl⟩ := Formatter.runsOf_blkid_format hwet hformat
  have hcourse := runs_mountRoleStorage hmount
  rw [hwet] at hcourse
  obtain ⟨mounted, hmounted, -⟩ : ∃ mounted, runsOf .mount mountTrace =
      [(mount role (mountSource device (Formatter.uuidOf probe)), mounted)] ∧
        mounted.success = true := hcourse.runsOf_command (lawful_mount _ _ _ _ _)
  have hfstab := mount_files hcourse hhonest
  have hnames := entryNames_upsertEntry_iff (machine.files config.fstabPath)
    (Formatter.uuidOf probe) (getMountConfig role).1 SafetyGuard.ext4 (getMountConfig role).2
    (mountSource device (Formatter.uuidOf probe))
  have hwritten := hnames.trans (entryNames_written_iff device role probe)
  rw [hfstab, hprobe, hmounted]
  constructor
  · rintro ⟨source, outcome, hsource, hentry⟩
    cases hsource
    exact ⟨probe, rfl, hwritten.mp hentry⟩
  · rintro ⟨outcome, hsame, hnameable⟩
    cases hsame
    exact ⟨_, mounted, rfl, hwritten.mpr hnameable⟩

namespace SourceWitness

open MountWitness

def device : BlockDevice :=
  ⟨"nvme0n1".toList, "/dev/nvme0n1".toList, [], 0, [], none, none, none, none, none, false,
    none, []⟩

/-- A host on which `blkid` ends this way and every other effect succeeds. -/
def probing (probe : CommandOutcome) :
    List StorageEvent → (effect : StorageEffect) → StorageAnswer effect
  | _, .run ⟨.blkid, _⟩ => probe
  | past, effect => AuditWitness.compliant past effect

def formatRun (probe : CommandOutcome) : List StorageEvent × Except ClusterError Str :=
  Prog.exec (probing probe) []
    (Formatter.formatDevice AuditWitness.config device .worker "cluster-ldm".toList)

def mountRun (uuid : Str) : List StorageEvent × Except ClusterError Str :=
  Prog.exec AuditWitness.compliant []
    (mountRoleStorage AuditWitness.config device uuid .worker "cluster-ldm".toList)

/-- `blkid` prints `abcd`. -/
def found : CommandOutcome := .exited (some 0) [97, 98, 99, 100, 10] []

theorem mountRun_honest (uuid : Str) : bare.Honest keep (mountRun uuid).1 :=
  ⟨trivial, trivial, nofun, rfl, trivial, trivial, trivial⟩

theorem found_uuid_named :
    ∃ source outcome, runsOf .mount (mountRun "abcd".toList).1 =
        [(mount .worker source, outcome)] ∧
      EntryNames ((bare.run keep (mountRun "abcd".toList).1).files "/etc/fstab".toList)
        SafetyGuard.gfsMountPoint source := by
  have hformat : (Formatter.formatDevice AuditWitness.config device .worker
      "cluster-ldm".toList).Runs (formatRun found).1 (.ok "abcd".toList) :=
    Prog.exec_runs (probing found) [] _
  have hmount : (mountRoleStorage AuditWitness.config device "abcd".toList .worker
      "cluster-ldm".toList).Runs (mountRun "abcd".toList).1 (.ok SafetyGuard.gfsMountPoint) :=
    Prog.exec_runs AuditWitness.compliant [] _
  refine (mountedSource_in_fstab_iff keep bare rfl device .worker hformat hmount
    (mountRun_honest _)).mpr ⟨found, rfl, ?_⟩
  exact Or.inl ⟨isWord_of_all (List.cons_ne_nil _ _) (by decide), Or.inl (by decide)⟩

/-- `blkid` finds nothing: the node is mounted, and the fstab entry names the
UUID `unknown-uuid`. -/
theorem unprobed_device_not_named :
    (formatRun (.exited (some 2) [] [])).2 = .ok "unknown-uuid".toList ∧
      (mountRun "unknown-uuid".toList).2 = .ok SafetyGuard.gfsMountPoint ∧
      bare.Honest keep (mountRun "unknown-uuid".toList).1 ∧
      runsOf .mount (mountRun "unknown-uuid".toList).1 =
        [(mount .worker "/dev/nvme0n1".toList, .exited (some 0) [] [])] ∧
      (bare.run keep (mountRun "unknown-uuid".toList).1).files "/etc/fstab".toList =
        some (writtenFile "unknown-uuid".toList .worker) ∧
      ¬ EntryNames (some (writtenFile "unknown-uuid".toList .worker))
        SafetyGuard.gfsMountPoint "/dev/nvme0n1".toList := by
  refine ⟨rfl, rfl, mountRun_honest _, rfl, rfl, ?_⟩
  intro hnames
  have hword : IsWord "unknown-uuid".toList :=
    isWord_of_all (List.cons_ne_nil _ _) (by decide)
  have hspec := (entryNames_newLine_iff (wordFields_mountConfig hword .worker) _).mp hnames
  exact absurd hspec (by decide)

end SourceWitness

end Mounter

end PiCluster
