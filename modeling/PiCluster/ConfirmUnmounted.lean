/-
The answer of `ConfirmUnmounted` against the kernel's list of mounts.  The
service reads `/proc/mounts` as text; what it cannot read, cannot parse or finds
spelled differently counts as not mounted.
-/
import PiCluster.FstabLaws
import PiCluster.Safety

namespace PiCluster

open Text

/-- A mount as the kernel holds it. -/
structure KernelMount where
  source : Str
  mountPoint : Str
  fsType : Str
  options : Str
deriving DecidableEq, Repr

namespace KernelMount

/-- The octal escapes of `/proc/mounts`. -/
def escapeChar (c : Char) : Str :=
  if c = ' ' then "\\040".toList
  else if c = '\t' then "\\011".toList
  else if c = '\n' then "\\012".toList
  else if c = '\\' then "\\134".toList
  else [c]

def escape (field : Str) : Str := field.flatMap escapeChar

def line (mount : KernelMount) : Str :=
  escape mount.source ++ ' ' :: (escape mount.mountPoint ++ ' ' ::
    (escape mount.fsType ++ ' ' :: (escape mount.options ++ " 0 0".toList)))

/-- The text of `/proc/mounts`. -/
def procMounts (mounts : List KernelMount) : Str :=
  (mounts.map line).flatMap (· ++ ['\n'])

/-- A path without its trailing slashes. -/
def bare (path : Str) : Str := trimEndMatches (· == '/') path

def MountedAt (mounts : List KernelMount) (path : Str) : Prop :=
  ∃ mount ∈ mounts, bare mount.mountPoint = bare path

/-- Every column is printed as one word, and the line does not read as a
comment. -/
structure Plain (mount : KernelMount) : Prop where
  source : IsWord (escape mount.source)
  mountPoint : IsWord (escape mount.mountPoint)
  fsType : IsWord (escape mount.fsType)
  options : IsWord (escape mount.options)
  notComment : (escape mount.source).head? ≠ some '#'

theorem newline_not_mem_escape (field : Str) : '\n' ∉ escape field := by
  intro hmem
  obtain ⟨c, _, hc⟩ := List.mem_flatMap.mp hmem
  revert hc
  unfold escapeChar
  split
  · exact not_mem_literal (by decide)
  · split
    · exact not_mem_literal (by decide)
    · split
      · exact not_mem_literal (by decide)
      next hnewline =>
        split
        · exact not_mem_literal (by decide)
        · simpa [eq_comm] using hnewline

theorem newline_not_mem_line (mount : KernelMount) : '\n' ∉ mount.line := by
  simp [line, newline_not_mem_escape]

/-- The parser reads the mounts line by line. -/
theorem parse_procMounts_iff (mounts : List KernelMount) (table : MountTable) :
    MountTable.parse (procMounts mounts) = .ok table ↔
      (∀ mount ∈ mounts, MountTable.Accepts mount.line) ∧
        table.entries = mounts.filterMap fun mount => MountTable.entryOf mount.line := by
  have hclean : ∀ text ∈ mounts.map line, '\n' ∉ text := by
    intro text htext
    obtain ⟨mount, _, rfl⟩ := List.mem_map.mp htext
    exact newline_not_mem_line mount
  rw [MountTable.parse_eq_ok_iff, procMounts, lines_flatMap_terminated hclean,
    FstabManager.filterMap_entryOf_dropCr, List.filterMap_map]
  simp only [List.forall_mem_map, MountTable.accepts_dropCr]
  rfl

section Columns

variable {mount : KernelMount}

theorem Plain.splitWhitespace_line (hplain : mount.Plain) :
    splitWhitespace mount.line =
      [escape mount.source, escape mount.mountPoint, escape mount.fsType,
        escape mount.options, ['0'], ['0']] := by
  have hspace : isWhitespace ' ' = true := by decide
  have htail : splitWhitespace "0 0".toList = [['0'], ['0']] := by decide
  have hend : splitWhitespace (escape mount.options ++ " 0 0".toList) =
      [escape mount.options, ['0'], ['0']] :=
    (splitWhitespace_word_append hplain.options hspace "0 0".toList).trans (by rw [htail])
  rw [line, splitWhitespace_word_append hplain.source hspace,
    splitWhitespace_word_append hplain.mountPoint hspace,
    splitWhitespace_word_append hplain.fsType hspace, hend]

theorem Plain.trim_line (hplain : mount.Plain) :
    trim mount.line = mount.line ∧ ¬ MountTable.Skips mount.line := by
  obtain ⟨c, rest, hsource⟩ := List.exists_cons_of_ne_nil hplain.source.1
  have hc : isWhitespace c = false := hplain.source.2 c (by simp [hsource])
  have hcomment : c ≠ '#' := by
    have hhead := hplain.notComment
    simpa [hsource] using hhead
  have hne : mount.line ≠ [] := by simp [line]
  have hlast : mount.line.getLast hne = '0' := by simp [line]
  have htrim := (trim_eq_self hne (by simpa [line, hsource] using hc)
    (by rw [hlast]; decide)).2
  refine ⟨htrim, ?_⟩
  rw [MountTable.Skips, htrim]
  rintro (hnil | hstart)
  · exact hne hnil
  · simp [startsWith, line, hsource, List.isPrefixOf] at hstart
    exact hcomment hstart.symm

theorem Plain.entryOf_line (hplain : mount.Plain) :
    MountTable.entryOf mount.line = some ⟨escape mount.source, escape mount.mountPoint,
      escape mount.fsType, (escape mount.options).splitOn ','⟩ := by
  obtain ⟨htrim, hskips⟩ := hplain.trim_line
  rw [MountTable.entryOf, if_neg hskips, htrim, hplain.splitWhitespace_line]
  rfl

end Columns

end KernelMount

namespace MountTable

/-- `read_live`, from what reading the file gives. -/
def readLive (reading : Except Str Str) : Except DeviceError MountTable :=
  match reading with
  | .error source => .error (.sysfsRead "/proc/mounts".toList source)
  | .ok content => parse content

end MountTable

structure ConfirmUnmountedRequest where
  mountPoint : Str
deriving DecidableEq, Repr

structure ConfirmUnmountedResponse where
  isUnmounted : Bool
  message : Str
deriving DecidableEq, Repr

namespace LdmIpcService

def confirmedMount (req : ConfirmUnmountedRequest) : Str :=
  if req.mountPoint = [] then SafetyGuard.gfsMountPoint else req.mountPoint

def confirmUnmounted (reading : Except Str Str) (req : ConfirmUnmountedRequest) :
    ConfirmUnmountedResponse :=
  let mountPoint := confirmedMount req
  let mountTable := (MountTable.readLive reading).toOption.getD .empty
  let isUnmounted := (mountTable.findByMountPoint mountPoint).isNone
  { isUnmounted := isUnmounted
    message :=
      if isUnmounted then mountPoint ++ " is confirmed unmounted".toList
      else mountPoint ++ " is still mounted!".toList }

open KernelMount

/-- The service says "still mounted" only after reading the whole table and
finding the requested text in its second column. -/
theorem isUnmounted_eq_false_iff (reading : Except Str Str) (req : ConfirmUnmountedRequest) :
    (confirmUnmounted reading req).isUnmounted = false ↔
      ∃ content table, reading = .ok content ∧ MountTable.parse content = .ok table ∧
        ∃ entry ∈ table.entries, entry.mountPoint = confirmedMount req := by
  have hfind : ∀ table : MountTable,
      (table.findByMountPoint (confirmedMount req)).isNone = false ↔
        ∃ entry ∈ table.entries, entry.mountPoint = confirmedMount req := by
    intro table
    rw [← Bool.not_eq_true, Option.isNone_iff_eq_none, MountTable.findByMountPoint,
      List.find?_eq_none]
    simp
  rw [confirmUnmounted]
  cases reading with
  | error source =>
      simp [MountTable.readLive, Except.toOption, MountTable.empty,
        MountTable.findByMountPoint]
  | ok content =>
      cases hparse : MountTable.parse content with
      | error reason =>
          simp [MountTable.readLive, hparse, Except.toOption, MountTable.empty,
            MountTable.findByMountPoint]
      | ok table =>
          simpa [MountTable.readLive, hparse, Except.toOption] using hfind table

/-- The service can see a mount at the requested path: the file is readable,
every line has its columns, and some line shows the path as it was requested. -/
structure Shows (mounts : List KernelMount) (reading : Except Str Str) (path : Str) :
    Prop where
  readable : ∃ content, reading = .ok content
  accepted : ∀ mount ∈ mounts, MountTable.Accepts mount.line
  shown : ∃ mount ∈ mounts, ∃ entry, MountTable.entryOf mount.line = some entry ∧
    entry.mountPoint = path

theorem isUnmounted_eq_false_iff_shows {mounts : List KernelMount} {reading : Except Str Str}
    (hreading : ∀ content, reading = .ok content → content = procMounts mounts)
    (req : ConfirmUnmountedRequest) :
    (confirmUnmounted reading req).isUnmounted = false ↔
      Shows mounts reading (confirmedMount req) := by
  rw [isUnmounted_eq_false_iff]
  constructor
  · rintro ⟨content, table, hcontent, hparse, entry, hentry, hpath⟩
    rw [hreading content hcontent, parse_procMounts_iff] at hparse
    rw [hparse.2] at hentry
    obtain ⟨mount, hmount, hread⟩ := List.mem_filterMap.mp hentry
    exact ⟨⟨content, hcontent⟩, hparse.1, mount, hmount, entry, hread, hpath⟩
  · rintro ⟨⟨content, hcontent⟩, haccepted, mount, hmount, entry, hread, hpath⟩
    refine ⟨content, ⟨mounts.filterMap fun mount => MountTable.entryOf mount.line⟩, hcontent,
      ?_, entry, List.mem_filterMap.mpr ⟨mount, hmount, hread⟩, hpath⟩
    rw [hreading content hcontent, parse_procMounts_iff]
    exact ⟨haccepted, rfl⟩

/-- On plain lines the service sees a path exactly when it is requested in its
escaped spelling. -/
theorem shows_iff_of_plain {mounts : List KernelMount}
    (hplain : ∀ mount ∈ mounts, mount.Plain) (reading : Except Str Str) (path : Str) :
    Shows mounts reading path ↔
      (∃ content, reading = .ok content) ∧
        ∃ mount ∈ mounts, escape mount.mountPoint = path := by
  constructor
  · rintro ⟨hreadable, _, mount, hmount, entry, hread, hpath⟩
    rw [(hplain mount hmount).entryOf_line] at hread
    obtain rfl := Option.some.inj hread
    exact ⟨hreadable, mount, hmount, hpath⟩
  · rintro ⟨hreadable, mount, hmount, hpath⟩
    refine ⟨hreadable, ?_, mount, hmount, _, (hplain mount hmount).entryOf_line, hpath⟩
    intro other hother
    exact Or.inr (by rw [(hplain other hother).entryOf_line]; rfl)

/-- The answer "unmounted" is right exactly when a mount at the path, if there
is one, is readable, accepted and shown as it was requested; on plain lines that
means requested in its escaped spelling, slashes included. -/
theorem confirmUnmounted_sound_iff {mounts : List KernelMount} {reading : Except Str Str}
    (hreading : ∀ content, reading = .ok content → content = procMounts mounts)
    (req : ConfirmUnmountedRequest) :
    (((confirmUnmounted reading req).isUnmounted = true →
        ¬ MountedAt mounts (confirmedMount req)) ↔
      (MountedAt mounts (confirmedMount req) →
        Shows mounts reading (confirmedMount req))) ∧
      ((∀ mount ∈ mounts, mount.Plain) →
        (Shows mounts reading (confirmedMount req) ↔
          (∃ content, reading = .ok content) ∧
            ∃ mount ∈ mounts, escape mount.mountPoint = confirmedMount req)) := by
  refine ⟨?_, fun hplain => shows_iff_of_plain hplain reading _⟩
  rw [← isUnmounted_eq_false_iff_shows hreading, ← Bool.not_eq_true]
  exact imp_not_comm

namespace ConfirmWitness

def storage : KernelMount :=
  ⟨"/dev/sda".toList, SafetyGuard.gfsMountPoint, "ext4".toList, "rw,noatime".toList⟩

def mounted : List KernelMount := [storage]

/-- The default mount point of an empty request. -/
def defaultRequest : ConfirmUnmountedRequest := ⟨[]⟩

theorem storage_plain : storage.Plain where
  source := isWord_of_all (by decide) (by decide)
  mountPoint := isWord_of_all (by decide) (by decide)
  fsType := isWord_of_all (by decide) (by decide)
  options := isWord_of_all (by decide) (by decide)
  notComment := by decide

/-- A mounted file system is confirmed unmounted when the file cannot be read,
and when the request ends in a slash. -/
theorem mounted_confirmed_unmounted :
    MountedAt mounted (confirmedMount defaultRequest) ∧
      (confirmUnmounted (.error "Too many open files".toList) defaultRequest).isUnmounted =
        true ∧
      MountedAt mounted (confirmedMount ⟨"/mnt/gfs-storage/".toList⟩) ∧
      (confirmUnmounted (.ok (procMounts mounted))
        ⟨"/mnt/gfs-storage/".toList⟩).isUnmounted = true := by
  refine ⟨⟨storage, List.mem_singleton_self _, rfl⟩, rfl,
    ⟨storage, List.mem_singleton_self _, ?_⟩, ?_⟩
  · decide
  · decide

/-- The default request is answered soundly from a readable table. -/
theorem readable_storage_seen :
    MountedAt mounted (confirmedMount defaultRequest) ∧
      ((confirmUnmounted (.ok (procMounts mounted)) defaultRequest).isUnmounted = true →
        ¬ MountedAt mounted (confirmedMount defaultRequest)) := by
  have hreading : ∀ content, (Except.ok (procMounts mounted) : Except Str Str) = .ok content →
      content = procMounts mounted := fun _ hcontent => (Except.ok.inj hcontent).symm
  have hsound := confirmUnmounted_sound_iff hreading defaultRequest
  have hplain : ∀ mount ∈ mounted, mount.Plain :=
    List.forall_mem_singleton.mpr storage_plain
  refine ⟨⟨storage, List.mem_singleton_self _, rfl⟩, hsound.1.mpr fun _ => ?_⟩
  exact (hsound.2 hplain).mpr ⟨⟨_, rfl⟩, storage, List.mem_singleton_self _, by decide⟩

end ConfirmWitness

end LdmIpcService

end PiCluster
