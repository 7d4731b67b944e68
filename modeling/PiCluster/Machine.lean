/-
The host as the storage effects change it: what is mounted where, the files that
are written, the contents of the disks and the audit log.
-/
import Mathlib.Logic.Function.Basic
import PiCluster.AuditTrail

namespace PiCluster

open Text Effects

def commandSucceeded : StorageEvent → Bool
  | ⟨.run _, outcome⟩ => CommandOutcome.success outcome
  | _ => false

/-- `locate` is the mount point that a path names, whatever its trailing slashes, dots and
symbolic links, and `entryPlace` the one that a field of the fstab names, its escapes
undone as well.  `mounts` counts the file systems stacked on a mount point; the contents
of the disks are of any type. -/
structure Machine (Disks : Type) where
  locate : Str → Str
  entryPlace : Str → Str
  mounts : Str → Nat
  files : Str → Option Str
  disks : Disks
  audit : List AuditEntry

namespace Machine

variable {Disks : Type} (rewrite : HostCommand → CommandOutcome → Disks → Disks)
  (machine : Machine Disks)

/-- A record whose fsync failed has still been written. -/
def logged (entry : AuditEntry) : AuditOutcome → Machine Disks
  | .committed | .fsyncFailed _ => { machine with audit := machine.audit ++ [entry] }
  | .ioFailed _ | .serializationFailed _ => machine

/-- The mounts after a command; only a successful `mount` or `umount` moves
them. -/
def remounted (command : HostCommand) (outcome : CommandOutcome) : Str → Nat :=
  match command.program, command.args.getLast? with
  | .mount, some path =>
      if outcome.success then Function.update machine.mounts (machine.locate path)
        (machine.mounts (machine.locate path) + 1)
      else machine.mounts
  | .umount, some path =>
      if outcome.success then Function.update machine.mounts (machine.locate path)
        (machine.mounts (machine.locate path) - 1)
      else machine.mounts
  | _, _ => machine.mounts

/-- Any command may change what is on the disks. -/
def executed (command : HostCommand) (outcome : CommandOutcome) : Machine Disks :=
  { machine with
    mounts := machine.remounted command outcome
    disks := rewrite command outcome machine.disks }

/-- A failed write leaves the file as it was. -/
def written (path content : Str) : Except Str Unit → Machine Disks
  | .ok _ => { machine with files := Function.update machine.files path (some content) }
  | .error _ => machine

def after : StorageEvent → Machine Disks
  | ⟨.record entry, outcome⟩ => machine.logged entry outcome
  | ⟨.run command, outcome⟩ => machine.executed rewrite command outcome
  | ⟨.writeFile path content, answer⟩ => machine.written path content answer
  | _ => machine

/-- The answers the host can give: files are read as they are, and only what is
mounted can be unmounted. -/
def Allows : StorageEvent → Prop
  | ⟨.fileExists path, found⟩ => found = (machine.files path).isSome
  | ⟨.readFile path, answer⟩ => ∀ content, answer = Except.ok content →
      machine.files path = some content
  | ⟨.run command, outcome⟩ => command.program = .umount → outcome.success = true →
      ∀ path, command.args.getLast? = some path → 0 < machine.mounts (machine.locate path)
  | _ => True

def run (trace : List StorageEvent) : Machine Disks := trace.foldl (after rewrite) machine

/-- All answers of the trace are ones the host can give where they stand. -/
def Honest (trace : List StorageEvent) : Prop :=
  StepRun.Meets (after rewrite) Allows machine trace

theorem run_append (past later : List StorageEvent) :
    machine.run rewrite (past ++ later) = (machine.run rewrite past).run rewrite later :=
  List.foldl_append

theorem honest_append_iff {past later : List StorageEvent} :
    machine.Honest rewrite (past ++ later) ↔
      machine.Honest rewrite past ∧ (machine.run rewrite past).Honest rewrite later :=
  StepRun.meets_append

theorem remounted_of_failed (command : HostCommand) {outcome : CommandOutcome}
    (hfailed : outcome.success = false) :
    machine.remounted command outcome = machine.mounts := by
  unfold remounted
  split <;> simp [hfailed]

section Frame

variable {rewrite}

/-- No effect moves the mount points themselves. -/
theorem places_after (event : StorageEvent) :
    (machine.after rewrite event).locate = machine.locate ∧
      (machine.after rewrite event).entryPlace = machine.entryPlace := by
  obtain ⟨effect, answer⟩ := event
  cases effect with
  | record entry => cases answer <;> exact ⟨rfl, rfl⟩
  | writeFile path content => cases answer <;> exact ⟨rfl, rfl⟩
  | run | createDir | fileExists | readFile | openAudit => exact ⟨rfl, rfl⟩

/-- Only a successful command moves the mounts. -/
theorem mounts_after_of_idle {event : StorageEvent} (hidle : commandSucceeded event = false) :
    (machine.after rewrite event).mounts = machine.mounts := by
  obtain ⟨effect, answer⟩ := event
  cases effect with
  | record entry => cases answer <;> rfl
  | writeFile path content => cases answer <;> rfl
  | run command => exact machine.remounted_of_failed command hidle
  | createDir | fileExists | readFile | openAudit => rfl

/-- Only a write to it changes a file. -/
theorem files_after_of_ne {event : StorageEvent} {path : Str}
    (hother : ∀ content, event.effect ≠ .writeFile path content) :
    (machine.after rewrite event).files path = machine.files path := by
  obtain ⟨effect, answer⟩ := event
  cases effect with
  | record entry => cases answer <;> rfl
  | writeFile name content =>
      have hne : path ≠ name := by
        rintro rfl
        exact hother content rfl
      cases answer with
      | ok value => exact Function.update_of_ne hne _ _
      | error e => rfl
  | run | createDir | fileExists | readFile | openAudit => rfl

theorem places_run (trace : List StorageEvent) :
    (machine.run rewrite trace).locate = machine.locate ∧
      (machine.run rewrite trace).entryPlace = machine.entryPlace :=
  ⟨StepRun.foldl_frame locate (fun event _ now => (now.places_after event).1) machine,
    StepRun.foldl_frame entryPlace (fun event _ now => (now.places_after event).2) machine⟩

theorem mounts_run_of_idle {trace : List StorageEvent}
    (hidle : trace.any commandSucceeded = false) :
    (machine.run rewrite trace).mounts = machine.mounts := by
  refine StepRun.foldl_frame mounts (fun event hevent now => ?_) machine
  exact now.mounts_after_of_idle (Bool.eq_false_iff.mpr (List.any_eq_false.mp hidle event hevent))

theorem files_run_of_ne {trace : List StorageEvent} {path : Str}
    (hother : ∀ event ∈ trace, ∀ content, event.effect ≠ .writeFile path content) :
    (machine.run rewrite trace).files path = machine.files path :=
  StepRun.foldl_frame (fun now : Machine Disks => now.files path)
    (fun event hevent now => now.files_after_of_ne (hother event hevent)) machine

end Frame

end Machine

end PiCluster
