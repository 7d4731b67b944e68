/-
What the guard decides once the boot-disk checks have passed: which existing
layouts are kept, and which file systems a format without the confirmation flag
can destroy.
-/
import PiCluster.BootDisk

namespace PiCluster

open Text UnixPath SafetyGuard

/-- A file system on the device itself or on one of its listed partitions. -/
def CarriesFileSystem (target : BlockDevice) (allDevices : List BlockDevice) : Prop :=
  hasExistingFs target = true ∨
    ∃ device ∈ allDevices, device.parentDisk = some target.name ∧
      hasExistingFs device = true

/-- An unconfirmed format destroys no file system exactly when no listed
partition carries one, or the guard stops the target for another reason: a file
system on the disk node itself, the boot-disk checks, or a mounted target with a
role that has no storage. -/
theorem evaluateFormat_unconfirmed_blank_iff (target : BlockDevice) (desiredRole : NodeRole)
    (mountTable : MountTable) (allDevices : List BlockDevice) :
    (evaluateFormat target desiredRole false mountTable allDevices =
        .ok .proceedWithFormat → ¬ CarriesFileSystem target allDevices) ↔
      (∀ device ∈ allDevices, device.parentDisk = some target.name →
          hasExistingFs device = false) ∨
        hasExistingFs target = true ∨
        BootRefused target mountTable allDevices ∨
        (target.mountPoints ≠ [] ∧ expectedMount desiredRole = none) := by
  rw [evaluateFormat_eq_proceed_iff]
  constructor
  · intro hblank
    by_contra hnone
    simp only [not_or, not_and, ne_eq] at hnone
    obtain ⟨hchild, hself, hpass, hrole⟩ := hnone
    have hfalls : FallsThrough target desiredRole := by
      by_cases hmounts : target.mountPoints = []
      · exact Or.inl hmounts
      · obtain ⟨mount, hmount⟩ := Option.ne_none_iff_exists'.mp (hrole hmounts)
        refine Or.inr ⟨mount, hmount, ?_⟩
        rintro ⟨_, hfs⟩
        exact hself (by simp [hasExistingFs, hfs])
    refine hblank ⟨hpass, hfalls, fun hfs => absurd hfs hself⟩ (Or.inr ?_)
    push Not at hchild
    obtain ⟨device, hmem, hparent, hfs⟩ := hchild
    exact ⟨device, hmem, hparent, by simpa using hfs⟩
  · rintro hcases ⟨hpass, hfalls, hconfirmed⟩ (hself | ⟨device, hmem, hparent, hfs⟩)
    · simpa using hconfirmed hself
    · rcases hcases with hchild | hself | hrefused | ⟨hmounts, hrole⟩
      · simp [hchild device hmem hparent] at hfs
      · simpa using hconfirmed hself
      · exact hpass hrefused
      · rcases hfalls with hnil | ⟨mount, hmount, _⟩
        · exact hmounts hnil
        · simp [hrole] at hmount

namespace BootDiskWitness

/-- The system runs from another disk; the partition carries `ext4` and the
disk node itself carries nothing. -/
theorem unconfirmed_format_destroys_partition :
    evaluateFormat (disk (rootOn "/dev/sda1".toList)) .worker false
        (rootOn "/dev/sda1".toList)
        [disk (rootOn "/dev/sda1".toList), part (rootOn "/dev/sda1".toList)] =
        .ok .proceedWithFormat ∧
      part (rootOn "/dev/sda1".toList) ∈
        [disk (rootOn "/dev/sda1".toList), part (rootOn "/dev/sda1".toList)] ∧
      (part (rootOn "/dev/sda1".toList)).parentDisk =
        some (disk (rootOn "/dev/sda1".toList)).name ∧
      (part (rootOn "/dev/sda1".toList)).fsType = some ext4 := by
  refine ⟨rfl, by simp, by decide, by decide⟩

end BootDiskWitness

end PiCluster
