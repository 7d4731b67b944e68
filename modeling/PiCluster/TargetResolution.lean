/-
Which disk an explicit identifier resolves to.  The search takes the first
eligible match in the order of kernel names, so it is unambiguous when at most
one eligible disk is named, and survives a reboot when the first match does not
depend on how the kernel numbered the disks.
-/
import Mathlib.Logic.Equiv.Basic
import PiCluster.Provision

namespace PiCluster

open Text UnixPath

namespace BlockDevice

/-- The identifier is the path of the kernel's device node. -/
def NamedByNode (device : BlockDevice) (id : Str) : Prop :=
  components device.devPath = components id

/-- The identifier is the UUID of the file system, with or without its tag, or
the end of a by-id link. -/
def NamedStably (device : BlockDevice) (id : Str) : Prop :=
  (∃ uuid, device.uuid = some uuid ∧ (id = uuid ∨ id = "UUID=".toList ++ uuid)) ∨
    ∃ path ∈ device.byIdPaths, components id <:+ components path

def Named (device : BlockDevice) (id : Str) : Prop :=
  device.NamedByNode id ∨ device.NamedStably id

theorem link_matches_iff (path id : Str) :
    (pathEq path id || pathEndsWith path id) = true ↔ components id <:+ components path := by
  simp only [pathEq, pathEndsWith, Bool.or_eq_true, beq_iff_eq, List.isSuffixOf_iff_suffix]
  constructor
  · rintro (heq | hsuffix)
    · exact (congrArg (components id <:+ ·) heq).mpr List.suffix_rfl
    · exact hsuffix
  · exact Or.inr

theorem matchesIdentifier_iff (device : BlockDevice) (id : Str) :
    device.matchesIdentifier id = true ↔ device.Named id := by
  unfold matchesIdentifier Named NamedByNode NamedStably
  rw [Bool.or_eq_true, Bool.or_eq_true, List.any_eq_true, or_assoc]
  simp only [link_matches_iff]
  rw [pathEq, beq_iff_eq]
  apply or_congr_right
  apply or_congr_left
  cases device.uuid with
  | none => simp
  | some uuid =>
      rw [Bool.or_eq_true, beq_iff_eq, beq_iff_eq, eq_comm]
      simp

end BlockDevice

namespace DeviceDiscovery

section Search

variable {sysfsRoot : Str} {sysfs : SysfsRoot} {byIdDir : List ByIdLink}
  {mountTable : MountTable} {desiredRole : NodeRole} {eligible : List BlockDevice} {id : Str}

/-- With an identifier the resolution is the first eligible match. -/
theorem resolveTargetDisk_some
    (hscan : scanEligibleDevices sysfsRoot sysfs byIdDir mountTable desiredRole =
      .ok eligible) (id : Str) :
    resolveTargetDisk (some id) sysfsRoot sysfs byIdDir mountTable desiredRole =
      match eligible.find? fun device => device.matchesIdentifier id with
      | some device => .ok device
      | none => .error (notFoundError id) := by
  rw [resolveTargetDisk, hscan]
  rfl

theorem resolveTargetDisk_some_eq_ok_iff
    (hscan : scanEligibleDevices sysfsRoot sysfs byIdDir mountTable desiredRole =
      .ok eligible) (id : Str) (device : BlockDevice) :
    resolveTargetDisk (some id) sysfsRoot sysfs byIdDir mountTable desiredRole = .ok device ↔
      eligible.find? (fun device => device.matchesIdentifier id) = some device := by
  rw [resolveTargetDisk_some hscan]
  cases eligible.find? fun device => device.matchesIdentifier id <;> simp

/-- A search finds the only match exactly when no two elements match. -/
theorem find?_only_iff {α : Type} {p : α → Bool} {xs : List α} :
    (∀ x, xs.find? p = some x → xs.filter p = [x]) ↔
      xs.Pairwise fun left right => ¬ (p left = true ∧ p right = true) := by
  induction xs with
  | nil => simp
  | cons head rest ih =>
      rw [List.pairwise_cons, ← ih]
      cases hhead : p head with
      | false => simp [hhead]
      | true =>
          have hrest : rest.filter p = [] ↔ ∀ x ∈ rest, p x = false := by
            simp
          simp only [List.find?_cons, hhead, List.filter_cons, ↓reduceIte,
            Option.some.injEq, forall_eq', List.cons.injEq, true_and, hrest]
          constructor
          · intro hnone
            refine ⟨fun x hx => by simp [hnone x hx], ?_⟩
            intro x hfind
            have hx := hnone x (List.mem_of_find?_eq_some hfind)
            rw [List.find?_some hfind] at hx
            cases hx
          · rintro ⟨hnone, _⟩ x hx
            simpa using hnone x hx

/-- An explicit identifier resolves to the only eligible disk it matches, or not
at all, exactly when it names no two eligible disks. -/
theorem resolveTargetDisk_unambiguous_iff (sysfsRoot : Str) (sysfs : SysfsRoot)
    (byIdDir : List ByIdLink) (mountTable : MountTable) (desiredRole : NodeRole) (id : Str) :
    (∀ device,
        resolveTargetDisk (some id) sysfsRoot sysfs byIdDir mountTable desiredRole =
          .ok device →
        ∃ eligible,
          scanEligibleDevices sysfsRoot sysfs byIdDir mountTable desiredRole = .ok eligible ∧
          eligible.filter (fun device => device.matchesIdentifier id) = [device]) ↔
      ∀ eligible,
        scanEligibleDevices sysfsRoot sysfs byIdDir mountTable desiredRole = .ok eligible →
        eligible.Pairwise fun left right => ¬ (left.Named id ∧ right.Named id) := by
  simp only [← BlockDevice.matchesIdentifier_iff]
  cases hscan : scanEligibleDevices sysfsRoot sysfs byIdDir mountTable desiredRole with
  | error reason =>
      have hfail : resolveTargetDisk (some id) sysfsRoot sysfs byIdDir mountTable
          desiredRole = .error reason := by
        rw [resolveTargetDisk, hscan]
        rfl
      simp [hfail]
  | ok eligible =>
      simp only [resolveTargetDisk_some_eq_ok_iff hscan, Except.ok.injEq, exists_eq_left',
        forall_eq', find?_only_iff]

end Search

/-- In a sorted list a search stops at the least match. -/
theorem find?_eq_some_iff_least {α : Type} {le : α → α → Prop} {p : α → Bool} {xs : List α}
    (hsorted : xs.Pairwise le) (hrefl : ∀ x, le x x)
    (hantisymm : ∀ x ∈ xs, ∀ y ∈ xs, le x y → le y x → x = y) (x : α) :
    xs.find? p = some x ↔ x ∈ xs ∧ p x = true ∧ ∀ y ∈ xs, p y = true → le x y := by
  have hleast : ∀ found, xs.find? p = some found →
      ∀ y ∈ xs, p y = true → le found y := by
    intro found hfound y hy hp
    obtain ⟨_, before, after, rfl, hbefore⟩ := List.find?_eq_some_iff_append.mp hfound
    rcases List.mem_append.mp hy with hy | hy
    · have hnot := hbefore y hy
      simp [hp] at hnot
    · rcases List.mem_cons.mp hy with rfl | hy
      · exact hrefl y
      · exact (List.pairwise_cons.mp (List.pairwise_append.mp hsorted).2.1).1 y hy
  constructor
  · intro hfound
    exact ⟨List.mem_of_find?_eq_some hfound, List.find?_some hfound, hleast x hfound⟩
  · rintro ⟨hx, hp, hxleast⟩
    obtain ⟨found, hfound⟩ : ∃ found, xs.find? p = some found := by
      rw [← Option.isSome_iff_exists, List.find?_isSome]
      exact ⟨x, hx, hp⟩
    have hmem := List.mem_of_find?_eq_some hfound
    have heq := hantisymm found hmem x hx (hleast found hfound x hx hp)
      (hxleast found hmem (List.find?_some hfound))
    rw [hfound, heq]

/-- The first eligible disk, by kernel name, that an identifier names. -/
structure IsFirst (eligible : List BlockDevice) (id : Str) (device : BlockDevice) : Prop where
  listed : device ∈ eligible
  named : device.Named id
  least : ∀ other ∈ eligible, other.Named id → strLe device.name other.name = true

/-- The same disk under another kernel name. -/
structure Renamed (names : Equiv.Perm Str) (before after : BlockDevice) : Prop where
  name : after.name = names before.name
  serial : after.serial = before.serial
  uuid : after.uuid = before.uuid
  byIdPaths : after.byIdPaths = before.byIdPaths

/-- The link leads to the renamed disk. -/
def renameLink (names : Equiv.Perm Str) (link : ByIdLink) : ByIdLink :=
  { link with targetName := link.targetName.map names }

theorem discoverByIdPaths_renameLink (names : Equiv.Perm Str) (name : Str)
    (byIdDir : List ByIdLink) :
    BlockDevice.discoverByIdPaths (names name) (byIdDir.map (renameLink names)) =
      BlockDevice.discoverByIdPaths name byIdDir := by
  have htarget : ∀ link : ByIdLink,
      ((renameLink names link).targetName == some (names name)) =
        (link.targetName == some name) := by
    intro link
    rw [Bool.eq_iff_iff, beq_iff_eq, beq_iff_eq, renameLink, ← Option.map_some]
    exact (Option.map_injective names.injective).eq_iff
  have hfilter : (byIdDir.map (renameLink names)).filter
        (fun link => link.targetName == some (names name)) =
      (byIdDir.filter fun link => link.targetName == some name).map (renameLink names) := by
    rw [List.filter_map]
    exact congrArg (List.map _) (List.filter_congr fun link _ => htarget link)
  rw [BlockDevice.discoverByIdPaths, BlockDevice.discoverByIdPaths, hfilter, List.map_map]
  rfl

/-- A disk whose files and links are the same under its new name. -/
theorem renamed_fromSysfs (names : Equiv.Perm Str) (sysfsRoot sysfsRoot' : Str)
    (block : SysfsBlock) (byIdDir : List ByIdLink) (mountTable mountTable' : MountTable) :
    Renamed names (.fromSysfs sysfsRoot block byIdDir mountTable)
      (.fromSysfs sysfsRoot' { block with name := names block.name }
        (byIdDir.map (renameLink names)) mountTable') where
  name := rfl
  serial := rfl
  uuid := rfl
  byIdPaths := discoverByIdPaths_renameLink names block.name byIdDir

/-- Two lists of eligible disks, read on two boots: the same disks, told apart by
their serials, under kernel names that were permuted. -/
structure SameDisks (names : Equiv.Perm Str) (before after : List BlockDevice) : Prop where
  forth : ∀ device ∈ before, ∃ device' ∈ after, Renamed names device device'
  back : ∀ device' ∈ after, ∃ device ∈ before, Renamed names device device'
  serials : ∀ device ∈ before, ∀ other ∈ before, device.serial = other.serial →
    device = other
  distinct : (before.map BlockDevice.name).Nodup
  distinct' : (after.map BlockDevice.name).Nodup

/-- The same disk by its serial, or an error on both boots. -/
def Agree : Except DeviceError BlockDevice → Except DeviceError BlockDevice → Prop
  | .ok device, .ok device' => device.serial = device'.serial
  | .error _, .error _ => True
  | _, _ => False

theorem sorted_scanAll {sysfsRoot : Str} {sysfs : SysfsRoot} {byIdDir : List ByIdLink}
    {mountTable : MountTable} {devices : List BlockDevice}
    (hscan : BlockDevice.scanAll sysfsRoot sysfs byIdDir mountTable = .ok devices) :
    devices.Pairwise fun left right => strLe left.name right.name = true := by
  have htotal : Std.Total fun left right : BlockDevice => strLe left.name right.name = true :=
    ⟨fun left right => strLe_total left.name right.name⟩
  have htrans : IsTrans BlockDevice fun left right => strLe left.name right.name = true :=
    ⟨fun _ _ _ => strLe_trans⟩
  cases sysfs with
  | missing =>
      obtain rfl := Except.ok.inj hscan
      exact List.Pairwise.nil
  | unreadable path error => cases hscan
  | entries blocks =>
      obtain rfl := Except.ok.inj hscan
      exact List.pairwise_insertionSort _ _

section Boots

variable {sysfsRoot sysfsRoot' : Str} {sysfs sysfs' : SysfsRoot}
  {byIdDir byIdDir' : List ByIdLink} {mountTable mountTable' : MountTable}
  {desiredRole : NodeRole} {eligible eligible' : List BlockDevice}

theorem sorted_eligible
    (hscan : scanEligibleDevices sysfsRoot sysfs byIdDir mountTable desiredRole =
      .ok eligible) :
    eligible.Pairwise fun left right => strLe left.name right.name = true := by
  unfold scanEligibleDevices at hscan
  cases hall : BlockDevice.scanAll sysfsRoot sysfs byIdDir mountTable with
  | error reason => simp [hall, bind, Except.bind] at hscan
  | ok devices =>
      simp only [hall, bind, Except.bind, pure, Except.pure, Except.ok.injEq] at hscan
      rw [← hscan]
      exact (sorted_scanAll hall).filter _

/-- The identifier resolves to the first eligible disk it names. -/
theorem resolveTargetDisk_eq_ok_iff_isFirst
    (hscan : scanEligibleDevices sysfsRoot sysfs byIdDir mountTable desiredRole =
      .ok eligible) (hdistinct : (eligible.map BlockDevice.name).Nodup) (id : Str)
    (device : BlockDevice) :
    resolveTargetDisk (some id) sysfsRoot sysfs byIdDir mountTable desiredRole =
      .ok device ↔ IsFirst eligible id device := by
  have hantisymm : ∀ x ∈ eligible, ∀ y ∈ eligible, strLe x.name y.name = true →
      strLe y.name x.name = true → x = y := fun x hx y hy hxy hyx =>
    List.inj_on_of_nodup_map hdistinct hx hy (strLe_antisymm hxy hyx)
  have hrefl : ∀ x : BlockDevice, strLe x.name x.name = true := fun x =>
    or_self_iff.mp (strLe_total x.name x.name)
  rw [resolveTargetDisk_some_eq_ok_iff hscan,
    find?_eq_some_iff_least (sorted_eligible hscan) hrefl hantisymm]
  simp only [BlockDevice.matchesIdentifier_iff]
  constructor
  · rintro ⟨hlisted, hnamed, hleast⟩
    exact ⟨hlisted, hnamed, hleast⟩
  · rintro ⟨hlisted, hnamed, hleast⟩
    exact ⟨hlisted, hnamed, hleast⟩

theorem resolveTargetDisk_some_eq_error_iff
    (hscan : scanEligibleDevices sysfsRoot sysfs byIdDir mountTable desiredRole =
      .ok eligible) (id : Str) :
    (∃ reason, resolveTargetDisk (some id) sysfsRoot sysfs byIdDir mountTable desiredRole =
      .error reason) ↔ ∀ device ∈ eligible, ¬ device.Named id := by
  rw [resolveTargetDisk_some hscan]
  simp only [← BlockDevice.matchesIdentifier_iff, ← List.find?_eq_none]
  cases eligible.find? fun device => device.matchesIdentifier id <;> simp

theorem Renamed.namedStably_iff {names : Equiv.Perm Str} {device device' : BlockDevice}
    (hrenamed : Renamed names device device') (id : Str) :
    device'.NamedStably id ↔ device.NamedStably id := by
  rw [BlockDevice.NamedStably, BlockDevice.NamedStably, hrenamed.uuid, hrenamed.byIdPaths]

/-- The first match is the same disk on both boots, or there is none. -/
def SameFirst (names : Equiv.Perm Str) (eligible eligible' : List BlockDevice) (id : Str) :
    Prop :=
  ((∀ device ∈ eligible, ¬ device.Named id) ∧ ∀ device' ∈ eligible', ¬ device'.Named id) ∨
    ∃ device device', Renamed names device device' ∧ IsFirst eligible id device ∧
      IsFirst eligible' id device'

theorem agree_iff_sameFirst {names : Equiv.Perm Str}
    (hscan : scanEligibleDevices sysfsRoot sysfs byIdDir mountTable desiredRole =
      .ok eligible)
    (hscan' : scanEligibleDevices sysfsRoot' sysfs' byIdDir' mountTable' desiredRole =
      .ok eligible')
    (hsame : SameDisks names eligible eligible') (id : Str) :
    Agree (resolveTargetDisk (some id) sysfsRoot sysfs byIdDir mountTable desiredRole)
        (resolveTargetDisk (some id) sysfsRoot' sysfs' byIdDir' mountTable' desiredRole) ↔
      SameFirst names eligible eligible' id := by
  have hfirst := resolveTargetDisk_eq_ok_iff_isFirst hscan hsame.distinct id
  have hfirst' := resolveTargetDisk_eq_ok_iff_isFirst hscan' hsame.distinct' id
  have hnone := resolveTargetDisk_some_eq_error_iff hscan id
  have hnone' := resolveTargetDisk_some_eq_error_iff hscan' id
  constructor
  · intro hagree
    cases hresult : resolveTargetDisk (some id) sysfsRoot sysfs byIdDir mountTable
        desiredRole with
    | error reason =>
        cases hresult' : resolveTargetDisk (some id) sysfsRoot' sysfs' byIdDir' mountTable'
            desiredRole with
        | error reason' => exact Or.inl ⟨hnone.mp ⟨_, hresult⟩, hnone'.mp ⟨_, hresult'⟩⟩
        | ok device' => simp [hresult, hresult', Agree] at hagree
    | ok device =>
        cases hresult' : resolveTargetDisk (some id) sysfsRoot' sysfs' byIdDir' mountTable'
            desiredRole with
        | error reason' => simp [hresult, hresult', Agree] at hagree
        | ok device' =>
            have hserial : device.serial = device'.serial := by
              simpa [hresult, hresult', Agree] using hagree
            have hisFirst := (hfirst device).mp hresult
            have hisFirst' := (hfirst' device').mp hresult'
            -- the serial tells which disk of the first boot the second result is
            obtain ⟨counterpart, hlisted, hrenamed⟩ := hsame.back device' hisFirst'.listed
            obtain rfl := hsame.serials device hisFirst.listed counterpart hlisted
              (hserial.trans hrenamed.serial)
            exact Or.inr ⟨device, device', hrenamed, hisFirst, hisFirst'⟩
  · rintro (⟨hnot, hnot'⟩ | ⟨device, device', hrenamed, hisFirst, hisFirst'⟩)
    · obtain ⟨reason, hresult⟩ := hnone.mpr hnot
      obtain ⟨reason', hresult'⟩ := hnone'.mpr hnot'
      simp [hresult, hresult', Agree]
    · rw [(hfirst device).mpr hisFirst, (hfirst' device').mpr hisFirst']
      exact hrenamed.serial.symm

theorem isFirst_of_only {id : Str} {device : BlockDevice} (hlisted : device ∈ eligible)
    (hnamed : device.Named id) (honly : ∀ other ∈ eligible, other.Named id → other = device) :
    IsFirst eligible id device := by
  refine ⟨hlisted, hnamed, fun other hother hothernamed => ?_⟩
  rw [honly other hother hothernamed]
  exact or_self_iff.mp (strLe_total device.name device.name)

/-- An identifier that is no device node and names at most one disk names the
same disk on both boots. -/
theorem sameFirst_of_stable {names : Equiv.Perm Str}
    (hsame : SameDisks names eligible eligible') {id : Str}
    (hnode : ∀ device ∈ eligible, ¬ device.NamedByNode id)
    (hnode' : ∀ device' ∈ eligible', ¬ device'.NamedByNode id)
    (honly : ∀ device ∈ eligible, ∀ other ∈ eligible, device.NamedStably id →
      other.NamedStably id → device = other) :
    SameFirst names eligible eligible' id := by
  have hstable : ∀ device ∈ eligible, device.Named id → device.NamedStably id :=
    fun device hlisted hnamed => hnamed.resolve_left (hnode device hlisted)
  have hstable' : ∀ device' ∈ eligible', device'.Named id → device'.NamedStably id :=
    fun device' hlisted hnamed => hnamed.resolve_left (hnode' device' hlisted)
  by_cases hsome : ∃ device ∈ eligible, device.NamedStably id
  · obtain ⟨device, hlisted, hnamed⟩ := hsome
    obtain ⟨device', hlisted', hrenamed⟩ := hsame.forth device hlisted
    have honly' : ∀ other' ∈ eligible', other'.Named id → other' = device' := by
      intro other' hother' hothernamed'
      obtain ⟨other, hother, hrenamed'⟩ := hsame.back other' hother'
      have hstably := (hrenamed'.namedStably_iff id).mp (hstable' other' hother' hothernamed')
      obtain rfl := honly device hlisted other hother hnamed hstably
      exact List.inj_on_of_nodup_map hsame.distinct' hother' hlisted'
        (hrenamed'.name.trans hrenamed.name.symm)
    refine Or.inr ⟨device, device', hrenamed, isFirst_of_only hlisted (Or.inr hnamed) ?_,
      isFirst_of_only hlisted' (Or.inr ((hrenamed.namedStably_iff id).mpr hnamed)) honly'⟩
    intro other hother hothernamed
    exact honly other hother device hlisted (hstable other hother hothernamed) hnamed
  · refine Or.inl ⟨fun device hlisted hnamed =>
      hsome ⟨device, hlisted, hstable device hlisted hnamed⟩, ?_⟩
    intro device' hlisted' hnamed'
    obtain ⟨device, hlisted, hrenamed⟩ := hsame.back device' hlisted'
    exact hsome ⟨device, hlisted,
      (hrenamed.namedStably_iff id).mp (hstable' device' hlisted' hnamed')⟩

/-- An identifier that can only mean one disk of a boot: the disks share no UUID, link or
device node, and it is not both a node and one of the others. -/
structure OneMeaning (eligible eligible' : List BlockDevice) (id : Str) : Prop where
  stable : ∀ device ∈ eligible, ∀ other ∈ eligible, device.NamedStably id →
    other.NamedStably id → device = other
  node : ∀ device ∈ eligible, ∀ other ∈ eligible, device.NamedByNode id →
    other.NamedByNode id → device = other
  node' : ∀ device' ∈ eligible', ∀ other' ∈ eligible', device'.NamedByNode id →
    other'.NamedByNode id → device' = other'
  apart : ∀ device ∈ eligible, device.NamedStably id →
    (∀ other ∈ eligible, ¬ other.NamedByNode id) ∧ ∀ other' ∈ eligible', ¬ other'.NamedByNode id

/-- The same disk has the identifier as its device node on both boots, or none has. -/
def SameNode (names : Equiv.Perm Str) (eligible eligible' : List BlockDevice) (id : Str) :
    Prop :=
  ((∀ device ∈ eligible, ¬ device.NamedByNode id) ∧
      ∀ device' ∈ eligible', ¬ device'.NamedByNode id) ∨
    ∃ device ∈ eligible, ∃ device' ∈ eligible', Renamed names device device' ∧
      device.NamedByNode id ∧ device'.NamedByNode id

theorem SameFirst.sameNode {names : Equiv.Perm Str} {id : Str}
    (hone : OneMeaning eligible eligible' id) (hfirst : SameFirst names eligible eligible' id) :
    SameNode names eligible eligible' id := by
  rcases hfirst with ⟨hnot, hnot'⟩ | ⟨device, device', hrenamed, hisFirst, hisFirst'⟩
  · exact Or.inl ⟨fun device hlisted hnode => hnot device hlisted (Or.inl hnode),
      fun device' hlisted' hnode' => hnot' device' hlisted' (Or.inl hnode')⟩
  · rcases hisFirst.named with hnode | hstably
    · have hnode' : device'.NamedByNode id := by
        refine hisFirst'.named.resolve_right fun hstably' => ?_
        have hstably := (hrenamed.namedStably_iff id).mp hstably'
        exact (hone.apart device hisFirst.listed hstably).1 device hisFirst.listed hnode
      exact Or.inr ⟨device, hisFirst.listed, device', hisFirst'.listed, hrenamed, hnode, hnode'⟩
    · exact Or.inl (hone.apart device hisFirst.listed hstably)

theorem SameNode.sameFirst {names : Equiv.Perm Str} {id : Str}
    (hsame : SameDisks names eligible eligible') (hone : OneMeaning eligible eligible' id)
    (hnodes : SameNode names eligible eligible' id) : SameFirst names eligible eligible' id := by
  rcases hnodes with ⟨hnot, hnot'⟩ | ⟨device, hlisted, device', hlisted', hrenamed, hnode, hnode'⟩
  · exact sameFirst_of_stable hsame hnot hnot' hone.stable
  · have hunstable : ∀ other ∈ eligible, ¬ other.NamedStably id := fun other hother hstably =>
      (hone.apart other hother hstably).1 device hlisted hnode
    refine Or.inr ⟨device, device', hrenamed, isFirst_of_only hlisted (Or.inl hnode) ?_,
      isFirst_of_only hlisted' (Or.inl hnode') ?_⟩
    · intro other hother hnamed
      exact hone.node other hother device hlisted
        (hnamed.resolve_right (hunstable other hother)) hnode
    · intro other' hother' hnamed'
      obtain ⟨other, hother, hrenamed'⟩ := hsame.back other' hother'
      have hunstable' : ¬ other'.NamedStably id := fun hstably' =>
        hunstable other hother ((hrenamed'.namedStably_iff id).mp hstably')
      exact hone.node' other' hother' device' hlisted' (hnamed'.resolve_right hunstable') hnode'

/-- Two boots with permuted kernel names resolve an identifier to the same disk
exactly when its first match is the same disk, as it is for an identifier that is
no device node and names at most one disk.  For one that can only mean one disk this
is to say that it is the device node of the same disk on both boots, or of none. -/
theorem resolveTargetDisk_renaming_iff {names : Equiv.Perm Str}
    (hscan : scanEligibleDevices sysfsRoot sysfs byIdDir mountTable desiredRole =
      .ok eligible)
    (hscan' : scanEligibleDevices sysfsRoot' sysfs' byIdDir' mountTable' desiredRole =
      .ok eligible')
    (hsame : SameDisks names eligible eligible') (id : Str) :
    (Agree (resolveTargetDisk (some id) sysfsRoot sysfs byIdDir mountTable desiredRole)
        (resolveTargetDisk (some id) sysfsRoot' sysfs' byIdDir' mountTable' desiredRole) ↔
      SameFirst names eligible eligible' id) ∧
      ((∀ device ∈ eligible, ¬ device.NamedByNode id) →
        (∀ device' ∈ eligible', ¬ device'.NamedByNode id) →
        (∀ device ∈ eligible, ∀ other ∈ eligible, device.NamedStably id →
          other.NamedStably id → device = other) →
        SameFirst names eligible eligible' id) ∧
      (OneMeaning eligible eligible' id →
        (SameFirst names eligible eligible' id ↔ SameNode names eligible eligible' id)) := by
  refine ⟨agree_iff_sameFirst hscan hscan' hsame id, sameFirst_of_stable hsame, ?_⟩
  intro hone
  exact ⟨SameFirst.sameNode hone, SameNode.sameFirst hsame hone⟩

end Boots

namespace ResolutionWitness

def sysfsRoot : Str := "/sys/class/block".toList

def first : Str := "sda".toList

def second : Str := "sdb".toList

def alphaLink : Str := "/dev/disk/by-id/ata-alpha".toList

/-- A disk with its serial and the UUID of its file system. -/
def block (name serial uuid : Str) : SysfsBlock :=
  ⟨name, none, false, some ("ID_FS_UUID=".toList ++ uuid), none, some serial⟩

def alphaBlock (name : Str) : SysfsBlock := block name "A1".toList "aaaa".toList

def betaBlock (name : Str) : SysfsBlock := block name "B2".toList "bbbb".toList

/-- Two disks under given kernel names, each with a link. -/
def blocks (alpha beta : Str) : SysfsRoot :=
  .entries [alphaBlock alpha, betaBlock beta]

def links (alpha beta : Str) : List ByIdLink :=
  [⟨alphaLink, some alpha⟩, ⟨"/dev/disk/by-id/ata-beta".toList, some beta⟩]

/-- The system runs from a card. -/
def mounts : MountTable := ⟨[⟨"/dev/mmcblk0p2".toList, ['/'], "ext4".toList, []⟩]⟩

def alphaDisk (alpha beta : Str) : BlockDevice :=
  .fromSysfs sysfsRoot (alphaBlock alpha) (links alpha beta) mounts

def betaDisk (alpha beta : Str) : BlockDevice :=
  .fromSysfs sysfsRoot (betaBlock beta) (links alpha beta) mounts

theorem scan_alpha_first :
    scanEligibleDevices sysfsRoot (blocks first second) (links first second) mounts .worker =
      .ok [alphaDisk first second, betaDisk first second] := by
  rfl

theorem scan_beta_first :
    scanEligibleDevices sysfsRoot (blocks second first) (links second first) mounts .worker =
      .ok [betaDisk second first, alphaDisk second first] := by
  rfl

/-- The empty identifier ends every link: the first of two disks is taken. -/
theorem empty_id_takes_first :
    scanEligibleDevices sysfsRoot (blocks first second) (links first second) mounts .worker =
        .ok [alphaDisk first second, betaDisk first second] ∧
      [alphaDisk first second, betaDisk first second].filter
        (fun device => device.matchesIdentifier []) =
        [alphaDisk first second, betaDisk first second] ∧
      resolveTargetDisk (some []) sysfsRoot (blocks first second) (links first second) mounts
        .worker = .ok (alphaDisk first second) := by
  refine ⟨scan_alpha_first, rfl, ?_⟩
  rw [resolveTargetDisk_some scan_alpha_first]
  rfl

theorem sameDisks_swapped :
    SameDisks (Equiv.swap first second)
      [alphaDisk first second, betaDisk first second]
      [betaDisk second first, alphaDisk second first] := by
  have hfirst : Equiv.swap first second first = second := Equiv.swap_apply_left first second
  have hsecond : Equiv.swap first second second = first := Equiv.swap_apply_right first second
  have hlinks : (links first second).map (renameLink (Equiv.swap first second)) =
      links second first := by
    simp [links, renameLink, hfirst, hsecond]
  have halpha : Renamed (Equiv.swap first second) (alphaDisk first second)
      (alphaDisk second first) := by
    have hrenamed := renamed_fromSysfs (Equiv.swap first second) sysfsRoot sysfsRoot
      (alphaBlock first) (links first second) mounts mounts
    simp only [alphaBlock, block, hfirst, hlinks] at hrenamed
    exact hrenamed
  have hbeta : Renamed (Equiv.swap first second) (betaDisk first second)
      (betaDisk second first) := by
    have hrenamed := renamed_fromSysfs (Equiv.swap first second) sysfsRoot sysfsRoot
      (betaBlock second) (links first second) mounts mounts
    simp only [betaBlock, block, hsecond, hlinks] at hrenamed
    exact hrenamed
  constructor
  case forth =>
    rw [List.forall_mem_cons, List.forall_mem_singleton]
    exact ⟨⟨_, by simp, halpha⟩, ⟨_, by simp, hbeta⟩⟩
  case back =>
    rw [List.forall_mem_cons, List.forall_mem_singleton]
    exact ⟨⟨_, by simp, hbeta⟩, ⟨_, by simp, halpha⟩⟩
  case serials =>
    have hne : some "A1".toList ≠ some "B2".toList := by decide
    intro device hdevice other hother hserial
    simp only [List.mem_cons, List.not_mem_nil, or_false] at hdevice hother
    rcases hdevice with rfl | rfl
    · rcases hother with rfl | rfl
      · rfl
      · exact absurd hserial hne
    · rcases hother with rfl | rfl
      · exact absurd hserial.symm hne
      · rfl
  case distinct => decide
  case distinct' => decide

/-- A device node names another disk after the reboot. -/
theorem device_node_changes_disk :
    SameDisks (Equiv.swap first second)
        [alphaDisk first second, betaDisk first second]
        [betaDisk second first, alphaDisk second first] ∧
      resolveTargetDisk (some "/dev/sda".toList) sysfsRoot (blocks first second)
        (links first second) mounts .worker = .ok (alphaDisk first second) ∧
      resolveTargetDisk (some "/dev/sda".toList) sysfsRoot (blocks second first)
        (links second first) mounts .worker = .ok (betaDisk second first) ∧
      (alphaDisk first second).serial ≠ (betaDisk second first).serial := by
  refine ⟨sameDisks_swapped, ?_, ?_, by decide⟩
  · rw [resolveTargetDisk_some scan_alpha_first]
    rfl
  · rw [resolveTargetDisk_some scan_beta_first]
    rfl

/-- A link names the same disk. -/
theorem link_keeps_disk :
    Agree
      (resolveTargetDisk (some alphaLink) sysfsRoot (blocks first second)
        (links first second) mounts .worker)
      (resolveTargetDisk (some alphaLink) sysfsRoot (blocks second first)
        (links second first) mounts .worker) := by
  have hiff := resolveTargetDisk_renaming_iff scan_alpha_first scan_beta_first
    sameDisks_swapped alphaLink
  have hnode : ∀ name, components ("/dev/".toList ++ name) = components alphaLink →
      name ≠ first ∧ name ≠ second := by
    intro name heq
    constructor
    · rintro rfl
      revert heq
      decide
    · rintro rfl
      revert heq
      decide
  refine hiff.1.mpr (hiff.2.1 ?_ ?_ ?_)
  · rw [List.forall_mem_cons, List.forall_mem_singleton]
    exact ⟨fun hnamed => (hnode first hnamed).1 rfl, fun hnamed => (hnode second hnamed).2 rfl⟩
  · rw [List.forall_mem_cons, List.forall_mem_singleton]
    exact ⟨fun hnamed => (hnode first hnamed).1 rfl, fun hnamed => (hnode second hnamed).2 rfl⟩
  · have hbeta : ¬ (betaDisk first second).NamedStably alphaLink := by
      intro hstably
      have hmatch := (BlockDevice.matchesIdentifier_iff _ _).mpr (Or.inr hstably)
      revert hmatch
      decide
    intro device hdevice other hother hnamed hnamed'
    simp only [List.mem_cons, List.not_mem_nil, or_false] at hdevice hother
    rcases hdevice with rfl | rfl
    · rcases hother with rfl | rfl
      · rfl
      · exact absurd hnamed' hbeta
    · exact absurd hnamed hbeta

end ResolutionWitness

end DeviceDiscovery

end PiCluster
