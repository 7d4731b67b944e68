/-
The fstab editor against its two readers.  What an update writes is what the
mount-table parser reads back, and a removal undoes an update except on lines
that only the removal's wider match rule catches.
-/
import PiCluster.Device
import PiCluster.Fstab

namespace PiCluster

open Text

namespace MountTable

/-- Blank lines and comments, which both readers pass over. -/
def Skips (line : Str) : Prop := trim line = [] ∨ startsWith (trim line) ['#'] = true

instance (line : Str) : Decidable (Skips line) := inferInstanceAs (Decidable (_ ∨ _))

/-- The entry of a line's columns, if there are enough of them. -/
def columnsEntry : List Str → Option MountEntry
  | device :: mountPoint :: fsType :: rest =>
      some ⟨device, mountPoint, fsType, match rest with
        | [] => []
        | column :: _ => column.splitOn ','⟩
  | _ => none

/-- The entry a line contributes to the table. -/
def entryOf (line : Str) : Option MountEntry :=
  if Skips line then none else columnsEntry (splitWhitespace (trim line))

def Accepts (line : Str) : Prop := Skips line ∨ (entryOf line).isSome = true

theorem parseLine_eq_ok_iff (lineIdx : Nat) (line : Str) (entry : Option MountEntry) :
    parseLine lineIdx line = .ok entry ↔ Accepts line ∧ entry = entryOf line := by
  by_cases hskip : Skips line
  · have hparse : parseLine lineIdx line = .ok none := if_pos hskip
    simp [hparse, Accepts, entryOf, hskip, eq_comm]
  · have hparse : parseLine lineIdx line = _ := if_neg hskip
    rw [hparse, Accepts, entryOf, if_neg hskip]
    split
    next rest hcolumns => cases rest <;> simp [hcolumns, columnsEntry, eq_comm]
    next hshort =>
      have hnone : columnsEntry (splitWhitespace (trim line)) = none := by
        unfold columnsEntry
        split
        next hcolumns => exact absurd hcolumns (hshort _ _ _ _)
        next => rfl
      simp [hnone, hskip]

@[simp] theorem skips_dropCr (line : Str) : Skips (dropCr line) ↔ Skips line := by
  simp [Skips]

@[simp] theorem entryOf_dropCr (line : Str) : entryOf (dropCr line) = entryOf line := by
  simp [entryOf]

@[simp] theorem accepts_dropCr (line : Str) : Accepts (dropCr line) ↔ Accepts line := by
  simp [Accepts]

theorem parseLines_eq_ok_iff (lineIdx : Nat) (content : List Str) (entries : List MountEntry) :
    parseLines lineIdx content = .ok entries ↔
      (∀ line ∈ content, Accepts line) ∧ entries = content.filterMap entryOf := by
  induction content generalizing lineIdx entries with
  | nil => simp [parseLines, eq_comm]
  | cons line rest ih =>
      have hhead := parseLine_eq_ok_iff lineIdx line
      cases hline : parseLine lineIdx line with
      | error reason =>
          have hreject : ¬ Accepts line := by
            intro haccepts
            simp [(hhead _).mpr ⟨haccepts, rfl⟩] at hline
          simp [parseLines, hline, bind, Except.bind, hreject]
      | ok entry =>
          obtain ⟨haccepts, rfl⟩ := (hhead entry).mp hline
          have hcons : (line :: rest).filterMap entryOf =
              (entryOf line).toList ++ rest.filterMap entryOf := by
            cases hentry : entryOf line <;> simp [hentry]
          rw [hcons, List.forall_mem_cons]
          cases hrest : parseLines (lineIdx + 1) rest with
          | error reason =>
              have hreject : ¬ ∀ other ∈ rest, Accepts other := by
                intro hall
                simp [(ih _ _).mpr ⟨hall, rfl⟩] at hrest
              simp [parseLines, hline, hrest, bind, Except.bind, hreject]
          | ok parsed =>
              obtain ⟨hall, rfl⟩ := (ih _ _).mp hrest
              have hparse : parseLines lineIdx (line :: rest) =
                  .ok ((entryOf line).toList ++ rest.filterMap entryOf) := by
                simp [parseLines, hline, hrest, bind, Except.bind, pure, Except.pure]
              rw [hparse]
              constructor
              · rintro ⟨⟩
                exact ⟨⟨haccepts, hall⟩, rfl⟩
              · rintro ⟨_, rfl⟩
                rfl

/-- A text is accepted when each of its lines is, and read line by line. -/
theorem parse_eq_ok_iff (content : Str) (table : MountTable) :
    parse content = .ok table ↔
      (∀ line ∈ lines content, Accepts line) ∧
        table.entries = (lines content).filterMap entryOf := by
  rw [← parseLines_eq_ok_iff 0, parse]
  cases parseLines 0 (lines content) with
  | error reason => simp [Except.map]
  | ok entries =>
      cases table
      simp [Except.map]

end MountTable

namespace FstabManager

open MountTable

theorem splitWhitespace_columns {line : Str} {entry : MountEntry}
    (hentry : entryOf line = some entry) :
    ¬ Skips line ∧ ∃ rest, splitWhitespace (trim line) =
      entry.device :: entry.mountPoint :: entry.fsType :: rest := by
  unfold entryOf at hentry
  split at hentry
  next => simp at hentry
  next hskip =>
    refine ⟨hskip, ?_⟩
    unfold columnsEntry at hentry
    split at hentry
    next device mountPoint fsType rest hcolumns =>
      obtain rfl := Option.some.inj hentry
      exact ⟨rest, hcolumns⟩
    next => simp at hentry

/-- The two readers agree on the keys of an entry. -/
theorem entryKeys_of_entryOf {line : Str} {entry : MountEntry}
    (hentry : entryOf line = some entry) :
    entryKeys line = some (entry.device, entry.mountPoint) := by
  obtain ⟨hskip, rest, hcolumns⟩ := splitWhitespace_columns hentry
  have hkeys : entryKeys line = _ := if_neg hskip
  rw [hkeys, hcolumns]

/-- The entry an update writes. -/
def writtenEntry (uuid mountPoint fsType options : Str) : MountEntry :=
  ⟨uuidSpec uuid, mountPoint, fsType, options.splitOn ','⟩

theorem entryOf_newLine {uuid mountPoint fsType options : Str}
    (hwords : WordFields uuid mountPoint fsType options) :
    entryOf (newLine uuid mountPoint fsType options) =
      some (writtenEntry uuid mountPoint fsType options) := by
  have hne := newLine_ne_nil uuid mountPoint fsType options
  have hcomment : startsWith (newLine uuid mountPoint fsType options) ['#'] = false := rfl
  simp [entryOf, Skips, (trim_newLine _ _ _ _).2, hne, hcomment,
    splitWhitespace_newLine hwords, columnsEntry, writtenEntry]

section Loop

variable {isMatch : Str → Bool} {line : Str}

/-- An update puts the line somewhere among the lines that do not match. -/
theorem exists_upsertLoop_eq (isMatch : Str → Bool) (line : Str) (content : List Str) :
    ∃ before after, upsertLoop isMatch line false content = before ++ line :: after ∧
      before ++ after = content.filter fun old => !isMatch old := by
  induction content with
  | nil => exact ⟨[], [], rfl, rfl⟩
  | cons head rest ih =>
      by_cases hmatch : isMatch head = true
      · refine ⟨[], rest.filter fun old => !isMatch old, ?_, ?_⟩
        · simp [upsertLoop, hmatch, upsertLoop_true]
        · simp [hmatch]
      · obtain ⟨before, after, hloop, hfilter⟩ := ih
        refine ⟨head :: before, after, ?_, ?_⟩
        · simp [upsertLoop, hmatch, hloop]
        · simp [hmatch, hfilter]

/-- The first match is replaced in place. -/
theorem upsertLoop_append_match {before after : List Str} {hit : Str}
    (hbefore : ∀ old ∈ before, isMatch old = false) (hhit : isMatch hit = true) :
    upsertLoop isMatch line false (before ++ hit :: after) =
      before ++ line :: after.filter fun old => !isMatch old := by
  induction before with
  | nil => simp [upsertLoop, hhit, upsertLoop_true]
  | cons head rest ih =>
      have hhead := hbefore head List.mem_cons_self
      have hrest := ih fun old hold => hbefore old (List.mem_cons_of_mem head hold)
      simp [upsertLoop, hhead, hrest]

/-- Without a match the line is appended. -/
theorem upsertLoop_of_no_match {content : List Str}
    (hcontent : ∀ old ∈ content, isMatch old = false) :
    upsertLoop isMatch line false content = content ++ [line] := by
  induction content with
  | nil => rfl
  | cons head rest ih =>
      have hhead := hcontent head List.mem_cons_self
      have hrest := ih fun old hold => hcontent old (List.mem_cons_of_mem head hold)
      simp [upsertLoop, hhead, hrest]

end Loop

/-- The entries an update leaves in place. -/
def keepsEntry (uuid mountPoint : Str) (entry : MountEntry) : Bool :=
  entry.mountPoint != mountPoint && entry.device != uuidSpec uuid

theorem filterMap_entryOf_filter (uuid mountPoint : Str) (content : List Str) :
    (content.filter fun old => !upsertMatches uuid mountPoint old).filterMap entryOf =
      (content.filterMap entryOf).filter (keepsEntry uuid mountPoint) := by
  induction content with
  | nil => rfl
  | cons head rest ih =>
      cases hentry : entryOf head with
      | none => by_cases hmatch : upsertMatches uuid mountPoint head <;>
          simp [hmatch, hentry, ih]
      | some entry =>
          have hkeeps : keepsEntry uuid mountPoint entry =
              !upsertMatches uuid mountPoint head := by
            simp [keepsEntry, upsertMatches, entryKeys_of_entryOf hentry, Bool.and_comm, bne]
          by_cases hmatch : upsertMatches uuid mountPoint head <;>
            simp [hmatch, hentry, ih, hkeeps]

theorem not_upsertMatches_of_kept {uuid mountPoint : Str} {content before after : List Str}
    (hkept : before ++ after =
      content.filter fun old => !upsertMatches uuid mountPoint old) {old : Str}
    (hold : old ∈ before ∨ old ∈ after) : upsertMatches uuid mountPoint old = false := by
  have hmem : old ∈ content.filter fun old => !upsertMatches uuid mountPoint old := by
    rw [← hkept]
    exact List.mem_append.mpr hold
  simpa using (List.mem_filter.mp hmem).2

/-- Once the line is in place an update leaves every line where it is. -/
theorem fileLines_upsertEntry_again {uuid mountPoint fsType options : Str}
    (hwords : WordFields uuid mountPoint fsType options) (fstab : Option Str)
    {before after : List Str}
    (hlines : fileLines fstab =
      (before ++ newLine uuid mountPoint fsType options :: after).map dropCr)
    (hbefore : ∀ old ∈ before, upsertMatches uuid mountPoint old = false)
    (hafter : ∀ old ∈ after, upsertMatches uuid mountPoint old = false) :
    fileLines (some (upsertEntry fstab uuid mountPoint fsType options)) =
      ((before.map dropCr ++ newLine uuid mountPoint fsType options ::
        after.map dropCr)).map dropCr := by
  rw [fileLines_upsertEntry hwords, hlines, List.map_append, List.map_cons]
  rw [upsertLoop_append_match]
  · have hkeep : (after.map dropCr).filter (fun old => !upsertMatches uuid mountPoint old) =
        after.map dropCr := by
      rw [List.filter_eq_self]
      intro line hline
      obtain ⟨old, hold, rfl⟩ := List.mem_map.mp hline
      simp [hafter old hold]
    rw [hkeep]
  · intro line hline
    obtain ⟨old, hold, rfl⟩ := List.mem_map.mp hline
    simp [hbefore old hold]
  · simp [upsertMatches_newLine hwords]

theorem filterMap_entryOf_dropCr (content : List Str) :
    (content.map dropCr).filterMap entryOf = content.filterMap entryOf := by
  rw [List.filterMap_map]
  exact congrArg (fun reader => content.filterMap reader) (funext entryOf_dropCr)

/-- A text of accepted lines around the written one. -/
theorem parse_around_newLine {uuid mountPoint fsType options : Str}
    (hwords : WordFields uuid mountPoint fsType options) {text : Str} {before after : List Str}
    (hlines : lines text =
      (before ++ newLine uuid mountPoint fsType options :: after).map dropCr)
    (haccepts : ∀ old ∈ before ++ after, Accepts old) :
    parse text = .ok ⟨before.filterMap entryOf ++
      writtenEntry uuid mountPoint fsType options :: after.filterMap entryOf⟩ := by
  have hwritten : Accepts (newLine uuid mountPoint fsType options) :=
    Or.inr (by simp [entryOf_newLine hwords])
  rw [parse_eq_ok_iff, hlines, filterMap_entryOf_dropCr]
  constructor
  · intro line hline
    obtain ⟨old, hold, rfl⟩ := List.mem_map.mp hline
    rw [accepts_dropCr]
    rcases List.mem_append.mp hold with hbefore | hrest
    · exact haccepts old (List.mem_append_left after hbefore)
    · rcases List.mem_cons.mp hrest with rfl | hafter
      · exact hwritten
      · exact haccepts old (List.mem_append_right before hafter)
  · simp [entryOf_newLine hwords]

/-- Among entries mounted elsewhere the written one is the only entry of its
mount point, and the one a lookup finds. -/
theorem written_unique {uuid mountPoint fsType options : Str} {before after : List MountEntry}
    (helse : ∀ entry ∈ before ++ after, entry.mountPoint ≠ mountPoint) :
    (before ++ writtenEntry uuid mountPoint fsType options :: after).countP
        (fun entry => entry.mountPoint == mountPoint) = 1 ∧
      findByMountPoint ⟨before ++ writtenEntry uuid mountPoint fsType options :: after⟩
        mountPoint = some (writtenEntry uuid mountPoint fsType options) := by
  have hself : (writtenEntry uuid mountPoint fsType options).mountPoint = mountPoint := rfl
  have hbefore : ∀ entry ∈ before, ¬ (entry.mountPoint == mountPoint) = true := by
    intro entry hentry
    simpa using helse entry (List.mem_append_left after hentry)
  have hafter : ∀ entry ∈ after, ¬ (entry.mountPoint == mountPoint) = true := by
    intro entry hentry
    simpa using helse entry (List.mem_append_right before hentry)
  constructor
  · rw [List.countP_append, List.countP_cons, List.countP_eq_zero.mpr hbefore,
      List.countP_eq_zero.mpr hafter]
    simp [hself]
  · rw [findByMountPoint, List.find?_append, List.find?_eq_none.mpr hbefore]
    simp [hself]

/-- The parser reads an update back: the written entry stands among the former
entries that share neither key with it, and writing it again changes nothing. -/
theorem parse_upsertEntry {uuid mountPoint fsType options : Str}
    (hwords : WordFields uuid mountPoint fsType options) {content : Str} {table : MountTable}
    (hparse : parse content = .ok table) :
    ∃ before after,
      parse (upsertEntry (some content) uuid mountPoint fsType options) =
        .ok ⟨before ++ writtenEntry uuid mountPoint fsType options :: after⟩ ∧
      before ++ after = table.entries.filter (keepsEntry uuid mountPoint) ∧
      (before ++ writtenEntry uuid mountPoint fsType options :: after).countP
        (fun entry => entry.mountPoint == mountPoint) = 1 ∧
      findByMountPoint ⟨before ++ writtenEntry uuid mountPoint fsType options :: after⟩
        mountPoint = some (writtenEntry uuid mountPoint fsType options) ∧
      parse (upsertEntry (some (upsertEntry (some content) uuid mountPoint fsType options))
          uuid mountPoint fsType options) =
        .ok ⟨before ++ writtenEntry uuid mountPoint fsType options :: after⟩ := by
  obtain ⟨haccepts, hentries⟩ := (parse_eq_ok_iff content table).mp hparse
  obtain ⟨before, after, hloop, hkept⟩ := exists_upsertLoop_eq
    (upsertMatches uuid mountPoint) (newLine uuid mountPoint fsType options) (lines content)
  have hlines : lines (upsertEntry (some content) uuid mountPoint fsType options) =
      (before ++ newLine uuid mountPoint fsType options :: after).map dropCr := by
    rw [← hloop]
    exact fileLines_upsertEntry hwords (some content)
  have hagain := fileLines_upsertEntry_again hwords
    (some (upsertEntry (some content) uuid mountPoint fsType options)) hlines
    (fun old hmem => not_upsertMatches_of_kept hkept (Or.inl hmem))
    (fun old hmem => not_upsertMatches_of_kept hkept (Or.inr hmem))
  have hold : ∀ old ∈ before ++ after, Accepts old := by
    intro old hmem
    rw [hkept] at hmem
    exact haccepts old (List.mem_of_mem_filter hmem)
  have hfilter : before.filterMap entryOf ++ after.filterMap entryOf =
      table.entries.filter (keepsEntry uuid mountPoint) := by
    rw [← List.filterMap_append, hkept, filterMap_entryOf_filter, hentries]
  have helse : ∀ entry ∈ before.filterMap entryOf ++ after.filterMap entryOf,
      entry.mountPoint ≠ mountPoint := by
    intro entry hentry
    rw [hfilter] at hentry
    have hkeep := (List.mem_filter.mp hentry).2
    simp only [keepsEntry, Bool.and_eq_true, bne_iff_ne] at hkeep
    exact hkeep.1
  obtain ⟨hcount, hfind⟩ := written_unique helse
  refine ⟨before.filterMap entryOf, after.filterMap entryOf,
    parse_around_newLine hwords hlines hold, hfilter, hcount, hfind, ?_⟩
  -- the second update strips carriage returns again, which no reader sees
  have hread := parse_around_newLine hwords hagain fun line hline => by
    rw [← List.map_append] at hline
    obtain ⟨old, hmem, rfl⟩ := List.mem_map.mp hline
    exact (accepts_dropCr old).mpr (hold old hmem)
  rwa [filterMap_entryOf_dropCr, filterMap_entryOf_dropCr] at hread

namespace ReadBackWitness

def uuid : Str := "ab12-cd34".toList
def mountPoint : Str := "/mnt/gfs-storage".toList
def options : Str := "defaults,noatime".toList

theorem wordFields : WordFields uuid mountPoint "ext4".toList options :=
  ⟨isWord_of_all (by decide) (by decide), isWord_of_all (by decide) (by decide),
    isWord_of_all (by decide) (by decide), isWord_of_all (by decide) (by decide)⟩

/-- A comment, the root file system and an older entry of the mount point. -/
def fstab : Str :=
  "# disks\n/dev/mmcblk0p2 / ext4 defaults 0 1\nUUID=old /mnt/gfs-storage ext4 ro 0 2\n".toList

def rootEntry : MountEntry :=
  ⟨"/dev/mmcblk0p2".toList, "/".toList, "ext4".toList, ["defaults".toList]⟩

def oldEntry : MountEntry :=
  ⟨"UUID=old".toList, mountPoint, "ext4".toList, ["ro".toList]⟩

theorem replaced_entry_read_back :
    parse fstab = .ok ⟨[rootEntry, oldEntry]⟩ ∧
      ∃ before after,
        parse (upsertEntry (some fstab) uuid mountPoint "ext4".toList options) =
          .ok ⟨before ++ writtenEntry uuid mountPoint "ext4".toList options :: after⟩ ∧
        before ++ after = [rootEntry] := by
  have hparse : parse fstab = .ok ⟨[rootEntry, oldEntry]⟩ := rfl
  obtain ⟨before, after, hread, hkept, _⟩ := parse_upsertEntry wordFields hparse
  exact ⟨hparse, before, after, hread, hkept.trans (by decide)⟩

end ReadBackWitness

section Undo

/-- Lines without blank ones and without trailing white space. -/
def nonBlank (content : List Str) : List Str := (content.map trimEnd).filter (· ≠ [])

def nonBlankLines (fstab : Option Str) : List Str := nonBlank (fileLines fstab)

theorem nonBlank_dropCr (content : List Str) :
    nonBlank (content.map dropCr) = nonBlank content := by
  simp [nonBlank, Function.comp_def]

theorem removeMatches_trimEnd (key line : Str) :
    removeMatches key (trimEnd line) = removeMatches key line := by
  simp only [removeMatches, entryKeys_eq_of_trimEnd_eq (trimEnd_trimEnd line)]

theorem nonBlank_filter (key : Str) (content : List Str) :
    nonBlank (content.filter fun line => !removeMatches key line) =
      (nonBlank content).filter fun line => !removeMatches key line := by
  have hcomp : (fun line => !removeMatches key line) ∘ trimEnd =
      fun line => !removeMatches key line :=
    funext fun line => congrArg not (removeMatches_trimEnd key line)
  have hmap : (content.map trimEnd).filter (fun line => !removeMatches key line) =
      (content.filter fun line => !removeMatches key line).map trimEnd := by
    rw [List.filter_map, hcomp]
  rw [nonBlank, nonBlank, List.filter_comm, hmap]

theorem nonBlankLines_removeEntry (fstab : Option Str) (key : Str) :
    nonBlankLines (removeEntry fstab key) =
      (nonBlankLines fstab).filter fun line => !removeMatches key line := by
  rw [nonBlankLines, nonBlankLines, ← nonBlank_filter]
  rcases fileLines_removeEntry fstab key with heq | ⟨heq, hnil⟩
  · rw [heq, nonBlank_dropCr]
  · rw [heq, hnil]
    rfl

theorem nonBlankLines_upsertEntry {uuid mountPoint fsType options : Str}
    (hwords : WordFields uuid mountPoint fsType options) {fstab : Option Str}
    (hfresh : ∀ line ∈ fileLines fstab, upsertMatches uuid mountPoint line = false) :
    nonBlankLines (some (upsertEntry fstab uuid mountPoint fsType options)) =
      nonBlankLines fstab ++ [newLine uuid mountPoint fsType options] := by
  have hne := newLine_ne_nil uuid mountPoint fsType options
  rw [nonBlankLines, fileLines_upsertEntry hwords, nonBlank_dropCr,
    upsertLoop_of_no_match hfresh, nonBlankLines, nonBlank, List.map_append,
    List.filter_append]
  simp [nonBlank, (trim_newLine uuid mountPoint fsType options).1, hne]

theorem trimEnd_ne_nil_of_keys {line spec mount : Str}
    (hkeys : entryKeys line = some (spec, mount)) : trimEnd line ≠ [] := by
  intro hnil
  have hblank : entryKeys line = entryKeys [] := entryKeys_eq_of_trimEnd_eq hnil
  rw [hkeys] at hblank
  cases hblank

/-- A removal catches no line exactly when no entry has the key in one of its
two places. -/
theorem removes_none_iff (fstab : Option Str) (key : Str) :
    (∀ line ∈ nonBlankLines fstab, removeMatches key line = false) ↔
      ∀ line ∈ fileLines fstab, ∀ spec mount, entryKeys line = some (spec, mount) →
        spec ≠ uuidSpec key ∧ spec ≠ key ∧ mount ≠ key := by
  constructor
  · intro hnone line hline spec mount hkeys
    have hmem : trimEnd line ∈ nonBlankLines fstab := by
      rw [nonBlankLines, nonBlank, List.mem_filter]
      exact ⟨List.mem_map_of_mem hline, by simpa using trimEnd_ne_nil_of_keys hkeys⟩
    have hmatch := hnone _ hmem
    rw [removeMatches_trimEnd] at hmatch
    simpa [removeMatches, hkeys, and_assoc] using hmatch
  · intro hkeys line hline
    obtain ⟨old, hold, rfl⟩ := List.mem_map.mp (List.mem_of_mem_filter hline)
    rw [removeMatches_trimEnd]
    cases hold' : entryKeys old with
    | none => simp [removeMatches, hold']
    | some keys => simpa [removeMatches, hold', and_assoc] using hkeys old hold _ _ hold'

/-- A removal by mount point undoes an update of a file without the update's
keys exactly when no entry has the mount point as its source, bare or as a
UUID. -/
theorem removeEntry_upsertEntry_iff {uuid mountPoint fsType options : Str}
    (hwords : WordFields uuid mountPoint fsType options) {fstab : Option Str}
    (hfresh : ∀ line ∈ fileLines fstab, ∀ spec mount, entryKeys line = some (spec, mount) →
      spec ≠ uuidSpec uuid ∧ mount ≠ mountPoint) :
    nonBlankLines (removeEntry
        (some (upsertEntry fstab uuid mountPoint fsType options)) mountPoint) =
      nonBlankLines fstab ↔
      ∀ line ∈ fileLines fstab, ∀ spec mount, entryKeys line = some (spec, mount) →
        spec ≠ uuidSpec mountPoint ∧ spec ≠ mountPoint := by
  have hnomatch : ∀ line ∈ fileLines fstab, upsertMatches uuid mountPoint line = false := by
    intro line hline
    cases hkeys : entryKeys line with
    | none => simp [upsertMatches, hkeys]
    | some keys => simpa [upsertMatches, hkeys] using hfresh line hline _ _ hkeys
  have hwritten : removeMatches mountPoint (newLine uuid mountPoint fsType options) = true := by
    simp [removeMatches, entryKeys_newLine hwords]
  rw [nonBlankLines_removeEntry, nonBlankLines_upsertEntry hwords hnomatch,
    List.filter_append, List.filter_singleton, hwritten]
  simp only [Bool.not_true, cond_false, List.append_nil, List.filter_eq_self,
    Bool.not_eq_true']
  rw [removes_none_iff]
  constructor
  · intro hkeys line hline spec mount hentry
    obtain ⟨huuid, hbare, _⟩ := hkeys line hline spec mount hentry
    exact ⟨huuid, hbare⟩
  · intro hkeys line hline spec mount hentry
    obtain ⟨huuid, hbare⟩ := hkeys line hline spec mount hentry
    exact ⟨huuid, hbare, (hfresh line hline spec mount hentry).2⟩

end Undo

namespace UndoWitness

open ReadBackWitness

/-- The storage is exported through a bind mount. -/
def bindFstab : Str := "/mnt/gfs-storage /export none bind 0 0\n".toList

theorem keys_of_single_line {fstab : Str} {only spec mount : Str}
    (hlines : fileLines (some fstab) = [only]) (hkeys : entryKeys only = some (spec, mount))
    {p : Str → Str → Prop} (hp : p spec mount) :
    ∀ line ∈ fileLines (some fstab), ∀ spec mount,
      entryKeys line = some (spec, mount) → p spec mount := by
  intro line hline spec' mount' hentry
  rw [hlines] at hline
  obtain rfl := List.mem_singleton.mp hline
  rw [hkeys] at hentry
  obtain ⟨rfl, rfl⟩ := Prod.mk.inj (Option.some.inj hentry)
  exact hp

theorem bind_mount_lost :
    (∀ line ∈ fileLines (some bindFstab), ∀ spec mount,
        entryKeys line = some (spec, mount) →
        spec ≠ uuidSpec uuid ∧ mount ≠ mountPoint) ∧
      nonBlankLines (some bindFstab) = ["/mnt/gfs-storage /export none bind 0 0".toList] ∧
      nonBlankLines (removeEntry
        (some (upsertEntry (some bindFstab) uuid mountPoint "ext4".toList options))
        mountPoint) = [] := by
  have hkeys : entryKeys "/mnt/gfs-storage /export none bind 0 0".toList =
      some ("/mnt/gfs-storage".toList, "/export".toList) := by decide
  exact ⟨keys_of_single_line (by decide) hkeys ⟨by decide, by decide⟩, by decide, by decide⟩

/-- Only the root file system. -/
def rootFstab : Str := "/dev/mmcblk0p2 / ext4 defaults 0 1\n".toList

theorem root_entry_restored :
    nonBlankLines (removeEntry
        (some (upsertEntry (some rootFstab) uuid mountPoint "ext4".toList options))
        mountPoint) = nonBlankLines (some rootFstab) := by
  have hlines : fileLines (some rootFstab) = ["/dev/mmcblk0p2 / ext4 defaults 0 1".toList] := by
    decide
  have hkeys : entryKeys "/dev/mmcblk0p2 / ext4 defaults 0 1".toList =
      some ("/dev/mmcblk0p2".toList, "/".toList) := by decide
  exact (removeEntry_upsertEntry_iff wordFields
    (keys_of_single_line hlines hkeys ⟨by decide, by decide⟩)).mpr
    (keys_of_single_line hlines hkeys ⟨by decide, by decide⟩)

end UndoWitness

end FstabManager

end PiCluster
