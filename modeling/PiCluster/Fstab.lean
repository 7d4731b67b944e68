/-
The fstab editor.  An update matches entry lines by either of two keys, puts the
new line in place of the first match and drops the others; a removal drops every
line that matches one of three keys.  Lines that are not entries are never
touched.
-/
import PiCluster.Lib.Text

namespace PiCluster

open Text

namespace FstabManager

/-- The two keys of an entry line: its spec and its mount point.  Blank lines,
comments and lines with one column have none. -/
def entryKeys (line : Str) : Option (Str × Str) :=
  let trimmed := trim line
  if trimmed = [] ∨ startsWith trimmed ['#'] then none
  else match splitWhitespace trimmed with
    | spec :: mountPoint :: _ => some (spec, mountPoint)
    | _ => none

def uuidSpec (uuid : Str) : Str := "UUID=".toList ++ uuid

/-- The line `upsert_entry` writes. -/
def newLine (uuid mountPoint fsType options : Str) : Str :=
  uuidSpec uuid ++ '\t' :: (mountPoint ++ '\t' :: (fsType ++ '\t' :: (options ++
    "\t0\t2".toList)))

/-- The match of `upsert_entry`: the same UUID spec or the same mount point. -/
def upsertMatches (uuid mountPoint line : Str) : Bool :=
  match entryKeys line with
  | some (spec, mount) => spec == uuidSpec uuid || mount == mountPoint
  | none => false

/-- The match of `remove_entry`: a UUID spec, a bare spec or a mount point. -/
def removeMatches (mountPointOrUuid line : Str) : Bool :=
  match entryKeys line with
  | some (spec, mount) => spec == uuidSpec mountPointOrUuid ||
      spec == mountPointOrUuid || mount == mountPointOrUuid
  | none => false

/-- The loop of `upsert_entry` with its `replaced` flag, and the push after it
when nothing was replaced. -/
def upsertLoop (isMatch : Str → Bool) (line : Str) : Bool → List Str → List Str
  | replaced, [] => if replaced then [] else [line]
  | replaced, old :: rest =>
      if isMatch old then
        if replaced then upsertLoop isMatch line true rest
        else line :: upsertLoop isMatch line true rest
      else old :: upsertLoop isMatch line replaced rest

/-- `format!("{}\n", lines.join("\n"))`. -/
def render (content : List Str) : Str := join ['\n'] content ++ ['\n']

/-- The content `upsert_entry` leaves behind; `none` is an absent file. -/
def upsertEntry (fstab : Option Str) (uuid mountPoint fsType options : Str) : Str :=
  let line := newLine uuid mountPoint fsType options
  match fstab with
  | none => line ++ ['\n']
  | some content =>
      render (upsertLoop (upsertMatches uuid mountPoint) line false (lines content))

/-- The content `remove_entry` leaves behind; an absent file stays absent. -/
def removeEntry (fstab : Option Str) (mountPointOrUuid : Str) : Option Str :=
  fstab.map fun content =>
    render ((lines content).filter fun line => !removeMatches mountPointOrUuid line)

/-- The lines of the file as both operations read them. -/
def fileLines (fstab : Option Str) : List Str := (fstab.map lines).getD []

@[simp] theorem entryKeys_dropCr (line : Str) : entryKeys (dropCr line) = entryKeys line := by
  simp [entryKeys]

theorem entryKeys_eq_of_trimEnd_eq {left right : Str} (heq : trimEnd left = trimEnd right) :
    entryKeys left = entryKeys right := by
  have htrim : trim left = trim right := by
    rw [← trim_trimEnd left, heq, trim_trimEnd]
  simp [entryKeys, htrim]

@[simp] theorem upsertMatches_dropCr (uuid mountPoint line : Str) :
    upsertMatches uuid mountPoint (dropCr line) = upsertMatches uuid mountPoint line := by
  simp [upsertMatches]

@[simp] theorem removeMatches_dropCr (key line : Str) :
    removeMatches key (dropCr line) = removeMatches key line := by
  simp [removeMatches]

/-- Entry fields as the callers supply them. -/
structure WordFields (uuid mountPoint fsType options : Str) : Prop where
  uuid : IsWord uuid
  mountPoint : IsWord mountPoint
  fsType : IsWord fsType
  options : IsWord options

theorem uuidSpec_ne_nil (uuid : Str) : uuidSpec uuid ≠ [] := List.cons_ne_nil _ _

theorem newLine_ne_nil (uuid mountPoint fsType options : Str) :
    newLine uuid mountPoint fsType options ≠ [] :=
  List.append_ne_nil_of_left_ne_nil (uuidSpec_ne_nil uuid) _

theorem isWord_uuidSpec {uuid : Str} (huuid : IsWord uuid) : IsWord (uuidSpec uuid) := by
  refine ⟨uuidSpec_ne_nil uuid, ?_⟩
  intro c hc
  rcases List.mem_append.mp hc with hc | hc
  · have hlit : ∀ c ∈ "UUID=".toList, isWhitespace c = false :=
      forall_mem_of_all (by decide)
    exact hlit c hc
  · exact huuid.2 c hc

theorem splitWhitespace_newLine {uuid mountPoint fsType options : Str}
    (hwords : WordFields uuid mountPoint fsType options) :
    splitWhitespace (newLine uuid mountPoint fsType options) =
      [uuidSpec uuid, mountPoint, fsType, options, ['0'], ['2']] := by
  have htab : isWhitespace '\t' = true := by decide
  have hend : splitWhitespace (options ++ "\t0\t2".toList) = [options, ['0'], ['2']] := by
    have htail : splitWhitespace "0\t2".toList = [['0'], ['2']] := by decide
    exact (splitWhitespace_word_append hwords.options htab "0\t2".toList).trans (by rw [htail])
  rw [newLine, splitWhitespace_word_append (isWord_uuidSpec hwords.uuid) htab,
    splitWhitespace_word_append hwords.mountPoint htab,
    splitWhitespace_word_append hwords.fsType htab, hend]

theorem trim_newLine (uuid mountPoint fsType options : Str) :
    trimEnd (newLine uuid mountPoint fsType options) =
        newLine uuid mountPoint fsType options ∧
      trim (newLine uuid mountPoint fsType options) =
        newLine uuid mountPoint fsType options := by
  have hne := newLine_ne_nil uuid mountPoint fsType options
  apply trim_eq_self hne
  · change isWhitespace 'U' = false
    decide
  · have hlast : (newLine uuid mountPoint fsType options).getLast hne = '2' := by
      simp [newLine]
    rw [hlast]
    decide

/-- The written line is an entry with the keys it was written for. -/
theorem entryKeys_newLine {uuid mountPoint fsType options : Str}
    (hwords : WordFields uuid mountPoint fsType options) :
    entryKeys (newLine uuid mountPoint fsType options) =
      some (uuidSpec uuid, mountPoint) := by
  have hne := newLine_ne_nil uuid mountPoint fsType options
  have hcomment : startsWith (newLine uuid mountPoint fsType options) ['#'] = false := rfl
  simp [entryKeys, (trim_newLine _ _ _ _).2, hne, hcomment, splitWhitespace_newLine hwords]

theorem upsertMatches_newLine {uuid mountPoint fsType options : Str}
    (hwords : WordFields uuid mountPoint fsType options) :
    upsertMatches uuid mountPoint (newLine uuid mountPoint fsType options) = true := by
  simp [upsertMatches, entryKeys_newLine hwords]

theorem newline_not_mem_newLine {uuid mountPoint fsType options : Str}
    (hwords : WordFields uuid mountPoint fsType options) :
    '\n' ∉ newLine uuid mountPoint fsType options := by
  have hspace : isWhitespace '\n' = true := by decide
  have hnot : ∀ {word : Str}, IsWord word → '\n' ∉ word := by
    intro word hword hmem
    simp [hword.2 _ hmem] at hspace
  have huuid := hnot (isWord_uuidSpec hwords.uuid)
  have hmount := hnot hwords.mountPoint
  have hfs := hnot hwords.fsType
  have hoptions := hnot hwords.options
  simp [newLine, huuid, hmount, hfs, hoptions]

section Loop

variable {isMatch : Str → Bool} {line : Str} {replaced : Bool} {content : List Str}

/-- Once a line was replaced, matching lines are only dropped. -/
theorem upsertLoop_true :
    upsertLoop isMatch line true content = content.filter fun old => !isMatch old := by
  induction content with
  | nil => simp [upsertLoop]
  | cons head rest ih =>
      by_cases hmatch : isMatch head = true <;> simp [upsertLoop, hmatch, ih]

theorem mem_upsertLoop {old : Str} (hold : old ∈ upsertLoop isMatch line replaced content) :
    old = line ∨ (old ∈ content ∧ isMatch old = false) := by
  induction content generalizing replaced with
  | nil =>
      cases replaced <;> simp [upsertLoop] at hold
      exact Or.inl hold
  | cons head rest ih =>
      by_cases hmatch : isMatch head = true
      · cases replaced with
        | true =>
            simp only [upsertLoop, hmatch, ↓reduceIte] at hold
            exact (ih hold).imp_right fun hrest => ⟨List.mem_cons_of_mem head hrest.1, hrest.2⟩
        | false =>
            simp only [upsertLoop, hmatch, ↓reduceIte, Bool.false_eq_true,
              List.mem_cons] at hold
            rcases hold with rfl | hold
            · exact Or.inl rfl
            · exact (ih hold).imp_right fun hrest =>
                ⟨List.mem_cons_of_mem head hrest.1, hrest.2⟩
      · simp only [upsertLoop, hmatch, Bool.false_eq_true, ↓reduceIte, List.mem_cons] at hold
        rcases hold with rfl | hold
        · exact Or.inr ⟨List.mem_cons_self, by simpa using hmatch⟩
        · exact (ih hold).imp_right fun hrest => ⟨List.mem_cons_of_mem head hrest.1, hrest.2⟩

/-- Lines that do not match keep their place. -/
theorem filter_sublist_upsertLoop :
    (content.filter fun old => !isMatch old).Sublist
      (upsertLoop isMatch line replaced content) := by
  induction content generalizing replaced with
  | nil => simp
  | cons head rest ih =>
      by_cases hmatch : isMatch head = true
      · cases replaced with
        | true => simpa [upsertLoop, hmatch] using ih
        | false => simpa [upsertLoop, hmatch] using List.Sublist.cons line ih
      · simpa [upsertLoop, hmatch] using ih

/-- A relation between the lines survives an update when it holds among the
lines that stay and between each of them and the new line. -/
theorem pairwise_upsertLoop {R : Str → Str → Prop}
    (hcontent : (content.filter fun old => !isMatch old).Pairwise R)
    (hline : ∀ old ∈ content, isMatch old = false → R old line ∧ R line old) :
    (upsertLoop isMatch line replaced content).Pairwise R := by
  induction content generalizing replaced with
  | nil => cases replaced <;> simp [upsertLoop]
  | cons head rest ih =>
      have htail : ∀ old ∈ rest, isMatch old = false → R old line ∧ R line old :=
        fun old hold => hline old (List.mem_cons_of_mem head hold)
      by_cases hmatch : isMatch head = true
      · have hrest : (rest.filter fun old => !isMatch old).Pairwise R := by
          simpa [hmatch] using hcontent
        cases replaced with
        | true => simpa [upsertLoop, hmatch] using ih hrest htail
        | false =>
            simp only [upsertLoop, hmatch, ↓reduceIte, Bool.false_eq_true,
              List.pairwise_cons]
            refine ⟨fun old hold => ?_, ih hrest htail⟩
            rw [upsertLoop_true, List.mem_filter] at hold
            exact (htail old hold.1 (by simpa using hold.2)).2
      · have hsplit : (∀ old ∈ rest, isMatch old = false → R head old) ∧
            (rest.filter fun old => !isMatch old).Pairwise R := by
          simpa [hmatch, List.pairwise_cons] using hcontent
        simp only [upsertLoop, hmatch, Bool.false_eq_true, ↓reduceIte, List.pairwise_cons]
        refine ⟨fun old hold => ?_, ih hsplit.2 htail⟩
        rcases mem_upsertLoop hold with rfl | ⟨hmem, hnot⟩
        · exact (hline head List.mem_cons_self (by simpa using hmatch)).1
        · exact hsplit.1 old hmem hnot

end Loop

theorem fileLines_render {content : List Str}
    (hcontent : ∀ line ∈ content, '\n' ∉ line) :
    fileLines (some (render content)) =
      if content = [] then [[]] else content.map dropCr := by
  simp only [fileLines, Option.map_some, Option.getD_some, render]
  exact lines_join_newline hcontent

theorem newline_not_mem_of_mem_fileLines {fstab : Option Str} {line : Str}
    (hline : line ∈ fileLines fstab) : '\n' ∉ line := by
  cases fstab with
  | none => simp [fileLines] at hline
  | some content => exact newline_not_mem_of_mem_lines hline

/-- After an update the file holds the lines of the loop, each without a
trailing carriage return. -/
theorem fileLines_upsertEntry {uuid mountPoint fsType options : Str}
    (hwords : WordFields uuid mountPoint fsType options) (fstab : Option Str) :
    fileLines (some (upsertEntry fstab uuid mountPoint fsType options)) =
      (upsertLoop (upsertMatches uuid mountPoint)
        (newLine uuid mountPoint fsType options) false (fileLines fstab)).map dropCr := by
  have hclean : ∀ old ∈ upsertLoop (upsertMatches uuid mountPoint)
      (newLine uuid mountPoint fsType options) false (fileLines fstab), '\n' ∉ old := by
    intro old hold
    rcases mem_upsertLoop hold with rfl | ⟨hmem, _⟩
    · exact newline_not_mem_newLine hwords
    · exact newline_not_mem_of_mem_fileLines hmem
  have hne : upsertLoop (upsertMatches uuid mountPoint)
      (newLine uuid mountPoint fsType options) false (fileLines fstab) ≠ [] := by
    cases fileLines fstab with
    | nil => simp [upsertLoop]
    | cons head rest =>
        unfold upsertLoop
        split <;> simp
  have hrender := fileLines_render hclean
  rw [if_neg hne] at hrender
  cases fstab with
  | none =>
      have hsingle : render [newLine uuid mountPoint fsType options] =
          newLine uuid mountPoint fsType options ++ ['\n'] := by
        simp [render, join, List.intercalate]
      simpa [fileLines, upsertLoop, upsertEntry, hsingle] using hrender
  | some content => exact hrender

theorem fileLines_removeEntry (fstab : Option Str) (mountPointOrUuid : Str) :
    fileLines (removeEntry fstab mountPointOrUuid) =
        ((fileLines fstab).filter fun line =>
          !removeMatches mountPointOrUuid line).map dropCr ∨
      fileLines (removeEntry fstab mountPointOrUuid) = [[]] ∧
        (fileLines fstab).filter (fun line => !removeMatches mountPointOrUuid line) = [] := by
  cases fstab with
  | none => exact Or.inl rfl
  | some content =>
      have hclean : ∀ line ∈ (lines content).filter fun line =>
          !removeMatches mountPointOrUuid line, '\n' ∉ line := fun line hline =>
        newline_not_mem_of_mem_lines (List.mem_of_mem_filter hline)
      have hrender := fileLines_render hclean
      by_cases hnil : (lines content).filter (fun line =>
          !removeMatches mountPointOrUuid line) = []
      · rw [if_pos hnil] at hrender
        exact Or.inr ⟨hrender, hnil⟩
      · rw [if_neg hnil] at hrender
        exact Or.inl hrender

/-- Some line is an entry for the mount point. -/
def HasEntry (fstab : Option Str) (mountPoint : Str) : Prop :=
  ∃ line ∈ fileLines fstab, ∃ spec, entryKeys line = some (spec, mountPoint)

theorem mem_upsertLoop_self {isMatch : Str → Bool} {line : Str} (content : List Str) :
    line ∈ upsertLoop isMatch line false content := by
  induction content with
  | nil => simp [upsertLoop]
  | cons head rest ih =>
      unfold upsertLoop
      split
      · simp
      · exact List.mem_cons_of_mem head ih

theorem mem_lines_terminated {piece : Str} (hpiece : '\n' ∉ piece) (line : Str) :
    line ∈ lines (piece ++ ['\n']) ↔ line = dropCr piece := by
  have hclean : ∀ other ∈ [piece], '\n' ∉ other := by simpa using hpiece
  have hlines := lines_flatMap_terminated hclean
  rw [List.flatMap_singleton] at hlines
  simp [hlines]

section Lines

variable {p : Str → Prop} (hcr : ∀ line, p (dropCr line) ↔ p line)

include hcr

/-- The lines of an updated file: those of the written line by itself, and those that did
not match. -/
theorem exists_line_upsertEntry_iff (fstab : Option Str)
    (uuid mountPoint fsType options : Str) :
    (∃ line ∈ fileLines (some (upsertEntry fstab uuid mountPoint fsType options)), p line) ↔
      (∃ line ∈ fileLines (some (newLine uuid mountPoint fsType options ++ ['\n'])), p line) ∨
        ∃ line ∈ fileLines fstab, upsertMatches uuid mountPoint line = false ∧ p line := by
  cases fstab with
  | none =>
      have hnone : ∀ line, line ∉ fileLines none := fun line => List.not_mem_nil
      simp only [hnone, false_and, exists_false, or_false]
      rfl
  | some content =>
      have hself : newLine uuid mountPoint fsType options ∈
          upsertLoop (upsertMatches uuid mountPoint)
            (newLine uuid mountPoint fsType options) false (lines content) :=
        mem_upsertLoop_self (lines content)
      simp only [fileLines, Option.map_some, Option.getD_some, upsertEntry, render,
        join_singleton_sep '\n' (List.ne_nil_of_mem hself), mem_lines_flatMap_terminated]
      constructor
      · rintro ⟨line, ⟨piece, hpiece, hline⟩, hp⟩
        rcases mem_upsertLoop hpiece with rfl | ⟨hold, hnot⟩
        · exact Or.inl ⟨line, hline, hp⟩
        · have hclean := newline_not_mem_of_mem_lines hold
          rw [(mem_lines_terminated hclean line).mp hline, hcr] at hp
          exact Or.inr ⟨piece, hold, hnot, hp⟩
      · rintro (⟨line, hline, hp⟩ | ⟨old, hold, hnot, hp⟩)
        · exact ⟨line, ⟨_, hself, hline⟩, hp⟩
        · have hkept : old ∈ (lines content).filter fun line =>
              !upsertMatches uuid mountPoint line := by simp [hold, hnot]
          have hclean := newline_not_mem_of_mem_lines hold
          exact ⟨dropCr old, ⟨old, filter_sublist_upsertLoop.subset hkept,
            (mem_lines_terminated hclean _).mpr rfl⟩, (hcr old).mpr hp⟩

/-- The lines of a file after a removal are those that did not match. -/
theorem exists_line_removeEntry_iff (hblank : ¬ p []) (fstab : Option Str)
    (mountPointOrUuid : Str) :
    (∃ line ∈ fileLines (removeEntry fstab mountPointOrUuid), p line) ↔
      ∃ line ∈ fileLines fstab, removeMatches mountPointOrUuid line = false ∧ p line := by
  rcases fileLines_removeEntry fstab mountPointOrUuid with heq | ⟨heq, hnone⟩
  · simp [heq, hcr, and_assoc]
  · rw [heq]
    constructor
    · rintro ⟨line, hline, hp⟩
      rw [List.mem_singleton.mp hline] at hp
      exact absurd hp hblank
    · rintro ⟨line, hline, hnot, -⟩
      have hkept : line ∈ (fileLines fstab).filter fun line =>
          !removeMatches mountPointOrUuid line := by simp [hline, hnot]
      rw [hnone] at hkept
      cases hkept

end Lines

/-- After an update the entries of the mount point are those of the written line
by itself. -/
theorem entry_upsertEntry_iff (fstab : Option Str) (uuid mountPoint fsType options : Str)
    (spec : Str) :
    (∃ line ∈ fileLines (some (upsertEntry fstab uuid mountPoint fsType options)),
        entryKeys line = some (spec, mountPoint)) ↔
      ∃ line ∈ fileLines (some (newLine uuid mountPoint fsType options ++ ['\n'])),
        entryKeys line = some (spec, mountPoint) := by
  rw [exists_line_upsertEntry_iff (fun line => by rw [entryKeys_dropCr])]
  apply or_iff_left
  rintro ⟨line, -, hnot, hkeys⟩
  simp [upsertMatches, hkeys] at hnot

theorem hasEntry_iff (fstab : Option Str) (mountPoint : Str) :
    HasEntry fstab mountPoint ↔
      ∃ spec, ∃ line ∈ fileLines fstab, entryKeys line = some (spec, mountPoint) := by
  constructor
  · rintro ⟨line, hline, spec, hkeys⟩
    exact ⟨spec, line, hline, hkeys⟩
  · rintro ⟨spec, line, hline, hkeys⟩
    exact ⟨line, hline, spec, hkeys⟩

/-- After an update the file has an entry for the mount point exactly when the
written line is one by itself. -/
theorem hasEntry_upsertEntry_iff (fstab : Option Str) (uuid mountPoint fsType options : Str) :
    HasEntry (some (upsertEntry fstab uuid mountPoint fsType options)) mountPoint ↔
      HasEntry (some (newLine uuid mountPoint fsType options ++ ['\n'])) mountPoint := by
  rw [hasEntry_iff, hasEntry_iff]
  exact exists_congr (entry_upsertEntry_iff fstab uuid mountPoint fsType options)

theorem hasEntry_newLine {uuid mountPoint fsType options : Str}
    (hwords : WordFields uuid mountPoint fsType options) :
    HasEntry (some (newLine uuid mountPoint fsType options ++ ['\n'])) mountPoint := by
  refine ⟨dropCr (newLine uuid mountPoint fsType options), ?_, uuidSpec uuid, ?_⟩
  · exact (mem_lines_terminated (newline_not_mem_newLine hwords) _).mpr rfl
  · rw [entryKeys_dropCr, entryKeys_newLine hwords]

/-- The line is an entry whose second field names the place, in whatever spelling;
`entryPlace` is how the field is read. -/
def EntryAt (entryPlace : Str → Str) (place line : Str) : Prop :=
  ∃ spec field, entryKeys line = some (spec, field) ∧ entryPlace field = place

/-- Some line is an entry for the place. -/
def HasEntryAt (entryPlace : Str → Str) (fstab : Option Str) (place : Str) : Prop :=
  ∃ line ∈ fileLines fstab, EntryAt entryPlace place line

section Places

variable {entryPlace : Str → Str} {place : Str}

theorem entryAt_dropCr_iff (line : Str) :
    EntryAt entryPlace place (dropCr line) ↔ EntryAt entryPlace place line := by
  simp only [EntryAt, entryKeys_dropCr]

theorem hasEntryAt_upsertEntry_iff (fstab : Option Str)
    (uuid mountPoint fsType options : Str) :
    HasEntryAt entryPlace (some (upsertEntry fstab uuid mountPoint fsType options)) place ↔
      HasEntryAt entryPlace (some (newLine uuid mountPoint fsType options ++ ['\n'])) place ∨
        ∃ line ∈ fileLines fstab, upsertMatches uuid mountPoint line = false ∧
          EntryAt entryPlace place line :=
  exists_line_upsertEntry_iff entryAt_dropCr_iff fstab uuid mountPoint fsType options

theorem hasEntryAt_removeEntry_iff (fstab : Option Str) (mountPointOrUuid : Str) :
    HasEntryAt entryPlace (removeEntry fstab mountPointOrUuid) place ↔
      ∃ line ∈ fileLines fstab, removeMatches mountPointOrUuid line = false ∧
        EntryAt entryPlace place line := by
  apply exists_line_removeEntry_iff entryAt_dropCr_iff
  rintro ⟨spec, field, hkeys, -⟩
  cases hkeys

/-- Where a field names the place it spells, an entry of the mount point is one for its
place. -/
theorem HasEntry.hasEntryAt {fstab : Option Str} {mountPoint : Str}
    (hentry : HasEntry fstab mountPoint) (hplace : entryPlace mountPoint = place) :
    HasEntryAt entryPlace fstab place := by
  obtain ⟨line, hline, spec, hkeys⟩ := hentry
  exact ⟨line, hline, spec, mountPoint, hkeys, hplace⟩

end Places

end FstabManager

/-- One successful call of the editor. -/
inductive FstabCall where
  | upsert (uuid mountPoint fsType options : Str)
  | remove (mountPointOrUuid : Str)
deriving DecidableEq, Repr

namespace FstabCall

open FstabManager

def apply (fstab : Option Str) : FstabCall → Option Str
  | .upsert uuid mountPoint fsType options =>
      some (upsertEntry fstab uuid mountPoint fsType options)
  | .remove mountPointOrUuid => removeEntry fstab mountPointOrUuid

def runCalls (fstab : Option Str) (calls : List FstabCall) : Option Str :=
  calls.foldl apply fstab

/-- Whether a line is an entry that the call's keys match. -/
def touches : FstabCall → Str → Bool
  | .upsert uuid mountPoint _ _ => upsertMatches uuid mountPoint
  | .remove mountPointOrUuid => removeMatches mountPointOrUuid

def WellFormed : FstabCall → Prop
  | .upsert uuid mountPoint fsType options => WordFields uuid mountPoint fsType options
  | .remove _ => True

/-- Comments, blank and malformed lines, and entries no call's keys match. -/
def untouched (calls : List FstabCall) (line : Str) : Bool :=
  (entryKeys line).isNone || calls.all fun call => !call.touches line

theorem touches_eq_false_of_isNone {line : Str} (hkeys : entryKeys line = none)
    (call : FstabCall) : call.touches line = false := by
  cases call <;> simp [touches, upsertMatches, removeMatches, hkeys]

theorem untouched_eq_all (calls : List FstabCall) (line : Str) :
    untouched calls line = calls.all fun call => !call.touches line := by
  cases hkeys : entryKeys line with
  | some keys => simp [untouched, hkeys]
  | none => simp [untouched, hkeys, touches_eq_false_of_isNone hkeys]

@[simp] theorem touches_dropCr (call : FstabCall) (line : Str) :
    call.touches (dropCr line) = call.touches line := by
  cases call <;> simp [touches]

@[simp] theorem untouched_dropCr (calls : List FstabCall) (line : Str) :
    untouched calls (dropCr line) = untouched calls line := by
  simp [untouched]

/-- One call keeps the lines its keys do not match, in order. -/
theorem filter_sublist_apply {call : FstabCall} (hcall : call.WellFormed)
    (fstab : Option Str) :
    (((fileLines fstab).filter fun line => !call.touches line).map dropCr).Sublist
      (fileLines (apply fstab call)) := by
  cases call with
  | upsert uuid mountPoint fsType options =>
      simp only [apply, fileLines_upsertEntry hcall fstab]
      exact filter_sublist_upsertLoop.map dropCr
  | remove mountPointOrUuid =>
      rcases fileLines_removeEntry fstab mountPointOrUuid with heq | ⟨_, hnil⟩
      · simp only [apply, heq]
        exact List.Sublist.refl _
      · have hnil' : (fileLines fstab).filter
            (fun line => !(remove mountPointOrUuid).touches line) = [] := hnil
        rw [hnil']
        exact List.nil_sublist _

/-- Over a whole run every line that no call matches stays, up to trailing
whitespace and in its order. -/
theorem runCalls_keeps_untouched (fstab : Option Str) (calls : List FstabCall)
    (hcalls : ∀ call ∈ calls, call.WellFormed) :
    (((fileLines fstab).filter (untouched calls)).map trimEnd).Sublist
      ((fileLines (runCalls fstab calls)).map trimEnd) := by
  induction calls generalizing fstab with
  | nil =>
      exact List.filter_sublist.map trimEnd
  | cons call rest ih =>
      have hstep := filter_sublist_apply (hcalls call List.mem_cons_self) fstab
      have hrest := ih (apply fstab call)
        fun later hlater => hcalls later (List.mem_cons_of_mem call hlater)
      refine List.Sublist.trans ?_ hrest
      have hfiltered := (hstep.filter (untouched rest)).map trimEnd
      have hsplit : (fileLines fstab).filter (untouched (call :: rest)) =
          ((fileLines fstab).filter fun line => !call.touches line).filter
            (untouched rest) := by
        rw [List.filter_filter]
        congr 1
        funext line
        simp [untouched_eq_all, Bool.and_comm]
      rw [hsplit]
      simpa [List.filter_map, Function.comp_def] using hfiltered

/-- No two lines of the file match the keys. -/
def AtMostOneMatch (uuid mountPoint : Str) (content : List Str) : Prop :=
  content.Pairwise fun left right =>
    ¬ (upsertMatches uuid mountPoint left = true ∧ upsertMatches uuid mountPoint right = true)

/-- While the written line is in the file, it is the only one with its keys. -/
def OwnsKeys (uuid mountPoint fsType options : Str) (content : List Str) : Prop :=
  (∃ line ∈ content, trimEnd line = newLine uuid mountPoint fsType options) →
    AtMostOneMatch uuid mountPoint content

section Ownership

variable {uuid mountPoint fsType options : Str}

theorem atMostOneMatch_map_dropCr {content : List Str} :
    AtMostOneMatch uuid mountPoint (content.map dropCr) ↔
      AtMostOneMatch uuid mountPoint content := by
  simp [AtMostOneMatch, List.pairwise_map]

theorem ownsKeys_map_dropCr {content : List Str} :
    OwnsKeys uuid mountPoint fsType options (content.map dropCr) ↔
      OwnsKeys uuid mountPoint fsType options content := by
  simp [OwnsKeys, atMostOneMatch_map_dropCr]

/-- An update owns its own keys. -/
theorem ownsKeys_apply_upsert (hwords : WordFields uuid mountPoint fsType options)
    (fstab : Option Str) :
    OwnsKeys uuid mountPoint fsType options
      (fileLines (apply fstab (.upsert uuid mountPoint fsType options))) := by
  simp only [apply, fileLines_upsertEntry hwords fstab, ownsKeys_map_dropCr]
  intro _
  apply pairwise_upsertLoop
  · refine List.pairwise_of_forall_mem_list ?_
    intro left hleft right _ hboth
    have hnot := (List.mem_filter.mp hleft).2
    simp [hboth.1] at hnot
  · intro old _ hnot
    simp [hnot]

/-- Two written lines share a key in both directions or in none. -/
theorem upsertMatches_newLine_symm {uuid' mountPoint' fsType' options' : Str}
    (hwords : WordFields uuid mountPoint fsType options)
    (hwords' : WordFields uuid' mountPoint' fsType' options') :
    upsertMatches uuid mountPoint (newLine uuid' mountPoint' fsType' options') =
      upsertMatches uuid' mountPoint' (newLine uuid mountPoint fsType options) := by
  simp only [upsertMatches, entryKeys_newLine hwords, entryKeys_newLine hwords']
  rw [Bool.beq_comm, Bool.beq_comm (a := mountPoint')]

/-- Every later call leaves the ownership in place: it either drops the written
line or shares none of its keys. -/
theorem ownsKeys_apply (hwords : WordFields uuid mountPoint fsType options)
    {call : FstabCall} (hcall : call.WellFormed) {fstab : Option Str}
    (howns : OwnsKeys uuid mountPoint fsType options (fileLines fstab)) :
    OwnsKeys uuid mountPoint fsType options (fileLines (apply fstab call)) := by
  cases call with
  | remove key =>
      rcases fileLines_removeEntry fstab key with heq | ⟨heq, _⟩
      · simp only [apply, heq, ownsKeys_map_dropCr]
        rintro ⟨line, hline, htrim⟩
        exact (howns ⟨line, List.mem_of_mem_filter hline, htrim⟩).sublist List.filter_sublist
      · simp only [apply, heq]
        intro _
        exact List.pairwise_singleton _ _
  | upsert uuid' mountPoint' fsType' options' =>
      by_cases hsame : newLine uuid' mountPoint' fsType' options' =
          newLine uuid mountPoint fsType options
      · -- the same line written again
        have hkeys := entryKeys_newLine hcall
        rw [hsame, entryKeys_newLine hwords, Option.some.injEq, Prod.mk.injEq] at hkeys
        have hown := ownsKeys_apply_upsert hcall fstab
        intro hmem
        have hfile := hown (by rw [hsame]; exact hmem)
        simpa [AtMostOneMatch, upsertMatches, hkeys.1, hkeys.2] using hfile
      · simp only [apply, fileLines_upsertEntry hcall fstab, ownsKeys_map_dropCr]
        rintro ⟨line, hline, htrim⟩
        rcases mem_upsertLoop hline with rfl | ⟨hold, hnot⟩
        · exact absurd ((trim_newLine _ _ _ _).1.symm.trans htrim) hsame
        · have hkeys : entryKeys line =
              entryKeys (newLine uuid mountPoint fsType options) :=
            entryKeys_eq_of_trimEnd_eq (by rw [htrim, (trim_newLine _ _ _ _).1])
          have hapart : upsertMatches uuid mountPoint
              (newLine uuid' mountPoint' fsType' options') = false := by
            rw [upsertMatches_newLine_symm hwords hcall, ← hnot]
            simp [upsertMatches, hkeys]
          apply pairwise_upsertLoop
          · exact (howns ⟨line, hold, htrim⟩).sublist List.filter_sublist
          · intro old _ _
            simp [hapart]

theorem ownsKeys_runCalls (hwords : WordFields uuid mountPoint fsType options)
    {calls : List FstabCall} (hcalls : ∀ call ∈ calls, call.WellFormed)
    {fstab : Option Str}
    (howns : OwnsKeys uuid mountPoint fsType options (fileLines fstab)) :
    OwnsKeys uuid mountPoint fsType options (fileLines (runCalls fstab calls)) := by
  induction calls generalizing fstab with
  | nil => exact howns
  | cons call rest ih =>
      exact ih (fun later hlater => hcalls later (List.mem_cons_of_mem call hlater))
        (ownsKeys_apply hwords (hcalls call List.mem_cons_self) howns)

theorem ownsKeys_of_mem_calls {calls : List FstabCall}
    (hcalls : ∀ call ∈ calls, call.WellFormed) (fstab : Option Str)
    (hmem : FstabCall.upsert uuid mountPoint fsType options ∈ calls) :
    OwnsKeys uuid mountPoint fsType options (fileLines (runCalls fstab calls)) := by
  have hwords : WordFields uuid mountPoint fsType options := hcalls _ hmem
  obtain ⟨before, after, rfl⟩ := List.append_of_mem hmem
  rw [runCalls, List.foldl_append, List.foldl_cons]
  refine ownsKeys_runCalls hwords ?_ (ownsKeys_apply_upsert hwords _)
  intro call hcall
  exact hcalls call (List.mem_append_right before
    (List.mem_cons_of_mem _ hcall))

end Ownership

/-- fstab integrity over whole runs: lines outside every call's keys stay in
order, and a written line that is still in the file shares neither its UUID
spec nor its mount point with any other entry. -/
theorem runCalls_integrity (fstab : Option Str) (calls : List FstabCall)
    (hcalls : ∀ call ∈ calls, call.WellFormed) :
    (((fileLines fstab).filter (untouched calls)).map trimEnd).Sublist
        ((fileLines (runCalls fstab calls)).map trimEnd) ∧
      ∀ uuid mountPoint fsType options,
        FstabCall.upsert uuid mountPoint fsType options ∈ calls →
        ∀ (i j : Nat) (line spec mount : Str),
          (fileLines (runCalls fstab calls))[i]? =
            some (newLine uuid mountPoint fsType options) →
          (fileLines (runCalls fstab calls))[j]? = some line → i ≠ j →
          entryKeys line = some (spec, mount) →
          spec ≠ uuidSpec uuid ∧ mount ≠ mountPoint := by
  refine ⟨runCalls_keeps_untouched fstab calls hcalls, ?_⟩
  intro uuid mountPoint fsType options hmem i j line spec mount hi hj hne hkeys
  have hwords : WordFields uuid mountPoint fsType options := hcalls _ hmem
  have hown := ownsKeys_of_mem_calls hcalls fstab hmem
    ⟨_, List.mem_of_getElem? hi, (trim_newLine _ _ _ _).1⟩
  have hwritten := upsertMatches_newLine hwords
  have hother : upsertMatches uuid mountPoint line = false := by
    obtain ⟨hilt, hi⟩ := List.getElem?_eq_some_iff.mp hi
    obtain ⟨hjlt, hj⟩ := List.getElem?_eq_some_iff.mp hj
    have hpairs := List.pairwise_iff_getElem.mp hown
    rw [Bool.eq_false_iff]
    intro hline
    rcases Nat.lt_or_gt_of_ne hne with hlt | hlt
    · exact hpairs i j hilt hjlt hlt (by simp [hi, hj, hwritten, hline])
    · exact hpairs j i hjlt hilt hlt (by simp [hi, hj, hwritten, hline])
  simpa [upsertMatches, hkeys] using hother

namespace FstabWitness

def system : Str :=
  "# System fstab\nUUID=root-1234 / ext4 defaults 0 1\n".toList ++
    "UUID=old-gfs /mnt/gfs-storage ext4 defaults 0 2\n".toList

def calls : List FstabCall :=
  [.upsert "new-5678".toList "/mnt/gfs-storage".toList "ext4".toList "noatime".toList]

theorem calls_wellFormed : ∀ call ∈ calls, call.WellFormed := by
  intro call hcall
  simp only [calls, List.mem_singleton] at hcall
  subst hcall
  exact ⟨isWord_of_all (by decide) (by decide), isWord_of_all (by decide) (by decide),
    isWord_of_all (by decide) (by decide), isWord_of_all (by decide) (by decide)⟩

theorem system_lines_kept :
    (((fileLines (some system)).filter (untouched calls)).map trimEnd).Sublist
      ((fileLines (runCalls (some system) calls)).map trimEnd) :=
  (runCalls_integrity (some system) calls calls_wellFormed).1

end FstabWitness

end FstabCall

end PiCluster
