/-
File trees.  A path holds nothing, a directory, or a file with its content and
its modification time; a path with something below it holds a directory.
-/
import Mathlib.Data.List.Induction
import Mathlib.Data.List.Infix

namespace FileTree

inductive Entry (Content : Type) where
  | file (content : Content) (modified : Nat)
  | dir

/-- The entries of a file system, by the path from its root. -/
structure Tree (Name Content : Type) where
  entry : List Name → Option (Entry Content)
  nested : ∀ path name, (entry (path ++ [name])).isSome → entry path = some .dir

namespace Tree

variable {Name Content : Type} (tree : Tree Name Content)

def IsDir (path : List Name) : Prop := tree.entry path = some .dir

/-- The content and the modification time of a file. -/
def fileAt (path : List Name) : Option (Content × Nat) :=
  match tree.entry path with
  | some (.file content modified) => some (content, modified)
  | _ => none

def empty : Tree Name Content where
  entry _ := none
  nested := nofun

variable {tree} {path other : List Name} {content : Content} {modified : Nat}

theorem fileAt_eq_some :
    tree.fileAt path = some (content, modified) ↔
      tree.entry path = some (.file content modified) := by
  rw [fileAt]
  split <;> simp_all

theorem isSome_of_fileAt (hfile : tree.fileAt path = some (content, modified)) :
    (tree.entry path).isSome := by
  rw [fileAt_eq_some.mp hfile]
  rfl

theorem IsDir.isSome (hdir : tree.IsDir path) : (tree.entry path).isSome := by
  rw [hdir]
  rfl

theorem IsDir.fileAt (hdir : tree.IsDir path) : tree.fileAt path = none := by
  rw [Tree.fileAt, hdir]

/-- Above whatever exists there are only directories. -/
theorem isDir_of_isPrefix (hsome : (tree.entry path).isSome) (hother : other <+: path)
    (hne : other ≠ path) : tree.IsDir other := by
  obtain ⟨rest, rfl⟩ := hother
  induction rest using List.reverseRecOn with
  | nil => exact absurd (List.append_nil other).symm hne
  | append_singleton init last ih =>
      rw [← List.append_assoc] at hsome
      have hdir := tree.nested _ _ hsome
      by_cases hinit : other = other ++ init
      · rw [IsDir, hinit]
        exact hdir
      · exact ih (IsDir.isSome hdir) hinit

theorem isSome_of_isPrefix (hsome : (tree.entry path).isSome) (hother : other <+: path) :
    (tree.entry other).isSome := by
  by_cases hne : other = path
  · rw [hne]
    exact hsome
  · exact (isDir_of_isPrefix hsome hother hne).isSome

theorem IsDir.above_concat {name : Name} (hdir : tree.IsDir path)
    (hother : other <+: path ++ [name]) (hne : other ≠ path ++ [name]) : tree.IsDir other := by
  rcases List.prefix_concat_iff.mp hother with rfl | hother
  · exact absurd rfl hne
  · by_cases heq : other = path
    · rw [heq]
      exact hdir
    · exact isDir_of_isPrefix hdir.isSome hother heq

/-- Below whatever is not a directory there is nothing. -/
theorem entry_eq_none (hdir : ¬ tree.IsDir path) (hother : path <+: other)
    (hne : other ≠ path) : tree.entry other = none := by
  by_contra hentry
  exact hdir (isDir_of_isPrefix (Option.isSome_iff_ne_none.mpr hentry) hother hne.symm)

/-- A file can be put there: it replaces no directory, and no file stands above
it. -/
structure Writable (tree : Tree Name Content) (path : List Name) : Prop where
  notDir : ¬ tree.IsDir path
  above : ∀ other, other <+: path → other ≠ path → tree.fileAt other = none

theorem writable_of_isDir {name : Name} (hparent : tree.IsDir path)
    (hdir : ¬ tree.IsDir (path ++ [name])) : tree.Writable (path ++ [name]) where
  notDir := hdir
  above _ hother hne := (hparent.above_concat hother hne).fileAt

theorem not_concat_isPrefix {name : Name} : ¬ path ++ [name] <+: path := by
  intro hprefix
  have hlength := hprefix.length_le
  rw [List.length_append] at hlength
  exact Nat.not_succ_le_self _ hlength

section Operations

variable [DecidableEq Name] (tree)

/-- Put a file at the path, with the directories above it. -/
def write (path : List Name) (content : Content) (modified : Nat) : Tree Name Content where
  entry other :=
    if other = path then some (.file content modified)
    else if other <+: path then some .dir
    else if path <+: other then none
    else tree.entry other
  nested := by
    intro parent name hsome
    have hup : parent <+: parent ++ [name] := List.prefix_append parent [name]
    by_cases hparent : parent <+: path
    · by_cases heq : parent = path
      · subst heq
        simp [not_concat_isPrefix] at hsome
      · rw [if_neg heq, if_pos hparent]
    · have hchild : ¬ parent ++ [name] <+: path := fun h => hparent (hup.trans h)
      have hne : ∀ {other : List Name}, ¬ other <+: path → other ≠ path := by
        rintro other hother rfl
        exact hother (List.prefix_refl other)
      rw [if_neg (hne hchild), if_neg hchild] at hsome
      rw [if_neg (hne hparent), if_neg hparent]
      split at hsome
      · simp at hsome
      next hbelow =>
        rw [if_neg fun h => hbelow (h.trans hup)]
        exact tree.nested parent name hsome

/-- `fs::create_dir_all`: the directory and those above it. -/
def makeDirs (path : List Name) : Tree Name Content where
  entry other := if other <+: path then some .dir else tree.entry other
  nested := by
    intro parent name hsome
    by_cases hparent : parent <+: path
    · rw [if_pos hparent]
    · have hchild : ¬ parent ++ [name] <+: path := fun h =>
        hparent ((List.prefix_append parent [name]).trans h)
      rw [if_neg hchild] at hsome
      rw [if_neg hparent]
      exact tree.nested parent name hsome

variable {tree}

theorem isSome_of_write
    (hsome : ((tree.write path content modified).entry other).isSome) :
    other <+: path ∨ (tree.entry other).isSome := by
  simp only [write] at hsome
  split_ifs at hsome with heq habove hbelow
  · exact .inl (heq ▸ List.prefix_refl other)
  · exact .inl habove
  · cases hsome
  · exact .inr hsome

theorem fileAt_write_self :
    (tree.write path content modified).fileAt path = some (content, modified) := by
  simp [fileAt, write]

theorem fileAt_write_of_ne (hwritable : tree.Writable path) (hne : other ≠ path) :
    (tree.write path content modified).fileAt other = tree.fileAt other := by
  simp only [fileAt, write, if_neg hne]
  split_ifs with habove hbelow
  · exact (hwritable.above other habove hne).symm
  · rw [entry_eq_none hwritable.notDir hbelow hne]
  · rfl

theorem IsDir.write (hdir : tree.IsDir other) (hwritable : tree.Writable path) :
    (tree.write path content modified).IsDir other := by
  have hne : other ≠ path := by
    rintro rfl
    exact hwritable.notDir hdir
  simp only [IsDir, Tree.write, if_neg hne]
  split_ifs with habove hbelow
  · rfl
  · rw [IsDir, entry_eq_none hwritable.notDir hbelow hne] at hdir
    cases hdir
  · exact hdir

/-- Writing into a directory makes no other directory. -/
theorem IsDir.of_write {name : Name} (hparent : tree.IsDir path)
    (hdir : (tree.write (path ++ [name]) content modified).IsDir other) : tree.IsDir other := by
  simp only [IsDir, Tree.write] at hdir
  split_ifs at hdir with heq habove hbelow
  · cases hdir
  · exact hparent.above_concat habove heq
  · exact hdir

theorem entry_write_of_ne {name : Name} (hparent : tree.IsDir path)
    (hdir : ¬ tree.IsDir (path ++ [name])) (hne : other ≠ path ++ [name]) :
    (tree.write (path ++ [name]) content modified).entry other = tree.entry other := by
  simp only [write, if_neg hne]
  split_ifs with habove hbelow
  · exact (hparent.above_concat habove hne).symm
  · rw [entry_eq_none hdir hbelow hne]
  · rfl

theorem entry_makeDirs_of_not (hother : ¬ other <+: path) :
    (tree.makeDirs path).entry other = tree.entry other :=
  if_neg hother

theorem isDir_makeDirs_iff :
    (tree.makeDirs path).IsDir other ↔ other <+: path ∨ tree.IsDir other := by
  by_cases hother : other <+: path <;> simp [IsDir, makeDirs, hother]

theorem fileAt_makeDirs (hfree : ∀ above, above <+: path → tree.fileAt above = none) :
    (tree.makeDirs path).fileAt other = tree.fileAt other := by
  by_cases hother : other <+: path
  · rw [hfree other hother]
    exact (isDir_makeDirs_iff.mpr (.inl hother)).fileAt
  · rw [fileAt, entry_makeDirs_of_not hother, fileAt]

end Operations

end Tree

end FileTree
