/-
The asset cache: `AssetSyncer` copies the boot assets of the shared volume into
the local cache, file by file, and judges a cached file by its length and its
modification time.
-/
import Mathlib.Logic.Function.Basic
import PiCluster.Lib.Text
import PiCluster.Lib.Effects
import PiCluster.Lib.FileTree

namespace PiCluster

open Text Effects FileTree

namespace AssetSyncer

/-- The two directories a syncer is built with. -/
inductive Root where
  | gfsSourceDir
  | localCacheDir
deriving DecidableEq

/-- A path below one of the directories. -/
structure Location where
  root : Root
  path : List Str
deriving DecidableEq

def Location.join (dir : Location) (name : Str) : Location := ⟨dir.root, dir.path ++ [name]⟩

def source (path : List Str) : Location := ⟨.gfsSourceDir, path⟩

def cache (path : List Str) : Location := ⟨.localCacheDir, path⟩

inductive FileType where
  | dir
  | file
  | other

structure Metadata where
  len : Nat
  modified : Option Nat

/-- `modified().unwrap_or(UNIX_EPOCH)`. -/
def Metadata.modifiedOrEpoch (info : Metadata) : Nat := info.modified.getD 0

/-- How the writing half of `fs::copy` ends. -/
inductive CopyEnd where
  | complete
  | interrupted (written : Nat) (e : Str)
  | refused (e : Str)

/-- What the copy leaves in the file, if it got as far as opening it. -/
def CopyEnd.left (content : List UInt8) : CopyEnd → Option (List UInt8)
  | .complete => some content
  | .interrupted written _ => some (content.take written)
  | .refused _ => none

inductive SyncEffect where
  | pathExists (loc : Location)
  | createDirAll (loc : Location)
  | readDir (loc : Location)
  | fileType (loc : Location)
  | metadata (loc : Location)
  | readFile (loc : Location)
  | finishCopy (loc : Location) (content : List UInt8)

/-- A directory is listed entry by entry, and each may fail. -/
def SyncAnswer : SyncEffect → Type
  | .pathExists _ => Bool
  | .createDirAll _ => Except Str Unit
  | .readDir _ => Except Str (List (Except Str Str))
  | .fileType _ => Except Str FileType
  | .metadata _ => Except Str Metadata
  | .readFile _ => Except Str (List UInt8)
  | .finishCopy _ _ => CopyEnd

/-- A pass fails with an I/O error, or when the recursion exhausts the stack. -/
inductive SyncError where
  | io (e : Str)
  | stackOverflow

abbrev SyncProg (α : Type) := Prog SyncEffect SyncAnswer SyncError α

abbrev SyncEvent := Event SyncEffect SyncAnswer

def perform (effect : SyncEffect) : SyncProg (SyncAnswer effect) := Prog.call effect

/-- The `?` operator. -/
def orIo {α : Type} : Except Str α → SyncProg α
  | .ok value => pure value
  | .error e => Prog.fail (.io e)

def pathExists (loc : Location) : SyncProg Bool := perform (.pathExists loc)

def createDirAll (loc : Location) : SyncProg Unit := do
  orIo (← perform (.createDirAll loc))

def readDir (loc : Location) : SyncProg (List (Except Str Str)) := do
  orIo (← perform (.readDir loc))

def fileType (loc : Location) : SyncProg FileType := do
  orIo (← perform (.fileType loc))

def metadata (loc : Location) : SyncProg Metadata := do
  orIo (← perform (.metadata loc))

def readFile (loc : Location) : SyncProg (List UInt8) := do
  orIo (← perform (.readFile loc))

/-- `fs::copy` reads the source first and finishes the copy later. -/
def copy (src dst : Location) : SyncProg Unit := do
  let content ← readFile src
  match ← perform (.finishCopy dst content) with
  | .complete => pure ()
  | .interrupted _ e => Prog.fail (.io e)
  | .refused e => Prog.fail (.io e)

def shouldCopy (srcPath dstPath : Location) : SyncProg Bool := do
  if ← pathExists dstPath then
    let srcMeta ← metadata srcPath
    let dstMeta ← metadata dstPath
    pure (srcMeta.len != dstMeta.len || dstMeta.modifiedOrEpoch < srcMeta.modifiedOrEpoch)
  else
    pure true

def copyEntry (recurse : Location → Location → SyncProg Unit) (srcPath dstPath : Location) :
    SyncProg Unit := do
  match ← fileType srcPath with
  | .dir => recurse srcPath dstPath
  | .file => if ← shouldCopy srcPath dstPath then copy srcPath dstPath
  | .other => pure ()

def copyEntries (recurse : Location → Location → SyncProg Unit) (src dst : Location) :
    List (Except Str Str) → SyncProg Unit
  | [] => pure ()
  | entry :: rest => do
      let name ← orIo entry
      copyEntry recurse (src.join name) (dst.join name)
      copyEntries recurse src dst rest

/-- `depth` is the number of calls the stack has room for. -/
def copyRecursive : Nat → Location → Location → SyncProg Unit
  | 0, _, _ => Prog.fail .stackOverflow
  | depth + 1, src, dst => do
      if !(← pathExists dst) then createDirAll dst
      copyEntries (copyRecursive depth) src dst (← readDir src)

def syncOnce (depth : Nat) : SyncProg Unit := do
  if !(← pathExists (source [])) then
    pure ()
  else
    createDirAll (cache [])
    copyRecursive depth (source []) (cache [])

/-- The two trees and the clock they share, which has been read `ticks` times. -/
structure World where
  ticks : Nat
  tree : Root → Tree Str (List UInt8)

/-- A source file is written, or the syncer has an effect. -/
inductive Item where
  | write (path : List Str) (content : List UInt8)
  | sync (event : SyncEvent)

def kindOf : Entry (List UInt8) → FileType
  | .file _ _ => .file
  | .dir => .dir

/-- The file an event puts somewhere. -/
def SyncEvent.put : SyncEvent → Option (Location × List UInt8)
  | ⟨.finishCopy loc content, ending⟩ => (CopyEnd.left content ending).map (loc, ·)
  | _ => none

def Item.put : Item → Option (Location × List UInt8)
  | .write path content => some (source path, content)
  | .sync event => SyncEvent.put event

namespace World

variable (time : Nat → Nat) (world : World)

def entry (loc : Location) : Option (Entry (List UInt8)) := (world.tree loc.root).entry loc.path

def fileAt (loc : Location) : Option (List UInt8 × Nat) :=
  (world.tree loc.root).fileAt loc.path

def IsDir (loc : Location) : Prop := (world.tree loc.root).IsDir loc.path

/-- A file is written, at the current time. -/
def stamp (loc : Location) (content : List UInt8) : World where
  ticks := world.ticks + 1
  tree := Function.update world.tree loc.root
    ((world.tree loc.root).write loc.path content (time world.ticks))

def makeDirs (loc : Location) : World :=
  { world with
    tree := Function.update world.tree loc.root ((world.tree loc.root).makeDirs loc.path) }

def created (loc : Location) : Except Str Unit → World
  | .ok _ => world.makeDirs loc
  | .error _ => world

def copied (loc : Location) (content : List UInt8) (ending : CopyEnd) : World :=
  match ending.left content with
  | some left => world.stamp time loc left
  | none => world

def after : SyncEvent → World
  | ⟨.createDirAll loc, answer⟩ => world.created loc answer
  | ⟨.finishCopy loc content, ending⟩ => world.copied time loc content ending
  | _ => world

/-- The answers of a file system whose trees hold files and directories only.
What exists when a listing starts is listed, unless an entry fails; other names
may be listed too. -/
def Allows : SyncEvent → Prop
  | ⟨.pathExists loc, found⟩ => found = (world.entry loc).isSome
  | ⟨.createDirAll loc, answer⟩ => answer = Except.ok () →
      ∀ path, path <+: loc.path → world.fileAt ⟨loc.root, path⟩ = none
  | ⟨.readDir loc, answer⟩ => ∀ entries, answer = Except.ok entries →
      world.IsDir loc ∧ ∀ name, (world.entry (loc.join name)).isSome →
        .ok name ∈ entries ∨ ∃ e, .error e ∈ entries
  | ⟨.fileType loc, answer⟩ => ∀ kind, answer = Except.ok kind →
      (world.entry loc).map kindOf = some kind
  | ⟨.metadata loc, answer⟩ => ∀ info, answer = Except.ok info →
      ∀ content modified, world.fileAt loc = some (content, modified) →
        info = ⟨content.length, some modified⟩
  | ⟨.readFile loc, answer⟩ => ∀ content, answer = Except.ok content →
      ∃ modified, world.fileAt loc = some (content, modified)
  | ⟨.finishCopy loc content, ending⟩ => (CopyEnd.left content ending).isSome →
      ∃ dir name, loc = dir.join name ∧ world.IsDir dir ∧ ¬ world.IsDir loc

def act : Item → World
  | .write path content => world.stamp time (source path) content
  | .sync event => world.after time event

/-- A source write replaces no directory and has no file above it. -/
def Admits : Item → Prop
  | .write path _ => (world.tree .gfsSourceDir).Writable path
  | .sync event => world.Allows event

def run (items : List Item) : World := items.foldl (act time) world

/-- Every write and every answer is one the world can take where it stands. -/
def Honest (items : List Item) : Prop := StepRun.Meets (act time) Admits world items

section Steps

variable {time world} {loc other : Location} {content : List UInt8} {item : Item}

theorem entry_of_tree {next : World} (htree : next.tree loc.root = world.tree loc.root) :
    next.entry loc = world.entry loc := by
  rw [entry, htree, entry]

theorem fileAt_congr {next : World} (hentry : next.entry loc = world.entry loc) :
    next.fileAt loc = world.fileAt loc := by
  simp only [entry] at hentry
  simp only [fileAt, Tree.fileAt, hentry]

theorem fileAt_stamp_self : (world.stamp time loc content).fileAt loc =
    some (content, time world.ticks) := by
  simp only [fileAt, stamp, Function.update_self]
  exact Tree.fileAt_write_self

theorem fileAt_stamp_of_ne (hwritable : (world.tree loc.root).Writable loc.path)
    (hne : other ≠ loc) : (world.stamp time loc content).fileAt other = world.fileAt other := by
  by_cases hroot : other.root = loc.root
  · have hpath : other.path ≠ loc.path := fun hpath => hne (by cases loc; cases other; simp_all)
    simp only [fileAt, stamp, hroot, Function.update_self]
    exact Tree.fileAt_write_of_ne hwritable hpath
  · simp only [fileAt, stamp, Function.update_of_ne hroot]

theorem IsDir.stamp (hdir : world.IsDir other)
    (hwritable : (world.tree loc.root).Writable loc.path) :
    (world.stamp time loc content).IsDir other := by
  by_cases hroot : other.root = loc.root
  · simp only [IsDir, hroot] at hdir
    simp only [IsDir, World.stamp, hroot, Function.update_self]
    exact Tree.IsDir.write hdir hwritable
  · simp only [IsDir, World.stamp, Function.update_of_ne hroot]
    exact hdir

theorem IsDir.of_stamp {name : Str} (hparent : world.IsDir loc)
    (hdir : (world.stamp time (loc.join name) content).IsDir other) : world.IsDir other := by
  by_cases hroot : other.root = loc.root
  · simp only [IsDir, World.stamp, Location.join, hroot, Function.update_self] at hdir
    simp only [IsDir, hroot]
    exact Tree.IsDir.of_write hparent hdir
  · simp only [IsDir, World.stamp, Location.join, Function.update_of_ne hroot] at hdir
    exact hdir

theorem fileAt_makeDirs
    (hfree : ∀ path, path <+: loc.path → world.fileAt ⟨loc.root, path⟩ = none) :
    (world.makeDirs loc).fileAt other = world.fileAt other := by
  by_cases hroot : other.root = loc.root
  · simp only [fileAt, makeDirs, hroot, Function.update_self]
    exact Tree.fileAt_makeDirs hfree
  · simp only [fileAt, makeDirs, Function.update_of_ne hroot]

theorem isDir_makeDirs_iff : (world.makeDirs loc).IsDir other ↔
    other.root = loc.root ∧ other.path <+: loc.path ∨ world.IsDir other := by
  by_cases hroot : other.root = loc.root
  · simp only [IsDir, makeDirs, hroot, Function.update_self, Tree.isDir_makeDirs_iff, true_and]
  · simp only [IsDir, makeDirs, Function.update_of_ne hroot, hroot, false_and, false_or]

/-- What an item can do: put one file somewhere, make directories where no file
stands, or nothing. -/
theorem act_cases (time : Nat → Nat) (hadmits : world.Admits item) :
    (∃ loc content, item.put = some (loc, content) ∧
      (world.tree loc.root).Writable loc.path ∧
      world.act time item = world.stamp time loc content) ∨
    item.put = none ∧ ((∃ loc, item = .sync ⟨.createDirAll loc, Except.ok ()⟩ ∧
        (∀ path, path <+: loc.path → world.fileAt ⟨loc.root, path⟩ = none) ∧
        world.act time item = world.makeDirs loc) ∨
      world.act time item = world) := by
  cases item with
  | write path content => exact .inl ⟨source path, content, rfl, hadmits, rfl⟩
  | sync event =>
      obtain ⟨effect, answer⟩ := event
      cases effect with
      | createDirAll loc =>
          cases answer with
          | ok value => exact .inr ⟨rfl, .inl ⟨loc, rfl, hadmits rfl, rfl⟩⟩
          | error e => exact .inr ⟨rfl, .inr rfl⟩
      | finishCopy loc content =>
          cases hleft : CopyEnd.left content answer with
          | none =>
              refine .inr ⟨?_, .inr ?_⟩
              · simp [Item.put, SyncEvent.put, hleft]
              · simp only [act, after, copied, hleft]
          | some left =>
              have hallows : world.Allows ⟨.finishCopy loc content, answer⟩ := hadmits
              obtain ⟨dir, name, rfl, hdir, hloc⟩ := hallows (by rw [hleft]; rfl)
              refine .inl ⟨dir.join name, left, ?_, Tree.writable_of_isDir hdir hloc, ?_⟩
              · simp [Item.put, SyncEvent.put, hleft]
              · simp only [act, after, copied, hleft]
      | pathExists | readDir | fileType | metadata | readFile => exact .inr ⟨rfl, .inr rfl⟩

theorem act_of_put (hput : item.put = some (loc, content)) (hadmits : world.Admits item) :
    world.act time item = world.stamp time loc content := by
  rcases act_cases time hadmits with ⟨written, left, hwritten, _, hact⟩ | ⟨hnone, _⟩
  · rw [hput] at hwritten
    cases hwritten
    exact hact
  · rw [hput] at hnone
    cases hnone

theorem fileAt_act_of_not_put (hput : ∀ content, item.put ≠ some (loc, content))
    (hadmits : world.Admits item) : (world.act time item).fileAt loc = world.fileAt loc := by
  rcases act_cases time hadmits with
    ⟨written, left, hwritten, hwritable, hact⟩ | ⟨_, ⟨dir, _, hfree, hact⟩ | hact⟩
  · rw [hact]
    apply fileAt_stamp_of_ne hwritable
    rintro rfl
    exact hput left hwritten
  · rw [hact, fileAt_makeDirs hfree]
  · rw [hact]

theorem IsDir.act (hdir : world.IsDir loc) (hadmits : world.Admits item) :
    (world.act time item).IsDir loc := by
  rcases act_cases time hadmits with
    ⟨written, left, _, hwritable, hact⟩ | ⟨_, ⟨dir, _, _, hact⟩ | hact⟩
  · rw [hact]
    exact hdir.stamp hwritable
  · rw [hact, isDir_makeDirs_iff]
    exact .inr hdir
  · rw [hact]
    exact hdir

theorem ticks_le_act (hadmits : world.Admits item) :
    world.ticks ≤ (world.act time item).ticks := by
  rcases act_cases time hadmits with ⟨_, _, _, _, hact⟩ | ⟨_, ⟨dir, _, _, hact⟩ | hact⟩
  · rw [hact]
    exact Nat.le_succ world.ticks
  · rw [hact]
    exact le_refl world.ticks
  · rw [hact]

end Steps

end World

end AssetSyncer

end PiCluster
