/-
One pass while nobody writes to the source.  A single source file is followed
through the pass: until the pass comes to it the cache is as it was, and a
successful pass copies it unless its cached copy passes for fresh.
-/
import PiCluster.AssetTrace

namespace PiCluster

open Text Effects FileTree

namespace AssetSyncer

/-- The cached copy has the length of the source file and is not older. -/
def World.Fresh (world : World) (path : List Str) : Prop :=
  ∃ content modified copy copied, world.fileAt (source path) = some (content, modified) ∧
    world.fileAt (cache path) = some (copy, copied) ∧ content.length = copy.length ∧
    modified ≤ copied

/-- The file system takes the program from `P` to `Q`, if no error ends it. -/
abbrev Brings {α : Type} (time : Nat → Nat) (P : World → Prop) (prog : SyncProg α)
    (Q : α → World → Prop) : Prop :=
  Leads (World.after time) World.Allows P prog Q

section Effects

variable {α : Type} {time : Nat → Nat} {P : World → Prop} {loc : Location}

theorem brings_orIo {result : Except Str α} {Q : α → World → Prop}
    (hvalue : ∀ value, result = .ok value → ∀ world, P world → Q value world) :
    Brings time P (orIo result) Q := by
  cases result with
  | ok value => exact leads_pure (hvalue value rfl)
  | error e => exact leads_fail

theorem brings_pathExists {Q : Bool → World → Prop}
    (himp : ∀ world, P world → Q (world.entry loc).isSome world) :
    Brings time P (pathExists loc) Q := by
  apply leads_call
  intro world found hworld hallows
  obtain rfl : found = (world.entry loc).isSome := hallows
  exact himp world hworld

theorem brings_createDirAll {Q : Unit → World → Prop}
    (himp : ∀ world, P world → Q () (world.makeDirs loc)) :
    Brings time P (createDirAll loc) Q := by
  have hcall : Brings time P (perform (.createDirAll loc))
      fun answer world => answer = Except.ok () → Q () world := by
    apply leads_call
    intro world answer hworld _ hok
    cases hok
    exact himp world hworld
  exact hcall.bind fun answer => brings_orIo fun value hvalue world hworld => hworld hvalue

/-- An effect that only looks, with the `?` on its answer. -/
theorem brings_look (effect : SyncEffect) (result : SyncAnswer effect → Except Str α)
    {Q : α → World → Prop}
    (hlook : ∀ world answer, World.after time world ⟨effect, answer⟩ = world)
    (himp : ∀ world answer value, P world → world.Allows ⟨effect, answer⟩ →
      result answer = .ok value → Q value world) :
    Brings time P (perform effect >>= fun answer => orIo (result answer)) Q := by
  have hcall : Brings time P (perform effect)
      fun answer world => P world ∧ world.Allows ⟨effect, answer⟩ := by
    apply leads_call
    intro world answer hworld hallows
    rw [hlook]
    exact ⟨hworld, hallows⟩
  exact hcall.bind fun answer => brings_orIo fun value hvalue world hworld =>
    himp world answer value hworld.1 hworld.2 hvalue

theorem brings_readDir {Q : List (Except Str Str) → World → Prop}
    (himp : ∀ world entries, P world → world.IsDir loc →
      (∀ name, (world.entry (loc.join name)).isSome →
        .ok name ∈ entries ∨ ∃ e, .error e ∈ entries) → Q entries world) :
    Brings time P (readDir loc) Q := by
  apply brings_look (.readDir loc) id (fun _ _ => rfl)
  intro world answer entries hworld hallows hvalue
  obtain ⟨hdir, hlisted⟩ := hallows entries hvalue
  exact himp world entries hworld hdir hlisted

theorem brings_fileType {Q : FileType → World → Prop}
    (himp : ∀ world kind, P world → (world.entry loc).map kindOf = some kind → Q kind world) :
    Brings time P (fileType loc) Q := by
  apply brings_look (.fileType loc) id (fun _ _ => rfl)
  intro world answer kind hworld hallows hvalue
  exact himp world kind hworld (hallows kind hvalue)

theorem brings_metadata {Q : Metadata → World → Prop}
    (himp : ∀ world info, P world → (∀ content modified,
      world.fileAt loc = some (content, modified) → info = ⟨content.length, some modified⟩) →
      Q info world) : Brings time P (metadata loc) Q := by
  apply brings_look (.metadata loc) id (fun _ _ => rfl)
  intro world answer info hworld hallows hvalue
  exact himp world info hworld (hallows info hvalue)

/-- Between the two halves of a successful copy nothing happens. -/
theorem brings_copy {src dst : Location} {Q : Unit → World → Prop}
    (himp : ∀ world content modified, P world → world.fileAt src = some (content, modified) →
      (∃ dir name, dst = dir.join name ∧ world.IsDir dir ∧ ¬ world.IsDir dst) →
      Q () (world.stamp time dst content)) : Brings time P (copy src dst) Q := by
  have hread : Brings time P (readFile src)
      fun content world => P world ∧ ∃ modified, world.fileAt src = some (content, modified) := by
    apply brings_look (.readFile src) id (fun _ _ => rfl)
    intro world answer content hworld hallows hvalue
    exact ⟨hworld, hallows content hvalue⟩
  refine hread.bind fun content => ?_
  have hfinish : Brings time
      (fun world => P world ∧ ∃ modified, world.fileAt src = some (content, modified))
      (perform (.finishCopy dst content))
      fun ending world => ending = CopyEnd.complete → Q () world := by
    apply leads_call
    rintro world ending ⟨hworld, modified, hsrc⟩ hallows rfl
    exact himp world content modified hworld hsrc (hallows rfl)
  refine hfinish.bind fun ending => ?_
  cases ending with
  | complete => exact leads_pure fun world hworld => hworld rfl
  | interrupted written e => exact leads_fail
  | refused e => exact leads_fail

/-- A call makes sure of its directory, then lists its source. -/
theorem brings_copyRecursive_succ {Q : Unit → World → Prop} {depth : Nat} {src dst : Location}
    (hcreate : ∀ world, P world → P (world.makeDirs dst))
    (hlist : Brings time P (readDir src >>= copyEntries (copyRecursive depth) src dst) Q) :
    Brings time P (copyRecursive (depth + 1) src dst) Q := by
  have hfound : Brings time P (pathExists dst) fun _ => P :=
    brings_pathExists fun world hworld => hworld
  refine hfound.bind fun found => ?_
  cases found with
  | true => exact hlist
  | false =>
      have hmade : Brings time P (createDirAll dst) fun _ => P := brings_createDirAll hcreate
      exact hmade.bind fun _ => hlist

end Effects

/-- Nobody has written to the source since the start. -/
def Unwritten (start world : World) : Prop :=
  world.tree .gfsSourceDir = start.tree .gfsSourceDir

theorem Unwritten.entry {start world : World} (hunwritten : Unwritten start world)
    (path : List Str) : world.entry (source path) = start.entry (source path) :=
  World.entry_of_tree hunwritten

/-- The pass has left the cached copy of the file alone, or has copied the file.
Once the file is settled, a copy that was left alone is one that passed for
fresh. -/
structure Passing (start : World) (path : List Str) (content : List UInt8) (settled : Prop)
    (world : World) : Prop where
  unwritten : Unwritten start world
  cached : world.entry (cache path) = start.entry (cache path) ∧ (settled → start.Fresh path) ∨
    ¬ start.Fresh path ∧ ∃ copied, world.fileAt (cache path) = some (content, copied)

/-- What a decision to copy the file, or not to, is based on. -/
def Decided (start : World) (path : List Str) (content : List UInt8) (settled : Prop)
    (decision : Bool) (world : World) : Prop :=
  if decision then Passing start path content settled world ∧ ¬ start.Fresh path
  else Passing start path content True world

section OneFile

variable {time : Nat → Nat} {start world : World} {path other : List Str}
  {content kept : List UInt8} {modified copied : Nat} {settled : Prop}

theorem fresh_iff (hfile : start.fileAt (source path) = some (content, modified))
    (hcopy : start.fileAt (cache path) = some (kept, copied)) :
    start.Fresh path ↔ content.length = kept.length ∧ modified ≤ copied := by
  constructor
  · rintro ⟨_, _, _, _, hsource, hcache, hfresh⟩
    rw [hfile] at hsource
    rw [hcopy] at hcache
    cases hsource
    cases hcache
    exact hfresh
  · intro hfresh
    exact ⟨content, modified, kept, copied, hfile, hcopy, hfresh⟩

namespace Passing

theorem mono {settled' : Prop} (hpassing : Passing start path content settled world)
    (himp : settled' → settled) : Passing start path content settled' world where
  unwritten := hpassing.unwritten
  cached := hpassing.cached.imp_left fun hkept => ⟨hkept.1, fun h => hkept.2 (himp h)⟩

theorem of_entry {next : World} (hpassing : Passing start path content settled world)
    (hsource : Unwritten world next)
    (hentry : next.entry (cache path) = world.entry (cache path)) :
    Passing start path content settled next where
  unwritten := hsource.trans hpassing.unwritten
  cached := by
    rw [hentry, World.fileAt_congr hentry]
    exact hpassing.cached

theorem makeDirs (hpassing : Passing start path content settled world)
    (hother : ¬ path <+: other) :
    Passing start path content settled (world.makeDirs (cache other)) :=
  hpassing.of_entry rfl (Tree.entry_makeDirs_of_not hother)

/-- Another file is copied. -/
theorem stamp_of_ne {dir : Location} {name : Str} {left : List UInt8}
    (hpassing : Passing start path content settled world) (hcache : dir.root = .localCacheDir)
    (hne : path ≠ dir.path ++ [name]) (hdir : world.IsDir dir)
    (hloc : ¬ world.IsDir (dir.join name)) :
    Passing start path content settled (world.stamp time (dir.join name) left) := by
  obtain ⟨root, above⟩ := dir
  subst hcache
  exact hpassing.of_entry rfl (Tree.entry_write_of_ne hdir hloc hne)

theorem stamp_self (hpassing : Passing start path content settled world)
    (hstale : ¬ start.Fresh path) :
    Passing start path content True (world.stamp time (cache path) content) where
  unwritten := hpassing.unwritten
  cached := .inr ⟨hstale, _, World.fileAt_stamp_self⟩

theorem source_entry (hpassing : Passing start path content settled world) (other : List Str) :
    world.entry (source other) = start.entry (source other) :=
  hpassing.unwritten.entry other

theorem source_file (hpassing : Passing start path content settled world) (other : List Str) :
    world.fileAt (source other) = start.fileAt (source other) :=
  World.fileAt_congr (hpassing.source_entry other)

end Passing

/-- Deciding whether to copy changes nothing. -/
theorem brings_shouldCopy_keeps {P : World → Prop} (src dst : Location) :
    Brings time P (shouldCopy src dst) fun _ => P := by
  have hfound : Brings time P (pathExists dst) fun _ => P :=
    brings_pathExists fun world hworld => hworld
  refine hfound.bind fun found => ?_
  split
  · have hmeta : ∀ loc, Brings time P (metadata loc) fun _ => P := fun loc =>
      brings_metadata fun world info hworld _ => hworld
    refine (hmeta src).bind fun srcMeta => (hmeta dst).bind fun dstMeta => ?_
    exact leads_pure fun world hworld => hworld
  · exact leads_pure fun world hworld => hworld

section Judged

variable (hfile : start.fileAt (source path) = some (content, modified))
  (hcache : ¬ start.IsDir (cache path))

include hcache in
/-- The cached copy, where there is one, is a file. -/
theorem Passing.exists_copy (hpassing : Passing start path content settled world)
    (hsome : (world.entry (cache path)).isSome) :
    ∃ kept copied, world.fileAt (cache path) = some (kept, copied) := by
  rcases hpassing.cached with ⟨hentry, _⟩ | ⟨_, copied, hcopy⟩
  · cases hcase : start.entry (cache path) with
    | none => simp [hentry, hcase] at hsome
    | some found =>
        cases found with
        | dir => exact absurd hcase hcache
        | file kept copied =>
            exact ⟨kept, copied, Tree.fileAt_eq_some.mpr (hentry.trans hcase)⟩
  · exact ⟨content, copied, hcopy⟩

theorem Passing.not_fresh_of_none (hpassing : Passing start path content settled world)
    (hnone : world.entry (cache path) = none) : ¬ start.Fresh path := by
  rcases hpassing.cached with ⟨hentry, _⟩ | ⟨hstale, _⟩
  · rintro ⟨_, _, kept, copied, _, hcopy, _⟩
    rw [hnone] at hentry
    rw [World.fileAt, Tree.fileAt_eq_some] at hcopy
    rw [World.entry, hcopy] at hentry
    cases hentry
  · exact hstale

include hfile in
/-- Length and modification time decide, unless the pass has copied the file. -/
theorem Passing.judge (hpassing : Passing start path content settled world)
    (hcopy : world.fileAt (cache path) = some (kept, copied)) :
    (content.length = kept.length ∧ modified ≤ copied → Passing start path content True world) ∧
      (¬ (content.length = kept.length ∧ modified ≤ copied) → ¬ start.Fresh path) := by
  rcases hpassing.cached with ⟨hentry, _⟩ | ⟨hstale, hdone⟩
  · have hfresh := fresh_iff hfile ((World.fileAt_congr hentry).symm.trans hcopy)
    constructor
    · intro hjudged
      exact ⟨hpassing.unwritten, .inl ⟨hentry, fun _ => hfresh.mpr hjudged⟩⟩
    · intro hjudged hstart
      exact hjudged (hfresh.mp hstart)
  · exact ⟨fun _ => ⟨hpassing.unwritten, .inr ⟨hstale, hdone⟩⟩, fun _ => hstale⟩

include hfile in
theorem Passing.decided (hpassing : Passing start path content settled world)
    (hcopy : world.fileAt (cache path) = some (kept, copied)) :
    Decided start path content settled (content.length != kept.length ||
      decide (copied < modified)) world := by
  obtain ⟨hfresh, hstale⟩ := hpassing.judge hfile hcopy
  have hdecision : (content.length != kept.length || decide (copied < modified)) = true ↔
      ¬ (content.length = kept.length ∧ modified ≤ copied) := by
    rw [Bool.or_eq_true, bne_iff_ne, decide_eq_true_iff]
    omega
  by_cases hjudged : content.length = kept.length ∧ modified ≤ copied
  · rw [Decided, if_neg fun htrue => hdecision.mp htrue hjudged]
    exact hfresh hjudged
  · rw [Decided, if_pos (hdecision.mpr hjudged)]
    exact ⟨hpassing, hstale hjudged⟩

include hfile hcache in
theorem brings_shouldCopy :
    Brings time (Passing start path content settled) (shouldCopy (source path) (cache path))
      (Decided start path content settled) := by
  have hfound : Brings time (Passing start path content settled) (pathExists (cache path))
      fun found world => Passing start path content settled world ∧
        found = (world.entry (cache path)).isSome :=
    brings_pathExists fun world hworld => ⟨hworld, rfl⟩
  refine hfound.bind fun found => ?_
  cases found with
  | false =>
      apply leads_pure
      rintro world ⟨hworld, hnone⟩
      exact ⟨hworld, hworld.not_fresh_of_none (by simpa using hnone.symm)⟩
  | true =>
      have hsrc : Brings time (fun world => Passing start path content settled world ∧
          true = (world.entry (cache path)).isSome) (metadata (source path))
          fun srcMeta world => (Passing start path content settled world ∧
            true = (world.entry (cache path)).isSome) ∧
            srcMeta = ⟨content.length, some modified⟩ := by
        apply brings_metadata
        intro world info hworld hinfo
        exact ⟨hworld, hinfo content modified ((hworld.1.source_file path).trans hfile)⟩
      refine hsrc.bind fun srcMeta => leads_of_fact ?_
      rintro rfl
      have hdst : Brings time (fun world => Passing start path content settled world ∧
          true = (world.entry (cache path)).isSome) (metadata (cache path))
          fun dstMeta world => Passing start path content settled world ∧
            ∃ kept copied, world.fileAt (cache path) = some (kept, copied) ∧
              dstMeta = ⟨kept.length, some copied⟩ := by
        apply brings_metadata
        rintro world info ⟨hworld, hsome⟩ hinfo
        obtain ⟨kept, copied, hcopy⟩ := hworld.exists_copy hcache hsome.symm
        exact ⟨hworld, kept, copied, hcopy, hinfo kept copied hcopy⟩
      refine hdst.bind fun dstMeta => leads_pure ?_
      rintro world ⟨hworld, kept, copied, hcopy, rfl⟩
      exact hworld.decided hfile hcopy

end Judged

section Tree

variable (hfile : start.fileAt (source path) = some (content, modified))

include hfile

theorem isDir_above {other : List Str} (hother : other <+: path) (hne : other ≠ path) :
    start.IsDir (source other) :=
  Tree.isDir_of_isPrefix (Tree.isSome_of_fileAt hfile) hother hne

theorem not_isPrefix_of_isDir (hdir : start.IsDir (source other)) : ¬ path <+: other := by
  intro hprefix
  have hpath : start.IsDir (source path) := by
    by_cases heq : path = other
    · rw [heq]
      exact hdir
    · exact Tree.isDir_of_isPrefix (Tree.IsDir.isSome hdir) hprefix heq
  have hnone := Tree.IsDir.fileAt hpath
  rw [World.fileAt, hnone] at hfile
  cases hfile

variable (hcache : ¬ start.IsDir (cache path))

include hcache

/-- Copying the file itself, or another one. -/
theorem brings_copyFile (other : List Str) :
    Brings time (fun world => Passing start path content settled world ∧
        ¬ start.IsDir (source other))
      (shouldCopy (source other) (cache other) >>= fun decision =>
        if decision = true then copy (source other) (cache other) else pure ())
      fun _ => Passing start path content (settled ∨ other <+: path) := by
  apply leads_of_fact
  intro hother
  by_cases heq : other = path
  · subst heq
    refine (brings_shouldCopy hfile hcache).bind fun decision => ?_
    cases decision with
    | false =>
        apply leads_pure
        intro world hworld
        exact hworld.mono fun _ => trivial
    | true =>
        apply brings_copy
        rintro world read _ ⟨hworld, hstale⟩ hread _
        rw [hworld.source_file, hfile] at hread
        cases hread
        exact (hworld.stamp_self hstale).mono fun _ => trivial
  · have hnot : settled ∨ other <+: path → settled := by
      rintro (hsettled | hprefix)
      · exact hsettled
      · exact absurd (isDir_above hfile hprefix heq) hother
    refine (brings_shouldCopy_keeps _ _).bind fun decision => ?_
    cases decision with
    | false => exact leads_pure fun world hworld => hworld.mono hnot
    | true =>
        apply brings_copy
        rintro world read _ hworld _ ⟨dir, name, hjoin, hdir, hloc⟩
        rw [hjoin] at hloc ⊢
        have hroot : .localCacheDir = dir.root := congrArg Location.root hjoin
        have hpath : other = dir.path ++ [name] := congrArg Location.path hjoin
        apply Passing.mono _ hnot
        exact hworld.stamp_of_ne hroot.symm (hpath ▸ Ne.symm heq) hdir hloc

theorem brings_copyEntry {recurse : Location → Location → SyncProg Unit} (other : List Str)
    (hrecurse : ¬ path <+: other → Brings time (Passing start path content settled)
      (recurse (source other) (cache other))
      fun _ => Passing start path content (settled ∨ other <+: path)) :
    Brings time (Passing start path content settled)
      (copyEntry recurse (source other) (cache other))
      fun _ => Passing start path content (settled ∨ other <+: path) := by
  have hkind : Brings time (Passing start path content settled) (fileType (source other))
      fun kind world => Passing start path content settled world ∧
        (start.entry (source other)).map kindOf = some kind := by
    apply brings_fileType
    intro world kind hworld hkind
    rw [hworld.source_entry] at hkind
    exact ⟨hworld, hkind⟩
  refine hkind.bind fun kind => leads_of_fact fun hkind => ?_
  obtain ⟨found, hfound, rfl⟩ := Option.map_eq_some_iff.mp hkind
  cases found with
  | dir => exact hrecurse (not_isPrefix_of_isDir hfile hfound)
  | file text written =>
      apply (brings_copyFile hfile hcache other).strengthen
      intro world hworld
      refine ⟨hworld, fun hdir => ?_⟩
      cases hfound.symm.trans hdir

/-- The loop over a listing settles the file below each of its entries. -/
theorem brings_copyEntries {recurse : Location → Location → SyncProg Unit} (dir : List Str)
    (hrecurse : ∀ settled other, ¬ path <+: other → Brings time
      (Passing start path content settled) (recurse (source other) (cache other))
      fun _ => Passing start path content (settled ∨ other <+: path))
    (entries : List (Except Str Str)) (settled : Prop) :
    Brings time (Passing start path content settled)
      (copyEntries recurse (source dir) (cache dir) entries)
      fun _ world => Passing start path content
          (settled ∨ ∃ name, .ok name ∈ entries ∧ dir ++ [name] <+: path) world ∧
        ∀ e, .error e ∉ entries := by
  induction entries generalizing settled with
  | nil =>
      apply leads_pure
      intro world hworld
      refine ⟨hworld.mono ?_, nofun⟩
      rintro (hsettled | ⟨_, hmem, _⟩)
      · exact hsettled
      · cases hmem
  | cons entry rest ih =>
      have hname : Brings time (Passing start path content settled) (orIo entry)
          fun name world => Passing start path content settled world ∧ entry = .ok name :=
        brings_orIo fun name hentry world hworld => ⟨hworld, hentry⟩
      refine hname.bind fun name => leads_of_fact ?_
      rintro rfl
      refine (brings_copyEntry hfile hcache _ (hrecurse settled _)).bind fun _ => ?_
      apply (ih _).mono
      rintro _ world ⟨hworld, hrest⟩
      constructor
      · apply hworld.mono
        rintro (hsettled | ⟨other, hmem, hother⟩)
        · exact .inl (.inl hsettled)
        · rcases List.mem_cons.mp hmem with hfirst | hlater
          · cases hfirst
            exact .inl (.inr hother)
          · exact .inr ⟨other, hlater, hother⟩
      · intro e hmem
        rcases List.mem_cons.mp hmem with hfirst | hlater
        · cases hfirst
        · exact hrest e hlater

/-- A directory is settled with everything below it. -/
theorem brings_copyRecursive (depth : Nat) (settled : Prop) (dir : List Str)
    (hdir : ¬ path <+: dir) :
    Brings time (Passing start path content settled)
      (copyRecursive depth (source dir) (cache dir))
      fun _ => Passing start path content (settled ∨ dir <+: path) := by
  induction depth generalizing settled dir with
  | zero => exact leads_fail
  | succ depth ih =>
      apply brings_copyRecursive_succ fun world hworld => hworld.makeDirs hdir
      have hread : Brings time (Passing start path content settled) (readDir (source dir))
          fun entries world => Passing start path content settled world ∧
            ∀ name, (start.entry (source (dir ++ [name]))).isSome →
              .ok name ∈ entries ∨ ∃ e, .error e ∈ entries := by
        apply brings_readDir
        intro world entries hworld _ hlisted
        refine ⟨hworld, fun name hname => hlisted name ?_⟩
        rw [← hworld.source_entry] at hname
        exact hname
      refine hread.bind fun entries => leads_of_fact fun hlisted => ?_
      apply (brings_copyEntries hfile hcache dir ih entries settled).mono
      rintro _ world ⟨hworld, hok⟩
      apply hworld.mono
      rintro (hsettled | ⟨rest, rfl⟩)
      · exact .inl hsettled
      · -- the file lies below the first name of the rest of its path
        cases rest with
        | nil => exact absurd (by rw [List.append_nil]) hdir
        | cons name rest =>
            have hbelow : dir ++ [name] <+: dir ++ name :: rest := ⟨rest, by simp⟩
            have hchild : (start.entry (source (dir ++ [name]))).isSome :=
              Tree.isSome_of_isPrefix (Tree.isSome_of_fileAt hfile) hbelow
            rcases hlisted name hchild with hname | ⟨e, he⟩
            · exact .inr ⟨name, hname, hbelow⟩
            · exact absurd he (hok e)

theorem brings_syncOnce (hpath : path ≠ []) (depth : Nat) :
    Brings time (Passing start path content False) (syncOnce depth)
      fun _ => Passing start path content True := by
  have hroot : (start.entry (source [])).isSome :=
    Tree.isSome_of_isPrefix (Tree.isSome_of_fileAt hfile) List.nil_prefix
  have hnil : ¬ path <+: [] := fun hprefix => hpath (List.prefix_nil.mp hprefix)
  have hfound : Brings time (Passing start path content False) (pathExists (source []))
      fun found world => Passing start path content False world ∧ found = true := by
    apply brings_pathExists
    intro world hworld
    rw [hworld.source_entry]
    exact ⟨hworld, hroot⟩
  refine hfound.bind fun found => leads_of_fact ?_
  rintro rfl
  have hcreate : Brings time (Passing start path content False) (createDirAll (cache []))
      fun _ => Passing start path content False :=
    brings_createDirAll fun world hworld => hworld.makeDirs hnil
  refine hcreate.bind fun _ => ?_
  apply (brings_copyRecursive hfile hcache depth False [] hnil).mono
  intro _ world hworld
  exact hworld.mono fun _ => .inr List.nil_prefix

end Tree

end OneFile

section Pass

variable {time : Nat → Nat} {start : World} {depth : Nat} {trace : List SyncEvent}

/-- A call that succeeds has listed its directory. -/
theorem brings_isDir (depth : Nat) (dir : List Str) :
    Brings time (Unwritten start) (copyRecursive depth (source dir) (cache dir))
      fun _ _ => start.IsDir (source dir) := by
  cases depth with
  | zero => exact leads_fail
  | succ depth =>
      apply brings_copyRecursive_succ fun world hworld => hworld
      have hread : Brings time (Unwritten start) (readDir (source dir))
          fun _ world => Unwritten start world ∧ start.IsDir (source dir) := by
        apply brings_readDir
        intro world entries hworld hdir _
        exact ⟨hworld, (hworld.entry dir).symm.trans hdir⟩
      refine hread.bind fun entries => leads_of_fact fun hdir => ?_
      exact leads_of_forall fun _ _ => hdir

/-- A pass that succeeds skips a missing source or lists it. -/
theorem brings_isDir_root (depth : Nat) :
    Brings time (Unwritten start) (syncOnce depth)
      fun _ _ => (start.entry (source [])).isSome → start.IsDir (source []) := by
  have hfound : Brings time (Unwritten start) (pathExists (source []))
      fun found world => Unwritten start world ∧ found = (start.entry (source [])).isSome := by
    apply brings_pathExists
    intro world hworld
    rw [hworld.entry]
    exact ⟨hworld, rfl⟩
  refine hfound.bind fun found => leads_of_fact fun hfound => ?_
  cases found with
  | false =>
      apply leads_pure
      intro world _ hsome
      cases hfound.trans hsome
  | true =>
      have hcreate : Brings time (Unwritten start) (createDirAll (cache []))
          fun _ => Unwritten start := brings_createDirAll fun world hworld => hworld
      refine hcreate.bind fun _ => ?_
      apply (brings_isDir depth []).mono
      intro _ world hdir _
      exact hdir

/-- Every source file has an identical copy in the cache. -/
def World.Mirrored (world : World) : Prop :=
  ∀ path content modified, world.fileAt (source path) = some (content, modified) →
    ∃ copied, world.fileAt (cache path) = some (content, copied)

/-- The cached copy passes for fresh and has another content. -/
def World.Deceived (world : World) (path : List Str) : Prop :=
  ∃ content modified copy copied, world.fileAt (source path) = some (content, modified) ∧
    world.fileAt (cache path) = some (copy, copied) ∧ content.length = copy.length ∧
    modified ≤ copied ∧ copy ≠ content

/-- A successful pass settles every source file. -/
theorem passing_of_runs
    (hagrees : ∀ path, path ≠ [] → start.IsDir (cache path) → start.IsDir (source path))
    (hruns : (syncOnce depth).Runs trace (.ok ()))
    (hmeets : StepRun.Meets (World.after time) World.Allows start trace)
    {path : List Str} {content : List UInt8} {modified : Nat}
    (hfile : start.fileAt (source path) = some (content, modified)) :
    Passing start path content True (trace.foldl (World.after time) start) := by
  have hnotDir : ¬ start.IsDir (source path) := by
    intro hdir
    cases hfile.symm.trans (Tree.IsDir.fileAt hdir)
  have hpath : path ≠ [] := by
    rintro rfl
    exact hnotDir ((brings_isDir_root depth).ends start trace () rfl hruns hmeets
      (Tree.isSome_of_fileAt hfile))
  have hcache : ¬ start.IsDir (cache path) := fun hdir => hnotDir (hagrees path hpath hdir)
  exact (brings_syncOnce hfile hcache hpath depth).ends start trace ()
    ⟨rfl, .inl ⟨rfl, False.elim⟩⟩ hruns hmeets

/-- A successful pass mirrors the source unless a cached copy deceives it. -/
theorem mirrored_iff
    (hagrees : ∀ path, path ≠ [] → start.IsDir (cache path) → start.IsDir (source path))
    (hruns : (syncOnce depth).Runs trace (.ok ()))
    (hmeets : StepRun.Meets (World.after time) World.Allows start trace) :
    (trace.foldl (World.after time) start).Mirrored ↔ ∀ path, ¬ start.Deceived path := by
  constructor
  · rintro hmirrored path ⟨content, modified, copy, copied, hfile, hcopy, hlength, hnewer, hne⟩
    have hfinal := passing_of_runs hagrees hruns hmeets hfile
    obtain ⟨_, hsame⟩ := hmirrored path content modified ((hfinal.source_file path).trans hfile)
    rcases hfinal.cached with ⟨hentry, _⟩ | ⟨hstale, _⟩
    · rw [World.fileAt_congr hentry, hcopy] at hsame
      cases hsame
      exact hne rfl
    · exact hstale ((fresh_iff hfile hcopy).mpr ⟨hlength, hnewer⟩)
  · intro hhonest path content modified hfile
    have hsource : Unwritten start (trace.foldl (World.after time) start) :=
      (follows_of_runs hruns).source_foldl start
    rw [World.fileAt_congr (hsource.entry path)] at hfile
    have hfinal := passing_of_runs hagrees hruns hmeets hfile
    rcases hfinal.cached with ⟨hentry, hfresh⟩ | ⟨_, hdone⟩
    · obtain ⟨read, written, copy, copied, hread, hcopy, hlength, hnewer⟩ := hfresh trivial
      rw [hfile] at hread
      cases hread
      refine ⟨copied, (World.fileAt_congr hentry).trans ?_⟩
      by_contra hne
      apply hhonest path
      refine ⟨content, modified, copy, copied, hfile, hcopy, hlength, hnewer, ?_⟩
      rintro rfl
      exact hne hcopy
    · exact hdone

end Pass

end AssetSyncer

end PiCluster
