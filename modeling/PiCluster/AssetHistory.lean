/-
Histories of source writes and passes.  A copy is overtaken when the source file
is written between the read and the end of the copy: the copy then has the later
modification time and the older content.  Overtaken copies of the right length
are all that a later pass can miss.
-/
import Mathlib.Order.Monotone.Basic
import PiCluster.AssetPass

namespace PiCluster

open Text Effects FileTree

namespace AssetSyncer

/-- A copy has read the source file. -/
def Item.reads (path : List Str) (content : List UInt8) : Item :=
  .sync ⟨.readFile (source path), Except.ok content⟩

/-- A copy of the file has ended. -/
def Item.finishes (path : List Str) (content : List UInt8) (ending : CopyEnd) : Item :=
  .sync ⟨.finishCopy (cache path) content, ending⟩

def Item.event : Item → Option SyncEvent
  | .write _ _ => none
  | .sync event => some event

/-- The syncer's part in what happened. -/
def events (items : List Item) : List SyncEvent := items.filterMap Item.event

/-- Source writes fall between the passes and anywhere inside them. -/
inductive History : List Item → Prop
  | start : History []
  | write {items : List Item} (path : List Str) (content : List UInt8)
      (hitems : History items) : History (items ++ [.write path content])
  | pass {items during : List Item} {depth : Nat} {result : Except SyncError Unit}
      (hitems : History items) (hruns : (syncOnce depth).Runs (events during) result) :
      History (items ++ during)

/-- Nothing is put there. -/
def Untouched (loc : Location) (items : List Item) : Prop :=
  ∀ item ∈ items, ∀ content, item.put ≠ some (loc, content)

/-- The last copy of the file was overtaken by the last write to it: the write
came after the copy's read and before its end, and its content is as long as
what the copy left, and different. -/
def Overtaken (items : List Item) (path : List Str) : Prop :=
  ∃ earlier before after later content ending copy newest,
    items = earlier ++ .reads path content :: (before ++ .write path newest :: after) ++
      .finishes path content ending :: later ∧
    events before = [] ∧ events after = [] ∧ CopyEnd.left content ending = some copy ∧
    Untouched (source path) (after ++ later) ∧ Untouched (cache path) later ∧
    copy.length = newest.length ∧ copy ≠ newest

theorem untouched_append {loc : Location} {past later : List Item} :
    Untouched loc (past ++ later) ↔ Untouched loc past ∧ Untouched loc later :=
  List.forall_mem_append

theorem untouched_cons {loc : Location} {item : Item} {rest : List Item} :
    Untouched loc (item :: rest) ↔
      (∀ content, item.put ≠ some (loc, content)) ∧ Untouched loc rest :=
  List.forall_mem_cons

/-- Nothing is put there, or there is a last time. -/
theorem untouched_or_last (loc : Location) (items : List Item) :
    Untouched loc items ∨ ∃ past item later content, items = past ++ item :: later ∧
      item.put = some (loc, content) ∧ Untouched loc later := by
  rcases StepRun.exists_last (fun item => ∃ content, item.put = some (loc, content)) items
    with hnone | ⟨past, item, later, hitems, ⟨content, hput⟩, hlater⟩
  · exact .inl fun item hitem content hput => hnone item hitem ⟨content, hput⟩
  · exact .inr ⟨past, item, later, content, hitems, hput,
      fun other hother content hput => hlater other hother ⟨content, hput⟩⟩

section Rules

/-- The rule of a pass, with the source writes in between. -/
def ItemRule (past : List Item) (item : Item) : Prop :=
  ∀ event, item = .sync event → PassRule (events past) event

theorem events_append (past later : List Item) :
    events (past ++ later) = events past ++ events later :=
  List.filterMap_append

theorem follows_items {items : List Item} (hfollows : Follows (events items)) :
    StepRun.Follows ItemRule items := by
  intro past item later hsplit event hitem
  apply hfollows (events past) event (events later)
  rw [hsplit, events_append, hitem]
  rfl

theorem History.follows {items : List Item} (hhistory : History items) :
    StepRun.Follows ItemRule items := by
  induction hhistory with
  | start => exact StepRun.follows_nil
  | write path content _ ih =>
      apply ih.snoc
      intro event hitem
      cases hitem
  | @pass items during depth result _ hruns ih =>
      apply ih.append (follows_items (follows_of_runs hruns))
      intro middle item hrule event hitem
      rw [events_append]
      exact passRule_append (events items) (hrule event hitem)

end Rules

namespace World

variable {time : Nat → Nat} {world : World} {loc : Location} {content : List UInt8}
  {past later items : List Item} {item : Item}

theorem run_append : world.run time (past ++ later) = (world.run time past).run time later :=
  List.foldl_append

theorem honest_append : world.Honest time (past ++ later) ↔
    world.Honest time past ∧ (world.run time past).Honest time later :=
  StepRun.meets_append

theorem ticks_le_run (hhonest : world.Honest time items) :
    world.ticks ≤ (world.run time items).ticks := by
  induction items generalizing world with
  | nil => exact le_refl world.ticks
  | cons item rest ih => exact (ticks_le_act hhonest.1).trans (ih hhonest.2)

theorem fileAt_run_of_untouched (hhonest : world.Honest time items)
    (huntouched : Untouched loc items) :
    (world.run time items).fileAt loc = world.fileAt loc := by
  induction items generalizing world with
  | nil => rfl
  | cons item rest ih =>
      obtain ⟨hfirst, hrest⟩ := List.forall_mem_cons.mp huntouched
      exact (ih hhonest.2 hrest).trans (fileAt_act_of_not_put hfirst hhonest.1)

/-- A file is as it was put last. -/
theorem fileAt_run_of_put (hhonest : world.Honest time (past ++ item :: later))
    (hput : item.put = some (loc, content)) (huntouched : Untouched loc later) :
    (world.run time (past ++ item :: later)).fileAt loc =
      some (content, time (world.run time past).ticks) := by
  obtain ⟨_, hitem, hlater⟩ := honest_append.mp hhonest
  rw [run_append]
  calc ((world.run time past).run time (item :: later)).fileAt loc
    _ = ((world.run time past).act time item).fileAt loc :=
        fileAt_run_of_untouched hlater huntouched
    _ = some (content, time (world.run time past).ticks) := by
        rw [act_of_put hput hitem]
        exact fileAt_stamp_self

/-- The clock has moved on after a file was put somewhere. -/
theorem ticks_lt_run (hhonest : world.Honest time (past ++ item :: later))
    (hput : item.put = some (loc, content)) :
    (world.run time past).ticks < (world.run time (past ++ item :: later)).ticks := by
  obtain ⟨_, hitem, hlater⟩ := honest_append.mp hhonest
  have hact : ((world.run time past).act time item).ticks = (world.run time past).ticks + 1 := by
    rw [act_of_put hput hitem]
    rfl
  have hle := ticks_le_run hlater
  rw [hact] at hle
  rw [run_append]
  exact hle

end World

/-- The cache holds nothing yet; its own directory may exist. -/
def World.CacheEmpty (world : World) : Prop :=
  ∀ path, (world.entry (cache path)).isSome → path = [] ∧ world.IsDir (cache path)

section Kinds

variable {time : Nat → Nat} {world start : World} {item : Item} {items : List Item}
  {path : List Str}

/-- New cache directories come from `create_dir_all` only. -/
theorem isDir_cache_of_act (hadmits : world.Admits item)
    (hdir : (world.act time item).IsDir (cache path)) :
    world.IsDir (cache path) ∨ ∃ loc, item = .sync ⟨.createDirAll loc, Except.ok ()⟩ ∧
      loc.root = .localCacheDir ∧ path <+: loc.path := by
  cases item with
  | write written content => exact .inl hdir
  | sync event =>
      obtain ⟨effect, answer⟩ := event
      cases effect with
      | createDirAll loc =>
          cases answer with
          | error e => exact .inl hdir
          | ok value =>
              rcases World.isDir_makeDirs_iff.mp hdir with ⟨hroot, habove⟩ | hdir
              · exact .inr ⟨loc, rfl, hroot.symm, habove⟩
              · exact .inl hdir
      | finishCopy loc content =>
          cases hleft : CopyEnd.left content answer with
          | none =>
              simp only [World.act, World.after, World.copied, hleft] at hdir
              exact .inl hdir
          | some left =>
              have hallows : world.Allows ⟨.finishCopy loc content, answer⟩ := hadmits
              obtain ⟨dir, name, rfl, hparent, _⟩ := hallows (by rw [hleft]; rfl)
              simp only [World.act, World.after, World.copied, hleft] at hdir
              exact .inl (hparent.of_stamp hdir)
      | pathExists | readDir | fileType | metadata | readFile => exact .inl hdir

/-- Where the cache has a directory the source has one, and what the source has
shown as a directory is one. -/
structure Agreeing (start : World) (time : Nat → Nat) (items : List Item) : Prop where
  dirs : ∀ path, path ≠ [] → (start.run time items).IsDir (cache path) →
    (start.run time items).IsDir (source path)
  shown : ∀ path, ⟨.fileType (source path), Except.ok FileType.dir⟩ ∈ events items →
    (start.run time items).IsDir (source path)

theorem Agreeing.snoc (hagreeing : Agreeing start time items) (hrule : ItemRule items item)
    (hadmits : (start.run time items).Admits item) : Agreeing start time (items ++ [item]) where
  dirs := by
    intro path hpath hdir
    rw [World.run_append] at hdir ⊢
    apply World.IsDir.act _ hadmits
    rcases isDir_cache_of_act hadmits hdir with hdir | ⟨loc, rfl, _, habove⟩
    · exact hagreeing.dirs path hpath hdir
    · obtain ⟨dir, rfl, hshown⟩ := hrule _ rfl
      rcases hshown with rfl | hshown
      · exact absurd (List.prefix_nil.mp habove) hpath
      · have hsource := hagreeing.shown dir hshown
        by_cases heq : path = dir
        · rw [heq]
          exact hsource
        · exact Tree.isDir_of_isPrefix (Tree.IsDir.isSome hsource) habove heq
  shown := by
    intro path hshown
    rw [World.run_append]
    apply World.IsDir.act _ hadmits
    rw [events_append, List.mem_append] at hshown
    rcases hshown with hpast | hlast
    · exact hagreeing.shown path hpast
    · cases item with
      | write written content => cases hlast
      | sync event =>
          obtain rfl := List.mem_singleton.mp hlast
          obtain ⟨found, hfound, hkind⟩ := Option.map_eq_some_iff.mp (hadmits _ rfl)
          cases found with
          | file content modified => cases hkind
          | dir => exact hfound

theorem agreeing_of_honest (hempty : start.CacheEmpty) (hhistory : History items)
    (hhonest : start.Honest time items) : Agreeing start time items := by
  apply hhonest.snoc_induction hhistory.follows
  · constructor
    · intro path hpath hdir
      exact absurd (hempty path (Tree.IsDir.isSome hdir)).1 hpath
    · intro path hshown
      cases hshown
  · intro past item hpast hrule hadmits
    exact hpast.snoc hrule hadmits

end Kinds

section Overtaking

variable {time : Nat → Nat} {start : World} {items : List Item} {path : List Str}

/-- What a copy leaves is as long as what it read only if it is the same. -/
theorem left_eq_of_length {content copy : List UInt8} {ending : CopyEnd}
    (hleft : ending.left content = some copy) (hlength : copy.length = content.length) :
    copy = content := by
  cases ending with
  | complete => exact (Option.some.inj hleft).symm
  | interrupted written e =>
      obtain rfl := Option.some.inj hleft
      have hinitial : content.take written <+: content := List.take_prefix written content
      exact hinitial.eq_of_length hlength
  | refused e => cases hleft

theorem put_cache_inv {item : Item} {copy : List UInt8}
    (hput : item.put = some (cache path, copy)) :
    ∃ content ending, item = .finishes path content ending ∧
      CopyEnd.left content ending = some copy := by
  cases item with
  | write written content =>
      have hroot := congrArg (Option.map fun put => put.1.root) hput
      cases hroot
  | sync event =>
      obtain ⟨effect, answer⟩ := event
      cases effect with
      | finishCopy loc content =>
          obtain ⟨left, hleft, hpair⟩ := Option.map_eq_some_iff.mp hput
          cases hpair
          exact ⟨content, answer, rfl, hleft⟩
      | pathExists | createDirAll | readDir | fileType | metadata | readFile => cases hput

theorem put_source_inv {item : Item} {content : List UInt8} (hitem : item.event = none)
    (hput : item.put = some (source path, content)) : item = .write path content := by
  cases item with
  | write written text =>
      cases hput
      rfl
  | sync event => cases hitem

/-- The last effect before a point, with the source writes since. -/
theorem exists_last_event {past : List Item} {earlier : List SyncEvent} {event : SyncEvent}
    (hpast : events past = earlier ++ [event]) :
    ∃ before during, past = before ++ .sync event :: during ∧ events during = [] := by
  obtain ⟨before, rest, rfl, _, hrest⟩ := List.filterMap_eq_append_iff.mp hpast
  obtain ⟨writes, item, during, rfl, _, hitem, hduring⟩ := List.filterMap_eq_cons_iff.mp hrest
  cases item with
  | write written content => cases hitem
  | sync last =>
      obtain rfl := Option.some.inj hitem
      exact ⟨before ++ writes, during, by simp, hduring⟩

/-- A cached file comes from its last copy. -/
theorem exists_last_copy (hempty : start.CacheEmpty) (hhistory : History items)
    (hhonest : start.Honest time items) {copy : List UInt8} {copied : Nat}
    (hcopy : (start.run time items).fileAt (cache path) = some (copy, copied)) :
    ∃ earlier during later content ending,
      items = earlier ++ .reads path content :: during ++ .finishes path content ending :: later ∧
      events during = [] ∧ CopyEnd.left content ending = some copy ∧
      Untouched (cache path) later := by
  rcases untouched_or_last (cache path) items with
    huntouched | ⟨past, item, later, left, rfl, hput, huntouched⟩
  · -- a cache that was never written to is still empty
    rw [World.fileAt_run_of_untouched hhonest huntouched] at hcopy
    have hdir := (hempty path (Tree.isSome_of_fileAt hcopy)).2
    cases hcopy.symm.trans (Tree.IsDir.fileAt hdir)
  · rw [World.fileAt_run_of_put hhonest hput huntouched] at hcopy
    cases hcopy
    obtain ⟨content, ending, rfl, hleft⟩ := put_cache_inv hput
    obtain ⟨earlier, read, hread, hpast⟩ := hhistory.follows past _ later rfl _ rfl
    obtain rfl : path = read := congrArg Location.path hread
    obtain ⟨before, during, rfl, hduring⟩ := exists_last_event hpast
    exact ⟨before, during, later, content, ending, rfl, hduring, hleft, huntouched⟩

/-- A file no newer than an earlier item has not been put since. -/
theorem untouched_of_le (htime : StrictMono time) {past later : List Item} {item : Item}
    (hhonest : start.Honest time (past ++ item :: later)) {put : Location × List UInt8}
    (hput : item.put = some put) {loc : Location} {content : List UInt8} {modified : Nat}
    (hfile : (start.run time (past ++ item :: later)).fileAt loc = some (content, modified))
    (hle : modified ≤ time (start.run time past).ticks) : Untouched loc later := by
  rcases untouched_or_last loc later with
    huntouched | ⟨before, last, after, newest, rfl, hlast, huntouched⟩
  · exact huntouched
  · have hsplit : past ++ item :: (before ++ last :: after) =
        (past ++ item :: before) ++ last :: after := by simp
    rw [hsplit] at hhonest hfile
    rw [World.fileAt_run_of_put hhonest hlast huntouched] at hfile
    cases hfile
    have hlt := World.ticks_lt_run (World.honest_append.mp hhonest).1 hput
    exact absurd hle (not_le.mpr (htime hlt))

theorem put_finish {content copy : List UInt8} {ending : CopyEnd}
    (hleft : CopyEnd.left content ending = some copy) :
    (Item.finishes path content ending).put = some (cache path, copy) := by
  simp only [Item.finishes, Item.put, SyncEvent.put, hleft, Option.map_some]

/-- A copy that was not overtaken is the source file as it still is. -/
theorem content_of_not_overtaken {earlier during later : List Item}
    {read copy content : List UInt8} {ending : CopyEnd} {modified : Nat}
    (hhonest : start.Honest time (earlier ++ .reads path read :: during ++
      .finishes path read ending :: later))
    (hleft : CopyEnd.left read ending = some copy) (hduring : Untouched (source path) during)
    (hlater : Untouched (source path) later)
    (hfile : (start.run time (earlier ++ .reads path read :: during ++
      .finishes path read ending :: later)).fileAt (source path) = some (content, modified)) :
    content = read := by
  rw [List.append_assoc] at hhonest hfile
  obtain ⟨_, hrest⟩ := World.honest_append.mp hhonest
  obtain ⟨written, hread⟩ := hrest.1 read rfl
  have huntouched : Untouched (source path)
      (.reads path read :: during ++ .finishes path read ending :: later) := by
    refine untouched_append.mpr ⟨untouched_cons.mpr ⟨nofun, hduring⟩, ?_⟩
    refine untouched_cons.mpr ⟨?_, hlater⟩
    intro content hput
    rw [put_finish hleft] at hput
    cases hput
  rw [World.run_append, World.fileAt_run_of_untouched hrest huntouched, hread] at hfile
  cases hfile
  rfl

/-- The source file as the overtaking write left it. -/
theorem fileAt_of_overtaken {earlier before after later : List Item}
    {read newest copy : List UInt8} {ending : CopyEnd}
    (hhonest : start.Honest time (earlier ++ .reads path read ::
      (before ++ .write path newest :: after) ++ .finishes path read ending :: later))
    (hleft : CopyEnd.left read ending = some copy)
    (huntouched : Untouched (source path) (after ++ later)) :
    (start.run time (earlier ++ .reads path read :: (before ++ .write path newest :: after) ++
      .finishes path read ending :: later)).fileAt (source path) =
      some (newest, time (start.run time (earlier ++ .reads path read :: before)).ticks) := by
  have hsplit : earlier ++ .reads path read :: (before ++ .write path newest :: after) ++
      .finishes path read ending :: later = (earlier ++ .reads path read :: before) ++
        .write path newest :: (after ++ .finishes path read ending :: later) := by simp
  rw [hsplit] at hhonest ⊢
  apply World.fileAt_run_of_put hhonest rfl
  obtain ⟨hafter, hlater⟩ := untouched_append.mp huntouched
  refine untouched_append.mpr ⟨hafter, untouched_cons.mpr ⟨?_, hlater⟩⟩
  intro content hput
  rw [put_finish hleft] at hput
  cases hput

/-- A cached copy deceives the next pass exactly if it was overtaken. -/
theorem deceived_iff_overtaken (htime : StrictMono time) (hempty : start.CacheEmpty)
    (hhistory : History items) (hhonest : start.Honest time items) :
    (start.run time items).Deceived path ↔ Overtaken items path := by
  constructor
  · rintro ⟨content, modified, copy, copied, hfile, hcopy, hlength, hle, hne⟩
    obtain ⟨earlier, during, later, read, ending, rfl, hduring, hleft, hcache⟩ :=
      exists_last_copy hempty hhistory hhonest hcopy
    rw [World.fileAt_run_of_put hhonest (put_finish hleft) hcache] at hcopy
    cases hcopy
    have hlater : Untouched (source path) later :=
      untouched_of_le htime hhonest (put_finish hleft) hfile hle
    rcases untouched_or_last (source path) during with
      hnone | ⟨before, item, after, newest, rfl, hput, hafter⟩
    · -- nobody wrote since the read: the copy has the source's content
      obtain rfl := content_of_not_overtaken hhonest hleft hnone hlater hfile
      exact absurd (left_eq_of_length hleft hlength.symm) hne
    · obtain ⟨hbefore, hitem, hafterEvents⟩ : events before = [] ∧ item.event = none ∧
          events after = [] := by
        rw [events_append, List.append_eq_nil_iff] at hduring
        obtain ⟨hitem, hrest⟩ := List.forall_mem_cons.mp (List.filterMap_eq_nil_iff.mp hduring.2)
        exact ⟨hduring.1, hitem, List.filterMap_eq_nil_iff.mpr hrest⟩
      obtain rfl := put_source_inv hitem hput
      have huntouched := untouched_append.mpr ⟨hafter, hlater⟩
      rw [fileAt_of_overtaken hhonest hleft huntouched] at hfile
      cases hfile
      exact ⟨earlier, before, after, later, read, ending, copy, content, rfl, hbefore,
        hafterEvents, hleft, huntouched, hcache, hlength.symm, hne⟩
  · rintro ⟨earlier, before, after, later, read, ending, copy, newest, rfl, _, _, hleft,
      huntouched, hcache, hlength, hne⟩
    refine ⟨newest, _, copy, _, fileAt_of_overtaken hhonest hleft huntouched,
      World.fileAt_run_of_put hhonest (put_finish hleft) hcache, hlength.symm, ?_, hne⟩
    have hsplit : earlier ++ .reads path read :: (before ++ .write path newest :: after) =
        (earlier ++ .reads path read :: before) ++ .write path newest :: after := by simp
    have hpast := (World.honest_append.mp hhonest).1
    rw [hsplit] at hpast ⊢
    exact htime.monotone (World.ticks_lt_run hpast rfl).le

/-- After a pass that nobody disturbs and that succeeds, the cache mirrors the
source exactly if no file's last copy was overtaken in the history before. -/
theorem syncOnce_catches_up_iff (htime : StrictMono time) (hempty : start.CacheEmpty)
    (hhistory : History items) {depth : Nat} {trace : List SyncEvent}
    (hruns : (syncOnce depth).Runs trace (.ok ()))
    (hhonest : start.Honest time (items ++ trace.map .sync)) :
    (start.run time (items ++ trace.map .sync)).Mirrored ↔
      ∀ path, ¬ Overtaken items path := by
  obtain ⟨hitems, htrace⟩ := World.honest_append.mp hhonest
  have hagreeing := agreeing_of_honest hempty hhistory hitems
  have hmirrored := mirrored_iff hagreeing.dirs hruns ((StepRun.meets_map Item.sync).mp htrace)
  rw [World.run_append, World.run, List.foldl_map]
  apply hmirrored.trans
  exact forall_congr' fun path =>
    not_congr (deceived_iff_overtaken htime hempty hhistory hitems)

end Overtaking

namespace HistoryWitness

def kernel : Str := "vmlinuz".toList

/-- One kernel in the source, and no cache. -/
def start : World where
  ticks := 1
  tree
    | .gfsSourceDir => Tree.empty.write [kernel] [1] 0
    | .localCacheDir => Tree.empty

theorem cacheEmpty_start : start.CacheEmpty := by
  intro path hsome
  cases hsome

/-- A pass comes to the kernel. -/
def visit : List SyncEvent :=
  [⟨.pathExists (source []), true⟩, ⟨.createDirAll (cache []), Except.ok ()⟩,
    ⟨.pathExists (cache []), true⟩, ⟨.readDir (source []), Except.ok [Except.ok kernel]⟩,
    ⟨.fileType (source [kernel]), Except.ok .file⟩]

theorem honest_visit {world : World} {content : List UInt8} {modified : Nat}
    (hroot : world.IsDir (source []))
    (hkernel : world.entry (source [kernel]) = some (.file content modified))
    (honly : ∀ name, (world.entry (source [name])).isSome → name = kernel)
    (hcache : world.fileAt (cache []) = none) : world.Honest id (visit.map .sync) := by
  refine ⟨(Tree.IsDir.isSome hroot).symm, ?_, rfl, ?_, ?_, trivial⟩
  · intro _ path hpath
    obtain rfl := List.prefix_nil.mp hpath
    exact hcache
  · intro entries hentries
    cases hentries
    refine ⟨hroot, fun name hname => .inl ?_⟩
    rw [honly name hname]
    exact List.mem_cons_self
  · intro kind hkind
    cases hkind
    exact congrArg (Option.map kindOf) hkernel

theorem only_kernel {content : List UInt8} {modified : Nat} {tree : Tree Str (List UInt8)}
    (honly : ∀ name, (tree.entry [name]).isSome → name = kernel) (name : Str)
    (hname : ((tree.write [kernel] content modified).entry [name]).isSome) : name = kernel := by
  rcases Tree.isSome_of_write hname with hprefix | hold
  · exact (List.cons_prefix_cons.mp hprefix).1
  · exact honly name hold

/-- The kernel is a file right below the source directory. -/
theorem writable_kernel {tree : Tree Str (List UInt8)} {content : List UInt8} {modified : Nat}
    (hroot : tree.IsDir []) (hkernel : tree.fileAt [kernel] = some (content, modified)) :
    tree.Writable [kernel] := by
  apply Tree.writable_of_isDir hroot
  intro hdir
  cases hkernel.symm.trans hdir.fileAt

/-- The kernel is replaced before the pass, which copies the new one. -/
def copied : List SyncEvent :=
  visit ++ [⟨.pathExists (cache [kernel]), false⟩,
    ⟨.readFile (source [kernel]), Except.ok [2]⟩, ⟨.finishCopy (cache [kernel]) [2], .complete⟩]

theorem honest_copied : start.Honest id ([.write [kernel] [2]] ++ copied.map .sync) := by
  rw [copied, List.map_append]
  apply World.honest_append.mpr
  constructor
  · exact ⟨writable_kernel rfl rfl, trivial⟩
  · apply World.honest_append.mpr
    constructor
    · exact honest_visit rfl rfl (only_kernel (only_kernel nofun)) rfl
    · refine ⟨rfl, ?_, ?_, trivial⟩
      · intro content hcontent
        cases hcontent
        exact ⟨1, rfl⟩
      · intro _
        refine ⟨cache [], kernel, rfl, rfl, ?_⟩
        intro hdir
        cases hdir

theorem replaced_kernel_mirrored :
    (start.run id ([.write [kernel] [2]] ++ copied.map .sync)).Mirrored := by
  have hruns : (syncOnce 1).Runs copied (.ok ()) := by repeat constructor
  have hhistory : History [.write [kernel] [2]] := .write [kernel] [2] .start
  apply (syncOnce_catches_up_iff strictMono_id cacheEmpty_start hhistory hruns
    honest_copied).mpr
  rintro path ⟨earlier, before, after, later, read, ending, copy, newest, hitems, _⟩
  have hread : Item.reads path read ∈ [Item.write [kernel] [2]] := by
    rw [hitems]
    simp
  cases List.mem_singleton.mp hread

/-- The kernel is replaced while its first copy is under way. -/
def history : List Item :=
  visit.map .sync ++ [.sync ⟨.pathExists (cache [kernel]), false⟩, .reads [kernel] [1],
    .write [kernel] [2], .finishes [kernel] [1] .complete]

/-- The next pass finds the copy as long as the kernel and not older. -/
def quiet : List SyncEvent :=
  visit ++ [⟨.pathExists (cache [kernel]), true⟩,
    ⟨.metadata (source [kernel]), Except.ok ⟨1, some 1⟩⟩,
    ⟨.metadata (cache [kernel]), Except.ok ⟨1, some 2⟩⟩]

theorem honest_history : start.Honest id history := by
  apply World.honest_append.mpr
  constructor
  · exact honest_visit rfl rfl (only_kernel nofun) rfl
  · refine ⟨rfl, ?_, writable_kernel rfl rfl, ?_, trivial⟩
    · intro content hcontent
      cases hcontent
      exact ⟨0, rfl⟩
    · intro _
      refine ⟨cache [], kernel, rfl, rfl, ?_⟩
      intro hdir
      cases hdir

theorem honest_quiet : (start.run id history).Honest id (quiet.map .sync) := by
  rw [quiet, List.map_append]
  apply World.honest_append.mpr
  constructor
  · exact honest_visit rfl rfl (only_kernel (only_kernel nofun)) rfl
  · refine ⟨rfl, ?_, ?_, trivial⟩
    · intro info hinfo content modified hfile
      cases hinfo
      cases hfile
      rfl
    · intro info hinfo content modified hfile
      cases hinfo
      cases hfile
      rfl

/-- The old kernel stays in the cache. -/
theorem overtaken_kernel_missed : start.CacheEmpty ∧ History history ∧
    (syncOnce 1).Runs quiet (.ok ()) ∧ start.Honest id (history ++ quiet.map .sync) ∧
    ¬ (start.run id (history ++ quiet.map .sync)).Mirrored := by
  have hruns : (syncOnce 1).Runs (events history) (.ok ()) := by repeat constructor
  have hhistory : History ([] ++ history) := .pass .start hruns
  refine ⟨cacheEmpty_start, hhistory, ?_, ?_, ?_⟩
  · repeat constructor
  · exact World.honest_append.mpr ⟨honest_history, honest_quiet⟩
  · intro hmirrored
    obtain ⟨copied, hcopy⟩ := hmirrored [kernel] [2] 1 rfl
    cases hcopy

end HistoryWitness

section Provenance

variable {time : Nat → Nat} {start : World} {items : List Item} {path : List Str}

/-- What is left of a copy is all of it, or an initial part after an interruption. -/
theorem left_cases {content copy : List UInt8} {ending : CopyEnd}
    (hleft : CopyEnd.left content ending = some copy) :
    copy = content ∨ copy <+: content ∧ ∃ written e, ending = .interrupted written e := by
  cases ending with
  | complete => exact .inl (Option.some.inj hleft).symm
  | interrupted written e =>
      obtain rfl := Option.some.inj hleft
      have hinitial : content.take written <+: content := List.take_prefix written content
      exact .inr ⟨hinitial, written, e, rfl⟩
  | refused e => cases hleft

/-- The content a copy is finished with was in the source file when the copy read it. -/
theorem source_of_finishes (hhistory : History items) (hhonest : start.Honest time items)
    {past later : List Item} {content : List UInt8} {ending : CopyEnd}
    (hitems : items = past ++ .finishes path content ending :: later) :
    ∃ before during modified, past = before ++ .reads path content :: during ∧
      (start.run time before).fileAt (source path) = some (content, modified) := by
  obtain ⟨earlier, read, hread, hpast⟩ := hhistory.follows past _ later hitems _ rfl
  obtain rfl : path = read := congrArg Location.path hread
  obtain ⟨before, during, rfl, _⟩ := exists_last_event hpast
  rw [hitems, List.append_assoc] at hhonest
  obtain ⟨modified, hsource⟩ := (World.honest_append.mp hhonest).2.1 content rfl
  exact ⟨before, during, modified, rfl, hsource⟩

/-- Over every history a cached file stays there, and what it holds was there from the
start or was in the source file at an earlier time: all of it, or an initial part if a
copy of the file was interrupted. -/
theorem run_provenance (hhistory : History items) (hhonest : start.Honest time items)
    (path : List Str) :
    ((start.fileAt (cache path)).isSome →
        ((start.run time items).fileAt (cache path)).isSome) ∧
      ∀ copy copied, (start.run time items).fileAt (cache path) = some (copy, copied) →
        start.fileAt (cache path) = some (copy, copied) ∨
        ∃ before content modified, before <+: items ∧
          (start.run time before).fileAt (source path) = some (content, modified) ∧
          (copy = content ∨ copy <+: content ∧
            ∃ written e, Item.finishes path content (.interrupted written e) ∈ items) := by
  rcases untouched_or_last (cache path) items with
    huntouched | ⟨past, item, later, left, hitems, hput, huntouched⟩
  · have hsame := World.fileAt_run_of_untouched hhonest huntouched
    rw [hsame]
    exact ⟨id, fun copy copied hcopy => .inl hcopy⟩
  · obtain ⟨content, ending, rfl, hleft⟩ := put_cache_inv hput
    obtain ⟨before, during, modified, hpast, hsource⟩ :=
      source_of_finishes hhistory hhonest hitems
    have hlast : (start.run time items).fileAt (cache path) =
        some (left, time (start.run time past).ticks) := by
      rw [hitems] at hhonest ⊢
      exact World.fileAt_run_of_put hhonest hput huntouched
    rw [hlast]
    refine ⟨fun _ => rfl, fun copy copied hcopy => .inr ?_⟩
    obtain ⟨rfl, -⟩ := Prod.mk.inj (Option.some.inj hcopy)
    refine ⟨before, content, modified, ?_, hsource, ?_⟩
    · rw [hitems, hpast, List.append_assoc]
      exact List.prefix_append before _
    · rcases left_cases hleft with hall | ⟨hpart, written, e, rfl⟩
      · exact .inl hall
      · refine .inr ⟨hpart, written, e, ?_⟩
        rw [hitems]
        exact List.mem_append_right past List.mem_cons_self

end Provenance

namespace ProvenanceWitness

open HistoryWitness

/-- The kernel in the cache is the one from before the write. -/
theorem cached_kernel_was_source :
    (start.run id history).fileAt (cache [kernel]) = some ([1], 2) ∧
      ∃ before content modified, before <+: history ∧
        (start.run id before).fileAt (source [kernel]) = some (content, modified) ∧
        ([1] = content ∨ [1] <+: content ∧
          ∃ written e, Item.finishes [kernel] content (.interrupted written e) ∈ history) := by
  have hruns : (syncOnce 1).Runs (events history) (.ok ()) := by repeat constructor
  have hhistory : History ([] ++ history) := .pass .start hruns
  have hcopy : (start.run id history).fileAt (cache [kernel]) = some ([1], 2) := rfl
  refine ⟨hcopy, ?_⟩
  rcases (run_provenance hhistory honest_history [kernel]).2 [1] 2 hcopy with hstart | hsource
  · cases hstart
  · exact hsource

end ProvenanceWitness

end AssetSyncer

end PiCluster
