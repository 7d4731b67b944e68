/-
What a pass does whatever the answers: it changes the cache only, makes a
directory only where the source has shown one, and finishes a copy right after
it has read the source file.
-/
import PiCluster.AssetSync

namespace PiCluster

open Text Effects FileTree

namespace AssetSyncer

/-- The source has shown a directory there; the pass starts at the root. -/
def Shown (dir : List Str) (past : List SyncEvent) : Prop :=
  dir = [] ∨ ⟨.fileType (source dir), Except.ok FileType.dir⟩ ∈ past

/-- When the pass may change something. -/
def PassRule (past : List SyncEvent) : SyncEvent → Prop
  | ⟨.createDirAll loc, _⟩ => ∃ dir, loc = cache dir ∧ Shown dir past
  | ⟨.finishCopy loc content, _⟩ => ∃ earlier path, loc = cache path ∧
      past = earlier ++ [⟨.readFile (source path), Except.ok content⟩]
  | _ => True

theorem passRule_append (earlier : List SyncEvent) {past : List SyncEvent} {event : SyncEvent}
    (hrule : PassRule past event) : PassRule (earlier ++ past) event := by
  obtain ⟨effect, answer⟩ := event
  cases effect with
  | createDirAll loc =>
      obtain ⟨dir, hloc, hshown⟩ := hrule
      exact ⟨dir, hloc, hshown.imp_right (List.mem_append_right earlier)⟩
  | finishCopy loc content =>
      obtain ⟨before, path, hloc, rfl⟩ := hrule
      exact ⟨earlier ++ before, path, hloc, (List.append_assoc _ _ _).symm⟩
  | pathExists | readDir | fileType | metadata | readFile => trivial

abbrev Follows : List SyncEvent → Prop := StepRun.Follows PassRule

section Programs

variable {α : Type}

theorem keeps_orIo (result : Except Str α) : (orIo result).Keeps Follows := by
  cases result <;> exact Prog.keeps_done _

/-- Effects that change nothing are free. -/
theorem keeps_perform (effect : SyncEffect)
    (hrule : ∀ past answer, PassRule past ⟨effect, answer⟩) : (perform effect).Keeps Follows :=
  Prog.keeps_call fun past answer hpast => hpast.snoc (hrule past answer)

theorem keeps_pathExists (loc : Location) : (pathExists loc).Keeps Follows :=
  keeps_perform (.pathExists loc) fun _ _ => trivial

theorem keeps_readDir (loc : Location) : (readDir loc).Keeps Follows :=
  (keeps_perform (.readDir loc) fun _ _ => trivial).bind keeps_orIo

theorem keeps_metadata (loc : Location) : (metadata loc).Keeps Follows :=
  (keeps_perform (.metadata loc) fun _ _ => trivial).bind keeps_orIo

theorem keeps_shouldCopy (src dst : Location) : (shouldCopy src dst).Keeps Follows := by
  apply (keeps_pathExists dst).bind
  intro found
  split
  · apply (keeps_metadata src).bind
    intro srcMeta
    apply (keeps_metadata dst).bind
    intro dstMeta
    exact Prog.keeps_done _
  · exact Prog.keeps_done _

theorem triple_createDirAll (dir : List Str) :
    (createDirAll (cache dir)).Triple (fun past => Follows past ∧ Shown dir past)
      (fun _ => Follows) Follows := by
  have hcall : (perform (.createDirAll (cache dir))).Triple
      (fun past => Follows past ∧ Shown dir past) (fun _ => Follows) Follows :=
    Prog.triple_call fun past answer hpast => hpast.1.snoc ⟨dir, rfl, hpast.2⟩
  exact hcall.bind fun answer => (keeps_orIo answer).triple

/-- A free effect with the `?` on its answer. -/
theorem triple_ask (effect : SyncEffect) (result : SyncAnswer effect → Except Str α)
    {Q : α → List SyncEvent → Prop} (hrule : ∀ past answer, PassRule past ⟨effect, answer⟩)
    (hvalue : ∀ past answer value, result answer = .ok value →
      Q value (past ++ [⟨effect, answer⟩])) :
    (perform effect >>= fun answer => orIo (result answer)).Triple Follows
      (fun value past => Follows past ∧ Q value past) Follows := by
  have hcall : (perform effect).Triple Follows (fun answer past => Follows past ∧
      ∀ value, result answer = .ok value → Q value past) Follows :=
    Prog.triple_call fun past answer hpast =>
      ⟨hpast.snoc (hrule past answer), hvalue past answer⟩
  refine hcall.bind fun answer => ?_
  cases result answer with
  | ok value =>
      apply Prog.triple_pure
      rintro past ⟨hpast, hanswer⟩
      exact ⟨hpast, hanswer value rfl⟩
  | error e => exact Prog.triple_fail fun past hpast => hpast.1

/-- What was read last is what the copy is finished with. -/
theorem keeps_copy (path : List Str) : (copy (source path) (cache path)).Keeps Follows := by
  have hread : (readFile (source path)).Triple Follows
      (fun content past => Follows past ∧
        ∃ earlier, past = earlier ++ [⟨.readFile (source path), Except.ok content⟩]) Follows := by
    apply triple_ask (.readFile (source path)) id (fun _ _ => trivial)
    rintro past answer content rfl
    exact ⟨past, rfl⟩
  have hfinish : ∀ content, (perform (.finishCopy (cache path) content)).Triple
      (fun past => Follows past ∧
        ∃ earlier, past = earlier ++ [⟨.readFile (source path), Except.ok content⟩])
      (fun _ => Follows) Follows := by
    intro content
    apply Prog.triple_call
    rintro past ending ⟨hpast, earlier, hlast⟩
    exact hpast.snoc ⟨earlier, path, rfl, hlast⟩
  have hcopy : (copy (source path) (cache path)).Triple Follows (fun _ => Follows)
      Follows := by
    refine hread.bind fun content => (hfinish content).bind fun ending => ?_
    cases ending <;> exact (Prog.keeps_done _).triple
  exact hcopy.keeps

theorem keeps_copyEntry {recurse : Location → Location → SyncProg Unit} (path : List Str)
    (hrecurse : (recurse (source path) (cache path)).Triple
      (fun past => Follows past ∧ Shown path past) (fun _ => Follows) Follows) :
    (copyEntry recurse (source path) (cache path)).Keeps Follows := by
  have hkind : (fileType (source path)).Triple Follows
      (fun kind past => Follows past ∧ (kind = .dir → Shown path past)) Follows := by
    apply triple_ask (.fileType (source path)) id (fun _ _ => trivial)
    rintro past answer kind rfl rfl
    exact .inr (List.mem_append_right past List.mem_cons_self)
  have hfile : (shouldCopy (source path) (cache path) >>= fun decision =>
      if decision = true then copy (source path) (cache path) else pure ()).Keeps Follows := by
    apply (keeps_shouldCopy _ _).bind
    intro decision
    split
    · exact keeps_copy path
    · exact Prog.keeps_done _
  have hentry : (copyEntry recurse (source path) (cache path)).Triple Follows
      (fun _ => Follows) Follows := by
    refine hkind.bind fun kind => ?_
    cases kind with
    | dir => exact fun past hpast => hrecurse past ⟨hpast.1, hpast.2 rfl⟩
    | file => exact fun past hpast => hfile.triple past hpast.1
    | other => exact fun past hpast => hpast.1
  exact hentry.keeps

theorem keeps_copyEntries {recurse : Location → Location → SyncProg Unit} (dir : List Str)
    (hrecurse : ∀ path, (recurse (source path) (cache path)).Triple
      (fun past => Follows past ∧ Shown path past) (fun _ => Follows) Follows)
    (entries : List (Except Str Str)) :
    (copyEntries recurse (source dir) (cache dir) entries).Keeps Follows := by
  induction entries with
  | nil => exact Prog.keeps_done _
  | cons entry rest ih =>
      apply (keeps_orIo entry).bind
      intro name
      apply (keeps_copyEntry _ (hrecurse _)).bind
      intro _
      exact ih

theorem triple_copyRecursive (depth : Nat) (dir : List Str) :
    (copyRecursive depth (source dir) (cache dir)).Triple
      (fun past => Follows past ∧ Shown dir past) (fun _ => Follows) Follows := by
  induction depth generalizing dir with
  | zero => exact Prog.triple_fail fun past hpast => hpast.1
  | succ depth ih =>
      have hlist : (readDir (source dir) >>=
          copyEntries (copyRecursive depth) (source dir) (cache dir)).Keeps Follows := by
        apply (keeps_readDir _).bind
        intro entries
        exact keeps_copyEntries dir ih entries
      have hfound : (pathExists (cache dir)).Triple
          (fun past => Follows past ∧ Shown dir past)
          (fun _ past => Follows past ∧ Shown dir past) Follows := by
        apply Prog.triple_call
        rintro past found ⟨hpast, hshown⟩
        exact ⟨hpast.snoc trivial, hshown.imp_right (List.mem_append_left _)⟩
      refine hfound.bind fun found => ?_
      cases found with
      | true => exact fun past hpast => hlist.triple past hpast.1
      | false => exact (triple_createDirAll dir).bind fun _ => hlist.triple

theorem keeps_syncOnce (depth : Nat) : (syncOnce depth).Keeps Follows := by
  apply (keeps_pathExists _).bind
  intro found
  cases found with
  | false => exact Prog.keeps_done _
  | true =>
      have hroot : ∀ past, Follows past → Follows past ∧ Shown [] past :=
        fun past hpast => ⟨hpast, .inl rfl⟩
      have hcreate : (createDirAll (cache [])).Triple Follows
          (fun _ past => Follows past ∧ Shown [] past) Follows := by
        intro past hpast
        apply (triple_createDirAll []).mono (fun _ => hroot) (fun _ he => he)
        exact hroot past hpast
      exact (hcreate.bind fun _ => triple_copyRecursive depth []).keeps

/-- Every pass follows the rule, also one that fails. -/
theorem follows_of_runs {depth : Nat} {trace : List SyncEvent} {result : Except SyncError Unit}
    (hruns : (syncOnce depth).Runs trace result) : Follows trace := by
  have hpost := hruns.post (keeps_syncOnce depth [] StepRun.follows_nil)
  rwa [List.nil_append] at hpost

/-- No effect of a pass touches the source. -/
theorem source_after {time : Nat → Nat} {past : List SyncEvent} {event : SyncEvent}
    (hrule : PassRule past event) (world : World) :
    (world.after time event).tree .gfsSourceDir = world.tree .gfsSourceDir := by
  obtain ⟨effect, answer⟩ := event
  cases effect with
  | createDirAll loc =>
      obtain ⟨dir, rfl, _⟩ := hrule
      cases answer <;> rfl
  | finishCopy loc content =>
      obtain ⟨_, path, rfl, _⟩ := hrule
      cases answer <;> rfl
  | pathExists | readDir | fileType | metadata | readFile => rfl

theorem Follows.source_foldl {time : Nat → Nat} {trace : List SyncEvent}
    (hfollows : Follows trace) (world : World) :
    (trace.foldl (World.after time) world).tree .gfsSourceDir =
      world.tree .gfsSourceDir := by
  induction trace using List.reverseRecOn with
  | nil => rfl
  | append_singleton init last ih =>
      obtain ⟨hinit, hlast⟩ := StepRun.follows_concat.mp hfollows
      rw [List.foldl_append]
      exact (source_after hlast _).trans (ih hinit)

end Programs

end AssetSyncer

end PiCluster
