/-
Mount state and fstab over one call.  The mounts move with the call's own command, the
fstab with the edit after it, and the two calls differ in whether the edit may fail.
-/
import PiCluster.AuditClosure
import PiCluster.Machine

namespace PiCluster

open Text Effects FstabManager

def AuditOutcome.lost : AuditOutcome → Bool
  | .committed => false
  | _ => true

def recordLost : StorageEvent → Bool
  | ⟨.record _, outcome⟩ => AuditOutcome.lost outcome
  | _ => false

theorem AuditOutcome.lost_of_ne {outcome : AuditOutcome} (hne : outcome ≠ .committed) :
    outcome.lost = true := by
  cases outcome with
  | committed => exact absurd rfl hne
  | ioFailed | serializationFailed | fsyncFailed => rfl

section Edit

variable {Disks : Type} {rewrite : HostCommand → CommandOutcome → Disks → Disks}
  {machine : Machine Disks} {path : Str} {edit : Option Str → Option Str}
  {trace : List StorageEvent} {done : Bool}

/-- What is seen is the file, and looking at it changes nothing. -/
theorem FstabManager.Looks.files_eq {found : Option Str} (hlooks : Looks path found trace)
    (hhonest : machine.Honest rewrite trace) :
    machine.files path = found ∧ machine.run rewrite trace = machine := by
  cases hlooks with
  | absent =>
      have hfound : false = (machine.files path).isSome := hhonest.1
      exact ⟨by simpa using hfound.symm, rfl⟩
  | present content => exact ⟨hhonest.2.1 content rfl, rfl⟩

/-- The file an edit leaves. -/
theorem FstabManager.Edits.files_run (hedits : Edits path edit trace done)
    (hhonest : machine.Honest rewrite trace) :
    (machine.run rewrite trace).files path =
      if done then (edit (machine.files path)).or (machine.files path)
      else machine.files path := by
  cases hedits with
  | unreadable e => rfl
  | untouched hlooks hedit =>
      obtain ⟨rfl, hrun⟩ := hlooks.files_eq hhonest
      rw [hrun, hedit]
      rfl
  | unwritten hlooks hedit e =>
      obtain ⟨hlook, _⟩ := (machine.honest_append_iff rewrite).mp hhonest
      rw [machine.run_append rewrite, (hlooks.files_eq hlook).2]
      rfl
  | written hlooks hedit =>
      obtain ⟨hlook, _⟩ := (machine.honest_append_iff rewrite).mp hhonest
      obtain ⟨rfl, hrun⟩ := hlooks.files_eq hlook
      rw [machine.run_append rewrite, hrun, hedit]
      exact Function.update_self _ _ _

end Edit

/-- A call that runs no command besides its own and ends with an edit of the fstab; a
`strict` call fails with its edit. -/
structure CallSpec.EditsFstab {α : Type} (spec : CallSpec α) (strict : Bool) (path : Str)
    (edit : Option Str → Option Str) : Prop where
  prepares : ∀ prep ready, spec.prepares prep ready →
    ∀ event ∈ prep, ∃ dir, event.effect = .createDir dir
  ready : ∀ prep, spec.prepares prep true → prep.any fileFailed = false
  finishes : ∀ finish ended, spec.finishes finish ended →
    ∃ done, Edits path edit finish done ∧ ended.isNone = (strict && !done)

theorem Mounter.editsFstab_mount (config : StorageConfig) (device : BlockDevice) (uuid : Str)
    (role : NodeRole) (requestedBy : Str) :
    (mountSpec config device uuid role requestedBy).EditsFstab true config.fstabPath
      (mountEdit uuid role) where
  prepares prep ready hprep := by
    cases hprep <;> exact List.forall_mem_singleton.mpr ⟨_, rfl⟩
  ready prep hprep := by
    cases hprep
    rfl
  finishes finish ended hfinish := by
    cases hfinish with
    | unlisted hedit => exact ⟨false, hedit, rfl⟩
    | listed hedit => exact ⟨true, hedit, rfl⟩

theorem Mounter.editsFstab_unmount (config : StorageConfig) (mountPoint requestedBy : Str) :
    (unmountSpec config mountPoint requestedBy).EditsFstab false config.fstabPath
      (unmountEdit mountPoint) where
  prepares prep ready hprep := by
    rw [hprep.1]
    exact List.forall_mem_nil _
  ready prep hprep := by
    rw [hprep.1]
    rfl
  finishes finish ended hfinish := by
    cases hfinish with
    | edited hedit => exact ⟨_, hedit, rfl⟩

/-- Before and after the command nothing else is run and the fstab is not written. -/
structure Calm (path : Str) (trace : List StorageEvent) : Prop where
  idle : trace.any commandSucceeded = false
  unwritten : ∀ event ∈ trace, ∀ content, event.effect ≠ .writeFile path content

theorem Calm.append {path : Str} {past later : List StorageEvent} (hpast : Calm path past)
    (hlater : Calm path later) : Calm path (past ++ later) where
  idle := by rw [List.any_append, hpast.idle, hlater.idle]; rfl
  unwritten := List.forall_mem_append.mpr ⟨hpast.unwritten, hlater.unwritten⟩

theorem calm_singleton {path : Str} {event : StorageEvent}
    (hidle : commandSucceeded event = false)
    (hunwritten : ∀ content, event.effect ≠ .writeFile path content) : Calm path [event] where
  idle := by simpa using hidle
  unwritten := List.forall_mem_singleton.mpr hunwritten

theorem calm_recorded (path : Str) (entry : AuditEntry) (outcome : AuditOutcome) :
    Calm path [recorded entry outcome] :=
  calm_singleton rfl fun _ => nofun

theorem Reported.calm {path : Str} {failure : Option AuditEntry} {report : List StorageEvent}
    (hreport : Reported failure report) : Calm path report := by
  cases hreport with
  | silent => exact ⟨rfl, List.forall_mem_nil _⟩
  | told entry outcome => exact calm_recorded path entry outcome

/-- The call has not got as far as a successful command, or it has; then the edit and the
completion record follow. -/
inductive CallSpec.Carried {α : Type} (spec : CallSpec α) (strict : Bool) (path : Str)
    (edit : Option Str → Option Str) : List StorageEvent → Except ClusterError α → Prop
  | idle {trace : List StorageEvent} (hcalm : Calm path trace) (e : ClusterError) :
      spec.Carried strict path edit trace (.error e)
  | moved {past finish closing : List StorageEvent} {outcome : CommandOutcome} {done : Bool}
      {result : Except ClusterError α} (hpast : Calm path past)
      (hfiles : past.any fileFailed = false) (hrecords : past.any recordLost = false)
      (hsuccess : outcome.success = true) (hedits : Edits path edit finish done)
      (hclosing : Calm path closing) (hclosed : closing.any fileFailed = false)
      (hresult : result.toBool = !(strict && !done || closing.any recordLost)) :
      spec.Carried strict path edit (past ++ ran spec.command outcome :: (finish ++ closing))
        result

section Calls

variable {α : Type} {spec : CallSpec α} {strict : Bool} {path : Str}
  {edit : Option Str → Option Str} {result : Except ClusterError α}
  {trace : List StorageEvent}

/-- The call before its command. -/
theorem CallSpec.EditsFstab.calm_past (hspec : spec.EditsFstab strict path edit)
    {prep : List StorageEvent} {ready : Bool} (hprep : spec.prepares prep ready) :
    Calm path (recorded spec.opening .committed :: prep) ∧
      (recorded spec.opening .committed :: prep).any recordLost = false := by
  have hdirs := hspec.prepares prep ready hprep
  refine ⟨⟨?_, ?_⟩, ?_⟩
  · rw [List.any_cons, List.any_eq_false.mpr]
    · rfl
    · rintro ⟨effect, answer⟩ hevent
      obtain ⟨dir, hdir⟩ := hdirs _ hevent
      cases hdir
      exact Bool.false_ne_true
  · refine List.forall_mem_cons.mpr ⟨fun _ => nofun, fun event hevent content hwrite => ?_⟩
    obtain ⟨dir, hdir⟩ := hdirs event hevent
    rw [hdir] at hwrite
    cases hwrite
  · rw [List.any_cons, List.any_eq_false.mpr]
    · rfl
    · rintro ⟨effect, answer⟩ hevent
      obtain ⟨dir, hdir⟩ := hdirs _ hevent
      cases hdir
      exact Bool.false_ne_true

theorem CallSpec.Course.carried (hspec : spec.EditsFstab strict path edit)
    (hcourse : spec.Course false trace result) : spec.Carried strict path edit trace result := by
  have hready : ∀ {prep}, spec.prepares prep true →
      (recorded spec.opening .committed :: prep).any fileFailed = false := by
    intro prep hprep
    rw [List.any_cons, hspec.ready prep hprep]
    rfl
  cases hcourse with
  | unannounced _ hlost e => exact .idle (calm_recorded path _ _) e
  | unprepared hprep e => exact .idle (hspec.calm_past hprep).1 e
  | failed hprep hfailed hreport e =>
      have hcommand : Calm path [ran spec.command _] := calm_singleton hfailed fun _ => nofun
      have hcalm := (hspec.calm_past hprep).1.append (hcommand.append hreport.calm)
      exact .idle hcalm e
  | @unfinished prep finish outcome hprep hsuccess hfinish e =>
      obtain ⟨done, hedits, hended⟩ := hspec.finishes finish none hfinish
      obtain ⟨hpast, hrecords⟩ := hspec.calm_past hprep
      have hcarried : spec.Carried strict path edit ((recorded spec.opening .committed :: prep) ++
          ran spec.command outcome :: (finish ++ [])) (.error e) :=
        .moved hpast (hready hprep) hrecords hsuccess hedits ⟨rfl, List.forall_mem_nil _⟩ rfl
          (by rw [← hended]; rfl)
      rwa [List.append_nil] at hcarried
  | @unclosed prep finish outcome value closing lost hprep hsuccess hfinish hlost e =>
      obtain ⟨done, hedits, hended⟩ := hspec.finishes finish _ hfinish
      obtain ⟨hpast, hrecords⟩ := hspec.calm_past hprep
      have hresult : (Except.error e : Except ClusterError α).toBool =
          !(strict && !done || [recorded closing lost].any recordLost) := by
        simp [recorded, recordLost, AuditOutcome.lost_of_ne hlost, Except.toBool]
      exact .moved hpast (hready hprep) hrecords hsuccess hedits (calm_recorded path _ _) rfl
        hresult
  | @closed prep finish outcome value closing hprep hsuccess hfinish =>
      obtain ⟨done, hedits, hended⟩ := hspec.finishes finish _ hfinish
      obtain ⟨hpast, hrecords⟩ := hspec.calm_past hprep
      exact .moved hpast (hready hprep) hrecords hsuccess hedits (calm_recorded path _ _) rfl
        (by rw [← hended]; rfl)

end Calls

/-- What a call has made of the host: nothing before its command has succeeded, and then
what the command and the edit do. -/
inductive CallSpec.Changes {α Disks : Type} (spec : CallSpec α) (strict : Bool) (path : Str)
    (edit : Option Str → Option Str) (rewrite : HostCommand → CommandOutcome → Disks → Disks)
    (machine : Machine Disks) (trace : List StorageEvent) : Except ClusterError α → Prop
  | idle (e : ClusterError) (hidle : trace.any commandSucceeded = false)
      (hmounts : (machine.run rewrite trace).mounts = machine.mounts)
      (hfile : (machine.run rewrite trace).files path = machine.files path) :
      spec.Changes strict path edit rewrite machine trace (.error e)
  | moved {outcome : CommandOutcome} (done : Bool) {result : Except ClusterError α}
      (hmoved : trace.any commandSucceeded = true) (hsuccess : outcome.success = true)
      (hallows : machine.Allows (ran spec.command outcome))
      (hmounts : (machine.run rewrite trace).mounts = machine.remounted spec.command outcome)
      (hfile : (machine.run rewrite trace).files path =
        if done then (edit (machine.files path)).or (machine.files path)
        else machine.files path)
      (hfailed : trace.any fileFailed = !done)
      (hresult : result.toBool = !(strict && !done || trace.any recordLost)) :
      spec.Changes strict path edit rewrite machine trace result

section Host

variable {α Disks : Type} {rewrite : HostCommand → CommandOutcome → Disks → Disks}
  {machine : Machine Disks} {spec : CallSpec α} {strict : Bool} {path : Str}
  {edit : Option Str → Option Str} {trace : List StorageEvent}
  {result : Except ClusterError α}

theorem any_recordLost_of_auxiliary (haux : ∀ event ∈ trace, Auxiliary event.effect) :
    trace.any recordLost = false := by
  rw [List.any_eq_false]
  rintro ⟨effect, answer⟩ hevent
  cases effect with
  | record entry => exact (haux _ hevent).elim
  | run | createDir | fileExists | readFile | writeFile | openAudit => exact Bool.false_ne_true

theorem FstabManager.Edits.any_commandSucceeded {done : Bool}
    (hedits : Edits path edit trace done) : trace.any commandSucceeded = false := by
  have hsame : ∀ event : StorageEvent, (∀ command, event.effect ≠ .run command) →
      commandSucceeded event = false := by
    rintro ⟨effect, answer⟩ hrun
    cases effect with
    | run command => exact absurd rfl (hrun command)
    | record | createDir | fileExists | readFile | writeFile | openAudit => rfl
  rw [hedits.any_eq_of_no_run hsame]
  simp

/-- A command between calm stretches acts on the mounts as they were. -/
theorem Machine.remounted_run {past : List StorageEvent} (hpast : Calm path past)
    (command : HostCommand) (outcome : CommandOutcome) :
    (machine.run rewrite past).remounted command outcome =
        machine.remounted command outcome ∧
      ((machine.run rewrite past).Allows (ran command outcome) ↔
        machine.Allows (ran command outcome)) := by
  have hmounts : (machine.run rewrite past).mounts = machine.mounts :=
    machine.mounts_run_of_idle hpast.idle
  have hplace : (machine.run rewrite past).locate = machine.locate :=
    (machine.places_run past).1
  constructor
  · simp only [remounted, hmounts, hplace]
  · simp only [Allows, ran, hmounts, hplace]

theorem CallSpec.Carried.changes (hcarried : spec.Carried strict path edit trace result)
    (hhonest : machine.Honest rewrite trace) :
    spec.Changes strict path edit rewrite machine trace result := by
  cases hcarried with
  | idle hcalm e =>
      exact .idle e hcalm.idle (machine.mounts_run_of_idle hcalm.idle)
        (machine.files_run_of_ne hcalm.unwritten)
  | @moved past finish closing outcome done _ hpast hfiles hrecords hsuccess hedits hclosing
      hclosed hresult =>
      obtain ⟨hremounted, hallows⟩ : _ ∧ _ := machine.remounted_run hpast spec.command outcome
      obtain ⟨-, hallowed, hlater⟩ := (machine.honest_append_iff rewrite).mp hhonest
      -- the host right after the command
      generalize hmiddle : (machine.run rewrite past).after rewrite (ran spec.command outcome) =
        middle at hlater
      have hmounts : middle.mounts = machine.remounted spec.command outcome := by
        rw [← hmiddle, ← hremounted]
        rfl
      have hfile : middle.files path = machine.files path := by
        rw [← hmiddle]
        exact machine.files_run_of_ne hpast.unwritten
      have hrun : machine.run rewrite (past ++ ran spec.command outcome :: (finish ++ closing)) =
          (middle.run rewrite finish).run rewrite closing := by
        rw [machine.run_append rewrite, ← hmiddle]
        exact List.foldl_append
      refine .moved done ?_ hsuccess (hallows.mp hallowed) ?_ ?_ ?_ ?_
      · simp [List.any_append, ran, commandSucceeded, hsuccess]
      · rw [hrun, Machine.mounts_run_of_idle _ hclosing.idle,
          Machine.mounts_run_of_idle _ hedits.any_commandSucceeded, hmounts]
      · have hedited := ((middle.honest_append_iff rewrite).mp hlater).1
        rw [hrun, Machine.files_run_of_ne _ hclosing.unwritten, hedits.files_run hedited, hfile]
      · simp [List.any_append, hfiles, hclosed, hedits.any_fileFailed, ran, fileFailed]
      · have hlost : (ran spec.command outcome :: (finish ++ closing)).any recordLost =
            closing.any recordLost := by
          rw [List.any_cons, List.any_append, any_recordLost_of_auxiliary hedits.auxiliary]
          rfl
        rw [List.any_append, hrecords, hlost]
        exact hresult

end Host

namespace CallRun

variable {Disks : Type} (rewrite : HostCommand → CommandOutcome → Disks → Disks)
  (machine : Machine Disks) (run : CallRun)

/-- The fstab of a host. -/
def fstab (now : Machine Disks) : Option Str := now.files run.config.fstabPath

/-- The mount point and the fstab are what they were before the call. -/
def Unchanged (place : Str) : Prop :=
  (machine.run rewrite run.trace).mounts place = machine.mounts place ∧
    run.fstab (machine.run rewrite run.trace) = run.fstab machine

/-- Mount state and fstab change together or not at all. -/
def ChangesTogether : Prop :=
  match run.call, run.result with
  | .mountRoleStorage _ _ role _, .ok _ =>
      let place := machine.locate (Mounter.getMountConfig role).1
      0 < (machine.run rewrite run.trace).mounts place ∧
        HasEntryAt machine.entryPlace (run.fstab (machine.run rewrite run.trace)) place
  | .mountRoleStorage _ _ role _, .error _ =>
      run.Unchanged rewrite machine (machine.locate (Mounter.getMountConfig role).1)
  | .unmountPath mountPoint _, .ok _ =>
      let place := machine.locate mountPoint
      (machine.run rewrite run.trace).mounts place = 0 ∧
        ¬ HasEntryAt machine.entryPlace (run.fstab (machine.run rewrite run.trace)) place
  | .unmountPath mountPoint _, .error _ =>
      run.Unchanged rewrite machine (machine.locate mountPoint)
  | .formatDevice _ _ _, _ => True

/-- What has to go well once the command has succeeded.  For a mount: every file
operation and record, and the written line, or one that it does not replace, has to be
an entry for the mount point.  For an unmount: the records, the mount has to be the only
one, and if there is an entry for the mount point the fstab update, which has to match
the entry by its text. -/
def FollowsThrough : Prop :=
  match run.call with
  | .mountRoleStorage _ uuid role _ => run.trace.any commandSucceeded = true →
      let mountPoint := (Mounter.getMountConfig role).1
      let place := machine.locate mountPoint
      run.trace.any fileFailed = false ∧ run.trace.any recordLost = false ∧
        (HasEntryAt machine.entryPlace (some (newLine uuid mountPoint SafetyGuard.ext4
            (Mounter.getMountConfig role).2 ++ ['\n'])) place ∨
          ∃ line ∈ fileLines (run.fstab machine), upsertMatches uuid mountPoint line = false ∧
            EntryAt machine.entryPlace place line)
  | .unmountPath mountPoint _ => run.trace.any commandSucceeded = true →
      let place := machine.locate mountPoint
      run.trace.any recordLost = false ∧ machine.mounts place = 1 ∧
        ∀ line ∈ fileLines (run.fstab machine), EntryAt machine.entryPlace place line →
          run.trace.any fileFailed = false ∧ removeMatches mountPoint line = true
  | .formatDevice _ _ _ => True

end CallRun

namespace CallRun

variable {Disks : Type} {rewrite : HostCommand → CommandOutcome → Disks → Disks}
  {machine : Machine Disks} {config : StorageConfig} {trace : List StorageEvent}
  {result : Except ClusterError Unit}

theorem mounts_mount (role : NodeRole) (source : Str) {outcome : CommandOutcome}
    (hsuccess : outcome.success = true) :
    machine.remounted (Mounter.mount role source) outcome
        (machine.locate (Mounter.getMountConfig role).1) =
      machine.mounts (machine.locate (Mounter.getMountConfig role).1) + 1 := by
  simp [Machine.remounted, Mounter.mount, hsuccess]

/-- What `umount` takes off was mounted. -/
theorem mounts_umount {mountPoint : Str} {outcome : CommandOutcome}
    (hsuccess : outcome.success = true)
    (hallows : machine.Allows (ran (Mounter.umount mountPoint) outcome)) :
    machine.remounted (Mounter.umount mountPoint) outcome (machine.locate mountPoint) + 1 =
      machine.mounts (machine.locate mountPoint) := by
  have hmounted : 0 < machine.mounts (machine.locate mountPoint) :=
    hallows rfl hsuccess mountPoint rfl
  simp only [Machine.remounted, Mounter.umount, List.getLast?_singleton, hsuccess, ↓reduceIte,
    Function.update_self]
  omega

/-- A removal leaves an absent file absent. -/
theorem unmountEdit_or (mountPoint : Str) (found : Option Str) :
    (Mounter.unmountEdit mountPoint found).or found = removeEntry found mountPoint := by
  cases found <;> rfl

theorem mount_changesTogether_iff (hwet : config.dryRun = false) {device : BlockDevice}
    {uuid : Str} {role : NodeRole} {requestedBy : Str}
    (hruns : ((StorageCall.mountRoleStorage device uuid role requestedBy).prog config).Runs
      trace result) (hhonest : machine.Honest rewrite trace) :
    ChangesTogether rewrite machine ⟨config, _, trace, result, hruns⟩ ↔
      FollowsThrough machine ⟨config, _, trace, result, hruns⟩ := by
  obtain ⟨first, hfirst, hresult⟩ := hruns.of_discard
  have hcourse := Mounter.runs_mountRoleStorage hfirst
  rw [hwet] at hcourse
  have hchanges := (hcourse.carried (Mounter.editsFstab_mount _ _ _ _ _)).changes hhonest
  cases hchanges with
  | idle e hidle hmounts hfile =>
      obtain rfl : result = .error e := hresult
      refine iff_of_true ⟨congrFun hmounts _, hfile⟩ fun hran => ?_
      rw [hidle] at hran
      cases hran
  | @moved outcome done _ hmoved hsuccess hallows hmounts hfile hfailed hended =>
      have hplus := (congrFun hmounts _).trans (mounts_mount role _ hsuccess)
      cases first with
      | error e =>
          obtain rfl : result = .error e := hresult
          refine iff_of_false ?_ ?_
          · rintro ⟨hsame, -⟩
            rw [hplus] at hsame
            omega
          · intro hfollows
            obtain ⟨hdone, hrecord, -⟩ := hfollows hmoved
            have hkept : trace.any recordLost = false := hrecord
            rw [hkept, ← hfailed, show trace.any fileFailed = false from hdone] at hended
            cases hended
      | ok value =>
          obtain rfl : result = .ok () := hresult
          obtain ⟨rfl, hrecord⟩ : done = true ∧ trace.any recordLost = false := by
            cases done <;> simp_all [Except.toBool]
          have hmounted : 0 < (machine.run rewrite trace).mounts
              (machine.locate (Mounter.getMountConfig role).1) := by
            rw [hplus]
            exact Nat.succ_pos _
          simp only [ChangesTogether, FollowsThrough, fstab, hfile, ↓reduceIte, hmounted, hmoved,
            hfailed, hrecord, Mounter.mountEdit, Option.some_or, hasEntryAt_upsertEntry_iff,
            Bool.not_true, true_and, forall_true_left]

theorem unmount_changesTogether_iff (hwet : config.dryRun = false)
    {mountPoint requestedBy : Str}
    (hruns : ((StorageCall.unmountPath mountPoint requestedBy).prog config).Runs trace result)
    (hhonest : machine.Honest rewrite trace) :
    ChangesTogether rewrite machine ⟨config, _, trace, result, hruns⟩ ↔
      FollowsThrough machine ⟨config, _, trace, result, hruns⟩ := by
  have hcourse := Mounter.runs_unmountPath hruns
  rw [hwet] at hcourse
  have hchanges := (hcourse.carried (Mounter.editsFstab_unmount _ _ _)).changes hhonest
  cases hchanges with
  | idle e hidle hmounts hfile =>
      refine iff_of_true ⟨congrFun hmounts _, hfile⟩ fun hran => ?_
      rw [hidle] at hran
      cases hran
  | @moved outcome done _ hmoved hsuccess hallows hmounts hfile hfailed hended =>
      have hafter : (machine.run rewrite trace).mounts (machine.locate mountPoint) =
          machine.remounted (Mounter.umount mountPoint) outcome (machine.locate mountPoint) :=
        congrFun hmounts _
      have hminus := mounts_umount hsuccess hallows
      rw [← hafter] at hminus
      cases result with
      | error e =>
          refine iff_of_false ?_ ?_
          · rintro ⟨hsame, -⟩
            rw [← hminus] at hsame
            exact absurd hsame.symm (Nat.succ_ne_self _)
          · intro hfollows
            have hkept : trace.any recordLost = false := (hfollows hmoved).1
            rw [hkept] at hended
            cases hended
      | ok value =>
          have hrecord : trace.any recordLost = false := by
            simpa [Except.toBool] using hended
          have honce : (machine.run rewrite trace).mounts (machine.locate mountPoint) = 0 ↔
              machine.mounts (machine.locate mountPoint) = 1 := by omega
          simp only [ChangesTogether, FollowsThrough, fstab, hfile, hmoved, hfailed, hrecord,
            honce, true_and, forall_true_left]
          refine and_congr_right fun _ => ?_
          cases done with
          | true =>
              simp only [↓reduceIte, unmountEdit_or, hasEntryAt_removeEntry_iff, not_exists,
                not_and, Bool.not_true, true_and]
              refine forall₂_congr fun line _ => ?_
              cases removeMatches mountPoint line <;> simp
          | false => simp [HasEntryAt]

end CallRun

/-- Outside dry-run mode, mount state and fstab change together exactly in the
calls that follow through. -/
theorem callRun_changesTogether_iff {Disks : Type}
    (rewrite : HostCommand → CommandOutcome → Disks → Disks) (machine : Machine Disks)
    (run : CallRun) (hwet : run.config.dryRun = false)
    (hhonest : machine.Honest rewrite run.trace) :
    run.ChangesTogether rewrite machine ↔ run.FollowsThrough machine := by
  obtain ⟨config, call, trace, result, hruns⟩ := run
  cases call with
  | formatDevice device role requestedBy => exact Iff.rfl
  | mountRoleStorage device uuid role requestedBy =>
      exact CallRun.mount_changesTogether_iff hwet hruns hhonest
  | unmountPath mountPoint requestedBy =>
      exact CallRun.unmount_changesTogether_iff hwet hruns hhonest

namespace Mounter

theorem isWord_mountConfig (role : NodeRole) :
    IsWord (getMountConfig role).1 ∧ IsWord (getMountConfig role).2 := by
  cases role with
  | master | seed | worker | pending | decommissioned =>
      exact ⟨isWord_of_all (List.cons_ne_nil _ _) (by decide),
        isWord_of_all (List.cons_ne_nil _ _) (by decide)⟩

/-- The line written for a role's storage is made of words. -/
theorem wordFields_mountConfig {uuid : Str} (huuid : IsWord uuid) (role : NodeRole) :
    WordFields uuid (getMountConfig role).1 SafetyGuard.ext4 (getMountConfig role).2 where
  uuid := huuid
  mountPoint := (isWord_mountConfig role).1
  fsType := isWord_of_all (List.cons_ne_nil _ _) (by decide)
  options := (isWord_mountConfig role).2

end Mounter

namespace MountWitness

open ClosureWitness

/-- A path without its trailing slashes. -/
def plainPlace (path : Str) : Str := (path.reverse.dropWhile (· == '/')).reverse

/-- A host with nothing mounted on the storage paths and no fstab. -/
def bare : Machine Unit := ⟨plainPlace, plainPlace, fun _ => 0, fun _ => none, (), []⟩

def keep (_ : HostCommand) (_ : CommandOutcome) (disks : Unit) : Unit := disks

theorem mount_changes_both :
    (callRun AuditWitness.compliant mountCall).ChangesTogether keep bare := by
  refine (callRun_changesTogether_iff keep bare _ rfl ?_).mpr ?_
  · exact ⟨trivial, trivial, nofun, rfl, trivial, trivial, trivial⟩
  · intro _
    refine ⟨rfl, rfl, Or.inl (HasEntry.hasEntryAt (hasEntry_newLine ?_) rfl)⟩
    exact Mounter.wordFields_mountConfig (isWord_of_all (List.cons_ne_nil _ _) (by decide))
      .worker

def storageEntry : Str := "UUID=abcd\t/mnt/gfs-storage\text4\tnoatime\t0\t2".toList

def storageLine : Str := storageEntry ++ ['\n']

/-- The storage mounted once and listed in the fstab. -/
def inUse : Machine Unit :=
  ⟨plainPlace, plainPlace, fun _ => 1, fun _ => some storageLine, (), []⟩

/-- The fstab can be read, and `write` is how its writes end. -/
def listing (write : Except Str Unit) :
    List StorageEvent → (effect : StorageEffect) → StorageAnswer effect
  | _, .fileExists _ => true
  | _, .readFile _ => Except.ok storageLine
  | _, .writeFile _ _ => write
  | past, effect => AuditWitness.compliant past effect

def readOnly : List StorageEvent → (effect : StorageEffect) → StorageAnswer effect :=
  listing (.error "Read-only file system".toList)

/-- The same mount point with a slash after it. -/
def slashCall : StorageCall :=
  .unmountPath (SafetyGuard.gfsMountPoint ++ ['/']) "cluster-ldm-ipc-evacuate".toList

theorem hasEntryAt_storage :
    HasEntryAt plainPlace (some storageLine) (plainPlace SafetyGuard.gfsMountPoint) :=
  ⟨storageEntry, List.mem_cons_self, "UUID=abcd".toList, SafetyGuard.gfsMountPoint, rfl, rfl⟩

/-- The unmount succeeds and the entry stays, because the fstab could not be written or
because its text for the mount point is another. -/
theorem unmount_keeps_entry :
    (inUse.Honest keep (callRun readOnly AuditWitness.unmountCall).trace ∧
      (callRun readOnly AuditWitness.unmountCall).result = .ok () ∧
      ¬ (callRun readOnly AuditWitness.unmountCall).ChangesTogether keep inUse) ∧
    inUse.Honest keep (callRun (listing (.ok ())) slashCall).trace ∧
      (callRun (listing (.ok ())) slashCall).result = .ok () ∧
      ¬ (callRun (listing (.ok ())) slashCall).ChangesTogether keep inUse := by
  refine ⟨⟨⟨trivial, fun _ _ _ _ => Nat.one_pos, rfl, ?_, trivial, trivial, trivial⟩, rfl, ?_⟩,
    ⟨trivial, fun _ _ _ _ => Nat.one_pos, rfl, ?_, trivial, trivial, trivial⟩, rfl, ?_⟩
  · intro content hcontent
    exact congrArg some (Except.ok.inj hcontent)
  · rintro ⟨_, hnone⟩
    exact hnone hasEntryAt_storage
  · intro content hcontent
    exact congrArg some (Except.ok.inj hcontent)
  · rintro ⟨_, hnone⟩
    exact hnone hasEntryAt_storage

end MountWitness

end PiCluster
