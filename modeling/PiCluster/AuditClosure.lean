/-
When an audited call is closed.  Every call opens with a write-ahead record; the
error exits differ in whether they write a `Failed` record before they return,
so each call comes with the answers that make it give up without one.
-/
import PiCluster.AuditTrail

namespace PiCluster

open Text Effects

/-- The record an event tries to write. -/
def auditEntry : StorageEvent → Option AuditEntry
  | ⟨.record entry, _⟩ => some entry
  | _ => none

def auditEntries (trace : List StorageEvent) : List AuditEntry := trace.filterMap auditEntry

/-- The phase of the record that has to close a call. -/
def closingPhase : Except ClusterError Unit → AuditPhase
  | .ok _ => .postMutation
  | .error _ => .failed

/-- A write-ahead record and one record that tells how the call ended. -/
def Closed (trace : List StorageEvent) (result : Except ClusterError Unit) : Prop :=
  ∃ opening closing, auditEntries trace = [opening, closing] ∧
    opening.phase = .preMutation ∧ closing.phase = closingPhase result ∧
    closing.action = opening.action

/-- A directory, a file or the fstab could not be created, read or written. -/
def fileFailed : StorageEvent → Bool
  | ⟨.createDir _, answer⟩ => !(answer : Except Str Unit).toBool
  | ⟨.readFile _, answer⟩ => !(answer : Except Str Str).toBool
  | ⟨.writeFile _ _, answer⟩ => !(answer : Except Str Unit).toBool
  | _ => false

def CommandOutcome.spawned : CommandOutcome → Bool
  | .spawnFailed _ => false
  | .exited _ _ _ => true

def commandFailed (passes : CommandOutcome → Bool) : StorageEvent → Bool
  | ⟨.run _, outcome⟩ => !passes outcome
  | _ => false

def mountGivesUp (event : StorageEvent) : Bool :=
  fileFailed event || commandFailed CommandOutcome.spawned event

def unmountGivesUp (event : StorageEvent) : Bool :=
  commandFailed CommandOutcome.success event

/-- The answers after which a call returns an error without a record. -/
def StorageCall.givesUp : StorageCall → StorageEvent → Bool
  | .formatDevice _ _ _ => fileFailed
  | .mountRoleStorage _ _ _ _ => mountGivesUp
  | .unmountPath _ _ => unmountGivesUp

/-- A format is for a role that has storage. -/
def StorageCall.Storable : StorageCall → Prop
  | .formatDevice _ role _ => (Formatter.roleLabel role).isSome = true
  | _ => True

/-- Some audit record was not committed. -/
def Lost (trace : List StorageEvent) : Prop :=
  ∃ entry outcome, recorded entry outcome ∈ trace ∧ outcome ≠ .committed

/-- The answers in `silent` are those that make the call give up without a record. -/
structure CallSpec.Tells {α : Type} (spec : CallSpec α) (silent : StorageEvent → Bool) :
    Prop where
  records : ∀ entry outcome, silent (recorded entry outcome) = false
  prepares : ∀ prep ready, spec.prepares prep ready → prep.any silent = !ready
  command : ∀ outcome, silent (ran spec.command outcome) =
    (!outcome.success && (spec.failure outcome).isNone)
  finishes : ∀ finish ended, spec.finishes finish ended → finish.any silent = ended.isNone

section Closure

variable {trace : List StorageEvent}

theorem auditEntries_eq_nil_of_auxiliary (haux : ∀ event ∈ trace, Auxiliary event.effect) :
    auditEntries trace = [] := by
  rw [auditEntries, List.filterMap_eq_nil_iff]
  rintro ⟨effect, answer⟩ hevent
  cases effect with
  | record entry => exact (haux _ hevent).elim
  | run | createDir | fileExists | readFile | writeFile | openAudit => rfl

theorem not_closed_of_length {result : Except ClusterError Unit}
    (hlength : (auditEntries trace).length = 1) : ¬ Closed trace result := by
  rintro ⟨first, second, htwo, _⟩
  simp [htwo] at hlength

variable {α : Type} {spec : CallSpec α} {action : AuditAction} {silent : StorageEvent → Bool}

/-- The records of a call are its write-ahead record and those after its command. -/
theorem CallSpec.Lawful.auditEntries_command (hlaw : spec.Lawful action)
    {prep : List StorageEvent} (hprep : spec.prepares prep true) (outcome : CommandOutcome)
    (later : List StorageEvent) :
    auditEntries (recorded spec.opening .committed ::
      (prep ++ ran spec.command outcome :: later)) = spec.opening :: auditEntries later := by
  have hnone := auditEntries_eq_nil_of_auxiliary (hlaw.prepares prep true hprep)
  simp only [auditEntries, recorded, auditEntry, List.filterMap_cons, List.filterMap_append,
    ran] at hnone ⊢
  rw [hnone]
  rfl

theorem CallSpec.Tells.any_command (htells : spec.Tells silent) {prep : List StorageEvent}
    (hprep : spec.prepares prep true) (outcome : CommandOutcome) (later : List StorageEvent) :
    (recorded spec.opening .committed :: (prep ++ ran spec.command outcome :: later)).any
        silent =
      (!outcome.success && (spec.failure outcome).isNone || later.any silent) := by
  simp [htells.records, htells.prepares prep true hprep, htells.command]

/-- A failed command is recorded or makes the call give up. -/
theorem CallSpec.Course.closed_failed_iff (hlaw : spec.Lawful action)
    (htells : spec.Tells silent) {prep report : List StorageEvent} {outcome : CommandOutcome}
    (hprep : spec.prepares prep true) (hfailed : outcome.success = false)
    (hreport : Reported (spec.failure outcome) report) (e : ClusterError) :
    Closed (recorded spec.opening .committed ::
        (prep ++ ran spec.command outcome :: report)) (.error e) ↔
      (recorded spec.opening .committed ::
        (prep ++ ran spec.command outcome :: report)).any silent = false := by
  have hentries := hlaw.auditEntries_command hprep outcome report
  rw [htells.any_command hprep outcome report, hfailed]
  generalize hfailure : spec.failure outcome = failure at hreport ⊢
  cases hreport with
  | silent => exact iff_of_false (not_closed_of_length (by rw [hentries]; rfl)) (by simp)
  | told entry written =>
      obtain ⟨haction, hphase⟩ := hlaw.failure outcome entry hfailure
      refine iff_of_true ⟨spec.opening, entry, hentries, hlaw.opening.2, hphase, ?_⟩ ?_
      · rw [haction, hlaw.opening.1]
      · simp [htells.records]

/-- Where all records are committed, a call is closed exactly when nothing made it give
up. -/
theorem CallSpec.Course.closed_iff (hlaw : spec.Lawful action) (htells : spec.Tells silent)
    {result : Except ClusterError α} (hcourse : spec.Course false trace result)
    (hkept : ¬ Lost trace) :
    Closed trace (result.map fun _ => ()) ↔ trace.any silent = false := by
  cases hcourse with
  | @unannounced _ lost hlost e =>
      exact absurd ⟨spec.opening, lost, List.mem_singleton_self _, hlost⟩ hkept
  | @unprepared prep hprep e =>
      have hentries := auditEntries_eq_nil_of_auxiliary (hlaw.prepares prep false hprep)
      refine iff_of_false (not_closed_of_length ?_) ?_
      · change (spec.opening :: auditEntries prep).length = 1
        rw [hentries]
        rfl
      · simp [htells.prepares prep false hprep]
  | failed hprep hfailed hreport e => exact closed_failed_iff hlaw htells hprep hfailed hreport e
  | @unfinished prep finish outcome hprep hsuccess hfinish e =>
      have hentries := hlaw.auditEntries_command hprep outcome finish
      rw [auditEntries_eq_nil_of_auxiliary (hlaw.finishes finish none hfinish)] at hentries
      refine iff_of_false (not_closed_of_length (by rw [hentries]; rfl)) ?_
      simp [htells.any_command hprep, htells.finishes finish none hfinish]
  | @unclosed prep finish outcome value closing lost hprep hsuccess hfinish hlost e =>
      exact absurd ⟨closing, lost, by simp, hlost⟩ hkept
  | @closed prep finish outcome value closing hprep hsuccess hfinish =>
      have hentries := hlaw.auditEntries_command hprep outcome
        (finish ++ [recorded closing .committed])
      have hnone := auditEntries_eq_nil_of_auxiliary (hlaw.finishes finish _ hfinish)
      have hboth : auditEntries (finish ++ [recorded closing .committed]) = [closing] := by
        rw [auditEntries, List.filterMap_append, ← auditEntries, hnone]
        rfl
      obtain ⟨haction, hphase⟩ := hlaw.closing finish value closing hfinish
      rw [hboth] at hentries
      refine iff_of_true ⟨spec.opening, closing, hentries, hlaw.opening.2, hphase, ?_⟩ ?_
      · rw [haction, hlaw.opening.1]
      · simp [htells.any_command hprep, hsuccess, htells.finishes finish _ hfinish,
          htells.records]

end Closure

theorem FstabManager.Edits.any_fileFailed {path : Str} {edit : Option Str → Option Str}
    {trace : List StorageEvent} {done : Bool} (hedits : Edits path edit trace done) :
    trace.any fileFailed = !done := by
  have hlook : ∀ {found look}, Looks path found look → look.any fileFailed = false := by
    intro found look hlook
    cases hlook <;> rfl
  cases hedits with
  | unreadable e => rfl
  | untouched hlooks hedit => exact hlook hlooks
  | unwritten hlooks hedit e | written hlooks hedit =>
      rw [List.any_append, hlook hlooks]
      rfl

/-- An edit of the fstab runs no command. -/
theorem FstabManager.Edits.any_eq_of_no_run {path : Str} {edit : Option Str → Option Str}
    {trace : List StorageEvent} {done : Bool} (hedits : Edits path edit trace done)
    {p q : StorageEvent → Bool}
    (hsame : ∀ event, (∀ command, event.effect ≠ .run command) → p event = q event) :
    trace.any p = trace.any q := by
  have hlook : ∀ {found look}, Looks path found look → look.any p = look.any q := by
    intro found look hlook
    cases hlook <;> simp [hsame]
  cases hedits with
  | unreadable e => simp [hsame]
  | untouched hlooks hedit => exact hlook hlooks
  | unwritten hlooks hedit e | written hlooks hedit =>
      simp [List.any_append, hlook hlooks, hsame]

theorem Formatter.tells_format (config : StorageConfig) (device : BlockDevice)
    {role : NodeRole} (hrole : (roleLabel role).isSome = true) (requestedBy : Str) :
    (formatSpec config device role requestedBy).Tells fileFailed where
  records entry outcome := rfl
  prepares prep ready hprep := by
    cases hprep with
    | refused hnone => simp [hnone] at hrole
    | worker | noDir hetcd e | noFile hetcd e | dropin hetcd outcome => rfl
  command outcome := by cases outcome <;> exact (Bool.and_false _).symm
  finishes finish ended hfinish := by
    cases hfinish
    rfl

/-- A format for a role without storage ends with its write-ahead record. -/
theorem Formatter.length_auditEntries {config : StorageConfig} {device : BlockDevice}
    {role : NodeRole} (hrole : roleLabel role = none) {requestedBy : Str}
    {trace : List StorageEvent} {result : Except ClusterError Str}
    (hcourse : (formatSpec config device role requestedBy).Course false trace result) :
    (auditEntries trace).length = 1 := by
  cases hcourse with
  | unannounced _ hlost e => rfl
  | unprepared hunready e =>
      have haux := (lawful_format config device role requestedBy).prepares _ _ hunready
      change (_ :: auditEntries _).length = 1
      rw [auditEntries_eq_nil_of_auxiliary haux]
      rfl
  | failed hready | unfinished hready | unclosed hready | closed hready =>
      exact absurd hready (not_prepares_of_unstorable hrole _)

theorem Mounter.tells_mount (config : StorageConfig) (device : BlockDevice) (uuid : Str)
    (role : NodeRole) (requestedBy : Str) :
    (mountSpec config device uuid role requestedBy).Tells mountGivesUp where
  records entry outcome := rfl
  prepares prep ready hprep := by cases hprep <;> rfl
  command outcome := by
    cases outcome with
    | spawnFailed e => rfl
    | exited code stdout stderr => exact (Bool.and_false _).symm
  finishes finish ended hfinish := by
    have hsame : ∀ event : StorageEvent, (∀ command, event.effect ≠ .run command) →
        mountGivesUp event = fileFailed event := by
      rintro ⟨effect, answer⟩ hrun
      cases effect with
      | run command => exact absurd rfl (hrun command)
      | record | createDir | fileExists | readFile | writeFile | openAudit =>
          exact Bool.or_false _
    cases hfinish with
    | unlisted hedits | listed hedits =>
        rw [hedits.any_eq_of_no_run hsame, hedits.any_fileFailed]
        rfl

theorem Mounter.tells_unmount (config : StorageConfig) (mountPoint requestedBy : Str) :
    (unmountSpec config mountPoint requestedBy).Tells unmountGivesUp where
  records entry outcome := rfl
  prepares prep ready hprep := by
    rw [hprep.1, hprep.2]
    rfl
  command outcome := (Bool.and_true _).symm
  finishes finish ended hfinish := by
    have hsame : ∀ event : StorageEvent, (∀ command, event.effect ≠ .run command) →
        unmountGivesUp event = false := by
      rintro ⟨effect, answer⟩ hrun
      cases effect with
      | run command => exact absurd rfl (hrun command)
      | record | createDir | fileExists | readFile | writeFile | openAudit => rfl
    cases hfinish with
    | edited hedits =>
        rw [hedits.any_eq_of_no_run hsame]
        simp

/-- A call outside dry-run mode whose audit writes all succeed is closed by
exactly one matching record if and only if its role has storage and no answer
makes it give up. -/
theorem callRun_closed_iff (run : CallRun) (hwet : run.config.dryRun = false)
    (hcommitted : ∀ entry outcome, recorded entry outcome ∈ run.trace →
      outcome = .committed) :
    Closed run.trace run.result ↔
      run.call.Storable ∧ ∀ event ∈ run.trace, run.call.givesUp event = false := by
  have hkept : ¬ Lost run.trace := by
    rintro ⟨entry, outcome, hmem, hne⟩
    exact hne (hcommitted entry outcome hmem)
  obtain ⟨config, call, trace, result, hruns⟩ := run
  simp only at hwet
  cases call with
  | formatDevice device role requestedBy =>
      obtain ⟨first, hfirst, rfl⟩ := hruns.of_discard
      have hcourse := Formatter.runs_formatDevice hfirst
      rw [hwet] at hcourse
      by_cases hrole : (Formatter.roleLabel role).isSome = true
      · rw [hcourse.closed_iff (Formatter.lawful_format _ _ _ _)
          (Formatter.tells_format config device hrole requestedBy) hkept]
        simp [StorageCall.Storable, StorageCall.givesUp, hrole]
      · have hnone : Formatter.roleLabel role = none := by simpa using hrole
        exact iff_of_false (not_closed_of_length (Formatter.length_auditEntries hnone hcourse))
          fun hstorable => hrole hstorable.1
  | mountRoleStorage device uuid role requestedBy =>
      obtain ⟨first, hfirst, rfl⟩ := hruns.of_discard
      have hcourse := Mounter.runs_mountRoleStorage hfirst
      rw [hwet] at hcourse
      rw [hcourse.closed_iff (Mounter.lawful_mount _ _ _ _ _)
        (Mounter.tells_mount config device uuid role requestedBy) hkept]
      simp [StorageCall.Storable, StorageCall.givesUp]
  | unmountPath mountPoint requestedBy =>
      have hcourse := Mounter.runs_unmountPath hruns
      rw [hwet] at hcourse
      have hiff := hcourse.closed_iff (Mounter.lawful_unmount _ _ _)
        (Mounter.tells_unmount config mountPoint requestedBy) hkept
      have hsame : (result.map fun _ => ()) = result := by cases result <;> rfl
      rw [hsame] at hiff
      rw [hiff]
      simp [StorageCall.Storable, StorageCall.givesUp]

namespace ClosureWitness

/-- A mount on a host on which every effect succeeds. -/
def mountCall : StorageCall :=
  .mountRoleStorage ⟨"nvme0n1".toList, "/dev/nvme0n1".toList, [], 0, [], none, none, none, none,
    none, false, none, []⟩ "abcd".toList .worker "cluster-ldm-ipc".toList

def callRun (oracle : List StorageEvent → (effect : StorageEffect) → StorageAnswer effect)
    (call : StorageCall) : CallRun where
  config := AuditWitness.config
  call := call
  trace := (Prog.exec oracle [] (call.prog AuditWitness.config)).1
  result := (Prog.exec oracle [] (call.prog AuditWitness.config)).2
  runs := Prog.exec_runs oracle [] (call.prog AuditWitness.config)

theorem mount_closed :
    Closed (callRun AuditWitness.compliant mountCall).trace (.ok ()) := by
  refine (callRun_closed_iff (callRun AuditWitness.compliant mountCall) rfl ?_).mpr
    ⟨trivial, ?_⟩
  · intro entry outcome hmem
    obtain ⟨_, hanswer⟩ := Prog.exec_answer AuditWitness.compliant [] _ _ hmem
    exact hanswer
  · have hall : (callRun AuditWitness.compliant mountCall).trace.all
        (fun event => !mountGivesUp event) = true := rfl
    intro event hevent
    have hgoes : mountGivesUp event = false := by
      simpa using List.all_eq_true.mp hall event hevent
    exact hgoes

/-- The mount point is busy: `umount` exits with an error. -/
def busy : List StorageEvent → (effect : StorageEffect) → StorageAnswer effect
  | _, .run _ => CommandOutcome.exited (some 32) [] []
  | past, effect => AuditWitness.compliant past effect

/-- A failed unmount leaves its write-ahead record without a closing one. -/
theorem unmount_not_closed :
    (callRun busy AuditWitness.unmountCall).trace =
        [recorded (Mounter.unmountPreEntry "cluster-operator".toList SafetyGuard.gfsMountPoint)
          .committed, ran ⟨.umount, [SafetyGuard.gfsMountPoint]⟩ (.exited (some 32) [] [])] ∧
      ¬ Closed (callRun busy AuditWitness.unmountCall).trace
        (callRun busy AuditWitness.unmountCall).result :=
  ⟨rfl, not_closed_of_length rfl⟩

end ClosureWitness

end PiCluster
