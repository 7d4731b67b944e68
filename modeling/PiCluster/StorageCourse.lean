/-
How the mutating calls can go.  A call announces itself with a write-ahead record,
prepares its command, runs it, and then reports a failure or finishes and records its
completion.  Each function has one lemma that says everything its runs can do; what
the calls guarantee is read off these courses.
-/
import PiCluster.Storage

namespace PiCluster

open Text Bytes Effects

def recorded (entry : AuditEntry) (outcome : AuditOutcome) : StorageEvent :=
  ⟨.record entry, outcome⟩

def ran (command : HostCommand) (outcome : CommandOutcome) : StorageEvent :=
  ⟨.run command, outcome⟩

theorem CommandOutcome.success_exited_eq_false {code : Option Int} (hcode : code ≠ some 0)
    (stdout stderr : List UInt8) :
    (CommandOutcome.exited code stdout stderr).success = false := by
  unfold success
  split
  · rename_i heq
    simp only [exited.injEq] at heq
    exact absurd heq.1 hcode
  · rfl

/-- The record a failed command leaves, if any; its own outcome is dropped. -/
inductive Reported : Option AuditEntry → List StorageEvent → Prop
  | silent : Reported none []
  | told (entry : AuditEntry) (outcome : AuditOutcome) :
      Reported (some entry) [recorded entry outcome]

/-- The parts of a call: its write-ahead record, what it answers in dry-run mode, how
it may prepare its command and whether it is then ready, the command, the record of a
failed one, and how it may go on after a successful one, to the value and the completion
record or to an error. -/
structure CallSpec (α : Type) where
  opening : AuditEntry
  dryValue : α
  prepares : List StorageEvent → Bool → Prop
  command : HostCommand
  failure : CommandOutcome → Option AuditEntry
  finishes : List StorageEvent → Option (α × AuditEntry) → Prop

/-- The ways a call can go. -/
inductive CallSpec.Course {α : Type} (spec : CallSpec α) :
    Bool → List StorageEvent → Except ClusterError α → Prop
  | unannounced (dryRun : Bool) {lost : AuditOutcome} (hlost : lost ≠ .committed)
      (e : ClusterError) : spec.Course dryRun [recorded spec.opening lost] (.error e)
  | dry : spec.Course true [recorded spec.opening .committed] (.ok spec.dryValue)
  | unprepared {prep : List StorageEvent} (hprep : spec.prepares prep false)
      (e : ClusterError) :
      spec.Course false (recorded spec.opening .committed :: prep) (.error e)
  | failed {prep report : List StorageEvent} {outcome : CommandOutcome}
      (hprep : spec.prepares prep true) (hfailed : outcome.success = false)
      (hreport : Reported (spec.failure outcome) report) (e : ClusterError) :
      spec.Course false (recorded spec.opening .committed ::
        (prep ++ ran spec.command outcome :: report)) (.error e)
  | unfinished {prep finish : List StorageEvent} {outcome : CommandOutcome}
      (hprep : spec.prepares prep true) (hsuccess : outcome.success = true)
      (hfinish : spec.finishes finish none) (e : ClusterError) :
      spec.Course false (recorded spec.opening .committed ::
        (prep ++ ran spec.command outcome :: finish)) (.error e)
  | unclosed {prep finish : List StorageEvent} {outcome : CommandOutcome} {value : α}
      {closing : AuditEntry} {lost : AuditOutcome} (hprep : spec.prepares prep true)
      (hsuccess : outcome.success = true) (hfinish : spec.finishes finish (some (value, closing)))
      (hlost : lost ≠ .committed) (e : ClusterError) :
      spec.Course false (recorded spec.opening .committed ::
        (prep ++ ran spec.command outcome :: (finish ++ [recorded closing lost]))) (.error e)
  | closed {prep finish : List StorageEvent} {outcome : CommandOutcome} {value : α}
      {closing : AuditEntry} (hprep : spec.prepares prep true)
      (hsuccess : outcome.success = true)
      (hfinish : spec.finishes finish (some (value, closing))) :
      spec.Course false (recorded spec.opening .committed ::
        (prep ++ ran spec.command outcome :: (finish ++ [recorded closing .committed])))
        (.ok value)

section Steps

variable {trace : List StorageEvent}

theorem runs_auditNew {config : StorageConfig} {result : Except ClusterError Unit}
    (hruns : (AuditLog.new config).Runs trace result) :
    ∃ answer : Except Str Unit, trace = [⟨.openAudit config.auditLog, answer⟩] ∧
      result.toBool = answer.toBool := by
  obtain ⟨answer, later, rfl, hlater⟩ := hruns.of_call_bind
  refine ⟨answer, ?_⟩
  cases answer with
  | ok value | error e =>
      obtain ⟨rfl, rfl⟩ := hlater.of_done
      exact ⟨rfl, rfl⟩

theorem runs_record {config : StorageConfig} {entry : AuditEntry}
    {result : Except ClusterError Unit}
    (hruns : (AuditLog.record config entry).Runs trace result) :
    ∃ outcome, trace = [recorded entry outcome] ∧
      (outcome = .committed ∧ result = .ok () ∨
        outcome ≠ .committed ∧ ∃ e, result = .error e) := by
  obtain ⟨outcome, later, rfl, hlater⟩ := hruns.of_call_bind
  refine ⟨outcome, ?_⟩
  cases outcome with
  | committed =>
      obtain ⟨rfl, rfl⟩ := hlater.of_done
      exact ⟨rfl, Or.inl ⟨rfl, rfl⟩⟩
  | ioFailed e | serializationFailed e | fsyncFailed e =>
      obtain ⟨rfl, rfl⟩ := hlater.of_done
      exact ⟨rfl, Or.inr ⟨nofun, _, rfl⟩⟩

/-- A record that has to be kept, and what comes after it. -/
theorem runs_record_bind {α : Type} {config : StorageConfig} {entry : AuditEntry}
    {next : Unit → StorageProg α} {result : Except ClusterError α}
    (hruns : (AuditLog.record config entry >>= next).Runs trace result) :
    (∃ lost e, trace = [recorded entry lost] ∧ lost ≠ .committed ∧ result = .error e) ∨
      ∃ later, trace = recorded entry .committed :: later ∧ (next ()).Runs later result := by
  rcases hruns.bind_cases with ⟨e, hrecord, rfl⟩ | ⟨past, _, later, rfl, hrecord, hlater⟩
  · obtain ⟨lost, rfl, ⟨_, hok⟩ | ⟨hlost, _⟩⟩ := runs_record hrecord
    · cases hok
    · exact Or.inl ⟨lost, e, rfl, hlost, rfl⟩
  · obtain ⟨outcome, rfl, ⟨rfl, _⟩ | ⟨_, e, herror⟩⟩ := runs_record hrecord
    · exact Or.inr ⟨later, rfl, hlater⟩
    · cases herror

/-- A fallible effect whose error ends the program. -/
theorem runs_orInternal_bind {α β : Type} {context : Str} {answer : Except Str α}
    {next : α → StorageProg β} {result : Except ClusterError β}
    (hruns : (orInternal context answer >>= next).Runs trace result) :
    (∃ e e', answer = .error e ∧ trace = [] ∧ result = .error e') ∨
      ∃ value, answer = .ok value ∧ (next value).Runs trace result := by
  cases answer with
  | ok value => exact Or.inr ⟨value, rfl, hruns⟩
  | error e =>
      obtain ⟨rfl, rfl⟩ := Prog.Runs.of_done hruns
      exact Or.inl ⟨e, _, rfl, rfl, rfl⟩

/-- A failure record whose own outcome is dropped, before the call fails. -/
theorem runs_recordFailure {α : Type} {config : StorageConfig} {entry : AuditEntry}
    {e : ClusterError} {result : Except ClusterError α}
    (hruns : ((AuditLog.record config entry).ignore >>= fun _ => Prog.fail e).Runs trace
      result) :
    Reported (some entry) trace ∧ result = .error e := by
  rcases hruns.bind_cases with ⟨_, hrecord, _⟩ | ⟨past, _, later, rfl, hrecord, hlater⟩
  · cases hrecord.of_ignore.1
  · obtain ⟨_, _, hrecord⟩ := hrecord.of_ignore
    obtain ⟨outcome, rfl, _⟩ := runs_record hrecord
    obtain ⟨rfl, rfl⟩ := hlater.of_done
    exact ⟨.told entry outcome, rfl⟩

section Course

variable {α : Type} {spec : CallSpec α} {config : StorageConfig}
  {result : Except ClusterError α}

/-- Every call announces itself and stops there in dry-run mode. -/
theorem course_of_runs {rest : StorageProg α}
    (hruns : (AuditLog.record config spec.opening >>= fun _ =>
      if config.dryRun then pure spec.dryValue else rest).Runs trace result)
    (hrest : config.dryRun = false → ∀ later, rest.Runs later result →
      spec.Course false (recorded spec.opening .committed :: later) result) :
    spec.Course config.dryRun trace result := by
  rcases runs_record_bind hruns with ⟨lost, e, rfl, hlost, rfl⟩ | ⟨later, rfl, hlater⟩
  · exact .unannounced _ hlost e
  · cases hdry : config.dryRun with
    | true =>
        rw [hdry] at hlater
        obtain ⟨rfl, rfl⟩ := Prog.Runs.of_done hlater
        exact .dry
    | false =>
        rw [hdry] at hlater
        exact hrest hdry later hlater

/-- The completion record ends the call. -/
theorem course_of_closing {prep finish : List StorageEvent} {outcome : CommandOutcome}
    {value : α} {closing : AuditEntry} (hprep : spec.prepares prep true)
    (hsuccess : outcome.success = true)
    (hfinish : spec.finishes finish (some (value, closing)))
    (hruns : (AuditLog.record config closing >>= fun _ => pure value).Runs trace result) :
    spec.Course false (recorded spec.opening .committed ::
      (prep ++ ran spec.command outcome :: (finish ++ trace))) result := by
  rcases runs_record_bind hruns with ⟨lost, e, rfl, hlost, rfl⟩ | ⟨later, rfl, hlater⟩
  · exact .unclosed hprep hsuccess hfinish hlost e
  · obtain ⟨rfl, rfl⟩ := hlater.of_done
    exact .closed hprep hsuccess hfinish

end Course

end Steps

namespace FstabManager

/-- Looking at the fstab: there is none, or it is read. -/
inductive Looks (path : Str) : Option Str → List StorageEvent → Prop
  | absent : Looks path none [⟨.fileExists path, false⟩]
  | present (content : Str) : Looks path (some content)
      [⟨.fileExists path, true⟩, ⟨.readFile path, Except.ok content⟩]

/-- The ways an edit of the fstab can go, and whether it was made; `edit` is the
content it writes, if any. -/
inductive Edits (path : Str) (edit : Option Str → Option Str) :
    List StorageEvent → Bool → Prop
  | unreadable (e : Str) : Edits path edit
      [⟨.fileExists path, true⟩, ⟨.readFile path, Except.error e⟩] false
  | untouched {found : Option Str} {look : List StorageEvent} (hlook : Looks path found look)
      (hedit : edit found = none) : Edits path edit look true
  | unwritten {found : Option Str} {look : List StorageEvent} {content : Str}
      (hlook : Looks path found look) (hedit : edit found = some content) (e : Str) :
      Edits path edit (look ++ [⟨.writeFile path content, Except.error e⟩]) false
  | written {found : Option Str} {look : List StorageEvent} {content : Str}
      (hlook : Looks path found look) (hedit : edit found = some content) :
      Edits path edit (look ++ [⟨.writeFile path content, Except.ok ()⟩]) true

section Runs

variable {config : StorageConfig} {trace : List StorageEvent}
  {result : Except ClusterError Unit}

theorem runs_readFstab_bind {next : Str → StorageProg Unit}
    (hruns : (readFstab config >>= next).Runs trace result) :
    (∃ e e', trace = [⟨.readFile config.fstabPath, Except.error e⟩] ∧ result = .error e') ∨
      ∃ content later, trace = ⟨.readFile config.fstabPath, Except.ok content⟩ :: later ∧
        (next content).Runs later result := by
  obtain ⟨answer, later, rfl, hlater⟩ := Prog.Runs.of_call_bind hruns
  cases answer with
  | error e =>
      obtain ⟨rfl, rfl⟩ := Prog.Runs.of_done hlater
      exact Or.inl ⟨e, _, rfl, rfl⟩
  | ok content => exact Or.inr ⟨content, later, rfl, hlater⟩

/-- The write that ends an edit. -/
theorem runs_writeFstab {edit : Option Str → Option Str} {found : Option Str}
    {look : List StorageEvent} (hlook : Looks config.fstabPath found look)
    {content context : Str} (hedit : edit found = some content)
    (hruns : (writeFile config.fstabPath content >>= fun written =>
      orInternal context written).Runs trace result) :
    Edits config.fstabPath edit (look ++ trace) result.toBool := by
  obtain ⟨answer, later, rfl, hlater⟩ := hruns.of_call_bind
  cases answer with
  | error e =>
      obtain ⟨rfl, rfl⟩ := Prog.Runs.of_done hlater
      exact .unwritten hlook hedit e
  | ok value =>
      obtain ⟨rfl, rfl⟩ := Prog.Runs.of_done hlater
      exact .written hlook hedit

theorem runs_upsert {uuid mountPoint fsType options : Str}
    (hruns : (upsert config uuid mountPoint fsType options).Runs trace result) :
    Edits config.fstabPath (fun found => some (upsertEntry found uuid mountPoint fsType options))
      trace result.toBool := by
  obtain ⟨found, later, rfl, hlater⟩ := Prog.Runs.of_call_bind hruns
  cases found with
  | false => exact runs_writeFstab .absent rfl hlater
  | true =>
      rcases runs_readFstab_bind hlater with ⟨e, e', rfl, rfl⟩ | ⟨content, rest, rfl, hrest⟩
      · exact .unreadable e
      · exact runs_writeFstab (.present content) rfl hrest

theorem runs_remove {mountPointOrUuid : Str}
    (hruns : (remove config mountPointOrUuid).Runs trace result) :
    Edits config.fstabPath (removeEntry · mountPointOrUuid) trace result.toBool := by
  obtain ⟨found, later, rfl, hlater⟩ := Prog.Runs.of_call_bind hruns
  cases found with
  | false =>
      obtain ⟨rfl, rfl⟩ := Prog.Runs.of_done hlater
      exact .untouched .absent rfl
  | true =>
      rcases runs_readFstab_bind hlater with ⟨e, e', rfl, rfl⟩ | ⟨content, rest, rfl, hrest⟩
      · exact .unreadable e
      · exact runs_writeFstab (.present content) rfl hrest

end Runs

end FstabManager

namespace Formatter

/-- What `query_uuid` reads from an outcome of `blkid`. -/
def probedUuid : CommandOutcome → Option Str
  | .exited code stdout _ =>
      let uuid := trim (decodeLossy stdout)
      if code = some 0 ∧ uuid ≠ [] then some uuid else none
  | .spawnFailed _ => none

/-- The UUID `format_device` returns after that outcome. -/
def uuidOf (outcome : CommandOutcome) : Str := (probedUuid outcome).getD unknownUuid

def blkid (devPath : Str) : HostCommand :=
  ⟨.blkid, ["-s".toList, "UUID".toList, "-o".toList, "value".toList, devPath]⟩

def daemonReload : HostCommand := ⟨.systemctl, ["daemon-reload".toList]⟩

/-- The options of `mkfs.ext4` for the roles that have storage. -/
def mkfsOptions : NodeRole → List Str
  | .master | .seed => ["-b".toList, "4096".toList, "-L".toList, etcdLabel]
  | .worker => ["-T".toList, "largefile4".toList, "-L".toList, gfsLabel]
  | _ => []

/-- What a format does before `mkfs.ext4`: for an etcd role it writes the k3s drop-in,
and a role without storage ends it. -/
inductive Prepares : NodeRole → List StorageEvent → Bool → Prop
  | refused {role : NodeRole} (hrole : roleLabel role = none) : Prepares role [] false
  | worker : Prepares .worker [] true
  | noDir {role : NodeRole} (hrole : roleLabel role = some etcdLabel) (e : Str) :
      Prepares role [⟨.createDir dropinDir, Except.error e⟩] false
  | noFile {role : NodeRole} (hrole : roleLabel role = some etcdLabel) (e : Str) :
      Prepares role [⟨.createDir dropinDir, Except.ok ()⟩,
        ⟨.writeFile dropinFile dropinContent, Except.error e⟩] false
  | dropin {role : NodeRole} (hrole : roleLabel role = some etcdLabel)
      (outcome : CommandOutcome) :
      Prepares role [⟨.createDir dropinDir, Except.ok ()⟩,
        ⟨.writeFile dropinFile dropinContent, Except.ok ()⟩, ran daemonReload outcome] true

theorem not_prepares_of_unstorable {role : NodeRole} (hrole : roleLabel role = none)
    (prep : List StorageEvent) : ¬ Prepares role prep true := by
  rintro (_ | _ | _ | _ | ⟨hetcd⟩)
  · cases hrole
  · rw [hrole] at hetcd
    cases hetcd

/-- After `mkfs.ext4` the UUID is asked for. -/
inductive Finishes (device : BlockDevice) (role : NodeRole) (requestedBy : Str) :
    List StorageEvent → Option (Str × AuditEntry) → Prop
  | probed (outcome : CommandOutcome) :
      Finishes device role requestedBy [ran (blkid device.devPath) outcome]
        (some (uuidOf outcome, postEntry device role requestedBy (uuidOf outcome)))

def failure (device : BlockDevice) (requestedBy : Str) : CommandOutcome → Option AuditEntry
  | .spawnFailed e => some (failedEntry device requestedBy "error".toList e)
  | .exited _ _ stderr =>
      some (failedEntry device requestedBy "stderr".toList (decodeLossy stderr))

def formatSpec (config : StorageConfig) (device : BlockDevice) (role : NodeRole)
    (requestedBy : Str) : CallSpec Str where
  opening := preEntry device role requestedBy config.dryRun
  dryValue := dryRunUuid
  prepares := Prepares role
  command := ⟨.mkfsExt4, ["-F".toList] ++ mkfsOptions role ++ [device.devPath]⟩
  failure := failure device requestedBy
  finishes := Finishes device role requestedBy

section Runs

variable {config : StorageConfig} {trace : List StorageEvent}

theorem runs_dropin (hwet : config.dryRun = false) {role : NodeRole}
    (hrole : roleLabel role = some etcdLabel) {result : Except ClusterError Unit}
    (hruns : (writeK3sIoPriorityDropin config).Runs trace result) :
    Prepares role trace result.toBool := by
  unfold writeK3sIoPriorityDropin at hruns
  rw [hwet] at hruns
  obtain ⟨created, later, rfl, hlater⟩ := Prog.Runs.of_call_bind hruns
  rcases runs_orInternal_bind hlater with ⟨e, e', rfl, rfl, rfl⟩ | ⟨_, rfl, hlater⟩
  · exact .noDir hrole e
  · obtain ⟨written, rest, rfl, hrest⟩ := Prog.Runs.of_call_bind hlater
    rcases runs_orInternal_bind hrest with ⟨e, e', rfl, rfl, rfl⟩ | ⟨_, rfl, hrest⟩
    · exact .noFile hrole e
    · obtain ⟨rfl, first, hreload⟩ := hrest.of_ignore
      obtain ⟨outcome, rfl, -⟩ := hreload.of_call
      exact .dropin hrole outcome

theorem runs_mkfsArgs (hwet : config.dryRun = false) {role : NodeRole}
    {result : Except ClusterError (List Str)}
    (hruns : (mkfsArgs config role).Runs trace result) :
    Prepares role trace result.toBool ∧ ∀ args, result = .ok args → args = mkfsOptions role := by
  cases role with
  | master | seed =>
      rcases hruns.bind_cases with ⟨e, hdropin, rfl⟩ | ⟨past, _, later, rfl, hdropin, hlater⟩
      · exact ⟨runs_dropin hwet rfl hdropin, nofun⟩
      · obtain ⟨rfl, rfl⟩ := hlater.of_done
        rw [List.append_nil]
        exact ⟨runs_dropin hwet rfl hdropin, fun args hargs => (Except.ok.inj hargs).symm⟩
  | worker =>
      obtain ⟨rfl, rfl⟩ := Prog.Runs.of_done hruns
      exact ⟨.worker, fun args hargs => (Except.ok.inj hargs).symm⟩
  | pending | decommissioned =>
      obtain ⟨rfl, rfl⟩ := Prog.Runs.of_done hruns
      exact ⟨.refused rfl, nofun⟩

theorem runs_queryUuid {devPath : Str} {result : Except ClusterError Str}
    (hruns : ((queryUuid devPath).getD unknownUuid).Runs trace result) :
    ∃ outcome, trace = [ran (blkid devPath) outcome] ∧ result = .ok (uuidOf outcome) := by
  obtain ⟨first, hquery, rfl⟩ := hruns.of_getD
  obtain ⟨outcome, later, rfl, hlater⟩ := hquery.of_call_bind
  refine ⟨outcome, ?_⟩
  cases outcome with
  | spawnFailed e =>
      obtain ⟨rfl, rfl⟩ := hlater.of_done
      exact ⟨rfl, rfl⟩
  | exited code stdout stderr =>
      simp only [uuidOf, probedUuid]
      simp only at hlater
      split at hlater
      · rename_i hfound
        obtain ⟨rfl, rfl⟩ := hlater.of_done
        rw [if_pos hfound]
        exact ⟨rfl, rfl⟩
      · rename_i hfound
        obtain ⟨rfl, rfl⟩ := hlater.of_done
        rw [if_neg hfound]
        exact ⟨rfl, rfl⟩

theorem runs_formatDevice {device : BlockDevice} {role : NodeRole} {requestedBy : Str}
    {result : Except ClusterError Str}
    (hruns : (formatDevice config device role requestedBy).Runs trace result) :
    (formatSpec config device role requestedBy).Course config.dryRun trace result := by
  refine course_of_runs hruns fun hwet later hlater => ?_
  rcases hlater.bind_cases with ⟨e, hargs, rfl⟩ | ⟨prep, args, rest, rfl, hargs, hrest⟩
  · exact .unprepared (runs_mkfsArgs hwet hargs).1 e
  · obtain ⟨hprep, hoptions⟩ := runs_mkfsArgs hwet hargs
    obtain rfl := hoptions args rfl
    obtain ⟨outcome, tail, rfl, htail⟩ := Prog.Runs.of_call_bind hrest
    cases outcome with
    | spawnFailed e =>
        obtain ⟨hreport, rfl⟩ := runs_recordFailure htail
        exact .failed hprep rfl hreport _
    | exited code stdout stderr =>
        by_cases hcode : code = some 0
        · subst hcode
          rcases htail.bind_cases with ⟨e, hquery, _⟩ | ⟨finish, uuid, last, rfl, hquery, hlast⟩
          · obtain ⟨_, _, huuid⟩ := runs_queryUuid hquery
            cases huuid
          · obtain ⟨probe, rfl, huuid⟩ := runs_queryUuid hquery
            obtain rfl := Except.ok.inj huuid
            exact course_of_closing hprep rfl (.probed probe) hlast
        · simp only [hcode, ne_eq, not_false_eq_true, ↓reduceIte] at htail
          obtain ⟨hreport, rfl⟩ := runs_recordFailure htail
          exact .failed hprep (CommandOutcome.success_exited_eq_false hcode stdout stderr)
            hreport _

end Runs

end Formatter

namespace Mounter

/-- The command that mounts a source for a role. -/
def mount (role : NodeRole) (source : Str) : HostCommand :=
  ⟨.mount, ["-o".toList, (getMountConfig role).2, source, (getMountConfig role).1]⟩

def umount (mountPoint : Str) : HostCommand := ⟨.umount, [mountPoint]⟩

/-- The edits of the fstab that go with a mount and an unmount. -/
def mountEdit (uuid : Str) (role : NodeRole) (found : Option Str) : Option Str :=
  some (FstabManager.upsertEntry found uuid (getMountConfig role).1 SafetyGuard.ext4
    (getMountConfig role).2)

def unmountEdit (mountPoint : Str) (found : Option Str) : Option Str :=
  FstabManager.removeEntry found mountPoint

/-- The mount point is created first. -/
inductive Prepares (role : NodeRole) : List StorageEvent → Bool → Prop
  | noDir (e : Str) :
      Prepares role [⟨.createDir (getMountConfig role).1, Except.error e⟩] false
  | created : Prepares role [⟨.createDir (getMountConfig role).1, Except.ok ()⟩] true

/-- A mount that is not listed in the fstab ends with an error. -/
inductive Finishes (fstabPath : Str) (device : BlockDevice) (uuid : Str) (role : NodeRole)
    (requestedBy : Str) : List StorageEvent → Option (Str × AuditEntry) → Prop
  | unlisted {finish : List StorageEvent}
      (hedit : FstabManager.Edits fstabPath (mountEdit uuid role) finish false) :
      Finishes fstabPath device uuid role requestedBy finish none
  | listed {finish : List StorageEvent}
      (hedit : FstabManager.Edits fstabPath (mountEdit uuid role) finish true) :
      Finishes fstabPath device uuid role requestedBy finish
        (some ((getMountConfig role).1, postEntry device uuid role requestedBy))

def failure (device : BlockDevice) (requestedBy : Str) : CommandOutcome → Option AuditEntry
  | .spawnFailed _ => none
  | .exited code _ _ => some (failedEntry device requestedBy code)

def mountSpec (config : StorageConfig) (device : BlockDevice) (uuid : Str) (role : NodeRole)
    (requestedBy : Str) : CallSpec Str where
  opening := preEntry device uuid role requestedBy
  dryValue := (getMountConfig role).1
  prepares := Prepares role
  command := mount role (mountSource device uuid)
  failure := failure device requestedBy
  finishes := Finishes config.fstabPath device uuid role requestedBy

/-- An unmount goes on whether or not the fstab was edited. -/
inductive UnmountFinishes (fstabPath mountPoint requestedBy : Str) :
    List StorageEvent → Option (Unit × AuditEntry) → Prop
  | edited {finish : List StorageEvent} {done : Bool}
      (hedit : FstabManager.Edits fstabPath (unmountEdit mountPoint) finish done) :
      UnmountFinishes fstabPath mountPoint requestedBy finish
        (some ((), unmountPostEntry requestedBy mountPoint))

def unmountSpec (config : StorageConfig) (mountPoint requestedBy : Str) : CallSpec Unit where
  opening := unmountPreEntry requestedBy mountPoint
  dryValue := ()
  prepares prep ready := prep = [] ∧ ready = true
  command := umount mountPoint
  failure _ := none
  finishes := UnmountFinishes config.fstabPath mountPoint requestedBy

section Runs

variable {config : StorageConfig} {requestedBy : Str} {trace : List StorageEvent}

theorem runs_mountRoleStorage {device : BlockDevice} {uuid : Str} {role : NodeRole}
    {result : Except ClusterError Str}
    (hruns : (mountRoleStorage config device uuid role requestedBy).Runs trace result) :
    (mountSpec config device uuid role requestedBy).Course config.dryRun trace result := by
  refine course_of_runs hruns fun _ later hlater => ?_
  obtain ⟨created, rest, rfl, hrest⟩ := Prog.Runs.of_call_bind hlater
  rcases runs_orInternal_bind hrest with ⟨e, e', rfl, rfl, rfl⟩ | ⟨_, rfl, hmount⟩
  · exact .unprepared (Prepares.noDir e) e'
  · have hprep : (mountSpec config device uuid role requestedBy).prepares
        [⟨.createDir (getMountConfig role).1, Except.ok ()⟩] true := Prepares.created
    obtain ⟨outcome, tail, rfl, htail⟩ := Prog.Runs.of_call_bind hmount
    cases outcome with
    | spawnFailed e =>
        obtain ⟨rfl, rfl⟩ := Prog.Runs.of_done htail
        have hreport : Reported ((mountSpec config device uuid role requestedBy).failure
            (.spawnFailed e)) [] := Reported.silent
        exact .failed hprep rfl hreport _
    | exited code stdout stderr =>
        by_cases hcode : code = some 0
        · subst hcode
          rcases htail.bind_cases with ⟨e, hupsert, rfl⟩ |
            ⟨finish, _, last, rfl, hupsert, hlast⟩
          · exact .unfinished hprep rfl (Finishes.unlisted (FstabManager.runs_upsert hupsert)) e
          · exact course_of_closing hprep rfl
              (Finishes.listed (FstabManager.runs_upsert hupsert)) hlast
        · simp only [hcode, ne_eq, not_false_eq_true, ↓reduceIte] at htail
          obtain ⟨hreport, rfl⟩ := runs_recordFailure htail
          exact .failed hprep (CommandOutcome.success_exited_eq_false hcode stdout stderr)
            hreport _

theorem runs_unmountPath {mountPoint : Str} {result : Except ClusterError Unit}
    (hruns : (unmountPath config mountPoint requestedBy).Runs trace result) :
    (unmountSpec config mountPoint requestedBy).Course config.dryRun trace result := by
  refine course_of_runs hruns fun _ later hlater => ?_
  have hprep : (unmountSpec config mountPoint requestedBy).prepares [] true := ⟨rfl, rfl⟩
  obtain ⟨outcome, tail, rfl, htail⟩ := Prog.Runs.of_call_bind hlater
  cases outcome with
  | spawnFailed e =>
      obtain ⟨rfl, rfl⟩ := Prog.Runs.of_done htail
      exact .failed hprep rfl .silent _
  | exited code stdout stderr =>
      by_cases hcode : code = some 0
      · subst hcode
        rcases htail.bind_cases with ⟨e, hremove, _⟩ | ⟨finish, _, last, rfl, hremove, hlast⟩
        · cases hremove.of_ignore.1
        · obtain ⟨_, first, hremove⟩ := hremove.of_ignore
          have hfinish : (unmountSpec config mountPoint requestedBy).finishes finish
              (some ((), unmountPostEntry requestedBy mountPoint)) :=
            .edited (FstabManager.runs_remove hremove)
          obtain ⟨closing, rfl, ⟨rfl, rfl⟩ | ⟨hlost, e, rfl⟩⟩ := runs_record hlast
          · exact .closed hprep rfl hfinish
          · exact .unclosed hprep rfl hfinish hlost e
      · simp only [hcode, ne_eq, not_false_eq_true, ↓reduceIte] at htail
        obtain ⟨rfl, rfl⟩ := Prog.Runs.of_done htail
        exact .failed hprep (CommandOutcome.success_exited_eq_false hcode stdout stderr)
          .silent _

end Runs

end Mounter

end PiCluster
