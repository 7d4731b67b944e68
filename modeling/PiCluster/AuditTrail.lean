/-
The audit trail of the mutating operations.  Every course of a call keeps one
discipline on the effects it has had so far: its write-ahead record comes first,
commands and file writes come after that record was committed, and a completion
record comes after a successful command.
-/
import PiCluster.StorageCourse

namespace PiCluster

open Text Effects

/-- The action a command must be announced as; the other commands only read or
reload. -/
def HostProgram.mutation : HostProgram → Option AuditAction
  | .mkfsExt4 => some .format
  | .mount => some .mount
  | .umount => some .unmount
  | .blkid => none
  | .systemctl => none

/-- A write-ahead record of the action was written and fsynced. -/
def Announced (action : AuditAction) (past : List StorageEvent) : Prop :=
  ∃ entry, recorded entry .committed ∈ past ∧ entry.action = action ∧
    entry.phase = .preMutation

/-- A command of the action exited successfully. -/
def Succeeded (action : AuditAction) (past : List StorageEvent) : Prop :=
  ∃ command outcome, ran command outcome ∈ past ∧
    command.program.mutation = some action ∧ outcome.success = true

/-- What may happen after the effects in `past`. -/
def Allowed (past : List StorageEvent) : StorageEffect → Prop
  | .record entry =>
      match entry.phase with
      | .preMutation => past = []
      | .postMutation => Succeeded entry.action past
      | .failed => True
  | .run command => ∀ action, command.program.mutation = some action → Announced action past
  | .writeFile _ _ => ∃ action, Announced action past
  | _ => True

def Disciplined (trace : List StorageEvent) : Prop :=
  ∀ past event later, trace = past ++ event :: later → Allowed past event.effect

theorem disciplined_nil : Disciplined [] := StepRun.follows_nil

theorem Disciplined.snoc {past : List StorageEvent} {event : StorageEvent}
    (hpast : Disciplined past) (hallowed : Allowed past event.effect) :
    Disciplined (past ++ [event]) :=
  StepRun.Follows.snoc hpast hallowed

theorem Announced.append {action : AuditAction} {past : List StorageEvent}
    (hannounced : Announced action past) (later : List StorageEvent) :
    Announced action (past ++ later) := by
  obtain ⟨entry, hmem, hentry⟩ := hannounced
  exact ⟨entry, List.mem_append_left _ hmem, hentry⟩

/-- The discipline after the write-ahead record was committed. -/
def Open (action : AuditAction) (past : List StorageEvent) : Prop :=
  Disciplined past ∧ Announced action past

/-- Effects that are allowed wherever the action is announced. -/
def Covered (action : AuditAction) : StorageEffect → Prop
  | .record entry => entry.phase = .failed
  | .run command => ∀ mutation, command.program.mutation = some mutation → mutation = action
  | _ => True

theorem Open.snoc {action : AuditAction} {past : List StorageEvent} {event : StorageEvent}
    (hopen : Open action past) (hcovered : Covered action event.effect) :
    Open action (past ++ [event]) := by
  refine ⟨hopen.1.snoc ?_, hopen.2.append [event]⟩
  obtain ⟨effect, answer⟩ := event
  cases effect with
  | record entry =>
      simp only [Covered] at hcovered
      simp only [Allowed, hcovered]
  | run command =>
      intro mutation hmutation
      obtain rfl := hcovered mutation hmutation
      exact hopen.2
  | writeFile path content => exact ⟨action, hopen.2⟩
  | createDir | fileExists | readFile | openAudit => trivial

theorem Open.append {action : AuditAction} {past later : List StorageEvent}
    (hopen : Open action past) (hcovered : ∀ event ∈ later, Covered action event.effect) :
    Open action (past ++ later) := by
  induction later generalizing past with
  | nil => rwa [List.append_nil]
  | cons event rest ih =>
      obtain ⟨hevent, hrest⟩ := List.forall_mem_cons.mp hcovered
      have hboth := ih (hopen.snoc hevent) hrest
      rwa [List.append_assoc, List.singleton_append] at hboth

/-- The effects of a call besides its records and its command: the commands among them
only read or reload. -/
def Auxiliary : StorageEffect → Prop
  | .record _ => False
  | .run command => command.program.mutation = none
  | _ => True

theorem Auxiliary.covered {effect : StorageEffect} (haux : Auxiliary effect)
    (action : AuditAction) : Covered action effect := by
  cases effect with
  | record entry => exact haux.elim
  | run command =>
      intro mutation hmutation
      rw [show command.program.mutation = none from haux] at hmutation
      cases hmutation
  | createDir | fileExists | readFile | writeFile | openAudit => trivial

/-- An event that runs no mutating command. -/
def Still (event : StorageEvent) : Prop :=
  ∀ command, event.effect = .run command → command.program.mutation = none

theorem still_recorded (entry : AuditEntry) (outcome : AuditOutcome) :
    Still (recorded entry outcome) := nofun

theorem Reported.still {failure : Option AuditEntry} {report : List StorageEvent}
    (hreport : Reported failure report) : ∀ event ∈ report, Still event := by
  cases hreport with
  | silent => exact List.forall_mem_nil _
  | told entry outcome => exact List.forall_mem_singleton.mpr (still_recorded entry outcome)

theorem Auxiliary.still {event : StorageEvent} (haux : Auxiliary event.effect) :
    Still event := by
  intro command hcommand
  rw [hcommand] at haux
  exact haux

/-- The records and the command of a call are of one action, and what it does besides
is auxiliary. -/
structure CallSpec.Lawful {α : Type} (spec : CallSpec α) (action : AuditAction) : Prop where
  opening : spec.opening.action = action ∧ spec.opening.phase = .preMutation
  command : spec.command.program.mutation = some action
  prepares : ∀ prep ready, spec.prepares prep ready → ∀ event ∈ prep, Auxiliary event.effect
  failure : ∀ outcome entry, spec.failure outcome = some entry →
    entry.action = action ∧ entry.phase = .failed
  finishes : ∀ finish ended, spec.finishes finish ended →
    ∀ event ∈ finish, Auxiliary event.effect
  closing : ∀ finish value entry, spec.finishes finish (some (value, entry)) →
    entry.action = action ∧ entry.phase = .postMutation

namespace CallSpec

variable {α : Type} {spec : CallSpec α} {action : AuditAction}

theorem Lawful.covered_report (hlaw : spec.Lawful action) {outcome : CommandOutcome}
    {report : List StorageEvent} (hreport : Reported (spec.failure outcome) report) :
    ∀ event ∈ report, Covered action event.effect := by
  generalize hentry : spec.failure outcome = failure at hreport
  cases hreport with
  | silent => exact List.forall_mem_nil _
  | told entry lost => exact List.forall_mem_singleton.mpr (hlaw.failure outcome entry hentry).2

/-- The call up to its command and what may follow it. -/
theorem Lawful.open_command (hlaw : spec.Lawful action) {prep later : List StorageEvent}
    (hprep : spec.prepares prep true) (outcome : CommandOutcome)
    (hlater : ∀ event ∈ later, Covered action event.effect) :
    Open action (recorded spec.opening .committed ::
      (prep ++ ran spec.command outcome :: later)) := by
  have hopen : Open action [recorded spec.opening .committed] := by
    refine ⟨disciplined_nil.snoc ?_, spec.opening, List.mem_singleton_self _, hlaw.opening⟩
    simp only [recorded, Allowed, hlaw.opening.2]
  apply hopen.append
  intro event hevent
  rcases List.mem_append.mp hevent with hmem | hmem
  · exact (hlaw.prepares prep true hprep event hmem).covered action
  · rcases List.mem_cons.mp hmem with rfl | hmem
    · intro mutation hmutation
      exact Option.some.inj (hmutation.symm.trans hlaw.command)
    · exact hlater event hmem

/-- The completion record comes after the successful command. -/
theorem Lawful.disciplined_closing (hlaw : spec.Lawful action)
    {prep finish : List StorageEvent} {outcome : CommandOutcome} {value : α}
    {closing : AuditEntry} (hprep : spec.prepares prep true)
    (hsuccess : outcome.success = true) (hfinish : spec.finishes finish (some (value, closing)))
    (written : AuditOutcome) :
    Disciplined (recorded spec.opening .committed ::
      (prep ++ ran spec.command outcome :: (finish ++ [recorded closing written]))) := by
  have hopen := hlaw.open_command hprep outcome fun event hevent =>
    (hlaw.finishes finish _ hfinish event hevent).covered action
  have hclosing : Allowed (recorded spec.opening .committed ::
      (prep ++ ran spec.command outcome :: finish)) (recorded closing written).effect := by
    obtain ⟨haction, hphase⟩ := hlaw.closing finish value closing hfinish
    simp only [recorded, Allowed, hphase, haction]
    exact ⟨spec.command, outcome, by simp, hlaw.command, hsuccess⟩
  have hall := hopen.1.snoc hclosing
  rwa [List.cons_append, List.append_assoc, List.cons_append] at hall

theorem Course.disciplined (hlaw : spec.Lawful action) {dryRun : Bool}
    {trace : List StorageEvent} {result : Except ClusterError α}
    (hcourse : spec.Course dryRun trace result) : Disciplined trace := by
  have hfirst : ∀ outcome, Disciplined [recorded spec.opening outcome] := fun outcome =>
    disciplined_nil.snoc (by simp only [recorded, Allowed, hlaw.opening.2])
  cases hcourse with
  | unannounced _ hlost e => exact hfirst _
  | dry => exact hfirst _
  | unprepared hprep e =>
      have hopen : Open action [recorded spec.opening .committed] :=
        ⟨hfirst _, spec.opening, List.mem_singleton_self _, hlaw.opening⟩
      exact (hopen.append fun event hevent =>
        (hlaw.prepares _ _ hprep event hevent).covered action).1
  | failed hprep hfailed hreport e =>
      exact (hlaw.open_command hprep _ (hlaw.covered_report hreport)).1
  | unfinished hprep hsuccess hfinish e =>
      exact (hlaw.open_command hprep _ fun event hevent =>
        (hlaw.finishes _ _ hfinish event hevent).covered action).1
  | unclosed hprep hsuccess hfinish hlost e =>
      exact hlaw.disciplined_closing hprep hsuccess hfinish _
  | closed hprep hsuccess hfinish =>
      exact hlaw.disciplined_closing hprep hsuccess hfinish _

/-- A call runs its command at most once, not in dry-run mode, and successfully where it
succeeds; the rest of it runs no mutating command. -/
theorem Course.shape (hlaw : spec.Lawful action) {dryRun : Bool} {trace : List StorageEvent}
    {result : Except ClusterError α} (hcourse : spec.Course dryRun trace result) :
    ((∀ event ∈ trace, Still event) ∧ (dryRun = true ∨ result.toBool = false)) ∨
      dryRun = false ∧ ∃ past outcome later, trace = past ++ ran spec.command outcome :: later ∧
        (∀ event ∈ past, Still event) ∧ (∀ event ∈ later, Still event) ∧
        (result.toBool = true → outcome.success = true) := by
  have hopen : ∀ {prep ready}, spec.prepares prep ready →
      ∀ event ∈ recorded spec.opening .committed :: prep, Still event := fun hprep =>
    List.forall_mem_cons.mpr ⟨still_recorded _ _, fun event hevent =>
      (hlaw.prepares _ _ hprep event hevent).still⟩
  have hclose : ∀ {finish ended}, spec.finishes finish ended → ∀ closing written,
      ∀ event ∈ finish ++ [recorded closing written], Still event := fun hfinish closing written =>
    List.forall_mem_append.mpr ⟨fun event hevent =>
      (hlaw.finishes _ _ hfinish event hevent).still,
      List.forall_mem_singleton.mpr (still_recorded _ _)⟩
  cases hcourse with
  | unannounced _ hlost e =>
      exact Or.inl ⟨List.forall_mem_singleton.mpr (still_recorded _ _), Or.inr rfl⟩
  | dry => exact Or.inl ⟨List.forall_mem_singleton.mpr (still_recorded _ _), Or.inl rfl⟩
  | unprepared hprep e => exact Or.inl ⟨hopen hprep, Or.inr rfl⟩
  | failed hprep hfailed hreport e =>
      exact Or.inr ⟨rfl, _, _, _, rfl, hopen hprep, hreport.still, nofun⟩
  | unfinished hprep hsuccess hfinish e =>
      exact Or.inr ⟨rfl, _, _, _, rfl, hopen hprep, fun event hevent =>
        (hlaw.finishes _ _ hfinish event hevent).still, nofun⟩
  | unclosed hprep hsuccess hfinish hlost e | closed hprep hsuccess hfinish =>
      exact Or.inr ⟨rfl, _, _, _, rfl, hopen hprep, hclose hfinish _ _, fun _ => hsuccess⟩

end CallSpec

/-- An edit of the fstab runs no command. -/
theorem FstabManager.Edits.auxiliary {path : Str} {edit : Option Str → Option Str}
    {trace : List StorageEvent} {done : Bool} (hedits : Edits path edit trace done) :
    ∀ event ∈ trace, Auxiliary event.effect := by
  have hlook : ∀ {found look}, Looks path found look →
      ∀ event ∈ look, Auxiliary event.effect := by
    intro found look hlook
    cases hlook <;> simp [Auxiliary]
  cases hedits with
  | unreadable e => simp [Auxiliary]
  | untouched hlooks hedit => exact hlook hlooks
  | unwritten hlooks hedit e | written hlooks hedit =>
      intro event hevent
      rcases List.mem_append.mp hevent with hmem | hmem
      · exact hlook hlooks event hmem
      · rw [List.mem_singleton.mp hmem]
        trivial

theorem Formatter.lawful_format (config : StorageConfig) (device : BlockDevice)
    (role : NodeRole) (requestedBy : Str) :
    (formatSpec config device role requestedBy).Lawful .format where
  opening := ⟨rfl, rfl⟩
  command := rfl
  prepares prep ready hprep := by
    cases hprep <;> simp [Auxiliary, ran, daemonReload, HostProgram.mutation]
  failure outcome entry hentry := by
    cases outcome <;> cases hentry <;> exact ⟨rfl, rfl⟩
  finishes finish ended hfinish := by
    cases hfinish
    simp [Auxiliary, ran, blkid, HostProgram.mutation]
  closing finish value entry hfinish := by
    cases hfinish
    exact ⟨rfl, rfl⟩

theorem Mounter.lawful_mount (config : StorageConfig) (device : BlockDevice) (uuid : Str)
    (role : NodeRole) (requestedBy : Str) :
    (mountSpec config device uuid role requestedBy).Lawful .mount where
  opening := ⟨rfl, rfl⟩
  command := rfl
  prepares prep ready hprep := by cases hprep <;> simp [Auxiliary]
  failure outcome entry hentry := by
    cases outcome <;> cases hentry
    exact ⟨rfl, rfl⟩
  finishes finish ended hfinish := by
    cases hfinish with
    | unlisted hedit | listed hedit => exact hedit.auxiliary
  closing finish value entry hfinish := by
    cases hfinish
    exact ⟨rfl, rfl⟩

theorem Mounter.lawful_unmount (config : StorageConfig) (mountPoint requestedBy : Str) :
    (unmountSpec config mountPoint requestedBy).Lawful .unmount where
  opening := ⟨rfl, rfl⟩
  command := rfl
  prepares prep ready hprep := by
    rw [hprep.1]
    exact List.forall_mem_nil _
  failure outcome entry hentry := by cases hentry
  finishes finish ended hfinish := by
    cases hfinish with
    | edited hedit => exact hedit.auxiliary
  closing finish value entry hfinish := by
    cases hfinish
    exact ⟨rfl, rfl⟩

/-- An execution of the program with its outcome. -/
def runOf (program : HostProgram) : StorageEvent → Option (HostCommand × CommandOutcome)
  | ⟨.run command, outcome⟩ =>
      if command.program = program then some (command, outcome) else none
  | _ => none

def runsOf (program : HostProgram) (trace : List StorageEvent) :
    List (HostCommand × CommandOutcome) :=
  trace.filterMap (runOf program)

section Runs

variable {program : HostProgram} {trace : List StorageEvent}

@[simp] theorem runsOf_nil (program : HostProgram) : runsOf program [] = [] := rfl

theorem runsOf_append (program : HostProgram) (past later : List StorageEvent) :
    runsOf program (past ++ later) = runsOf program past ++ runsOf program later :=
  List.filterMap_append

theorem runsOf_ran (program : HostProgram) (command : HostCommand) (outcome : CommandOutcome)
    (later : List StorageEvent) :
    runsOf program (ran command outcome :: later) =
      if command.program = program then (command, outcome) :: runsOf program later
      else runsOf program later := by
  by_cases hprogram : command.program = program <;> simp [runsOf, runOf, ran, hprogram]

theorem runsOf_eq_nil_of_still (hmutates : program.mutation ≠ none)
    (hstill : ∀ event ∈ trace, Still event) : runsOf program trace = [] := by
  rw [runsOf, List.filterMap_eq_nil_iff]
  rintro ⟨effect, answer⟩ hevent
  cases effect with
  | run command =>
      have hother : command.program ≠ program := by
        rintro rfl
        exact hmutates (hstill _ hevent command rfl)
      exact if_neg hother
  | record | createDir | fileExists | readFile | writeFile | openAudit => rfl

variable {α : Type} {spec : CallSpec α} {action : AuditAction}
  {result : Except ClusterError α}

/-- Of the mutating programs a call runs its own command's only, at most once and not at
all in dry-run mode. -/
theorem CallSpec.Course.runsOf_cases (hlaw : spec.Lawful action) {dryRun : Bool}
    (hcourse : spec.Course dryRun trace result) (hmutates : program.mutation ≠ none) :
    runsOf program trace = [] ∨ dryRun = false ∧ spec.command.program = program ∧
      ∃ outcome, runsOf program trace = [(spec.command, outcome)] := by
  rcases hcourse.shape hlaw with ⟨hstill, -⟩ | ⟨hwet, past, outcome, later, rfl, hpast, hlater, -⟩
  · exact Or.inl (runsOf_eq_nil_of_still hmutates hstill)
  · rw [runsOf_append, runsOf_ran, runsOf_eq_nil_of_still hmutates hpast,
      runsOf_eq_nil_of_still hmutates hlater]
    by_cases hprogram : spec.command.program = program
    · exact Or.inr ⟨hwet, hprogram, outcome, if_pos hprogram⟩
    · exact Or.inl (if_neg hprogram)

/-- A call that succeeds outside dry-run mode has run its command once. -/
theorem CallSpec.Course.runsOf_command (hlaw : spec.Lawful action) {value : α}
    (hcourse : spec.Course false trace (.ok value)) :
    ∃ outcome, runsOf spec.command.program trace = [(spec.command, outcome)] ∧
      outcome.success = true := by
  have hmutates : spec.command.program.mutation ≠ none := by
    rw [hlaw.command]
    nofun
  rcases hcourse.shape hlaw with ⟨-, hdry | hfailed⟩ |
    ⟨-, past, outcome, later, rfl, hpast, hlater, hsuccess⟩
  · cases hdry
  · cases hfailed
  · refine ⟨outcome, ?_, hsuccess rfl⟩
    rw [runsOf_append, runsOf_ran, runsOf_eq_nil_of_still hmutates hpast,
      runsOf_eq_nil_of_still hmutates hlater, if_pos rfl]
    rfl

end Runs

/-- The calls that mutate the host. -/
inductive StorageCall where
  | formatDevice (device : BlockDevice) (role : NodeRole) (requestedBy : Str)
  | mountRoleStorage (device : BlockDevice) (uuid : Str) (role : NodeRole)
      (requestedBy : Str)
  | unmountPath (mountPoint requestedBy : Str)

def StorageCall.prog (config : StorageConfig) : StorageCall → StorageProg Unit
  | .formatDevice device role requestedBy => do
      let _ ← Formatter.formatDevice config device role requestedBy
  | .mountRoleStorage device uuid role requestedBy => do
      let _ ← Mounter.mountRoleStorage config device uuid role requestedBy
  | .unmountPath mountPoint requestedBy => Mounter.unmountPath config mountPoint requestedBy

/-- One call together with a run of its program. -/
structure CallRun where
  config : StorageConfig
  call : StorageCall
  trace : List StorageEvent
  result : Except ClusterError Unit
  runs : (call.prog config).Runs trace result

/-- The text files of the host after an effect; a failed write leaves the file
as it was. -/
def writtenFiles (files : Str → Option Str) (event : StorageEvent) : Str → Option Str :=
  match event with
  | ⟨.writeFile path content, answer⟩ =>
      match (answer : Except Str Unit) with
      | .ok _ => fun name => if name = path then some content else files name
      | .error _ => files
  | _ => files

def filesAfter (files : Str → Option Str) (trace : List StorageEvent) : Str → Option Str :=
  trace.foldl writtenFiles files

theorem CallRun.disciplined (run : CallRun) : Disciplined run.trace := by
  obtain ⟨config, call, trace, result, hruns⟩ := run
  cases call with
  | formatDevice device role requestedBy =>
      obtain ⟨first, hfirst, -⟩ := hruns.of_discard
      exact (Formatter.runs_formatDevice hfirst).disciplined (Formatter.lawful_format _ _ _ _)
  | mountRoleStorage device uuid role requestedBy =>
      obtain ⟨first, hfirst, -⟩ := hruns.of_discard
      exact (Mounter.runs_mountRoleStorage hfirst).disciplined (Mounter.lawful_mount _ _ _ _ _)
  | unmountPath mountPoint requestedBy =>
      exact (Mounter.runs_unmountPath hruns).disciplined (Mounter.lawful_unmount _ _ _)

/-- A write-ahead record that failed is the only one: nothing was announced. -/
theorem Disciplined.not_announced {trace : List StorageEvent} (htrace : Disciplined trace)
    {entry : AuditEntry} {outcome : AuditOutcome} (hmem : recorded entry outcome ∈ trace)
    (hphase : entry.phase = .preMutation) (hfailed : outcome ≠ .committed)
    (action : AuditAction) : ¬ Announced action trace := by
  have hfirst : ∀ {entry outcome}, recorded entry outcome ∈ trace →
      entry.phase = .preMutation → trace.head? = some (recorded entry outcome) := by
    intro entry outcome hmem hphase
    obtain ⟨past, later, hsplit⟩ := List.append_of_mem hmem
    have hnil := htrace past _ later hsplit
    simp only [recorded, Allowed, hphase] at hnil
    simp [hsplit, hnil, recorded]
  rintro ⟨other, hother, _, hopen⟩
  have heq : recorded entry outcome = recorded other .committed :=
    Option.some.inj ((hfirst hmem hphase).symm.trans (hfirst hother hopen))
  cases heq
  exact hfailed rfl

theorem filesAfter_eq_of_no_write {trace : List StorageEvent}
    (hnone : ∀ event ∈ trace, ∀ path content, event.effect ≠ .writeFile path content)
    (files : Str → Option Str) : filesAfter files trace = files := by
  unfold filesAfter
  refine trace.foldlRecOn (motive := fun current => current = files) writtenFiles rfl ?_
  rintro current hcurrent ⟨effect, answer⟩ hmem
  cases effect with
  | writeFile path content => exact absurd rfl (hnone _ hmem path content)
  | record | run | createDir | fileExists | readFile | openAudit => exact hcurrent

/-- Write-ahead and truthful audit, for any call after any earlier calls: a
mutating command follows a committed record of its action, a failed write-ahead
record leaves the host as it was, and a completion record follows a successful
command of its action. -/
theorem callRun_audited (files : Str → Option Str) (earlier : List CallRun) (run : CallRun) :
    (∀ past command outcome later action, run.trace = past ++ ran command outcome :: later →
      command.program.mutation = some action → Announced action past) ∧
    (∀ entry outcome, recorded entry outcome ∈ run.trace → entry.phase = .preMutation →
      outcome ≠ .committed →
      (∀ command outcome, ran command outcome ∈ run.trace →
        command.program.mutation = none) ∧
      filesAfter files ((earlier ++ [run]).flatMap CallRun.trace) =
        filesAfter files (earlier.flatMap CallRun.trace)) ∧
    (∀ past entry outcome later, run.trace = past ++ recorded entry outcome :: later →
      entry.phase = .postMutation → Succeeded entry.action past) := by
  have htrace := run.disciplined
  refine ⟨?_, ?_, ?_⟩
  · intro past command outcome later action hsplit hmutation
    exact htrace past _ later hsplit action hmutation
  · intro entry outcome hmem hphase hfailed
    have hnone := htrace.not_announced hmem hphase hfailed
    refine ⟨?_, ?_⟩
    · intro command outcome hran
      obtain ⟨past, later, hsplit⟩ := List.append_of_mem hran
      by_contra hmutation
      obtain ⟨action, haction⟩ := Option.ne_none_iff_exists'.mp hmutation
      refine hnone action ?_
      rw [hsplit]
      exact (htrace past _ later hsplit action haction).append _
    · rw [List.flatMap_append, filesAfter, List.foldl_append]
      refine filesAfter_eq_of_no_write ?_ _
      intro event hevent path content heffect
      obtain ⟨past, later, hsplit⟩ := List.append_of_mem (by simpa using hevent)
      have hallowed := htrace past event later hsplit
      rw [heffect] at hallowed
      obtain ⟨action, hannounced⟩ := hallowed
      refine hnone action ?_
      rw [hsplit]
      exact hannounced.append _
  · intro past entry outcome later hsplit hphase
    have hallowed := htrace past _ later hsplit
    simpa only [recorded, Allowed, hphase] using hallowed

namespace AuditWitness

/-- A host on which every effect succeeds and no fstab exists. -/
def compliant : List StorageEvent → (effect : StorageEffect) → StorageAnswer effect
  | _, .record _ => AuditOutcome.committed
  | _, .run _ => CommandOutcome.exited (some 0) [] []
  | _, .createDir _ => Except.ok ()
  | _, .fileExists _ => false
  | _, .readFile _ => Except.error []
  | _, .writeFile _ _ => Except.ok ()
  | _, .openAudit _ => Except.ok ()

def config : StorageConfig := ⟨false, "/var/log/audit.jsonl".toList, "/etc/fstab".toList⟩

def unmountCall : StorageCall :=
  .unmountPath SafetyGuard.gfsMountPoint "cluster-operator".toList

def unmountRun : CallRun where
  config := config
  call := unmountCall
  trace := (Prog.exec compliant [] (unmountCall.prog config)).1
  result := (Prog.exec compliant [] (unmountCall.prog config)).2
  runs := Prog.exec_runs compliant [] (unmountCall.prog config)

theorem unmount_announced :
    ∃ past later, unmountRun.trace = past ++
        ran ⟨.umount, [SafetyGuard.gfsMountPoint]⟩ (.exited (some 0) [] []) :: later ∧
      Announced .unmount past := by
  refine ⟨unmountRun.trace.take 1, unmountRun.trace.drop 2, rfl, ?_⟩
  exact (callRun_audited (fun _ => none) [] unmountRun).1 _
    ⟨.umount, [SafetyGuard.gfsMountPoint]⟩ (.exited (some 0) [] [])
    (unmountRun.trace.drop 2) .unmount rfl rfl

end AuditWitness

end PiCluster
