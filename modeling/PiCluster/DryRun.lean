/-
Dry runs.  In dry-run mode a request only opens the audit log and announces what
it would do, so nothing else on the host changes; and its answer is compared
with that of the real run of the same request.
-/
import PiCluster.AssignRole
import PiCluster.BootDisk
import PiCluster.MountState

namespace PiCluster

open Text Effects

/-- The audit log is opened or a write-ahead record is written. -/
def DryEvent : StorageEvent → Prop
  | ⟨.openAudit _, _⟩ => True
  | ⟨.record entry, _⟩ => entry.phase = .preMutation
  | _ => False

def AllDry (trace : List StorageEvent) : Prop := ∀ event ∈ trace, DryEvent event

section Programs

theorem AllDry.append {past later : List StorageEvent} (hpast : AllDry past)
    (hlater : AllDry later) : AllDry (past ++ later) :=
  List.forall_mem_append.mpr ⟨hpast, hlater⟩

variable {trace : List StorageEvent}

/-- The calls of the formatter and the mounter announce what they do and stop there
in dry-run mode. -/
theorem CallSpec.Course.allDry {α : Type} {spec : CallSpec α} {action : AuditAction}
    (hlaw : spec.Lawful action) {result : Except ClusterError α}
    (hcourse : spec.Course true trace result) : AllDry trace := by
  cases hcourse with
  | unannounced _ hlost e => exact List.forall_mem_singleton.mpr hlaw.opening.2
  | dry => exact List.forall_mem_singleton.mpr hlaw.opening.2

theorem OpensLog.allDry {path : Str} {opened : Bool} (hopens : OpensLog path trace opened) :
    AllDry trace := by
  cases hopens <;> simp [AllDry, DryEvent]

theorem PlanRun.allDry {config : StorageConfig} (hdry : config.dryRun = true)
    {requestedBy : Str} {plan : ProvisionPlan} {ended : Option (Str × Str)}
    (hplanRun : PlanRun config requestedBy plan trace ended) : AllDry trace := by
  cases hplanRun with
  | unopened hopens | skipped hopens hskip => exact hopens.allDry
  | unformatted hopens hproceed hformat =>
      rw [hdry] at hformat
      exact hopens.allDry.append (hformat.allDry (Formatter.lawful_format _ _ _ _))
  | unmounted hopens hproceed hformat hmount | mounted hopens hproceed hformat hmount =>
      rw [hdry] at hformat hmount
      exact hopens.allDry.append ((hformat.allDry (Formatter.lawful_format _ _ _ _)).append
        (hmount.allDry (Mounter.lawful_mount _ _ _ _ _)))

theorem allDry_runProvision {params : ProvisionParams} (hdry : params.storage.dryRun = true)
    {view : HostView} {result : Except ClusterError Unit}
    (hruns : (runProvision params view).Runs trace result) : AllDry trace := by
  rcases runs_runProvision hruns with ⟨rfl, -⟩ | ⟨plan, ended, -, hplanRun, -⟩
  · exact List.forall_mem_nil _
  · exact hplanRun.allDry hdry

variable {service : LdmIpcService}

theorem allDry_carryOut {req : AssignRoleRequest} (hdry : (service.storage req).dryRun = true)
    {plan : ProvisionPlan} {result : Except Status ProvisionResult}
    (hruns : (service.carryOut req plan).Runs trace result) : AllDry trace := by
  obtain ⟨ended, hplanRun, -⟩ := planRun_carryOut hruns
  exact hplanRun.allDry hdry

theorem allDry_assignRole {req : AssignRoleRequest}
    (hdry : (service.storage req).dryRun = true) {view : HostView}
    {result : Except Status ProvisionResult}
    (hruns : (service.assignRole req view).Runs trace result) : AllDry trace := by
  rcases hruns.bind_cases with ⟨status, hplan, rfl⟩ | ⟨past, plan, later, rfl, hplan, hlater⟩
  · obtain ⟨rfl, -⟩ := Prog.Runs.of_done hplan
    exact List.forall_mem_nil _
  · obtain ⟨rfl, -⟩ := Prog.Runs.of_done hplan
    exact allDry_carryOut hdry hlater

theorem allDry_prepareEvacuation (hdry : service.dryRun = true)
    {req : PrepareEvacuationRequest} {result : Except Status PrepareEvacuationResponse}
    (hruns : (service.prepareEvacuation req).Runs trace result) : AllDry trace := by
  rcases runs_prepareEvacuation hruns with ⟨e, rfl, -⟩ | ⟨later, ended, rfl, hunmount, -⟩
  · exact List.forall_mem_singleton.mpr trivial
  · rw [hdry] at hunmount
    exact List.forall_mem_cons.mpr
      ⟨trivial, hunmount.allDry (Mounter.lawful_unmount _ _ _)⟩

end Programs

/-- The host's log has grown by write-ahead records; all else is as before. -/
structure Machine.Grown {Disks : Type} (before after : Machine Disks) : Prop where
  locate : after.locate = before.locate
  entryPlace : after.entryPlace = before.entryPlace
  mounts : after.mounts = before.mounts
  files : after.files = before.files
  disks : after.disks = before.disks
  audit : ∃ entries, after.audit = before.audit ++ entries ∧
    ∀ entry ∈ entries, entry.phase = .preMutation

section Host

variable {Disks : Type} {rewrite : HostCommand → CommandOutcome → Disks → Disks}

theorem Machine.Grown.refl (machine : Machine Disks) : machine.Grown machine :=
  ⟨rfl, rfl, rfl, rfl, rfl, [], (List.append_nil _).symm, List.forall_mem_nil _⟩

theorem Machine.Grown.trans {first second third : Machine Disks} (hfirst : first.Grown second)
    (hsecond : second.Grown third) : first.Grown third := by
  obtain ⟨entries, hentries, hphase⟩ := hfirst.audit
  obtain ⟨more, hmore, hmorePhase⟩ := hsecond.audit
  refine ⟨hsecond.locate.trans hfirst.locate, hsecond.entryPlace.trans hfirst.entryPlace,
    hsecond.mounts.trans hfirst.mounts, hsecond.files.trans hfirst.files,
    hsecond.disks.trans hfirst.disks, entries ++ more, ?_, ?_⟩
  · rw [hmore, hentries, List.append_assoc]
  · intro entry hentry
    rcases List.mem_append.mp hentry with hold | hnew
    · exact hphase entry hold
    · exact hmorePhase entry hnew

theorem Machine.grown_after (machine : Machine Disks) {event : StorageEvent}
    (hevent : DryEvent event) : machine.Grown (machine.after rewrite event) := by
  obtain ⟨effect, answer⟩ := event
  cases effect with
  | openAudit path => exact .refl machine
  | record entry =>
      have hlogged : machine.Grown { machine with audit := machine.audit ++ [entry] } :=
        ⟨rfl, rfl, rfl, rfl, rfl, [entry], rfl, List.forall_mem_singleton.mpr hevent⟩
      cases answer with
      | committed | fsyncFailed => exact hlogged
      | ioFailed | serializationFailed => exact .refl machine
  | run | createDir | fileExists | readFile | writeFile => exact hevent.elim

theorem Machine.grown_run (machine : Machine Disks) {trace : List StorageEvent}
    (htrace : AllDry trace) : machine.Grown (machine.run rewrite trace) := by
  induction trace generalizing machine with
  | nil => exact .refl machine
  | cons event rest ih =>
      have hrest := ih (machine.after rewrite event)
        fun other hother => htrace other (List.mem_cons_of_mem event hother)
      exact (machine.grown_after (htrace event List.mem_cons_self)).trans hrest

end Host

/-- The entry points of the disk manager that change the host. -/
inductive DaemonCall where
  | provision (params : ProvisionParams) (view : HostView)
  | assignRole (service : LdmIpcService) (req : AssignRoleRequest) (view : HostView)
  | prepareEvacuation (service : LdmIpcService) (req : PrepareEvacuationRequest)

namespace DaemonCall

/-- The service-wide flag, or for `AssignRole` also that of the request. -/
def IsDry : DaemonCall → Prop
  | .provision params _ => params.storage.dryRun = true
  | .assignRole service req _ => req.dryRun = true ∨ service.dryRun = true
  | .prepareEvacuation service _ => service.dryRun = true

/-- The call can have these effects. -/
def Performs : DaemonCall → List StorageEvent → Prop
  | .provision params view, trace => ∃ result, (runProvision params view).Runs trace result
  | .assignRole service req view, trace =>
      ∃ result, (service.assignRole req view).Runs trace result
  | .prepareEvacuation service req, trace =>
      ∃ result, (service.prepareEvacuation req).Runs trace result

end DaemonCall

structure DaemonRun where
  call : DaemonCall
  trace : List StorageEvent
  performs : call.Performs trace

theorem DaemonRun.allDry (run : DaemonRun) (hdry : run.call.IsDry) : AllDry run.trace := by
  obtain ⟨call, trace, hperforms⟩ := run
  cases call with
  | provision params view =>
      obtain ⟨result, hruns⟩ := hperforms
      exact allDry_runProvision hdry hruns
  | assignRole service req view =>
      obtain ⟨result, hruns⟩ := hperforms
      have hflag : req.dryRun = true ∨ service.dryRun = true := hdry
      have hstorage : (service.storage req).dryRun = true := by
        simpa [LdmIpcService.storage] using hflag
      exact allDry_assignRole hstorage hruns
  | prepareEvacuation service req =>
      obtain ⟨result, hruns⟩ := hperforms
      exact allDry_prepareEvacuation hdry hruns

/-- Over any sequence of dry runs no command is executed, and the host differs
at most in write-ahead records appended to its audit log. -/
theorem dryRuns_leave_host {Disks : Type}
    (rewrite : HostCommand → CommandOutcome → Disks → Disks) (machine : Machine Disks)
    (runs : List DaemonRun) (hdry : ∀ run ∈ runs, run.call.IsDry) :
    (∀ command outcome, ran command outcome ∉ runs.flatMap DaemonRun.trace) ∧
      machine.Grown (machine.run rewrite (runs.flatMap DaemonRun.trace)) := by
  have hall : AllDry (runs.flatMap DaemonRun.trace) := by
    intro event hevent
    obtain ⟨run, hrun, hevent⟩ := List.mem_flatMap.mp hevent
    exact run.allDry (hdry run hrun) event hevent
  constructor
  · intro command outcome hmem
    exact hall _ hmem
  · exact machine.grown_run hall

/-- A command, a file write or an audit write that succeeds; reading is not
among them. -/
def succeeds : StorageEvent → Bool
  | ⟨.record _, outcome⟩ => !AuditOutcome.lost outcome
  | ⟨.run _, outcome⟩ => CommandOutcome.success outcome
  | ⟨.createDir _, answer⟩ => Except.toBool answer
  | ⟨.writeFile _ _, answer⟩ => Except.toBool answer
  | ⟨.openAudit _, answer⟩ => Except.toBool answer
  | _ => true

def readFailed : StorageEvent → Bool
  | ⟨.readFile _, answer⟩ => !Except.toBool answer
  | _ => false

/-- How a call may end where its steps succeed: an error means that a file could not be
read. -/
structure CallSpec.Readable {α : Type} (spec : CallSpec α) : Prop where
  prepares : ∀ prep ready, spec.prepares prep ready → prep.any readFailed = false ∧
    (ready = false → prep.all succeeds = false)
  finishes : ∀ finish ended, spec.finishes finish ended → finish.all succeeds = true →
    finish.any readFailed = ended.isNone

section Answers

variable {trace : List StorageEvent}

theorem succeeds_recorded_of_lost {entry : AuditEntry} {outcome : AuditOutcome}
    (hlost : outcome ≠ .committed) : succeeds (recorded entry outcome) = false := by
  change (!outcome.lost) = false
  rw [AuditOutcome.lost_of_ne hlost]
  rfl

theorem CallSpec.Course.reads {α : Type} {spec : CallSpec α} {dryRun : Bool}
    (hspec : dryRun = false → spec.Readable) {result : Except ClusterError α}
    (hcourse : spec.Course dryRun trace result) (hall : trace.all succeeds = true) :
    trace.any readFailed = !result.toBool := by
  cases hcourse with
  | unannounced _ hlost e => simp [succeeds_recorded_of_lost hlost] at hall
  | dry => rfl
  | unprepared hprep e => simp [((hspec rfl).prepares _ _ hprep).2 rfl] at hall
  | failed hprep hfailed hreport e => simp [ran, succeeds, hfailed] at hall
  | @unfinished prep finish outcome hprep hsuccess hfinish e =>
      have hunread := ((hspec rfl).prepares prep true hprep).1
      simp only [List.all_cons, List.all_append, Bool.and_eq_true] at hall
      rw [List.any_cons, List.any_append, List.any_cons, hunread,
        (hspec rfl).finishes finish none hfinish hall.2.2.2]
      rfl
  | unclosed hprep hsuccess hfinish hlost e =>
      simp [succeeds_recorded_of_lost hlost] at hall
  | @closed prep finish outcome value closing hprep hsuccess hfinish =>
      have hunread := ((hspec rfl).prepares prep true hprep).1
      simp only [List.all_cons, List.all_append, Bool.and_eq_true] at hall
      rw [List.any_cons, List.any_append, List.any_cons, List.any_append, hunread,
        (hspec rfl).finishes finish _ hfinish hall.2.2.2.1]
      rfl

theorem Formatter.readable_format (config : StorageConfig) (device : BlockDevice)
    {role : NodeRole} (hrole : (roleLabel role).isSome = true) (requestedBy : Str) :
    (formatSpec config device role requestedBy).Readable where
  prepares prep ready hprep := by
    cases hprep with
    | refused hnone => simp [hnone] at hrole
    | worker | noDir hetcd e | noFile hetcd e | dropin hetcd outcome =>
        exact ⟨rfl, by simp [succeeds, Except.toBool]⟩
  finishes finish ended hfinish _ := by
    cases hfinish
    rfl

/-- An edit of the fstab whose write succeeds fails only where the file cannot be read. -/
theorem FstabManager.Edits.any_readFailed {path : Str} {edit : Option Str → Option Str}
    {done : Bool} (hedits : Edits path edit trace done) (hall : trace.all succeeds = true) :
    trace.any readFailed = !done := by
  have hlook : ∀ {found look}, Looks path found look → look.any readFailed = false := by
    intro found look hlook
    cases hlook <;> rfl
  cases hedits with
  | unreadable e => rfl
  | untouched hlooks hedit => exact hlook hlooks
  | unwritten hlooks hedit e => simp [succeeds, Except.toBool] at hall
  | written hlooks hedit =>
      rw [List.any_append, hlook hlooks]
      rfl

theorem Mounter.readable_mount (config : StorageConfig) (device : BlockDevice) (uuid : Str)
    (role : NodeRole) (requestedBy : Str) :
    (mountSpec config device uuid role requestedBy).Readable where
  prepares prep ready hprep := by
    cases hprep <;> exact ⟨rfl, by simp [succeeds, Except.toBool]⟩
  finishes finish ended hfinish hall := by
    cases hfinish with
    | unlisted hedit | listed hedit => exact hedit.any_readFailed hall

theorem Mounter.eq_of_mounted {config : StorageConfig} {device : BlockDevice} {uuid : Str}
    {role : NodeRole} {requestedBy mountPoint : Str} {dryRun : Bool}
    (hcourse : (mountSpec config device uuid role requestedBy).Course dryRun trace
      (.ok mountPoint)) : mountPoint = (getMountConfig role).1 := by
  cases hcourse with
  | dry => rfl
  | closed hprep hsuccess hfinish =>
      cases hfinish
      rfl

theorem OpensLog.reads {path : Str} {opened : Bool} (hopens : OpensLog path trace opened)
    (hall : trace.all succeeds = true) : opened = true ∧ trace.any readFailed = false := by
  cases hopens with
  | refused e | refusedAgain e => simp [succeeds, Except.toBool] at hall
  | opened => exact ⟨rfl, rfl⟩

end Answers

/-- The mount point a plan's answer names. -/
def ProvisionPlan.mountPoint (plan : ProvisionPlan) : Str :=
  match plan.decision with
  | .proceedWithFormat => (Mounter.getMountConfig plan.role).1
  | .skipFormatAlreadyMatching _ targetMount => targetMount

/-- The answer names the disk and the mount point of the plan. -/
def ProvisionResult.Names (plan : ProvisionPlan) (result : ProvisionResult) : Prop :=
  result.formattedDevice = plan.target.devPath ∧ result.mountPoint = plan.mountPoint

section Plans

variable {config : StorageConfig} {requestedBy : Str} {plan : ProvisionPlan}
  {trace : List StorageEvent} {ended : Option (Str × Str)}

/-- A plan whose steps succeed is carried out unless a file cannot be read. -/
theorem PlanRun.reads
    (hrole : config.dryRun = false → (Formatter.roleLabel plan.role).isSome = true)
    (hplanRun : PlanRun config requestedBy plan trace ended)
    (hall : trace.all succeeds = true) : trace.any readFailed = ended.isNone := by
  have hformatted : config.dryRun = false →
      (Formatter.formatSpec config plan.target plan.role requestedBy).Readable := fun hwet =>
    Formatter.readable_format config plan.target (hrole hwet) requestedBy
  have hmounted : ∀ uuid, config.dryRun = false →
      (Mounter.mountSpec config plan.target uuid plan.role requestedBy).Readable :=
    fun uuid _ => Mounter.readable_mount config plan.target uuid plan.role requestedBy
  cases hplanRun with
  | unopened hopens => cases (hopens.reads hall).1
  | skipped hopens hskip => exact (hopens.reads hall).2
  | unformatted hopens hproceed hformat =>
      rw [List.all_append, Bool.and_eq_true] at hall
      rw [List.any_append, (hopens.reads hall.1).2, hformat.reads hformatted hall.2]
      rfl
  | unmounted hopens hproceed hformat hmount | mounted hopens hproceed hformat hmount =>
      rw [List.all_append, List.all_append, Bool.and_eq_true, Bool.and_eq_true] at hall
      rw [List.any_append, List.any_append, (hopens.reads hall.1).2,
        hformat.reads hformatted hall.2.1, hmount.reads (hmounted _) hall.2.2]
      rfl

theorem PlanRun.mountPoint_eq {uuid mountPoint : Str}
    (hplanRun : PlanRun config requestedBy plan trace (some (uuid, mountPoint))) :
    mountPoint = plan.mountPoint := by
  cases hplanRun with
  | skipped hopens hskip => rw [ProvisionPlan.mountPoint, hskip]
  | mounted hopens hproceed hformat hmount =>
      rw [ProvisionPlan.mountPoint, hproceed]
      exact Mounter.eq_of_mounted hmount

/-- Outside dry-run mode nothing is formatted for a role without storage. -/
theorem PlanRun.ended_of_unstorable (hwet : config.dryRun = false)
    (hrole : Formatter.roleLabel plan.role = none)
    (hproceed : plan.decision = .proceedWithFormat)
    (hplanRun : PlanRun config requestedBy plan trace ended) : ended = none := by
  cases hplanRun with
  | unopened hopens | unformatted hopens hproceed hformat
  | unmounted hopens hproceed hformat hmount => rfl
  | skipped hopens hskip =>
      rw [hproceed] at hskip
      cases hskip
  | mounted hopens _ hformat hmount =>
      rw [hwet] at hformat
      cases hformat with
      | closed hprep hsuccess hfinish =>
          exact absurd hprep (Formatter.not_prepares_of_unstorable hrole _)

end Plans

namespace LdmIpcService

variable {service : LdmIpcService} {req : AssignRoleRequest} {view : HostView}
  {plan : ProvisionPlan} {trace : List StorageEvent} {result : Except Status ProvisionResult}

theorem runs_carryOut (hplan : service.assignPlan req view = .ok plan)
    (hruns : (service.assignRole req view).Runs trace result) :
    (service.carryOut req plan).Runs trace result := by
  unfold assignRole at hruns
  rw [hplan] at hruns
  exact hruns

theorem runs_refused {status : Status} (hplan : service.assignPlan req view = .error status)
    (hruns : (service.assignRole req view).Runs trace result) : result = .error status := by
  unfold assignRole at hruns
  rw [hplan] at hruns
  cases hruns
  rfl

/-- What a plan was made from. -/
theorem assignPlan_eq_ok (hplan : service.assignPlan req view = .ok plan) :
    desiredRole req.desiredRole = .ok plan.role ∧
      ∃ mountTable allDevices, SafetyGuard.evaluateFormat plan.target plan.role
        req.reformatConfirmed mountTable allDevices = .ok plan.decision := by
  unfold assignPlan at hplan
  generalize view.mounts.toOption.getD .empty = mountTable at hplan
  cases hrole : desiredRole req.desiredRole with
  | error status => simp [hrole, bind, Except.bind] at hplan
  | ok role =>
      simp only [hrole, bind, Except.bind, pure, Except.pure] at hplan
      cases hresolve : DeviceDiscovery.resolveTargetDisk (targetId req) service.sysfsRoot
          view.sysfs view.byIdDir mountTable role with
      | error e => simp [hresolve, Except.mapError] at hplan
      | ok target =>
          simp only [hresolve, Except.mapError] at hplan
          cases hscan : BlockDevice.scanAll service.sysfsRoot view.sysfs view.byIdDir
              mountTable with
          | error e => simp [hscan] at hplan
          | ok allDevices =>
              simp only [hscan] at hplan
              cases hguard : SafetyGuard.evaluateFormat target role req.reformatConfirmed
                  mountTable allDevices with
              | error e => simp [hguard] at hplan
              | ok decision =>
                  simp only [hguard, Except.ok.injEq] at hplan
                  subst hplan
                  exact ⟨rfl, mountTable, allDevices, hguard⟩

/-- A decommissioned node has no layout that could already match. -/
theorem assignPlan_decommissioned (hplan : service.assignPlan req view = .ok plan)
    (hrole : req.desiredRole = .decommissioned) :
    plan.role = .decommissioned ∧ plan.decision = .proceedWithFormat := by
  obtain ⟨hdesired, mountTable, allDevices, hguard⟩ := assignPlan_eq_ok hplan
  rw [hrole] at hdesired
  have hplanRole : plan.role = .decommissioned := (Except.ok.inj hdesired).symm
  refine ⟨hplanRole, ?_⟩
  cases hdecision : plan.decision with
  | proceedWithFormat => rfl
  | skipFormatAlreadyMatching fs mount =>
      rw [hdecision, hplanRole, SafetyGuard.evaluateFormat_eq_skip_iff] at hguard
      cases hguard.2.1

theorem assignPlan_label (hplan : service.assignPlan req view = .ok plan)
    (hrole : req.desiredRole ≠ .decommissioned) :
    (Formatter.roleLabel plan.role).isSome = true := by
  have hdesired := (assignPlan_eq_ok hplan).1
  cases hproto : req.desiredRole with
  | unspecified | pending =>
      rw [hproto] at hdesired
      cases hdesired
  | decommissioned => exact absurd hproto hrole
  | seed | master | worker =>
      rw [hproto] at hdesired
      rw [← Except.ok.inj hdesired]
      rfl

/-- A run on which all commands and writes succeed answers for its plan unless a
file cannot be read. -/
theorem carryOut_answer
    (hrole : (service.storage req).dryRun = false →
      (Formatter.roleLabel plan.role).isSome = true)
    (hruns : (service.carryOut req plan).Runs trace result)
    (hall : trace.all succeeds = true) :
    (trace.any readFailed = false ∧ ∃ answer, result = .ok answer ∧ answer.Names plan) ∨
      (trace.any readFailed = true ∧ ∃ status, result = .error status) := by
  obtain ⟨ended, hplanRun, hanswers⟩ := planRun_carryOut hruns
  have hread := hplanRun.reads hrole hall
  cases ended with
  | none => exact Or.inr ⟨hread, hanswers⟩
  | some value =>
      obtain ⟨message, rfl⟩ := hanswers
      exact Or.inl ⟨hread, _, rfl, rfl, hplanRun.mountPoint_eq⟩

theorem not_readFailed_of_allDry (hdry : AllDry trace) : trace.any readFailed = false := by
  rw [List.any_eq_false]
  rintro ⟨effect, answer⟩ hevent
  cases effect with
  | readFile path => exact (hdry _ hevent).elim
  | record | run | createDir | fileExists | writeFile | openAudit => exact Bool.false_ne_true

/-- A dry run reads no file. -/
theorem dry_answer (hdry : (service.storage req).dryRun = true)
    (hruns : (service.carryOut req plan).Runs trace result)
    (hall : trace.all succeeds = true) : ∃ answer, result = .ok answer ∧ answer.Names plan := by
  have hwet : (service.storage req).dryRun = false →
      (Formatter.roleLabel plan.role).isSome = true := by
    simp [hdry]
  have hunread := not_readFailed_of_allDry (allDry_carryOut hdry hruns)
  rcases carryOut_answer hwet hruns hall with ⟨_, hanswer⟩ | ⟨hread, _⟩
  · exact hanswer
  · rw [hunread] at hread
    cases hread

theorem decommissioned_error (hwet : (service.storage req).dryRun = false)
    (hplan : service.assignPlan req view = .ok plan)
    (hrole : req.desiredRole = .decommissioned)
    (hruns : (service.carryOut req plan).Runs trace result) :
    ∃ status, result = .error status := by
  obtain ⟨hplanRole, hproceed⟩ := assignPlan_decommissioned hplan hrole
  obtain ⟨ended, hplanRun, hanswers⟩ := planRun_carryOut hruns
  obtain rfl := hplanRun.ended_of_unstorable hwet (by rw [hplanRole]; rfl) hproceed
  exact hanswers

/-- Both answers are `Ok` or neither is, and then they name the same device and
the same mount point. -/
def Agree (dry wet : Except Status ProvisionResult) : Prop :=
  ((∃ answer, dry = .ok answer) ↔ ∃ answer, wet = .ok answer) ∧
    ∀ dryAnswer wetAnswer, dry = .ok dryAnswer → wet = .ok wetAnswer →
      dryAnswer.formattedDevice = wetAnswer.formattedDevice ∧
        dryAnswer.mountPoint = wetAnswer.mountPoint

theorem agree_of_names {dryAnswer wetAnswer : ProvisionResult} (hdry : dryAnswer.Names plan)
    (hwet : wetAnswer.Names plan) : Agree (.ok dryAnswer) (.ok wetAnswer) := by
  refine ⟨⟨fun _ => ⟨wetAnswer, rfl⟩, fun _ => ⟨dryAnswer, rfl⟩⟩, ?_⟩
  intro dry wet hdryEq hwetEq
  rw [← Except.ok.inj hdryEq, ← Except.ok.inj hwetEq]
  exact ⟨hdry.1.trans hwet.1.symm, hdry.2.trans hwet.2.symm⟩

theorem not_agree_of_error {answer : ProvisionResult} {status : Status} :
    ¬ Agree (.ok answer) (.error status) := by
  intro hagree
  obtain ⟨other, hother⟩ := hagree.1.mp ⟨answer, rfl⟩
  cases hother

/-- A dry run predicts the real run exactly when the service itself only ever
runs dry, the checks refuse the request, or the role is not `Decommissioned` and
the real run can read the fstab. -/
theorem assignRole_dryRun_agrees_iff (service : LdmIpcService) (req : AssignRoleRequest)
    (view : HostView) {dryTrace wetTrace : List StorageEvent}
    {dry wet : Except Status ProvisionResult}
    (hdryRuns : (service.assignRole { req with dryRun := true } view).Runs dryTrace dry)
    (hwetRuns : (service.assignRole { req with dryRun := false } view).Runs wetTrace wet)
    (hdryAll : dryTrace.all succeeds = true) (hwetAll : wetTrace.all succeeds = true) :
    Agree dry wet ↔
      service.dryRun = true ∨ (∃ status, service.assignPlan req view = .error status) ∨
        (req.desiredRole ≠ .decommissioned ∧ wetTrace.any readFailed = false) := by
  -- the checks do not look at the flag
  have hdryPlan : service.assignPlan { req with dryRun := true } view =
      service.assignPlan req view := rfl
  have hwetPlan : service.assignPlan { req with dryRun := false } view =
      service.assignPlan req view := rfl
  cases hplan : service.assignPlan req view with
  | error status =>
      obtain rfl := runs_refused (hdryPlan.trans hplan) hdryRuns
      obtain rfl := runs_refused (hwetPlan.trans hplan) hwetRuns
      exact iff_of_true ⟨Iff.rfl, nofun⟩ (Or.inr (Or.inl ⟨status, rfl⟩))
  | ok plan =>
      have hcarried := runs_carryOut (hwetPlan.trans hplan) hwetRuns
      obtain ⟨dryAnswer, rfl, hdryNames⟩ :=
        dry_answer rfl (runs_carryOut (hdryPlan.trans hplan) hdryRuns) hdryAll
      cases hservice : service.dryRun with
      | true =>
          have hstorage : (service.storage { req with dryRun := false }).dryRun = true :=
            hservice
          obtain ⟨wetAnswer, rfl, hwetNames⟩ := dry_answer hstorage hcarried hwetAll
          exact iff_of_true (agree_of_names hdryNames hwetNames) (Or.inl rfl)
      | false =>
          have hstorage : (service.storage { req with dryRun := false }).dryRun = false :=
            hservice
          simp only [Bool.false_eq_true, reduceCtorEq, exists_false, false_or]
          by_cases hrole : req.desiredRole = .decommissioned
          · obtain ⟨status, rfl⟩ :=
              decommissioned_error hstorage (hwetPlan.trans hplan) hrole hcarried
            exact iff_of_false not_agree_of_error fun hcond => hcond.1 hrole
          · rcases carryOut_answer (fun _ => assignPlan_label hplan hrole) hcarried hwetAll with
              ⟨hread, wetAnswer, rfl, hwetNames⟩ | ⟨hread, status, rfl⟩
            · exact iff_of_true (agree_of_names hdryNames hwetNames) ⟨hrole, hread⟩
            · refine iff_of_false not_agree_of_error fun hcond => ?_
              rw [hread] at hcond
              cases hcond.2

end LdmIpcService

namespace DryRunWitness

open BootDiskWitness

def service (dryRun : Bool) : LdmIpcService :=
  ⟨"/var/log/audit.jsonl".toList, "/etc/fstab".toList, "/sys/class/block".toList, dryRun⟩

/-- A blank data disk besides the card the system runs from. -/
def view : HostView :=
  ⟨.entries [diskBlock], byIdDir, .ok (rootOn "/dev/mmcblk0p2".toList)⟩

def request (role : NodeRoleProto) (dryRun : Bool) : AssignRoleRequest :=
  ⟨role, [], false, dryRun⟩

/-- The request on a host on which every effect succeeds. -/
def execution (role : NodeRoleProto) (dryRun : Bool) :
    List StorageEvent × Except Status ProvisionResult :=
  Prog.exec AuditWitness.compliant []
    ((service false).assignRole (request role dryRun) view)

theorem execution_runs (role : NodeRoleProto) (dryRun : Bool) :
    ((service false).assignRole (request role dryRun) view).Runs
      (execution role dryRun).1 (execution role dryRun).2 :=
  Prog.exec_runs AuditWitness.compliant [] _

def evacuation : DaemonRun where
  call := .prepareEvacuation (service true) ⟨[]⟩
  trace := (Prog.exec AuditWitness.compliant []
    ((service true).prepareEvacuation ⟨[]⟩)).1
  performs := ⟨_, Prog.exec_runs AuditWitness.compliant [] _⟩

def dryAssignment : DaemonRun where
  call := .assignRole (service false) (request .worker true) view
  trace := (execution .worker true).1
  performs := ⟨_, execution_runs .worker true⟩

theorem dry_requests_only_log :
    MountWitness.inUse.Grown (MountWitness.inUse.run MountWitness.keep
      ([dryAssignment, evacuation].flatMap DaemonRun.trace)) := by
  refine (dryRuns_leave_host MountWitness.keep MountWitness.inUse
    [dryAssignment, evacuation] ?_).2
  intro run hrun
  rcases List.mem_cons.mp hrun with rfl | hrun
  · exact Or.inl rfl
  · rw [List.mem_singleton.mp hrun]
    rfl

theorem worker_agrees :
    LdmIpcService.Agree (execution .worker true).2 (execution .worker false).2 :=
  (LdmIpcService.assignRole_dryRun_agrees_iff (service false) (request .worker false) view
    (execution_runs .worker true) (execution_runs .worker false) rfl rfl).mpr
    (Or.inr (Or.inr ⟨nofun, rfl⟩))

/-- The dry run promises a format that the real run refuses. -/
theorem decommissioned_disagrees :
    (execution .decommissioned true).1.all succeeds = true ∧
      (execution .decommissioned false).1.all succeeds = true ∧
      ¬ LdmIpcService.Agree (execution .decommissioned true).2
        (execution .decommissioned false).2 :=
  ⟨rfl, rfl, LdmIpcService.not_agree_of_error⟩

end DryRunWitness

end PiCluster
