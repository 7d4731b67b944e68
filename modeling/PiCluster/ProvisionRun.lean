/-
How a plan for a disk is carried out, at boot and on request, and which of these runs
execute `mkfs.ext4`: a successful one that decided to format does so once, on the chosen
disk and with the role's label, and one that decided otherwise or runs dry does not.
-/
import PiCluster.AuditTrail
import PiCluster.Provision

namespace PiCluster

open Text Effects SafetyGuard

/-- `Formatter::new` and `Mounter::new` each open the audit log. -/
inductive OpensLog (path : Str) : List StorageEvent → Bool → Prop
  | refused (e : Str) : OpensLog path [⟨.openAudit path, Except.error e⟩] false
  | refusedAgain (e : Str) : OpensLog path
      [⟨.openAudit path, Except.ok ()⟩, ⟨.openAudit path, Except.error e⟩] false
  | opened : OpensLog path
      [⟨.openAudit path, Except.ok ()⟩, ⟨.openAudit path, Except.ok ()⟩] true

/-- The ways a plan can be carried out, and the UUID and mount point they end with. -/
inductive PlanRun (config : StorageConfig) (requestedBy : Str) (plan : ProvisionPlan) :
    List StorageEvent → Option (Str × Str) → Prop
  | unopened {opens : List StorageEvent} (hopens : OpensLog config.auditLog opens false) :
      PlanRun config requestedBy plan opens none
  | skipped {opens : List StorageEvent} {fsType targetMount : Str}
      (hopens : OpensLog config.auditLog opens true)
      (hskip : plan.decision = .skipFormatAlreadyMatching fsType targetMount) :
      PlanRun config requestedBy plan opens (some (plan.target.uuid.getD [], targetMount))
  | unformatted {opens format : List StorageEvent} {e : ClusterError}
      (hopens : OpensLog config.auditLog opens true)
      (hproceed : plan.decision = .proceedWithFormat)
      (hformat : (Formatter.formatSpec config plan.target plan.role requestedBy).Course
        config.dryRun format (.error e)) :
      PlanRun config requestedBy plan (opens ++ format) none
  | unmounted {opens format mount : List StorageEvent} {uuid : Str} {e : ClusterError}
      (hopens : OpensLog config.auditLog opens true)
      (hproceed : plan.decision = .proceedWithFormat)
      (hformat : (Formatter.formatSpec config plan.target plan.role requestedBy).Course
        config.dryRun format (.ok uuid))
      (hmount : (Mounter.mountSpec config plan.target uuid plan.role requestedBy).Course
        config.dryRun mount (.error e)) :
      PlanRun config requestedBy plan (opens ++ (format ++ mount)) none
  | mounted {opens format mount : List StorageEvent} {uuid mountPoint : Str}
      (hopens : OpensLog config.auditLog opens true)
      (hproceed : plan.decision = .proceedWithFormat)
      (hformat : (Formatter.formatSpec config plan.target plan.role requestedBy).Course
        config.dryRun format (.ok uuid))
      (hmount : (Mounter.mountSpec config plan.target uuid plan.role requestedBy).Course
        config.dryRun mount (.ok mountPoint)) :
      PlanRun config requestedBy plan (opens ++ (format ++ mount)) (some (uuid, mountPoint))

section Programs

variable {ε α : Type} {trace : List StorageEvent}

/-- Opening the log twice before anything else. -/
theorem runs_openTwice {path : Str} {openLog : Prog StorageEffect StorageAnswer ε Unit}
    (hopen : ∀ trace result, openLog.Runs trace result → ∃ answer : Except Str Unit,
      trace = [⟨.openAudit path, answer⟩] ∧ result.toBool = answer.toBool)
    {next : Prog StorageEffect StorageAnswer ε α} {result : Except ε α}
    (hruns : (openLog >>= fun _ => openLog >>= fun _ => next).Runs trace result) :
    (OpensLog path trace false ∧ result.toBool = false) ∨
      ∃ opens later, trace = opens ++ later ∧ OpensLog path opens true ∧
        next.Runs later result := by
  rcases hruns.bind_cases with ⟨e, hfirst, rfl⟩ | ⟨past, _, rest, rfl, hfirst, hrest⟩
  · obtain ⟨answer, rfl, hanswer⟩ := hopen _ _ hfirst
    cases answer with
    | ok value => cases hanswer
    | error e => exact Or.inl ⟨.refused e, rfl⟩
  · obtain ⟨answer, rfl, hanswer⟩ := hopen _ _ hfirst
    cases answer with
    | error e => cases hanswer
    | ok value =>
        rcases hrest.bind_cases with ⟨e, hsecond, rfl⟩ | ⟨past, _, later, rfl, hsecond, hlater⟩
        · obtain ⟨answer, rfl, hanswer⟩ := hopen _ _ hsecond
          cases answer with
          | ok value => cases hanswer
          | error e => exact Or.inl ⟨.refusedAgain e, rfl⟩
        · obtain ⟨answer, rfl, hanswer⟩ := hopen _ _ hsecond
          cases answer with
          | error e => cases hanswer
          | ok value => exact Or.inr ⟨_, later, rfl, .opened, hlater⟩

theorem runs_runProvision {params : ProvisionParams} {view : HostView}
    {result : Except ClusterError Unit} (hruns : (runProvision params view).Runs trace result) :
    (trace = [] ∧ ∀ plan, provisionPlan params view ≠ .ok (some plan)) ∨
      ∃ plan ended, provisionPlan params view = .ok (some plan) ∧
        PlanRun params.storage provisionRequester plan trace ended ∧
        result.toBool = ended.isSome := by
  unfold runProvision at hruns
  cases hplan : provisionPlan params view with
  | error e =>
      rw [hplan] at hruns
      obtain ⟨rfl, -⟩ := Prog.Runs.of_done hruns
      exact Or.inl ⟨rfl, fun plan hsome => by cases hsome⟩
  | ok planned =>
      rw [hplan] at hruns
      cases planned with
      | none =>
          obtain ⟨rfl, -⟩ := Prog.Runs.of_done hruns
          exact Or.inl ⟨rfl, fun plan hsome => by cases hsome⟩
      | some plan =>
          refine Or.inr ⟨plan, ?_⟩
          rcases runs_openTwice (fun _ _ => runs_auditNew) hruns with ⟨hopens, hresult⟩ |
            ⟨opens, later, rfl, hopens, hlater⟩
          · exact ⟨none, rfl, .unopened hopens, hresult⟩
          · cases hdecision : plan.decision with
            | skipFormatAlreadyMatching fs mount =>
                rw [hdecision] at hlater
                obtain ⟨rfl, rfl⟩ := Prog.Runs.of_done hlater
                rw [List.append_nil]
                exact ⟨_, rfl, .skipped hopens hdecision, rfl⟩
            | proceedWithFormat =>
                rw [hdecision] at hlater
                rcases hlater.bind_cases with ⟨e, hformat, rfl⟩ |
                  ⟨format, uuid, rest, rfl, hformat, hrest⟩
                · exact ⟨none, rfl, .unformatted hopens hdecision
                    (Formatter.runs_formatDevice hformat), rfl⟩
                · obtain ⟨ended, hmount, rfl⟩ := hrest.of_discard
                  cases ended with
                  | error e =>
                      exact ⟨none, rfl, .unmounted hopens hdecision
                        (Formatter.runs_formatDevice hformat)
                        (Mounter.runs_mountRoleStorage hmount), rfl⟩
                  | ok mountPoint =>
                      exact ⟨_, rfl, .mounted hopens hdecision
                        (Formatter.runs_formatDevice hformat)
                        (Mounter.runs_mountRoleStorage hmount), rfl⟩

end Programs

/-- The value of the `-L` option. -/
def labelArg : List Str → Option Str
  | [] => none
  | flag :: rest => if flag = "-L".toList then rest.head? else labelArg rest

/-- The trace runs `mkfs.ext4` once, on the device, with the role's label. -/
def Formats (device : BlockDevice) (role : NodeRole) (trace : List StorageEvent) : Prop :=
  ∃ command outcome, runsOf .mkfsExt4 trace = [(command, outcome)] ∧ outcome.success = true ∧
    command.args.getLast? = some device.devPath ∧
    labelArg command.args = Formatter.roleLabel role

theorem OpensLog.runsOf_eq_nil {path : Str} {opens : List StorageEvent} {opened : Bool}
    (hopens : OpensLog path opens opened) (program : HostProgram) :
    runsOf program opens = [] := by
  cases hopens <;> rfl

section Commands

variable {config : StorageConfig} {device : BlockDevice} {role : NodeRole} {requestedBy : Str}
  {trace : List StorageEvent} {dryRun : Bool} {result : Except ClusterError Str}

theorem Formatter.labelArg_mkfs (devPath : Str) :
    labelArg (["-F".toList] ++ mkfsOptions role ++ [devPath]) = roleLabel role := by
  cases role with
  | master | seed | worker => rfl
  | pending | decommissioned =>
      simp [labelArg, mkfsOptions, roleLabel]

theorem mkfs_mutates : HostProgram.mkfsExt4.mutation ≠ none := nofun

/-- The formatter runs `mkfs.ext4` on its device, at most once. -/
theorem Formatter.runsOf_mkfs
    (hcourse : (formatSpec config device role requestedBy).Course dryRun trace result) :
    runsOf .mkfsExt4 trace = [] ∨ dryRun = false ∧ ∃ command outcome,
      runsOf .mkfsExt4 trace = [(command, outcome)] ∧
        command.args.getLast? = some device.devPath := by
  rcases hcourse.runsOf_cases (lawful_format _ _ _ _) mkfs_mutates with
    hnone | ⟨hwet, -, outcome, hruns⟩
  · exact Or.inl hnone
  · exact Or.inr ⟨hwet, _, outcome, hruns, List.getLast?_concat⟩

/-- A successful format outside dry-run mode ran `mkfs.ext4` once. -/
theorem Formatter.formats {uuid : Str}
    (hcourse : (formatSpec config device role requestedBy).Course false trace (.ok uuid)) :
    Formats device role trace := by
  obtain ⟨outcome, hruns, hsuccess⟩ := hcourse.runsOf_command (lawful_format _ _ _ _)
  exact ⟨_, outcome, hruns, hsuccess, List.getLast?_concat, labelArg_mkfs device.devPath⟩

/-- Mounting runs no `mkfs.ext4`. -/
theorem Mounter.runsOf_mkfs {uuid : Str}
    (hcourse : (mountSpec config device uuid role requestedBy).Course dryRun trace result) :
    runsOf .mkfsExt4 trace = [] := by
  rcases hcourse.runsOf_cases (lawful_mount _ _ _ _ _) mkfs_mutates with
    hnone | ⟨-, hmount, -⟩
  · exact hnone
  · cases hmount

end Commands

namespace PlanRun

variable {config : StorageConfig} {requestedBy : Str} {plan : ProvisionPlan}
  {trace : List StorageEvent} {ended : Option (Str × Str)}

/-- What is formatted is the target of a plan to format it, outside dry-run mode. -/
theorem of_mem_runsOf (hplanRun : PlanRun config requestedBy plan trace ended)
    {run : HostCommand × CommandOutcome} (hrun : run ∈ runsOf .mkfsExt4 trace) :
    plan.decision = .proceedWithFormat ∧ config.dryRun = false ∧
      run.1.args.getLast? = some plan.target.devPath := by
  have hformatted : ∀ {format result},
      (Formatter.formatSpec config plan.target plan.role requestedBy).Course config.dryRun format
        result → run ∈ runsOf .mkfsExt4 format →
      config.dryRun = false ∧ run.1.args.getLast? = some plan.target.devPath := by
    intro format result hformat hmem
    rcases Formatter.runsOf_mkfs hformat with hnone | ⟨hwet, command, outcome, hruns, hlast⟩
    · rw [hnone] at hmem
      cases hmem
    · rw [hruns, List.mem_singleton] at hmem
      rw [hmem]
      exact ⟨hwet, hlast⟩
  cases hplanRun with
  | unopened hopens | skipped hopens hskip =>
      rw [hopens.runsOf_eq_nil] at hrun
      cases hrun
  | unformatted hopens hproceed hformat =>
      rw [runsOf_append, hopens.runsOf_eq_nil, List.nil_append] at hrun
      exact ⟨hproceed, hformatted hformat hrun⟩
  | unmounted hopens hproceed hformat hmount | mounted hopens hproceed hformat hmount =>
      rw [runsOf_append, runsOf_append, hopens.runsOf_eq_nil, Mounter.runsOf_mkfs hmount,
        List.nil_append, List.append_nil] at hrun
      exact ⟨hproceed, hformatted hformat hrun⟩

/-- A plan to format that was carried out outside dry-run mode. -/
theorem formats {value : Str × Str}
    (hplanRun : PlanRun config requestedBy plan trace (some value))
    (hwet : config.dryRun = false) (hdecision : plan.decision = .proceedWithFormat) :
    Formats plan.target plan.role trace := by
  cases hplanRun with
  | skipped hopens hskip =>
      rw [hdecision] at hskip
      cases hskip
  | mounted hopens hproceed hformat hmount =>
      rw [hwet] at hformat
      obtain ⟨command, outcome, hruns, hformats⟩ := Formatter.formats hformat
      refine ⟨command, outcome, ?_, hformats⟩
      rw [runsOf_append, runsOf_append, hopens.runsOf_eq_nil, Mounter.runsOf_mkfs hmount, hruns]
      rfl

end PlanRun

section Provision

variable {params : ProvisionParams} {view : HostView} {plan : ProvisionPlan}
  {trace : List StorageEvent}

theorem runProvision_formats (hplan : provisionPlan params view = .ok (some plan))
    (hdecision : plan.decision = .proceedWithFormat) (hwet : params.storage.dryRun = false)
    (hruns : (runProvision params view).Runs trace (.ok ())) :
    Formats plan.target plan.role trace := by
  rcases runs_runProvision hruns with ⟨-, hnone⟩ | ⟨planned, ended, hsame, hplanRun, hended⟩
  · exact absurd hplan (hnone plan)
  · obtain rfl : planned = plan := by
      rw [hplan] at hsame
      exact (Option.some.inj (Except.ok.inj hsame)).symm
    obtain ⟨value, rfl⟩ := Option.isSome_iff_exists.mp hended.symm
    exact hplanRun.formats hwet hdecision

/-- Whatever provisioning formats is the target of its plan. -/
theorem runProvision_formats_target {result : Except ClusterError Unit}
    (hruns : (runProvision params view).Runs trace result)
    {run : HostCommand × CommandOutcome} (hrun : run ∈ runsOf .mkfsExt4 trace) :
    ∃ plan, provisionPlan params view = .ok (some plan) ∧
      plan.decision = .proceedWithFormat ∧
      run.1.args.getLast? = some plan.target.devPath := by
  rcases runs_runProvision hruns with ⟨rfl, -⟩ | ⟨plan, ended, hplan, hplanRun, -⟩
  · cases hrun
  · obtain ⟨hproceed, -, hlast⟩ := hplanRun.of_mem_runsOf hrun
    exact ⟨plan, hplan, hproceed, hlast⟩

/-- A provision that does not decide to format runs no `mkfs.ext4`. -/
theorem runProvision_quiet
    (hplan : ∀ plan, provisionPlan params view = .ok (some plan) →
      plan.decision ≠ .proceedWithFormat)
    {result : Except ClusterError Unit} (hruns : (runProvision params view).Runs trace result) :
    runsOf .mkfsExt4 trace = [] := by
  rw [List.eq_nil_iff_forall_not_mem]
  intro run hrun
  obtain ⟨plan, hok, hproceed, -⟩ := runProvision_formats_target hruns hrun
  exact hplan plan hok hproceed

end Provision

end PiCluster
