/-
From a registered node to the disk of its board.  The engine keeps a node's record,
the HTTP server looks a board up among the records and sends it a role file, and the
board's disk manager provisions with that file.  The confirmation that lets it format
a disk in use travels this way and is not made up on it.
-/
import PiCluster.AssignRole
import PiCluster.CloudInit
import PiCluster.NodeLookup
import PiCluster.PromotionRun
import PiCluster.ProvisionLifetime

namespace PiCluster

open Text Wire Effects SafetyGuard

namespace PromotionEngine

theorem Drained.append {calls : List GfsCall} (hdrained : Drained calls)
    (later : List GfsCall) : Drained (calls ++ later) := by
  obtain ⟨handle, hcall⟩ := hdrained
  exact ⟨handle, List.mem_append_left later hcall⟩

/-- The confirmation in a node's record was there from the start, or a drain has
completed. -/
theorem confirmed_or_drained {node : PiNode} (hfresh : promotionOf node = none)
    (inputs : List StepInput) :
    (runFrom node inputs).node.spec.reformatConfirmed = node.spec.reformatConfirmed ∨
      Drained (runFrom node inputs).calls := by
  induction inputs using List.reverseRecOn with
  | nil => exact Or.inl rfl
  | append_singleton inputs input ih =>
      rw [runFrom_snoc]
      by_cases hstep : currentStep (runFrom node inputs).node = .reformattingDisk
      · have hstage := (drainInv_runFrom hfresh inputs).stage
        simp only [StageOk, hstep] at hstage
        exact Or.inr (hstage.append _)
      · rw [spec_next_eq hstep]
        exact ih.imp_right fun hdrained => hdrained.append _

end PromotionEngine

/-- A host name of one line leaves the role file alone. -/
theorem CloudInitGenerator.embeddedRole_generateUserData (json : Format JsonObject)
    {node : PiNode} (hhost : '\n' ∉ hostname node.spec) (vip k3sToken : Str) :
    embeddedRole json (generateUserData json node vip k3sToken) =
      some ⟨node.spec.desiredRole, node.spec.targetDiskId,
        some node.spec.reformatConfirmed⟩ := by
  rw [embeddedRole, generateUserData,
    firstContent_templateLines (json.print_plain (roleJson node.spec)) hhost]
  simp [json.decode_print, ofJson_roleJson]

/-- A node as it was registered, and what its promotion has gone through since. -/
structure RegisteredNode where
  name : Option Str
  start : PiNode
  steps : List PromotionEngine.StepInput
  fresh : PromotionEngine.promotionOf start = none

namespace RegisteredNode

def run (node : RegisteredNode) : PromotionEngine.Run :=
  PromotionEngine.runFrom node.start node.steps

/-- The object as it is listed now. -/
def object (node : RegisteredNode) : NodeObject := ⟨node.name, node.run.node⟩

end RegisteredNode

namespace Http

structure Response where
  status : Nat
  contentType : Str
  body : Str
deriving DecidableEq, Repr

/-- The answer to `/cloud-init/user-data`. -/
def userdataHandler (json : Format JsonObject) (registered : Option (List NodeObject))
    (vip k3sToken peerIp : Str) (query : NodeQuery) : Response where
  status := 200
  contentType := "text/yaml".toList
  body := CloudInitGenerator.generateUserData json (resolveNode registered peerIp query).node vip
    k3sToken

/-- The node an answer is made for is a listed one or the unregistered board. -/
theorem resolveNode_cases (registered : Option (List NodeObject)) (peerIp : Str)
    (query : NodeQuery) :
    (∃ nodes, registered = some nodes ∧ resolveNode registered peerIp query ∈ nodes) ∨
      resolveNode registered peerIp query = fallbackNode peerIp query := by
  unfold resolveNode
  split
  · rename_i object hfound
    obtain ⟨nodes, hnodes, hfind⟩ := Option.bind_eq_some_iff.mp hfound
    exact Or.inl ⟨nodes, hnodes, List.mem_of_find?_eq_some hfind⟩
  · exact Or.inr rfl

end Http

/-- `cluster-ldm provision` as the installed unit starts it: the role file and the
defaults of the command line. -/
def unitParams (file : RoleConfigFile) : ProvisionParams where
  roleSource := .config file
  targetDiskOverride := none
  cliReformatConfirmed := false
  sysfsRoot := "/sys/class/block".toList
  storage :=
    { dryRun := false
      auditLog := "/var/log/cluster-ldm-audit.jsonl".toList
      fstabPath := "/etc/fstab".toList }

/-- The installed unit formats a scanned disk, and one with a file system only if its role
file confirms it. -/
theorem runProvision_formats_scanned {file : RoleConfigFile} {view : HostView}
    {trace : List StorageEvent} {result : Except ClusterError Unit}
    (hruns : (runProvision (unitParams file) view).Runs trace result)
    {run : HostCommand × CommandOutcome} (hrun : run ∈ runsOf .mkfsExt4 trace) :
    ∃ target allDevices,
      BlockDevice.scanAll "/sys/class/block".toList view.sysfs view.byIdDir
        (view.mounts.toOption.getD .empty) = .ok allDevices ∧
      target ∈ allDevices ∧ run.1.args.getLast? = some target.devPath ∧
      (hasExistingFs target = true → file.reformatConfirmed.getD false = true) := by
  obtain ⟨plan, hplan, hdecision, htarget⟩ := runProvision_formats_target hruns hrun
  obtain ⟨read, allDevices, hread, -, -, -, hresolve, hscan, hguard⟩ :=
    provisionPlan_eq_some hplan
  obtain rfl : file = read := Except.ok.inj hread
  obtain ⟨scanned, hscanned, hmem, -, -⟩ := DeviceDiscovery.resolveTargetDisk_eq_ok hresolve
  obtain rfl : scanned = allDevices := Except.ok.inj (hscanned.symm.trans hscan)
  rw [hdecision, evaluateFormat_eq_proceed_iff] at hguard
  exact ⟨plan.target, scanned, hscan, (List.mem_filter.mp hmem).1, htarget, hguard.2.2⟩

/-- A board formats one of its scanned disks; if that disk has a file system, then the
board was taken for a registered node whose reformat was confirmed at registration or
whose GFS drain has completed. -/
theorem boot_formats_confirmed (json : Format JsonObject)
    (registered : Option (List RegisteredNode)) (vip k3sToken peerIp : Str)
    (query : NodeQuery)
    (hhost : '\n' ∉ CloudInitGenerator.hostname (Http.resolveNode
      (registered.map (List.map RegisteredNode.object)) peerIp query).node.spec)
    {file : RoleConfigFile}
    (hfile : CloudInitGenerator.embeddedRole json (Http.userdataHandler json
      (registered.map (List.map RegisteredNode.object)) vip k3sToken peerIp query).body =
        some file)
    (view : HostView) {trace : List StorageEvent} {result : Except ClusterError Unit}
    (hruns : (runProvision (unitParams file) view).Runs trace result)
    {command : HostCommand} {outcome : CommandOutcome}
    (hmkfs : (command, outcome) ∈ runsOf .mkfsExt4 trace) :
    ∃ target allDevices,
      BlockDevice.scanAll "/sys/class/block".toList view.sysfs view.byIdDir
        (view.mounts.toOption.getD .empty) = .ok allDevices ∧
      target ∈ allDevices ∧ command.args.getLast? = some target.devPath ∧
      (hasExistingFs target = true → ∃ node ∈ registered.getD [],
        Http.resolveNode (registered.map (List.map RegisteredNode.object)) peerIp query =
          node.object ∧
        (node.start.spec.reformatConfirmed = true ∨
          PromotionEngine.Drained node.run.calls)) := by
  obtain ⟨target, allDevices, hscan, hmem, htarget, hconfirmed⟩ :=
    runProvision_formats_scanned hruns hmkfs
  refine ⟨target, allDevices, hscan, hmem, htarget, ?_⟩
  intro hfs
  -- the flag in the role file is that of the record it was made from
  have hflag : (Http.resolveNode (registered.map (List.map RegisteredNode.object)) peerIp
      query).node.spec.reformatConfirmed = true := by
    rw [Http.userdataHandler,
      CloudInitGenerator.embeddedRole_generateUserData json hhost] at hfile
    obtain rfl := Option.some.inj hfile
    exact hconfirmed hfs
  rcases Http.resolveNode_cases (registered.map (List.map RegisteredNode.object)) peerIp query
    with ⟨nodes, hnodes, hlisted⟩ | hfallback
  · obtain ⟨given, rfl, rfl⟩ := Option.map_eq_some_iff.mp hnodes
    obtain ⟨node, hnode, hobject⟩ := List.mem_map.mp hlisted
    refine ⟨node, hnode, hobject.symm, ?_⟩
    rw [← hobject] at hflag
    rcases PromotionEngine.confirmed_or_drained node.fresh node.steps with hsame | hdrained
    · exact Or.inl (hsame.symm.trans hflag)
    · exact Or.inr hdrained
  · rw [hfallback] at hflag
    cases hflag

namespace BootWitness

open PromotionEngine.PromotionWitness

/-- A worker that was drained and promoted. -/
def promoted : RegisteredNode := ⟨none, worker, List.replicate 5 lostQuorum, rfl⟩

def registered : Option (List RegisteredNode) := some [promoted]

def query : NodeQuery := ⟨none, some "worker-1".toList⟩

def roleFile : RoleConfigFile := ⟨.master, none, some true⟩

theorem resolved : Http.resolveNode (registered.map (List.map RegisteredNode.object))
    "10.0.0.7".toList query = promoted.object := by
  rfl

/-- The boot of its board, with the GFS layout on the disk and nothing mounted. -/
def boot : List StorageEvent × Except ClusterError Unit :=
  Prog.exec AuditWitness.compliant []
    (runProvision (unitParams roleFile) (LifetimeWitness.view LifetimeWitness.rebooted))

def mkfsCommand : HostCommand :=
  ⟨.mkfsExt4, ["-F".toList, "-b".toList, "4096".toList, "-L".toList, Formatter.etcdLabel,
    "/dev/nvme0n1".toList]⟩

theorem planned : provisionPlan (unitParams roleFile)
    (LifetimeWitness.view LifetimeWitness.rebooted) =
      .ok (some ⟨LifetimeWitness.formattedDisk, .master, .proceedWithFormat⟩) := rfl

theorem mem_runsOf_boot :
    (mkfsCommand, CommandOutcome.exited (some 0) [] []) ∈ runsOf .mkfsExt4 boot.1 := by
  rw [boot, runProvision, planned]
  exact List.mem_singleton.mpr rfl

/-- The disk had a file system, and the node it belongs to was drained. -/
theorem promoted_board_reformatted :
    hasExistingFs LifetimeWitness.formattedDisk = true ∧
      ∃ target allDevices,
        BlockDevice.scanAll "/sys/class/block".toList
          (.entries LifetimeWitness.rebooted.blocks) LifetimeWitness.rebooted.byIdDir
          LifetimeWitness.rebooted.mountTable = .ok allDevices ∧
        target ∈ allDevices ∧ mkfsCommand.args.getLast? = some target.devPath ∧
        (hasExistingFs target = true → ∃ node ∈ [promoted],
          Http.resolveNode (some [promoted.object]) "10.0.0.7".toList query = node.object ∧
          (node.start.spec.reformatConfirmed = true ∨
            PromotionEngine.Drained node.run.calls)) := by
  have hhost : '\n' ∉ CloudInitGenerator.hostname (Http.resolveNode
      (registered.map (List.map RegisteredNode.object)) "10.0.0.7".toList query).node.spec := by
    rw [resolved]
    decide
  have hfile := CloudInitGenerator.embeddedRole_generateUserData AuditJson.object hhost
    "10.0.0.1".toList "t".toList
  have hruns : (runProvision (unitParams roleFile)
      (LifetimeWitness.view LifetimeWitness.rebooted)).Runs boot.1 boot.2 :=
    Prog.exec_runs AuditWitness.compliant [] _
  exact ⟨by decide, boot_formats_confirmed AuditJson.object registered "10.0.0.1".toList
    "t".toList "10.0.0.7".toList query hhost hfile _ hruns mem_runsOf_boot⟩

end BootWitness

end PiCluster
