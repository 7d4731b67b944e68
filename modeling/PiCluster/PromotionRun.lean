/-
Runs of the promotion engine.  The invariant ties the persisted step and drain
handle to the history of GFS requests: nothing is requested before evacuation,
one drain is requested for the node itself, and no later step is reached
before that drain reported completion.
-/
import PiCluster.Promotion

namespace PiCluster

namespace PromotionEngine

open Text

/-- The step a node is at; a node without promotion state is `Detecting`. -/
def currentStep (node : PiNode) : PromotionStep :=
  ((promotionOf node).map PromotionState.currentStep).getD .detecting

def drainHandleOf (node : PiNode) : Option Str :=
  (promotionOf node).bind PromotionState.drainHandle

section Fields

variable (clock : Clock) (node : PiNode)

@[simp] theorem updateFsmStep_spec (next : PromotionStep) :
    (updateFsmStep clock node next).spec = node.spec := rfl

@[simp] theorem failFsm_spec (reason : Str) :
    (failFsm clock node reason).spec = node.spec := rfl

@[simp] theorem persistDrainHandle_spec (handle : Str) :
    (persistDrainHandle clock node handle).spec = node.spec := rfl

@[simp] theorem markReady_spec : (markReady node).spec = node.spec := rfl

@[simp] theorem currentStep_updateFsmStep (next : PromotionStep) :
    currentStep (updateFsmStep clock node next) = next := rfl

@[simp] theorem currentStep_failFsm (reason : Str) :
    currentStep (failFsm clock node reason) = .failed := rfl

@[simp] theorem drainHandleOf_updateFsmStep (next : PromotionStep) :
    drainHandleOf (updateFsmStep clock node next) = drainHandleOf node := by
  rcases node with ⟨spec, _ | status⟩
  · rfl
  · rcases hprom : status.promotion with _ | prom <;>
      simp [drainHandleOf, promotionOf, updateFsmStep, hprom, freshState]

theorem drainHandleOf_persistDrainHandle {prom : PromotionState}
    (hprom : promotionOf node = some prom) (handle : Str) :
    drainHandleOf (persistDrainHandle clock node handle) = some handle := by
  rcases node with ⟨spec, _ | status⟩
  · simp [promotionOf] at hprom
  · simp only [promotionOf, Option.bind_some] at hprom
    simp [drainHandleOf, promotionOf, persistDrainHandle, hprom]

theorem promotionOf_ne_none {step : PromotionStep} (hstep : currentStep node = step)
    (hne : step ≠ .detecting) : ∃ prom, promotionOf node = some prom := by
  cases hprom : promotionOf node with
  | some prom => exact ⟨prom, rfl⟩
  | none =>
      simp only [currentStep, hprom, Option.map_none, Option.getD_none] at hstep
      exact absurd hstep.symm hne

end Fields

theorem getD_currentStep (node : PiNode) (startedAt updatedAt : Str) :
    ((promotionOf node).getD
      (freshState node .detecting none startedAt updatedAt)).currentStep =
        currentStep node := by
  cases hprom : promotionOf node <;> simp [currentStep, hprom, freshState]

theorem getD_drainHandle (node : PiNode) (startedAt updatedAt : Str) :
    ((promotionOf node).getD
      (freshState node .detecting none startedAt updatedAt)).drainHandle =
        drainHandleOf node := by
  cases hprom : promotionOf node <;> simp [drainHandleOf, hprom, freshState]

/-- The step after a given one on the way to completion. -/
def successor : PromotionStep → Option PromotionStep
  | .detecting => some .selectingCandidate
  | .selectingCandidate => some .evacuatingGfs
  | .evacuatingGfs => some .preparingDisk
  | .preparingDisk => some .reformattingDisk
  | .reformattingDisk => some .promotingK3s
  | .promotingK3s => some .joiningEtcd
  | .joiningEtcd => some .verifying
  | .verifying => some .complete
  | .complete => none
  | .failed => none

theorem next_of_early {before next : PromotionStep}
    (hbefore : before = .detecting ∨ before = .selectingCandidate)
    (hnext : next = before ∨ successor before = some next) :
    next = .detecting ∨ next = .selectingCandidate ∨ next = .evacuatingGfs := by
  rcases hbefore with rfl | rfl <;>
    simp only [successor, Option.some.injEq] at hnext <;> tauto

/-- A step stutters, advances by one or fails. -/
def Follows (before after : PromotionStep) : Prop :=
  after = before ∨ successor before = some after ∨ after = .failed

/-- What one step can do, by the step the node is at. -/
inductive StepEffect (engine : PromotionEngine) (clock : Clock) (node : PiNode) :
    StepResult → Prop
  | moved (next : PromotionStep) (hnext : next = currentStep node ∨
        successor (currentStep node) = some next)
      (hbefore : currentStep node = .detecting ∨ currentStep node = .selectingCandidate) :
      StepEffect engine clock node (advance clock node next [])
  | noCandidate (reason : Str) (hbefore : currentStep node = .selectingCandidate) :
      StepEffect engine clock node (abort clock node reason [])
  | evacuating (hbefore : currentStep node = .evacuatingGfs) :
      StepEffect engine clock node (evacuate engine clock node (drainHandleOf node))
  | prepared (hbefore : currentStep node = .preparingDisk) :
      StepEffect engine clock node (advance clock node .reformattingDisk [])
  | reformatted (hbefore : currentStep node = .reformattingDisk) :
      StepEffect engine clock node (advance clock (confirmMaster node) .promotingK3s [])
  | joined (next : PromotionStep) (hnext : successor (currentStep node) = some next)
      (hbefore : currentStep node = .promotingK3s ∨ currentStep node = .joiningEtcd) :
      StepEffect engine clock node (advance clock node next [])
  | completed (hbefore : currentStep node = .verifying ∨ currentStep node = .complete) :
      StepEffect engine clock node (advance clock (markReady node) .complete [])
  | stuck (hbefore : currentStep node = .failed) :
      StepEffect engine clock node (advance clock node .failed [])

theorem step_effect (engine : PromotionEngine) (clock : Clock) (node : PiNode)
    (allNodes : List PiNode) :
    StepEffect engine clock node (step engine clock node allNodes) := by
  unfold step
  simp only [getD_currentStep, getD_drainHandle]
  cases hstep : currentStep node with
  | detecting =>
      simp only
      split
      · exact .moved _ (Or.inl hstep.symm) (Or.inl hstep)
      · exact .moved _ (Or.inr (by rw [hstep]; rfl)) (Or.inl hstep)
  | selectingCandidate =>
      simp only
      split
      · split
        · exact .moved _ (Or.inr (by rw [hstep]; rfl)) (Or.inr hstep)
        · exact .moved _ (Or.inl hstep.symm) (Or.inr hstep)
      · exact .noCandidate _ hstep
  | evacuatingGfs => exact .evacuating hstep
  | preparingDisk => exact .prepared hstep
  | reformattingDisk => exact .reformatted hstep
  | promotingK3s => exact .joined _ (by rw [hstep]; rfl) (Or.inl hstep)
  | joiningEtcd => exact .joined _ (by rw [hstep]; rfl) (Or.inr hstep)
  | verifying => exact .completed (Or.inl hstep)
  | complete => exact .completed (Or.inr hstep)
  | failed => exact .stuck hstep

/-- What evacuation can do: a refused drain request, or one status query for the
handle in use, after a drain request when none was persisted. -/
inductive EvacuateEffect (node : PiNode) : StepResult → Prop
  | refused (error : GfsAdminError) (failed : PiNode)
      (hhandle : drainHandleOf node = none) (hspec : failed.spec = node.spec)
      (hstep : currentStep failed = .failed) :
      EvacuateEffect node ⟨failed, .failed,
        [.drainNode node.spec.hardwareSerial (.error error)]⟩
  | queried (handle : Str) (requests : List GfsCall)
      (answer : Except GfsAdminError DrainStatus) (after : PiNode)
      (hhandle : drainHandleOf node = some handle ∧ requests = [] ∨
        drainHandleOf node = none ∧
          requests = [.drainNode node.spec.hardwareSerial (.ok handle)])
      (hspec : after.spec = node.spec)
      (hstep : currentStep after = .failed ∨
        currentStep after = .evacuatingGfs ∧ drainHandleOf after = some handle ∨
        currentStep after = .preparingDisk ∧ answer = .ok .complete) :
      EvacuateEffect node ⟨after, currentStep after,
        requests ++ [.drainStatus handle answer]⟩

theorem awaitDrain_effect (engine : PromotionEngine) (clock : Clock) {node holder : PiNode}
    {handle : Str} {requests : List GfsCall}
    (hhandle : drainHandleOf node = some handle ∧ requests = [] ∨
      drainHandleOf node = none ∧
        requests = [.drainNode node.spec.hardwareSerial (.ok handle)])
    (hspec : holder.spec = node.spec) (hholder : drainHandleOf holder = some handle) :
    EvacuateEffect node (awaitDrain engine clock holder handle requests) := by
  unfold awaitDrain
  simp only
  split
  · rename_i hanswer
    rw [hanswer]
    exact .queried handle requests _ (updateFsmStep clock holder .preparingDisk) hhandle
      hspec (Or.inr (Or.inr ⟨rfl, rfl⟩))
  · exact .queried handle requests _ (updateFsmStep clock holder .evacuatingGfs) hhandle
      hspec (Or.inr (Or.inl ⟨rfl, by rw [drainHandleOf_updateFsmStep, hholder]⟩))
  · exact .queried handle requests _ (failFsm clock holder _) hhandle hspec (Or.inl rfl)
  · exact .queried handle requests _ (failFsm clock holder _) hhandle hspec (Or.inl rfl)

theorem evacuate_effect (engine : PromotionEngine) (clock : Clock) {node : PiNode}
    (hstep : currentStep node = .evacuatingGfs) :
    EvacuateEffect node (evacuate engine clock node (drainHandleOf node)) := by
  unfold evacuate
  cases hhandle : drainHandleOf node with
  | some handle => exact awaitDrain_effect engine clock (Or.inl ⟨hhandle, rfl⟩) rfl hhandle
  | none =>
      simp only
      cases hanswer : engine.drainNode node.spec.hardwareSerial with
      | error error => exact .refused error _ hhandle rfl rfl
      | ok handle =>
          obtain ⟨prom, hprom⟩ := promotionOf_ne_none node hstep (by decide)
          exact awaitDrain_effect engine clock (Or.inr ⟨hhandle, rfl⟩) rfl
            (drainHandleOf_persistDrainHandle clock node hprom handle)

/-- What the environment supplies to one step; a fresh engine is a new `engine`. -/
structure StepInput where
  engine : PromotionEngine
  clock : Clock
  allNodes : List PiNode

/-- A node together with the GFS requests made for it so far, oldest first. -/
structure Run where
  node : PiNode
  calls : List GfsCall

def Run.next (run : Run) (input : StepInput) : Run :=
  let result := step input.engine input.clock run.node input.allNodes
  ⟨result.node, run.calls ++ result.calls⟩

def runFrom (node : PiNode) (inputs : List StepInput) : Run :=
  inputs.foldl Run.next ⟨node, []⟩

theorem runFrom_snoc (node : PiNode) (inputs : List StepInput) (input : StepInput) :
    runFrom node (inputs ++ [input]) = (runFrom node inputs).next input := by
  simp only [runFrom, List.foldl_append, List.foldl_cons, List.foldl_nil]

/-- Some status query reported the drain complete. -/
def Drained (calls : List GfsCall) : Prop :=
  ∃ handle, GfsCall.drainStatus handle (.ok .complete) ∈ calls

def QueriesOf (handle : Str) (calls : List GfsCall) : Prop :=
  ∀ call ∈ calls, ∃ answer, call = GfsCall.drainStatus handle answer

/-- The shapes the request history of a run can have. -/
inductive DrainHistory (serial : Str) : List GfsCall → Prop
  | idle : DrainHistory serial []
  | refused (error : GfsAdminError) :
      DrainHistory serial [.drainNode serial (.error error)]
  | started (handle : Str) (queries : List GfsCall) (hqueries : QueriesOf handle queries) :
      DrainHistory serial (.drainNode serial (.ok handle) :: queries)

def isDrainRequest : GfsCall → Bool
  | .drainNode _ _ => true
  | .drainStatus _ _ => false

theorem countP_isDrainRequest_queries {handle : Str} {queries : List GfsCall}
    (hqueries : QueriesOf handle queries) : queries.countP isDrainRequest = 0 := by
  rw [List.countP_eq_zero]
  intro call hcall
  obtain ⟨answer, rfl⟩ := hqueries call hcall
  simp [isDrainRequest]

theorem DrainHistory.countP_le_one {serial : Str} {calls : List GfsCall}
    (hhistory : DrainHistory serial calls) :
    calls.countP isDrainRequest ≤ 1 := by
  cases hhistory with
  | idle => simp
  | refused error => exact List.countP_le_length
  | started handle queries hqueries =>
      rw [List.countP_cons, countP_isDrainRequest_queries hqueries]
      simp [isDrainRequest]

theorem DrainHistory.handle_requested {serial : Str} {calls earlier later : List GfsCall}
    {handle : Str} {answer : Except GfsAdminError DrainStatus}
    (hhistory : DrainHistory serial calls)
    (hcalls : calls = earlier ++ .drainStatus handle answer :: later) :
    GfsCall.drainNode serial (.ok handle) ∈ earlier := by
  cases hhistory with
  | idle => simp at hcalls
  | refused error =>
      cases earlier with
      | nil => simp at hcalls
      | cons head tail => simp at hcalls
  | started requested queries hqueries =>
      cases earlier with
      | nil => simp at hcalls
      | cons head tail =>
          simp only [List.cons_append, List.cons.injEq] at hcalls
          obtain ⟨rfl, rfl⟩ := hcalls
          obtain ⟨given, hgiven⟩ := hqueries (.drainStatus handle answer) (by simp)
          cases hgiven
          exact List.mem_cons_self

/-- How the persisted step and handle answer to the request history. -/
def StageOk (serial : Str) (run : Run) : Prop :=
  match currentStep run.node with
  | .detecting | .selectingCandidate => run.calls = [] ∧ drainHandleOf run.node = none
  | .evacuatingGfs =>
      run.calls = [] ∧ drainHandleOf run.node = none ∨
      ∃ handle queries, drainHandleOf run.node = some handle ∧
        QueriesOf handle queries ∧ run.calls = .drainNode serial (.ok handle) :: queries
  | .failed => True
  | _ => Drained run.calls

structure DrainInv (serial : Str) (run : Run) : Prop where
  serial_eq : run.node.spec.hardwareSerial = serial
  history : DrainHistory serial run.calls
  stage : StageOk serial run

theorem drainInv_start {node : PiNode} (hprom : promotionOf node = none) :
    DrainInv node.spec.hardwareSerial ⟨node, []⟩ where
  serial_eq := rfl
  history := .idle
  stage := by simp [StageOk, currentStep, drainHandleOf, hprom]

/-- A drain requested for `run` and answered by one query: the next history. -/
theorem history_queried {serial handle : Str} {run : Run} {requests : List GfsCall}
    (hinv : DrainInv serial run) (hstep : currentStep run.node = .evacuatingGfs)
    (answer : Except GfsAdminError DrainStatus)
    (hhandle : drainHandleOf run.node = some handle ∧ requests = [] ∨
      drainHandleOf run.node = none ∧
        requests = [.drainNode run.node.spec.hardwareSerial (.ok handle)]) :
    ∃ queries, QueriesOf handle queries ∧
      run.calls ++ (requests ++ [.drainStatus handle answer]) =
        .drainNode serial (.ok handle) :: queries := by
  have hstage := hinv.stage
  simp only [StageOk, hstep] at hstage
  rcases hhandle with ⟨hsome, rfl⟩ | ⟨hnone, rfl⟩
  · rcases hstage with ⟨_, hnone⟩ | ⟨held, queries, hheld, hqueries, hcalls⟩
    · rw [hnone] at hsome
      cases hsome
    · obtain rfl : held = handle := by
        rw [hheld] at hsome
        exact Option.some.inj hsome
      refine ⟨queries ++ [.drainStatus held answer], ?_, by simp [hcalls]⟩
      intro call hcall
      rcases List.mem_append.mp hcall with hold | hnew
      · exact hqueries call hold
      · exact ⟨answer, List.mem_singleton.mp hnew⟩
  · rcases hstage with ⟨hcalls, _⟩ | ⟨held, _, hheld, _, _⟩
    · refine ⟨[.drainStatus handle answer], ?_, by simp [hcalls, hinv.serial_eq]⟩
      intro call hcall
      exact ⟨answer, List.mem_singleton.mp hcall⟩
    · rw [hnone] at hheld
      cases hheld

theorem stageOk_of_failed {serial : Str} {run : Run}
    (hfailed : currentStep run.node = .failed) : StageOk serial run := by
  simp only [StageOk, hfailed]

theorem drainInv_evacuate {serial : Str} {run : Run} {result : StepResult}
    (hinv : DrainInv serial run) (hstep : currentStep run.node = .evacuatingGfs)
    (heffect : EvacuateEffect run.node result) :
    DrainInv serial ⟨result.node, run.calls ++ result.calls⟩ := by
  cases heffect with
  | refused error failed hhandle hspec hfailed =>
      have hcalls : run.calls = [] := by
        have hstage := hinv.stage
        simp only [StageOk, hstep, hhandle] at hstage
        simpa using hstage
      refine ⟨by rw [hspec, hinv.serial_eq], ?_, stageOk_of_failed hfailed⟩
      rw [hcalls, hinv.serial_eq]
      exact .refused error
  | queried handle requests answer after hhandle hspec hafter =>
      obtain ⟨queries, hqueries, hcalls⟩ := history_queried hinv hstep answer hhandle
      refine ⟨by rw [hspec, hinv.serial_eq], ?_, ?_⟩
      · rw [hcalls]
        exact .started handle queries hqueries
      · rcases hafter with hfailed | ⟨hevac, hheld⟩ | ⟨hprepare, rfl⟩
        · exact stageOk_of_failed hfailed
        · simp only [StageOk, hevac]
          exact Or.inr ⟨handle, queries, hheld, hqueries, hcalls⟩
        · simp only [StageOk, hprepare]
          exact ⟨handle, by simp⟩

/-- One step keeps the invariant. -/
theorem drainInv_next {serial : Str} {run : Run} (hinv : DrainInv serial run)
    (input : StepInput) : DrainInv serial (run.next input) := by
  have heffect := step_effect input.engine input.clock run.node input.allNodes
  have hstage := hinv.stage
  have hserial := hinv.serial_eq
  have hhistory := hinv.history
  unfold Run.next
  generalize step input.engine input.clock run.node input.allNodes = result at heffect
  cases heffect with
  | evacuating hbefore =>
      exact drainInv_evacuate hinv hbefore
        (evacuate_effect input.engine input.clock hbefore)
  | noCandidate reason hbefore =>
      exact ⟨hserial, by simpa [abort] using hhistory, stageOk_of_failed rfl⟩
  | stuck hbefore =>
      exact ⟨hserial, by simpa [advance] using hhistory, stageOk_of_failed rfl⟩
  | moved next hnext hbefore =>
      refine ⟨hserial, by simpa [advance] using hhistory, ?_⟩
      have hidle : run.calls = [] ∧ drainHandleOf run.node = none := by
        rcases hbefore with hbefore | hbefore <;> simpa [StageOk, hbefore] using hstage
      rcases next_of_early hbefore hnext with rfl | rfl | rfl <;> simp [StageOk, advance, hidle]
  | prepared hbefore =>
      exact ⟨hserial, by simpa [advance] using hhistory,
        by simpa [StageOk, hbefore, advance] using hstage⟩
  | reformatted hbefore =>
      exact ⟨hserial, by simpa [advance] using hhistory,
        by simpa [StageOk, hbefore, advance] using hstage⟩
  | joined next hnext hbefore =>
      refine ⟨hserial, by simpa [advance] using hhistory, ?_⟩
      rcases hbefore with hbefore | hbefore <;>
        simp only [hbefore, successor, Option.some.injEq] at hnext <;>
        subst hnext <;>
        simpa [StageOk, hbefore, advance] using hstage
  | completed hbefore =>
      refine ⟨hserial, by simpa [advance] using hhistory, ?_⟩
      rcases hbefore with hbefore | hbefore <;>
        simpa [StageOk, hbefore, advance] using hstage

theorem drainInv_runFrom {node : PiNode} (hprom : promotionOf node = none)
    (inputs : List StepInput) :
    DrainInv node.spec.hardwareSerial (runFrom node inputs) :=
  inputs.foldlRecOn Run.next (drainInv_start hprom)
    fun _ hinv input _ => drainInv_next hinv input

/-- Only `ReformattingDisk` writes to the spec. -/
theorem spec_next_eq {run : Run} {input : StepInput}
    (hne : currentStep run.node ≠ .reformattingDisk) :
    (run.next input).node.spec = run.node.spec := by
  have heffect := step_effect input.engine input.clock run.node input.allNodes
  unfold Run.next
  generalize step input.engine input.clock run.node input.allNodes = result at heffect
  cases heffect with
  | evacuating hbefore =>
      have heffect := evacuate_effect input.engine input.clock hbefore
      generalize evacuate input.engine input.clock run.node (drainHandleOf run.node) = result
        at heffect
      cases heffect with
      | refused error failed hhandle hspec hfailed => exact hspec
      | queried handle requests answer after hhandle hspec hafter => exact hspec
  | reformatted hbefore => exact absurd hbefore hne
  | noCandidate | stuck | moved | prepared | joined | completed => rfl

theorem follows_next (run : Run) (input : StepInput) :
    Follows (currentStep run.node) (currentStep (run.next input).node) := by
  have heffect := step_effect input.engine input.clock run.node input.allNodes
  unfold Run.next
  generalize step input.engine input.clock run.node input.allNodes = result at heffect
  cases heffect with
  | evacuating hbefore =>
      have heffect := evacuate_effect input.engine input.clock hbefore
      generalize evacuate input.engine input.clock run.node (drainHandleOf run.node) = result
        at heffect
      rw [hbefore]
      cases heffect with
      | refused error failed hhandle hspec hfailed => exact Or.inr (Or.inr hfailed)
      | queried handle requests answer after hhandle hspec hafter =>
          rcases hafter with hfailed | ⟨hevac, _⟩ | ⟨hprepare, _⟩
          · exact Or.inr (Or.inr hfailed)
          · exact Or.inl hevac
          · exact Or.inr (Or.inl (by rw [hprepare]; rfl))
  | noCandidate reason hbefore => exact Or.inr (Or.inr rfl)
  | stuck hbefore => exact Or.inr (Or.inr rfl)
  | moved next hnext hbefore => exact hnext.imp id Or.inl
  | prepared hbefore => exact Or.inr (Or.inl (by rw [hbefore]; rfl))
  | reformatted hbefore => exact Or.inr (Or.inl (by rw [hbefore]; rfl))
  | joined next hnext hbefore => exact Or.inr (Or.inl hnext)
  | completed hbefore =>
      rcases hbefore with hbefore | hbefore
      · exact Or.inr (Or.inl (by rw [hbefore]; rfl))
      · exact Or.inl (by rw [hbefore]; rfl)

/-- Drain before destruction, at every step of every run: the spec is rewritten
only once a drain completed, a queried handle was granted for this node's own
serial earlier on, at most one drain is requested, and the step never skips. -/
theorem runFrom_drains_before_destruction {node : PiNode}
    (hprom : promotionOf node = none) (inputs : List StepInput) (input : StepInput) :
    let before := runFrom node inputs
    let after := runFrom node (inputs ++ [input])
    ((after.node.spec.desiredRole ≠ before.node.spec.desiredRole ∨
        after.node.spec.reformatConfirmed ≠ before.node.spec.reformatConfirmed) →
      Drained before.calls) ∧
    (∀ earlier later handle answer,
      after.calls = earlier ++ .drainStatus handle answer :: later →
      GfsCall.drainNode node.spec.hardwareSerial (.ok handle) ∈ earlier) ∧
    after.calls.countP isDrainRequest ≤ 1 ∧
    Follows (currentStep before.node) (currentStep after.node) := by
  intro before after
  have hbefore : DrainInv node.spec.hardwareSerial before := drainInv_runFrom hprom inputs
  have hafter : DrainInv node.spec.hardwareSerial after :=
    drainInv_runFrom hprom (inputs ++ [input])
  have hnext : after = before.next input := runFrom_snoc node inputs input
  refine ⟨?_, ?_, hafter.history.countP_le_one, ?_⟩
  · intro hchanged
    by_cases hstep : currentStep before.node = .reformattingDisk
    · have hstage := hbefore.stage
      simpa only [StageOk, hstep] using hstage
    · rw [hnext, spec_next_eq hstep] at hchanged
      simp at hchanged
  · intro earlier later handle answer hcalls
    exact hafter.history.handle_requested hcalls
  · rw [hnext]
    exact follows_next before input

namespace PromotionWitness

def worker : PiNode where
  spec := {
    hardwareSerial := "worker-1".toList
    macAddress := "aa:bb".toList
    desiredRole := .worker
    targetDiskId := none
    reformatConfirmed := false
    ipAddress := none
    hostname := none }
  status := none

/-- Quorum is lost, the node is the only candidate and its drain ends at once. -/
def lostQuorum : StepInput where
  engine := {
    drainNode := fun _ => .ok "drain-7".toList
    drainStatus := fun _ => .ok .complete
    quorumHealth := some false }
  clock := fun _ => "now".toList
  allNodes := [worker]

theorem promoted_only_after_drain :
    (runFrom worker (List.replicate 4 lostQuorum ++ [lostQuorum])).node.spec.desiredRole ≠
        (runFrom worker (List.replicate 4 lostQuorum)).node.spec.desiredRole ∧
      Drained (runFrom worker (List.replicate 4 lostQuorum)).calls := by
  have hchanged :
      (runFrom worker (List.replicate 4 lostQuorum ++ [lostQuorum])).node.spec.desiredRole ≠
        (runFrom worker (List.replicate 4 lostQuorum)).node.spec.desiredRole := by
    decide
  exact ⟨hchanged, (runFrom_drains_before_destruction rfl (List.replicate 4 lostQuorum)
    lostQuorum).1 (Or.inl hchanged)⟩

end PromotionWitness

end PromotionEngine

end PiCluster
