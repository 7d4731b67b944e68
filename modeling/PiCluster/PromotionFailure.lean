/-
What a failed promotion leaves behind.  `fail_fsm` is only entered before the
spec is rewritten, so a failed node still has the spec and the disk state it
started with, and its phase keeps it out of every later selection.
-/
import PiCluster.PromotionRun

namespace PiCluster

namespace PromotionEngine

open Text CandidateSelector

def failureReasonOf (node : PiNode) : Option Str :=
  (promotionOf node).bind PromotionState.failureReason

/-- The node as it was before its promotion, apart from the snapshot. -/
structure Untouched (initial node : PiNode) : Prop where
  spec_eq : node.spec = initial.spec
  disk_eq : diskState node = diskState initial
  reason_eq : failureReasonOf node = none

/-- A failed promotion: the initial spec and disk state, the `Failed` phase and
a reason, all of them present in the stored status. -/
structure Quarantined (initial node : PiNode) : Prop where
  spec_eq : node.spec = initial.spec
  stored : ∃ status prom reason, node.status = some status ∧ status.promotion = some prom ∧
    prom.currentStep = .failed ∧ prom.failureReason = some reason ∧
    status.phase = .failed ∧ status.diskState = (initial.status.getD .default).diskState

section Frames

variable (clock : Clock) (node : PiNode)

@[simp] theorem failureReasonOf_updateFsmStep (next : PromotionStep) :
    failureReasonOf (updateFsmStep clock node next) = failureReasonOf node := by
  rcases node with ⟨spec, _ | status⟩
  · rfl
  · rcases hprom : status.promotion with _ | prom <;>
      simp [failureReasonOf, promotionOf, updateFsmStep, hprom, freshState]

@[simp] theorem failureReasonOf_persistDrainHandle (handle : Str) :
    failureReasonOf (persistDrainHandle clock node handle) = failureReasonOf node := by
  rcases node with ⟨spec, _ | status⟩
  · rfl
  · rcases hprom : status.promotion with _ | prom <;>
      simp [failureReasonOf, promotionOf, persistDrainHandle, hprom]

@[simp] theorem failureReasonOf_markReady :
    failureReasonOf (markReady node) = failureReasonOf node := by
  rcases node with ⟨spec, _ | status⟩ <;> rfl

@[simp] theorem failureReasonOf_confirmMaster :
    failureReasonOf (confirmMaster node) = failureReasonOf node := rfl

@[simp] theorem diskState_updateFsmStep (next : PromotionStep) :
    diskState (updateFsmStep clock node next) = diskState node := by
  rcases node with ⟨spec, _ | status⟩ <;> rfl

@[simp] theorem diskState_persistDrainHandle (handle : Str) :
    diskState (persistDrainHandle clock node handle) = diskState node := by
  rcases node with ⟨spec, _ | status⟩ <;> rfl

theorem diskState_eq_getD : diskState node = (node.status.getD .default).diskState := by
  rcases node with ⟨spec, _ | status⟩ <;> rfl

end Frames

section Writes

variable {initial node : PiNode} (clock : Clock)

theorem Untouched.updateFsmStep (huntouched : Untouched initial node) (next : PromotionStep) :
    Untouched initial (updateFsmStep clock node next) where
  spec_eq := huntouched.spec_eq
  disk_eq := by rw [diskState_updateFsmStep, huntouched.disk_eq]
  reason_eq := by rw [failureReasonOf_updateFsmStep, huntouched.reason_eq]

theorem Untouched.persistDrainHandle (huntouched : Untouched initial node) (handle : Str) :
    Untouched initial (persistDrainHandle clock node handle) where
  spec_eq := huntouched.spec_eq
  disk_eq := by rw [diskState_persistDrainHandle, huntouched.disk_eq]
  reason_eq := by rw [failureReasonOf_persistDrainHandle, huntouched.reason_eq]

/-- `fail_fsm` on an untouched node quarantines it. -/
theorem Untouched.failFsm (huntouched : Untouched initial node) (reason : Str) :
    Quarantined initial (failFsm clock node reason) where
  spec_eq := huntouched.spec_eq
  stored := by
    refine ⟨_, _, reason, rfl, rfl, rfl, rfl, rfl, ?_⟩
    have hdisk := huntouched.disk_eq
    rw [diskState_eq_getD, diskState_eq_getD] at hdisk
    exact hdisk

theorem Quarantined.updateFsmStep (hfailed : Quarantined initial node) :
    Quarantined initial (updateFsmStep clock node .failed) where
  spec_eq := hfailed.spec_eq
  stored := by
    obtain ⟨status, prom, reason, hstatus, hprom, _, hreason, hphase, hdisk⟩ := hfailed.stored
    refine ⟨_, _, reason, rfl, rfl, rfl, ?_, ?_, ?_⟩
    · simpa [hstatus, hprom] using hreason
    · simpa [hstatus] using hphase
    · simpa [hstatus] using hdisk

end Writes

theorem Quarantined.currentStep_eq {initial node : PiNode} (hfailed : Quarantined initial node) :
    currentStep node = .failed := by
  obtain ⟨status, prom, reason, hstatus, hprom, hstep, _⟩ := hfailed.stored
  simp [currentStep, promotionOf, hstatus, hprom, hstep]

/-- The selection skips every node in the `Failed` phase. -/
theorem Quarantined.not_selected {initial node : PiNode} (hfailed : Quarantined initial node)
    (nodes : List PiNode) : selectBestCandidate nodes ≠ some node := by
  intro hbest
  have heligible := (selectBestCandidate_mem hbest).2
  obtain ⟨status, prom, reason, hstatus, _, _, _, hphase, _⟩ := hfailed.stored
  simp [isEligible, phase, hstatus, hphase] at heligible

/-- What each step of a promotion says about the node it started from.  From
`PromotingK3s` on the spec and the disk have changed, and no step fails. -/
def FailureInv (initial node : PiNode) : Prop :=
  match currentStep node with
  | .failed => Quarantined initial node
  | .promotingK3s | .joiningEtcd | .verifying | .complete => failureReasonOf node = none
  | _ => Untouched initial node

theorem FailureInv.of_failed {initial node : PiNode} (hfailed : Quarantined initial node) :
    FailureInv initial node := by
  simpa only [FailureInv, hfailed.currentStep_eq] using hfailed

/-- An untouched node satisfies the invariant at every step but `Failed`. -/
theorem FailureInv.of_untouched {initial node : PiNode} (huntouched : Untouched initial node)
    (hstep : currentStep node ≠ .failed) : FailureInv initial node := by
  unfold FailureInv
  split
  · contradiction
  all_goals first | exact huntouched | exact huntouched.reason_eq

theorem failureInv_start {node : PiNode} (hprom : promotionOf node = none) :
    FailureInv node node := by
  have hstep : currentStep node ≠ .failed := by simp [currentStep, hprom]
  exact .of_untouched ⟨rfl, rfl, by simp [failureReasonOf, hprom]⟩ hstep

theorem failureInv_awaitDrain {initial node : PiNode} (engine : PromotionEngine) (clock : Clock)
    (huntouched : Untouched initial node) (handle : Str) (calls : List GfsCall) :
    FailureInv initial (awaitDrain engine clock node handle calls).node := by
  unfold awaitDrain
  simp only
  split
  · exact .of_untouched (huntouched.updateFsmStep clock _) nofun
  · exact .of_untouched (huntouched.updateFsmStep clock _) nofun
  · exact .of_failed (huntouched.failFsm clock _)
  · exact .of_failed (huntouched.failFsm clock _)

theorem failureInv_evacuate {initial node : PiNode} (engine : PromotionEngine) (clock : Clock)
    (huntouched : Untouched initial node) (drainHandle : Option Str) :
    FailureInv initial (evacuate engine clock node drainHandle).node := by
  unfold evacuate
  split
  · exact failureInv_awaitDrain engine clock huntouched _ _
  · simp only
    split
    · exact failureInv_awaitDrain engine clock (huntouched.persistDrainHandle clock _) _ _
    · exact .of_failed (huntouched.failFsm clock _)

/-- One step keeps the invariant. -/
theorem failureInv_step {initial node : PiNode} (hinv : FailureInv initial node)
    (engine : PromotionEngine) (clock : Clock) (allNodes : List PiNode) :
    FailureInv initial (step engine clock node allNodes).node := by
  have heffect := step_effect engine clock node allNodes
  generalize step engine clock node allNodes = result at heffect
  cases heffect with
  | moved next hnext hbefore =>
      have huntouched : Untouched initial node := by
        rcases hbefore with hbefore | hbefore <;> simpa only [FailureInv, hbefore] using hinv
      refine .of_untouched (huntouched.updateFsmStep clock next) ?_
      rcases next_of_early hbefore hnext with rfl | rfl | rfl <;> nofun
  | noCandidate reason hbefore =>
      have huntouched : Untouched initial node := by
        simpa only [FailureInv, hbefore] using hinv
      exact .of_failed (huntouched.failFsm clock reason)
  | evacuating hbefore =>
      have huntouched : Untouched initial node := by
        simpa only [FailureInv, hbefore] using hinv
      exact failureInv_evacuate engine clock huntouched _
  | prepared hbefore =>
      have huntouched : Untouched initial node := by
        simpa only [FailureInv, hbefore] using hinv
      exact .of_untouched (huntouched.updateFsmStep clock _) nofun
  | reformatted hbefore =>
      have huntouched : Untouched initial node := by
        simpa only [FailureInv, hbefore] using hinv
      simpa [FailureInv, advance] using huntouched.reason_eq
  | joined next hnext hbefore =>
      rcases hbefore with hbefore | hbefore <;>
        simp only [hbefore, successor, Option.some.injEq] at hnext <;>
        subst hnext <;>
        simpa [FailureInv, hbefore, advance] using hinv
  | completed hbefore =>
      rcases hbefore with hbefore | hbefore <;>
        simpa [FailureInv, hbefore, advance] using hinv
  | stuck hbefore =>
      have hfailed : Quarantined initial node := by simpa only [FailureInv, hbefore] using hinv
      exact .of_failed (hfailed.updateFsmStep clock)

theorem failureInv_run {initial : PiNode} {run : Run} (hinv : FailureInv initial run.node)
    (inputs : List StepInput) : FailureInv initial (inputs.foldl Run.next run).node :=
  inputs.foldlRecOn (motive := fun run => FailureInv initial run.node) Run.next hinv
    fun _ hinv input _ => failureInv_step hinv input.engine input.clock input.allNodes

theorem quarantined_run {initial : PiNode} {run : Run} (hfailed : Quarantined initial run.node)
    (inputs : List StepInput) : Quarantined initial (inputs.foldl Run.next run).node := by
  refine inputs.foldlRecOn (motive := fun run => Quarantined initial run.node) Run.next hfailed
    fun run hfailed input _ => ?_
  have heffect := step_effect input.engine input.clock run.node input.allNodes
  have hstep := hfailed.currentStep_eq
  unfold Run.next
  generalize step input.engine input.clock run.node input.allNodes = result at heffect
  cases heffect with
  | stuck hbefore => exact hfailed.updateFsmStep input.clock
  | moved | noCandidate | evacuating | prepared | reformatted | joined | completed => simp_all

/-- A failed promotion leaves the node as it was and out of every selection, in
every state a run reaches, and no later step undoes that; a node that did not
fail carries no reason. -/
theorem runFrom_failed_quarantined {node : PiNode} (hprom : promotionOf node = none)
    (inputs : List StepInput) :
    let reached := (runFrom node inputs).node
    (currentStep reached = .failed →
      Quarantined node reached ∧
      (∀ later, Quarantined node (runFrom node (inputs ++ later)).node) ∧
      ∀ nodes, selectBestCandidate nodes ≠ some reached) ∧
    (failureReasonOf reached ≠ none → currentStep reached = .failed) := by
  intro reached
  have hinv : FailureInv node reached := failureInv_run (failureInv_start hprom) inputs
  refine ⟨fun hstep => ?_, fun hreason => ?_⟩
  · have hfailed : Quarantined node reached := by simpa only [FailureInv, hstep] using hinv
    refine ⟨hfailed, fun later => ?_, hfailed.not_selected⟩
    rw [runFrom, List.foldl_append]
    exact quarantined_run hfailed later
  · by_contra hstep
    unfold FailureInv at hinv
    split at hinv
    · contradiction
    all_goals first | exact hreason hinv | exact hreason hinv.reason_eq

namespace FailureWitness

/-- Quorum is lost and there is no node to promote. -/
def deserted : StepInput where
  engine := {
    drainNode := fun _ => .ok "drain-7".toList
    drainStatus := fun _ => .ok .complete
    quorumHealth := some false }
  clock := fun _ => "now".toList
  allNodes := []

theorem deserted_quarantined :
    currentStep (runFrom PromotionWitness.worker [deserted, deserted]).node = .failed ∧
      Quarantined PromotionWitness.worker
        (runFrom PromotionWitness.worker [deserted, deserted]).node :=
  ⟨rfl, ((runFrom_failed_quarantined rfl [deserted, deserted]).1 rfl).1⟩

end FailureWitness

end PromotionEngine

end PiCluster
