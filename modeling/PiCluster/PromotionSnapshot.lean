/-
What a promotion writes over its whole run.  The node is at every point the one it
started from, with a snapshot in its status and the role, the phase and the disk
state that the snapshot's step calls for, so a promotion can be resumed from the
snapshot alone.
-/
import PiCluster.ClusterPromotion

namespace PiCluster

namespace PromotionEngine

open Text

/-- The spec a promotion has reached at a step. -/
def specAt (spec : PiNodeSpec) (step : PromotionStep) : PiNodeSpec :=
  if promoted step then { spec with desiredRole := .master, reformatConfirmed := true }
  else spec

def phaseAt (phase : NodePhase) : PromotionStep → NodePhase
  | .complete => .ready
  | .failed => .failed
  | _ => phase

def diskAt (disk : DiskState) : PromotionStep → DiskState
  | .complete => .mountedEtcd
  | _ => disk

/-- The node a promotion started from, with the snapshot and what follows from it. -/
def nodeAt (start : PiNode) (prom : PromotionState) : PiNode where
  spec := specAt start.spec prom.currentStep
  status := some { start.status.getD .default with
    promotion := some prom
    phase := phaseAt (start.status.getD .default).phase prom.currentStep
    diskState := diskAt (start.status.getD .default).diskState prom.currentStep }

/-- What a snapshot says about its promotion, whatever step it is at. -/
structure SnapshotOk (start : PiNode) (startedAt : Str) (prom : PromotionState) : Prop where
  candidateNode : prom.candidateNode = start.spec.hardwareSerial
  startedAt : prom.startedAt = startedAt
  attemptCount : prom.attemptCount = 1
  failureReason : prom.failureReason.isSome = true ↔ prom.currentStep = .failed

/-- A later snapshot of the same promotion. -/
structure Continues (before after : PromotionState) : Prop where
  candidateNode : after.candidateNode = before.candidateNode
  startedAt : after.startedAt = before.startedAt
  attemptCount : after.attemptCount = before.attemptCount
  drainHandle : ∀ handle, before.drainHandle = some handle → after.drainHandle = some handle
  failureReason : (before.failureReason.isSome = true ↔ before.currentStep = .failed) →
    (after.failureReason.isSome = true ↔ after.currentStep = .failed)

section Writers

variable (start : PiNode) (clock : Clock) {prom : PromotionState}

/-- The snapshot after a step that does not fail. -/
def touched (clock : Clock) (prom : PromotionState) (next : PromotionStep) : PromotionState :=
  { prom with currentStep := next, updatedAt := clock 5 }

theorem Continues.touched {next : PromotionStep}
    (hnext : next = .failed ↔ prom.currentStep = .failed) :
    Continues prom (touched clock prom next) where
  candidateNode := rfl
  startedAt := rfl
  attemptCount := rfl
  drainHandle _ hhandle := hhandle
  failureReason hreason := hreason.trans hnext.symm

theorem Continues.persisted {before after : PromotionState} {handle : Str}
    (hnone : before.drainHandle = none)
    (hafter : Continues { before with drainHandle := some handle, updatedAt := clock 2 } after) :
    Continues before after where
  candidateNode := hafter.candidateNode
  startedAt := hafter.startedAt
  attemptCount := hafter.attemptCount
  drainHandle held hheld := by
    rw [hnone] at hheld
    cases hheld
  failureReason := hafter.failureReason

/-- Between steps that call for the same role, phase and disk state. -/
theorem updateFsmStep_nodeAt {next : PromotionStep}
    (hpromoted : promoted next = promoted prom.currentStep)
    (hphase : ∀ phase, phaseAt phase next = phaseAt phase prom.currentStep)
    (hdisk : ∀ disk, diskAt disk next = diskAt disk prom.currentStep) :
    updateFsmStep clock (nodeAt start prom) next = nodeAt start (touched clock prom next) := by
  simp [updateFsmStep, nodeAt, touched, specAt, hpromoted, hphase, hdisk]

theorem failFsm_nodeAt (hpromoted : promoted prom.currentStep = false)
    (hdisk : ∀ disk, diskAt disk prom.currentStep = disk) (reason : Str) :
    failFsm clock (nodeAt start prom) reason = nodeAt start { prom with
      currentStep := .failed, failureReason := some reason, updatedAt := clock 8 } := by
  have hfailed : promoted .failed = false := rfl
  have hphase : ∀ phase, phaseAt phase .failed = .failed := fun _ => rfl
  have hkept : ∀ disk, diskAt disk .failed = disk := fun _ => rfl
  simp [failFsm, nodeAt, specAt, hpromoted, hdisk, hfailed, hphase, hkept]

theorem persistDrainHandle_nodeAt (handle : Str) :
    persistDrainHandle clock (nodeAt start prom) handle =
      nodeAt start { prom with drainHandle := some handle, updatedAt := clock 2 } := rfl

theorem confirmMaster_nodeAt (hstep : prom.currentStep = .reformattingDisk) :
    updateFsmStep clock (confirmMaster (nodeAt start prom)) .promotingK3s =
      nodeAt start (touched clock prom .promotingK3s) := by
  simp [updateFsmStep, confirmMaster, nodeAt, touched, specAt, hstep, promoted, joins, phaseAt,
    diskAt]

theorem markReady_nodeAt (hpromoted : promoted prom.currentStep = true) :
    updateFsmStep clock (markReady (nodeAt start prom)) .complete =
      nodeAt start (touched clock prom .complete) := by
  have hcomplete : promoted .complete = true := rfl
  simp [updateFsmStep, markReady, nodeAt, touched, specAt, hpromoted, hcomplete, phaseAt, diskAt]

/-- The snapshot of a promotion that fails. -/
theorem exists_failFsm (prom : PromotionState)
    (hpromoted : promoted prom.currentStep = false)
    (hdisk : ∀ disk, diskAt disk prom.currentStep = disk) (reason : Str) :
    ∃ after, failFsm clock (nodeAt start prom) reason = nodeAt start after ∧
      Continues prom after := by
  refine ⟨_, failFsm_nodeAt start clock hpromoted hdisk reason, ?_⟩
  exact ⟨rfl, rfl, rfl, fun _ hhandle => hhandle, fun _ => by simp⟩

/-- The snapshot of a promotion that goes on without a change to the node. -/
theorem exists_updateFsmStep (prom : PromotionState) (next : PromotionStep)
    (hpromoted : promoted next = promoted prom.currentStep)
    (hfailed : next = .failed ↔ prom.currentStep = .failed)
    (hphase : ∀ phase, phaseAt phase next = phaseAt phase prom.currentStep)
    (hdisk : ∀ disk, diskAt disk next = diskAt disk prom.currentStep) :
    ∃ after, updateFsmStep clock (nodeAt start prom) next = nodeAt start after ∧
      Continues prom after :=
  ⟨_, updateFsmStep_nodeAt start clock hpromoted hphase hdisk, Continues.touched clock hfailed⟩

section Evacuating

variable (engine : PromotionEngine)

theorem awaitDrain_nodeAt (prom : PromotionState) (hstep : prom.currentStep = .evacuatingGfs)
    (handle : Str) (calls : List GfsCall) :
    ∃ after, (awaitDrain engine clock (nodeAt start prom) handle calls).node =
      nodeAt start after ∧ Continues prom after := by
  have hfail := exists_failFsm start clock prom (by rw [hstep]; rfl)
    fun _ => by rw [hstep]; rfl
  have hmove := exists_updateFsmStep start clock prom
  simp only [hstep] at hmove
  unfold awaitDrain
  simp only
  split
  · exact hmove .preparingDisk rfl (by simp) (fun _ => rfl) fun _ => rfl
  · exact hmove .evacuatingGfs rfl (by simp) (fun _ => rfl) fun _ => rfl
  · exact hfail _
  · exact hfail _

theorem evacuate_nodeAt (prom : PromotionState) (hstep : prom.currentStep = .evacuatingGfs) :
    ∃ after, (evacuate engine clock (nodeAt start prom) prom.drainHandle).node =
      nodeAt start after ∧ Continues prom after := by
  unfold evacuate
  cases hhandle : prom.drainHandle with
  | some handle => exact awaitDrain_nodeAt start clock engine prom hstep handle []
  | none =>
      simp only
      cases hanswer : engine.drainNode (nodeAt start prom).spec.hardwareSerial with
      | ok handle =>
          simp only [persistDrainHandle_nodeAt]
          obtain ⟨after, hnode, hafter⟩ := awaitDrain_nodeAt start clock engine
            { prom with drainHandle := some handle, updatedAt := clock 2 } hstep handle
            [.drainNode (nodeAt start prom).spec.hardwareSerial (.ok handle)]
          exact ⟨after, hnode, hafter.persisted clock hhandle⟩
      | error e =>
          exact exists_failFsm start clock prom (by rw [hstep]; rfl) (fun _ => by rw [hstep]; rfl) _

end Evacuating

end Writers

/-- A step writes the next snapshot and what follows from it, and nothing else. -/
theorem step_nodeAt (engine : PromotionEngine) (clock : Clock) (start : PiNode)
    (prom : PromotionState) (allNodes : List PiNode) :
    ∃ after, (step engine clock (nodeAt start prom) allNodes).node = nodeAt start after ∧
      Continues prom after := by
  have hmove := exists_updateFsmStep start clock prom
  have hprom : promotionOf (nodeAt start prom) = some prom := rfl
  unfold step
  simp only [hprom, Option.getD_some]
  cases hstep : prom.currentStep with
  | detecting =>
      simp only [hstep] at hmove
      simp only
      split
      · exact hmove .detecting rfl (by simp) (fun _ => rfl) fun _ => rfl
      · exact hmove .selectingCandidate rfl (by simp) (fun _ => rfl) fun _ => rfl
  | selectingCandidate =>
      have hfail := exists_failFsm start clock prom (by rw [hstep]; rfl)
        fun _ => by rw [hstep]; rfl
      simp only [hstep] at hmove
      simp only
      split
      · split
        · exact hmove .evacuatingGfs rfl (by simp) (fun _ => rfl) fun _ => rfl
        · exact hmove .selectingCandidate rfl (by simp) (fun _ => rfl) fun _ => rfl
      · exact hfail _
  | evacuatingGfs => exact evacuate_nodeAt start clock engine prom hstep
  | preparingDisk =>
      simp only [hstep] at hmove
      exact hmove .reformattingDisk rfl (by simp) (fun _ => rfl) fun _ => rfl
  | reformattingDisk =>
      exact ⟨_, confirmMaster_nodeAt start clock hstep, Continues.touched clock (by simp [hstep])⟩
  | promotingK3s =>
      simp only [hstep] at hmove
      exact hmove .joiningEtcd rfl (by simp) (fun _ => rfl) fun _ => rfl
  | joiningEtcd =>
      simp only [hstep] at hmove
      exact hmove .verifying rfl (by simp) (fun _ => rfl) fun _ => rfl
  | verifying =>
      exact ⟨_, markReady_nodeAt start clock (by rw [hstep]; rfl),
        Continues.touched clock (by simp [hstep])⟩
  | complete =>
      exact ⟨_, markReady_nodeAt start clock (by rw [hstep]; rfl),
        Continues.touched clock (by simp [hstep])⟩
  | failed =>
      simp only [hstep] at hmove
      exact hmove .failed rfl (by simp) (fun _ => rfl) fun _ => rfl

theorem Continues.refl (prom : PromotionState) : Continues prom prom :=
  ⟨rfl, rfl, rfl, fun _ hhandle => hhandle, id⟩

theorem Continues.trans {before middle after : PromotionState} (hfirst : Continues before middle)
    (hsecond : Continues middle after) : Continues before after where
  candidateNode := hsecond.candidateNode.trans hfirst.candidateNode
  startedAt := hsecond.startedAt.trans hfirst.startedAt
  attemptCount := hsecond.attemptCount.trans hfirst.attemptCount
  drainHandle handle hhandle := hsecond.drainHandle handle (hfirst.drainHandle handle hhandle)
  failureReason hreason := hsecond.failureReason (hfirst.failureReason hreason)

theorem SnapshotOk.continues {start : PiNode} {startedAt : Str} {before after : PromotionState}
    (hbefore : SnapshotOk start startedAt before) (hcontinues : Continues before after) :
    SnapshotOk start startedAt after where
  candidateNode := hcontinues.candidateNode.trans hbefore.candidateNode
  startedAt := hcontinues.startedAt.trans hbefore.startedAt
  attemptCount := hcontinues.attemptCount.trans hbefore.attemptCount
  failureReason := hcontinues.failureReason hbefore.failureReason

/-- The first step writes the first snapshot. -/
theorem step_first {node : PiNode} (hprom : promotionOf node = none) (engine : PromotionEngine)
    (clock : Clock) (allNodes : List PiNode) :
    ∃ prom, (step engine clock node allNodes).node = nodeAt node prom ∧
      SnapshotOk node (clock 3) prom := by
  have hwrite : ∀ next, promoted next = false → next ≠ .failed →
      (∀ phase, phaseAt phase next = phase) → (∀ disk, diskAt disk next = disk) →
      ∃ prom, updateFsmStep clock node next = nodeAt node prom ∧
        SnapshotOk node (clock 3) prom := by
    intro next hpromoted hfailed hphase hdisk
    have hnone : (node.status.getD .default).promotion = none := by
      cases hstatus : node.status with
      | none => rfl
      | some status => simpa [promotionOf, hstatus] using hprom
    refine ⟨touched clock (freshState node next none (clock 3) (clock 4)) next, ?_, ?_⟩
    · simp [updateFsmStep, nodeAt, touched, specAt, hnone, hpromoted, hphase, hdisk]
    · exact ⟨rfl, rfl, rfl, by simp [touched, freshState, hfailed]⟩
  unfold step
  simp only [hprom, Option.getD_none, freshState]
  split
  · exact hwrite .detecting rfl (by decide) (fun _ => rfl) fun _ => rfl
  · exact hwrite .selectingCandidate rfl (by decide) (fun _ => rfl) fun _ => rfl

theorem foldl_nodeAt (start : PiNode) (inputs : List StepInput) {prom : PromotionState}
    {run : Run} (hrun : run.node = nodeAt start prom) :
    ∃ after, (inputs.foldl Run.next run).node = nodeAt start after ∧ Continues prom after := by
  induction inputs generalizing run prom with
  | nil => exact ⟨prom, hrun, Continues.refl prom⟩
  | cons input rest ih =>
      obtain ⟨middle, hmiddle, hfirst⟩ :=
        step_nodeAt input.engine input.clock start prom input.allNodes
      have hnext : (run.next input).node = nodeAt start middle := by
        rw [Run.next, hrun]
        exact hmiddle
      obtain ⟨after, hafter, hrest⟩ := ih hnext
      exact ⟨after, hafter, hfirst.trans hrest⟩

/-- A promotion's whole effect.  At any two points of a run the node is the one it
started from with a snapshot of this promotion, and what the snapshot's step calls
for; the later snapshot continues the earlier one. -/
theorem runFrom_accounts {node : PiNode} (hprom : promotionOf node = none) (first : StepInput)
    (earlier later : List StepInput) :
    ∃ before after,
      (runFrom node (first :: earlier)).node = nodeAt node before ∧
      (runFrom node (first :: (earlier ++ later))).node = nodeAt node after ∧
      SnapshotOk node (first.clock 3) after ∧ Continues before after := by
  obtain ⟨prom, hfirst, hok⟩ := step_first hprom first.engine first.clock first.allNodes
  have hstart : (Run.next ⟨node, []⟩ first).node = nodeAt node prom := hfirst
  obtain ⟨before, hbefore, hcontinues⟩ := foldl_nodeAt node earlier hstart
  obtain ⟨after, hafter, hlater⟩ := foldl_nodeAt node later hbefore
  refine ⟨before, after, hbefore, ?_, hok.continues (hcontinues.trans hlater), hlater⟩
  rw [runFrom, List.foldl_cons, List.foldl_append]
  exact hafter

namespace SnapshotWitness

open PromotionWitness

/-- The drain handle stays, and the role, the phase and the disk state follow. -/
theorem promoted_worker_accounted :
    ∃ before after,
      (runFrom worker (lostQuorum :: List.replicate 2 lostQuorum)).node = nodeAt worker before ∧
      (runFrom worker (lostQuorum :: (List.replicate 2 lostQuorum ++
        List.replicate 6 lostQuorum))).node = nodeAt worker after ∧
      SnapshotOk worker (lostQuorum.clock 3) after ∧ Continues before after :=
  runFrom_accounts rfl lostQuorum (List.replicate 2 lostQuorum) (List.replicate 6 lostQuorum)

end SnapshotWitness

/-- The place of a step on the way to completion. -/
def place : PromotionStep → Nat
  | .detecting => 0
  | .selectingCandidate => 1
  | .evacuatingGfs => 2
  | .preparingDisk => 3
  | .reformattingDisk => 4
  | .promotingK3s => 5
  | .joiningEtcd => 6
  | .verifying => 7
  | .complete => 8
  | .failed => 9

theorem place_successor {before after : PromotionStep}
    (hsuccessor : successor before = some after) : place after = place before + 1 := by
  cases before <;> simp only [successor, Option.some.injEq, reduceCtorEq] at hsuccessor <;>
    subst hsuccessor <;> rfl

theorem place_injective : Function.Injective place := by
  intro left right heq
  cases left <;> cases right <;> first | rfl | cases heq

theorem place_le (step : PromotionStep) : place step ≤ place .failed := by
  cases step <;> decide

/-- A promotion fails while it selects its candidate or drains. -/
theorem failed_next {run : Run} {input : StepInput}
    (hfailed : currentStep (run.next input).node = .failed) :
    currentStep run.node = .selectingCandidate ∨ currentStep run.node = .evacuatingGfs ∨
      currentStep run.node = .failed := by
  have heffect := step_effect input.engine input.clock run.node input.allNodes
  unfold Run.next at hfailed
  generalize step input.engine input.clock run.node input.allNodes = result at heffect hfailed
  cases heffect with
  | evacuating hbefore => exact .inr (.inl hbefore)
  | noCandidate reason hbefore => exact .inl hbefore
  | stuck hbefore => exact .inr (.inr hbefore)
  | moved next hnext hbefore =>
      obtain rfl : next = .failed := hfailed
      rcases next_of_early hbefore hnext with hearly | hearly | hearly <;> cases hearly
  | joined next hnext hbefore =>
      obtain rfl : next = .failed := hfailed
      rcases hbefore with hbefore | hbefore <;> rw [hbefore] at hnext <;> cases hnext
  | prepared | reformatted | completed => cases hfailed

theorem place_le_next (run : Run) (input : StepInput) :
    place (currentStep run.node) ≤ place (currentStep (run.next input).node) := by
  rcases follows_next run input with hsame | hsuccessor | hfailed
  · rw [hsame]
  · rw [place_successor hsuccessor]
    exact Nat.le_succ _
  · rw [hfailed]
    exact place_le _

/-- The step a run has reached after some of its inputs. -/
def stepAfter (node : PiNode) (inputs : List StepInput) : PromotionStep :=
  currentStep (runFrom node inputs).node

theorem stepAfter_snoc (node : PiNode) (inputs : List StepInput) (input : StepInput) :
    stepAfter node (inputs ++ [input]) =
      currentStep ((runFrom node inputs).next input).node := by
  rw [stepAfter, runFrom_snoc]

theorem place_stepAfter_le (node : PiNode) (inputs : List StepInput) (input : StepInput) :
    place (stepAfter node inputs) ≤ place (stepAfter node (inputs ++ [input])) := by
  rw [stepAfter_snoc]
  exact place_le_next (runFrom node inputs) input

section Order

variable {node : PiNode} {inputs : List StepInput}

theorem stepAfter_nil (hprom : promotionOf node = none) : stepAfter node [] = .detecting := by
  simp [stepAfter, runFrom, currentStep, hprom]

theorem place_mono {past : List StepInput} (hpast : past <+: inputs) :
    place (stepAfter node past) ≤ place (stepAfter node inputs) := by
  induction inputs using List.reverseRecOn with
  | nil => rw [List.prefix_nil.mp hpast]
  | append_singleton init last ih =>
      rcases List.prefix_concat_iff.mp hpast with rfl | hpast
      · exact le_refl _
      · exact (ih hpast).trans (place_stepAfter_le node init last)

theorem not_failed_of_snoc {last : StepInput} (hnot : stepAfter node (inputs ++ [last]) ≠ .failed) :
    stepAfter node inputs ≠ .failed := by
  intro hfailed
  have hle := place_stepAfter_le node inputs last
  rw [hfailed] at hle
  exact hnot (place_injective (Nat.le_antisymm (place_le _) hle))

/-- One more input leads at most one place on. -/
theorem place_snoc_le {last : StepInput} (hnot : stepAfter node (inputs ++ [last]) ≠ .failed) :
    place (stepAfter node (inputs ++ [last])) ≤ place (stepAfter node inputs) + 1 := by
  rw [stepAfter_snoc] at hnot ⊢
  rcases follows_next (runFrom node inputs) last with hsame | hsuccessor | hfailed
  · rw [hsame]
    exact Nat.le_succ _
  · exact (place_successor hsuccessor).le
  · exact absurd hfailed hnot

/-- Where a promotion stands, it has been at every step before. -/
theorem exists_visited (hprom : promotionOf node = none) (hnot : stepAfter node inputs ≠ .failed)
    {step : PromotionStep} (hstep : place step ≤ place (stepAfter node inputs)) :
    ∃ past, past <+: inputs ∧ stepAfter node past = step := by
  induction inputs using List.reverseRecOn with
  | nil =>
      rw [stepAfter_nil hprom] at hstep
      have hzero : place step = place .detecting := Nat.le_zero.mp hstep
      exact ⟨[], List.prefix_refl [], (stepAfter_nil hprom).trans (place_injective hzero).symm⟩
  | append_singleton init last ih =>
      by_cases hearlier : place step ≤ place (stepAfter node init)
      · obtain ⟨past, hpast, hreached⟩ := ih (not_failed_of_snoc hnot) hearlier
        exact ⟨past, hpast.trans (List.prefix_append init [last]), hreached⟩
      · -- only the last input can have led there
        have hnext := place_snoc_le hnot
        refine ⟨init ++ [last], List.prefix_refl _, place_injective ?_⟩
        omega

theorem exists_failing (hprom : promotionOf node = none)
    (hfailed : stepAfter node inputs = .failed) :
    ∃ past, past <+: inputs ∧
      (stepAfter node past = .selectingCandidate ∨ stepAfter node past = .evacuatingGfs) := by
  induction inputs using List.reverseRecOn with
  | nil =>
      rw [stepAfter_nil hprom] at hfailed
      cases hfailed
  | append_singleton init last ih =>
      have hinit : init <+: init ++ [last] := List.prefix_append init [last]
      rw [stepAfter_snoc] at hfailed
      rcases failed_next hfailed with hbefore | hbefore | hbefore
      · exact ⟨init, hinit, .inl hbefore⟩
      · exact ⟨init, hinit, .inr hbefore⟩
      · obtain ⟨past, hpast, hfailing⟩ := ih hbefore
        exact ⟨past, hpast.trans hinit, hfailing⟩

end Order

/-- A promotion passes through its steps in order.  It never goes back; where it
stands, it has been at every step before; and if it failed, it did so from the
selection or the drain. -/
theorem runFrom_in_order {node : PiNode} (hprom : promotionOf node = none)
    (inputs : List StepInput) :
    (∀ past, past <+: inputs →
      place (stepAfter node past) ≤ place (stepAfter node inputs)) ∧
    (stepAfter node inputs ≠ .failed → ∀ step, place step ≤ place (stepAfter node inputs) →
      ∃ past, past <+: inputs ∧ stepAfter node past = step) ∧
    (stepAfter node inputs = .failed → ∃ past, past <+: inputs ∧
      (stepAfter node past = .selectingCandidate ∨ stepAfter node past = .evacuatingGfs)) :=
  ⟨fun _ hpast => place_mono hpast, fun hnot _ hstep => exists_visited hprom hnot hstep,
    fun hfailed => exists_failing hprom hfailed⟩

namespace OrderWitness

open PromotionWitness

/-- A worker that was promoted has been verified on the way. -/
theorem promoted_worker_was_verified :
    stepAfter worker (List.replicate 9 lostQuorum) = .complete ∧
      ∃ past, past <+: List.replicate 9 lostQuorum ∧ stepAfter worker past = .verifying := by
  have hcomplete : stepAfter worker (List.replicate 9 lostQuorum) = .complete := by decide
  refine ⟨hcomplete, (runFrom_in_order rfl (List.replicate 9 lostQuorum)).2.1 ?_ .verifying ?_⟩
  · rw [hcomplete]
    decide
  · rw [hcomplete]
    decide

end OrderWitness

end PromotionEngine

end PiCluster
