/-
The promotion engine.  Each call of `step` reads the snapshot in the node's
status, asks etcd or the GFS master at most what the current step needs, and
writes the next step back.  The answers of both services are inputs of a step,
so an engine replaced between two steps is just another input.
-/
import PiCluster.Candidate

namespace PiCluster

open Text

inductive GfsAdminError where
  | nodeNotFound (node : Str)
  | drainFailed (reason : Str)
  | transport (reason : Str)
  | invalidHandle (handle : Str)
deriving DecidableEq, Repr

def GfsAdminError.display : GfsAdminError → Str
  | .nodeNotFound node => "Node '".toList ++ node ++ "' not found in GFS master inventory".toList
  | .drainFailed reason => "Drain operation failed: ".toList ++ reason
  | .transport reason => "gRPC transport or communication error: ".toList ++ reason
  | .invalidHandle handle => "Drain handle '".toList ++ handle ++ "' not found or invalid".toList

inductive DrainStatus where
  | inProgress (chunksRemaining : Nat)
  | complete
  | failed (reason : Str)
deriving DecidableEq, Repr

/-- What the engine's clients answer during one step.  `quorumHealth` is `none`
when the etcd query fails. -/
structure PromotionEngine where
  drainNode : Str → Except GfsAdminError Str
  drainStatus : Str → Except GfsAdminError DrainStatus
  quorumHealth : Option Bool

/-- A request to the GFS master together with its answer. -/
inductive GfsCall where
  | drainNode (node : Str) (answer : Except GfsAdminError Str)
  | drainStatus (handle : Str) (answer : Except GfsAdminError DrainStatus)

structure StepResult where
  node : PiNode
  step : PromotionStep
  calls : List GfsCall

namespace PromotionEngine

/-- The successive readings of the wall clock during one step. -/
abbrev Clock := Nat → Str

def promotionOf (node : PiNode) : Option PromotionState :=
  node.status.bind PiNodeStatus.promotion

/-- The snapshot a missing promotion state is replaced by. -/
def freshState (node : PiNode) (step : PromotionStep) (failureReason : Option Str)
    (startedAt updatedAt : Str) : PromotionState where
  candidateNode := node.spec.hardwareSerial
  currentStep := step
  startedAt := startedAt
  updatedAt := updatedAt
  drainHandle := none
  failureReason := failureReason
  attemptCount := 1

def persistDrainHandle (clock : Clock) (node : PiNode) (handle : Str) : PiNode :=
  { node with status := node.status.map fun status =>
      { status with promotion := status.promotion.map fun prom =>
          { prom with drainHandle := some handle, updatedAt := clock 2 } } }

def updateFsmStep (clock : Clock) (node : PiNode) (nextStep : PromotionStep) : PiNode :=
  let status := node.status.getD .default
  let prom := status.promotion.getD (freshState node nextStep none (clock 3) (clock 4))
  { node with status := some { status with
      promotion := some { prom with currentStep := nextStep, updatedAt := clock 5 } } }

def failFsm (clock : Clock) (node : PiNode) (reason : Str) : PiNode :=
  let status := node.status.getD .default
  let prom := status.promotion.getD
    (freshState node .failed (some reason) (clock 6) (clock 7))
  { node with status := some { status with
      promotion := some { prom with
        currentStep := .failed, failureReason := some reason, updatedAt := clock 8 }
      phase := .failed } }

/-- The end of a step that does not fail. -/
def advance (clock : Clock) (node : PiNode) (nextStep : PromotionStep)
    (calls : List GfsCall) : StepResult :=
  ⟨updateFsmStep clock node nextStep, nextStep, calls⟩

/-- The early return through `fail_fsm`. -/
def abort (clock : Clock) (node : PiNode) (reason : Str) (calls : List GfsCall) :
    StepResult :=
  ⟨failFsm clock node reason, .failed, calls⟩

/-- The second half of `EvacuatingGfs`: query the drain and act on its status. -/
def awaitDrain (engine : PromotionEngine) (clock : Clock) (node : PiNode) (handle : Str)
    (calls : List GfsCall) : StepResult :=
  let calls := calls ++ [.drainStatus handle (engine.drainStatus handle)]
  match engine.drainStatus handle with
  | .ok .complete => advance clock node .preparingDisk calls
  | .ok (.inProgress _) => advance clock node .evacuatingGfs calls
  | .ok (.failed reason) => abort clock node ("GFS drain failed: ".toList ++ reason) calls
  | .error e => abort clock node ("GFS drain status query error: ".toList ++ e.display) calls

/-- `EvacuatingGfs`: request a drain unless a handle is already persisted. -/
def evacuate (engine : PromotionEngine) (clock : Clock) (node : PiNode)
    (drainHandle : Option Str) : StepResult :=
  match drainHandle with
  | some handle => awaitDrain engine clock node handle []
  | none =>
      let request := GfsCall.drainNode node.spec.hardwareSerial
        (engine.drainNode node.spec.hardwareSerial)
      match engine.drainNode node.spec.hardwareSerial with
      | .ok handle =>
          awaitDrain engine clock (persistDrainHandle clock node handle) handle [request]
      | .error e =>
          abort clock node ("Failed to initiate GFS drain: ".toList ++ e.display) [request]

/-- `Verifying` and `Complete` mark the storage as mounted. -/
def markReady (node : PiNode) : PiNode :=
  { node with status := node.status.map fun status =>
      { status with phase := .ready, diskState := .mountedEtcd } }

def confirmMaster (node : PiNode) : PiNode :=
  { node with spec := { node.spec with desiredRole := .master, reformatConfirmed := true } }

/-- One step of the engine.  The source wraps the step in a `Result` that is
always `Ok`. -/
def step (engine : PromotionEngine) (clock : Clock) (node : PiNode)
    (allNodes : List PiNode) : StepResult :=
  let currentState := (promotionOf node).getD
    (freshState node .detecting none (clock 0) (clock 1))
  match currentState.currentStep with
  | .detecting =>
      if engine.quorumHealth.getD true then advance clock node .detecting []
      else advance clock node .selectingCandidate []
  | .selectingCandidate =>
      match CandidateSelector.selectBestCandidate allNodes with
      | some candidate =>
          if candidate.spec.hardwareSerial = node.spec.hardwareSerial then
            advance clock node .evacuatingGfs []
          else advance clock node .selectingCandidate []
      | none =>
          abort clock node "No eligible Worker candidate found for promotion".toList []
  | .evacuatingGfs => evacuate engine clock node currentState.drainHandle
  | .preparingDisk => advance clock node .reformattingDisk []
  | .reformattingDisk => advance clock (confirmMaster node) .promotingK3s []
  | .promotingK3s => advance clock node .joiningEtcd []
  | .joiningEtcd => advance clock node .verifying []
  | .verifying => advance clock (markReady node) .complete []
  | .complete => advance clock (markReady node) .complete []
  | .failed => advance clock node .failed []

end PromotionEngine

end PiCluster
