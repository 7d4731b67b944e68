/-
The clients of the GFS master.  A drain is requested for a node and then queried
by its handle.  The production client grants every drain and reports it complete;
the simulated one counts the chunks of each drain down, one with every query.
-/
import Mathlib.Logic.Function.Basic
import PiCluster.Lib.StepRun
import PiCluster.PromotionRun

namespace PiCluster

open Text PromotionEngine

/-- A client answers from its state and moves on. -/
structure GfsAdminClient (σ : Type) where
  drainNode : σ → Str → Except GfsAdminError Str × σ
  drainStatus : σ → Str → Except GfsAdminError DrainStatus × σ

/-- The production client, with the random UUIDs it has not drawn yet. -/
structure GrpcGfsAdminClient where
  uuids : Nat → Str

def GrpcGfsAdminClient.admin : GfsAdminClient GrpcGfsAdminClient where
  drainNode client node :=
    (.ok ("gfs-drain-".toList ++ node ++ "-".toList ++ client.uuids 0),
      ⟨fun n => client.uuids (n + 1)⟩)
  drainStatus client _ := (.ok .complete, client)

structure MockGfsAdminClient where
  drains : Str → Option DrainStatus
  drainDelays : Str → Option Nat

namespace MockGfsAdminClient

def new : MockGfsAdminClient := ⟨fun _ => none, fun _ => none⟩

def setSimulatedChunks (client : MockGfsAdminClient) (node : Str) (chunks : Nat) :
    MockGfsAdminClient :=
  { client with drainDelays := Function.update client.drainDelays node (some chunks) }

def setSimulatedFailure (client : MockGfsAdminClient) (node reason : Str) :
    MockGfsAdminClient :=
  { client with drains := Function.update client.drains node (some (.failed reason)) }

def handleOf (node : Str) : Str := "mock-drain-".toList ++ node

def record (client : MockGfsAdminClient) (handle : Str) (status : DrainStatus) :
    MockGfsAdminClient :=
  { client with drains := Function.update client.drains handle (some status) }

def initialStatus (chunks : Nat) : DrainStatus :=
  if chunks = 0 then .complete else .inProgress chunks

/-- Failures are kept under the node's own name, drains under their handle. -/
def drainNode (client : MockGfsAdminClient) (node : Str) :
    Except GfsAdminError Str × MockGfsAdminClient :=
  match client.drains node with
  | some (.failed reason) => (.error (.drainFailed reason), client)
  | _ => (.ok (handleOf node),
      client.record (handleOf node) (initialStatus ((client.drainDelays node).getD 0)))

/-- A query moves one chunk; an unknown handle counts as complete. -/
def drainStatus (client : MockGfsAdminClient) (handle : Str) :
    Except GfsAdminError DrainStatus × MockGfsAdminClient :=
  match client.drains handle with
  | some (.inProgress chunksRemaining) =>
      if chunksRemaining ≤ 1 then (.ok .complete, client.record handle .complete)
      else (.ok (.inProgress (chunksRemaining - 1)),
        client.record handle (.inProgress (chunksRemaining - 1)))
  | some other => (.ok other, client)
  | none => (.ok .complete, client)

def admin : GfsAdminClient MockGfsAdminClient := ⟨drainNode, drainStatus⟩

end MockGfsAdminClient

namespace GfsAdminClient

variable {σ : Type} (client : GfsAdminClient σ)

def after (state : σ) : GfsCall → σ
  | .drainNode node _ => (client.drainNode state node).2
  | .drainStatus handle _ => (client.drainStatus state handle).2

/-- The answer of the call is the one the client gives in that state. -/
def Answers (state : σ) : GfsCall → Prop
  | .drainNode node answer => answer = (client.drainNode state node).1
  | .drainStatus handle answer => answer = (client.drainStatus state handle).1

/-- The state a status query of this step meets: without a persisted handle a
drain is requested first. -/
def requested (state : σ) (node : PiNode) : σ :=
  match drainHandleOf node with
  | some _ => state
  | none => (client.drainNode state node.spec.hardwareSerial).2

/-- The engine of one step on the node. -/
def engineAt (state : σ) (quorumHealth : Option Bool) (node : PiNode) : PromotionEngine where
  drainNode serial := (client.drainNode state serial).1
  drainStatus handle := (client.drainStatus (client.requested state node) handle).1
  quorumHealth := quorumHealth

theorem answers_drainStatus (state : σ) (quorumHealth : Option Bool) (node : PiNode)
    (handle : Str) : client.Answers (client.requested state node)
      (.drainStatus handle ((client.engineAt state quorumHealth node).drainStatus handle)) := rfl

theorem awaitDrain_calls (engine : PromotionEngine) (clock : Clock) (node : PiNode)
    (handle : Str) (calls : List GfsCall) :
    (awaitDrain engine clock node handle calls).calls =
      calls ++ [.drainStatus handle (engine.drainStatus handle)] := by
  unfold awaitDrain
  simp only
  split <;> rfl

/-- The answers a step records are those the client gives, one call after the
other. -/
theorem meets_step_calls (state : σ) (quorumHealth : Option Bool) (clock : Clock)
    (node : PiNode) (allNodes : List PiNode) :
    StepRun.Meets client.after client.Answers state
      (step (client.engineAt state quorumHealth node) clock node allNodes).calls := by
  have heffect := step_effect (client.engineAt state quorumHealth node) clock node allNodes
  generalize step (client.engineAt state quorumHealth node) clock node allNodes = result
    at heffect
  cases heffect with
  | evacuating hbefore =>
      have hquery := answers_drainStatus client state quorumHealth node
      unfold evacuate
      cases hhandle : drainHandleOf node with
      | some handle =>
          simp only [requested, hhandle] at hquery
          rw [awaitDrain_calls]
          exact ⟨hquery handle, trivial⟩
      | none =>
          simp only [requested, hhandle] at hquery
          simp only
          cases hanswer : (client.engineAt state quorumHealth node).drainNode
              node.spec.hardwareSerial with
          | ok handle =>
              simp only
              rw [awaitDrain_calls]
              exact ⟨hanswer.symm, hquery handle, trivial⟩
          | error e => exact ⟨hanswer.symm, trivial⟩
  | moved | noCandidate | prepared | reformatted | joined | completed | stuck => trivial

end GfsAdminClient

end PiCluster
