/-
The reconcile passes of the operator.  A topology pass counts roles, spawns a
promotion for the best candidate when masters are missing, and writes the
topology's status.  A node pass resumes the promotions it finds in flight.  Both
run the engine on clones of the nodes they listed; neither writes a node.
-/
import PiCluster.PromotionRun

namespace PiCluster

open Text CandidateSelector PromotionEngine

/-- The resources stored at the API server, in list order. -/
structure ApiServer where
  topologies : List ClusterTopology
  nodes : List PiNode

/-- A promotion spawned by a topology pass: its clone of the candidate, the node
list it was chosen from, and the loop's own step variable. -/
structure PromotionTask where
  candidate : PiNode
  snapshot : List PiNode
  currentStep : PromotionStep

namespace TopologyReconciler

def isMaster (node : PiNode) : Bool :=
  node.spec.desiredRole == .master || node.spec.desiredRole == .seed

def isWorker (node : PiNode) : Bool := node.spec.desiredRole == .worker

/-- The counters are `u8` and wrap. -/
def countRole (role : PiNode → Bool) (nodes : List PiNode) : UInt8 :=
  nodes.foldl (fun count node => if role node then count + 1 else count) 0

def masterCount : List PiNode → UInt8 := countRole isMaster

/-- A failed quorum query counts as healthy. -/
def quorumHealthy (quorum : Option Bool) : Bool := quorum.getD true

/-- `master_count < target_masters && quorum_healthy`. -/
def needsPromotion (nodes : List PiNode) (topo : ClusterTopology) (quorum : Option Bool) :
    Bool :=
  decide (masterCount nodes < topo.spec.targetMasterCount) && quorumHealthy quorum

def spawnPromotion (nodes : List PiNode) (topo : ClusterTopology) (quorum : Option Bool) :
    Option PromotionTask :=
  if needsPromotion nodes topo quorum then
    (selectBestCandidate nodes).map fun candidate => ⟨candidate, nodes, .selectingCandidate⟩
  else none

def seedRetired (nodes : List PiNode) (topo : ClusterTopology) : Bool :=
  if topo.spec.targetMasterCount ≤ masterCount nodes then
    match nodes.find? fun node => node.spec.hardwareSerial == topo.spec.seedNode with
    | some seedNode => seedNode.spec.desiredRole == .decommissioned
    | none => true
  else false

def topologyStatus (nodes : List PiNode) (topo : ClusterTopology) (quorum : Option Bool) :
    ClusterTopologyStatus where
  currentMasterCount := masterCount nodes
  currentWorkerCount := countRole isWorker nodes
  quorumHealthy := quorumHealthy quorum
  seedRetired := seedRetired nodes topo

/-- `patch_status` on the topology of that name; one without a name is skipped. -/
def patchStatus (topologies : List ClusterTopology) (topo : ClusterTopology)
    (status : ClusterTopologyStatus) : List ClusterTopology :=
  match topo.name with
  | none => topologies
  | some name => topologies.map fun stored =>
      if stored.name = some name then { stored with status := some status } else stored

/-- What the services answer during a topology pass, by the position of the
topology in the list. -/
structure TopologyAnswers where
  listsTopologies : Bool
  listsNodes : Bool
  quorum : Nat → Option Bool
  patches : Nat → Bool

/-- The promotions one pass spawns. -/
def spawned (api : ApiServer) (answers : TopologyAnswers) : List PromotionTask :=
  if answers.listsTopologies && answers.listsNodes then
    api.topologies.zipIdx.filterMap fun (topo, i) =>
      spawnPromotion api.nodes topo (answers.quorum i)
  else []

def reconcileTopology (api : ApiServer) (answers : TopologyAnswers) :
    ApiServer × List PromotionTask :=
  let patched :=
    if answers.listsTopologies && answers.listsNodes then
      api.topologies.zipIdx.foldl (fun topologies (topo, i) =>
        if answers.patches i then
          patchStatus topologies topo (topologyStatus api.nodes topo (answers.quorum i))
        else topologies) api.topologies
    else api.topologies
  ({ api with topologies := patched }, spawned api answers)

/-- The `in_flight` flag of a listed node. -/
def resumable (node : PiNode) : Bool :=
  ((promotionOf node).map fun prom =>
    prom.currentStep != .complete && prom.currentStep != .failed).getD false

/-- The engine a node pass runs and the clock, by the position of the node. -/
structure NodeAnswers where
  engine : Nat → PromotionEngine
  clock : Nat → Clock

/-- The step a pass makes for the node at position `i` of the list. -/
def resume (nodes : List PiNode) (answers : NodeAnswers) (i : Nat) (node : PiNode) :
    StepResult :=
  step (answers.engine i) (answers.clock i) node nodes

/-- `reconcile_nodes` with its API call succeeding: every step works on a clone
and its result is dropped, so the store is left as it is. -/
def reconcileNodes (api : ApiServer) (answers : NodeAnswers) :
    ApiServer × List (Nat × StepResult) :=
  (api, api.nodes.zipIdx.filterMap fun (node, i) =>
    if resumable node then some (i, resume api.nodes answers i node) else none)

/-- The stored node has the step, the drain handle and the spec of the result. -/
def Persisted (api : ApiServer) (i : Nat) (result : StepResult) : Prop :=
  ∃ stored, api.nodes[i]? = some stored ∧ currentStep stored = result.step ∧
    drainHandleOf stored = drainHandleOf result.node ∧ stored.spec = result.node.spec

/-- The engine has nothing to record for the node: quorum is healthy, somebody
else is the best candidate, or a drain with a stored handle is still running. -/
def Stalls (engine : PromotionEngine) (nodes : List PiNode) (node : PiNode) : Prop :=
  match currentStep node with
  | .detecting => engine.quorumHealth.getD true = true
  | .selectingCandidate => ∃ best, selectBestCandidate nodes = some best ∧
      best.spec.hardwareSerial ≠ node.spec.hardwareSerial
  | .evacuatingGfs => ∃ handle chunks, drainHandleOf node = some handle ∧
      engine.drainStatus handle = .ok (.inProgress chunks)
  | _ => False

theorem resumable_iff {node : PiNode} :
    resumable node = true ↔ (∃ prom, promotionOf node = some prom) ∧
      currentStep node ≠ .complete ∧ currentStep node ≠ .failed := by
  cases hprom : promotionOf node <;> simp [resumable, currentStep, hprom]

theorem mem_resumed {api : ApiServer} {answers : NodeAnswers} {i : Nat} {result : StepResult} :
    (i, result) ∈ (reconcileNodes api answers).2 ↔
      ∃ node, api.nodes[i]? = some node ∧ resumable node = true ∧
        result = resume api.nodes answers i node := by
  simp only [reconcileNodes, List.mem_filterMap, Prod.exists]
  constructor
  · rintro ⟨node, j, hmem, hresult⟩
    split at hresult
    · rename_i hresumable
      cases hresult
      exact ⟨node, List.mem_zipIdx_iff_getElem?.mp hmem, hresumable, rfl⟩
    · cases hresult
  · rintro ⟨node, hnode, hresumable, rfl⟩
    exact ⟨node, i, List.mem_zipIdx_iff_getElem?.mpr hnode, if_pos hresumable⟩

section Recorded

variable (engine : PromotionEngine) (clock : Clock) (nodes : List PiNode) (node : PiNode)

/-- What a pass would have to write differs in nothing from what is stored. -/
def Unchanged (result : StepResult) : Prop :=
  currentStep node = result.step ∧ drainHandleOf node = drainHandleOf result.node ∧
    node.spec = result.node.spec

theorem unchanged_awaitDrain_iff {handle : Str} (hstep : currentStep node = .evacuatingGfs)
    (calls : List GfsCall) :
    Unchanged node (awaitDrain engine clock node handle calls) ↔
      ∃ chunks, engine.drainStatus handle = .ok (.inProgress chunks) := by
  unfold awaitDrain
  simp only
  split <;> rename_i hanswer <;> simp [Unchanged, hstep, advance, abort, hanswer]

theorem unchanged_evacuate_iff (hstep : currentStep node = .evacuatingGfs) :
    Unchanged node (evacuate engine clock node (drainHandleOf node)) ↔
      ∃ handle chunks, drainHandleOf node = some handle ∧
        engine.drainStatus handle = .ok (.inProgress chunks) := by
  cases hhandle : drainHandleOf node with
  | some handle =>
      simp only [evacuate, unchanged_awaitDrain_iff engine clock node hstep,
        Option.some.injEq, exists_and_left, exists_eq_left']
  | none =>
      -- a drain is requested: the step either fails or obtains a handle
      have heffect := evacuate_effect engine clock hstep
      rw [hhandle] at heffect
      generalize evacuate engine clock node none = result at heffect
      refine ⟨fun hsame => ?_, fun ⟨_, _, hsome, _⟩ => by simp at hsome⟩
      exfalso
      obtain ⟨hsameStep, hsameHandle, _⟩ := hsame
      rw [hstep] at hsameStep
      cases heffect with
      | refused error failed hnone hspec hfailed => cases hsameStep
      | queried handle requests answer after hrequested hspec hafter =>
          rcases hafter with hfailed | ⟨_, hheld⟩ | ⟨hprepare, _⟩
          · simp [hfailed] at hsameStep
          · simp [hhandle, hheld] at hsameHandle
          · simp [hprepare] at hsameStep

theorem unchanged_step_iff (hresumable : resumable node = true) :
    Unchanged node (step engine clock node nodes) ↔ Stalls engine nodes node := by
  obtain ⟨_, hcomplete, hfailed⟩ := resumable_iff.mp hresumable
  unfold step Stalls
  simp only [getD_currentStep, getD_drainHandle]
  cases hstep : currentStep node with
  | detecting =>
      simp only
      split <;> rename_i hquorum <;> simp [Unchanged, hstep, advance, hquorum]
  | selectingCandidate =>
      simp only
      split <;> rename_i hbest
      · split <;> rename_i hserial <;> simp [Unchanged, hstep, advance, hbest, hserial]
      · simp [Unchanged, hstep, abort, hbest]
  | evacuatingGfs => exact unchanged_evacuate_iff engine clock node hstep
  | preparingDisk | reformattingDisk | promotingK3s | joiningEtcd | verifying =>
      simp [Unchanged, hstep, advance]
  | complete => exact absurd hstep hcomplete
  | failed => exact absurd hstep hfailed

/-- A stalled node is queried about its drain at most. -/
theorem countP_isDrainRequest_of_stalls (hstalls : Stalls engine nodes node) :
    (step engine clock node nodes).calls.countP isDrainRequest = 0 := by
  unfold Stalls at hstalls
  have heffect := step_effect engine clock node nodes
  generalize step engine clock node nodes = result at heffect
  cases heffect with
  | evacuating hbefore =>
      simp only [hbefore] at hstalls
      obtain ⟨handle, chunks, hhandle, hanswer⟩ := hstalls
      simp [hhandle, evacuate, awaitDrain, hanswer, advance, isDrainRequest]
  | moved | noCandidate | prepared | reformatted | joined | completed | stuck => rfl

end Recorded

/-- A pass leaves the outcome of its steps in the store exactly when no step had
anything to record, and then the next pass repeats no drain request either. -/
theorem reconcileNodes_persists_iff (api : ApiServer) (answers : NodeAnswers) :
    let stalled := ∀ i node, api.nodes[i]? = some node → resumable node = true →
      Stalls (answers.engine i) api.nodes node
    ((∀ i result, (i, result) ∈ (reconcileNodes api answers).2 →
        Persisted (reconcileNodes api answers).1 i result) ↔ stalled) ∧
      (stalled → ∀ i result, (i, result) ∈ (reconcileNodes api answers).2 →
        result.calls.countP isDrainRequest = 0) := by
  intro stalled
  refine ⟨⟨?_, ?_⟩, ?_⟩
  · intro hpersisted i node hnode hresumable
    obtain ⟨stored, hstored, hsame⟩ :=
      hpersisted i _ (mem_resumed.mpr ⟨node, hnode, hresumable, rfl⟩)
    obtain rfl : node = stored := Option.some.inj (hnode.symm.trans hstored)
    exact (unchanged_step_iff _ _ _ _ hresumable).mp hsame
  · intro hstalled i result hresult
    obtain ⟨node, hnode, hresumable, rfl⟩ := mem_resumed.mp hresult
    exact ⟨node, hnode, (unchanged_step_iff _ _ _ _ hresumable).mpr
      (hstalled i node hnode hresumable)⟩
  · intro hstalled i result hresult
    obtain ⟨node, hnode, hresumable, rfl⟩ := mem_resumed.mp hresult
    exact countP_isDrainRequest_of_stalls _ _ _ _ (hstalled i node hnode hresumable)

namespace ReconcileWitness

/-- A promotion that was stored right before its drain was requested. -/
def evacuating : PiNode :=
  { PromotionWitness.worker with status := some { PiNodeStatus.default with
      promotion := some (freshState PromotionWitness.worker .evacuatingGfs none
        "t0".toList "t1".toList) } }

def api : ApiServer := ⟨[], [evacuating]⟩

/-- Every drain is granted and none of them ends. -/
def answers : NodeAnswers where
  engine _ := {
    drainNode := fun _ => .ok "drain-7".toList
    drainStatus := fun _ => .ok (.inProgress 3)
    quorumHealth := some true }
  clock _ := fun _ => "now".toList

/-- The handle of the drain is not stored, and the next pass requests another. -/
theorem drain_repeated :
    ¬ (∀ i result, (i, result) ∈ (reconcileNodes api answers).2 →
        Persisted (reconcileNodes api answers).1 i result) ∧
      (reconcileNodes api answers).2.map (fun made => made.2.calls.countP isDrainRequest) =
        [1] ∧
      (reconcileNodes (reconcileNodes api answers).1 answers).2.map
        (fun made => made.2.calls.countP isDrainRequest) = [1] := by
  refine ⟨fun hpersisted => ?_, by decide, by decide⟩
  obtain ⟨stored, hstored, _, hhandle, _⟩ := hpersisted 0 _
    (mem_resumed.mpr ⟨evacuating, rfl, by decide, rfl⟩)
  obtain rfl : evacuating = stored := Option.some.inj hstored
  exact absurd hhandle (by decide)

end ReconcileWitness

end TopologyReconciler

end PiCluster
