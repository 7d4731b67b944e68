/-
Promotions across a cluster.  Every node runs the same engine on the same list,
and nothing but the recomputed best candidate keeps a second promotion from
starting.  That holds while the first one drains; once it has rewritten the
node's role, the node no longer counts and the next best one is free to go.
-/
import PiCluster.Lib.StepRun
import PiCluster.PromotionFailure

namespace PiCluster

namespace PromotionEngine

open Text CandidateSelector

/-- The steps of a chosen node that is still a worker. -/
def drains : PromotionStep → Bool
  | .evacuatingGfs | .preparingDisk | .reformattingDisk => true
  | _ => false

/-- The steps of a node that became a master and is not yet verified. -/
def joins : PromotionStep → Bool
  | .promotingK3s | .joiningEtcd | .verifying => true
  | _ => false

/-- The steps after the role was rewritten. -/
def promoted (step : PromotionStep) : Bool := joins step || step == .complete

/-- A promotion that has chosen its node and is not over. -/
def inFlight (node : PiNode) : Bool := drains (currentStep node) || joins (currentStep node)

/-- One call of the engine: which node it is for and what the services answer. -/
structure ClusterEvent where
  serial : Str
  engine : PromotionEngine
  clock : Clock

/-- The node's entry after the call. -/
def ClusterEvent.change (event : ClusterEvent) (nodes : List PiNode) (node : PiNode) : PiNode :=
  if node.spec.hardwareSerial = event.serial then
    (step event.engine event.clock node nodes).node
  else node

/-- The call receives the current cluster and writes the node back. -/
def clusterStep (nodes : List PiNode) (event : ClusterEvent) : List PiNode :=
  nodes.map (event.change nodes)

/-- The best candidate does not leave `SelectingCandidate` while another node,
already a master, is still being promoted. -/
def OneAtATime (nodes : List PiNode) (event : ClusterEvent) : Prop :=
  ∀ node ∈ nodes, node.spec.hardwareSerial = event.serial →
    currentStep node = .selectingCandidate → selectBestCandidate nodes = some node →
    ∀ other ∈ nodes, joins (currentStep other) = false

instance (nodes : List PiNode) (event : ClusterEvent) : Decidable (OneAtATime nodes event) :=
  inferInstanceAs (Decidable (∀ node ∈ nodes, node.spec.hardwareSerial = event.serial →
    currentStep node = .selectingCandidate → selectBestCandidate nodes = some node →
    ∀ other ∈ nodes, joins (currentStep other) = false))

/-- The nodes no step has chosen yet. -/
def Unchosen (node : PiNode) : Prop :=
  currentStep node = .detecting ∨ currentStep node = .selectingCandidate ∨
    currentStep node = .failed

section Standing

variable (clock : Clock) (node : PiNode)

@[simp] theorem phase_updateFsmStep (next : PromotionStep) :
    phase (updateFsmStep clock node next) = phase node := by
  rcases node with ⟨spec, _ | status⟩ <;> rfl

@[simp] theorem phase_persistDrainHandle (handle : Str) :
    phase (persistDrainHandle clock node handle) = phase node := by
  rcases node with ⟨spec, _ | status⟩ <;> rfl

@[simp] theorem isEligible_updateFsmStep (next : PromotionStep) :
    isEligible (updateFsmStep clock node next) = isEligible node := by
  simp [isEligible]

@[simp] theorem isEligible_persistDrainHandle (handle : Str) :
    isEligible (persistDrainHandle clock node handle) = isEligible node := by
  simp [isEligible]

@[simp] theorem score_updateFsmStep (next : PromotionStep) :
    score (updateFsmStep clock node next) = score node := by
  simp [score]

@[simp] theorem score_persistDrainHandle (handle : Str) :
    score (persistDrainHandle clock node handle) = score node := by
  simp [score]

@[simp] theorem isEligible_failFsm (reason : Str) :
    isEligible (failFsm clock node reason) = false := by
  simp [isEligible, phase, failFsm]

theorem isEligible_of_master (hmaster : node.spec.desiredRole = .master) :
    isEligible node = false := by
  simp [isEligible, hmaster]

end Standing

/-- What a call can do to a node's standing in the selection: nothing, or end it. -/
def StandingKept (before after : PiNode) : Prop :=
  isEligible after = isEligible before ∧ score after = score before

theorem awaitDrain_standing (engine : PromotionEngine) (clock : Clock) {before node : PiNode}
    (hkept : StandingKept before node) (handle : Str) (calls : List GfsCall) :
    let after := (awaitDrain engine clock node handle calls).node
    StandingKept before after ∨ currentStep after = .failed ∧ isEligible after = false := by
  unfold awaitDrain
  simp only
  split
  · exact Or.inl (by simpa [StandingKept, advance] using hkept)
  · exact Or.inl (by simpa [StandingKept, advance] using hkept)
  · exact Or.inr ⟨rfl, isEligible_failFsm ..⟩
  · exact Or.inr ⟨rfl, isEligible_failFsm ..⟩

theorem evacuate_standing (engine : PromotionEngine) (clock : Clock) (node : PiNode)
    (drainHandle : Option Str) :
    let after := (evacuate engine clock node drainHandle).node
    StandingKept node after ∨ currentStep after = .failed ∧ isEligible after = false := by
  unfold evacuate
  split
  · exact awaitDrain_standing engine clock ⟨rfl, rfl⟩ _ _
  · simp only
    split
    · exact awaitDrain_standing engine clock (by simp [StandingKept]) _ _
    · exact Or.inr ⟨rfl, isEligible_failFsm ..⟩

/-- A call keeps a worker's standing unless it fails the node or makes it a
master, and a master has none. -/
theorem step_standing (engine : PromotionEngine) (clock : Clock) (node : PiNode)
    (allNodes : List PiNode)
    (hmaster : promoted (currentStep node) = true → node.spec.desiredRole = .master) :
    let after := (step engine clock node allNodes).node
    StandingKept node after ∨
      drains (currentStep after) = false ∧ isEligible after = false := by
  have heffect := step_effect engine clock node allNodes
  generalize step engine clock node allNodes = result at heffect
  cases heffect with
  | moved | prepared | joined | stuck => exact Or.inl (by simp [StandingKept, advance])
  | noCandidate reason hbefore => exact Or.inr ⟨rfl, isEligible_failFsm ..⟩
  | evacuating hbefore =>
      refine (evacuate_standing engine clock node _).imp id fun hfailed => ?_
      rw [hfailed.1]
      exact ⟨rfl, hfailed.2⟩
  | reformatted hbefore => exact Or.inr ⟨rfl, isEligible_of_master _ rfl⟩
  | completed hbefore =>
      refine Or.inr ⟨rfl, isEligible_of_master _ (hmaster ?_)⟩
      rcases hbefore with hbefore | hbefore <;> rw [hbefore] <;> rfl

/-- A node starts to drain only as the best candidate of the list. -/
theorem step_chosen {engine : PromotionEngine} {clock : Clock} {node : PiNode}
    {allNodes : List PiNode} (hbefore : drains (currentStep node) = false)
    (hafter : drains (currentStep (step engine clock node allNodes).node) = true) :
    currentStep node = .selectingCandidate ∧ ∃ best,
      selectBestCandidate allNodes = some best ∧
        best.spec.hardwareSerial = node.spec.hardwareSerial := by
  unfold step at hafter
  simp only [getD_currentStep, getD_drainHandle] at hafter
  cases hstep : currentStep node with
  | detecting =>
      rw [hstep] at hafter
      simp only at hafter
      split at hafter <;> simp [advance, drains] at hafter
  | selectingCandidate =>
      rw [hstep] at hafter
      simp only at hafter
      split at hafter
      · rename_i best hbest
        split at hafter
        · rename_i hserial
          exact ⟨rfl, best, hbest, hserial⟩
        · simp [advance, drains] at hafter
      · simp [abort, drains] at hafter
  | evacuatingGfs | preparingDisk | reformattingDisk => simp [hstep, drains] at hbefore
  | promotingK3s | joiningEtcd | verifying | complete | failed =>
      rw [hstep] at hafter
      simp [advance, drains] at hafter

/-- The role is rewritten right before the steps that require it. -/
theorem promoted_of_follows {before after : PromotionStep} (hfollows : Follows before after)
    (hafter : promoted after = true) :
    before = .reformattingDisk ∨ promoted before = true := by
  rcases hfollows with rfl | hnext | rfl
  · exact Or.inr hafter
  · cases before <;> simp only [successor, Option.some.injEq, reduceCtorEq] at hnext <;>
      subst hnext <;> revert hafter <;> decide
  · exact absurd hafter (by decide)

theorem joins_of_follows {before after : PromotionStep} (hfollows : Follows before after)
    (hafter : joins after = true) : drains before = true ∨ joins before = true := by
  rcases hfollows with rfl | hnext | rfl
  · exact Or.inr hafter
  · cases before <;> simp only [successor, Option.some.injEq, reduceCtorEq] at hnext <;>
      subst hnext <;> revert hafter <;> decide
  · exact absurd hafter (by decide)

theorem step_follows (engine : PromotionEngine) (clock : Clock) (node : PiNode)
    (allNodes : List PiNode) :
    Follows (currentStep node) (currentStep (step engine clock node allNodes).node) :=
  follows_next ⟨node, []⟩ ⟨engine, clock, allNodes⟩

theorem step_spec_eq {engine : PromotionEngine} {clock : Clock} {node : PiNode}
    {allNodes : List PiNode} (hne : currentStep node ≠ .reformattingDisk) :
    (step engine clock node allNodes).node.spec = node.spec := by
  have hnext : (Run.next ⟨node, []⟩ ⟨engine, clock, allNodes⟩).node.spec = node.spec :=
    spec_next_eq hne
  exact hnext

theorem step_master {engine : PromotionEngine} {clock : Clock} {node : PiNode}
    {allNodes : List PiNode}
    (hmaster : promoted (currentStep node) = true → node.spec.desiredRole = .master)
    (hafter : promoted (currentStep (step engine clock node allNodes).node) = true) :
    (step engine clock node allNodes).node.spec.desiredRole = .master := by
  by_cases hreformat : currentStep node = .reformattingDisk
  · simp only [step, getD_currentStep, hreformat]
    rfl
  · have hbefore := promoted_of_follows (step_follows engine clock node allNodes) hafter
    rw [step_spec_eq hreformat]
    exact hmaster (hbefore.resolve_left hreformat)

theorem step_serial (engine : PromotionEngine) (clock : Clock) (node : PiNode)
    (allNodes : List PiNode) :
    (step engine clock node allNodes).node.spec.hardwareSerial = node.spec.hardwareSerial := by
  by_cases hreformat : currentStep node = .reformattingDisk
  · simp only [step, getD_currentStep, hreformat]
    rfl
  · rw [step_spec_eq hreformat]

/-- Distinct serials, a draining node that is the best candidate, masters from
the rewrite on, and one promotion in flight. -/
structure ClusterInv (nodes : List PiNode) : Prop where
  distinct : (nodes.map fun node => node.spec.hardwareSerial).Nodup
  best : ∀ node ∈ nodes, drains (currentStep node) = true →
    selectBestCandidate nodes = some node
  master : ∀ node ∈ nodes, promoted (currentStep node) = true →
    node.spec.desiredRole = .master
  single : ∀ node ∈ nodes, ∀ other ∈ nodes, inFlight node = true → inFlight other = true →
    node = other

theorem clusterInv_start {nodes : List PiNode}
    (hdistinct : (nodes.map fun node => node.spec.hardwareSerial).Nodup)
    (hunchosen : ∀ node ∈ nodes, Unchosen node) : ClusterInv nodes := by
  have hnone : ∀ node ∈ nodes, drains (currentStep node) = false ∧
      promoted (currentStep node) = false := by
    intro node hnode
    rcases hunchosen node hnode with hstep | hstep | hstep <;> rw [hstep] <;> decide
  have hidle : ∀ node ∈ nodes, inFlight node = false := by
    intro node hnode
    rcases hunchosen node hnode with hstep | hstep | hstep <;> simp only [inFlight, hstep] <;>
      decide
  refine ⟨hdistinct, ?_, ?_, ?_⟩
  · intro node hnode hdrains
    simp [(hnone node hnode).1] at hdrains
  · intro node hnode hpromoted
    simp [(hnone node hnode).2] at hpromoted
  · intro node hnode other _ hflight
    simp [hidle node hnode] at hflight

section Change

variable {nodes : List PiNode} (event : ClusterEvent)

theorem change_serial (node : PiNode) :
    (event.change nodes node).spec.hardwareSerial = node.spec.hardwareSerial := by
  unfold ClusterEvent.change
  split
  · exact step_serial ..
  · rfl

theorem ClusterInv.eq_of_serial (hinv : ClusterInv nodes) {node other : PiNode}
    (hnode : node ∈ nodes) (hother : other ∈ nodes)
    (hserial : node.spec.hardwareSerial = other.spec.hardwareSerial) : node = other :=
  List.inj_on_of_nodup_map hinv.distinct hnode hother hserial

/-- A call makes no node eligible and keeps the standing of one that drains. -/
theorem ClusterInv.change_standing (hinv : ClusterInv nodes) {node : PiNode}
    (hnode : node ∈ nodes) :
    StandingKept node (event.change nodes node) ∨
      drains (currentStep (event.change nodes node)) = false ∧
        isEligible (event.change nodes node) = false := by
  unfold ClusterEvent.change
  split
  · exact step_standing _ _ _ _ (hinv.master node hnode)
  · exact Or.inl ⟨rfl, rfl⟩

theorem ClusterInv.change_weaker (hinv : ClusterInv nodes) :
    ∀ node ∈ nodes, isEligible (event.change nodes node) = true →
      isEligible node = true ∧ score (event.change nodes node) = score node := by
  intro node hnode heligible
  rcases hinv.change_standing event hnode with hkept | ⟨_, hineligible⟩
  · exact ⟨hkept.1 ▸ heligible, hkept.2⟩
  · simp [hineligible] at heligible

/-- A node that drains after the call was the best candidate before it. -/
theorem ClusterInv.best_before (hinv : ClusterInv nodes) {node : PiNode} (hnode : node ∈ nodes)
    (hafter : drains (currentStep (event.change nodes node)) = true) :
    selectBestCandidate nodes = some node := by
  by_cases hbefore : drains (currentStep node) = true
  · exact hinv.best node hnode hbefore
  · rw [Bool.not_eq_true] at hbefore
    unfold ClusterEvent.change at hafter
    split at hafter
    · obtain ⟨_, best, hbest, hserial⟩ := step_chosen hbefore hafter
      have hmem := (selectBestCandidate_mem hbest).1
      rw [hbest, hinv.eq_of_serial hmem hnode hserial]
    · simp [hbefore] at hafter

/-- A call puts a node in flight only by choosing it. -/
theorem ClusterInv.inFlight_before (hinv : ClusterInv nodes) {node : PiNode}
    (hnode : node ∈ nodes) (hafter : inFlight (event.change nodes node) = true) :
    inFlight node = true ∨
      node.spec.hardwareSerial = event.serial ∧ currentStep node = .selectingCandidate ∧
        selectBestCandidate nodes = some node := by
  by_cases hbefore : inFlight node = true
  · exact Or.inl hbefore
  · refine Or.inr ?_
    simp only [inFlight, Bool.or_eq_true, not_or, Bool.not_eq_true] at hbefore
    simp only [inFlight, Bool.or_eq_true] at hafter
    have hdrains : drains (currentStep (event.change nodes node)) = true := by
      refine hafter.resolve_right fun hjoins => ?_
      unfold ClusterEvent.change at hjoins
      split at hjoins
      · have hwas := joins_of_follows (step_follows ..) hjoins
        simp [hbefore] at hwas
      · simp [hbefore] at hjoins
    refine ⟨?_, ?_, hinv.best_before event hnode hdrains⟩
    · by_contra hserial
      simp [ClusterEvent.change, hserial, hbefore] at hdrains
    · unfold ClusterEvent.change at hdrains
      split at hdrains
      · exact (step_chosen hbefore.1 hdrains).1
      · simp [hbefore] at hdrains

/-- A node that the call chooses is the only one in flight. -/
theorem ClusterInv.alone_of_chosen (hinv : ClusterInv nodes) (hone : OneAtATime nodes event)
    {node other : PiNode} (hnode : node ∈ nodes) (hother : other ∈ nodes)
    (hchosen : node.spec.hardwareSerial = event.serial ∧
      currentStep node = .selectingCandidate ∧ selectBestCandidate nodes = some node)
    (hflight : inFlight other = true) : node = other := by
  obtain ⟨hserial, hselecting, hbest⟩ := hchosen
  simp only [inFlight, Bool.or_eq_true] at hflight
  rcases hflight with hdrains | hjoins
  · have hrival := hinv.best other hother hdrains
    rw [hbest] at hrival
    exact Option.some.inj hrival
  · rw [hone node hnode hserial hselecting hbest other hother] at hjoins
    cases hjoins

end Change

/-- One call that does not start a second promotion keeps the invariant. -/
theorem clusterInv_step (nodes : List PiNode) (event : ClusterEvent) (hinv : ClusterInv nodes)
    (hone : OneAtATime nodes event) : ClusterInv (clusterStep nodes event) := by
  have hserials : (clusterStep nodes event).map (fun node => node.spec.hardwareSerial) =
      nodes.map fun node => node.spec.hardwareSerial := by
    simp [clusterStep, change_serial]
  refine ⟨hserials ▸ hinv.distinct, ?_, ?_, ?_⟩
  · intro changed hchanged hdrains
    obtain ⟨node, hnode, rfl⟩ := List.mem_map.mp hchanged
    have hbest := hinv.best_before event hnode hdrains
    refine selectBestCandidate_map hbest (hinv.change_weaker event) ?_
    rcases hinv.change_standing event hnode with hkept | ⟨hover, _⟩
    · rw [hkept.1]
      exact (selectBestCandidate_mem hbest).2
    · simp [hover] at hdrains
  · intro changed hchanged hpromoted
    obtain ⟨node, hnode, rfl⟩ := List.mem_map.mp hchanged
    unfold ClusterEvent.change at hpromoted ⊢
    split at hpromoted
    · rename_i hserial
      rw [if_pos hserial]
      exact step_master (hinv.master node hnode) hpromoted
    · rename_i hserial
      rw [if_neg hserial]
      exact hinv.master node hnode hpromoted
  · intro first hfirst second hsecond hflight hrival
    obtain ⟨node, hnode, rfl⟩ := List.mem_map.mp hfirst
    obtain ⟨other, hother, rfl⟩ := List.mem_map.mp hsecond
    have hsame : node = other := by
      rcases hinv.inFlight_before event hnode hflight with hbefore | hchosen
      · rcases hinv.inFlight_before event hother hrival with hrivalBefore | hrivalChosen
        · exact hinv.single node hnode other hother hbefore hrivalBefore
        · exact (hinv.alone_of_chosen event hone hother hnode hrivalChosen hbefore).symm
      · rcases hinv.inFlight_before event hother hrival with hrivalBefore | hrivalChosen
        · exact hinv.alone_of_chosen event hone hnode hother hchosen hrivalBefore
        · -- both would have been chosen by this call
          exact hinv.eq_of_serial hnode hother (hchosen.1.trans hrivalChosen.1.symm)
    rw [hsame]

/-- In every state of a run that starts no promotion before the previous one is
verified, at most one node is in flight. -/
theorem run_single_flight {nodes : List PiNode}
    (hdistinct : (nodes.map fun node => node.spec.hardwareSerial).Nodup)
    (hunchosen : ∀ node ∈ nodes, Unchosen node) (events : List ClusterEvent)
    (hone : StepRun.Meets clusterStep OneAtATime nodes events) :
    ∀ reached, reached <+: events →
      ∀ node ∈ reached.foldl clusterStep nodes, ∀ other ∈ reached.foldl clusterStep nodes,
        inFlight node = true → inFlight other = true → node = other := by
  intro reached hreached
  exact ((hone.of_isPrefix hreached).foldl_inv clusterInv_step
    (clusterInv_start hdistinct hunchosen)).single

namespace ClusterWitness

def workerNode (serial : Str) : PiNode :=
  { PromotionWitness.worker with
    spec := { PromotionWitness.worker.spec with hardwareSerial := serial } }

def cluster : List PiNode := [workerNode "pi-a".toList, workerNode "pi-b".toList]

/-- A call for the node while quorum is lost; drains end at once. -/
def call (serial : Str) : ClusterEvent :=
  ⟨serial, PromotionWitness.lostQuorum.engine, PromotionWitness.lostQuorum.clock⟩

def callsA (count : Nat) : List ClusterEvent := List.replicate count (call "pi-a".toList)

def callsB (count : Nat) : List ClusterEvent := List.replicate count (call "pi-b".toList)

/-- While the first node drains, the second one waits in `SelectingCandidate`. -/
theorem second_waits :
    ((callsA 4 ++ callsB 2).foldl clusterStep cluster).map currentStep =
        [.reformattingDisk, .selectingCandidate] ∧
      ∀ node ∈ (callsA 4 ++ callsB 2).foldl clusterStep cluster,
        ∀ other ∈ (callsA 4 ++ callsB 2).foldl clusterStep cluster,
          inFlight node = true → inFlight other = true → node = other := by
  have hunchosen : ∀ node ∈ cluster, Unchosen node := by
    intro node hnode
    simp only [cluster, List.mem_cons, List.not_mem_nil, or_false] at hnode
    rcases hnode with rfl | rfl <;> exact Or.inl rfl
  exact ⟨by decide, run_single_flight (by decide) hunchosen (callsA 4 ++ callsB 2) (by decide)
    (callsA 4 ++ callsB 2) (List.prefix_refl _)⟩

/-- The first node is at `PromotingK3s` and no longer a candidate when the second
one asks for the best candidate. -/
theorem two_in_flight :
    ((callsA 5 ++ callsB 2).foldl clusterStep cluster).map currentStep =
        [.promotingK3s, .evacuatingGfs] ∧
      ((callsA 5 ++ callsB 2).foldl clusterStep cluster).countP inFlight = 2 := by
  decide

end ClusterWitness

end PromotionEngine

end PiCluster
