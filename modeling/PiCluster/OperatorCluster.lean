/-
The replicas of a daemon with the tasks their leaders run.  Each report of an elector
goes through its callback, and the operator's callback spawns a loop of reconcile
passes that looks at its token between two rounds only.  So a round is begun by the
leader alone, while a deposed replica may still be busy with the one it has begun.
-/
import PiCluster.ElectionSafety
import PiCluster.Leadership

namespace PiCluster

open TokenHolder

/-- What a report makes of the callback's state: an iteration of the loop on the
cycle's result, or the call that follows the release. -/
def Elector.notify {σ : Type} (callback : σ → Bool → σ) (elector : Elector) (state : σ) : σ :=
  match elector.phase with
  | .decided result => (LeaseElector.iterate callback ⟨elector.leader, [], state⟩ result).state
  | .released => callback state false
  | _ => state

/-- The electors, each with the tokens its callback has made. -/
structure DaemonCluster (ι : Type) where
  election : Election ι
  holders : ι → TokenHolder

section Gate

variable {worker : Worker} {holder : TokenHolder} {elector : Elector}

theorem TokenHolder.Gated.call {isLeader : Bool} (hgated : Gated worker holder isLeader)
    {leader : Bool} (hchange : isLeader ≠ leader) :
    Gated worker (leadershipCallback worker holder leader) leader := by
  cases leader with
  | true =>
      obtain rfl : isLeader = false := Bool.eq_false_iff.mpr hchange
      exact hgated.acquire
  | false =>
      obtain rfl : isLeader = true := Bool.ne_false_iff.mp hchange
      exact hgated.lose

/-- Giving up leadership leaves nothing to run, whether there was any or not. -/
theorem TokenHolder.Gated.giveUp {isLeader : Bool} (hgated : Gated worker holder isLeader) :
    Gated worker (leadershipCallback worker holder false) false := by
  cases isLeader with
  | true => exact hgated.lose
  | false =>
      have hkept : leadershipCallback worker holder false = holder := by
        simp [leadershipCallback, hgated.1]
      rw [hkept]
      exact hgated

theorem TokenHolder.Gated.notify (hgated : Gated worker holder elector.leader) :
    Gated worker (elector.notify (callbackOf worker) holder) elector.report.leader := by
  rw [callbackOf_eq]
  obtain ⟨phase, leader⟩ := elector
  cases phase with
  | decided result =>
      have hreport := congrArg Elector.leader
        (LeaseElector.report_eq_iterate (leadershipCallback worker) ⟨leader, [], holder⟩ result)
      change Gated worker (LeaseElector.iterate _ _ result).state _
      rw [hreport, LeaseElector.iterate_eq]
      split
      · exact hgated
      · rename_i hchange
        exact hgated.call hchange
  | released => exact hgated.giveUp
  | idle | reading now | creating now | refetching now | patching now version patch
  | releasing | stopped => exact hgated

/-- No report makes a cancelled token good again. -/
theorem cancelled_leadershipCallback {position : Nat}
    (hcancelled : holder.tokens[position]?.map ChildToken.cancelled = some true)
    (leader : Bool) : (leadershipCallback worker holder leader).tokens[position]?.map
      ChildToken.cancelled = some true := by
  obtain ⟨token, htoken, hdone⟩ := Option.map_eq_some_iff.mp hcancelled
  unfold leadershipCallback
  split
  · rw [List.getElem?_append_left (List.getElem?_eq_some_iff.mp htoken).1, htoken]
    exact congrArg some hdone
  · split
    · rw [List.getElem?_modify, htoken]
      simp only [Option.map_eq_map, Option.map_some]
      split
      · rfl
      · exact congrArg some hdone
    · exact hcancelled

theorem cancelled_notify {position : Nat}
    (hcancelled : holder.tokens[position]?.map ChildToken.cancelled = some true) :
    (elector.notify (callbackOf worker) holder).tokens[position]?.map
      ChildToken.cancelled = some true := by
  rw [callbackOf_eq]
  unfold Elector.notify
  split
  · rw [LeaseElector.iterate_eq]
    split
    · exact hcancelled
    · exact cancelled_leadershipCallback hcancelled _
  · exact cancelled_leadershipCallback hcancelled false
  · exact hcancelled

end Gate

namespace Election

variable {ι : Type} [DecidableEq ι]

/-- Only a report changes a flag. -/
theorem leader_step (electorate : Electorate ι) (state : Election ι) (event : ElectionEvent ι)
    (j : ι) : ((state.step electorate event).electors j).leader =
      if event = .report j then (state.electors j).report.leader
      else (state.electors j).leader := by
  have hkeep : ∀ i phase, ((state.setElector i
      { state.electors i with phase := phase }).electors j).leader =
        (state.electors j).leader := by
    intro i phase
    apply forall_setElector (P := fun j current => current.leader = (state.electors j).leader)
    · rfl
    · intro _
      rfl
  cases event with
  | tick elapsed => rfl
  | begin i | cancel i =>
      rw [if_neg (by simp)]
      simp only [step, stepWith]
      split
      · exact hkeep i _
      · rfl
  | request i delivery =>
      rw [if_neg (by simp)]
      exact hkeep i _
  | report i =>
      by_cases hij : i = j
      · subst hij
        rw [if_pos rfl]
        exact congrArg Elector.leader (setElector_electors_self ..)
      · rw [if_neg (by simpa using hij)]
        exact congrArg Elector.leader (setElector_electors_of_ne (Ne.symm hij) _)

end Election

namespace DaemonCluster

variable {ι : Type}

def initial (clock : Int) (lease : Option Lease) : DaemonCluster ι :=
  ⟨.initial clock lease, fun _ => .empty⟩

/-- Every replica has a live worker exactly while it leads. -/
def AllGated (worker : Worker) (cluster : DaemonCluster ι) : Prop :=
  ∀ i, Gated worker (cluster.holders i) (cluster.election.electors i).leader

theorem allGated_initial (worker : Worker) (clock : Int) (lease : Option Lease) :
    AllGated worker (initial clock lease : DaemonCluster ι) :=
  fun _ => gated_empty worker

variable [DecidableEq ι]

def step (electorate : Electorate ι) (worker : Worker) (cluster : DaemonCluster ι)
    (event : ElectionEvent ι) : DaemonCluster ι where
  election := cluster.election.step electorate event
  holders := match event with
    | .report i => Function.update cluster.holders i
        ((cluster.election.electors i).notify (callbackOf worker) (cluster.holders i))
    | _ => cluster.holders

def run (electorate : Electorate ι) (worker : Worker) (start : DaemonCluster ι)
    (events : List (ElectionEvent ι)) : DaemonCluster ι :=
  events.foldl (step electorate worker) start

variable {electorate : Electorate ι} {worker : Worker} {cluster : DaemonCluster ι}

theorem holders_step (event : ElectionEvent ι) (j : ι) :
    (cluster.step electorate worker event).holders j =
      if event = .report j then
        (cluster.election.electors j).notify (callbackOf worker) (cluster.holders j)
      else cluster.holders j := by
  cases event with
  | report i =>
      by_cases hij : i = j
      · subst hij
        rw [if_pos rfl]
        exact Function.update_self ..
      · rw [if_neg (by simpa using hij)]
        exact Function.update_of_ne (Ne.symm hij) ..
  | tick elapsed | begin i | request i delivery | cancel i => rfl

theorem AllGated.step (hgated : AllGated worker cluster) (event : ElectionEvent ι) :
    AllGated worker (cluster.step electorate worker event) := by
  intro j
  rw [holders_step]
  change Gated worker _ ((cluster.election.step electorate event).electors j).leader
  rw [Election.leader_step]
  split
  · exact (hgated j).notify
  · exact hgated j

theorem AllGated.run (electorate : Electorate ι) (hgated : AllGated worker cluster)
    (events : List (ElectionEvent ι)) :
    AllGated worker (DaemonCluster.run electorate worker cluster events) := by
  induction events generalizing cluster with
  | nil => exact hgated
  | cons event rest ih => exact ih (hgated.step event)

/-- The tokens do not act back on the election. -/
theorem election_run (events : List (ElectionEvent ι)) :
    (run electorate worker cluster events).election =
      cluster.election.run electorate events := by
  induction events generalizing cluster with
  | nil => rfl
  | cons event rest ih => exact ih

/-- In every schedule a replica has one uncancelled worker while it leads and none
otherwise; if no replica has an empty identity, then in a race-free one at most one
replica of the cluster has any. -/
theorem run_single_worker (electorate : Electorate ι) (worker : Worker) (clock : Int)
    (lease : Option Lease) (events : List (ElectionEvent ι)) :
    (∀ i, ((run electorate worker (initial clock lease) events).holders i).live =
      if ((Election.run electorate (.initial clock lease) events).electors i).leader
      then [⟨worker, false⟩] else []) ∧
    ((∀ i, electorate.holderIdentity i ≠ []) →
      StepRun.Meets (Election.step electorate) (Election.RaceFree electorate)
        (.initial clock lease) events →
      ∀ i j, ((run electorate worker (initial clock lease) events).holders i).live ≠ [] →
        ((run electorate worker (initial clock lease) events).holders j).live ≠ [] →
        i = j) := by
  have hlive : ∀ i, ((run electorate worker (initial clock lease) events).holders i).live =
      if ((Election.run electorate (.initial clock lease) events).electors i).leader
      then [⟨worker, false⟩] else [] := by
    intro i
    have hgated := ((allGated_initial worker clock lease).run electorate events i).live_eq
    rwa [election_run] at hgated
  refine ⟨hlive, ?_⟩
  intro hnonempty hrace i j hi hj
  rw [hlive, ne_eq, ite_eq_right_iff, not_forall] at hi hj
  exact (hrace.foldl_inv (Election.safeInv_step hnonempty)
    (Election.safeInv_initial electorate clock lease)).exclusive i j
      (Or.inl hi.choose) (Or.inl hj.choose)

namespace ClusterWitness

open Election.ElectionWitness

/-- The schedule in which one replica leads and the other finds the lease held has
one listener. -/
theorem one_listener :
    ((run replicas .proxyDhcp (initial 0 none) orderly).holders true).live =
        [⟨.proxyDhcp, false⟩] ∧
      ((run replicas .proxyDhcp (initial 0 none) orderly).holders false).live = [] := by
  have hlive := (run_single_worker replicas .proxyDhcp 0 none orderly).1
  exact ⟨(hlive true).trans (by decide), (hlive false).trans (by decide)⟩

end ClusterWitness

end DaemonCluster

/-- The passes of one round. -/
inductive Pass where
  | reconcileTopology
  | reconcileNodes
deriving DecidableEq, Repr

/-- Where the loop of a spawned task stands. -/
inductive LoopPhase where
  | checking
  | topology
  | nodes
  | sleeping
  | ended
deriving DecidableEq, Repr

/-- How a turn of a task goes: what it waited for is there, the pass it waited for
panicked, or its `select!` took the branch of the token. -/
inductive LoopTurn where
  | resumed
  | panicked
  | cancelSeen
deriving DecidableEq, Repr

namespace LoopPhase

/-- The `while` loop of the operator's task from one await to the next. -/
def turn (cancelled : Bool) (how : LoopTurn) : LoopPhase → LoopPhase
  | .checking => if cancelled then .ended else .topology
  | .topology => if how = .panicked then .ended else .nodes
  | .nodes => if how = .panicked then .ended else .sleeping
  | .sleeping =>
      match how with
      | .cancelSeen => if cancelled then .ended else .sleeping
      | _ => .checking
  | .ended => .ended

/-- The pass a task is in. -/
def pass : LoopPhase → Option Pass
  | .topology => some .reconcileTopology
  | .nodes => some .reconcileNodes
  | _ => none

/-- The passes a task can still begin once its token is cancelled. -/
def left : LoopPhase → List Pass
  | .topology => [.reconcileNodes]
  | _ => []

/-- The turns until such a task has ended, at most. -/
def turnsLeft : LoopPhase → Nat
  | .topology => 4
  | .nodes => 3
  | .sleeping => 2
  | .checking => 1
  | .ended => 0

theorem left_turn (how : LoopTurn) (phase : LoopPhase) :
    (phase.turn true how).pass.toList ++ (phase.turn true how).left <+: phase.left := by
  cases phase <;> cases how <;> decide

theorem turnsLeft_turn (how : LoopTurn) (phase : LoopPhase) :
    (phase.turn true how).turnsLeft ≤ phase.turnsLeft - 1 := by
  cases phase <;> cases how <;> decide

theorem left_isPrefix (phase : LoopPhase) : phase.left <+: [.reconcileNodes] := by
  cases phase <;> decide

theorem eq_ended_of_turnsLeft {phase : LoopPhase} (hnone : phase.turnsLeft = 0) :
    phase = .ended := by
  cases phase with
  | ended => rfl
  | checking | topology | nodes | sleeping => cases hnone

end LoopPhase

/-- The replicas of the operator; a task is known by its replica and the position of
its token. -/
structure OperatorCluster (ι : Type) extends DaemonCluster ι where
  loops : ι → Nat → LoopPhase

inductive ReplicaEvent (ι : Type) where
  | elect (event : ElectionEvent ι)
  | turn (i : ι) (position : Nat) (how : LoopTurn)
deriving DecidableEq, Repr

/-- The part of a schedule the electors see. -/
def ReplicaEvent.election? {ι : Type} : ReplicaEvent ι → Option (ElectionEvent ι)
  | .elect event => some event
  | .turn .. => none

def ReplicaEvent.isTurnOf {ι : Type} [DecidableEq ι] (i : ι) (position : Nat) :
    ReplicaEvent ι → Bool
  | .elect _ => false
  | .turn j other _ => j = i ∧ other = position

namespace OperatorCluster

variable {ι : Type}

def initial (clock : Int) (lease : Option Lease) : OperatorCluster ι :=
  ⟨.initial clock lease, fun _ _ => .checking⟩

/-- Whether a task's token is cancelled; `none` when there is no such task. -/
def cancelled (cluster : OperatorCluster ι) (i : ι) (position : Nat) : Option Bool :=
  (cluster.holders i).tokens[position]?.map ChildToken.cancelled

variable [DecidableEq ι]

def step (electorate : Electorate ι) (cluster : OperatorCluster ι) :
    ReplicaEvent ι → OperatorCluster ι
  | .elect event =>
      ⟨cluster.toDaemonCluster.step electorate .reconcileLoop event, cluster.loops⟩
  | .turn i position how =>
      match cluster.cancelled i position with
      | some isCancelled =>
          { cluster with
            loops := Function.update cluster.loops i (Function.update (cluster.loops i) position
              ((cluster.loops i position).turn isCancelled how)) }
      | none => cluster

def run (electorate : Electorate ι) (start : OperatorCluster ι)
    (events : List (ReplicaEvent ι)) : OperatorCluster ι :=
  events.foldl (step electorate) start

/-- The pass that a task begins with an event. -/
def begun (i : ι) (position : Nat) (cluster : OperatorCluster ι) (event : ReplicaEvent ι) :
    Option Pass :=
  match event with
  | .elect _ => none
  | .turn j other how =>
      if j = i ∧ other = position then
        (cluster.cancelled i position).bind fun isCancelled =>
          ((cluster.loops i position).turn isCancelled how).pass
      else none

/-- The passes a task begins over a run. -/
def passesOf (electorate : Electorate ι) (i : ι) (position : Nat) :
    OperatorCluster ι → List (ReplicaEvent ι) → List Pass
  | _, [] => []
  | cluster, event :: rest =>
      (begun i position cluster event).toList ++
        passesOf electorate i position (cluster.step electorate event) rest

section Step

variable {electorate : Electorate ι} {cluster : OperatorCluster ι} {i : ι} {position : Nat}

/-- A turn of a task concerns the loops only. -/
theorem toDaemonCluster_turn (j : ι) (other : Nat) (how : LoopTurn) :
    (cluster.step electorate (.turn j other how)).toDaemonCluster =
      cluster.toDaemonCluster := by
  unfold step
  dsimp only
  split <;> rfl

theorem cancelled_step (electorate : Electorate ι)
    (hcancelled : cluster.cancelled i position = some true) (event : ReplicaEvent ι) :
    (cluster.step electorate event).cancelled i position = some true := by
  cases event with
  | elect event =>
      change ((cluster.toDaemonCluster.step electorate _ event).holders
        i).tokens[position]?.map _ = _
      rw [DaemonCluster.holders_step]
      split
      · exact cancelled_notify hcancelled
      · exact hcancelled
  | turn j other how =>
      unfold cancelled
      rw [toDaemonCluster_turn]
      exact hcancelled

theorem loops_turn {isCancelled : Bool}
    (hspawned : cluster.cancelled i position = some isCancelled) (how : LoopTurn) :
    (cluster.step electorate (.turn i position how)).loops i position =
      (cluster.loops i position).turn isCancelled how := by
  simp [step, hspawned]

theorem loops_step_of_other {event : ReplicaEvent ι}
    (hother : event.isTurnOf i position = false) :
    (cluster.step electorate event).loops i position = cluster.loops i position := by
  cases event with
  | elect event => rfl
  | turn j other how =>
      have hne : ¬ (j = i ∧ other = position) := of_decide_eq_false hother
      unfold step
      dsimp only
      split
      · by_cases hji : i = j
        · subst hji
          have hposition : position ≠ other := fun heq => hne ⟨rfl, heq.symm⟩
          simp [hposition]
        · simp [hji]
      · rfl

theorem begun_of_other {event : ReplicaEvent ι}
    (hother : event.isTurnOf i position = false) : begun i position cluster event = none := by
  cases event with
  | elect event => rfl
  | turn j other how => exact if_neg (of_decide_eq_false hother)

end Step

/-- A task with a cancelled token begins what is left of its round at most, and ends
within its turns. -/
theorem passesOf_of_cancelled (electorate : Electorate ι) {cluster : OperatorCluster ι}
    {i : ι} {position : Nat} (hcancelled : cluster.cancelled i position = some true)
    (events : List (ReplicaEvent ι)) :
    passesOf electorate i position cluster events <+: (cluster.loops i position).left ∧
      ((run electorate cluster events).loops i position).turnsLeft ≤
        (cluster.loops i position).turnsLeft -
          events.countP (ReplicaEvent.isTurnOf i position) := by
  induction events generalizing cluster with
  | nil => exact ⟨List.nil_prefix, Nat.le_refl _⟩
  | cons event rest ih =>
      obtain ⟨hpasses, hturns⟩ := ih (cancelled_step electorate hcancelled event)
      change _ ∧ ((run electorate (cluster.step electorate event) rest).loops
        i position).turnsLeft ≤ _
      unfold passesOf
      cases hown : event.isTurnOf i position with
      | false =>
          rw [loops_step_of_other hown] at hpasses hturns
          rw [begun_of_other hown, List.countP_cons_of_neg (by simp [hown])]
          exact ⟨hpasses, hturns⟩
      | true =>
          cases event with
          | elect event => cases hown
          | turn j other how =>
              obtain ⟨rfl, rfl⟩ : j = i ∧ other = position := of_decide_eq_true hown
              rw [loops_turn hcancelled] at hpasses hturns
              rw [List.countP_cons_of_pos hown]
              constructor
              · have hbegun : begun j other cluster (.turn j other how) =
                    ((cluster.loops j other).turn true how).pass := by
                  simp [begun, hcancelled]
                rw [hbegun]
                exact (List.prefix_append_right_inj _ |>.mpr hpasses).trans
                  (LoopPhase.left_turn how _)
              · have hstep := LoopPhase.turnsLeft_turn how (cluster.loops j other)
                omega

section Run

variable (electorate : Electorate ι)

/-- Election and tokens of a run are those of its elections. -/
theorem toDaemonCluster_run (cluster : OperatorCluster ι) (events : List (ReplicaEvent ι)) :
    (run electorate cluster events).toDaemonCluster =
      DaemonCluster.run electorate .reconcileLoop cluster.toDaemonCluster
        (events.filterMap ReplicaEvent.election?) := by
  induction events generalizing cluster with
  | nil => rfl
  | cons event rest ih =>
      have hrest := ih (cluster.step electorate event)
      cases event with
      | elect event => exact hrest
      | turn j other how =>
          rw [toDaemonCluster_turn] at hrest
          exact hrest

theorem allGated_run (clock : Int) (lease : Option Lease) (events : List (ReplicaEvent ι)) :
    DaemonCluster.AllGated .reconcileLoop
      (run electorate (initial clock lease) events).toDaemonCluster := by
  rw [toDaemonCluster_run]
  exact (DaemonCluster.allGated_initial _ clock lease).run electorate _

end Run

theorem leader_of_begun_topology {cluster : OperatorCluster ι}
    (hgated : DaemonCluster.AllGated .reconcileLoop cluster.toDaemonCluster) {i : ι}
    {position : Nat} {event : ReplicaEvent ι}
    (hbegun : begun i position cluster event = some .reconcileTopology) :
    (cluster.election.electors i).leader = true := by
  unfold begun at hbegun
  split at hbegun
  · cases hbegun
  · split at hbegun
    · obtain ⟨isCancelled, hspawned, hpass⟩ := Option.bind_eq_some_iff.mp hbegun
      rw [← Bool.not_eq_false]
      intro hfollower
      have htokens := hgated i
      rw [hfollower] at htokens
      obtain ⟨token, htoken, rfl⟩ := Option.map_eq_some_iff.mp hspawned
      rw [htokens.2 token (List.mem_of_getElem? htoken)] at hpass
      revert hpass
      -- a cancelled task never comes to the topology pass
      cases cluster.loops i position <;> rename_i how _ <;> cases how <;> decide
    · cases hbegun

/-- In a race-free schedule whoever begins a topology pass is the one leader of the
cluster. -/
theorem run_rounds_led (electorate : Electorate ι)
    (hnonempty : ∀ i, electorate.holderIdentity i ≠ []) (clock : Int) (lease : Option Lease)
    (events : List (ReplicaEvent ι))
    (hrace : StepRun.Meets (Election.step electorate) (Election.RaceFree electorate)
      (.initial clock lease) (events.filterMap ReplicaEvent.election?)) :
    ∀ reached event, reached ++ [event] <+: events → ∀ i position,
      begun i position (run electorate (initial clock lease) reached) event =
        some .reconcileTopology →
      ∀ j, ((run electorate (initial clock lease) reached).election.electors j).leader = true ↔
        j = i := by
  intro reached event hreached i position hbegun j
  have hleader := leader_of_begun_topology (allGated_run electorate clock lease reached) hbegun
  constructor
  · intro hother
    have hpart : reached.filterMap ReplicaEvent.election? <+:
        events.filterMap ReplicaEvent.election? :=
      ((List.prefix_append reached [event]).trans hreached).filterMap _
    have hinv := (hrace.of_isPrefix hpart).foldl_inv (Election.safeInv_step hnonempty)
      (Election.safeInv_initial electorate clock lease)
    have helection : (run electorate (initial clock lease) reached).election =
        Election.run electorate (.initial clock lease)
          (reached.filterMap ReplicaEvent.election?) := by
      rw [toDaemonCluster_run, DaemonCluster.election_run]
      rfl
    rw [helection] at hleader hother
    exact hinv.exclusive j i (Or.inl hother) (Or.inl hleader)
  · rintro rfl
    exact hleader

namespace RoundWitness

open Election Election.ElectionWitness

/-- The orderly election, and the first turn of the leader's task. -/
def firstRound : List (ReplicaEvent Bool) :=
  orderly.map .elect ++ [.turn true 0 .resumed]

theorem meets_firstRound : StepRun.Meets (Election.step replicas) (RaceFree replicas)
    (.initial 0 none) (firstRound.filterMap ReplicaEvent.election?) := by
  refine ⟨trivial, ?_, ?_, trivial, ?_, trivial, ?_, trivial, trivial⟩
  · change ∀ j, _ ≠ _
    decide
  · change (_ : Int) ≤ _
    decide
  · change ∀ i, _ → ∀ lease ∈ some _, _ → _ = false
    decide
  · change ∀ j, _ ≠ _
    decide

theorem first_round_led :
    (((run replicas (initial 0 none) (orderly.map .elect)).election.electors true).leader =
        true ↔ true = true) ∧
      (((run replicas (initial 0 none) (orderly.map .elect)).election.electors false).leader =
        true ↔ false = true) := by
  have hled := run_rounds_led replicas (by decide) 0 none firstRound meets_firstRound
    (orderly.map .elect) (.turn true 0 .resumed) (List.prefix_refl _) true 0 (by decide)
  exact ⟨hled true, hled false⟩

end RoundWitness

/-- A replica that does not lead: whatever follows, its own re-election included, each
task it has spawned so far begins at most the node pass of the round it is in, and has
ended after four turns. -/
theorem run_deposed (electorate : Electorate ι) (clock : Int) (lease : Option Lease)
    (before later : List (ReplicaEvent ι)) (i : ι)
    (hdeposed : ((run electorate (initial clock lease) before).election.electors i).leader =
      false)
    (position : Nat)
    (hspawned : position <
      ((run electorate (initial clock lease) before).holders i).tokens.length) :
    passesOf electorate i position (run electorate (initial clock lease) before) later <+:
        [.reconcileNodes] ∧
      (4 ≤ later.countP (ReplicaEvent.isTurnOf i position) →
        (run electorate (initial clock lease) (before ++ later)).loops i position = .ended) := by
  have hcancelled : (run electorate (initial clock lease) before).cancelled i position =
      some true := by
    have htokens := allGated_run electorate clock lease before i
    rw [hdeposed] at htokens
    rw [cancelled, List.getElem?_eq_getElem hspawned]
    exact congrArg some (htokens.2 _ (List.getElem_mem hspawned))
  obtain ⟨hpasses, hturns⟩ := passesOf_of_cancelled electorate hcancelled later
  refine ⟨hpasses.trans (LoopPhase.left_isPrefix _), ?_⟩
  intro hfour
  rw [run, List.foldl_append]
  apply LoopPhase.eq_ended_of_turnsLeft
  have hmost : ((run electorate (initial clock lease) before).loops i position).turnsLeft ≤ 4 := by
    cases (run electorate (initial clock lease) before).loops i position <;> decide
  unfold run at hturns hmost
  omega

namespace DeposedWitness

open RoundWitness Election.ElectionWitness

/-- The leader is in a topology pass when a renewal fails. -/
def renewalFails : List (ReplicaEvent Bool) :=
  firstRound ++ [.elect (.begin true), .elect (.request true .failed), .elect (.report true)]

theorem deposed_finishes_round :
    passesOf replicas true 0 (run replicas (initial 0 none) renewalFails)
        (List.replicate 4 (.turn true 0 .resumed)) <+: [.reconcileNodes] ∧
      (run replicas (initial 0 none) (renewalFails ++
        List.replicate 4 (.turn true 0 .resumed))).loops true 0 = .ended := by
  have hdeposed := run_deposed replicas 0 none renewalFails
    (List.replicate 4 (.turn true 0 .resumed)) true (by decide) 0 (by decide)
  exact ⟨hdeposed.1, hdeposed.2 (by decide)⟩

end DeposedWitness

end OperatorCluster

end PiCluster
