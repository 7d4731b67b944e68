/-
Promotions that share one simulated GFS master.  Drains are kept by node, so a
promotion runs as if it were alone, and the number of its own steps says where it
stands.
-/
import PiCluster.GfsAdmin

namespace PiCluster

open Text PromotionEngine MockGfsAdminClient

namespace MockGfsAdminClient

/-- What the client keeps about one node: its drain, its failure and its chunks. -/
structure NodeRecord where
  drain : Option DrainStatus
  failure : Option DrainStatus
  delay : Option Nat
deriving DecidableEq, Repr

def recordOf (client : MockGfsAdminClient) (serial : Str) : NodeRecord :=
  ⟨client.drains (handleOf serial), client.drains serial, client.drainDelays serial⟩

/-- The call is about the drain of this node. -/
def Concerns (serial : Str) : GfsCall → Prop
  | .drainNode node _ => node = serial
  | .drainStatus handle _ => handle = handleOf serial

theorem handleOf_injective : Function.Injective handleOf :=
  fun _ _ heq => List.append_cancel_left heq

variable {client left right : MockGfsAdminClient} {serial other : Str} {call : GfsCall}

@[simp] theorem record_drains_self (handle : Str) (status : DrainStatus) :
    (client.record handle status).drains handle = some status := by
  simp [record]

theorem record_drains_of_ne {handle key : Str} (hne : key ≠ handle) (status : DrainStatus) :
    (client.record handle status).drains key = client.drains key :=
  Function.update_of_ne hne _ _

@[simp] theorem record_drainDelays (handle : Str) (status : DrainStatus) :
    (client.record handle status).drainDelays = client.drainDelays := rfl

theorem initialStatus_ne_failed (chunks : Nat) (reason : Str) :
    initialStatus chunks ≠ .failed reason := by
  unfold initialStatus
  split
  · exact nofun
  · exact nofun

/-- A call moves the client by recording a status under the node's handle, and not a
failure, or not at all. -/
theorem after_cases (client : MockGfsAdminClient) (hcall : Concerns serial call) :
    admin.after client call = client ∨
      ∃ status, admin.after client call = client.record (handleOf serial) status ∧
        ∀ reason, status ≠ .failed reason := by
  cases call with
  | drainNode node answer =>
      obtain rfl : node = serial := hcall
      simp only [GfsAdminClient.after, admin, drainNode]
      split
      · exact .inl rfl
      · exact .inr ⟨_, rfl, initialStatus_ne_failed _⟩
  | drainStatus handle answer =>
      obtain rfl : handle = handleOf serial := hcall
      simp only [GfsAdminClient.after, admin, drainStatus]
      split
      · split
        · exact .inr ⟨_, rfl, nofun⟩
        · exact .inr ⟨_, rfl, nofun⟩
      · exact .inl rfl
      · exact .inl rfl

/-- A call about another node. -/
theorem recordOf_after_of_ne (hcall : Concerns other call) (hne : serial ≠ other)
    (hapart : serial ≠ handleOf other) :
    (admin.after client call).recordOf serial = client.recordOf serial := by
  have hhandle : handleOf serial ≠ handleOf other := handleOf_injective.ne hne
  rcases after_cases client hcall with hsame | ⟨status, hrecord, -⟩
  · rw [hsame]
  · rw [hrecord]
    simp [recordOf, record_drains_of_ne hhandle, record_drains_of_ne hapart]

/-- A call about the node itself looks at nothing else. -/
theorem recordOf_after_congr (hcall : Concerns serial call)
    (hapart : serial ≠ handleOf serial) (hsame : left.recordOf serial = right.recordOf serial) :
    (admin.after left call).recordOf serial = (admin.after right call).recordOf serial := by
  simp only [recordOf, NodeRecord.mk.injEq] at hsame
  obtain ⟨hdrain, hfailure, hdelay⟩ := hsame
  cases call with
  | drainNode node answer =>
      obtain rfl : node = serial := hcall
      simp only [GfsAdminClient.after, admin, drainNode, hfailure, hdelay]
      split
      · simp [recordOf, hdrain, hfailure, hdelay]
      · simp [recordOf, record_drains_of_ne hapart, hfailure, hdelay]
  | drainStatus handle answer =>
      obtain rfl : handle = handleOf serial := hcall
      simp only [GfsAdminClient.after, admin, drainStatus, hdrain]
      split
      · split
        · simp [recordOf, record_drains_of_ne hapart, hfailure, hdelay]
        · simp [recordOf, record_drains_of_ne hapart, hfailure, hdelay]
      · simp [recordOf, hdrain, hfailure, hdelay]
      · simp [recordOf, hdrain, hfailure, hdelay]

end MockGfsAdminClient

theorem ne_handleOf (serial : Str) : serial ≠ handleOf serial := by
  intro heq
  have hnil := List.self_eq_append_left.mp heq
  cases hnil

section Handles

variable (clock : Clock) (node : PiNode)

@[simp] theorem drainHandleOf_failFsm (reason : Str) :
    drainHandleOf (failFsm clock node reason) = drainHandleOf node := by
  rcases node with ⟨spec, _ | status⟩
  · rfl
  · rcases hprom : status.promotion with _ | prom <;>
      simp [drainHandleOf, promotionOf, failFsm, hprom, freshState]

@[simp] theorem drainHandleOf_confirmMaster :
    drainHandleOf (confirmMaster node) = drainHandleOf node := rfl

@[simp] theorem drainHandleOf_markReady :
    drainHandleOf (markReady node) = drainHandleOf node := by
  rcases node with ⟨spec, _ | status⟩ <;> rfl

end Handles

/-- A promotion of the node with this serial, without a drain or with its own. -/
structure Tidy (serial : Str) (node : PiNode) : Prop where
  serial_eq : node.spec.hardwareSerial = serial
  handle : drainHandleOf node = none ∨ drainHandleOf node = some (handleOf serial)

theorem Tidy.of_eq {serial : Str} {node next : PiNode} (htidy : Tidy serial node)
    (hserial : next.spec.hardwareSerial = node.spec.hardwareSerial)
    (hhandle : drainHandleOf next = drainHandleOf node) : Tidy serial next where
  serial_eq := hserial.trans htidy.serial_eq
  handle := by
    rw [hhandle]
    exact htidy.handle

theorem Tidy.awaitDrain {serial handle : Str} {node : PiNode} (htidy : Tidy serial node)
    (engine : PromotionEngine) (clock : Clock) (calls : List GfsCall) :
    Tidy serial (PromotionEngine.awaitDrain engine clock node handle calls).node := by
  unfold PromotionEngine.awaitDrain
  simp only
  split
  · exact htidy.of_eq rfl (drainHandleOf_updateFsmStep clock node .preparingDisk)
  · exact htidy.of_eq rfl (drainHandleOf_updateFsmStep clock node .evacuatingGfs)
  · exact htidy.of_eq rfl (drainHandleOf_failFsm clock node _)
  · exact htidy.of_eq rfl (drainHandleOf_failFsm clock node _)

/-- The calls of an evacuation are about the node's own drain. -/
theorem Tidy.evacuate {serial : Str} {node : PiNode} (htidy : Tidy serial node)
    (hstep : currentStep node = .evacuatingGfs) (client : MockGfsAdminClient)
    (quorumHealth : Option Bool) (clock : Clock) {result : StepResult}
    (hresult : PromotionEngine.evacuate (admin.engineAt client quorumHealth node) clock node
      (drainHandleOf node) = result) :
    Tidy serial result.node ∧ ∀ call ∈ result.calls, Concerns serial call := by
  have hserial := htidy.serial_eq
  unfold PromotionEngine.evacuate at hresult
  rcases htidy.handle with hnone | hsome
  · simp only [hnone] at hresult
    cases hanswer : (admin.engineAt client quorumHealth node).drainNode
        node.spec.hardwareSerial with
    | ok handle =>
        obtain rfl : handleOf node.spec.hardwareSerial = handle := by
          simp only [GfsAdminClient.engineAt, admin, MockGfsAdminClient.drainNode] at hanswer
          split at hanswer
          · cases hanswer
          · exact Except.ok.inj hanswer
        obtain ⟨prom, hprom⟩ := promotionOf_ne_none node hstep (by decide)
        have hpersisted : Tidy serial (persistDrainHandle clock node
            (handleOf node.spec.hardwareSerial)) := by
          refine ⟨hserial, .inr ?_⟩
          rw [drainHandleOf_persistDrainHandle clock node hprom, hserial]
        simp only [hanswer] at hresult
        rw [← hresult]
        refine ⟨hpersisted.awaitDrain _ clock _, ?_⟩
        rw [GfsAdminClient.awaitDrain_calls]
        simp [Concerns, hserial]
    | error e =>
        simp only [hanswer] at hresult
        rw [← hresult]
        refine ⟨htidy.of_eq rfl (drainHandleOf_failFsm clock node _), ?_⟩
        simp [abort, Concerns, hserial]
  · simp only [hsome] at hresult
    rw [← hresult]
    refine ⟨htidy.awaitDrain _ clock _, ?_⟩
    rw [GfsAdminClient.awaitDrain_calls]
    simp [Concerns]

theorem Tidy.step {serial : Str} {node : PiNode} (htidy : Tidy serial node)
    (client : MockGfsAdminClient) (quorumHealth : Option Bool) (clock : Clock)
    (allNodes : List PiNode) {result : StepResult}
    (hresult : PromotionEngine.step (admin.engineAt client quorumHealth node) clock node
      allNodes = result) :
    Tidy serial result.node ∧ ∀ call ∈ result.calls, Concerns serial call := by
  have heffect := step_effect (admin.engineAt client quorumHealth node) clock node allNodes
  rw [hresult] at heffect
  cases heffect with
  | evacuating hbefore => exact htidy.evacuate hbefore client quorumHealth clock rfl
  | moved next | joined next =>
      exact ⟨htidy.of_eq rfl (drainHandleOf_updateFsmStep clock node next),
        List.forall_mem_nil _⟩
  | noCandidate reason =>
      exact ⟨htidy.of_eq rfl (drainHandleOf_failFsm clock node reason), List.forall_mem_nil _⟩
  | prepared =>
      exact ⟨htidy.of_eq rfl (drainHandleOf_updateFsmStep clock node .reformattingDisk),
        List.forall_mem_nil _⟩
  | reformatted =>
      exact ⟨htidy.of_eq rfl (drainHandleOf_updateFsmStep clock (confirmMaster node)
        .promotingK3s), List.forall_mem_nil _⟩
  | completed =>
      refine ⟨htidy.of_eq rfl ?_, List.forall_mem_nil _⟩
      exact (drainHandleOf_updateFsmStep clock (markReady node) .complete).trans
        (drainHandleOf_markReady node)
  | stuck =>
      exact ⟨htidy.of_eq rfl (drainHandleOf_updateFsmStep clock node .failed),
        List.forall_mem_nil _⟩

/-- A step asks its engine for nothing but the quorum, a drain of its node and the
status of that drain. -/
theorem step_congr {left right : PromotionEngine} {node : PiNode} {handle : Str}
    (hquorum : left.quorumHealth = right.quorumHealth)
    (hrequest : left.drainNode node.spec.hardwareSerial =
      right.drainNode node.spec.hardwareSerial)
    (hgranted : ∀ granted, right.drainNode node.spec.hardwareSerial = .ok granted →
      granted = handle)
    (hheld : ∀ held, drainHandleOf node = some held → held = handle)
    (hquery : left.drainStatus handle = right.drainStatus handle)
    (clock : Clock) (allNodes : List PiNode) :
    step left clock node allNodes = step right clock node allNodes := by
  have hawait : ∀ holder calls, awaitDrain left clock holder handle calls =
      awaitDrain right clock holder handle calls := by
    intro holder calls
    simp only [awaitDrain, hquery]
  have hevacuate : evacuate left clock node (drainHandleOf node) =
      evacuate right clock node (drainHandleOf node) := by
    unfold evacuate
    cases hhandle : drainHandleOf node with
    | some held =>
        obtain rfl := hheld held hhandle
        exact hawait node []
    | none =>
        simp only [hrequest]
        cases hanswer : right.drainNode node.spec.hardwareSerial with
        | ok granted =>
            obtain rfl := hgranted granted hanswer
            exact hawait _ _
        | error e => rfl
  unfold step
  simp only [getD_currentStep, getD_drainHandle, hquorum, hevacuate]

section Congruence

variable {left right : MockGfsAdminClient} {node : PiNode} {serial : Str}

theorem drainNode_congr (hsame : left.recordOf serial = right.recordOf serial) :
    (admin.drainNode left serial).1 = (admin.drainNode right serial).1 := by
  simp only [recordOf, NodeRecord.mk.injEq] at hsame
  simp only [admin, MockGfsAdminClient.drainNode, hsame.2.1]
  split <;> rfl

theorem drainStatus_congr (hsame : left.recordOf serial = right.recordOf serial) :
    (admin.drainStatus left (handleOf serial)).1 =
      (admin.drainStatus right (handleOf serial)).1 := by
  simp only [recordOf, NodeRecord.mk.injEq] at hsame
  simp only [admin, MockGfsAdminClient.drainStatus, hsame.1]
  split
  · split <;> rfl
  · rfl
  · rfl

theorem requested_congr (htidy : Tidy serial node)
    (hsame : left.recordOf serial = right.recordOf serial) :
    (admin.requested left node).recordOf serial =
      (admin.requested right node).recordOf serial := by
  unfold GfsAdminClient.requested
  rw [htidy.serial_eq]
  split
  · exact hsame
  · have hcall : Concerns serial (.drainNode serial (.ok [])) := rfl
    exact recordOf_after_congr hcall (ne_handleOf serial) hsame

/-- A promotion goes the same way on clients that keep the same about its node. -/
theorem step_engineAt_congr (htidy : Tidy serial node)
    (hsame : left.recordOf serial = right.recordOf serial) (quorumHealth : Option Bool)
    (clock : Clock) (allNodes : List PiNode) :
    step (admin.engineAt left quorumHealth node) clock node allNodes =
      step (admin.engineAt right quorumHealth node) clock node allNodes := by
  have hserial := htidy.serial_eq
  apply step_congr
  · rfl
  · rw [hserial]
    exact drainNode_congr hsame
  · intro granted hgranted
    simp only [GfsAdminClient.engineAt, admin, MockGfsAdminClient.drainNode, hserial]
      at hgranted
    split at hgranted
    · cases hgranted
    · exact (Except.ok.inj hgranted).symm
  · intro held hheld
    rcases htidy.handle with hnone | hsome
    · rw [hnone] at hheld
      cases hheld
    · rw [hsome] at hheld
      exact (Option.some.inj hheld).symm
  · exact drainStatus_congr (requested_congr htidy hsame)

theorem foldl_after_congr {calls : List GfsCall} (hcalls : ∀ call ∈ calls, Concerns serial call)
    (hsame : left.recordOf serial = right.recordOf serial) :
    (calls.foldl admin.after left).recordOf serial =
      (calls.foldl admin.after right).recordOf serial := by
  induction calls generalizing left right with
  | nil => exact hsame
  | cons call rest ih =>
      obtain ⟨hcall, hrest⟩ := List.forall_mem_cons.mp hcalls
      exact ih hrest (recordOf_after_congr hcall (ne_handleOf serial) hsame)

theorem foldl_after_of_ne {client : MockGfsAdminClient} {other : Str} {calls : List GfsCall}
    (hcalls : ∀ call ∈ calls, Concerns other call) (hne : serial ≠ other)
    (hapart : serial ≠ handleOf other) :
    (calls.foldl admin.after client).recordOf serial = client.recordOf serial := by
  induction calls generalizing client with
  | nil => rfl
  | cons call rest ih =>
      obtain ⟨hcall, hrest⟩ := List.forall_mem_cons.mp hcalls
      exact (ih hrest).trans (recordOf_after_of_ne hcall hne hapart)

end Congruence

/-- The nodes being promoted and the client their engines share. -/
structure DrainCluster (ι : Type) where
  nodes : ι → PiNode
  client : MockGfsAdminClient

/-- One step of one node's promotion. -/
structure DrainStep (ι : Type) where
  target : ι
  quorumHealth : Option Bool
  clock : Clock
  allNodes : List PiNode

namespace DrainCluster

variable {ι : Type} [DecidableEq ι]

def result (cluster : DrainCluster ι) (event : DrainStep ι) : StepResult :=
  step (admin.engineAt cluster.client event.quorumHealth (cluster.nodes event.target))
    event.clock (cluster.nodes event.target) event.allNodes

def next (cluster : DrainCluster ι) (event : DrainStep ι) : DrainCluster ι where
  nodes := Function.update cluster.nodes event.target (cluster.result event).node
  client := (cluster.result event).calls.foldl admin.after cluster.client

def run (cluster : DrainCluster ι) (events : List (DrainStep ι)) : DrainCluster ι :=
  events.foldl next cluster

def isOf (i : ι) (event : DrainStep ι) : Bool := decide (event.target = i)

/-- Serials by which the client tells the nodes apart: none is used twice, and
none reads like the handle of a drain. -/
structure Distinct (serial : ι → Str) : Prop where
  injective : serial.Injective
  apart : ∀ i j, serial i ≠ handleOf (serial j)

def AllTidy (serial : ι → Str) (cluster : DrainCluster ι) : Prop :=
  ∀ i, Tidy (serial i) (cluster.nodes i)

/-- Two clusters that look alike to one promotion. -/
structure LooksAlike (serial : ι → Str) (i : ι) (left right : DrainCluster ι) : Prop where
  node : left.nodes i = right.nodes i
  record : left.client.recordOf (serial i) = right.client.recordOf (serial i)
  leftTidy : AllTidy serial left
  rightTidy : AllTidy serial right

section Isolation

variable {serial : ι → Str} {cluster left right : DrainCluster ι} {event : DrainStep ι} {i : ι}

omit [DecidableEq ι] in
theorem AllTidy.result (htidy : AllTidy serial cluster) (event : DrainStep ι) :
    Tidy (serial event.target) (cluster.result event).node ∧
      ∀ call ∈ (cluster.result event).calls, Concerns (serial event.target) call :=
  (htidy event.target).step cluster.client event.quorumHealth event.clock event.allNodes rfl

theorem AllTidy.next (htidy : AllTidy serial cluster) (event : DrainStep ι) :
    AllTidy serial (cluster.next event) := by
  intro j
  by_cases hj : j = event.target
  · subst hj
    simp only [DrainCluster.next, Function.update_self]
    exact (htidy.result event).1
  · simp only [DrainCluster.next, Function.update_of_ne hj]
    exact htidy j

theorem LooksAlike.own (halike : LooksAlike serial i left right) (hown : event.target = i) :
    LooksAlike serial i (left.next event) (right.next event) := by
  subst hown
  have hresult : left.result event = right.result event := by
    simp only [DrainCluster.result, halike.node]
    exact step_engineAt_congr (halike.rightTidy _) halike.record _ _ _
  refine ⟨?_, ?_, halike.leftTidy.next event, halike.rightTidy.next event⟩
  · simp only [DrainCluster.next, Function.update_self, hresult]
  · simp only [DrainCluster.next, hresult]
    exact foldl_after_congr (halike.rightTidy.result event).2 halike.record

theorem LooksAlike.other (hdistinct : Distinct serial) (halike : LooksAlike serial i left right)
    (hother : event.target ≠ i) : LooksAlike serial i (left.next event) right := by
  refine ⟨?_, ?_, halike.leftTidy.next event, halike.rightTidy⟩
  · simp only [DrainCluster.next, Function.update_of_ne hother.symm]
    exact halike.node
  · have hserial : serial i ≠ serial event.target := hdistinct.injective.ne hother.symm
    have hkept : (left.next event).client.recordOf (serial i) =
        left.client.recordOf (serial i) :=
      foldl_after_of_ne (halike.leftTidy.result event).2 hserial
        (hdistinct.apart i event.target)
    exact hkept.trans halike.record

end Isolation

/-- Promotions that share the simulated GFS master do not disturb each other:
whatever the order of their steps, each goes as if it were alone. -/
theorem run_isolated {serial : ι → Str} (hdistinct : Distinct serial)
    {cluster : DrainCluster ι} (htidy : AllTidy serial cluster) (events : List (DrainStep ι))
    (i : ι) :
    (cluster.run events).nodes i = (cluster.run (events.filter (isOf i))).nodes i := by
  have hstart : LooksAlike serial i cluster cluster := ⟨rfl, rfl, htidy, htidy⟩
  have halike : LooksAlike serial i (cluster.run events)
      (cluster.run (events.filter (isOf i))) := by
    apply StepRun.foldl_filter_of_unwinding _ _ hstart events
    · intro left right event hown halike
      exact halike.own (of_decide_eq_true hown)
    · intro left right event hother halike
      exact halike.other hdistinct (of_decide_eq_false hother)
  exact halike.node

end DrainCluster

/-- The steps after the drain. -/
def laterStage : Nat → PromotionStep
  | 0 => .preparingDisk
  | 1 => .reformattingDisk
  | 2 => .promotingK3s
  | 3 => .joiningEtcd
  | 4 => .verifying
  | _ => .complete

/-- Where a promotion that began to drain stands after a number of its steps. -/
def stageAfter (chunks steps : Nat) : PromotionStep :=
  if steps < max 1 chunks then .evacuatingGfs else laterStage (steps - max 1 chunks)

section Schedule

variable {serial : Str} {chunks steps : Nat} {node : PiNode} {client : MockGfsAdminClient}

theorem step_evacuating (hstep : currentStep node = .evacuatingGfs) (engine : PromotionEngine)
    (clock : Clock) (allNodes : List PiNode) :
    step engine clock node allNodes = evacuate engine clock node (drainHandleOf node) := by
  unfold step
  simp only [getD_currentStep, getD_drainHandle, hstep]

theorem step_later {place : Nat} (hstep : currentStep node = laterStage place)
    (engine : PromotionEngine) (clock : Clock) (allNodes : List PiNode) :
    currentStep (step engine clock node allNodes).node = laterStage (place + 1) ∧
      (step engine clock node allNodes).node.spec.hardwareSerial = node.spec.hardwareSerial := by
  unfold step
  simp only [getD_currentStep, hstep]
  match place with
  | 0 | 1 | 2 | 3 | 4 => exact ⟨rfl, rfl⟩
  | _ + 5 => exact ⟨rfl, rfl⟩

/-- A drain that has been queried `steps` times by the promotion of its node. -/
structure Draining (serial : Str) (chunks steps : Nat) (node : PiNode)
    (client : MockGfsAdminClient) : Prop where
  serial_eq : node.spec.hardwareSerial = serial
  step_eq : currentStep node = stageAfter chunks steps
  unstarted : steps = 0 → drainHandleOf node = none ∧
    (∀ reason, client.drains serial ≠ some (.failed reason)) ∧
    (client.drainDelays serial).getD 0 = chunks
  waiting : 0 < steps → steps < max 1 chunks → drainHandleOf node = some (handleOf serial) ∧
    client.drains (handleOf serial) = some (.inProgress (chunks - steps))

/-- The status query of a drain with that many chunks left. -/
theorem drainStatus_left {handle : Str} {left : Nat}
    (hdrain : client.drains handle = some (initialStatus left)) :
    (admin.drainStatus client handle).1 = .ok (initialStatus (left - 1)) ∧
      (admin.drainStatus client handle).2.drains handle = some (initialStatus (left - 1)) := by
  match left with
  | 0 => simp [admin, MockGfsAdminClient.drainStatus, hdrain, initialStatus]
  | 1 => simp [admin, MockGfsAdminClient.drainStatus, hdrain, initialStatus]
  | rest + 2 => simp [admin, MockGfsAdminClient.drainStatus, hdrain, initialStatus]

theorem stageAfter_succ (hsteps : steps < max 1 chunks) :
    stageAfter chunks (steps + 1) =
      if chunks - steps - 1 = 0 then .preparingDisk else .evacuatingGfs := by
  unfold stageAfter
  by_cases hleft : chunks - steps - 1 = 0
  · have hlast : steps + 1 = max 1 chunks := by omega
    rw [if_neg (by omega), if_pos hleft, hlast, Nat.sub_self]
    rfl
  · rw [if_pos (by omega), if_neg hleft]

/-- The query of a drain with `chunks - steps` chunks left. -/
theorem draining_awaitDrain (node : PiNode) (client : MockGfsAdminClient)
    {engine : PromotionEngine} (clock : Clock) (calls : List GfsCall)
    (hserial : node.spec.hardwareSerial = serial)
    (hhandle : drainHandleOf node = some (handleOf serial)) (hsteps : steps < max 1 chunks)
    (hdrain : client.drains (handleOf serial) = some (initialStatus (chunks - steps)))
    (hanswer : engine.drainStatus (handleOf serial) =
      (admin.drainStatus client (handleOf serial)).1) :
    Draining serial chunks (steps + 1)
      (awaitDrain engine clock node (handleOf serial) calls).node
      (admin.drainStatus client (handleOf serial)).2 := by
  obtain ⟨hstatus, hleft⟩ := drainStatus_left hdrain
  rw [hstatus] at hanswer
  have hnode : (awaitDrain engine clock node (handleOf serial) calls).node =
      updateFsmStep clock node (stageAfter chunks (steps + 1)) := by
    unfold awaitDrain
    rw [stageAfter_succ hsteps]
    by_cases hlast : chunks - steps - 1 = 0
    · simp only [hanswer, initialStatus, if_pos hlast, advance]
    · simp only [hanswer, initialStatus, if_neg hlast, advance]
  rw [hnode]
  refine ⟨hserial, rfl, fun hzero => absurd hzero (Nat.succ_ne_zero _), ?_⟩
  intro _ hwaiting
  refine ⟨(drainHandleOf_updateFsmStep clock node _).trans hhandle, hleft.trans ?_⟩
  have hsome : chunks - (steps + 1) ≠ 0 := by omega
  rw [Nat.sub_sub, initialStatus, if_neg hsome]

/-- One more step of the promotion, one chunk less. -/
theorem Draining.next (hdraining : Draining serial chunks steps node client)
    (quorumHealth : Option Bool) (clock : Clock) (allNodes : List PiNode) {result : StepResult}
    (hresult : step (admin.engineAt client quorumHealth node) clock node allNodes = result) :
    Draining serial chunks (steps + 1) result.node (result.calls.foldl admin.after client) := by
  have hserial := hdraining.serial_eq
  have hstage := hdraining.step_eq
  by_cases hdrains : steps < max 1 chunks
  · rw [stageAfter, if_pos hdrains] at hstage
    rw [step_evacuating hstage] at hresult
    unfold evacuate at hresult
    rcases Nat.eq_zero_or_pos steps with rfl | hsteps
    · obtain ⟨hnone, hfailure, hdelay⟩ := hdraining.unstarted rfl
      have hrequest : admin.drainNode client serial =
          (.ok (handleOf serial), client.record (handleOf serial) (initialStatus chunks)) := by
        simp only [admin, MockGfsAdminClient.drainNode, hdelay]
      have hgranted : (admin.engineAt client quorumHealth node).drainNode
          node.spec.hardwareSerial = .ok (handleOf serial) := by
        simp only [GfsAdminClient.engineAt, hserial, hrequest]
      obtain ⟨prom, hprom⟩ := promotionOf_ne_none node hstage (by decide)
      simp only [hnone, hgranted] at hresult
      rw [← hresult, GfsAdminClient.awaitDrain_calls]
      have hasked : (admin.engineAt client quorumHealth node).drainStatus (handleOf serial) =
          (admin.drainStatus (client.record (handleOf serial) (initialStatus chunks))
            (handleOf serial)).1 := by
        simp only [GfsAdminClient.engineAt, GfsAdminClient.requested, hnone, hserial, hrequest]
      have hquery := draining_awaitDrain (persistDrainHandle clock node (handleOf serial))
        (client.record (handleOf serial) (initialStatus chunks)) clock
        [.drainNode node.spec.hardwareSerial (.ok (handleOf serial))] hserial
        (drainHandleOf_persistDrainHandle clock node hprom (handleOf serial)) hdrains
        (record_drains_self _ _) hasked
      simpa only [List.singleton_append, List.foldl_cons, List.foldl_nil, GfsAdminClient.after,
        hserial, hrequest] using hquery
    · obtain ⟨hheld, hdrain⟩ := hdraining.waiting hsteps hdrains
      have hleft : client.drains (handleOf serial) = some (initialStatus (chunks - steps)) := by
        rw [hdrain, initialStatus, if_neg (by omega)]
      simp only [hheld] at hresult
      rw [← hresult, GfsAdminClient.awaitDrain_calls]
      apply draining_awaitDrain node client clock [] hserial hheld hdrains hleft
      simp only [GfsAdminClient.engineAt, GfsAdminClient.requested, hheld]
  · rw [stageAfter, if_neg hdrains] at hstage
    obtain ⟨hnext, hsame⟩ := step_later hstage (admin.engineAt client quorumHealth node) clock
      allNodes
    rw [hresult] at hnext hsame
    refine ⟨hsame.trans hserial, ?_, fun hzero => absurd hzero (Nat.succ_ne_zero _),
      fun _ hless => absurd hless (by omega)⟩
    rw [hnext, stageAfter, if_neg (by omega), Nat.sub_add_comm (by omega)]

/-- Another node's calls leave a drain as it is: they write under another handle, and
where that is spelt like the serial they write no failure there. -/
theorem Draining.after_of_ne (hdraining : Draining serial chunks steps node client)
    {other : Str} {call : GfsCall} (hcall : Concerns other call) (hne : serial ≠ other) :
    Draining serial chunks steps node (admin.after client call) := by
  rcases after_cases client hcall with hsame | ⟨status, hrecord, hlive⟩
  · rw [hsame]
    exact hdraining
  · rw [hrecord]
    refine ⟨hdraining.serial_eq, hdraining.step_eq, ?_, ?_⟩
    · intro hzero
      obtain ⟨hnone, hfailure, hdelay⟩ := hdraining.unstarted hzero
      refine ⟨hnone, ?_, hdelay⟩
      intro reason
      by_cases hspelt : serial = handleOf other
      · rw [hspelt, record_drains_self]
        intro hfailed
        exact hlive reason (Option.some.inj hfailed)
      · rw [record_drains_of_ne hspelt]
        exact hfailure reason
    · intro hpositive hless
      obtain ⟨hheld, hdrain⟩ := hdraining.waiting hpositive hless
      refine ⟨hheld, ?_⟩
      rw [record_drains_of_ne (handleOf_injective.ne hne)]
      exact hdrain

theorem Draining.foldl_after_of_ne (hdraining : Draining serial chunks steps node client)
    {other : Str} {calls : List GfsCall} (hcalls : ∀ call ∈ calls, Concerns other call)
    (hne : serial ≠ other) :
    Draining serial chunks steps node (calls.foldl admin.after client) := by
  induction calls generalizing client with
  | nil => exact hdraining
  | cons call rest ih =>
      obtain ⟨hcall, hrest⟩ := List.forall_mem_cons.mp hcalls
      exact ih (hdraining.after_of_ne hcall hne) hrest

end Schedule

namespace DrainCluster

variable {ι : Type} [DecidableEq ι] {serial : ι → Str} {cluster : DrainCluster ι} {i : ι}
  {chunks : Nat}

theorem draining_next (hinjective : serial.Injective) (htidy : AllTidy serial cluster)
    {steps : Nat} (hdraining : Draining (serial i) chunks steps (cluster.nodes i) cluster.client)
    (event : DrainStep ι) :
    Draining (serial i) chunks (steps + [event].countP (isOf i)) ((cluster.next event).nodes i)
      (cluster.next event).client := by
  by_cases hown : event.target = i
  · subst hown
    simp only [next, Function.update_self, isOf, decide_true, List.countP_singleton, if_true]
    exact hdraining.next event.quorumHealth event.clock event.allNodes rfl
  · have hserial : serial i ≠ serial event.target := hinjective.ne (Ne.symm hown)
    simp only [next, Function.update_of_ne (Ne.symm hown), isOf, hown, decide_false,
      List.countP_singleton, Bool.false_eq_true, if_false, Nat.add_zero]
    exact hdraining.foldl_after_of_ne (htidy.result event).2 hserial

theorem draining_run (hinjective : serial.Injective) (htidy : AllTidy serial cluster)
    {steps : Nat} (hdraining : Draining (serial i) chunks steps (cluster.nodes i) cluster.client)
    (events : List (DrainStep ι)) :
    Draining (serial i) chunks (steps + events.countP (isOf i)) ((cluster.run events).nodes i)
      (cluster.run events).client := by
  induction events generalizing cluster steps with
  | nil => exact hdraining
  | cons event rest ih =>
      have hrun := ih (htidy.next event) (draining_next hinjective htidy hdraining event)
      rw [Nat.add_assoc, ← List.countP_append, List.singleton_append] at hrun
      exact hrun

/-- The promotion of a node with `chunks` chunks drains for `max 1 chunks` of its
steps and is complete five steps later, whatever the other promotions do. -/
theorem run_schedule (hinjective : serial.Injective) (htidy : AllTidy serial cluster)
    (hstep : currentStep (cluster.nodes i) = .evacuatingGfs)
    (hhandle : drainHandleOf (cluster.nodes i) = none)
    (hfailure : ∀ reason, cluster.client.drains (serial i) ≠ some (.failed reason))
    (hdelay : (cluster.client.drainDelays (serial i)).getD 0 = chunks)
    (events : List (DrainStep ι)) :
    currentStep ((cluster.run events).nodes i) =
      stageAfter chunks (events.countP (isOf i)) := by
  have hstart : Draining (serial i) chunks 0 (cluster.nodes i) cluster.client := by
    refine ⟨(htidy i).serial_eq, ?_, fun _ => ⟨hhandle, hfailure, hdelay⟩, ?_⟩
    · rw [hstep, stageAfter, if_pos (by omega)]
    · intro hpositive
      exact absurd hpositive (Nat.lt_irrefl 0)
  have hrun := (draining_run hinjective htidy hstart events).step_eq
  rwa [Nat.zero_add] at hrun

end DrainCluster

namespace DrainCluster

namespace DrainWitness

/-- A worker chosen for promotion, before its drain was requested. -/
def chosen (name : Str) : PiNode :=
  { PromotionWitness.worker with
    spec := { PromotionWitness.worker.spec with hardwareSerial := name }
    status := some { PiNodeStatus.default with
      promotion := some (freshState PromotionWitness.worker .evacuatingGfs none [] []) } }

def serial : Bool → Str
  | true => "pi-1".toList
  | false => "pi-2".toList

/-- Two chunks to drain on the first node, none on the second. -/
def cluster : DrainCluster Bool where
  nodes i := chosen (serial i)
  client := MockGfsAdminClient.new.setSimulatedChunks (serial true) 2

theorem distinct_serial : Distinct serial := by
  constructor
  · intro i j heq
    cases i <;> cases j <;> first | rfl | cases heq
  · intro i j heq
    cases i <;> cases j <;> cases heq

theorem allTidy_cluster : AllTidy serial cluster := fun _ => ⟨rfl, .inl rfl⟩

def stepOf (i : Bool) : DrainStep Bool := ⟨i, none, fun _ => [], []⟩

theorem interleaved_as_alone :
    (cluster.run [stepOf true, stepOf false, stepOf true]).nodes true =
      (cluster.run [stepOf true, stepOf true]).nodes true :=
  run_isolated distinct_serial allTidy_cluster [stepOf true, stepOf false, stepOf true] true

theorem two_chunks_take_two_steps :
    currentStep ((cluster.run [stepOf true, stepOf false, stepOf true]).nodes true) =
      .preparingDisk :=
  run_schedule distinct_serial.injective allTidy_cluster (i := true) rfl rfl nofun rfl
    [stepOf true, stepOf false, stepOf true]

end DrainWitness

end DrainCluster

end PiCluster
