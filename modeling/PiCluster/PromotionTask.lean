/-
The promotions a topology pass spawns.  A task owns a clone of its candidate and
steps it in a loop of its own, so whether it ends depends on what the services
answer to it, and how many there are for one node depends on the passes alone.
-/
import PiCluster.ClusterPromotion
import PiCluster.Reconcile

namespace PiCluster

open Text CandidateSelector PromotionEngine TopologyReconciler

namespace PromotionTask

/-- The loop is over: the `while` condition is false. -/
def finished (task : PromotionTask) : Bool :=
  task.currentStep == .complete || task.currentStep == .failed

/-- The body of the loop; `engine.step` never returns an error. -/
def advance (task : PromotionTask) (engine : PromotionEngine) (clock : Clock) :
    PromotionTask × List GfsCall :=
  let result := step engine clock task.candidate task.snapshot
  (⟨result.node, task.snapshot, result.step⟩, result.calls)

/-- One round of the loop, if it is not over. -/
def tick (task : PromotionTask) (engine : PromotionEngine) (clock : Clock) : PromotionTask :=
  if task.finished then task else (task.advance engine clock).1

end PromotionTask

/-- What the services answer to one task: every drain is granted and reports
`waits` times that it is in progress before it is complete. -/
structure LoopAnswers where
  handle : Str → Str
  waits : Nat
  chunks : Nat → Nat
  quorum : Nat → Option Bool
  clock : Nat → Clock

/-- A task, the requests it has made and the number of steps it has taken. -/
structure PromotionLoop where
  task : PromotionTask
  calls : List GfsCall
  rounds : Nat

namespace PromotionLoop

def start (task : PromotionTask) : PromotionLoop := ⟨task, [], 0⟩

/-- How often the drain status was queried. -/
def queries (loop : PromotionLoop) : Nat := loop.calls.countP fun call => !isDrainRequest call

def drainAnswer (answers : LoopAnswers) (loop : PromotionLoop) : DrainStatus :=
  if loop.queries < answers.waits then .inProgress (answers.chunks loop.queries) else .complete

def engine (answers : LoopAnswers) (loop : PromotionLoop) : PromotionEngine where
  drainNode serial := .ok (answers.handle serial)
  drainStatus _ := .ok (loop.drainAnswer answers)
  quorumHealth := answers.quorum loop.rounds

def next (answers : LoopAnswers) (loop : PromotionLoop) : PromotionLoop :=
  if loop.task.finished then loop
  else
    let advanced := loop.task.advance (loop.engine answers) (answers.clock loop.rounds)
    ⟨advanced.1, loop.calls ++ advanced.2, loop.rounds + 1⟩

/-- The loop is over and its candidate is a master with a confirmed reformat. -/
structure Completed (loop : PromotionLoop) : Prop where
  step_eq : loop.task.currentStep = .complete
  role_eq : loop.task.candidate.spec.desiredRole = .master
  confirmed : loop.task.candidate.spec.reformatConfirmed = true

/-- Some finite number of rounds leads to a completed loop. -/
def Completes (answers : LoopAnswers) (loop : PromotionLoop) : Prop :=
  ∃ n, Completed ((next answers)^[n] loop)

/-- A running loop whose candidate is at the given step. -/
structure At (reached : PromotionStep) (loop : PromotionLoop) : Prop where
  running : loop.task.finished = false
  step_eq : currentStep loop.task.candidate = reached

/-- The engine's answer to the round the loop is about to make. -/
def result (answers : LoopAnswers) (loop : PromotionLoop) : StepResult :=
  step (loop.engine answers) (answers.clock loop.rounds) loop.task.candidate loop.task.snapshot

section Rounds

variable {answers : LoopAnswers} {loop : PromotionLoop}

theorem completes_of_next (hnext : Completes answers (loop.next answers)) :
    Completes answers loop := by
  obtain ⟨n, hcompleted⟩ := hnext
  exact ⟨n + 1, hcompleted⟩

/-- A round that moves on to `reached` without failing. -/
theorem next_of_advance {node : PiNode} {reached : PromotionStep} {calls : List GfsCall}
    (hrunning : loop.task.finished = false)
    (hresult : loop.result answers = PromotionEngine.advance (answers.clock loop.rounds) node
      reached calls) :
    loop.next answers =
      ⟨⟨updateFsmStep (answers.clock loop.rounds) node reached, loop.task.snapshot, reached⟩,
        loop.calls ++ calls, loop.rounds + 1⟩ := by
  have hnext : loop.next answers = ⟨⟨(loop.result answers).node, loop.task.snapshot,
      (loop.result answers).step⟩, loop.calls ++ (loop.result answers).calls,
      loop.rounds + 1⟩ := by
    simp only [next, hrunning]
    rfl
  rw [hnext, hresult]
  rfl

/-- It is enough that the loop completes after such a round. -/
theorem completes_of_advance {node : PiNode} {reached : PromotionStep} {calls : List GfsCall}
    (hrunning : loop.task.finished = false)
    (hresult : loop.result answers = PromotionEngine.advance (answers.clock loop.rounds) node
      reached calls)
    (hthen : Completes answers
      ⟨⟨updateFsmStep (answers.clock loop.rounds) node reached, loop.task.snapshot, reached⟩,
        loop.calls ++ calls, loop.rounds + 1⟩) : Completes answers loop := by
  apply completes_of_next
  rw [next_of_advance hrunning hresult]
  exact hthen

/-- The steps from the disk on, by the number of rounds that are left. -/
def diskStage : Nat → PromotionStep
  | 0 => .complete
  | 1 => .verifying
  | 2 => .joiningEtcd
  | 3 => .promotingK3s
  | 4 => .reformattingDisk
  | _ => .preparingDisk

/-- What the reformatting step makes of the candidate. -/
structure ConfirmedMaster (spec : PiNodeSpec) : Prop where
  role_eq : spec.desiredRole = .master
  confirmed : spec.reformatConfirmed = true

theorem result_diskStage (answers : LoopAnswers) {left : Nat} (hleft : left < 5)
    (hat : currentStep loop.task.candidate = diskStage (left + 1))
    (hmaster : left + 1 ≤ 3 → ConfirmedMaster loop.task.candidate.spec) :
    ∃ node, loop.result answers = PromotionEngine.advance (answers.clock loop.rounds) node
        (diskStage left) [] ∧ (left ≤ 3 → ConfirmedMaster node.spec) := by
  simp only [result, step, getD_currentStep, hat]
  rcases left with _ | _ | _ | _ | _ | left
  · exact ⟨_, rfl, fun _ => hmaster (by omega)⟩
  · exact ⟨_, rfl, fun _ => hmaster (by omega)⟩
  · exact ⟨_, rfl, fun _ => hmaster (by omega)⟩
  · exact ⟨_, rfl, fun _ => ⟨rfl, rfl⟩⟩
  · exact ⟨_, rfl, fun hle => absurd hle (by omega)⟩
  · omega

/-- From the disk on nothing is waited for. -/
theorem completes_of_diskStage {left : Nat} (hleft : left ≤ 5)
    (hstep : loop.task.currentStep = diskStage left)
    (hat : currentStep loop.task.candidate = diskStage left)
    (hmaster : left ≤ 3 → ConfirmedMaster loop.task.candidate.spec) : Completes answers loop := by
  induction left generalizing loop with
  | zero =>
      obtain ⟨hrole, hconfirmed⟩ := hmaster (by omega)
      exact ⟨0, hstep, hrole, hconfirmed⟩
  | succ left ih =>
      have hrunning : loop.task.finished = false := by
        rw [PromotionTask.finished, hstep]
        rcases left with _ | _ | _ | _ | left <;> rfl
      obtain ⟨node, hresult, hnode⟩ := result_diskStage answers hleft hat hmaster
      exact completes_of_advance hrunning hresult (ih (by omega) rfl rfl hnode)

/-- A round of evacuation asks for the status once, after a granted request or
with the handle of an earlier one. -/
theorem result_evacuating (answers : LoopAnswers) (hat : At .evacuatingGfs loop) :
    ∃ node calls, calls.countP (fun call => !isDrainRequest call) = 1 ∧
      loop.result answers = PromotionEngine.advance (answers.clock loop.rounds) node
        (if loop.queries < answers.waits then .evacuatingGfs else .preparingDisk) calls := by
  have hawait : ∀ node handle requests,
      awaitDrain (loop.engine answers) (answers.clock loop.rounds) node handle requests =
        PromotionEngine.advance (answers.clock loop.rounds) node
          (if loop.queries < answers.waits then .evacuatingGfs else .preparingDisk)
          (requests ++ [.drainStatus handle (.ok (loop.drainAnswer answers))]) := by
    intro node handle requests
    by_cases hwaits : loop.queries < answers.waits <;>
      simp [awaitDrain, engine, drainAnswer, hwaits]
  simp only [result, step, getD_currentStep, hat.step_eq, getD_drainHandle]
  cases hhandle : drainHandleOf loop.task.candidate with
  | some handle => exact ⟨_, _, rfl, hawait _ handle []⟩
  | none => exact ⟨_, _, rfl, hawait _ (answers.handle _) [_]⟩

/-- The drain ends after the rounds it still has to wait. -/
theorem completes_of_evacuatingGfs (hat : At .evacuatingGfs loop) :
    Completes answers loop := by
  induction hwait : answers.waits - loop.queries generalizing loop with
  | zero =>
      obtain ⟨node, calls, _, hresult⟩ := result_evacuating answers hat
      rw [if_neg (by omega)] at hresult
      exact completes_of_advance hat.running hresult
        (completes_of_diskStage (Nat.le_refl 5) rfl rfl fun hle => absurd hle (by omega))
  | succ n ih =>
      obtain ⟨node, calls, hcalls, hresult⟩ := result_evacuating answers hat
      rw [if_pos (by omega)] at hresult
      refine completes_of_advance hat.running hresult (ih ⟨rfl, rfl⟩ ?_)
      simp only [queries, List.countP_append, hcalls] at hwait ⊢
      omega

/-- The candidate is the one its snapshot selects. -/
def Chosen (loop : PromotionLoop) : Prop :=
  ∃ best, selectBestCandidate loop.task.snapshot = some best ∧
    best.spec.hardwareSerial = loop.task.candidate.spec.hardwareSerial

theorem completes_of_selectingCandidate (hat : At .selectingCandidate loop)
    (hchosen : Chosen loop) : Completes answers loop := by
  obtain ⟨best, hbest, hserial⟩ := hchosen
  have hresult : loop.result answers = PromotionEngine.advance (answers.clock loop.rounds)
      loop.task.candidate .evacuatingGfs [] := by
    simp only [result, step, getD_currentStep, hat.step_eq, hbest, hserial, if_true]
  exact completes_of_advance hat.running hresult (completes_of_evacuatingGfs ⟨rfl, rfl⟩)

theorem result_detecting (answers : LoopAnswers) (hat : At .detecting loop) :
    loop.result answers = PromotionEngine.advance (answers.clock loop.rounds)
      loop.task.candidate
      (if (answers.quorum loop.rounds).getD true then .detecting else .selectingCandidate) [] := by
  simp only [result, step, getD_currentStep, hat.step_eq, engine]
  by_cases hhealthy : (answers.quorum loop.rounds).getD true = true <;> simp [hhealthy]

/-- The loop waits in `Detecting` until a check finds quorum lost. -/
theorem completes_of_detecting (hat : At .detecting loop) (hchosen : Chosen loop) {n : Nat}
    (hlost : answers.quorum (loop.rounds + n) = some false) : Completes answers loop := by
  induction n generalizing loop with
  | zero =>
      have hresult := result_detecting answers hat
      rw [Nat.add_zero] at hlost
      simp only [hlost, Option.getD_some] at hresult
      exact completes_of_advance hat.running hresult
        (completes_of_selectingCandidate ⟨rfl, rfl⟩ hchosen)
  | succ n ih =>
      have hresult := result_detecting answers hat
      split at hresult
      · refine completes_of_advance hat.running hresult (ih ⟨rfl, rfl⟩ hchosen ?_)
        rw [← hlost]
        congr 1
        simp only
        omega
      · exact completes_of_advance hat.running hresult
          (completes_of_selectingCandidate ⟨rfl, rfl⟩ hchosen)

/-- Without such a check it never leaves `Detecting`. -/
theorem at_detecting_iterate (hat : At .detecting loop)
    (hhealthy : ∀ n, answers.quorum n ≠ some false) (n : Nat) :
    At .detecting ((next answers)^[n] loop) := by
  induction n generalizing loop with
  | zero => exact hat
  | succ n ih =>
      have hgetD : (answers.quorum loop.rounds).getD true = true := by
        cases hanswer : answers.quorum loop.rounds with
        | none => rfl
        | some healthy =>
            cases healthy with
            | true => rfl
            | false => exact absurd hanswer (hhealthy loop.rounds)
      have hresult := result_detecting answers hat
      simp only [hgetD, if_true] at hresult
      rw [Function.iterate_succ_apply, next_of_advance hat.running hresult]
      exact ih ⟨rfl, rfl⟩

end Rounds

/-- A spawned loop starts in `Detecting`, whatever its own step variable says. -/
theorem at_detecting_start {nodes : List PiNode} {topo : ClusterTopology}
    {quorum : Option Bool} {task : PromotionTask}
    (hspawned : spawnPromotion nodes topo quorum = some task)
    (hfresh : promotionOf task.candidate = none) :
    At .detecting (start task) ∧ Chosen (start task) := by
  unfold spawnPromotion at hspawned
  split at hspawned
  · obtain ⟨best, hbest, rfl⟩ := Option.map_eq_some_iff.mp hspawned
    exact ⟨⟨rfl, by simp [start, currentStep, hfresh]⟩, best, hbest, rfl⟩
  · cases hspawned

/-- The promotion a pass spawns for a fresh candidate completes exactly when one
of the checks it makes itself finds quorum lost. -/
theorem spawned_completes_iff {nodes : List PiNode} {topo : ClusterTopology}
    {quorum : Option Bool} {task : PromotionTask}
    (hspawned : spawnPromotion nodes topo quorum = some task)
    (hfresh : promotionOf task.candidate = none) (answers : LoopAnswers) :
    Completes answers (start task) ↔ ∃ n, answers.quorum n = some false := by
  obtain ⟨hat, hchosen⟩ := at_detecting_start hspawned hfresh
  constructor
  · rintro ⟨n, hcompleted⟩
    by_contra hhealthy
    rw [not_exists] at hhealthy
    have hrunning := (at_detecting_iterate hat hhealthy n).running
    simp [PromotionTask.finished, hcompleted.step_eq] at hrunning
  · rintro ⟨n, hlost⟩
    have hlater : answers.quorum ((start task).rounds + n) = some false := by
      simpa [start] using hlost
    exact completes_of_detecting hat hchosen hlater

namespace LoopWitness

def topology : ClusterTopology := ⟨some "main".toList, ⟨"pi-seed".toList, 3⟩, none⟩

/-- The only worker is chosen and its drain takes two rounds. -/
def task : PromotionTask :=
  ⟨PromotionWitness.worker, [PromotionWitness.worker], .selectingCandidate⟩

def answering (quorum : Nat → Option Bool) : LoopAnswers where
  handle _ := "drain-7".toList
  waits := 2
  chunks n := 10 - n
  quorum := quorum
  clock _ := fun _ => "now".toList

theorem completes_once_lost :
    spawnPromotion [PromotionWitness.worker] topology (some true) = some task ∧
      Completes (answering fun n => some (n < 4)) (start task) := by
  have hspawned : spawnPromotion [PromotionWitness.worker] topology (some true) = some task :=
    rfl
  exact ⟨hspawned, (spawned_completes_iff hspawned rfl _).mpr ⟨4, rfl⟩⟩

/-- With every check healthy the loop is spawned and never ends. -/
theorem never_completes_healthy :
    spawnPromotion [PromotionWitness.worker] topology (some true) = some task ∧
      ∀ n, ((next (answering fun _ => some true))^[n] (start task)).task.finished = false := by
  have hhealthy : ∀ n, (answering fun _ => some true).quorum n ≠ some false := by
    intro n
    change some true ≠ some false
    decide
  exact ⟨rfl, fun n => (at_detecting_iterate ⟨rfl, rfl⟩ hhealthy n).running⟩

end LoopWitness

end PromotionLoop

/-- A topology pass over whatever is stored then, or a round of one of the tasks
spawned so far, in spawn order. -/
inductive OperatorEvent where
  | pass (api : ApiServer) (answers : TopologyAnswers)
  | round (i : Nat) (engine : PromotionEngine) (clock : Clock)

namespace PromotionTask

/-- The tasks only grow: nothing stops one before it is finished. -/
def operatorStep (tasks : List PromotionTask) : OperatorEvent → List PromotionTask
  | .pass api answers => tasks ++ (reconcileTopology api answers).2
  | .round i engine clock => tasks.modify i fun task => task.tick engine clock

/-- An unfinished task for the node with that serial. -/
def isFor (serial : Str) (task : PromotionTask) : Bool :=
  !task.finished && task.candidate.spec.hardwareSerial == serial

/-- The topologies for which a pass wants a promotion. -/
def due (api : ApiServer) (answers : TopologyAnswers) : List (ClusterTopology × Nat) :=
  if answers.listsTopologies && answers.listsNodes then
    api.topologies.zipIdx.filter fun (topo, i) =>
      needsPromotion api.nodes topo (answers.quorum i)
  else []

/-- A pass wants at most one promotion, and none while a task for the candidate
is unfinished. -/
def PassAlone (tasks : List PromotionTask) : OperatorEvent → Prop
  | .pass api answers =>
      ∀ best, selectBestCandidate api.nodes = some best →
        (due api answers).length ≤ 1 ∧
          (due api answers ≠ [] → tasks.countP (isFor best.spec.hardwareSerial) = 0)
  | .round _ _ _ => True

/-- Every topology that is due spawns one task for the same candidate. -/
theorem spawned_eq (api : ApiServer) (answers : TopologyAnswers) :
    spawned api answers = (due api answers).filterMap fun _ =>
      (selectBestCandidate api.nodes).map fun candidate =>
        ⟨candidate, api.nodes, .selectingCandidate⟩ := by
  unfold spawned due
  split
  · rw [List.filterMap_filter]
    rfl
  · rfl

/-- A round keeps the candidate's serial and does not revive a finished task. -/
theorem isFor_of_tick {serial : Str} {task : PromotionTask} {engine : PromotionEngine}
    {clock : Clock} (hafter : isFor serial (task.tick engine clock) = true) :
    isFor serial task = true := by
  unfold tick at hafter
  split at hafter
  · exact hafter
  · rename_i hrunning
    simp only [isFor, Bool.and_eq_true, beq_iff_eq] at hafter ⊢
    refine ⟨by simpa using hrunning, ?_⟩
    rw [← hafter.2]
    exact (step_serial engine clock task.candidate task.snapshot).symm

theorem countP_modify_le {α : Type} {p : α → Bool} {f : α → α}
    (hf : ∀ item, p (f item) = true → p item = true) (items : List α) (i : Nat) :
    (items.modify i f).countP p ≤ items.countP p := by
  induction items generalizing i with
  | nil => simp
  | cons item rest ih =>
      cases i with
      | zero =>
          rw [List.modify_zero_cons, List.countP_cons, List.countP_cons]
          have hhead := hf item
          split <;> split <;> simp_all
      | succ i =>
          rw [List.modify_succ_cons, List.countP_cons, List.countP_cons]
          have hrest := ih i
          omega

theorem countP_spawned_le {tasks : List PromotionTask} {api : ApiServer}
    {answers : TopologyAnswers} (halone : PassAlone tasks (.pass api answers)) (serial : Str)
    (hle : tasks.countP (isFor serial) ≤ 1) :
    tasks.countP (isFor serial) + (spawned api answers).countP (isFor serial) ≤ 1 := by
  rw [spawned_eq]
  cases hbest : selectBestCandidate api.nodes with
  | none => simpa using hle
  | some best =>
      obtain ⟨hlength, hfree⟩ := halone best hbest
      match hdue : due api answers with
      | [] => simpa using hle
      | [topo] =>
          have hzero := hfree (by simp [hdue])
          simp only [Option.map_some, List.filterMap_cons, List.filterMap_nil,
            List.countP_singleton]
          split
          · rename_i hfor
            simp only [isFor, Bool.and_eq_true, beq_iff_eq] at hfor
            rw [← hfor.2, hzero]
          · exact hle
      | first :: second :: rest => simp [hdue] at hlength

/-- One event keeps at most one unfinished task for every node. -/
theorem countP_operatorStep_le (tasks : List PromotionTask) (event : OperatorEvent)
    (hle : ∀ serial, tasks.countP (isFor serial) ≤ 1) (halone : PassAlone tasks event) :
    ∀ serial, (operatorStep tasks event).countP (isFor serial) ≤ 1 := by
  intro serial
  cases event with
  | pass api answers =>
      simp only [operatorStep, reconcileTopology, List.countP_append]
      exact countP_spawned_le halone serial (hle serial)
  | round i engine clock =>
      have hrevive : ∀ task : PromotionTask, isFor serial (task.tick engine clock) = true →
          isFor serial task = true := fun task => isFor_of_tick
      exact (countP_modify_le hrevive tasks i).trans (hle serial)

/-- As long as passes want one promotion at a time, no node has two unfinished
tasks, whatever the order of passes and rounds. -/
theorem run_single_task (events : List OperatorEvent)
    (halone : StepRun.Meets operatorStep PassAlone [] events) :
    ∀ reached, reached <+: events → ∀ serial,
      (reached.foldl operatorStep []).countP (isFor serial) ≤ 1 := by
  intro reached hreached
  exact (halone.of_isPrefix hreached).foldl_inv countP_operatorStep_le (by simp)

namespace TaskWitness

def api : ApiServer := ⟨[PromotionLoop.LoopWitness.topology], [PromotionWitness.worker]⟩

/-- A pass in which every call succeeds and quorum is healthy. -/
def healthyPass : OperatorEvent := .pass api ⟨true, true, fun _ => some true, fun _ => true⟩

theorem one_pass_one_task :
    ([healthyPass].foldl operatorStep []).countP (isFor "worker-1".toList) = 1 ∧
      ∀ serial, ([healthyPass].foldl operatorStep []).countP (isFor serial) ≤ 1 := by
  have halone : StepRun.Meets operatorStep PassAlone [] [healthyPass] :=
    ⟨fun best _ => ⟨by decide, by simp⟩, trivial⟩
  exact ⟨by decide, run_single_task [healthyPass] halone [healthyPass] (List.prefix_refl _)⟩

/-- The next pass spawns a second task for the same worker. -/
theorem two_passes_two_tasks :
    ([healthyPass, healthyPass].foldl operatorStep []).countP (isFor "worker-1".toList) = 2 := by
  decide

end TaskWitness

end PromotionTask

end PiCluster
