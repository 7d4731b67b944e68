/-
The counters of a topology pass.  They are bytes, and the list of nodes has any
length: up to 255 masters and as many workers the counts are exact, from the next
node on the loop overflows and what is written and decided is wrong.
-/
import PiCluster.Reconcile

namespace PiCluster

open Text CandidateSelector PromotionEngine

namespace TopologyReconciler

structure RoleCounts where
  masters : UInt8
  workers : UInt8
deriving DecidableEq, Repr

/-- `count += 1` under overflow checks; `none` is the panic. -/
def checkedSucc (count : UInt8) : Option UInt8 :=
  if count.toNat + 1 < 256 then some (count + 1) else none

/-- One round of the counting loop. -/
def countNode (counts : RoleCounts) (node : PiNode) : Option RoleCounts :=
  match node.spec.desiredRole with
  | .master | .seed => (checkedSucc counts.masters).map fun count =>
      { counts with masters := count }
  | .worker => (checkedSucc counts.workers).map fun count => { counts with workers := count }
  | _ => some counts

/-- The counting loop under overflow checks. -/
def countRoles (nodes : List PiNode) : Option RoleCounts := nodes.foldlM countNode ⟨0, 0⟩

section Loop

variable {counts : RoleCounts} {node : PiNode}

theorem checkedSucc_eq_some_iff {count next : UInt8} :
    checkedSucc count = some next ↔ next.toNat = count.toNat + 1 := by
  unfold checkedSucc
  have hbound := next.toNat_lt
  split
  next hroom =>
    rw [Option.some.injEq, ← UInt8.toNat_inj, UInt8.toNat_add]
    simp only [UInt8.toNat_one]
    omega
  next hfull => simp only [reduceCtorEq, false_iff]; omega

/-- A round that ends counts the node in its role's counter. -/
theorem countNode_eq_some_iff {next : RoleCounts} :
    countNode counts node = some next ↔
      next.masters.toNat = counts.masters.toNat + (if isMaster node then 1 else 0) ∧
        next.workers.toNat = counts.workers.toNat + (if isWorker node then 1 else 0) := by
  have hsame : ∀ {left right : UInt8}, left = right ↔ right.toNat = left.toNat := by
    intro left right
    rw [UInt8.toNat_inj, eq_comm]
  obtain ⟨masters, workers⟩ := counts
  obtain ⟨masters', workers'⟩ := next
  cases hrole : node.spec.desiredRole with
  | master | seed =>
      have hisMaster : isMaster node = true := by simp [isMaster, hrole]
      have hisWorker : isWorker node = false := by simp [isWorker, hrole]
      simp [countNode, hrole, hisMaster, hisWorker, ← checkedSucc_eq_some_iff, hsame.symm]
  | worker =>
      have hisMaster : isMaster node = false := by simp [isMaster, hrole]
      have hisWorker : isWorker node = true := by simp [isWorker, hrole]
      simp [countNode, hrole, hisMaster, hisWorker, ← checkedSucc_eq_some_iff, hsame.symm,
        and_comm]
  | pending | decommissioned =>
      have hisMaster : isMaster node = false := by simp [isMaster, hrole]
      have hisWorker : isWorker node = false := by simp [isWorker, hrole]
      simp [countNode, hrole, hisMaster, hisWorker, hsame.symm]

theorem foldlM_countNode_eq_some_iff {nodes : List PiNode} {final : RoleCounts} :
    nodes.foldlM countNode counts = some final ↔
      final.masters.toNat = counts.masters.toNat + nodes.countP isMaster ∧
        final.workers.toNat = counts.workers.toNat + nodes.countP isWorker := by
  induction nodes generalizing counts with
  | nil =>
      obtain ⟨masters, workers⟩ := counts
      obtain ⟨masters', workers'⟩ := final
      simp [UInt8.toNat_inj, eq_comm]
  | cons node rest ih =>
      simp only [List.foldlM_cons, Option.bind_eq_bind, Option.bind_eq_some_iff, ih,
        countNode_eq_some_iff, List.countP_cons]
      constructor
      · rintro ⟨next, ⟨hmasters, hworkers⟩, hfinal⟩
        omega
      · rintro ⟨hmasters, hworkers⟩
        have hmastersLt := final.masters.toNat_lt
        have hworkersLt := final.workers.toNat_lt
        -- the counters between the rounds are no larger than the final ones
        refine ⟨⟨.ofNat (counts.masters.toNat + if isMaster node then 1 else 0),
          .ofNat (counts.workers.toNat + if isWorker node then 1 else 0)⟩, ?_⟩
        rw [UInt8.toNat_ofNat_of_lt' (by simp only [UInt8.size]; omega),
          UInt8.toNat_ofNat_of_lt' (by simp only [UInt8.size]; omega)]
        omega

end Loop

/-- The loop gets through exactly the lists whose counts fit into a byte. -/
theorem isSome_countRoles_iff (nodes : List PiNode) :
    (countRoles nodes).isSome = true ↔
      nodes.countP isMaster < 256 ∧ nodes.countP isWorker < 256 := by
  rw [Option.isSome_iff_exists]
  simp only [countRoles, foldlM_countNode_eq_some_iff, UInt8.toNat_zero, Nat.zero_add]
  constructor
  · rintro ⟨final, hmasters, hworkers⟩
    rw [← hmasters, ← hworkers]
    exact ⟨final.masters.toNat_lt, final.workers.toNat_lt⟩
  · rintro ⟨hmasters, hworkers⟩
    exact ⟨⟨.ofNat (nodes.countP isMaster), .ofNat (nodes.countP isWorker)⟩,
      UInt8.toNat_ofNat_of_lt' hmasters, UInt8.toNat_ofNat_of_lt' hworkers⟩

/-- Without overflow checks the counters wrap. -/
theorem toNat_countRole (role : PiNode → Bool) (nodes : List PiNode) :
    (countRole role nodes).toNat = nodes.countP role % 256 := by
  have hloop : ∀ count : UInt8,
      (nodes.foldl (fun count node => if role node then count + 1 else count) count).toNat =
        (count.toNat + nodes.countP role) % 256 := by
    induction nodes with
    | nil =>
        intro count
        exact (Nat.mod_eq_of_lt count.toNat_lt).symm
    | cons node rest ih =>
        intro count
        rw [List.foldl_cons, ih, List.countP_cons]
        split
        · simp only [UInt8.toNat_add, UInt8.toNat_one]
          omega
        · rfl
  simpa [countRole] using hloop 0

theorem toNat_countRole_of_lt {role : PiNode → Bool} {nodes : List PiNode}
    (hlt : nodes.countP role < 256) : (countRole role nodes).toNat = nodes.countP role := by
  rw [toNat_countRole, Nat.mod_eq_of_lt hlt]

/-- What a pass owes one topology: the counting loop ends, the status has the true
counts, and a promotion is started only if masters are really missing. -/
structure CountsExact (nodes : List PiNode) (topo : ClusterTopology) (quorum : Option Bool) :
    Prop where
  finishes : (countRoles nodes).isSome = true
  masters : (topologyStatus nodes topo quorum).currentMasterCount.toNat =
    nodes.countP isMaster
  workers : (topologyStatus nodes topo quorum).currentWorkerCount.toNat =
    nodes.countP isWorker
  promotion : (spawnPromotion nodes topo quorum).isSome = true →
    nodes.countP isMaster < topo.spec.targetMasterCount.toNat

/-- A promotion is started on the counter, not on the count. -/
theorem masterCount_lt_of_spawnPromotion {nodes : List PiNode} {topo : ClusterTopology}
    {quorum : Option Bool} (hspawned : (spawnPromotion nodes topo quorum).isSome = true) :
    (masterCount nodes).toNat < topo.spec.targetMasterCount.toNat := by
  unfold spawnPromotion at hspawned
  split at hspawned
  next hneeds =>
    simp only [needsPromotion, Bool.and_eq_true, decide_eq_true_eq] at hneeds
    exact UInt8.lt_iff_toNat_lt.mp hneeds.1
  next => cases hspawned

theorem countsExact_iff (nodes : List PiNode) (topo : ClusterTopology) (quorum : Option Bool) :
    CountsExact nodes topo quorum ↔
      nodes.countP isMaster < 256 ∧ nodes.countP isWorker < 256 := by
  constructor
  · intro hexact
    exact (isSome_countRoles_iff nodes).mp hexact.finishes
  · intro hfits
    have hmasters : (masterCount nodes).toNat = nodes.countP isMaster :=
      toNat_countRole_of_lt hfits.1
    constructor
    · exact (isSome_countRoles_iff nodes).mpr hfits
    · exact hmasters
    · exact toNat_countRole_of_lt hfits.2
    · intro hspawned
      rw [← hmasters]
      exact masterCount_lt_of_spawnPromotion hspawned

/-- The stored topology has a status with the true counts. -/
def HasCounts (nodes : List PiNode) (topo : ClusterTopology) : Prop :=
  ∃ status, topo.status = some status ∧
    status.currentMasterCount.toNat = nodes.countP isMaster ∧
    status.currentWorkerCount.toNat = nodes.countP isWorker

/-- A patch leaves a topology alone or gives it the status. -/
theorem mem_patchStatus {topologies : List ClusterTopology} {topo stored : ClusterTopology}
    {status : ClusterTopologyStatus} (hstored : stored ∈ patchStatus topologies topo status) :
    stored ∈ topologies ∨ stored.status = some status := by
  unfold patchStatus at hstored
  split at hstored
  · exact Or.inl hstored
  · obtain ⟨old, hold, rfl⟩ := List.mem_map.mp hstored
    split
    · exact Or.inr rfl
    · exact Or.inl hold

/-- A status that a pass writes has the true counts, if they fit. -/
theorem mem_topologies_reconcileTopology {api : ApiServer} {answers : TopologyAnswers}
    (hfits : api.nodes.countP isMaster < 256 ∧ api.nodes.countP isWorker < 256) :
    ∀ stored ∈ (reconcileTopology api answers).1.topologies,
      stored ∈ api.topologies ∨ HasCounts api.nodes stored := by
  unfold reconcileTopology
  simp only
  split
  · refine List.foldlRecOn (motive := fun topologies => ∀ stored ∈ topologies,
      stored ∈ api.topologies ∨ HasCounts api.nodes stored) _ _ (fun _ => Or.inl) ?_
    rintro topologies hold ⟨topo, i⟩ _ stored hstored
    split at hstored
    · rcases mem_patchStatus hstored with hkept | hwritten
      · exact hold stored hkept
      · have hexact := (countsExact_iff api.nodes topo (answers.quorum i)).mpr hfits
        exact Or.inr ⟨_, hwritten, hexact.masters, hexact.workers⟩
    · exact hold stored hstored
  · exact fun _ => Or.inl

/-- The promotions of a pass are started for topologies that miss masters, if the
counts fit. -/
theorem mem_spawned {api : ApiServer} {answers : TopologyAnswers}
    (hfits : api.nodes.countP isMaster < 256 ∧ api.nodes.countP isWorker < 256) :
    ∀ task ∈ (reconcileTopology api answers).2, ∃ topo ∈ api.topologies,
      api.nodes.countP isMaster < topo.spec.targetMasterCount.toNat := by
  intro task htask
  simp only [reconcileTopology, spawned] at htask
  split at htask
  · obtain ⟨⟨topo, i⟩, htopo, hspawned⟩ := List.mem_filterMap.mp htask
    have hexact := (countsExact_iff api.nodes topo (answers.quorum i)).mpr hfits
    refine ⟨topo, (List.mem_zipIdx' htopo).2 ▸ List.getElem_mem _, hexact.promotion ?_⟩
    exact Option.isSome_of_mem hspawned
  · cases htask

/-- The counts of a pass are exact for a topology exactly when neither the masters
nor the workers are more than 255; then so is every status it writes, and it starts
promotions only for topologies that miss masters. -/
theorem reconcileTopology_counts_iff (api : ApiServer) (answers : TopologyAnswers)
    (topo : ClusterTopology) (quorum : Option Bool) :
    (CountsExact api.nodes topo quorum ↔
      api.nodes.countP isMaster < 256 ∧ api.nodes.countP isWorker < 256) ∧
    (api.nodes.countP isMaster < 256 ∧ api.nodes.countP isWorker < 256 →
      (∀ stored ∈ (reconcileTopology api answers).1.topologies,
        stored ∈ api.topologies ∨ HasCounts api.nodes stored) ∧
      ∀ task ∈ (reconcileTopology api answers).2, ∃ topo ∈ api.topologies,
        api.nodes.countP isMaster < topo.spec.targetMasterCount.toNat) :=
  ⟨countsExact_iff api.nodes topo quorum, fun hfits =>
    ⟨mem_topologies_reconcileTopology hfits, mem_spawned hfits⟩⟩

namespace CountsWitness

def master : PiNode :=
  { PromotionWitness.worker with
    spec := { PromotionWitness.worker.spec with desiredRole := .master } }

/-- One master more than a byte can count, and a worker. -/
def crowded : List PiNode := List.replicate 256 master ++ [PromotionWitness.worker]

def topology : ClusterTopology := ⟨some "pi".toList, ⟨"seed-1".toList, 3⟩, none⟩

theorem countP_isMaster_crowded : crowded.countP isMaster = 256 := by
  have hmaster : isMaster master = true := rfl
  have hworker : isMaster PromotionWitness.worker = false := rfl
  rw [crowded, List.countP_append, List.countP_replicate, if_pos hmaster,
    List.countP_singleton, hworker]
  rfl

/-- The counter is back at zero: the loop overflows, the status says there is no
master, and a worker is promoted although there are 256. -/
theorem crowded_overflows :
    crowded.countP isMaster = 256 ∧ (countRoles crowded).isSome = false ∧
      (topologyStatus crowded topology none).currentMasterCount = 0 ∧
      (spawnPromotion crowded topology none).isSome = true ∧
      ¬ crowded.countP isMaster < topology.spec.targetMasterCount.toNat := by
  have hcount := countP_isMaster_crowded
  have hzero : masterCount crowded = 0 := by
    rw [← UInt8.toNat_inj, masterCount, toNat_countRole, hcount]
    rfl
  refine ⟨hcount, ?_, ?_, ?_, ?_⟩
  · rw [Bool.eq_false_iff, Ne, isSome_countRoles_iff, hcount]
    omega
  · rw [topologyStatus, hzero]
  · have hneeds : needsPromotion crowded topology none = true := by
      rw [needsPromotion, hzero]
      rfl
    have hfound : selectBestCandidate crowded ≠ none := by
      intro hnone
      have hineligible := not_isEligible_of_selectBestCandidate_eq_none hnone
        PromotionWitness.worker List.mem_concat_self
      exact absurd hineligible (by decide)
    rw [spawnPromotion, if_pos hneeds, Option.isSome_map]
    exact Option.isSome_iff_ne_none.mpr hfound
  · rw [hcount]
    decide

end CountsWitness

end TopologyReconciler

end PiCluster
