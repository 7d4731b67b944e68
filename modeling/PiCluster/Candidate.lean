/-
Selection of the worker that is promoted next: eligible nodes are scored and
sorted by descending score, ties staying in list order.
-/
import Mathlib.Data.List.Sort
import Mathlib.Logic.Relation
import PiCluster.Crd

namespace PiCluster

namespace CandidateSelector

/-- The phase of a node; an absent status counts as `Discovered`. -/
def phase (node : PiNode) : NodePhase :=
  (node.status.map PiNodeStatus.phase).getD .discovered

/-- The disk state of a node; an absent status counts as `Unformatted`. -/
def diskState (node : PiNode) : DiskState :=
  (node.status.map PiNodeStatus.diskState).getD .unformatted

def isDiskError : DiskState → Bool
  | .error _ => true
  | _ => false

/-- The three `continue` guards of the selection loop. -/
def isEligible (node : PiNode) : Bool :=
  node.spec.desiredRole == .worker &&
    (phase node == .ready || phase node == .discovered) &&
    !isDiskError (diskState node)

def score (node : PiNode) : Int :=
  100 + (if phase node = .ready then 50 else 0) +
    (if diskState node = .mountedGfs then 20 else 0)

structure ScoredCandidate where
  node : PiNode
  score : Int
deriving DecidableEq, Repr

def candidates (nodes : List PiNode) : List ScoredCandidate :=
  (nodes.filter isEligible).map fun node => ⟨node, score node⟩

/-- `sort_by_key` on the reversed score is a stable sort by descending score. -/
def selectBestCandidate (nodes : List PiNode) : Option PiNode :=
  (((candidates nodes).insertionSort fun left right =>
    right.score ≤ left.score).head?).map ScoredCandidate.node

theorem score_of_mem_candidates {nodes : List PiNode} {candidate : ScoredCandidate}
    (hmem : candidate ∈ candidates nodes) : candidate.score = score candidate.node := by
  simp only [candidates, List.mem_map] at hmem
  obtain ⟨node, _, rfl⟩ := hmem
  rfl

/-- The selection as a scan from the right: an earlier node wins ties. -/
theorem selectBestCandidate_cons (node : PiNode) (nodes : List PiNode) :
    selectBestCandidate (node :: nodes) =
      if isEligible node then
        match selectBestCandidate nodes with
        | none => some node
        | some best => if score best ≤ score node then some node else some best
      else selectBestCandidate nodes := by
  by_cases heligible : isEligible node
  · have hcandidates : candidates (node :: nodes) = ⟨node, score node⟩ :: candidates nodes := by
      simp [candidates, heligible]
    simp only [selectBestCandidate, hcandidates, List.insertionSort_cons, heligible, if_true]
    cases hsorted : (candidates nodes).insertionSort
        (fun left right => right.score ≤ left.score) with
    | nil => rfl
    | cons best rest =>
        have hmem : best ∈ candidates nodes := by
          rw [← List.mem_insertionSort (fun left right => right.score ≤ left.score), hsorted]
          exact List.mem_cons_self
        simp only [List.orderedInsert, score_of_mem_candidates hmem, List.head?_cons,
          Option.map_some]
        split <;> rfl
  · simp [selectBestCandidate, candidates, heligible]

theorem selectBestCandidate_mem {nodes : List PiNode} {best : PiNode}
    (hbest : selectBestCandidate nodes = some best) :
    best ∈ nodes ∧ isEligible best = true := by
  simp only [selectBestCandidate, Option.map_eq_some_iff] at hbest
  obtain ⟨candidate, hhead, rfl⟩ := hbest
  have hmem := List.mem_insertionSort _ |>.mp (List.mem_of_head? hhead)
  simp only [candidates, List.mem_map, List.mem_filter] at hmem
  obtain ⟨node, hnode, rfl⟩ := hmem
  exact hnode

theorem not_isEligible_of_selectBestCandidate_eq_none {nodes : List PiNode}
    (hnone : selectBestCandidate nodes = none) : ∀ node ∈ nodes, isEligible node = false := by
  intro node hnode
  rw [Bool.eq_false_iff]
  intro heligible
  have hmem : (⟨node, score node⟩ : ScoredCandidate) ∈ candidates nodes :=
    List.mem_map.mpr ⟨node, List.mem_filter.mpr ⟨hnode, heligible⟩, rfl⟩
  simp only [selectBestCandidate, Option.map_eq_none_iff, List.head?_eq_none_iff] at hnone
  rw [← List.mem_insertionSort (fun left right => right.score ≤ left.score), hnone] at hmem
  exact List.not_mem_nil hmem

/-- The node is eligible, beats every eligible node before it and is at least as
good as every one after it. -/
def IsBest (before : List PiNode) (best : PiNode) (after : List PiNode) : Prop :=
  isEligible best = true ∧
    (∀ node ∈ before, isEligible node = true → score node < score best) ∧
    ∀ node ∈ after, isEligible node = true → score node ≤ score best

theorem IsBest.selectBestCandidate_eq {before after : List PiNode} {best : PiNode}
    (hbest : IsBest before best after) :
    selectBestCandidate (before ++ best :: after) = some best := by
  obtain ⟨heligible, hbefore, hafter⟩ := hbest
  induction before with
  | nil =>
      rw [List.nil_append, selectBestCandidate_cons, if_pos heligible]
      cases hrest : selectBestCandidate after with
      | none => rfl
      | some other =>
          obtain ⟨hmem, hother⟩ := selectBestCandidate_mem hrest
          exact if_pos (hafter other hmem hother)
  | cons node before ih =>
      have hrest := ih fun other hother => hbefore other (List.mem_cons_of_mem node hother)
      rw [List.cons_append, selectBestCandidate_cons, hrest]
      split
      · rename_i hnode
        exact if_neg (not_le.mpr (hbefore node List.mem_cons_self hnode))
      · rfl

/-- A first node that is no better than the best one, or not eligible. -/
theorem IsBest.cons {before after : List PiNode} {best node : PiNode}
    (hbest : IsBest before best after)
    (hnode : isEligible node = true → score node < score best) :
    IsBest (node :: before) best after := by
  obtain ⟨heligible, hbefore, hafter⟩ := hbest
  exact ⟨heligible, List.forall_mem_cons.mpr ⟨hnode, hbefore⟩, hafter⟩

/-- A first node that is at least as good as the best one. -/
theorem IsBest.head {before after : List PiNode} {best node : PiNode}
    (hbest : IsBest before best after) (hnode : isEligible node = true)
    (hle : score best ≤ score node) : IsBest [] node (before ++ best :: after) := by
  obtain ⟨_, hbefore, hafter⟩ := hbest
  refine ⟨hnode, by simp, ?_⟩
  intro other hother heligible
  rcases List.mem_append.mp hother with hmem | hmem
  · exact (hbefore other hmem heligible).le.trans hle
  · rcases List.mem_cons.mp hmem with rfl | hmem
    · exact hle
    · exact (hafter other hmem heligible).trans hle

theorem exists_isBest {nodes : List PiNode} {best : PiNode}
    (hbest : selectBestCandidate nodes = some best) :
    ∃ before after, nodes = before ++ best :: after ∧ IsBest before best after := by
  induction nodes generalizing best with
  | nil => cases hbest
  | cons node nodes ih =>
      rw [selectBestCandidate_cons] at hbest
      cases hrest : selectBestCandidate nodes with
      | none =>
          have hnone := not_isEligible_of_selectBestCandidate_eq_none hrest
          rw [hrest] at hbest
          split at hbest
          · rename_i heligible
            cases hbest
            exact ⟨[], nodes, rfl, heligible, by simp, fun other hother hisEligible => by
              simp [hnone other hother] at hisEligible⟩
          · cases hbest
      | some other =>
          obtain ⟨before, after, rfl, hother⟩ := ih hrest
          rw [hrest] at hbest
          split at hbest
          · rename_i heligible
            simp only at hbest
            split at hbest
            · rename_i hle
              cases hbest
              exact ⟨[], _, rfl, hother.head heligible hle⟩
            · rename_i hlt
              cases hbest
              exact ⟨node :: before, after, rfl, hother.cons fun _ => not_le.mp hlt⟩
          · rename_i hineligible
            cases hbest
            exact ⟨node :: before, after, rfl,
              hother.cons fun heligible => absurd heligible hineligible⟩

/-- The selection is unmoved by changes that make no node eligible or better,
as long as the selected one stays eligible. -/
theorem selectBestCandidate_map {nodes : List PiNode} {best : PiNode} {change : PiNode → PiNode}
    (hbest : selectBestCandidate nodes = some best)
    (hweaker : ∀ node ∈ nodes, isEligible (change node) = true →
      isEligible node = true ∧ score (change node) = score node)
    (hkept : isEligible (change best) = true) :
    selectBestCandidate (nodes.map change) = some (change best) := by
  obtain ⟨before, after, rfl, _, hbefore, hafter⟩ := exists_isBest hbest
  have hscore : score (change best) = score best := (hweaker best (by simp) hkept).2
  rw [List.map_append, List.map_cons]
  refine IsBest.selectBestCandidate_eq ⟨hkept, ?_, ?_⟩
  · intro changed hchanged heligible
    obtain ⟨node, hnode, rfl⟩ := List.mem_map.mp hchanged
    obtain ⟨hisEligible, hsame⟩ := hweaker node (by simp [hnode]) heligible
    rw [hsame, hscore]
    exact hbefore node hnode hisEligible
  · intro changed hchanged heligible
    obtain ⟨node, hnode, rfl⟩ := List.mem_map.mp hchanged
    obtain ⟨hisEligible, hsame⟩ := hweaker node (by simp [hnode]) heligible
    rw [hsame, hscore]
    exact hafter node hnode hisEligible

/-- Who may be promoted: a worker that is ready or, also for want of a status,
discovered, and whose disk is not in error. -/
structure MayBePromoted (node : PiNode) : Prop where
  role : node.spec.desiredRole = .worker
  phase : ∀ status, node.status = some status →
    status.phase = .ready ∨ status.phase = .discovered
  disk : ∀ status, node.status = some status → ∀ message, status.diskState ≠ .error message

/-- What a node is worth as a candidate. -/
def worth (node : PiNode) : Int :=
  match node.status with
  | none => 100
  | some status => 100 + (if status.phase = .ready then 50 else 0) +
      (if status.diskState = .mountedGfs then 20 else 0)

theorem isDiskError_eq_false_iff (disk : DiskState) :
    isDiskError disk = false ↔ ∀ message, disk ≠ .error message := by
  cases disk <;> simp [isDiskError]

theorem isEligible_iff (node : PiNode) : isEligible node = true ↔ MayBePromoted node := by
  cases hstatus : node.status with
  | none =>
      have heligible : isEligible node = true ↔ node.spec.desiredRole = .worker := by
        simp [isEligible, phase, diskState, isDiskError, hstatus]
      constructor
      · intro hworker
        exact ⟨heligible.mp hworker, by simp [hstatus], by simp [hstatus]⟩
      · intro hmay
        exact heligible.mpr hmay.role
  | some status =>
      have heligible : isEligible node = true ↔ node.spec.desiredRole = .worker ∧
          (status.phase = .ready ∨ status.phase = .discovered) ∧
          ∀ message, status.diskState ≠ .error message := by
        rw [← isDiskError_eq_false_iff]
        simp [isEligible, phase, diskState, hstatus, and_assoc]
      constructor
      · intro hall
        obtain ⟨hrole, hphase, hdisk⟩ := heligible.mp hall
        constructor
        · exact hrole
        · intro other hother
          cases hstatus.symm.trans hother
          exact hphase
        · intro other hother
          cases hstatus.symm.trans hother
          exact hdisk
      · intro hmay
        exact heligible.mpr ⟨hmay.role, hmay.phase status hstatus, hmay.disk status hstatus⟩

theorem score_eq_worth (node : PiNode) : score node = worth node := by
  cases hstatus : node.status with
  | none => simp [score, worth, phase, diskState, hstatus]
  | some status => simp [score, worth, phase, diskState, hstatus]

/-- One list is the other with a node inserted that may not be promoted. -/
def Inserts (short long : List PiNode) : Prop :=
  ∃ left node right, ¬ MayBePromoted node ∧ short = left ++ right ∧
    long = left ++ node :: right

/-- The selection looks at the eligible nodes and their order only. -/
theorem selectBestCandidate_congr {nodes others : List PiNode}
    (hsame : nodes.filter isEligible = others.filter isEligible) :
    selectBestCandidate nodes = selectBestCandidate others := by
  rw [selectBestCandidate, selectBestCandidate, candidates, candidates, hsame]

/-- Any number of insertions and removals keeps the eligible nodes. -/
theorem filter_isEligible_of_eqvGen {nodes others : List PiNode}
    (hchanged : Relation.EqvGen Inserts nodes others) :
    nodes.filter isEligible = others.filter isEligible := by
  induction hchanged with
  | rel short long hinserts =>
      obtain ⟨left, node, right, hnot, rfl, rfl⟩ := hinserts
      have hineligible : isEligible node = false := by
        rw [Bool.eq_false_iff]
        exact fun heligible => hnot ((isEligible_iff node).mp heligible)
      simp [hineligible]
  | refl nodes => rfl
  | symm nodes others _ ih => exact ih.symm
  | trans nodes middle others _ _ ihleft ihright => exact ihleft.trans ihright

/-- The selection fails exactly when nobody may be promoted; otherwise it is the
first of the best, and nodes that may not be promoted have no say in it. -/
theorem selectBestCandidate_first_best (nodes : List PiNode) :
    (selectBestCandidate nodes = none ↔ ∀ node ∈ nodes, ¬ MayBePromoted node) ∧
      (∀ best, selectBestCandidate nodes = some best →
        MayBePromoted best ∧
        (∀ node ∈ nodes, MayBePromoted node → worth node ≤ worth best) ∧
        ∃ before after, nodes = before ++ best :: after ∧
          ∀ node ∈ before, MayBePromoted node → worth node < worth best) ∧
      ∀ others, Relation.EqvGen Inserts nodes others →
        selectBestCandidate others = selectBestCandidate nodes := by
  refine ⟨⟨?_, ?_⟩, ?_, ?_⟩
  · intro hnone node hnode hmay
    have hineligible := not_isEligible_of_selectBestCandidate_eq_none hnone node hnode
    rw [(isEligible_iff node).mpr hmay] at hineligible
    cases hineligible
  · intro hnobody
    cases hbest : selectBestCandidate nodes with
    | none => rfl
    | some best =>
        obtain ⟨hmem, heligible⟩ := selectBestCandidate_mem hbest
        exact absurd ((isEligible_iff best).mp heligible) (hnobody best hmem)
  · intro best hbest
    obtain ⟨before, after, rfl, heligible, hbefore, hafter⟩ := exists_isBest hbest
    simp only [isEligible_iff, score_eq_worth] at heligible hbefore hafter
    refine ⟨heligible, ?_, before, after, rfl, hbefore⟩
    intro node hnode hmay
    rcases List.mem_append.mp hnode with hmem | hmem
    · exact (hbefore node hmem hmay).le
    · rcases List.mem_cons.mp hmem with rfl | hmem
      · exact le_rfl
      · exact hafter node hmem hmay
  · intro others hchanged
    exact (selectBestCandidate_congr (filter_isEligible_of_eqvGen hchanged)).symm

end CandidateSelector

end PiCluster
