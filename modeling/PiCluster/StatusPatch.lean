/-
The topology pass over the documents of the API server.  The operator lists the
stored documents, reads them into the types and writes a status back as a merge
patch of its JSON, in which an absent value is a `null`.  The records the passes
are stated over are what is read from the documents, pass after pass.
-/
import PiCluster.CrdSchema
import PiCluster.Lib.MergePatch
import PiCluster.Reconcile
import Mathlib.Data.List.Forall2

namespace PiCluster

open Text Document TopologyReconciler

/-- The derived `Serialize` writes a `None` as `null`. -/
def nullable {α : Type} (write : α → Json) (content : Option α) : Json :=
  content.elim .null write

def serializeTopologyStatus (status : ClusterTopologyStatusDocument) : Fields :=
  [("current_master_count".toList, .int status.currentMasterCount.toNat),
    ("current_worker_count".toList, .int status.currentWorkerCount.toNat),
    ("quorum_healthy".toList, .bool status.quorumHealthy),
    ("seed_retired".toList, .bool status.seedRetired),
    ("active_mutation".toList, nullable .str status.activeMutation),
    ("conditions".toList, .arr (status.conditions.map writeCondition))]

def statusPatch (status : ClusterTopologyStatusDocument) : Json :=
  .obj [("status".toList, .obj (serializeTopologyStatus status))]

section RoundTrip

theorem unsigned_toNat (byte : UInt8) :
    UInt8.ofNat <$> unsigned u8Bound (.int byte.toNat) = some byte := by
  have hbyte : (byte.toNat : Int) < u8Bound := by
    exact_mod_cast byte.toNat_lt
  rw [unsigned, if_pos ⟨Int.natCast_nonneg _, hbyte⟩, Int.toNat_natCast]
  exact congrArg some (UInt8.ofNat_toNat)

theorem readCondition_writeCondition (condition : TopologyCondition) :
    record readCondition (writeCondition condition) = some condition := rfl

theorem sequence_writeCondition (conditions : List TopologyCondition) :
    sequence (record readCondition) (.arr (conditions.map writeCondition)) =
      some conditions := by
  rw [Document.sequence]
  induction conditions with
  | nil => rfl
  | cons condition rest ih =>
      rw [List.map_cons, readAll, readCondition_writeCondition, ih]
      rfl

theorem names_serializeTopologyStatus (status : ClusterTopologyStatusDocument) :
    ((serializeTopologyStatus status).map Prod.fst).Nodup := by
  simp only [serializeTopologyStatus, List.map_cons, List.map_nil]
  decide

theorem optional_nullable {patch old : Fields} {name : Str} {content : Option Str}
    (hnames : (patch.map Prod.fst).Nodup) (hmem : (name, nullable .str content) ∈ patch) :
    Document.optional name text (mergeFields patch old) = some content := by
  cases content with
  | none => exact optional_mergeFields_null hnames hmem
  | some value => exact optional_mergeFields hnames hmem rfl

/-- Nothing of the status that was there before is read. -/
theorem readTopologyStatus_merged (status : ClusterTopologyStatusDocument) (old : Fields) :
    readTopologyStatus (mergeFields (serializeTopologyStatus status) old) = some status := by
  have hnames := names_serializeTopologyStatus status
  have hread : ∀ {α : Type} {name : Str} {value : Json} (read : Json → Option α),
      (name, value) ∈ serializeTopologyStatus status → value.isPlain = true →
      required name read (mergeFields (serializeTopologyStatus status) old) = read value :=
    fun _ hmem hplain => required_mergeFields hnames hmem hplain
  have hmutation : optional "active_mutation".toList text
      (mergeFields (serializeTopologyStatus status) old) = some status.activeMutation :=
    optional_nullable hnames (by simp [serializeTopologyStatus])
  rw [readTopologyStatus, readU8, readU8, hmutation,
    hread (unsigned u8Bound) (.head _) rfl,
    hread (unsigned u8Bound) (.tail _ (.head _)) rfl,
    hread flag (.tail _ (.tail _ (.head _))) rfl,
    hread flag (.tail _ (.tail _ (.tail _ (.head _)))) rfl,
    hread (sequence (record readCondition))
      (.tail _ (.tail _ (.tail _ (.tail _ (.tail _ (.head _)))))) rfl,
    unsigned_toNat, unsigned_toNat, sequence_writeCondition]
  rfl

/-- What is read after the patch: the spec that was there and the status that was
written, whatever the status before it was. -/
theorem readClusterTopology_patched (status : ClusterTopologyStatusDocument) (stored : Fields) :
    readClusterTopology (mergePatch (statusPatch status) (.obj stored)) =
      (required "spec".toList (record readTopologySpec) stored).map
        fun spec => ⟨spec, some status⟩ := by
  let before := members ((stored.lookup "status".toList).getD .null)
  have hpatched : mergePatch (statusPatch status) (.obj stored) = .obj (Fields.put
      "status".toList (.obj (mergeFields (serializeTopologyStatus status) before)) stored) := rfl
  have hspec : "spec".toList ≠ "status".toList := by decide
  have hstatus : Document.optional "status".toList (record readTopologyStatus)
      (Fields.put "status".toList (.obj (mergeFields (serializeTopologyStatus status) before))
        stored) = some (some status) := by
    rw [optional_record lookup_put_self, readTopologyStatus_merged]
    rfl
  rw [hpatched, readClusterTopology, record, hstatus, required, lookup_put_of_ne hspec,
    ← required]
  cases required "spec".toList (record readTopologySpec) stored with
  | none => rfl
  | some spec => rfl

end RoundTrip

/-- A topology at the API server: its name and the members of its document. -/
structure StoredTopology where
  name : Option Str
  members : Fields

namespace StoredTopology

/-- The part of a document the passes work with. -/
def ofDocument (name : Option Str) (document : ClusterTopologyDocument) : ClusterTopology where
  name := name
  spec := document.spec.toClusterTopologySpec
  status := document.status.map (·.toClusterTopologyStatus)

def read (stored : StoredTopology) : Option ClusterTopology :=
  (readClusterTopology (.obj stored.members)).map (ofDocument stored.name)

/-- The status a pass writes. -/
def written (status : ClusterTopologyStatus) : ClusterTopologyStatusDocument where
  toClusterTopologyStatus := status
  activeMutation := none
  conditions := []

/-- The document after the patch. -/
def patch (status : ClusterTopologyStatus) (stored : StoredTopology) : StoredTopology :=
  { stored with
    members := Document.members
      (mergePatch (statusPatch (written status)) (.obj stored.members)) }

end StoredTopology

/-- What a topology pass finds: the nodes' documents and the services' answers. -/
structure TopologyPass where
  nodes : List Json
  answers : TopologyAnswers

/-- A list request fails as a whole when one document cannot be read. -/
def listTopologies (stored : List StoredTopology) : Option (List ClusterTopology) :=
  stored.mapM StoredTopology.read

def listNodes (parseTime : Str → Option Str) (nodes : List Json) : Option (List PiNode) :=
  nodes.mapM (readPiNode parseTime)

/-- `patch_status` on the document of that name. -/
def patchDocuments (stored : List StoredTopology) (topo : ClusterTopology)
    (status : ClusterTopologyStatus) : List StoredTopology :=
  match topo.name with
  | none => stored
  | some name => stored.map fun document =>
      if document.name = some name then document.patch status else document

section Passes

variable (parseTime : Str → Option Str)

/-- `reconcile_topology` over the documents. -/
def reconcileDocuments (stored : List StoredTopology) (pass : TopologyPass) :
    List StoredTopology × List PromotionTask :=
  match listTopologies stored, listNodes parseTime pass.nodes with
  | some topologies, some nodes =>
      if pass.answers.listsTopologies && pass.answers.listsNodes then
        (topologies.zipIdx.foldl (fun stored (topo, i) =>
          if pass.answers.patches i then
            patchDocuments stored topo (topologyStatus nodes topo (pass.answers.quorum i))
          else stored) stored,
        topologies.zipIdx.filterMap fun (topo, i) =>
          spawnPromotion nodes topo (pass.answers.quorum i))
      else (stored, [])
  | _, _ => (stored, [])

/-- The documents and the promotions after a sequence of passes. -/
def runDocuments (stored : List StoredTopology) (passes : List TopologyPass) :
    List StoredTopology × List PromotionTask :=
  passes.foldl (fun (stored, tasks) pass =>
    let next := reconcileDocuments parseTime stored pass
    (next.1, tasks ++ next.2)) (stored, [])

/-- The same pass over the records that were read. -/
def reconcileRecords (topologies : List ClusterTopology) (pass : TopologyPass) :
    List ClusterTopology × List PromotionTask :=
  match listNodes parseTime pass.nodes with
  | some nodes =>
      let next := reconcileTopology ⟨topologies, nodes⟩ pass.answers
      (next.1.topologies, next.2)
  | none => (topologies, [])

def runRecords (topologies : List ClusterTopology) (passes : List TopologyPass) :
    List ClusterTopology × List PromotionTask :=
  passes.foldl (fun (topologies, tasks) pass =>
    let next := reconcileRecords parseTime topologies pass
    (next.1, tasks ++ next.2)) (topologies, [])

end Passes

/-- The same name, and the same members apart from the status. -/
structure Untouched (before after : StoredTopology) : Prop where
  name_eq : after.name = before.name
  lookup_eq : ∀ member, member ≠ "status".toList →
    after.members.lookup member = before.members.lookup member

theorem Untouched.refl (stored : StoredTopology) : Untouched stored stored :=
  ⟨rfl, fun _ _ => rfl⟩

theorem Untouched.trans {first second third : StoredTopology}
    (hfirst : Untouched first second) (hsecond : Untouched second third) :
    Untouched first third where
  name_eq := hsecond.name_eq.trans hfirst.name_eq
  lookup_eq member hmember :=
    (hsecond.lookup_eq member hmember).trans (hfirst.lookup_eq member hmember)

/-- The documents are read as the records, and differ from those at the start in
their statuses alone. -/
structure Represents (start stored : List StoredTopology) (topologies : List ClusterTopology) :
    Prop where
  listed : listTopologies stored = some topologies
  untouched : List.Forall₂ Untouched start stored

/-- A change that the reading follows, item by item. -/
theorem mapM_map_eq_some {α β : Type} {read : α → Option β} {change : α → α} {follow : β → β}
    (hfollows : ∀ item value, read item = some value →
      read (change item) = some (follow value))
    {items : List α} {values : List β} (hread : items.mapM read = some values) :
    (items.map change).mapM read = some (values.map follow) := by
  induction items generalizing values with
  | nil =>
      obtain rfl := Option.some.inj hread
      rfl
  | cons item rest ih =>
      rw [List.mapM_cons] at hread
      obtain ⟨value, hvalue, hread⟩ := Option.bind_eq_some_iff.mp hread
      obtain ⟨others, hothers, hread⟩ := Option.bind_eq_some_iff.mp hread
      obtain rfl := Option.some.inj hread
      rw [List.map_cons, List.mapM_cons, hfollows item value hvalue, ih hothers]
      rfl

section Refinement

variable {start stored : List StoredTopology} {topologies : List ClusterTopology}

theorem untouched_patch (status : ClusterTopologyStatus) (document : StoredTopology) :
    Untouched document (document.patch status) where
  name_eq := rfl
  lookup_eq _ hmember := lookup_put_of_ne hmember

theorem required_spec {fields : Fields} {document : ClusterTopologyDocument}
    (hread : readClusterTopology (.obj fields) = some document) :
    required "spec".toList (record readTopologySpec) fields = some document.spec := by
  obtain ⟨_, status, hbuild, -, rfl⟩ := seq_eq_some_iff.mp hread
  obtain ⟨spec, hspec, rfl⟩ := Option.map_eq_some_iff.mp hbuild
  exact hspec

theorem read_patch {document : StoredTopology} {topo : ClusterTopology}
    (hread : document.read = some topo) (status : ClusterTopologyStatus) :
    (document.patch status).read = some { topo with status := some status } := by
  obtain ⟨content, hcontent, rfl⟩ := Option.map_eq_some_iff.mp hread
  have hpatched := readClusterTopology_patched (StoredTopology.written status) document.members
  rw [required_spec hcontent] at hpatched
  exact congrArg (Option.map _) hpatched

theorem name_of_read {document : StoredTopology} {topo : ClusterTopology}
    (hread : document.read = some topo) : topo.name = document.name := by
  obtain ⟨content, _, rfl⟩ := Option.map_eq_some_iff.mp hread
  rfl

theorem Represents.patchDocuments (hstored : Represents start stored topologies)
    (topo : ClusterTopology) (status : ClusterTopologyStatus) :
    Represents start (patchDocuments stored topo status)
      (patchStatus topologies topo status) := by
  unfold PiCluster.patchDocuments patchStatus
  cases topo.name with
  | none => exact hstored
  | some name =>
      constructor
      · apply mapM_map_eq_some _ hstored.listed
        intro document value hread
        have hname := name_of_read hread
        by_cases hpatched : document.name = some name
        · rw [if_pos hpatched, if_pos (hname.trans hpatched)]
          exact read_patch hread status
        · rw [if_neg hpatched, if_neg fun hsome => hpatched (hname.symm.trans hsome)]
          exact hread
      · apply List.forall₂_map_right_iff.mpr
        apply hstored.untouched.imp
        intro before after hafter
        split
        · exact hafter.trans (untouched_patch status after)
        · exact hafter

variable (parseTime : Str → Option Str)

/-- One pass over the documents is one pass over the records. -/
theorem Represents.pass (hstored : Represents start stored topologies) (pass : TopologyPass) :
    Represents start (reconcileDocuments parseTime stored pass).1
        (reconcileRecords parseTime topologies pass).1 ∧
      (reconcileDocuments parseTime stored pass).2 =
        (reconcileRecords parseTime topologies pass).2 := by
  unfold reconcileDocuments reconcileRecords reconcileTopology spawned
  rw [hstored.listed]
  cases listNodes parseTime pass.nodes with
  | none => exact ⟨hstored, rfl⟩
  | some nodes =>
      simp only
      split
      · refine ⟨?_, rfl⟩
        -- the same list of topologies is gone through on both sides
        generalize topologies.zipIdx = remaining
        induction remaining generalizing stored topologies with
        | nil => exact hstored
        | cons entry rest ih =>
            apply ih
            dsimp only
            split
            · exact hstored.patchDocuments _ _
            · exact hstored
      · exact ⟨hstored, rfl⟩

/-- Every sequence of passes over documents that can be read does to them what it
does to the records, spawns the same promotions, and writes nothing but statuses. -/
theorem runDocuments_refines (hlisted : listTopologies stored = some topologies)
    (passes : List TopologyPass) :
    listTopologies (runDocuments parseTime stored passes).1 =
        some (runRecords parseTime topologies passes).1 ∧
      (runDocuments parseTime stored passes).2 = (runRecords parseTime topologies passes).2 ∧
      List.Forall₂ Untouched stored (runDocuments parseTime stored passes).1 := by
  have hrun : Represents stored (runDocuments parseTime stored passes).1
        (runRecords parseTime topologies passes).1 ∧
      (runDocuments parseTime stored passes).2 =
        (runRecords parseTime topologies passes).2 := by
    induction passes using List.reverseRecOn with
    | nil => exact ⟨⟨hlisted, List.forall₂_same.mpr fun _ _ => .refl _⟩, rfl⟩
    | append_singleton passes pass ih =>
        obtain ⟨hstored, htasks⟩ := ih
        obtain ⟨hnext, hspawned⟩ := hstored.pass parseTime pass
        unfold runDocuments runRecords
        rw [List.foldl_append, List.foldl_append]
        exact ⟨hnext, congrArg₂ (· ++ ·) htasks hspawned⟩
  exact ⟨hrun.1.listed, hrun.2, hrun.1.untouched⟩

/-- A document that cannot be read stops every pass, also for the other topologies. -/
theorem runDocuments_of_unreadable (hlisted : listTopologies stored = none)
    (passes : List TopologyPass) : runDocuments parseTime stored passes = (stored, []) := by
  induction passes using List.reverseRecOn with
  | nil => rfl
  | append_singleton passes pass ih =>
      have hpass : reconcileDocuments parseTime stored pass = (stored, []) := by
        unfold reconcileDocuments
        rw [hlisted]
      unfold runDocuments at ih ⊢
      rw [List.foldl_append, ih]
      simp only [List.foldl_cons, List.foldl_nil, hpass, List.append_nil]

end Refinement

namespace StatusPatchWitness

/-- A topology whose status still names a mutation of an earlier version. -/
def stored : StoredTopology where
  name := some "main".toList
  members := [("spec".toList, .obj [("seed_node".toList, .str "seed-1".toList)]),
    ("status".toList, .obj [("current_master_count".toList, .int 1),
      ("current_worker_count".toList, .int 2), ("quorum_healthy".toList, .bool true),
      ("seed_retired".toList, .bool false),
      ("active_mutation".toList, .str "promote-worker-2".toList),
      ("conditions".toList, .arr [])])]

def topology : ClusterTopology where
  name := some "main".toList
  spec := ⟨"seed-1".toList, 3⟩
  status := some ⟨1, 2, true, false⟩

def pass : TopologyPass where
  nodes := [CrdWitness.ready]
  answers := ⟨true, true, fun _ => some true, fun _ => true⟩

/-- The pass counts one worker and no master. -/
theorem status_rewritten :
    listTopologies (runDocuments some [stored] [pass]).1 =
      some [{ topology with status := some ⟨0, 1, true, false⟩ }] :=
  (runDocuments_refines some (show listTopologies [stored] = some [topology] from rfl) [pass]).1

end StatusPatchWitness

end PiCluster
