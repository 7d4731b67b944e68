/-
The election over the lease's document.  The electors read the document into the
type and write it with merge patches of JSON, one of them with a `null`.  What the
election does to the document is what it does to the lease that is read from it.
-/
import PiCluster.ElectionSafety
import PiCluster.Lib.MergePatch

namespace PiCluster

open Text Document

/-- How a `MicroTime` is written, and read back. -/
structure MicroTimeCodec where
  format : Int → Str
  parse : Str → Option Int
  parse_format : ∀ time, parse (format time) = some time

def InI32 (value : Int) : Prop := -0x80000000 ≤ value ∧ value < 0x80000000

instance (value : Int) : Decidable (InI32 value) := inferInstanceAs (Decidable (_ ∧ _))

theorem inI32_asI32 (n : Int) : InI32 (asI32 n) := by
  have hlow := Int.le_bmod (x := n) (m := 0x100000000) (by decide)
  have hhigh := Int.bmod_lt (x := n) (m := 0x100000000) (by decide)
  unfold InI32 asI32
  omega

def readI32 : Json → Option Int
  | .int value => if InI32 value then some value else none
  | _ => none

section Documents

variable (codec : MicroTimeCodec)

def readMicroTime (value : Json) : Option Int := (text value).bind codec.parse

def readLeaseSpec (fields : Fields) : Option LeaseSpec :=
  LeaseSpec.mk <$> Document.optional "holderIdentity".toList text fields
    <*> Document.optional "leaseDurationSeconds".toList readI32 fields
    <*> Document.optional "acquireTime".toList (readMicroTime codec) fields
    <*> Document.optional "renewTime".toList (readMicroTime codec) fields
    <*> Document.optional "leaseTransitions".toList readI32 fields

/-- The members under `spec` of the patches. -/
def LeasePatch.members : LeasePatch → Fields
  | .renew now duration =>
      [("renewTime".toList, .str (codec.format now)),
        ("leaseDurationSeconds".toList, .int duration)]
  | .acquire holder now duration transitions =>
      [("holderIdentity".toList, .str holder), ("leaseDurationSeconds".toList, .int duration),
        ("acquireTime".toList, .str (codec.format now)),
        ("renewTime".toList, .str (codec.format now)),
        ("leaseTransitions".toList, .int transitions)]
  | .release => [("holderIdentity".toList, .null)]

def LeasePatch.json (patch : LeasePatch) : Json :=
  .obj [("spec".toList, .obj (patch.members codec))]

/-- The lease at the API server. -/
structure StoredLease where
  resourceVersion : Nat
  members : Fields

namespace StoredLease

def read (stored : StoredLease) : Option Lease :=
  (Document.optional "spec".toList (record (readLeaseSpec codec)) stored.members).map
    (Lease.mk stored.resourceVersion)

def applyPatch (stored : StoredLease) (patch : LeasePatch) : StoredLease where
  resourceVersion := stored.resourceVersion + 1
  members := Document.members (mergePatch (patch.json codec) (.obj stored.members))

end StoredLease

/-- What a patch may set to be read again. -/
def LeasePatch.InRange : LeasePatch → Prop
  | .renew _ duration => InI32 duration
  | .acquire _ _ duration transitions => InI32 duration ∧ InI32 transitions
  | .release => True

/-- The lease's spec with what each member is read as. -/
structure SpecReads (fields : Fields) (spec : LeaseSpec) : Prop where
  holderIdentity : Document.optional "holderIdentity".toList text fields =
    some spec.holderIdentity
  leaseDurationSeconds : Document.optional "leaseDurationSeconds".toList readI32 fields =
    some spec.leaseDurationSeconds
  acquireTime : Document.optional "acquireTime".toList (readMicroTime codec) fields =
    some spec.acquireTime
  renewTime : Document.optional "renewTime".toList (readMicroTime codec) fields =
    some spec.renewTime
  leaseTransitions : Document.optional "leaseTransitions".toList readI32 fields =
    some spec.leaseTransitions

end Documents

section Merging

variable {codec : MicroTimeCodec} {fields : Fields} {spec : LeaseSpec}

theorem readLeaseSpec_eq_some_iff :
    readLeaseSpec codec fields = some spec ↔ SpecReads codec fields spec := by
  constructor
  · intro hread
    obtain ⟨_, transitions, hfour, htransitions, rfl⟩ := seq_eq_some_iff.mp hread
    obtain ⟨_, renewed, hthree, hrenewed, rfl⟩ := seq_eq_some_iff.mp hfour
    obtain ⟨_, acquired, htwo, hacquired, rfl⟩ := seq_eq_some_iff.mp hthree
    obtain ⟨_, duration, hone, hduration, rfl⟩ := seq_eq_some_iff.mp htwo
    obtain ⟨holder, hholder, rfl⟩ := Option.map_eq_some_iff.mp hone
    exact ⟨hholder, hduration, hacquired, hrenewed, htransitions⟩
  · intro hspec
    rw [readLeaseSpec, hspec.holderIdentity, hspec.leaseDurationSeconds, hspec.acquireTime,
      hspec.renewTime, hspec.leaseTransitions]
    rfl

theorem readI32_int {value : Int} (hvalue : InI32 value) : readI32 (.int value) = some value :=
  if_pos hvalue

theorem readMicroTime_format (time : Int) :
    readMicroTime codec (.str (codec.format time)) = some time :=
  codec.parse_format time

theorem LeasePatch.nodup_members (codec : MicroTimeCodec) (patch : LeasePatch) :
    ((patch.members codec).map Prod.fst).Nodup := by
  cases patch <;> simp only [members, List.map_cons, List.map_nil] <;> decide

theorem SpecReads.renew (hspec : SpecReads codec fields spec) (now : Int) {duration : Int}
    (hduration : InI32 duration) :
    SpecReads codec (mergeFields (LeasePatch.members codec (.renew now duration)) fields)
      (LeasePatch.merge (.renew now duration) spec) := by
  have hnames := LeasePatch.nodup_members codec (.renew now duration)
  have hother : ∀ {α : Type} {name : Str} {read : Json → Option α},
      name ∉ ["renewTime".toList, "leaseDurationSeconds".toList] →
      Document.optional name read
        (mergeFields (LeasePatch.members codec (.renew now duration)) fields) =
        Document.optional name read fields :=
    fun hname => optional_mergeFields_of_not_mem hname
  constructor
  · rw [hother (by decide)]
    exact hspec.holderIdentity
  · rw [optional_mergeFields hnames (.tail _ (.head _)) rfl, readI32_int hduration]
    rfl
  · rw [hother (by decide)]
    exact hspec.acquireTime
  · rw [optional_mergeFields hnames (.head _) rfl, readMicroTime_format]
    rfl
  · rw [hother (by decide)]
    exact hspec.leaseTransitions

/-- An acquisition writes every member of the spec. -/
theorem specReads_acquire (fields : Fields) (spec : LeaseSpec) (holder : Str) (now : Int)
    {duration transitions : Int} (hduration : InI32 duration)
    (htransitions : InI32 transitions) :
    SpecReads codec
      (mergeFields (LeasePatch.members codec (.acquire holder now duration transitions)) fields)
      (LeasePatch.merge (.acquire holder now duration transitions) spec) := by
  have hnames := LeasePatch.nodup_members codec (.acquire holder now duration transitions)
  constructor
  · rw [optional_mergeFields hnames (.head _) rfl]
    rfl
  · rw [optional_mergeFields hnames (.tail _ (.head _)) rfl, readI32_int hduration]
    rfl
  · rw [optional_mergeFields hnames (.tail _ (.tail _ (.head _))) rfl, readMicroTime_format]
    rfl
  · rw [optional_mergeFields hnames (.tail _ (.tail _ (.tail _ (.head _)))) rfl,
      readMicroTime_format]
    rfl
  · rw [optional_mergeFields hnames (.tail _ (.tail _ (.tail _ (.tail _ (.head _))))) rfl,
      readI32_int htransitions]
    rfl

theorem SpecReads.release (hspec : SpecReads codec fields spec) :
    SpecReads codec (mergeFields (LeasePatch.members codec .release) fields)
      (LeasePatch.merge .release spec) := by
  have hother : ∀ {α : Type} {name : Str} {read : Json → Option α},
      name ∉ ["holderIdentity".toList] →
      Document.optional name read (mergeFields (LeasePatch.members codec .release) fields) =
        Document.optional name read fields :=
    fun hname => optional_mergeFields_of_not_mem hname
  constructor
  · exact optional_mergeFields_null (LeasePatch.nodup_members codec .release) (.head _)
  · rw [hother (by decide)]
    exact hspec.leaseDurationSeconds
  · rw [hother (by decide)]
    exact hspec.acquireTime
  · rw [hother (by decide)]
    exact hspec.renewTime
  · rw [hother (by decide)]
    exact hspec.leaseTransitions

/-- A patch of the document is the patch of the record. -/
theorem SpecReads.merge (hspec : SpecReads codec fields spec) {patch : LeasePatch}
    (hrange : patch.InRange) :
    SpecReads codec (mergeFields (patch.members codec) fields) (patch.merge spec) := by
  cases patch with
  | renew now duration => exact hspec.renew now hrange
  | acquire holder now duration transitions =>
      exact specReads_acquire fields spec holder now hrange.1 hrange.2
  | release => exact hspec.release

theorem specReads_nil : SpecReads codec [] .default :=
  ⟨rfl, rfl, rfl, rfl, rfl⟩

/-- The members under `spec` of a readable document. -/
theorem specReads_members {members : Fields} {content : Option LeaseSpec}
    (hread : Document.optional "spec".toList (record (readLeaseSpec codec)) members =
      some content) :
    SpecReads codec (Document.members ((members.lookup "spec".toList).getD .null))
      (content.getD .default) := by
  unfold Document.optional at hread
  split at hread
  · rename_i hlookup
    obtain rfl := Option.some.inj hread
    rw [hlookup]
    exact specReads_nil
  · rename_i hlookup
    obtain rfl := Option.some.inj hread
    rw [hlookup]
    exact specReads_nil
  · rename_i value _ hlookup
    obtain ⟨spec, hspec, rfl⟩ := Option.map_eq_some_iff.mp hread
    rw [hlookup]
    cases value with
    | obj inner => exact readLeaseSpec_eq_some_iff.mp hspec
    | null | bool | int | float | str | arr => cases hspec

theorem StoredLease.read_applyPatch {stored : StoredLease} {lease : Lease}
    (hread : stored.read codec = some lease) {patch : LeasePatch} (hrange : patch.InRange) :
    (stored.applyPatch codec patch).read codec = some (lease.applyPatch patch) := by
  obtain ⟨content, hcontent, rfl⟩ := Option.map_eq_some_iff.mp hread
  have hmerged := readLeaseSpec_eq_some_iff.mpr ((specReads_members hcontent).merge hrange)
  have hpatched : (stored.applyPatch codec patch).members = Fields.put "spec".toList
      (.obj (mergeFields (patch.members codec)
        (Document.members ((stored.members.lookup "spec".toList).getD .null))))
      stored.members := rfl
  rw [StoredLease.read, hpatched, optional_record lookup_put_self, hmerged]
  rfl

end Merging

namespace Electorate

variable {ι : Type} (electorate : Electorate ι) (codec : MicroTimeCodec) (metadata : Json)

/-- The document of the lease an elector creates. -/
def newDocument (i : ι) (now : Int) : StoredLease where
  resourceVersion := 1
  members := [("metadata".toList, metadata), ("spec".toList, .obj [
    ("acquireTime".toList, .str (codec.format now)),
    ("holderIdentity".toList, .str (electorate.holderIdentity i)),
    ("leaseDurationSeconds".toList, .int (electorate.seconds i)),
    ("leaseTransitions".toList, .int 1),
    ("renewTime".toList, .str (codec.format now))])]

/-- The server that keeps documents. -/
def documents : LeaseStore ι StoredLease where
  create := electorate.newDocument codec metadata
  applyPatch := StoredLease.applyPatch codec
  read := StoredLease.read codec

def requestDocument (i : ι) (phase : Phase) (stored : Option StoredLease)
    (delivery : Delivery) : Phase × Option StoredLease :=
  electorate.requestTo (electorate.documents codec metadata) i phase stored delivery

end Electorate

/-- The election at a server that keeps documents. -/
abbrev DocumentElection (ι : Type) := Election ι StoredLease

namespace DocumentElection

variable {ι : Type}

section Steps

variable [DecidableEq ι] (electorate : Electorate ι) (codec : MicroTimeCodec) (metadata : Json)

def step (state : DocumentElection ι) (event : ElectionEvent ι) : DocumentElection ι :=
  state.stepWith (electorate.requestDocument codec metadata) event

def run (start : DocumentElection ι) (events : List (ElectionEvent ι)) : DocumentElection ι :=
  events.foldl (step electorate codec metadata) start

end Steps

/-- The election that is read from the documents. -/
structure ReadsAs (codec : MicroTimeCodec) (documents : DocumentElection ι)
    (state : Election ι) : Prop where
  clock_eq : documents.clock = state.clock
  electors_eq : documents.electors = state.electors
  lease_eq : documents.lease.map (StoredLease.read codec) = state.lease.map some
  inRange : ∀ i now version patch, (state.electors i).phase = .patching now version patch →
    patch.InRange

end DocumentElection

section Simulation

variable {ι : Type} {electorate : Electorate ι} {codec : MicroTimeCodec} {metadata : Json}

/-- The spec of a new lease, as it is serialized. -/
theorem specReads_created (codec : MicroTimeCodec) (holder : Str) (now : Int) {duration : Int}
    (hduration : InI32 duration) :
    SpecReads codec [("acquireTime".toList, .str (codec.format now)),
      ("holderIdentity".toList, .str holder), ("leaseDurationSeconds".toList, .int duration),
      ("leaseTransitions".toList, .int 1), ("renewTime".toList, .str (codec.format now))]
      ⟨some holder, some duration, some now, some now, some 1⟩ where
  holderIdentity := rfl
  leaseDurationSeconds := congrArg (Option.map some) (readI32_int hduration)
  acquireTime := congrArg (Option.map some) (readMicroTime_format now)
  renewTime := congrArg (Option.map some) (readMicroTime_format now)
  leaseTransitions := rfl

theorem StoredLease.read_newDocument (i : ι) (now : Int) :
    (electorate.newDocument codec metadata i now).read codec =
      some (electorate.newLease i now) := by
  have hduration : InI32 (electorate.seconds i) := inI32_asI32 _
  have hspec := specReads_created codec (electorate.holderIdentity i) now hduration
  rw [StoredLease.read, optional_record rfl, readLeaseSpec_eq_some_iff.mpr hspec]
  rfl

theorem decideOn_inRange (i : ι) (now : Int) (existing : Lease) {time : Int} {version : Nat}
    {patch : LeasePatch} (hphase : electorate.decideOn i now existing =
      .patching time version patch) : patch.InRange := by
  unfold Electorate.decideOn at hphase
  split at hphase
  · cases hphase
    exact inI32_asI32 _
  · split at hphase
    · cases hphase
      exact ⟨inI32_asI32 _, inI32_asI32 _⟩
    · cases hphase

/-- A request leaves a pending patch in range. -/
theorem request_inRange (i : ι) {phase : Phase} (lease : Option Lease) (delivery : Delivery)
    (hbefore : ∀ now version patch, phase = .patching now version patch → patch.InRange) :
    ∀ now version patch, (electorate.request i phase lease delivery).1 =
      .patching now version patch → patch.InRange := by
  intro now version patch hafter
  have heffect := Election.request_effect electorate i phase lease delivery
  generalize electorate.request i phase lease delivery = result at heffect hafter
  cases heffect with
  | read time existing hphase hlease => exact decideOn_inRange i time existing hafter
  | nothing => exact hbefore now version patch hafter
  | created time reply | patched time sent change existing reply => cases reply <;> cases hafter
  | gaveUp | absent | conflict | released | unreleased => cases hafter

/-- One request, with a lease that can be read. -/
theorem requestDocument_of_read (i : ι) {phase : Phase} {document : StoredLease}
    {lease : Lease} (delivery : Delivery) (hread : document.read codec = some lease)
    (hrange : ∀ now version patch, phase = .patching now version patch → patch.InRange) :
    (electorate.requestDocument codec metadata i phase (some document) delivery).1 =
        (electorate.request i phase (some lease) delivery).1 ∧
      (electorate.requestDocument codec metadata i phase (some document) delivery).2.map
          (StoredLease.read codec) =
        (electorate.request i phase (some lease) delivery).2.map some := by
  have hunchanged : (some document).map (StoredLease.read codec) = (some lease).map some :=
    congrArg some hread
  cases phase with
  | reading now | refetching now =>
      cases delivery with
      | answered => exact ⟨congrArg (electorate.decideOnReply i now) hread, hunchanged⟩
      | replyLost | failed => exact ⟨rfl, hunchanged⟩
  | creating now => cases delivery <;> exact ⟨rfl, hunchanged⟩
  | patching now version patch =>
      have hpatched := StoredLease.read_applyPatch hread (hrange now version patch rfl)
      cases delivery with
      | failed => exact ⟨rfl, hunchanged⟩
      | answered | replyLost =>
          exact ⟨congrArg (Electorate.writeReply _) hpatched, congrArg some hpatched⟩
  | releasing =>
      have hreleased : (document.applyPatch codec .release).read codec =
          some (lease.applyPatch .release) := StoredLease.read_applyPatch hread trivial
      cases delivery with
      | failed => exact ⟨rfl, hunchanged⟩
      | answered | replyLost => exact ⟨rfl, congrArg some hreleased⟩
  | idle | decided | released | stopped => exact ⟨rfl, hunchanged⟩

/-- One request, without a lease. -/
theorem requestDocument_of_absent (i : ι) (phase : Phase) (delivery : Delivery) :
    (electorate.requestDocument codec metadata i phase none delivery).1 =
        (electorate.request i phase none delivery).1 ∧
      (electorate.requestDocument codec metadata i phase none delivery).2.map
          (StoredLease.read codec) =
        (electorate.request i phase none delivery).2.map some := by
  cases phase with
  | creating now =>
      cases delivery with
      | failed => exact ⟨rfl, rfl⟩
      | answered | replyLost =>
          have hcreated : (electorate.newDocument codec metadata i now).read codec =
              some (electorate.newLease i now) := StoredLease.read_newDocument i now
          simp only [Electorate.requestDocument, Electorate.requestTo, Electorate.documents,
            hcreated, Option.map_some]
          exact ⟨rfl, rfl⟩
  | reading | refetching | patching | releasing => cases delivery <;> exact ⟨rfl, rfl⟩
  | idle | decided | released | stopped => exact ⟨rfl, rfl⟩

/-- One request does to the document what it does to the lease. -/
theorem requestDocument_eq (electorate : Electorate ι) (metadata : Json) (i : ι)
    {phase : Phase} {stored : Option StoredLease} {lease : Option Lease} (delivery : Delivery)
    (hlease : stored.map (StoredLease.read codec) = lease.map some)
    (hrange : ∀ now version patch, phase = .patching now version patch → patch.InRange) :
    (electorate.requestDocument codec metadata i phase stored delivery).1 =
        (electorate.request i phase lease delivery).1 ∧
      (electorate.requestDocument codec metadata i phase stored delivery).2.map
          (StoredLease.read codec) =
        (electorate.request i phase lease delivery).2.map some := by
  cases stored with
  | none =>
      obtain rfl : lease = none := Option.map_eq_none_iff.mp hlease.symm
      exact requestDocument_of_absent i phase delivery
  | some document =>
      cases lease with
      | none => cases hlease
      | some existing =>
          exact requestDocument_of_read i delivery (Option.some.inj hlease) hrange

end Simulation

namespace DocumentElection

variable {ι : Type} {electorate : Electorate ι} {codec : MicroTimeCodec} {metadata : Json}
  {documents : DocumentElection ι} {state : Election ι}

theorem readsAs_initial {stored : Option StoredLease} {lease : Option Lease}
    (hlease : stored.map (StoredLease.read codec) = lease.map some) (clock : Int) :
    ReadsAs codec (Election.initial clock stored : DocumentElection ι)
      (.initial clock lease) where
  clock_eq := rfl
  electors_eq := rfl
  lease_eq := hlease
  inRange i now version patch hphase := by cases hphase

/-- What the electors leave of a stored document: everything outside its spec. -/
def Kept (document : StoredLease) (documents : DocumentElection ι) : Prop :=
  ∃ after, documents.lease = some after ∧ ∀ name, name ≠ "spec".toList →
    after.members.lookup name = document.members.lookup name

theorem requestDocument_kept (electorate : Electorate ι) (codec : MicroTimeCodec)
    (metadata : Json) (i : ι) (phase : Phase) (document : StoredLease) (delivery : Delivery) :
    ∃ after, (electorate.requestDocument codec metadata i phase (some document) delivery).2 =
      some after ∧ (after = document ∨ ∃ patch, after = document.applyPatch codec patch) := by
  cases phase with
  | reading | creating | refetching =>
      cases delivery <;> exact ⟨document, rfl, Or.inl rfl⟩
  | patching now version patch =>
      cases delivery with
      | failed => exact ⟨document, rfl, Or.inl rfl⟩
      | answered | replyLost => exact ⟨_, rfl, Or.inr ⟨patch, rfl⟩⟩
  | releasing =>
      cases delivery with
      | failed => exact ⟨document, rfl, Or.inl rfl⟩
      | answered | replyLost => exact ⟨_, rfl, Or.inr ⟨.release, rfl⟩⟩
  | idle | decided | released | stopped => exact ⟨document, rfl, Or.inl rfl⟩

/-- An elector that has never got past reading the lease. -/
def Follows (elector : Elector) : Prop :=
  elector.leader = false ∧
    match elector.phase with
    | .idle | .reading _ | .decided (.error _) | .stopped => True
    | _ => False

/-- A request of an elector that follows is a read, and it fails. -/
theorem requestDocument_of_unreadable (electorate : Electorate ι) (metadata : Json)
    {document : StoredLease} (hread : document.read codec = none) (i : ι) {elector : Elector}
    (hfollows : Follows elector) (delivery : Delivery) :
    ∃ phase, electorate.requestDocument codec metadata i elector.phase (some document)
        delivery = (phase, some document) ∧ Follows { elector with phase := phase } := by
  obtain ⟨hleader, hphase⟩ := hfollows
  have hdecided : ∀ now, electorate.decideOnReply i now (document.read codec) =
      .decided (.error ()) := by
    intro now
    rw [hread]
    rfl
  cases hcurrent : elector.phase with
  | reading now =>
      refine ⟨.decided (.error ()), ?_, hleader, trivial⟩
      cases delivery with
      | answered => exact congrArg (·, some document) (hdecided now)
      | replyLost | failed => rfl
  | idle | stopped => exact ⟨_, rfl, hleader, trivial⟩
  | decided result =>
      rw [hcurrent] at hphase
      exact ⟨_, rfl, hleader, hphase⟩
  | creating | refetching | patching | releasing | released =>
      rw [hcurrent] at hphase
      exact hphase.elim

theorem Follows.report {elector : Elector} (hfollows : Follows elector) :
    Follows elector.report := by
  obtain ⟨hleader, hphase⟩ := hfollows
  unfold Elector.report
  split
  · rename_i hdecided
    rw [hdecided] at hphase
    exact hphase.elim
  · exact ⟨rfl, trivial⟩
  · exact ⟨rfl, trivial⟩
  · exact ⟨hleader, hphase⟩

variable [DecidableEq ι]

/-- An elector moves on, in the same way on both sides, without a write. -/
theorem ReadsAs.setElector (hreads : ReadsAs codec documents state) (i : ι) (elector : Elector)
    (hrange : ∀ now version patch, elector.phase = .patching now version patch →
      patch.InRange) :
    ReadsAs codec (documents.setElector i elector) (state.setElector i elector) where
  clock_eq := hreads.clock_eq
  electors_eq := by
    simp only [Election.setElector, hreads.electors_eq]
  lease_eq := hreads.lease_eq
  inRange := Election.forall_setElector (P := fun _ current => ∀ now version patch,
    current.phase = .patching now version patch → patch.InRange) hrange hreads.inRange

theorem ReadsAs.step (hreads : ReadsAs codec documents state) (event : ElectionEvent ι) :
    ReadsAs codec (documents.step electorate codec metadata event)
      (state.step electorate event) := by
  cases event with
  | tick elapsed =>
      exact ⟨congrArg (· + (elapsed : Int)) hreads.clock_eq, hreads.electors_eq,
        hreads.lease_eq, hreads.inRange⟩
  | begin i =>
      simp only [DocumentElection.step, Election.step, Election.stepWith, hreads.electors_eq,
        hreads.clock_eq]
      split
      · exact hreads.setElector _ _ (by simp)
      · exact hreads
  | report i =>
      simp only [DocumentElection.step, Election.step, Election.stepWith, hreads.electors_eq]
      apply hreads.setElector
      intro now version patch hphase
      unfold Elector.report at hphase
      split at hphase
      · cases hphase
      · cases hphase
      · cases hphase
      · exact hreads.inRange i now version patch hphase
  | cancel i =>
      simp only [DocumentElection.step, Election.step, Election.stepWith, hreads.electors_eq]
      split
      · apply hreads.setElector
        intro now version patch hphase
        split at hphase <;> cases hphase
      · exact hreads
  | request i delivery =>
      have hrange := hreads.inRange i
      obtain ⟨hphase, hlease⟩ := requestDocument_eq electorate metadata i delivery
        hreads.lease_eq hrange
      have hmoved := hreads.setElector i { state.electors i with
        phase := (electorate.request i (state.electors i).phase state.lease delivery).1 }
        (request_inRange i state.lease delivery hrange)
      simp only [DocumentElection.step, Election.step, Election.stepWith, hreads.electors_eq,
        hphase]
      exact ⟨hmoved.clock_eq, hmoved.electors_eq, hlease, hmoved.inRange⟩

theorem Kept.step {document : StoredLease} (hkept : Kept document documents)
    (event : ElectionEvent ι) :
    Kept document (documents.step electorate codec metadata event) := by
  obtain ⟨stored, hstored, hmembers⟩ := hkept
  cases event with
  | tick | report => exact ⟨stored, hstored, hmembers⟩
  | begin i | cancel i =>
      simp only [DocumentElection.step, Election.stepWith]
      split <;> exact ⟨stored, hstored, hmembers⟩
  | request i delivery =>
      obtain ⟨after, hafter, hchange⟩ := requestDocument_kept electorate codec metadata i
        (documents.electors i).phase stored delivery
      rw [← hstored] at hafter
      refine ⟨after, hafter, ?_⟩
      intro name hname
      rcases hchange with rfl | ⟨patch, rfl⟩
      · exact hmembers name hname
      · exact (lookup_put_of_ne hname).trans (hmembers name hname)

/-- The election over documents that can be read is the election over the leases
read from them, event by event, and the electors never make the document unreadable
nor change it outside its spec. -/
theorem run_readsAs (electorate : Electorate ι) (codec : MicroTimeCodec) (metadata : Json)
    (clock : Int) {stored : Option StoredLease} {lease : Option Lease}
    (hlease : stored.map (StoredLease.read codec) = lease.map some)
    (events : List (ElectionEvent ι)) :
    ReadsAs codec (run electorate codec metadata (Election.initial clock stored) events)
        (Election.run electorate (.initial clock lease) events) ∧
      ∀ document, stored = some document →
        Kept document (run electorate codec metadata (Election.initial clock stored) events) := by
  induction events using List.reverseRecOn with
  | nil =>
      refine ⟨readsAs_initial hlease clock, ?_⟩
      intro document hdocument
      exact ⟨document, hdocument, fun _ _ => rfl⟩
  | append_singleton events event ih =>
      unfold run Election.run at ih ⊢
      rw [List.foldl_append, List.foldl_append]
      exact ⟨ih.1.step event, fun document hdocument => (ih.2 document hdocument).step event⟩

/-- The document is as it was, and no elector got past reading it. -/
structure Stuck (document : StoredLease) (documents : DocumentElection ι) : Prop where
  lease_eq : documents.lease = some document
  follows : ∀ i, Follows (documents.electors i)

theorem Stuck.setElector {document : StoredLease} (hstuck : Stuck document documents) (i : ι)
    {elector : Elector} (hfollows : Follows elector) :
    Stuck document (documents.setElector i elector) where
  lease_eq := hstuck.lease_eq
  follows := (Function.forall_update_iff _ fun _ current => Follows current).mpr
    ⟨hfollows, fun j _ => hstuck.follows j⟩

theorem Stuck.step {document : StoredLease} (hread : document.read codec = none)
    (hstuck : Stuck document documents) (event : ElectionEvent ι) :
    Stuck document (documents.step electorate codec metadata event) := by
  cases event with
  | tick elapsed => exact ⟨hstuck.lease_eq, hstuck.follows⟩
  | begin i =>
      simp only [DocumentElection.step, Election.stepWith]
      split
      · exact hstuck.setElector i ⟨(hstuck.follows i).1, trivial⟩
      · exact hstuck
  | report i => exact hstuck.setElector i (hstuck.follows i).report
  | cancel i =>
      simp only [DocumentElection.step, Election.stepWith, (hstuck.follows i).1]
      split
      · exact hstuck.setElector i ⟨rfl, trivial⟩
      · exact hstuck
  | request i delivery =>
      obtain ⟨phase, hrequest, hfollows⟩ := requestDocument_of_unreadable electorate metadata
        hread i (hstuck.follows i) delivery
      simp only [DocumentElection.step, Election.stepWith, hstuck.lease_eq, hrequest]
      exact ⟨rfl, (hstuck.setElector i hfollows).follows⟩

/-- A lease that cannot be read ends the election: no elector leads, and none of them
writes the document. -/
theorem run_of_unreadable (electorate : Electorate ι) {codec : MicroTimeCodec}
    (metadata : Json) (clock : Int) {document : StoredLease}
    (hread : document.read codec = none) (events : List (ElectionEvent ι)) :
    Stuck document
      (run electorate codec metadata (Election.initial clock (some document)) events) := by
  induction events using List.reverseRecOn with
  | nil => exact ⟨rfl, fun _ => ⟨rfl, trivial⟩⟩
  | append_singleton events event ih =>
      unfold run at ih ⊢
      rw [List.foldl_append]
      exact ih.step hread event

end DocumentElection

namespace LeaseWitness

open Election.ElectionWitness DocumentElection

/-- The time of these runs as a `MicroTime` prints it. -/
def epoch : Str := "1970-01-01T00:00:00.000000Z".toList

def unary (time : Int) : Str :=
  List.replicate time.toNat '+' ++ List.replicate (-time).toNat '-'

theorem count_unary (time : Int) : ((unary time).count '+' : Int) - (unary time).count '-' =
    time := by
  rw [unary, List.count_append, List.count_append, List.count_replicate_self,
    List.count_replicate_self, List.count_eq_zero_of_not_mem, List.count_eq_zero_of_not_mem]
  · omega
  · intro hmem
    cases List.eq_of_mem_replicate hmem
  · intro hmem
    cases List.eq_of_mem_replicate hmem

theorem unary_ne_epoch (time : Int) : unary time ≠ epoch := by
  intro heq
  have hdigit : '1' ∈ unary time := heq ▸ List.mem_cons_self
  rcases List.mem_append.mp hdigit with hmem | hmem
  · cases List.eq_of_mem_replicate hmem
  · cases List.eq_of_mem_replicate hmem

/-- Times other than the epoch do not occur; they are written in unary. -/
def codec : MicroTimeCodec where
  format time := if time = 0 then epoch else unary time
  parse written :=
    if written = epoch then some 0 else some (written.count '+' - written.count '-')
  parse_format time := by
    by_cases hzero : time = 0
    · rw [if_pos hzero, if_pos rfl, hzero]
    · rw [if_neg hzero, if_neg (unary_ne_epoch time), count_unary]

/-- A lease without a holder, with an annotation. -/
def unheld : StoredLease where
  resourceVersion := 1
  members := [("metadata".toList, .obj [("annotations".toList, .obj [])]),
    ("spec".toList, .obj [])]

/-- One replica acquires the lease. -/
def acquired : List (ElectionEvent Bool) :=
  [.begin true, .request true .answered, .request true .answered, .report true]

theorem unheld_acquired :
    ((run replicas codec .null (Election.initial 0 (some unheld)) acquired).electors
      true).leader = true := by
  have hread : (some unheld).map (StoredLease.read codec) =
      (some ⟨1, some LeaseSpec.default⟩ : Option Lease).map some := rfl
  rw [(run_readsAs replicas codec .null 0 hread acquired).1.electors_eq]
  decide

/-- A lease whose duration is a string. -/
def malformed : StoredLease where
  resourceVersion := 1
  members := [("spec".toList, .obj [("leaseDurationSeconds".toList, .str "15".toList)])]

theorem malformed_leads_nobody :
    ((run replicas codec .null (Election.initial 0 (some malformed)) acquired).electors
      true).leader = false :=
  ((run_of_unreadable replicas .null 0 rfl acquired).follows true).1

end LeaseWitness

end PiCluster
