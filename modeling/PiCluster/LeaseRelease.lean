/-
What a release takes away.  `release_lease` clears the holder with a patch that
names no version and no holder, so it is the elector's own lease only as long as
nobody took the lease while the elector still counted itself leader.
-/
import PiCluster.ElectionSafety

namespace PiCluster

open Text

/-- The `holderIdentity` stored at the server. -/
def Election.storedHolder {ι : Type} (state : Election ι) : Option Str :=
  state.lease.bind fun lease => lease.specOrDefault.holderIdentity

namespace Election

variable {ι : Type} (electorate : Electorate ι) (state : Election ι)

/-- The condition on one request: a renewal meets a lease that still names its
elector, and an acquisition meets no other elector that counts itself leader and
has not released. -/
def TakesFree (i : ι) : Prop :=
  match (state.electors i).phase with
  | .patching _ _ (.renew _ _) =>
      ∀ lease ∈ state.lease, lease.holder = electorate.holderIdentity i
  | .patching _ _ (.acquire _ _ _ _) =>
      ∀ j, (state.electors j).Active → (state.electors j).phase = .released ∨ j = i
  | _ => True

/-- No step takes the lease from an elector that still counts itself leader. -/
def NoTakeover : ElectionEvent ι → Prop
  | .request i _ => state.TakesFree electorate i
  | _ => True

/-- The lease an active elector may still release: its own, or nobody's. -/
def Releasable (i : ι) (lease : Lease) : Prop :=
  lease.holder = electorate.holderIdentity i ∨ lease.specOrDefault.holderIdentity = none

/-- What the patches of the two phases that hold one look like. -/
def OwnPatch (i : ι) : LeasePatch → Prop
  | .renew _ _ => True
  | .acquire holder _ _ _ => holder = electorate.holderIdentity i
  | .release => False

structure ReleaseInv : Prop where
  backed : ∀ i, (state.electors i).Active → (state.electors i).phase = .released ∨
    ∃ lease, state.lease = some lease ∧ Releasable electorate i lease
  releasing : ∀ i, (state.electors i).phase = .releasing → (state.electors i).leader = true
  patches : ∀ i now version patch, (state.electors i).phase = .patching now version patch →
    OwnPatch electorate i patch

theorem releaseInv_initial (clock : Int) (lease : Option Lease) :
    ReleaseInv electorate (initial clock lease) where
  backed := by simp [initial, Elector.Active]
  releasing := by simp [initial]
  patches := by simp [initial]

/-- A decision on a lease leads to a patch of the elector's own. -/
theorem ownPatch_of_decideOn {electorate : Electorate ι} {i : ι} {now : Int} {existing : Lease}
    {version : Nat} {patch : LeasePatch}
    (hdecided : electorate.decideOn i now existing = .patching now version patch) :
    OwnPatch electorate i patch := by
  unfold Electorate.decideOn at hdecided
  split at hdecided
  · obtain ⟨-, -, rfl⟩ := Phase.patching.inj hdecided
    trivial
  · split at hdecided
    · obtain ⟨-, -, rfl⟩ := Phase.patching.inj hdecided
      rfl
    · cases hdecided

section Acting

variable {electorate state}

/-- The lease that an elector may write is one that everybody who is still active may
release. -/
theorem ReleaseInv.releasable (hinv : ReleaseInv electorate state) {i : ι} {phase : Phase}
    {lease : Lease} (hwrites : Writes electorate state i phase lease)
    (hfree : state.TakesFree electorate i) :
    (phase = .released ∨ Releasable electorate i lease) ∧
      ∀ j, j ≠ i → (state.electors j).Active →
        (state.electors j).phase = .released ∨ Releasable electorate j lease := by
  cases hwrites with
  | created now delivery hphase hlease =>
      refine ⟨Or.inr (Or.inl rfl), ?_⟩
      intro j _ hactive
      refine (hinv.backed j hactive).imp id ?_
      -- nobody else can be active without a lease
      rintro ⟨lease, hsome, _⟩
      simp [hlease] at hsome
  | released existing hphase hlease => exact ⟨Or.inl rfl, fun j _ _ => Or.inr (Or.inr rfl)⟩
  | patched now version patch existing delivery hphase hlease =>
      have hpatch := hinv.patches i now version patch hphase
      cases patch with
      | release => exact hpatch.elim
      | renew time duration =>
          simp only [TakesFree, hphase] at hfree
          refine ⟨Or.inr (Or.inl (hfree existing hlease)), ?_⟩
          intro j _ hactive
          -- a renewal leaves the holder as it was
          refine (hinv.backed j hactive).imp id ?_
          rintro ⟨lease, hsome, hreleasable⟩
          obtain rfl : lease = existing := Option.some.inj (hsome.symm.trans hlease)
          exact hreleasable
      | acquire holder time duration transitions =>
          simp only [TakesFree, hphase] at hfree
          obtain rfl : holder = electorate.holderIdentity i := hpatch
          exact ⟨Or.inr (Or.inl rfl),
            fun j hji hactive => Or.inl ((hfree j hactive).resolve_right hji)⟩

variable [DecidableEq ι]

/-- An elector moves on without a write. -/
theorem ReleaseInv.keep (hinv : ReleaseInv electorate state) {event : ElectionEvent ι} {i : ι}
    {elector : Elector} (hquiet : Quiet electorate state event i elector) :
    ReleaseInv electorate (state.setElector i elector) := by
  refine ⟨?_, ?_, ?_⟩
  · intro j hj
    by_cases hji : j = i
    · subst hji
      rw [setElector_electors_self] at hj
      obtain ⟨hactive, hbefore⟩ := hquiet.active hj
      exact Or.inr ((hinv.backed j hactive).resolve_left hbefore)
    · rw [setElector_electors_of_ne hji] at hj ⊢
      exact hinv.backed j hj
  · exact releasing_setElector hquiet.releasing hinv.releasing
  · have hpatch : ∀ now version patch, elector.phase = .patching now version patch →
        OwnPatch electorate i patch := by
      intro now version patch hphase
      obtain ⟨existing, _, -, -, -, hdecided⟩ := hquiet.decision now version patch hphase
      exact ownPatch_of_decideOn hdecided
    exact forall_setElector (P := fun j current => ∀ now version patch,
      current.phase = .patching now version patch → OwnPatch electorate j patch) hpatch
      hinv.patches

theorem ReleaseInv.write (hinv : ReleaseInv electorate state) {i : ι} {phase : Phase}
    {lease : Lease} (hwrites : Writes electorate state i phase lease)
    (hfree : state.TakesFree electorate i) :
    ReleaseInv electorate { state.setElector i { state.electors i with phase := phase } with
      lease := some lease } := by
  have hsettled := hwrites.settled
  obtain ⟨hown, hothers⟩ := hinv.releasable hwrites hfree
  refine ⟨?_, ?_, ?_⟩
  · intro j hj
    by_cases hji : j = i
    · subst hji
      simp only [setElector_electors_self]
      exact hown.imp id fun hlease => ⟨lease, rfl, hlease⟩
    · simp only [setElector_electors_of_ne hji] at hj ⊢
      exact (hothers j hji hj).imp id fun hlease => ⟨lease, rfl, hlease⟩
  · have hreleasing : phase = .releasing → (state.electors i).leader = true :=
      fun hphase => absurd hphase hsettled.ne_releasing
    exact releasing_setElector hreleasing hinv.releasing
  · have hpatch : ∀ now version patch, phase = .patching now version patch →
        OwnPatch electorate i patch :=
      fun now version patch hphase => absurd hphase (hsettled.ne_patching now version patch)
    exact forall_setElector (P := fun j current => ∀ now version patch,
      current.phase = .patching now version patch → OwnPatch electorate j patch) hpatch
      hinv.patches

/-- One step without a takeover keeps the invariant. -/
theorem releaseInv_step (state : Election ι) (event : ElectionEvent ι)
    (hinv : ReleaseInv electorate state) (hfree : state.NoTakeover electorate event) :
    ReleaseInv electorate (state.step electorate event) := by
  have heffect := step_effect electorate state event
  generalize state.step electorate event = next at heffect
  cases heffect with
  | ticked elapsed => exact ⟨hinv.backed, hinv.releasing, hinv.patches⟩
  | unchanged => exact hinv
  | moved _ i elector hquiet => exact hinv.keep hquiet
  | wrote i delivery phase lease hwrites => exact hinv.write hwrites hfree

/-- The request of a release reaches the server or does not. -/
theorem lease_step_releasing (electorate : Electorate ι) {i : ι} {lease : Lease}
    (hphase : (state.electors i).phase = .releasing) (hlease : state.lease = some lease)
    (delivery : Delivery) :
    (state.step electorate (.request i delivery)).lease = some lease ∨
      (state.step electorate (.request i delivery)).lease =
        some (lease.applyPatch .release) := by
  simp only [step, stepWith, hphase, hlease]
  cases delivery with
  | failed => exact Or.inl rfl
  | answered | replyLost => exact Or.inr rfl

/-- The release of an elector that may still release its lease. -/
theorem ReleaseInv.holder_of_changed (hinv : ReleaseInv electorate state) {i : ι}
    (delivery : Delivery) (hphase : (state.electors i).phase = .releasing)
    (hchanged : (state.step electorate (.request i delivery)).storedHolder ≠
      state.storedHolder) :
    state.storedHolder = some (electorate.holderIdentity i) := by
  have hactive : (state.electors i).Active := Or.inl (hinv.releasing i hphase)
  obtain ⟨lease, hlease, hreleasable⟩ := (hinv.backed i hactive).resolve_left (by simp [hphase])
  have hstored : state.storedHolder = lease.specOrDefault.holderIdentity := by
    simp [storedHolder, hlease]
  cases hheld : lease.specOrDefault.holderIdentity with
  | some held =>
      have hown : held = electorate.holderIdentity i := by
        simpa [Releasable, Lease.holder, hheld] using hreleasable
      rw [hstored, hheld, hown]
  | none =>
      -- an unheld lease stays unheld, whether or not the patch arrives
      exfalso
      apply hchanged
      rw [hstored, hheld, storedHolder]
      rcases lease_step_releasing electorate hphase hlease delivery with hsame | hreleased
      · rw [hsame]
        exact hheld
      · rw [hreleased]
        rfl

end Acting

/-- In every state reached without a takeover, a release changes the stored
holder only where it names the releasing elector. -/
theorem run_release_own {ι : Type} [DecidableEq ι] (electorate : Electorate ι) (clock : Int)
    (lease : Option Lease) (events : List (ElectionEvent ι))
    (hfree : StepRun.Meets (step electorate) (NoTakeover electorate) (initial clock lease)
      events) :
    ∀ reached, reached <+: events → ∀ i delivery,
      let state := run electorate (initial clock lease) reached
      (state.electors i).phase = .releasing →
      (state.step electorate (.request i delivery)).storedHolder ≠ state.storedHolder →
      state.storedHolder = some (electorate.holderIdentity i) := by
  intro reached hreached i delivery state hphase hchanged
  have hinv : ReleaseInv electorate state :=
    (hfree.of_isPrefix hreached).foldl_inv releaseInv_step
      (releaseInv_initial electorate clock lease)
  exact hinv.holder_of_changed delivery hphase hchanged

namespace ReleaseWitness

open ElectionWitness

/-- A replica creates the lease, renews it once and is cancelled. -/
def shutdown : List (ElectionEvent Bool) :=
  [.begin true, .request true .answered, .request true .answered, .report true, .tick 3000000,
    .begin true, .request true .answered, .request true .answered, .report true, .cancel true]

theorem shutdown_releases_own :
    ((run replicas (initial 0 none) shutdown).step replicas
        (.request true .answered)).storedHolder = none ∧
      (run replicas (initial 0 none) shutdown).storedHolder = some "pod-a".toList := by
  have hreleased : ((run replicas (initial 0 none) shutdown).step replicas
      (.request true .answered)).storedHolder = none := by
    decide
  have hfree : StepRun.Meets (step replicas) (NoTakeover replicas) (initial 0 none)
      shutdown := by
    refine ⟨trivial, ?_, ?_, trivial, trivial, trivial, ?_, ?_, trivial, trivial, trivial⟩
    · change True
      trivial
    · change True
      trivial
    · change True
      trivial
    · change ∀ lease ∈ some _, _ = _
      decide
  exact ⟨hreleased, run_release_own replicas 0 none shutdown hfree shutdown
    (List.prefix_refl _) true .answered (by decide) (by decide)⟩

/-- The first leader pauses past its lease, the other replica takes over, and
the first one is shut down before its next cycle. -/
def takenOver : List (ElectionEvent Bool) :=
  [.begin true, .request true .answered, .request true .answered, .report true,
    .tick 12000000, .begin false, .request false .answered, .request false .answered,
    .report false, .cancel true]

theorem takenOver_releases_other :
    ((run replicas (initial 0 none) takenOver).electors true).phase = .releasing ∧
      (run replicas (initial 0 none) takenOver).storedHolder = some "pod-b".toList ∧
      ((run replicas (initial 0 none) takenOver).step replicas
        (.request true .answered)).storedHolder = none := by
  decide

end ReleaseWitness

end Election

end PiCluster
