/-
When at most one elector leads.  The patches carry no precondition, so this
rests on the schedule: a patch must meet the lease it was computed from, the
holder must act before its lease runs out, and nobody may read the lease between
a release and the callback that follows it.
-/
import PiCluster.Lib.StepRun
import PiCluster.Election

namespace PiCluster

open Text

/-- The elector has reported leadership or is about to. -/
def Elector.Active (elector : Elector) : Prop :=
  elector.leader = true ∨ elector.phase = .decided (.ok true)

instance (elector : Elector) : Decidable elector.Active :=
  inferInstanceAs (Decidable (_ ∨ _))

/-- The time taken at the start of the cycle in progress. -/
def Phase.cycleStart : Phase → Option Int
  | .reading now => some now
  | .creating now => some now
  | .refetching now => some now
  | .patching now _ _ => some now
  | _ => none

/-- An elector in the middle of a cycle has not just released the lease. -/
theorem Phase.ne_released {phase : Phase} {now : Int} (hcycle : phase.cycleStart = some now) :
    phase ≠ .released := by
  rintro rfl
  cases hcycle

/-- A lease that was just renewed or acquired runs for its duration. -/
theorem Lease.isExpired_eq_false {lease : Lease} {clock now duration : Int}
    (hrenew : lease.specOrDefault.renewTime = some now)
    (hduration : lease.specOrDefault.leaseDurationSeconds = some duration)
    (hage : (clock - now).tdiv 1000000 ≤ duration) : lease.isExpired clock = false := by
  simp only [isExpired, gt_iff_lt, decide_eq_false_iff_not, hrenew, hduration,
    Option.getD_some]
  omega

theorem LeasePatch.renew_valid (existing : Lease) {clock now duration : Int}
    (hage : (clock - now).tdiv 1000000 ≤ duration) :
    (existing.applyPatch (.renew now duration)).isExpired clock = false :=
  Lease.isExpired_eq_false rfl rfl hage

theorem LeasePatch.acquire_valid (existing : Lease) (holder : Str) (transitions : Int)
    {clock now duration : Int} (hage : (clock - now).tdiv 1000000 ≤ duration) :
    (existing.applyPatch (.acquire holder now duration transitions)).isExpired clock =
      false :=
  Lease.isExpired_eq_false rfl rfl hage

theorem Lease.isExpired_mono {lease : Lease} {now later : Int} (hle : now ≤ later)
    (hlater : lease.isExpired later = false) : lease.isExpired now = false := by
  simp only [isExpired, gt_iff_lt, decide_eq_false_iff_not] at hlater ⊢
  have hmono := Int.tdiv_le_tdiv (a := now - lease.specOrDefault.renewTime.getD 0)
    (b := later - lease.specOrDefault.renewTime.getD 0) (c := 1000000) (by omega) (by omega)
  omega

namespace Election

variable {ι : Type} (electorate : Electorate ι) (state : Election ι)

/-- A write of this cycle is still within the lease duration it sets. -/
def InTime (i : ι) (now : Int) : Prop :=
  (state.clock - now).tdiv 1000000 ≤ electorate.seconds i

/-- The condition on one request. -/
def RequestOk (i : ι) : Prop :=
  match (state.electors i).phase with
  | .reading _ | .refetching _ => ∀ j, (state.electors j).phase ≠ .released
  | .creating now => state.InTime electorate i now
  | .patching now version _ =>
      state.InTime electorate i now ∧
        ∀ lease ∈ state.lease, lease.resourceVersion = version
  | _ => True

/-- A schedule without races: no patch meets a lease other than the one it was
computed from, the clock does not pass the expiry of a holder that still counts
itself leader, no write comes later than its own lease duration, and no read
falls between a release and its callback. -/
def RaceFree : ElectionEvent ι → Prop
  | .tick elapsed => ∀ i, (state.electors i).Active → ∀ lease ∈ state.lease,
      lease.holder = electorate.holderIdentity i →
      lease.isExpired (state.clock + elapsed) = false
  | .request i _ => state.RequestOk electorate i
  | _ => True

/-- The patched lease belongs to the elector and is valid for its duration. -/
def PatchOk (i : ι) (now : Int) (lease : Lease) : Prop :=
  lease.holder = electorate.holderIdentity i ∧
    ∀ clock : Int, (clock - now).tdiv 1000000 ≤ electorate.seconds i →
      lease.isExpired clock = false

structure SafeInv : Prop where
  exclusive : ∀ i j, (state.electors i).Active → (state.electors j).Active → i = j
  backed : ∀ i, (state.electors i).Active → ∃ lease, state.lease = some lease ∧
    ((state.electors i).phase = .released ∨
      lease.holder = electorate.holderIdentity i ∧ lease.isExpired state.clock = false)
  started : ∀ i now, (state.electors i).phase.cycleStart = some now → now ≤ state.clock
  patches : ∀ i now version patch, (state.electors i).phase = .patching now version patch →
    ∃ lease, state.lease = some lease ∧ version ≤ lease.resourceVersion ∧
      (lease.resourceVersion = version →
        (∀ j, (state.electors j).Active → j = i) ∧
          PatchOk electorate i now (lease.applyPatch patch))
  releasing : ∀ i, (state.electors i).phase = .releasing → (state.electors i).leader = true

theorem safeInv_initial (clock : Int) (lease : Option Lease) :
    SafeInv electorate (initial clock lease) where
  exclusive := by simp [initial, Elector.Active]
  backed := by simp [initial, Elector.Active]
  started := by simp [initial, Phase.cycleStart]
  patches := by simp [initial]
  releasing := by simp [initial]

theorem SafeInv.tick {electorate : Electorate ι} {state : Election ι}
    (hinv : SafeInv electorate state) {elapsed : Nat}
    (hrace : state.RaceFree electorate (.tick elapsed)) :
    SafeInv electorate { state with clock := state.clock + elapsed } where
  exclusive := hinv.exclusive
  backed := by
    intro i hactive
    obtain ⟨lease, hlease, hcase⟩ := hinv.backed i hactive
    refine ⟨lease, hlease, hcase.imp id fun hheld => ⟨hheld.1, ?_⟩⟩
    exact hrace i hactive lease hlease hheld.1
  started := by
    intro i now hnow
    have hle := hinv.started i now hnow
    simp only
    omega
  patches := hinv.patches
  releasing := hinv.releasing

section Decision

variable {electorate state}

theorem patchOk_renew (i : ι) (now : Int) {existing : Lease}
    (hholder : existing.holder = electorate.holderIdentity i) :
    PatchOk electorate i now (existing.applyPatch (.renew now (electorate.seconds i))) :=
  ⟨hholder, fun _ hage => LeasePatch.renew_valid existing hage⟩

theorem patchOk_acquire (i : ι) (now transitions : Int) (existing : Lease) :
    PatchOk electorate i now (existing.applyPatch
      (.acquire (electorate.holderIdentity i) now (electorate.seconds i) transitions)) :=
  ⟨rfl, fun _ hage => LeasePatch.acquire_valid existing _ transitions hage⟩

/-- What a read leads to: a patch computed from this version, by the holder or
on an expired or unheld lease, or the answer that somebody else leads. -/
theorem decideOn_cases (electorate : Electorate ι) (i : ι) (now : Int)
    (existing : Lease) :
    (∃ patch, electorate.decideOn i now existing =
        .patching now existing.resourceVersion patch ∧
      PatchOk electorate i now (existing.applyPatch patch) ∧
      (existing.holder = electorate.holderIdentity i ∨ existing.isExpired now = true ∨
        existing.holder = [])) ∨
    electorate.decideOn i now existing = .decided (.ok false) := by
  unfold Electorate.decideOn
  split
  · rename_i hholder
    exact Or.inl ⟨_, rfl, patchOk_renew i now hholder, Or.inl hholder⟩
  · split
    · rename_i hfree
      refine Or.inl ⟨_, rfl, patchOk_acquire i now _ existing, Or.inr ?_⟩
      simpa using hfree
    · exact Or.inr rfl

/-- A leader that has not released keeps every reader away. -/
theorem SafeInv.alone_of_read (hinv : SafeInv electorate state)
    (hnonempty : ∀ i, electorate.holderIdentity i ≠ []) {i : ι} {now : Int}
    {existing : Lease} (hlease : state.lease = some existing) (hnow : now ≤ state.clock)
    (hquiet : ∀ j, (state.electors j).phase ≠ .released)
    (hcase : existing.holder = electorate.holderIdentity i ∨
      existing.isExpired now = true ∨ existing.holder = []) :
    ∀ j, (state.electors j).Active → j = i := by
  intro j hactive
  obtain ⟨lease, hsome, hbacked⟩ := hinv.backed j hactive
  obtain rfl : lease = existing := Option.some.inj (hsome.symm.trans hlease)
  obtain ⟨hholder, hvalid⟩ := hbacked.resolve_left (hquiet j)
  rcases hcase with hown | hexpired | hempty
  · exact electorate.distinct (hholder.symm.trans hown)
  · rw [Lease.isExpired_mono hnow hvalid] at hexpired
    cases hexpired
  · exact absurd (hholder.symm.trans hempty) (hnonempty j)

end Decision

/-- Everything the pending request of an elector can do. -/
inductive RequestEffect (i : ι) (phase : Phase) (lease : Option Lease) :
    Phase × Option Lease → Prop
  | gaveUp (now : Int) (hphase : phase.cycleStart = some now) :
      RequestEffect i phase lease (.decided (.error ()), lease)
  | read (now : Int) (existing : Lease) (hphase : phase = .reading now ∨ phase = .refetching now)
      (hlease : lease = some existing) :
      RequestEffect i phase lease (electorate.decideOn i now existing, lease)
  | absent (now : Int) (hphase : phase = .reading now) :
      RequestEffect i phase lease (.creating now, lease)
  | created (now : Int) (delivery : Delivery) (hphase : phase = .creating now)
      (hlease : lease = none) :
      RequestEffect i phase lease
        (Electorate.afterWrite delivery, some (electorate.newLease i now))
  | conflict (now : Int) (hphase : phase = .creating now) :
      RequestEffect i phase lease (.refetching now, lease)
  | patched (now : Int) (version : Nat) (patch : LeasePatch) (existing : Lease)
      (delivery : Delivery) (hphase : phase = .patching now version patch)
      (hlease : lease = some existing) :
      RequestEffect i phase lease
        (Electorate.afterWrite delivery, some (existing.applyPatch patch))
  | released (existing : Lease) (hphase : phase = .releasing) (hlease : lease = some existing) :
      RequestEffect i phase lease (.released, some (existing.applyPatch .release))
  | unreleased (hphase : phase = .releasing) : RequestEffect i phase lease (.released, lease)
  | nothing : RequestEffect i phase lease (phase, lease)

theorem request_effect (i : ι) (phase : Phase) (lease : Option Lease) (delivery : Delivery) :
    RequestEffect electorate i phase lease (electorate.request i phase lease delivery) := by
  cases phase with
  | reading now =>
      cases delivery <;> cases lease
      · exact .absent now rfl
      · exact .read now _ (Or.inl rfl) rfl
      all_goals exact .gaveUp now rfl
  | creating now =>
      cases delivery <;> cases lease
      · exact .created now .answered rfl rfl
      · exact .conflict now rfl
      · exact .created now .replyLost rfl rfl
      all_goals exact .gaveUp now rfl
  | refetching now =>
      cases delivery <;> cases lease
      · exact .gaveUp now rfl
      · exact .read now _ (Or.inr rfl) rfl
      all_goals exact .gaveUp now rfl
  | patching now version patch =>
      cases delivery <;> cases lease
      · exact .gaveUp now rfl
      · exact .patched now version patch _ .answered rfl rfl
      · exact .gaveUp now rfl
      · exact .patched now version patch _ .replyLost rfl rfl
      all_goals exact .gaveUp now rfl
  | releasing =>
      cases delivery <;> cases lease
      · exact .unreleased rfl
      · exact .released _ rfl rfl
      · exact .unreleased rfl
      · exact .released _ rfl rfl
      all_goals exact .unreleased rfl
  | idle | decided | released | stopped => exact .nothing

section Kinds

variable {electorate state}

/-- How an elector moves on without a write: it does not become active, and a patch it
comes to hold is its decision on the lease it has just read. -/
structure Quiet (electorate : Electorate ι) (state : Election ι) (event : ElectionEvent ι)
    (i : ι) (elector : Elector) : Prop where
  active : elector.Active → (state.electors i).Active ∧ (state.electors i).phase ≠ .released
  started : ∀ now, elector.phase.cycleStart = some now →
    (state.electors i).phase.cycleStart = some now ∨ now = state.clock
  decision : ∀ now version patch, elector.phase = .patching now version patch →
    ∃ existing delivery, event = .request i delivery ∧ state.lease = some existing ∧
      ((state.electors i).phase = .reading now ∨ (state.electors i).phase = .refetching now) ∧
      electorate.decideOn i now existing = .patching now version patch
  releasing : elector.phase = .releasing → elector.leader = true

/-- What an elector writes, and the phase it is in afterwards. -/
inductive Writes (electorate : Electorate ι) (state : Election ι) (i : ι) : Phase → Lease → Prop
  | created (now : Int) (delivery : Delivery)
      (hphase : (state.electors i).phase = .creating now) (hlease : state.lease = none) :
      Writes electorate state i (Electorate.afterWrite delivery) (electorate.newLease i now)
  | patched (now : Int) (version : Nat) (patch : LeasePatch) (existing : Lease)
      (delivery : Delivery) (hphase : (state.electors i).phase = .patching now version patch)
      (hlease : state.lease = some existing) :
      Writes electorate state i (Electorate.afterWrite delivery) (existing.applyPatch patch)
  | released (existing : Lease) (hphase : (state.electors i).phase = .releasing)
      (hlease : state.lease = some existing) :
      Writes electorate state i .released (existing.applyPatch .release)

/-- The phases an elector is in right after a write. -/
def Settled (phase : Phase) : Prop := phase = .released ∨ ∃ result, phase = .decided result

theorem Settled.cycleStart_eq_none {phase : Phase} (hsettled : Settled phase) :
    phase.cycleStart = none := by
  rcases hsettled with rfl | ⟨result, rfl⟩ <;> rfl

theorem Settled.ne_patching {phase : Phase} (hsettled : Settled phase) (now : Int)
    (version : Nat) (patch : LeasePatch) : phase ≠ .patching now version patch := by
  rintro rfl
  cases hsettled.cycleStart_eq_none

theorem Settled.ne_releasing {phase : Phase} (hsettled : Settled phase) :
    phase ≠ .releasing := by
  rcases hsettled with rfl | ⟨result, rfl⟩ <;> simp

theorem settled_afterWrite (delivery : Delivery) :
    Settled (Electorate.afterWrite delivery) := by
  cases delivery <;> exact Or.inr ⟨_, rfl⟩

theorem Writes.settled {i : ι} {phase : Phase} {lease : Lease}
    (hwrites : Writes electorate state i phase lease) : Settled phase := by
  cases hwrites with
  | created now delivery | patched now version patch existing delivery =>
      exact settled_afterWrite delivery
  | released => exact Or.inl rfl

/-- Every write is a newer version. -/
theorem Writes.version_lt {i : ι} {phase : Phase} {lease : Lease}
    (hwrites : Writes electorate state i phase lease) {old : Lease}
    (hold : state.lease = some old) : old.resourceVersion < lease.resourceVersion := by
  cases hwrites with
  | created now delivery hphase hlease =>
      rw [hlease] at hold
      cases hold
  | patched now version patch existing delivery hphase hlease | released existing hphase hlease =>
      obtain rfl : existing = old := Option.some.inj (hlease.symm.trans hold)
      exact Nat.lt_succ_self existing.resourceVersion

/-- A change of the phase only. -/
theorem quiet_of_phase (electorate : Electorate ι) (event : ElectionEvent ι) {i : ι}
    {phase : Phase} (hbefore : (state.electors i).phase ≠ .released)
    (hsuccess : phase ≠ .decided (.ok true))
    (hstarted : ∀ now, phase.cycleStart = some now →
      (state.electors i).phase.cycleStart = some now ∨ now = state.clock)
    (hpatch : ∀ now version patch, phase ≠ .patching now version patch)
    (hreleasing : phase = .releasing → (state.electors i).leader = true) :
    Quiet electorate state event i { state.electors i with phase := phase } where
  active := by
    rintro (hleader | hdecided)
    · exact ⟨Or.inl hleader, hbefore⟩
    · exact absurd hdecided hsuccess
  started := hstarted
  decision now version patch hphase := absurd hphase (hpatch now version patch)
  releasing := hreleasing

/-- An answered read. -/
theorem quiet_of_read {i : ι} {now : Int} {existing : Lease} (delivery : Delivery)
    (hphase : (state.electors i).phase = .reading now ∨
      (state.electors i).phase = .refetching now) (hlease : state.lease = some existing) :
    Quiet electorate state (.request i delivery) i
      { state.electors i with phase := electorate.decideOn i now existing } := by
  have hbefore : (state.electors i).phase ≠ .released := by
    rcases hphase with hphase | hphase <;> simp [hphase]
  rcases decideOn_cases electorate i now existing with ⟨patch, hdecided, -⟩ | hdecided
  · refine ⟨?_, ?_, ?_, ?_⟩
    · rintro (hleader | hsuccess)
      · exact ⟨Or.inl hleader, hbefore⟩
      · cases hdecided.symm.trans hsuccess
    · intro time htime
      rw [hdecided] at htime
      obtain rfl := Option.some.inj htime
      rcases hphase with hphase | hphase <;> exact Or.inl (by rw [hphase]; rfl)
    · intro time version sent heq
      obtain ⟨rfl, -, -⟩ := Phase.patching.inj (hdecided.symm.trans heq)
      exact ⟨existing, delivery, rfl, hlease, hphase, heq⟩
    · intro hreleasing
      cases hdecided.symm.trans hreleasing
  · rw [hdecided]
    exact quiet_of_phase electorate _ hbefore (by simp) (by simp [Phase.cycleStart]) (by simp)
      (by simp)

/-- The patch an elector decides on is for a lease nobody else is active with. -/
theorem SafeInv.decided (hinv : SafeInv electorate state)
    (hnonempty : ∀ i, electorate.holderIdentity i ≠ []) {event : ElectionEvent ι} {i : ι}
    {now : Int} {version : Nat} {patch : LeasePatch} (hrace : state.RaceFree electorate event)
    (hdecision : ∃ existing delivery, event = .request i delivery ∧ state.lease = some existing ∧
      ((state.electors i).phase = .reading now ∨ (state.electors i).phase = .refetching now) ∧
      electorate.decideOn i now existing = .patching now version patch) :
    ∃ existing, state.lease = some existing ∧ version = existing.resourceVersion ∧
      (∀ j, (state.electors j).Active → j = i) ∧
        PatchOk electorate i now (existing.applyPatch patch) := by
  obtain ⟨existing, delivery, rfl, hlease, hphase, hdecided⟩ := hdecision
  have hquiet : ∀ j, (state.electors j).phase ≠ .released := by
    rcases hphase with hphase | hphase <;> simpa only [RaceFree, RequestOk, hphase] using hrace
  have hnow : now ≤ state.clock := by
    apply hinv.started i now
    rcases hphase with hphase | hphase <;> rw [hphase] <;> rfl
  rcases decideOn_cases electorate i now existing with ⟨sent, hsent, hok, hcase⟩ | hnot
  · obtain ⟨-, rfl, rfl⟩ := Phase.patching.inj (hsent.symm.trans hdecided)
    exact ⟨existing, hlease, rfl, hinv.alone_of_read hnonempty hlease hnow hquiet hcase, hok⟩
  · cases hnot.symm.trans hdecided

/-- Whoever may write is the only active elector, and what it writes is its own lease, or
the end of it. -/
theorem SafeInv.covered (hinv : SafeInv electorate state) {i : ι} {phase : Phase}
    {lease : Lease} (hwrites : Writes electorate state i phase lease)
    (hok : state.RequestOk electorate i) :
    (∀ j, (state.electors j).Active → j = i) ∧ (phase = .released ∨
      lease.holder = electorate.holderIdentity i ∧ lease.isExpired state.clock = false) := by
  unfold RequestOk at hok
  cases hwrites with
  | created now delivery hphase hlease =>
      simp only [hphase] at hok
      refine ⟨?_, Or.inr ⟨rfl, Lease.isExpired_eq_false rfl rfl hok⟩⟩
      -- an active elector would be backed by a lease
      intro j hactive
      obtain ⟨lease, hsome, _⟩ := hinv.backed j hactive
      simp [hlease] at hsome
  | patched now version patch existing delivery hphase hlease =>
      simp only [hphase] at hok
      obtain ⟨lease, hsome, _, hfresh⟩ := hinv.patches i now version patch hphase
      obtain rfl : lease = existing := Option.some.inj (hsome.symm.trans hlease)
      obtain ⟨halone, hholder, hvalid⟩ := hfresh (hok.2 lease hlease)
      exact ⟨halone, Or.inr ⟨hholder, hvalid _ hok.1⟩⟩
  | released existing hphase hlease =>
      have hleader := hinv.releasing i hphase
      exact ⟨fun j hj => hinv.exclusive j i hj (Or.inl hleader), Or.inl rfl⟩

end Kinds

section Acting

variable {electorate state} [DecidableEq ι]

theorem setElector_self (i : ι) : state.setElector i (state.electors i) = state := by
  simp [setElector]

@[simp] theorem setElector_electors_self (i : ι) (elector : Elector) :
    (state.setElector i elector).electors i = elector :=
  Function.update_self ..

theorem setElector_electors_of_ne {i j : ι} (hne : j ≠ i) (elector : Elector) :
    (state.setElector i elector).electors j = state.electors j :=
  Function.update_of_ne hne ..

/-- What holds of the new elector and held of all the others holds of all. -/
theorem forall_setElector {P : ι → Elector → Prop} {i : ι} {elector : Elector}
    (hnew : P i elector) (hold : ∀ j, P j (state.electors j)) :
    ∀ j, P j ((state.setElector i elector).electors j) := by
  intro j
  by_cases hji : j = i
  · subst hji
    rw [setElector_electors_self]
    exact hnew
  · rw [setElector_electors_of_ne hji]
    exact hold j

theorem started_setElector {i : ι} {elector : Elector}
    (hnew : ∀ now, elector.phase.cycleStart = some now → now ≤ state.clock)
    (hold : ∀ j now, (state.electors j).phase.cycleStart = some now → now ≤ state.clock) :
    ∀ j now, ((state.setElector i elector).electors j).phase.cycleStart = some now →
      now ≤ state.clock :=
  forall_setElector (P := fun _ current => ∀ now, current.phase.cycleStart = some now →
    now ≤ state.clock) hnew hold

theorem releasing_setElector {i : ι} {elector : Elector}
    (hnew : elector.phase = .releasing → elector.leader = true)
    (hold : ∀ j, (state.electors j).phase = .releasing → (state.electors j).leader = true) :
    ∀ j, ((state.setElector i elector).electors j).phase = .releasing →
      ((state.setElector i elector).electors j).leader = true :=
  forall_setElector (P := fun _ current => current.phase = .releasing → current.leader = true)
    hnew hold

/-- Everything one step can do. -/
inductive StepEffect (electorate : Electorate ι) (state : Election ι) :
    ElectionEvent ι → Election ι → Prop
  | ticked (elapsed : Nat) : StepEffect electorate state (.tick elapsed)
      { state with clock := state.clock + elapsed }
  | unchanged (event : ElectionEvent ι) : StepEffect electorate state event state
  | moved (event : ElectionEvent ι) (i : ι) (elector : Elector)
      (hquiet : Quiet electorate state event i elector) :
      StepEffect electorate state event (state.setElector i elector)
  | wrote (i : ι) (delivery : Delivery) (phase : Phase) (lease : Lease)
      (hwrites : Writes electorate state i phase lease) :
      StepEffect electorate state (.request i delivery)
        { state.setElector i { state.electors i with phase := phase } with lease := some lease }

/-- A report leaves the elector as it is or moves it without a write. -/
theorem report_effect (electorate : Electorate ι) (state : Election ι) (i : ι) :
    StepEffect electorate state (.report i) (state.setElector i (state.electors i).report) := by
  unfold Elector.report
  split
  · rename_i leader hphase
    refine .moved _ i _ ⟨?_, by simp [Phase.cycleStart], by simp, by simp⟩
    rintro (hleader | hdecided)
    · simp only at hleader
      exact ⟨Or.inr (by rw [hphase, hleader]), by simp [hphase]⟩
    · simp at hdecided
  · exact .moved _ i _ ⟨by simp [Elector.Active], by simp [Phase.cycleStart], by simp, by simp⟩
  · exact .moved _ i _ ⟨by simp [Elector.Active], by simp [Phase.cycleStart], by simp, by simp⟩
  · rw [setElector_self]
    exact .unchanged _

theorem step_request_effect (electorate : Electorate ι) (state : Election ι) (i : ι)
    (delivery : Delivery) :
    StepEffect electorate state (.request i delivery)
      (state.step electorate (.request i delivery)) := by
  have heffect := request_effect electorate i (state.electors i).phase state.lease delivery
  simp only [step, stepWith]
  generalize electorate.request i (state.electors i).phase state.lease delivery = result
    at heffect
  cases heffect with
  | nothing =>
      rw [setElector_self]
      exact .unchanged _
  | gaveUp now hcycle =>
      exact .moved _ i _ (quiet_of_phase electorate _ (Phase.ne_released hcycle) (by simp)
        (by simp [Phase.cycleStart]) (by simp) (by simp))
  | absent now hphase | conflict now hphase =>
      refine .moved _ i _ (quiet_of_phase electorate _ (by simp [hphase]) (by simp) ?_ (by simp)
        (by simp))
      intro time htime
      exact Or.inl (by rw [hphase]; exact htime)
  | read now existing hphase hlease =>
      exact .moved _ i _ (quiet_of_read delivery hphase hlease)
  | created now delivery hphase hlease => exact .wrote i _ _ _ (.created now delivery hphase hlease)
  | patched now version patch existing delivery hphase hlease =>
      exact .wrote i _ _ _ (.patched now version patch existing delivery hphase hlease)
  | released existing hphase hlease => exact .wrote i _ _ _ (.released existing hphase hlease)
  | unreleased hphase =>
      exact .moved _ i _ (quiet_of_phase electorate _ (by simp [hphase]) (by simp)
        (by simp [Phase.cycleStart]) (by simp) (by simp))

theorem step_effect (electorate : Electorate ι) (state : Election ι) (event : ElectionEvent ι) :
    StepEffect electorate state event (state.step electorate event) := by
  cases event with
  | tick elapsed => exact .ticked elapsed
  | report i => exact report_effect electorate state i
  | request i delivery => exact step_request_effect electorate state i delivery
  | begin i =>
      simp only [step, stepWith]
      split
      · rename_i hidle
        exact .moved _ i _ (quiet_of_phase electorate _ (by simp [hidle]) (by simp)
          (by simp [Phase.cycleStart]) (by simp) (by simp))
      · exact .unchanged _
  | cancel i =>
      simp only [step, stepWith]
      split
      · rename_i hidle
        refine .moved _ i _ (quiet_of_phase electorate _ (by simp [hidle]) ?_ ?_ ?_ ?_)
        · split <;> simp
        · split <;> simp [Phase.cycleStart]
        · split <;> simp
        · split <;> simp_all
      · exact .unchanged _

/-- An elector moves on without a write. -/
theorem SafeInv.keep (hinv : SafeInv electorate state)
    (hnonempty : ∀ i, electorate.holderIdentity i ≠ []) {event : ElectionEvent ι} {i : ι}
    {elector : Elector} (hquiet : Quiet electorate state event i elector)
    (hrace : state.RaceFree electorate event) :
    SafeInv electorate (state.setElector i elector) := by
  have hwas : ∀ j, ((state.setElector i elector).electors j).Active →
      (state.electors j).Active :=
    forall_setElector (P := fun j current => current.Active → (state.electors j).Active)
      (fun hj => (hquiet.active hj).1) fun _ hj => hj
  refine ⟨?_, ?_, ?_, ?_, ?_⟩
  · intro j k hj hk
    exact hinv.exclusive j k (hwas j hj) (hwas k hk)
  · intro j hj
    obtain ⟨lease, hlease, hcase⟩ := hinv.backed j (hwas j hj)
    refine ⟨lease, hlease, ?_⟩
    by_cases hji : j = i
    · subst hji
      rw [setElector_electors_self] at hj
      exact Or.inr (hcase.resolve_left (hquiet.active hj).2)
    · rw [setElector_electors_of_ne hji]
      exact hcase
  · have hstarted : ∀ now, elector.phase.cycleStart = some now → now ≤ state.clock := by
      intro now hnow
      rcases hquiet.started now hnow with hbefore | rfl
      · exact hinv.started i now hbefore
      · exact Int.le_refl _
    exact started_setElector hstarted hinv.started
  · intro j now version patch hphase
    by_cases hji : j = i
    · subst hji
      rw [setElector_electors_self] at hphase
      obtain ⟨existing, hlease, hversion, halone, hok⟩ :=
        hinv.decided hnonempty hrace (hquiet.decision now version patch hphase)
      exact ⟨existing, hlease, hversion.le, fun _ => ⟨fun k hk => halone k (hwas k hk), hok⟩⟩
    · rw [setElector_electors_of_ne hji] at hphase
      obtain ⟨lease, hlease, hle, hfresh⟩ := hinv.patches j now version patch hphase
      exact ⟨lease, hlease, hle, fun heq =>
        ⟨fun k hk => (hfresh heq).1 k (hwas k hk), (hfresh heq).2⟩⟩
  · exact releasing_setElector hquiet.releasing hinv.releasing

/-- The only active elector writes: every patch computed before is outdated. -/
theorem SafeInv.write (hinv : SafeInv electorate state) {i : ι} {phase : Phase} {lease : Lease}
    (hwrites : Writes electorate state i phase lease) (hok : state.RequestOk electorate i) :
    SafeInv electorate { state.setElector i { state.electors i with phase := phase } with
      lease := some lease } := by
  have hsettled := hwrites.settled
  obtain ⟨halone, hbacked⟩ := hinv.covered hwrites hok
  have hwas : ∀ j, ((state.setElector i { state.electors i with phase := phase }).electors
      j).Active → j = i := by
    intro j hj
    by_contra hji
    rw [setElector_electors_of_ne hji] at hj
    exact hji (halone j hj)
  refine ⟨?_, ?_, ?_, ?_, ?_⟩
  · intro j k hj hk
    rw [hwas j hj, hwas k hk]
  · intro j hj
    obtain rfl := hwas j hj
    refine ⟨lease, rfl, ?_⟩
    simp only [setElector_electors_self]
    exact hbacked
  · have hstarted : ∀ now, phase.cycleStart = some now → now ≤ state.clock := by
      simp [hsettled.cycleStart_eq_none]
    exact started_setElector hstarted hinv.started
  · intro j now version patch hphase
    by_cases hji : j = i
    · subst hji
      simp only [setElector_electors_self] at hphase
      exact absurd hphase (hsettled.ne_patching now version patch)
    · simp only [setElector_electors_of_ne hji] at hphase
      obtain ⟨old, hold, hle, _⟩ := hinv.patches j now version patch hphase
      have hlt := hwrites.version_lt hold
      exact ⟨lease, rfl, by omega, fun heq => by omega⟩
  · have hreleasing : phase = .releasing → (state.electors i).leader = true :=
      fun hphase => absurd hphase hsettled.ne_releasing
    exact releasing_setElector hreleasing hinv.releasing

/-- One event of a race-free schedule keeps the invariant. -/
theorem safeInv_step (hnonempty : ∀ i, electorate.holderIdentity i ≠ [])
    (state : Election ι) (event : ElectionEvent ι) (hinv : SafeInv electorate state)
    (hrace : state.RaceFree electorate event) :
    SafeInv electorate (state.step electorate event) := by
  have heffect := step_effect electorate state event
  generalize state.step electorate event = next at heffect
  cases heffect with
  | ticked elapsed => exact hinv.tick hrace
  | unchanged => exact hinv
  | moved _ i elector hquiet => exact hinv.keep hnonempty hquiet hrace
  | wrote i delivery phase lease hwrites => exact hinv.write hwrites hrace

end Acting

/-- In every state that a race-free schedule reaches, at most one elector has
reported leadership and not given it up. -/
theorem run_single_leader {ι : Type} [DecidableEq ι] (electorate : Electorate ι)
    (hnonempty : ∀ i, electorate.holderIdentity i ≠ []) (clock : Int) (lease : Option Lease)
    (events : List (ElectionEvent ι))
    (hrace : StepRun.Meets (step electorate) (RaceFree electorate) (initial clock lease) events) :
    ∀ reached, reached <+: events → ∀ i j,
      ((run electorate (initial clock lease) reached).electors i).leader = true →
      ((run electorate (initial clock lease) reached).electors j).leader = true → i = j := by
  intro reached hreached i j hi hj
  have hinv : SafeInv electorate (run electorate (initial clock lease) reached) :=
    (hrace.of_isPrefix hreached).foldl_inv (safeInv_step hnonempty)
      (safeInv_initial electorate clock lease)
  exact hinv.exclusive i j (Or.inl hi) (Or.inl hj)

namespace ElectionWitness

/-- Two replicas with a lease duration of ten seconds. -/
def replicas : Electorate Bool where
  holderIdentity i := if i then "pod-a".toList else "pod-b".toList
  leaseDuration _ := 10
  distinct := by
    intro i j
    revert i j
    decide

/-- One replica creates the lease and leads, the other finds it held. -/
def orderly : List (ElectionEvent Bool) :=
  [.begin true, .request true .answered, .request true .answered, .report true,
    .tick 3000000, .begin false, .request false .answered, .report false]

theorem orderly_single_leader :
    ((run replicas (initial 0 none) orderly).electors true).leader = true ∧
      ((run replicas (initial 0 none) orderly).electors false).leader = false := by
  have htrue : ((run replicas (initial 0 none) orderly).electors true).leader = true := by
    decide
  refine ⟨htrue, ?_⟩
  rw [Bool.eq_false_iff]
  intro hfalse
  have hrace : StepRun.Meets (step replicas) (RaceFree replicas) (initial 0 none) orderly := by
    refine ⟨trivial, ?_, ?_, trivial, ?_, trivial, ?_, trivial, trivial⟩
    · change ∀ j, _ ≠ _
      decide
    · change (_ : Int) ≤ _
      decide
    · change ∀ i, _ → ∀ lease ∈ some _, _ → _ = false
      decide
    · change ∀ j, _ ≠ _
      decide
  exact absurd (run_single_leader replicas (by decide) 0 none orderly hrace orderly
    (List.prefix_refl _) true false htrue hfalse) (by decide)

/-- Both replicas read the unheld lease before either of them patches it. -/
def staleRead : List (ElectionEvent Bool) :=
  [.begin true, .begin false, .request true .answered, .request false .answered,
    .request true .answered, .report true, .request false .answered, .report false]

theorem staleRead_two_leaders :
    ((run replicas (initial 0 (some ⟨1, some .default⟩)) staleRead).electors true).leader =
        true ∧
      ((run replicas (initial 0 (some ⟨1, some .default⟩)) staleRead).electors false).leader =
        true := by
  decide

end ElectionWitness

end Election

end PiCluster
