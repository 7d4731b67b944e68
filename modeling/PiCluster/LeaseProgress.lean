/-
What the election achieves.  An elector that finds the lease free and is left alone
for one cycle leads; and a leader that renews before its lease runs out keeps it
against all the others, whatever they do and in whatever order.
-/
import PiCluster.ElectionSafety

namespace PiCluster

open Text

/-- Everything of a lease that a renewal leaves. -/
structure Tenure where
  holderIdentity : Option Str
  acquireTime : Option Int
  leaseTransitions : Option Int
deriving DecidableEq, Repr

def Lease.tenure (lease : Lease) : Tenure where
  holderIdentity := lease.specOrDefault.holderIdentity
  acquireTime := lease.specOrDefault.acquireTime
  leaseTransitions := lease.specOrDefault.leaseTransitions

/-- An elector that has to read the lease before it can write it. -/
structure Elector.Follower (elector : Elector) : Prop where
  follows : elector.leader = false
  waits : match elector.phase with
    | .patching _ _ _ | .releasing | .decided (.ok true) => False
    | _ => True

/-- The phases of a leader that has at most a renewal under way. -/
inductive Phase.Renews : Phase → Prop
  | idle : Renews .idle
  | reading (now : Int) : Renews (.reading now)
  | patching (now : Int) (version : Nat) (time duration : Int) :
      Renews (.patching now version (.renew time duration))
  | renewed : Renews (.decided (.ok true))

structure Elector.Renewing (elector : Elector) : Prop where
  leads : elector.leader = true
  renews : elector.phase.Renews

/-- The callback of the leader changes nothing of what it holds. -/
theorem Elector.Renewing.report {elector : Elector} (hown : elector.Renewing) :
    elector.report.Renewing := by
  obtain ⟨phase, leader⟩ := elector
  obtain ⟨hleads, hrenews⟩ := hown
  cases hrenews with
  | idle => exact ⟨hleads, .idle⟩
  | reading now => exact ⟨hleads, .reading now⟩
  | patching now version time duration => exact ⟨hleads, .patching now version time duration⟩
  | renewed => exact ⟨rfl, .idle⟩

theorem Elector.Follower.report {elector : Elector} (hfollower : elector.Follower) :
    elector.report.Follower := by
  obtain ⟨hleader, hphase⟩ := hfollower
  unfold Elector.report
  split
  · rename_i leader hdecided
    cases leader with
    | true =>
        rw [hdecided] at hphase
        exact hphase.elim
    | false => exact ⟨rfl, trivial⟩
  · exact ⟨rfl, trivial⟩
  · exact ⟨rfl, trivial⟩
  · exact ⟨hleader, hphase⟩

theorem Elector.cycleStart_report {elector : Elector} {now : Int}
    (hcycle : elector.report.phase.cycleStart = some now) :
    elector.phase.cycleStart = some now := by
  unfold Elector.report at hcycle
  split at hcycle
  · cases hcycle
  · cases hcycle
  · cases hcycle
  · exact hcycle

namespace Election

variable {ι : Type}

/-- The elector leads with a lease that runs, and nobody else has a write to make. -/
structure Led (electorate : Electorate ι) (i : ι) (tenure : Tenure) (state : Election ι) :
    Prop where
  held : ∃ lease, state.lease = some lease ∧ lease.tenure = tenure ∧
    lease.isExpired state.clock = false
  holder_eq : tenure.holderIdentity = some (electorate.holderIdentity i)
  own : (state.electors i).Renewing
  others : ∀ j, j ≠ i → (state.electors j).Follower
  started : ∀ j now, (state.electors j).phase.cycleStart = some now → now ≤ state.clock

/-- The leader is not cancelled, its requests are answered, and the lease has not run
out after the event. -/
structure Undisturbed [DecidableEq ι] (electorate : Electorate ι) (i : ι) (state : Election ι)
    (event : ElectionEvent ι) : Prop where
  running : event ≠ .cancel i
  answered : ∀ delivery, event = .request i delivery → delivery = .answered
  inTime : ∀ lease ∈ (state.step electorate event).lease,
    lease.isExpired (state.step electorate event).clock = false

section Keeping

variable {electorate : Electorate ι} {i : ι} {tenure : Tenure} {state : Election ι}

theorem holder_of_tenure {lease : Lease} (htenure : lease.tenure = tenure)
    (hholder : tenure.holderIdentity = some (electorate.holderIdentity i)) :
    lease.holder = electorate.holderIdentity i := by
  have hidentity : lease.specOrDefault.holderIdentity =
      some (electorate.holderIdentity i) := by
    rw [← hholder, ← htenure]
    rfl
  rw [Lease.holder, hidentity]
  rfl

/-- The holder's own decision is to renew. -/
theorem decideOn_holder (now : Int) {lease : Lease}
    (hholder : lease.holder = electorate.holderIdentity i) :
    electorate.decideOn i now lease =
      .patching now lease.resourceVersion (.renew now (electorate.seconds i)) :=
  if_pos hholder

/-- Whoever else reads a lease that runs leaves it. -/
theorem decideOn_other (hnonempty : electorate.holderIdentity i ≠ []) {j : ι} (hji : j ≠ i)
    {lease : Lease} (hholder : lease.holder = electorate.holderIdentity i) {now : Int}
    (hvalid : lease.isExpired now = false) :
    electorate.decideOn j now lease = .decided (.ok false) := by
  have hnot : lease.holder ≠ electorate.holderIdentity j := by
    intro hsame
    exact hji (electorate.distinct (hsame.symm.trans hholder))
  have hempty : lease.holder.isEmpty = false := by
    rw [hholder, List.isEmpty_eq_false_iff]
    exact hnonempty
  unfold Electorate.decideOn
  rw [if_neg hnot, hvalid, hempty]
  rfl

theorem Led.holder_lease (hled : Led electorate i tenure state) {lease : Lease}
    (hlease : state.lease = some lease) :
    lease.tenure = tenure ∧ lease.holder = electorate.holderIdentity i ∧
      lease.isExpired state.clock = false := by
  obtain ⟨stored, hstored, htenure, hvalid⟩ := hled.held
  obtain rfl : stored = lease := Option.some.inj (hstored.symm.trans hlease)
  exact ⟨htenure, holder_of_tenure htenure hled.holder_eq, hvalid⟩

variable [DecidableEq ι]

theorem Led.moveOther (hled : Led electorate i tenure state) {j : ι} (hji : j ≠ i)
    {elector : Elector} (hfollower : elector.Follower)
    (hstarted : ∀ now, elector.phase.cycleStart = some now → now ≤ state.clock) :
    Led electorate i tenure (state.setElector j elector) where
  held := hled.held
  holder_eq := hled.holder_eq
  own := by
    rw [setElector_electors_of_ne hji.symm]
    exact hled.own
  others := forall_setElector (P := fun k current => k ≠ i → current.Follower)
    (fun _ => hfollower) hled.others
  started := started_setElector hstarted hled.started

theorem Led.moveOwn (hled : Led electorate i tenure state) {elector : Elector}
    (hrenewing : elector.Renewing)
    (hstarted : ∀ now, elector.phase.cycleStart = some now → now ≤ state.clock) :
    Led electorate i tenure (state.setElector i elector) where
  held := hled.held
  holder_eq := hled.holder_eq
  own := by
    rw [setElector_electors_self]
    exact hrenewing
  others := forall_setElector (P := fun k current => k ≠ i → current.Follower)
    (fun hne => absurd rfl hne) hled.others
  started := started_setElector hstarted hled.started

/-- A request of somebody else. -/
theorem Led.requestOther (hled : Led electorate i tenure state)
    (hnonempty : electorate.holderIdentity i ≠ []) {j : ι} (hji : j ≠ i)
    (delivery : Delivery) :
    Led electorate i tenure (state.step electorate (.request j delivery)) := by
  obtain ⟨hleader, hphase⟩ := hled.others j hji
  have heffect := request_effect electorate j (state.electors j).phase state.lease delivery
  have hcycle := hled.started j
  simp only [step, stepWith]
  generalize electorate.request j (state.electors j).phase state.lease delivery = result
    at heffect
  generalize hcurrent : (state.electors j).phase = current at heffect hphase hcycle
  cases heffect with
  | gaveUp => exact hled.moveOther hji ⟨hleader, trivial⟩ (by simp [Phase.cycleStart])
  | read now existing hreading hlease =>
      obtain ⟨-, hholder, hvalid⟩ := hled.holder_lease hlease
      have hnow : now ≤ state.clock := by
        rcases hreading with rfl | rfl <;> exact hcycle now rfl
      rw [decideOn_other hnonempty hji hholder (Lease.isExpired_mono hnow hvalid)]
      exact hled.moveOther hji ⟨hleader, trivial⟩ (by simp [Phase.cycleStart])
  | absent now hreading | conflict now hreading =>
      subst hreading
      exact hled.moveOther hji ⟨hleader, trivial⟩ fun time htime => hcycle time htime
  | created now reply hcreating hlease =>
      obtain ⟨stored, hstored, -⟩ := hled.held
      rw [hlease] at hstored
      cases hstored
  | patched now version patch existing reply hpatching =>
      subst hpatching
      exact hphase.elim
  | released existing hreleasing | unreleased hreleasing =>
      subst hreleasing
      exact hphase.elim
  | nothing =>
      rw [← hcurrent, setElector_self]
      exact hled

/-- An answered request of the leader. -/
theorem Led.requestOwn (hled : Led electorate i tenure state)
    (hinTime : ∀ lease ∈ (state.step electorate (.request i .answered)).lease,
      lease.isExpired state.clock = false) :
    Led electorate i tenure (state.step electorate (.request i .answered)) := by
  obtain ⟨hleads, hrenews⟩ := hled.own
  obtain ⟨lease, hlease, htenure, hvalid⟩ := hled.held
  have hholder := (hled.holder_lease hlease).2.1
  have hcycle := hled.started i
  simp only [step, stepWith] at hinTime ⊢
  generalize (state.electors i).phase = current at hrenews hcycle hinTime ⊢
  cases hrenews with
  | idle => exact hled.moveOwn ⟨hleads, .idle⟩ hcycle
  | renewed => exact hled.moveOwn ⟨hleads, .renewed⟩ hcycle
  | reading now =>
      have hrequest : electorate.request i (.reading now) state.lease .answered =
          (.patching now lease.resourceVersion (.renew now (electorate.seconds i)),
            state.lease) := by
        rw [hlease, ← decideOn_holder now hholder]
        rfl
      rw [hrequest]
      exact hled.moveOwn ⟨hleads, .patching now _ _ _⟩ fun time htime => hcycle time htime
  | patching now version time duration =>
      have hrequest : electorate.request i (.patching now version (.renew time duration))
          state.lease .answered =
          (.decided (.ok true), some (lease.applyPatch (.renew time duration))) := by
        rw [hlease]
        rfl
      rw [hrequest] at hinTime ⊢
      have hmoved : Led electorate i tenure
          (state.setElector i { state.electors i with phase := .decided (.ok true) }) :=
        hled.moveOwn ⟨hleads, .renewed⟩ (by simp [Phase.cycleStart])
      exact ⟨⟨_, rfl, htenure, hinTime _ rfl⟩, hled.holder_eq, hmoved.own, hmoved.others,
        hmoved.started⟩

/-- One event leaves the leader in its place. -/
theorem led_step (hnonempty : electorate.holderIdentity i ≠ []) (state : Election ι)
    (event : ElectionEvent ι) (hled : Led electorate i tenure state)
    (hundisturbed : Undisturbed electorate i state event) :
    Led electorate i tenure (state.step electorate event) := by
  have hinTime := hundisturbed.inTime
  cases event with
  | tick elapsed =>
      obtain ⟨lease, hlease, htenure, -⟩ := hled.held
      refine ⟨⟨lease, hlease, htenure, hinTime lease hlease⟩, hled.holder_eq, hled.own,
        hled.others, ?_⟩
      intro j now hnow
      have hle := hled.started j now hnow
      simp only [step, stepWith]
      omega
  | begin j =>
      simp only [step, stepWith]
      split
      · have hstarted : ∀ now, (Phase.reading state.clock).cycleStart = some now →
            now ≤ state.clock := by
          simp [Phase.cycleStart]
        by_cases hji : j = i
        · subst hji
          exact hled.moveOwn ⟨hled.own.leads, .reading _⟩ hstarted
        · exact hled.moveOther hji ⟨(hled.others j hji).follows, trivial⟩ hstarted
      · exact hled
  | report j =>
      have hstarted := fun now hnow => hled.started j now (Elector.cycleStart_report hnow)
      by_cases hji : j = i
      · subst hji
        exact hled.moveOwn hled.own.report hstarted
      · exact hled.moveOther hji (hled.others j hji).report hstarted
  | cancel j =>
      have hji : j ≠ i := fun heq => hundisturbed.running (congrArg _ heq)
      have hleader := (hled.others j hji).follows
      simp only [step, stepWith, hleader]
      split
      · exact hled.moveOther hji ⟨rfl, trivial⟩ (by simp [Phase.cycleStart])
      · exact hled
  | request j delivery =>
      by_cases hji : j = i
      · subst hji
        obtain rfl := hundisturbed.answered delivery rfl
        exact hled.requestOwn hinTime
      · exact hled.requestOther hnonempty hji delivery

end Keeping

/-- A leader whose lease never runs out keeps it.  Whatever the others do, and in
whatever order, it stays the only leader and the lease stays the one it acquired. -/
theorem run_keeps_leader [DecidableEq ι] {electorate : Electorate ι} {i : ι} {tenure : Tenure}
    (hnonempty : electorate.holderIdentity i ≠ []) {start : Election ι}
    (hled : Led electorate i tenure start) {events : List (ElectionEvent ι)}
    (hundisturbed : StepRun.Meets (step electorate) (Undisturbed electorate i) start events) :
    ∀ reached, reached <+: events →
      (∀ j, ((run electorate start reached).electors j).leader = true ↔ j = i) ∧
      ∃ lease, (run electorate start reached).lease = some lease ∧ lease.tenure = tenure := by
  intro reached hreached
  have hnow : Led electorate i tenure (run electorate start reached) :=
    (hundisturbed.of_isPrefix hreached).foldl_inv (led_step hnonempty) hled
  constructor
  · intro j
    constructor
    · intro hleader
      by_contra hji
      rw [(hnow.others j hji).follows] at hleader
      cases hleader
    · rintro rfl
      exact hnow.own.leads
  · obtain ⟨lease, hlease, htenure, -⟩ := hnow.held
    exact ⟨lease, hlease, htenure⟩

end Election

/-- The elector an event belongs to. -/
def ElectionEvent.elector {ι : Type} : ElectionEvent ι → Option ι
  | .tick _ => none
  | .begin i | .request i _ | .report i | .cancel i => some i

namespace Election

/-- A lease the elector may take: none, its own, an expired one or one without a holder. -/
def Takes {ι : Type} (electorate : Electorate ι) (i : ι) (clock : Int) : Option Lease → Prop
  | none => True
  | some lease => lease.holder = electorate.holderIdentity i ∨ lease.isExpired clock = true ∨
      lease.holder = []

/-- The others do not write the lease. -/
def Unwritten {ι : Type} [DecidableEq ι] (electorate : Electorate ι) (i : ι)
    (state : Election ι) (event : ElectionEvent ι) : Prop :=
  event.elector ≠ some i → (state.step electorate event).lease = state.lease

/-- One cycle of an elector, with events of the others between its own. -/
def cycle {ι : Type} (i : ι) (first second third : List (ElectionEvent ι)) :
    List (ElectionEvent ι) :=
  .begin i :: (first ++ .request i .answered :: (second ++ .request i .answered ::
    (third ++ [.report i])))

/-- How an elector and the lease stand. -/
structure Stands {ι : Type} (i : ι) (elector : Elector) (lease : Option Lease)
    (state : Election ι) : Prop where
  elector_eq : state.electors i = elector
  lease_eq : state.lease = lease

section Cycle

variable {ι : Type} {electorate : Electorate ι} {i : ι}

/-- The two requests of a cycle on a lease the elector may take. -/
theorem requests_take {clock : Int} {lease : Option Lease}
    (htakes : Takes electorate i clock lease) :
    ∃ phase taken, electorate.request i (.reading clock) lease .answered = (phase, lease) ∧
      electorate.request i phase lease .answered = (.decided (.ok true), some taken) ∧
      taken.holder = electorate.holderIdentity i ∧
      taken.specOrDefault.renewTime = some clock := by
  cases lease with
  | none => exact ⟨.creating clock, electorate.newLease i clock, rfl, rfl, rfl, rfl⟩
  | some existing =>
      by_cases hholder : existing.holder = electorate.holderIdentity i
      · exact ⟨_, existing.applyPatch _,
          congrArg (·, some existing) (decideOn_holder clock hholder), rfl, hholder, rfl⟩
      · have hfree : (existing.isExpired clock || existing.holder.isEmpty) = true := by
          rcases htakes.resolve_left hholder with hexpired | hempty
          · rw [hexpired, Bool.true_or]
          · rw [hempty, List.isEmpty_nil, Bool.or_true]
        have hdecision : electorate.decideOn i clock existing =
            .patching clock existing.resourceVersion
              (.acquire (electorate.holderIdentity i) clock (electorate.seconds i)
                (asI32 (existing.specOrDefault.leaseTransitions.getD 0 + 1))) := by
          unfold Electorate.decideOn
          rw [if_neg hholder, if_pos hfree]
        exact ⟨_, existing.applyPatch _, congrArg (·, some existing) hdecision, rfl, rfl, rfl⟩

variable [DecidableEq ι]

theorem electors_step_of_other {event : ElectionEvent ι} (hother : event.elector ≠ some i)
    (state : Election ι) : (state.step electorate event).electors i = state.electors i := by
  cases event with
  | tick elapsed => rfl
  | request j delivery | report j =>
      exact setElector_electors_of_ne (fun hij => hother (congrArg some hij.symm)) _
  | begin j | cancel j =>
      simp only [step, stepWith]
      split
      · exact setElector_electors_of_ne (fun hij => hother (congrArg some hij.symm)) _
      · rfl

/-- The others' events leave both. -/
theorem Stands.run_others {elector : Elector} {lease : Option Lease} {state : Election ι}
    (hstands : Stands i elector lease state) {events : List (ElectionEvent ι)}
    (hothers : ∀ event ∈ events, event.elector ≠ some i)
    (hunwritten : StepRun.Meets (step electorate) (Unwritten electorate i) state events) :
    Stands i elector lease (run electorate state events) := by
  induction events generalizing state with
  | nil => exact hstands
  | cons event rest ih =>
      obtain ⟨hevent, hrest⟩ := List.forall_mem_cons.mp hothers
      apply ih _ hrest hunwritten.2
      exact ⟨(electors_step_of_other hevent state).trans hstands.elector_eq,
        (hunwritten.1 hevent).trans hstands.lease_eq⟩

theorem Stands.request (electorate : Electorate ι) {phase : Phase} {leader : Bool}
    {lease : Option Lease} {state : Election ι} (hstands : Stands i ⟨phase, leader⟩ lease state)
    (delivery : Delivery) :
    Stands i ⟨(electorate.request i phase lease delivery).1, leader⟩
      (electorate.request i phase lease delivery).2
      (state.step electorate (.request i delivery)) := by
  obtain ⟨helector, hlease⟩ := hstands
  simp only [step, stepWith, helector, hlease]
  exact ⟨setElector_electors_self i _, rfl⟩

theorem Stands.report (electorate : Electorate ι) {leader : Bool} {lease : Option Lease}
    {state : Election ι} (hstands : Stands i ⟨.decided (.ok true), leader⟩ lease state) :
    Stands i ⟨.idle, true⟩ lease (state.step electorate (.report i)) := by
  simp only [step, stepWith, hstands.elector_eq]
  exact ⟨setElector_electors_self i _, hstands.lease_eq⟩

/-- An elector that may take the lease leads after one cycle in which its requests are
answered and nobody else writes, whatever else the others do meanwhile. -/
theorem run_cycle_leads {start : Election ι} (hidle : (start.electors i).phase = .idle)
    (htakes : Takes electorate i start.clock start.lease)
    {first second third : List (ElectionEvent ι)}
    (hothers : ∀ event ∈ first ++ second ++ third, event.elector ≠ some i)
    (hunwritten : StepRun.Meets (step electorate) (Unwritten electorate i) start
      (cycle i first second third)) :
    ∃ lease, Stands i ⟨.idle, true⟩ (some lease)
        (run electorate start (cycle i first second third)) ∧
      lease.holder = electorate.holderIdentity i ∧
      lease.specOrDefault.renewTime = some start.clock := by
  obtain ⟨phase, taken, hread, hwrite, hholder, hrenewed⟩ := requests_take htakes
  simp only [List.forall_mem_append] at hothers
  obtain ⟨⟨hfirst, hsecond⟩, hthird⟩ := hothers
  obtain ⟨hquiet1, -, hafter1⟩ := StepRun.meets_append.mp hunwritten.2
  obtain ⟨hquiet2, -, hafter2⟩ := StepRun.meets_append.mp hafter1
  obtain ⟨hquiet3, -⟩ := StepRun.meets_append.mp hafter2
  have hbegun : Stands i ⟨.reading start.clock, (start.electors i).leader⟩ start.lease
      (start.step electorate (.begin i)) := by
    simp only [step, stepWith, hidle, if_true]
    exact ⟨setElector_electors_self i _, rfl⟩
  have hreading := (hbegun.run_others hfirst hquiet1).request electorate .answered
  rw [hread] at hreading
  have hwriting := (hreading.run_others hsecond hquiet2).request electorate .answered
  rw [hwrite] at hwriting
  have hdone := (hwriting.run_others hthird hquiet3).report electorate
  refine ⟨taken, ?_, hholder, hrenewed⟩
  simpa only [run, cycle, List.foldl_cons, List.foldl_append, List.foldl_nil] using hdone

end Cycle

namespace ProgressWitness

open ElectionWitness

/-- The lease of a replica that stopped twenty seconds ago. -/
def abandoned : Election Bool :=
  initial 20000000 (some ⟨3, some ⟨some "pod-b".toList, some 10, some 0, some 0, some 1⟩⟩)

/-- The other replica comes back between the two requests and reads the lease. -/
theorem abandoned_taken : ∃ lease, Stands true ⟨.idle, true⟩ (some lease)
      (run replicas abandoned (cycle true [.tick 5] [.begin false, .request false .answered] []))
    ∧ lease.holder = "pod-a".toList ∧ lease.specOrDefault.renewTime = some 20000000 := by
  have hunwritten : StepRun.Meets (step replicas) (Unwritten replicas true) abandoned
      (cycle true [.tick 5] [.begin false, .request false .answered] []) := by
    refine ⟨?_, ?_, ?_, ?_, ?_, ?_, ?_, trivial⟩ <;> unfold Unwritten <;> decide
  have hexpired : Takes replicas true abandoned.clock abandoned.lease :=
    Or.inr (Or.inl (by decide))
  exact run_cycle_leads rfl hexpired (by decide) hunwritten

/-- A replica right after it created the lease. -/
def leading : Election Bool where
  clock := 0
  lease := some (replicas.newLease true 0)
  electors i := ⟨.idle, i⟩

/-- It renews after three seconds, while the other one tries in vain. -/
def renewal : List (ElectionEvent Bool) :=
  [.tick 3000000, .begin false, .begin true, .request true .answered, .request false .answered,
    .request true .answered, .report true, .report false, .tick 9000000, .cancel false]

theorem led_leading : Led replicas true (replicas.newLease true 0).tenure leading where
  held := ⟨_, rfl, rfl, by decide⟩
  holder_eq := rfl
  own := ⟨rfl, .idle⟩
  others := by
    intro j hj
    obtain rfl : j = false := by simpa using hj
    exact ⟨rfl, trivial⟩
  started := by
    intro j now hnow
    cases hnow

theorem renewal_keeps_leader :
    ((run replicas leading renewal).electors true).leader = true ∧
      ((run replicas leading renewal).electors false).leader ≠ true := by
  have hundisturbed : StepRun.Meets (step replicas) (Undisturbed replicas true) leading
      renewal := by
    refine ⟨?_, ?_, ?_, ?_, ?_, ?_, ?_, ?_, ?_, ?_, trivial⟩ <;>
    · constructor
      · decide
      · simp
      · change ∀ lease ∈ some _, _ = false
        decide
  have hleaders := (run_keeps_leader (by decide) led_leading hundisturbed renewal
    (List.prefix_refl _)).1
  exact ⟨(hleaders true).mpr rfl, fun hfalse => absurd ((hleaders false).mp hfalse) (by simp)⟩

end ProgressWitness

end Election

end PiCluster
