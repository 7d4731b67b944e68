/-
Concurrent `AssignRole` requests on one service.  A request decides on the scan
it took and acts on it several effects later, with nothing held in between, so
another request can format and mount the same disk after the scan and before the
`mkfs.ext4` that the scan allowed.
-/
import Mathlib.Logic.Function.Basic
import PiCluster.AssignRole
import PiCluster.Lib.StepRun
import PiCluster.ProvisionLifetime

namespace PiCluster

open Text Effects

/-- Where a request stands: a working one has taken its scan, and holds the plan
and what is left of the program. -/
inductive RequestPhase where
  | waiting
  | working (plan : ProvisionPlan) (prog : LdmIpcService.ServiceProg ProvisionResult)
  | answered (result : Except Status ProvisionResult)

/-- The path of the disk a working request is going to format. -/
def RequestPhase.victim (dryRun : Bool) : RequestPhase → Option Str
  | .working plan _ => plan.victim dryRun
  | _ => none

/-- What the host sees of the requests, in order. -/
inductive ServedItem (ι : Type) where
  | scanned (i : ι)
  | did (i : ι) (event : StorageEvent)

structure ServerState (ι : Type) where
  phase : ι → RequestPhase
  log : List (ServedItem ι)

/-- A request takes its scan, or goes on to its next effect, which the world
answers. -/
inductive ServerEvent (ι : Type) where
  | scan (i : ι) (view : HostView)
  | act (i : ι) (world : (effect : StorageEffect) → StorageAnswer effect)

/-- `mkfs.ext4` was executed on the path. -/
def Formatting (path : Str) (event : StorageEvent) : Prop :=
  ∃ run, runOf .mkfsExt4 event = some run ∧ run.1.args.getLast? = some path

/-- `mkfs.ext4` on the path succeeded. -/
def Formatted (path : Str) (event : StorageEvent) : Prop :=
  ∃ run, runOf .mkfsExt4 event = some run ∧ run.1.args.getLast? = some path ∧ run.2.success = true

/-- A `mount` succeeded. -/
def Mounted (event : StorageEvent) : Prop :=
  ∃ args outcome, event = ran ⟨.mount, args⟩ outcome ∧ outcome.success = true

/-- Request `j` formatted the disk at the path and then mounted it. -/
def SetUp {ι : Type} (j : ι) (path : Str) (log : List (ServedItem ι)) : Prop :=
  ∃ first second third format mount,
    log = first ++ .did j format :: (second ++ .did j mount :: third) ∧
      Formatted path format ∧ Mounted mount

/-- Request `i` runs `mkfs.ext4` on a disk that another request has set up since
`i` took its scan. -/
def Overwrites {ι : Type} (i : ι) (log : List (ServedItem ι)) : Prop :=
  ∃ before since later path event j,
    log = before ++ .scanned i :: (since ++ .did i event :: later) ∧
      Formatting path event ∧ j ≠ i ∧ SetUp j path since

/-- The effects of one request. -/
def eventsOf {ι : Type} [DecidableEq ι] (i : ι) (log : List (ServedItem ι)) :
    List StorageEvent :=
  log.filterMap fun
    | .scanned _ => none
    | .did j event => if j = i then some event else none

section EventsOf

variable {ι : Type} [DecidableEq ι] {i j : ι} {log : List (ServedItem ι)}

theorem eventsOf_scanned : eventsOf i (log ++ [.scanned j]) = eventsOf i log := by
  simp [eventsOf]

theorem eventsOf_did {event : StorageEvent} :
    eventsOf i (log ++ [.did i event]) = eventsOf i log ++ [event] := by
  simp [eventsOf]

theorem eventsOf_did_of_ne (hne : i ≠ j) {event : StorageEvent} :
    eventsOf i (log ++ [.did j event]) = eventsOf i log := by
  simp [eventsOf, Ne.symm hne]

end EventsOf

namespace ServerState

variable {ι : Type}

def initial : ServerState ι := ⟨fun _ => .waiting, []⟩

variable (service : LdmIpcService) (requests : ι → AssignRoleRequest)

/-- A request is dry by its own flag or by the service's. -/
def isDry (i : ι) : Bool := (service.storage (requests i)).dryRun

def victim (state : ServerState ι) (i : ι) : Option Str :=
  (state.phase i).victim (isDry service requests i)

variable [DecidableEq ι]

def setPhase (state : ServerState ι) (i : ι) (phase : RequestPhase) : ServerState ι :=
  { state with phase := Function.update state.phase i phase }

/-- The phase after the scan: a failed check answers the request at once. -/
def planned (i : ι) (view : HostView) : RequestPhase :=
  match service.assignPlan (requests i) view with
  | .ok plan => .working plan (service.carryOut (requests i) plan)
  | .error status => .answered (.error status)

def step (state : ServerState ι) : ServerEvent ι → ServerState ι
  | .scan i view =>
      match state.phase i with
      | .waiting =>
          { state.setPhase i (planned service requests i view) with
            log := state.log ++ [.scanned i] }
      | _ => state
  | .act i world =>
      match state.phase i with
      | .working plan (.perform effect next) =>
          { state.setPhase i (.working plan (next (world effect))) with
            log := state.log ++ [.did i ⟨effect, world effect⟩] }
      | .working _ (.done result) => state.setPhase i (.answered result)
      | _ => state

/-- No request takes a scan that leads it to format a disk which another request is
still working to format; dry runs do neither. -/
def ScansAlone (state : ServerState ι) : ServerEvent ι → Prop
  | .scan i view => ∀ plan path, service.assignPlan (requests i) view = .ok plan →
      plan.victim (isDry service requests i) = some path →
      ∀ j, state.victim service requests j ≠ some path
  | .act _ _ => True

structure RaceInv (state : ServerState ι) : Prop where
  programs : ∀ i plan prog, state.phase i = .working plan prog →
    prog.Always (FormatsOnly (plan.victim (isDry service requests i)))
  exclusive : ∀ i j path, state.victim service requests i = some path →
    state.victim service requests j = some path → i = j
  fresh : ∀ i, state.phase i = .waiting → .scanned i ∉ state.log
  untouched : ∀ i path, state.victim service requests i = some path → ∀ before since,
    state.log = before ++ .scanned i :: since → ∀ j event, .did j event ∈ since →
    Formatting path event → j = i
  safe : ∀ i, ¬ Overwrites i state.log

omit [DecidableEq ι] in
theorem raceInv_initial : RaceInv service requests (initial : ServerState ι) where
  programs := by simp [initial]
  exclusive := by simp [initial, victim, RequestPhase.victim]
  fresh := by simp [initial]
  untouched := by simp [initial, victim, RequestPhase.victim]
  safe := by simp [initial, Overwrites]

/-- Where the last item of a log falls when the log is cut at an item. -/
theorem concat_eq_append_cons {α : Type} {log before since : List α} {last item : α}
    (hlog : log ++ [last] = before ++ item :: since) :
    since = [] ∧ last = item ∧ log = before ∨
      ∃ earlier, since = earlier ++ [last] ∧ log = before ++ item :: earlier := by
  rcases List.eq_nil_or_concat since with rfl | ⟨earlier, other, rfl⟩
  · obtain ⟨hbefore, hlast⟩ := List.append_inj' hlog rfl
    exact Or.inl ⟨rfl, List.singleton_inj.mp hlast, hbefore⟩
  · rw [List.concat_eq_append, ← List.cons_append, ← List.append_assoc] at hlog
    obtain ⟨hbefore, hlast⟩ := List.append_inj' hlog rfl
    obtain rfl := List.singleton_inj.mp hlast
    exact Or.inr ⟨earlier, List.concat_eq_append, hbefore⟩

omit [DecidableEq ι] in
/-- Only the request that runs `mkfs.ext4` last can make a log unsafe. -/
theorem not_overwrites_snoc {log : List (ServedItem ι)} {item : ServedItem ι}
    (hsafe : ∀ i, ¬ Overwrites i log)
    (hlast : ∀ i event path before since, item = .did i event → Formatting path event →
      log = before ++ .scanned i :: since → ∀ j event', .did j event' ∈ since →
      Formatting path event' → j = i) :
    ∀ i, ¬ Overwrites i (log ++ [item]) := by
  rintro i ⟨before, since, later, path, event, j, hlog, hformatting, hne, hsetUp⟩
  rw [← List.cons_append, ← List.append_assoc] at hlog
  rcases concat_eq_append_cons hlog with ⟨rfl, hitem, hbefore⟩ | ⟨earlier, rfl, hbefore⟩
  · obtain ⟨first, second, third, format, mount, rfl, ⟨run, hrun, hpath, _⟩, _⟩ := hsetUp
    exact hne (hlast i event path before _ hitem hformatting hbefore j format (by simp)
      ⟨run, hrun, hpath⟩)
  · refine hsafe i ⟨before, since, earlier, path, event, j, ?_, hformatting, hne, hsetUp⟩
    rw [hbefore]
    simp

section Steps

variable {service requests} {state : ServerState ι}

theorem phase_setPhase (i j : ι) (phase : RequestPhase) :
    (state.setPhase i phase).phase j = if j = i then phase else state.phase j :=
  Function.update_apply ..

theorem victim_setPhase (i j : ι) (phase : RequestPhase) :
    (state.setPhase i phase).victim service requests j =
      if j = i then phase.victim (isDry service requests j)
      else state.victim service requests j := by
  simp only [victim, phase_setPhase]
  split <;> rfl

omit [DecidableEq ι] in
theorem planned_ne_waiting (i : ι) (view : HostView) :
    planned service requests i view ≠ .waiting := by
  unfold planned
  split <;> simp

omit [DecidableEq ι] in
/-- A scan that lets a request go on starts its program. -/
theorem planned_eq_working {i : ι} {view : HostView} {plan : ProvisionPlan}
    {prog : LdmIpcService.ServiceProg ProvisionResult}
    (hplanned : planned service requests i view = .working plan prog) :
    service.assignPlan (requests i) view = .ok plan ∧
      prog = service.carryOut (requests i) plan := by
  unfold planned at hplanned
  split at hplanned
  · rename_i hplan
    cases hplanned
    exact ⟨hplan, rfl⟩
  · cases hplanned

omit [DecidableEq ι] in
theorem victim_planned {i : ι} {view : HostView} {path : Str}
    (hpath : (planned service requests i view).victim (isDry service requests i) =
      some path) :
    ∃ plan, service.assignPlan (requests i) view = .ok plan ∧
      plan.victim (isDry service requests i) = some path := by
  cases hplanned : planned service requests i view with
  | waiting => exact absurd hplanned (planned_ne_waiting i view)
  | working plan prog =>
      rw [hplanned] at hpath
      exact ⟨plan, (planned_eq_working hplanned).1, hpath⟩
  | answered result =>
      rw [hplanned] at hpath
      cases hpath

/-- What a request has done so far is a run of `assign_role`, or leaves the rest
of its program to be run. -/
def Serves (service : LdmIpcService) (req : AssignRoleRequest) (events : List StorageEvent) :
    RequestPhase → Prop
  | .waiting => events = []
  | .working _ prog => ∃ view, (service.assignRole req view).Leaves prog events
  | .answered result => ∃ view, (service.assignRole req view).Runs events result

omit [DecidableEq ι] in
theorem serves_planned (service : LdmIpcService) (requests : ι → AssignRoleRequest) (i : ι)
    (view : HostView) : Serves service (requests i) [] (planned service requests i view) := by
  have hassign : service.assignRole (requests i) view =
      Prog.lift (service.assignPlan (requests i) view) >>= service.carryOut (requests i) := rfl
  unfold planned
  cases hplan : service.assignPlan (requests i) view with
  | ok plan =>
      refine ⟨view, ?_⟩
      rw [hassign, hplan]
      exact Prog.Leaves.refl _
  | error status =>
      refine ⟨view, ?_⟩
      rw [hassign, hplan]
      exact .done (.error status)

/-- A request at work has part of its program left. -/
theorem Serves.leaves {req : AssignRoleRequest} {events : List StorageEvent}
    {plan : ProvisionPlan} {prog : LdmIpcService.ServiceProg ProvisionResult}
    {phase : RequestPhase} (hserves : Serves service req events phase)
    (hphase : phase = .working plan prog) :
    ∃ view, (service.assignRole req view).Leaves prog events := by
  rw [hphase] at hserves
  exact hserves

/-- One step of the server is a step of `assign_role` for the request it is
about, and none for the others. -/
theorem serves_step (state : ServerState ι) (event : ServerEvent ι)
    (hserves : ∀ i, Serves service (requests i) (eventsOf i state.log) (state.phase i)) :
    ∀ i, Serves service (requests i) (eventsOf i (state.step service requests event).log)
      ((state.step service requests event).phase i) := by
  intro j
  cases event with
  | scan i view =>
      simp only [step]
      split
      · rename_i hwaiting
        simp only [eventsOf_scanned, phase_setPhase]
        split
        · rename_i hji
          subst hji
          have hnone : eventsOf j state.log = [] := by simpa [hwaiting, Serves] using hserves j
          rw [hnone]
          exact serves_planned service requests j view
        · exact hserves j
      · exact hserves j
  | act i world =>
      simp only [step]
      split
      · rename_i plan effect next hphase
        simp only [phase_setPhase]
        split
        · rename_i hji
          subst hji
          obtain ⟨view, hleaves⟩ := (hserves j).leaves hphase
          rw [eventsOf_did]
          exact ⟨view, hleaves.perform (world effect)⟩
        · rename_i hji
          rw [eventsOf_did_of_ne hji]
          exact hserves j
      · rename_i plan result hphase
        rw [phase_setPhase]
        split
        · rename_i hji
          subst hji
          obtain ⟨view, hleaves⟩ := (hserves j).leaves hphase
          exact ⟨view, hleaves.runs⟩
        · exact hserves j
      · exact hserves j

/-- Whatever the interleaving, the effects of an answered request are a run of
`assign_role` on the readings it took. -/
theorem run_serves_assignRole (service : LdmIpcService) (requests : ι → AssignRoleRequest)
    (events : List (ServerEvent ι)) {i : ι} {result : Except Status ProvisionResult}
    (hanswered : (events.foldl (step service requests) initial).phase i = .answered result) :
    ∃ view, (service.assignRole (requests i) view).Runs
      (eventsOf i (events.foldl (step service requests) initial).log) result := by
  have hserves : ∀ j, Serves service (requests j)
      (eventsOf j (events.foldl (step service requests) initial).log)
      ((events.foldl (step service requests) initial).phase j) :=
    List.foldlRecOn events (step service requests) (fun _ => rfl)
      fun state hstate event _ => serves_step state event hstate
  have hserved := hserves i
  rwa [hanswered] at hserved

/-- After a scan a disk is claimed by the scanning request alone, or by one that
claimed it before. -/
theorem victim_scan {i j : ι} {view : HostView} {path : Str}
    (halone : state.ScansAlone service requests (.scan i view))
    (hpath : (state.setPhase i (planned service requests i view)).victim service requests j =
      some path) :
    j = i ∧ (∀ k, state.victim service requests k ≠ some path) ∨
      j ≠ i ∧ state.victim service requests j = some path := by
  rw [victim_setPhase] at hpath
  split at hpath
  · rename_i hji
    subst hji
    obtain ⟨plan, hplan, hvictim⟩ := victim_planned hpath
    exact Or.inl ⟨rfl, halone plan path hplan hvictim⟩
  · rename_i hji
    exact Or.inr ⟨hji, hpath⟩

/-- A request takes its scan. -/
theorem RaceInv.scan (hinv : RaceInv service requests state) {i : ι} {view : HostView}
    (hwaiting : state.phase i = .waiting)
    (halone : state.ScansAlone service requests (.scan i view)) :
    RaceInv service requests { state.setPhase i (planned service requests i view) with
      log := state.log ++ [.scanned i] } := by
  refine ⟨?_, ?_, ?_, ?_, ?_⟩
  · intro j plan prog hphase
    simp only [phase_setPhase] at hphase
    split at hphase
    · rename_i hji
      subst hji
      rw [(planned_eq_working hphase).2]
      exact carryOut_always service (requests j) plan
    · exact hinv.programs j plan prog hphase
  · intro j k path hj hk
    rcases victim_scan halone hj with ⟨rfl, hnone⟩ | ⟨_, hold⟩
    · rcases victim_scan halone hk with ⟨rfl, _⟩ | ⟨_, hold⟩
      · rfl
      · exact absurd hold (hnone k)
    · rcases victim_scan halone hk with ⟨rfl, hnone⟩ | ⟨_, hold'⟩
      · exact absurd hold (hnone j)
      · exact hinv.exclusive j k path hold hold'
  · intro j hphase hmem
    simp only [phase_setPhase] at hphase
    split at hphase
    · exact planned_ne_waiting i view hphase
    · rename_i hji
      rcases List.mem_append.mp hmem with hold | hnew
      · exact hinv.fresh j hphase hold
      · exact hji (ServedItem.scanned.inj (List.mem_singleton.mp hnew))
  · intro j path hpath before since hlog k event hmem hformatting
    rcases concat_eq_append_cons hlog with ⟨rfl, _, _⟩ | ⟨earlier, rfl, hbefore⟩
    · cases hmem
    · have hearlier : .did k event ∈ earlier := by simpa using hmem
      rcases victim_scan halone hpath with ⟨rfl, _⟩ | ⟨_, hold⟩
      · exact absurd (by simp [hbefore]) (hinv.fresh j hwaiting)
      · exact hinv.untouched j path hold before earlier hbefore k event hearlier hformatting
  · exact not_overwrites_snoc hinv.safe fun j event path before since hitem => by cases hitem

/-- A request that goes on claims what it claimed before. -/
theorem victim_working {i : ι} {plan : ProvisionPlan}
    {prog rest : LdmIpcService.ServiceProg ProvisionResult}
    (hphase : state.phase i = .working plan prog) (j : ι) :
    (state.setPhase i (.working plan rest)).victim service requests j =
      state.victim service requests j := by
  rw [victim_setPhase]
  split
  · rename_i hji
    rw [hji, victim, hphase]
    rfl
  · rfl

/-- A request goes on to its next effect. -/
theorem RaceInv.act (hinv : RaceInv service requests state) {i : ι} {plan : ProvisionPlan}
    {effect : StorageEffect}
    {next : StorageAnswer effect → LdmIpcService.ServiceProg ProvisionResult}
    (hphase : state.phase i = .working plan (.perform effect next))
    (answer : StorageAnswer effect) :
    RaceInv service requests { state.setPhase i (.working plan (next answer)) with
      log := state.log ++ [.did i ⟨effect, answer⟩] } := by
  have halways := hinv.programs i plan _ hphase answer
  have hsame : ∀ j, (state.setPhase i (.working plan (next answer))).victim service requests j =
      state.victim service requests j := victim_working hphase
  -- the effect formats, if at all, the disk this request is entitled to
  have hown : ∀ path, Formatting path ⟨effect, answer⟩ →
      state.victim service requests i = some path := by
    rintro path ⟨run, hrun, hpath⟩
    obtain ⟨own, hvictim, hlast⟩ := halways.1 run hrun
    rw [hpath] at hlast
    rw [victim, hphase, ← Option.some.inj hlast.symm]
    exact hvictim
  refine ⟨?_, ?_, ?_, ?_, ?_⟩
  · intro j other prog hworking
    simp only [phase_setPhase] at hworking
    split at hworking
    · rename_i hji
      subst hji
      cases hworking
      exact halways.2
    · exact hinv.programs j other prog hworking
  · intro j k path hj hk
    exact hinv.exclusive j k path ((hsame j).symm.trans hj) ((hsame k).symm.trans hk)
  · intro j hwaiting hmem
    simp only [phase_setPhase] at hwaiting
    split at hwaiting
    · cases hwaiting
    · exact hinv.fresh j hwaiting (by simpa using hmem)
  · intro j path hpath before since hlog k event hmem hformatting
    have hvictim : state.victim service requests j = some path :=
      (hsame j).symm.trans hpath
    rcases concat_eq_append_cons hlog with ⟨rfl, _, _⟩ | ⟨earlier, rfl, hbefore⟩
    · cases hmem
    · rcases List.mem_append.mp hmem with hold | hnew
      · exact hinv.untouched j path hvictim before earlier hbefore k event hold hformatting
      · obtain ⟨rfl, rfl⟩ := ServedItem.did.inj (List.mem_singleton.mp hnew)
        exact hinv.exclusive k j path (hown path hformatting) hvictim
  · refine not_overwrites_snoc hinv.safe ?_
    intro j event path before since hitem hformatting hlog
    obtain ⟨rfl, rfl⟩ := ServedItem.did.inj hitem
    exact hinv.untouched i path (hown path hformatting) before since hlog

/-- A request that is done answers. -/
theorem RaceInv.answer (hinv : RaceInv service requests state) (i : ι)
    (result : Except Status ProvisionResult) :
    RaceInv service requests (state.setPhase i (.answered result)) := by
  have hvictim : ∀ j path,
      (state.setPhase i (.answered result)).victim service requests j = some path →
      state.victim service requests j = some path := by
    intro j path hpath
    rw [victim_setPhase] at hpath
    split at hpath
    · cases hpath
    · exact hpath
  refine ⟨?_, ?_, ?_, ?_, hinv.safe⟩
  · intro j plan prog hphase
    rw [phase_setPhase] at hphase
    split at hphase
    · cases hphase
    · exact hinv.programs j plan prog hphase
  · intro j k path hj hk
    exact hinv.exclusive j k path (hvictim j path hj) (hvictim k path hk)
  · intro j hphase
    rw [phase_setPhase] at hphase
    split at hphase
    · cases hphase
    · exact hinv.fresh j hphase
  · intro j path hpath
    exact hinv.untouched j path (hvictim j path hpath)

/-- One step of requests that scan alone keeps the invariant. -/
theorem raceInv_step (state : ServerState ι) (event : ServerEvent ι)
    (hinv : RaceInv service requests state)
    (halone : state.ScansAlone service requests event) :
    RaceInv service requests (state.step service requests event) := by
  cases event with
  | scan i view =>
      simp only [step]
      split
      · rename_i hwaiting
        exact hinv.scan hwaiting halone
      · exact hinv
  | act i world =>
      simp only [step]
      split
      · rename_i plan effect next hphase
        exact hinv.act hphase (world effect)
      · rename_i plan result hphase
        exact hinv.answer i result
      · exact hinv

end Steps

/-- Where no request scans a disk that another one is working to format, no
request overwrites what another has set up since its scan. -/
theorem run_never_overwrites {ι : Type} [DecidableEq ι] (service : LdmIpcService)
    (requests : ι → AssignRoleRequest) (events : List (ServerEvent ι))
    (halone : StepRun.Meets (step service requests) (ScansAlone service requests) initial
      events) :
    ∀ reached, reached <+: events → ∀ i,
      ¬ Overwrites i (reached.foldl (step service requests) initial).log := by
  intro reached hreached
  exact ((halone.of_isPrefix hreached).foldl_inv raceInv_step
    (raceInv_initial service requests)).safe

end ServerState

namespace RaceWitness

open LifetimeWitness ServerState

def service : LdmIpcService :=
  ⟨"/var/log/audit.jsonl".toList, "/etc/fstab".toList, "/sys/class/block".toList, false⟩

/-- Two requests for the worker role, without the confirmation flag. -/
def requests : Bool → AssignRoleRequest := fun _ => ⟨.worker, [], false, false⟩

/-- The next effects of a request, all of which succeed. -/
def acts (i : Bool) (count : Nat) : List (ServerEvent Bool) :=
  List.replicate count (.act i (AuditWitness.compliant []))

/-- One request is served before the other one takes its scan. -/
def oneByOne : List (ServerEvent Bool) :=
  (.scan true (view blank) :: acts true 13) ++ (.scan false (view mounted) :: acts false 3)

theorem meets_acts (i : Bool) (count : Nat) (state : ServerState Bool) :
    StepRun.Meets (step service requests) (ScansAlone service requests) state
      (acts i count) := by
  refine StepRun.meets_of_forall (fun event hevent state => ?_) state
  rw [List.eq_of_mem_replicate hevent]
  trivial

def logOf (events : List (ServerEvent Bool)) : List (ServedItem Bool) :=
  (events.foldl (step service requests) initial).log

theorem oneByOne_never_overwrites :
    (runsOf .mkfsExt4 ((logOf oneByOne).filterMap fun item =>
        match item with
        | .did _ event => some event
        | .scanned _ => none)).length = 1 ∧
      ∀ i, ¬ Overwrites i (logOf oneByOne) := by
  have hidle : ∀ j, ((.scan true (view blank) :: acts true 13).foldl (step service requests)
      initial).victim service requests j = none := by
    intro j
    cases j <;> rfl
  have halone : StepRun.Meets (step service requests) (ScansAlone service requests) initial
      oneByOne := by
    refine StepRun.meets_append.mpr ⟨⟨?_, meets_acts true 13 _⟩, ?_, meets_acts false 3 _⟩
    · intro plan path _ _ j
      nofun
    · intro plan path _ _ j
      rw [hidle j]
      nofun
  exact ⟨rfl, run_never_overwrites service requests oneByOne halone oneByOne
    (List.prefix_refl _)⟩

/-- Both requests scan the blank disk; one formats and mounts it, then the other
one goes on. -/
def bothScanned : List (ServerEvent Bool) :=
  [.scan true (view blank), .scan false (view blank)] ++ acts true 12 ++ acts false 4

theorem bothScanned_overwrites :
    blank.Sees (view blank) ∧ Overwrites false (logOf bothScanned) := by
  refine ⟨sees_view blank, (logOf bothScanned).take 1, ((logOf bothScanned).drop 2).take 15, [],
    "/dev/nvme0n1".toList, ran mkfsCommand (.exited (some 0) [] []), true, rfl,
    ⟨_, rfl, rfl⟩, by decide, ?_⟩
  exact ⟨((logOf bothScanned).drop 2).take 3, ((logOf bothScanned).drop 6).take 4,
    ((logOf bothScanned).drop 11).take 6, ran mkfsCommand (.exited (some 0) [] []), _, rfl,
    ⟨_, rfl, rfl, rfl⟩, _, _, rfl, rfl⟩

end RaceWitness

end PiCluster
