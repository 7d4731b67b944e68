/-
Leadership and the worker it gates.  The election loop reports changes of its
flag to a callback; the callbacks of the operator and of the netboot server
keep one child token for the worker they start and cancel it when leadership
ends.
-/
import PiCluster.Election

namespace PiCluster

/-- What a `run` of the elector has done: its flag, its calls of the callback in
order, and the state the callback closes over. -/
structure ElectorRun (σ : Type) where
  isLeader : Bool
  calls : List Bool
  state : σ

namespace LeaseElector

variable {σ : Type} (callback : σ → Bool → σ)

def start (state : σ) : ElectorRun σ := ⟨false, [], state⟩

/-- `on_leadership_change(leader)`. -/
def onLeadershipChange (run : ElectorRun σ) (leader : Bool) : ElectorRun σ :=
  { run with calls := run.calls ++ [leader], state := callback run.state leader }

/-- One iteration of the loop, on the result of `try_acquire_or_renew`. -/
def iterate (run : ElectorRun σ) (result : Except Unit Bool) : ElectorRun σ :=
  let currentlyLeader := run.isLeader
  match result with
  | .ok true =>
      if !currentlyLeader then onLeadershipChange callback { run with isLeader := true } true
      else run
  | .ok false =>
      if currentlyLeader then onLeadershipChange callback { run with isLeader := false } false
      else run
  | .error _ =>
      if currentlyLeader then onLeadershipChange callback { run with isLeader := false } false
      else run

/-- The loop until cancellation is seen, with the results it got. -/
def loop (state : σ) (results : List (Except Unit Bool)) : ElectorRun σ :=
  results.foldl (iterate callback) (start state)

/-- After the loop a leader releases the lease and reports; its flag stays. -/
def shutdown (run : ElectorRun σ) : ElectorRun σ :=
  if run.isLeader then onLeadershipChange callback run false else run

def run (state : σ) (results : List (Except Unit Bool)) : ElectorRun σ :=
  shutdown callback (loop callback state results)

/-- The flag as it follows from a result. -/
def holdsLease : Except Unit Bool → Bool
  | .ok leader => leader
  | .error _ => false

/-- An iteration calls the callback exactly when the flag changes, with the new
flag. -/
theorem iterate_eq (run : ElectorRun σ) (result : Except Unit Bool) :
    iterate callback run result =
      if run.isLeader = holdsLease result then run
      else onLeadershipChange callback { run with isLeader := holdsLease result }
        (holdsLease result) := by
  rcases result with error | leader
  · cases hleader : run.isLeader <;> simp [iterate, holdsLease, hleader]
  · cases leader <;> cases hleader : run.isLeader <;> simp [iterate, holdsLease, hleader]

/-- The election model's report of a decided cycle is an iteration of the
loop. -/
theorem report_eq_iterate (run : ElectorRun σ) (result : Except Unit Bool) :
    Elector.report ⟨.decided result, run.isLeader⟩ =
      ⟨.idle, (iterate callback run result).isLeader⟩ := by
  rw [iterate_eq]
  split
  · rename_i hsame
    rcases result with error | leader
    · simpa [Elector.report, holdsLease] using hsame.symm
    · simpa [Elector.report, holdsLease] using hsame.symm
  · rcases result with error | leader <;> rfl

end LeaseElector

/-- The calls start with `next` and alternate from there. -/
def Alternates : Bool → List Bool → Prop
  | _, [] => True
  | next, call :: rest => call = next ∧ Alternates (!next) rest

/-- The opposite of the last call continues the alternation. -/
theorem Alternates.snoc {next : Bool} {calls : List Bool} (hcalls : Alternates next calls) :
    Alternates next (calls ++ [!(calls.getLastD (!next))]) := by
  induction calls generalizing next with
  | nil => simp [Alternates]
  | cons call rest ih =>
      obtain ⟨rfl, hrest⟩ := hcalls
      have htail := ih hrest
      rw [Bool.not_not] at htail
      rw [List.getLastD_cons]
      exact ⟨rfl, htail⟩

theorem Alternates.of_isPrefix {next : Bool} {calls before : List Bool}
    (hcalls : Alternates next calls) (hbefore : before <+: calls) :
    Alternates next before := by
  induction before generalizing next calls with
  | nil => trivial
  | cons call rest ih =>
      obtain ⟨later, rfl⟩ := hbefore
      constructor
      · exact hcalls.1
      · exact ih hcalls.2 (List.prefix_append rest later)

namespace LeaseElector

variable {σ : Type} {callback : σ → Bool → σ} {state : σ}

/-- The flag is what was reported last, and the callback has seen the calls and
nothing else. -/
structure Reporting (callback : σ → Bool → σ) (state : σ) (run : ElectorRun σ) : Prop where
  alternates : Alternates true run.calls
  flag : run.calls.getLastD false = run.isLeader
  state_eq : run.state = run.calls.foldl callback state

theorem reporting_start : Reporting callback state (start state) where
  alternates := trivial
  flag := rfl
  state_eq := rfl

/-- A call with the opposite of the flag. -/
theorem Reporting.call {run : ElectorRun σ} (hrun : Reporting callback state run)
    {leader : Bool} (hleader : run.isLeader ≠ leader) :
    Reporting callback state
      (onLeadershipChange callback { run with isLeader := leader } leader) := by
  have hopposite : (!(run.calls.getLastD (!true))) = leader := by
    rw [Bool.not_true, hrun.flag]
    exact Bool.not_eq.mpr hleader
  have hsnoc := hrun.alternates.snoc
  rw [hopposite] at hsnoc
  constructor
  · exact hsnoc
  · simp [onLeadershipChange]
  · simp [onLeadershipChange, hrun.state_eq]

theorem Reporting.iterate {run : ElectorRun σ} (hrun : Reporting callback state run)
    (result : Except Unit Bool) :
    Reporting callback state (iterate callback run result) := by
  rw [iterate_eq]
  split
  · exact hrun
  · rename_i hchange
    exact hrun.call hchange

theorem reporting_loop (results : List (Except Unit Bool)) :
    Reporting callback state (loop callback state results) := by
  apply List.foldlRecOn (motive := Reporting callback state)
  · exact reporting_start
  · intro run hrun result _
    exact hrun.iterate result

/-- Once `run` has returned, the last call was `false` or there was none. -/
theorem run_calls (callback : σ → Bool → σ) (state : σ)
    (results : List (Except Unit Bool)) :
    Alternates true (run callback state results).calls ∧
      (run callback state results).calls.getLastD false = false ∧
      (run callback state results).state =
        (run callback state results).calls.foldl callback state := by
  have hloop : Reporting callback state (loop callback state results) :=
    reporting_loop results
  unfold run shutdown
  split
  · rename_i hleader
    have hchange : (loop callback state results).isLeader ≠ false := by simp [hleader]
    have hcall := hloop.call hchange
    exact ⟨hcall.alternates, hcall.flag, hcall.state_eq⟩
  · rename_i hleader
    exact ⟨hloop.alternates, hloop.flag.trans (by simpa using hleader), hloop.state_eq⟩

end LeaseElector

/-- The task a leader starts. -/
inductive Worker where
  | reconcileLoop
  | proxyDhcp
deriving DecidableEq, Repr

/-- A child token with the worker that was spawned on it. -/
structure ChildToken where
  worker : Worker
  cancelled : Bool
deriving DecidableEq, Repr

def ChildToken.cancel (token : ChildToken) : ChildToken := { token with cancelled := true }

/-- Every child token made so far, and the position of the one in the holder. -/
structure TokenHolder where
  tokens : List ChildToken
  held : Option Nat
deriving DecidableEq, Repr

namespace TokenHolder

def empty : TokenHolder := ⟨[], none⟩

/-- The uncancelled child tokens. -/
def live (holder : TokenHolder) : List ChildToken :=
  holder.tokens.filter fun token => !token.cancelled

/-- The callback both daemons install: a new token replaces whatever the holder
has, and the end of leadership takes and cancels it. -/
def leadershipCallback (worker : Worker) (holder : TokenHolder) (isLeader : Bool) :
    TokenHolder :=
  if isLeader then
    ⟨holder.tokens ++ [⟨worker, false⟩], some holder.tokens.length⟩
  else match holder.held with
    | some position => ⟨holder.tokens.modify position ChildToken.cancel, none⟩
    | none => holder

/-- The callback in `main` of cluster-operator. -/
def operatorCallback : TokenHolder → Bool → TokenHolder := leadershipCallback .reconcileLoop

/-- The callback in `main` of cluster-netboot. -/
def netbootCallback : TokenHolder → Bool → TokenHolder := leadershipCallback .proxyDhcp

def callbackOf : Worker → TokenHolder → Bool → TokenHolder
  | .reconcileLoop => operatorCallback
  | .proxyDhcp => netbootCallback

theorem callbackOf_eq (worker : Worker) : callbackOf worker = leadershipCallback worker := by
  cases worker <;> rfl

/-- A leader holds its newest token, uncancelled; all other tokens are
cancelled. -/
def Gated (worker : Worker) (holder : TokenHolder) : Bool → Prop
  | true => ∃ older, holder = ⟨older ++ [⟨worker, false⟩], some older.length⟩ ∧
      ∀ token ∈ older, token.cancelled = true
  | false => holder.held = none ∧ ∀ token ∈ holder.tokens, token.cancelled = true

theorem modify_length_append {α : Type} (f : α → α) (older : List α) (last : α) :
    (older ++ [last]).modify older.length f = older ++ [f last] := by
  induction older with
  | nil => rfl
  | cons head rest ih => simpa using ih

theorem Gated.acquire {worker : Worker} {holder : TokenHolder}
    (hgated : Gated worker holder false) :
    Gated worker (leadershipCallback worker holder true) true :=
  ⟨holder.tokens, rfl, hgated.2⟩

theorem Gated.lose {worker : Worker} {holder : TokenHolder}
    (hgated : Gated worker holder true) :
    Gated worker (leadershipCallback worker holder false) false := by
  obtain ⟨older, rfl, holder⟩ := hgated
  constructor
  · rfl
  · intro token htoken
    simp only [leadershipCallback, Bool.false_eq_true, ↓reduceIte, modify_length_append,
      List.mem_append, List.mem_singleton] at htoken
    rcases htoken with htoken | rfl
    · exact holder token htoken
    · rfl

/-- Alternating calls keep flag and tokens in step. -/
theorem Gated.foldl {worker : Worker} {calls : List Bool} {next : Bool} {holder : TokenHolder}
    (hcalls : Alternates next calls) (hgated : Gated worker holder (!next)) :
    Gated worker (calls.foldl (leadershipCallback worker) holder)
      (calls.getLastD (!next)) := by
  induction calls generalizing next holder with
  | nil => exact hgated
  | cons call rest ih =>
      obtain ⟨rfl, hrest⟩ := hcalls
      have hcall : Gated worker (leadershipCallback worker holder call) call := by
        cases call with
        | true => exact hgated.acquire
        | false => exact hgated.lose
      have hfold := ih hrest (by rwa [Bool.not_not])
      rw [Bool.not_not] at hfold
      rw [List.foldl_cons, List.getLastD_cons]
      exact hfold

theorem Gated.live_eq {worker : Worker} {holder : TokenHolder} {isLeader : Bool}
    (hgated : Gated worker holder isLeader) :
    holder.live = if isLeader then [⟨worker, false⟩] else [] := by
  cases isLeader with
  | true =>
      obtain ⟨older, rfl, holder⟩ := hgated
      simpa [live, List.filter_append] using holder
  | false => simpa [live] using hgated.2

theorem gated_empty (worker : Worker) : Gated worker empty false :=
  ⟨rfl, List.forall_mem_nil _⟩

end TokenHolder

namespace LeaseElector

open TokenHolder

/-- Leadership gates one worker.  Whatever the results and wherever the loop is
cancelled: the calls alternate from `true` and a returned run ends with `false`
or made none; after each call at most one child token is uncancelled; at the
end of an iteration there is one exactly for a leader; after the return there
is none. -/
theorem run_gates_worker (worker : Worker) (results : List (Except Unit Bool)) :
    Alternates true (run (callbackOf worker) empty results).calls ∧
      (run (callbackOf worker) empty results).calls.getLast? ≠ some true ∧
      (∀ calls, calls <+: (run (callbackOf worker) empty results).calls →
        (calls.foldl (callbackOf worker) empty).live.length ≤ 1) ∧
      (loop (callbackOf worker) empty results).state.live =
        (if (loop (callbackOf worker) empty results).isLeader then [⟨worker, false⟩]
          else []) ∧
      (run (callbackOf worker) empty results).state.live = [] := by
  rw [callbackOf_eq]
  have hloop : Reporting (leadershipCallback worker) empty
      (loop (leadershipCallback worker) empty results) := reporting_loop results
  obtain ⟨halternates, hlast, hstate⟩ := run_calls (leadershipCallback worker) empty results
  have hgated : ∀ calls, Alternates true calls →
      Gated worker (calls.foldl (leadershipCallback worker) empty) (calls.getLastD false) :=
    fun calls hcalls => Gated.foldl hcalls (gated_empty worker)
  refine ⟨halternates, ?_, ?_, ?_, ?_⟩
  · intro htrue
    rw [List.getLastD_eq_getLast?, htrue] at hlast
    cases hlast
  · intro calls hcalls
    rw [(hgated calls (halternates.of_isPrefix hcalls)).live_eq]
    split <;> simp
  · rw [hloop.state_eq, (hgated _ hloop.alternates).live_eq, hloop.flag]
  · rw [hstate, (hgated _ halternates).live_eq, hlast]
    rfl

end LeaseElector

end PiCluster
