/-
Lease-based leader election.  Any number of electors share one Lease object;
each of their API requests is one atomic step at the server, and everything an
elector does between two requests is its own.
-/
import Mathlib.Logic.Function.Basic
import PiCluster.Lib.Text

namespace PiCluster

open Text

/-- Times are in microseconds, the resolution of `MicroTime`. -/
structure LeaseSpec where
  holderIdentity : Option Str
  leaseDurationSeconds : Option Int
  acquireTime : Option Int
  renewTime : Option Int
  leaseTransitions : Option Int
deriving DecidableEq, Repr

def LeaseSpec.default : LeaseSpec := ⟨none, none, none, none, none⟩

structure Lease where
  resourceVersion : Nat
  spec : Option LeaseSpec
deriving DecidableEq, Repr

namespace Lease

def specOrDefault (lease : Lease) : LeaseSpec := lease.spec.getD .default

def holder (lease : Lease) : Str := lease.specOrDefault.holderIdentity.getD []

/-- `(now - renew_time).num_seconds() > duration_secs`. -/
def isExpired (lease : Lease) (now : Int) : Bool :=
  (now - lease.specOrDefault.renewTime.getD 0).tdiv 1000000 >
    lease.specOrDefault.leaseDurationSeconds.getD 15

end Lease

/-- The merge patches an elector sends. -/
inductive LeasePatch where
  | renew (now duration : Int)
  | acquire (holder : Str) (now duration transitions : Int)
  | release
deriving DecidableEq, Repr

def LeasePatch.merge : LeasePatch → LeaseSpec → LeaseSpec
  | .renew now duration, spec =>
      { spec with renewTime := some now, leaseDurationSeconds := some duration }
  | .acquire holder now duration transitions, _ =>
      ⟨some holder, some duration, some now, some now, some transitions⟩
  | .release, spec => { spec with holderIdentity := none }

/-- The API server applies a patch; every write gets a new version. -/
def Lease.applyPatch (lease : Lease) (patch : LeasePatch) : Lease :=
  ⟨lease.resourceVersion + 1, some (patch.merge lease.specOrDefault)⟩

/-- `as i32` on a number of seconds. -/
def asI32 (n : Int) : Int := n.bmod 0x100000000

/-- The electors that share the lease, by the values they were built with. -/
structure Electorate (ι : Type) where
  holderIdentity : ι → Str
  leaseDuration : ι → Nat
  distinct : holderIdentity.Injective

/-- Where an elector stands.  `reading` to `patching` are the requests of
`try_acquire_or_renew`, with the time taken at its start; a pending patch
remembers the version of the lease it was computed from. -/
inductive Phase where
  | idle
  | reading (now : Int)
  | creating (now : Int)
  | refetching (now : Int)
  | patching (now : Int) (version : Nat) (patch : LeasePatch)
  | decided (result : Except Unit Bool)
  | releasing
  | released
  | stopped
deriving DecidableEq

/-- `leader` is what the elector last reported. -/
structure Elector where
  phase : Phase
  leader : Bool
deriving DecidableEq

/-- How a request ends: answered, applied but the answer lost, or failed before
it was applied. -/
inductive Delivery where
  | answered
  | replyLost
  | failed
deriving DecidableEq, Repr

/-- How the server keeps the lease: what a creation and a patch make of it, and what its
answer is read as. -/
structure LeaseStore (ι σ : Type) where
  create : ι → Int → σ
  applyPatch : σ → LeasePatch → σ
  read : σ → Option Lease

namespace Electorate

variable {ι : Type} (electorate : Electorate ι)

def seconds (i : ι) : Int := asI32 (electorate.leaseDuration i)

def newLease (i : ι) (now : Int) : Lease where
  resourceVersion := 1
  spec := some ⟨some (electorate.holderIdentity i), some (electorate.seconds i), some now,
    some now, some 1⟩

/-- The decision on the lease that was read. -/
def decideOn (i : ι) (now : Int) (existing : Lease) : Phase :=
  if existing.holder = electorate.holderIdentity i then
    .patching now existing.resourceVersion (.renew now (electorate.seconds i))
  else if existing.isExpired now || existing.holder.isEmpty then
    .patching now existing.resourceVersion
      (.acquire (electorate.holderIdentity i) now (electorate.seconds i)
        (asI32 (existing.specOrDefault.leaseTransitions.getD 0 + 1)))
  else .decided (.ok false)

/-- A write that was applied, as the elector sees it. -/
def afterWrite : Delivery → Phase
  | .answered => .decided (.ok true)
  | _ => .decided (.error ())

/-- The decision on the lease that an answer is read as, if it can be read. -/
def decideOnReply (i : ι) (now : Int) : Option Lease → Phase
  | some existing => electorate.decideOn i now existing
  | none => .decided (.error ())

/-- A write answers with what was written, which is read in turn. -/
def writeReply (delivery : Delivery) : Option Lease → Phase
  | some _ => afterWrite delivery
  | none => .decided (.error ())

/-- The pending request of an elector reaches the server. -/
def requestTo {σ : Type} (store : LeaseStore ι σ) (i : ι) (phase : Phase) (lease : Option σ)
    (delivery : Delivery) : Phase × Option σ :=
  match phase with
  | .reading now =>
      match delivery, lease with
      | .answered, some existing =>
          (electorate.decideOnReply i now (store.read existing), lease)
      | .answered, none => (.creating now, lease)
      | _, _ => (.decided (.error ()), lease)
  | .creating now =>
      match delivery, lease with
      | .failed, _ => (.decided (.error ()), lease)
      | _, none =>
          let created := store.create i now
          (writeReply delivery (store.read created), some created)
      -- a conflict: the lease was created meanwhile
      | .answered, some _ => (.refetching now, lease)
      | .replyLost, some _ => (.decided (.error ()), lease)
  | .refetching now =>
      match delivery, lease with
      | .answered, some existing =>
          (electorate.decideOnReply i now (store.read existing), lease)
      | _, _ => (.decided (.error ()), lease)
  | .patching _ _ patch =>
      match delivery, lease with
      | .failed, _ => (.decided (.error ()), lease)
      | _, none => (.decided (.error ()), lease)
      | _, some existing =>
          let patched := store.applyPatch existing patch
          (writeReply delivery (store.read patched), some patched)
  | .releasing =>
      match delivery with
      | .failed => (.released, lease)
      | _ => (.released, lease.map fun existing => store.applyPatch existing .release)
  | _ => (phase, lease)

/-- The server that keeps the leases themselves. -/
def leases : LeaseStore ι Lease where
  create := electorate.newLease
  applyPatch := Lease.applyPatch
  read := some

def request (i : ι) (phase : Phase) (lease : Option Lease) (delivery : Delivery) :
    Phase × Option Lease :=
  electorate.requestTo electorate.leases i phase lease delivery

end Electorate

/-- The callback at the end of a cycle or of the shutdown. -/
def Elector.report (elector : Elector) : Elector :=
  match elector.phase with
  | .decided (.ok leader) => ⟨.idle, leader⟩
  | .decided (.error _) => ⟨.idle, false⟩
  | .released => ⟨.stopped, false⟩
  | _ => elector

structure Election (ι : Type) (σ : Type := Lease) where
  clock : Int
  lease : Option σ
  electors : ι → Elector

inductive ElectionEvent (ι : Type) where
  | tick (elapsed : Nat)
  | begin (i : ι)
  | request (i : ι) (delivery : Delivery)
  | report (i : ι)
  | cancel (i : ι)
deriving DecidableEq, Repr

namespace Election

variable {ι σ : Type}

/-- Before the first cycle, with whatever lease is stored. -/
def initial (clock : Int) (lease : Option σ) : Election ι σ :=
  ⟨clock, lease, fun _ => ⟨.idle, false⟩⟩

variable [DecidableEq ι]

def setElector (state : Election ι σ) (i : ι) (elector : Elector) : Election ι σ :=
  { state with electors := Function.update state.electors i elector }

/-- One event, with what a request does to the elector and the lease. -/
def stepWith (request : ι → Phase → Option σ → Delivery → Phase × Option σ)
    (state : Election ι σ) : ElectionEvent ι → Election ι σ
  | .tick elapsed => { state with clock := state.clock + elapsed }
  | .begin i =>
      if (state.electors i).phase = .idle then
        state.setElector i { state.electors i with phase := .reading state.clock }
      else state
  | .request i delivery =>
      let result := request i (state.electors i).phase state.lease delivery
      { state.setElector i { state.electors i with phase := result.1 } with
        lease := result.2 }
  | .report i => state.setElector i (state.electors i).report
  | .cancel i =>
      if (state.electors i).phase = .idle then
        state.setElector i { state.electors i with
          phase := if (state.electors i).leader then .releasing else .stopped }
      else state

def step (electorate : Electorate ι) (state : Election ι) (event : ElectionEvent ι) :
    Election ι :=
  state.stepWith electorate.request event

def run (electorate : Electorate ι) (start : Election ι) (events : List (ElectionEvent ι)) :
    Election ι :=
  events.foldl (step electorate) start

end Election

end PiCluster
