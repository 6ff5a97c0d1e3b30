import ZenithBot.Lib.Pool

/-! Admission to a managed Hub (`team_hub_host.py`). Requests are let in while `_accepting` holds and
    are counted; maintenance closes the peer gateway and the door, waits until nobody is inside, and
    snapshots the store behind a fence. An aborted call reopens both.

        prepare:  draining ──▶ drained ──▶ snapshotting ──▶ snapshotted ──▶ ended
                     │            │             │                │
                     └────────────┴── aborting ◀┴────────────────┘
                                        │
                          (unfencing) ──▶ probing ──▶ reopening ──▶ reopened ──▶ ended

    A step is what runs between two awaits: a piece of a coroutine, or the work it handed to a thread.
    The lock of `_admission` is never held across an await, so taking it is no step. Work in a thread is
    always waited for; a cancellation only turns the caller to its cleanup afterwards. A fence is named
    by its snapshot, and snapshots are numbered. -/

namespace TeamHub.Host
open Lib

/-- What a host is from its start on. -/
structure Config where
  (delegate store startupFailed : Bool)
  /-- The peer manager has a gateway. -/
  gateway : Bool

def Config.ready (c : Config) : Bool := c.delegate && c.store

/-- The host, its peer manager and the fence in its data directory. -/
structure State where
  accepting : Bool
  inFlight : Nat := 0
  peerAccepting : Bool
  fence : Option Nat := none
  snapshots : Nat := 0
  /-- `clear_maintenance` has cleared the last fence. -/
  cleared : Bool := false
  /-- `shutdown` was called. -/
  shutting : Bool := false
  /-- `shutdown` has closed admission. -/
  shut : Bool := false

/-- A host after `initialize`. -/
def Config.started (c : Config) : State where
  accepting := c.ready
  peerAccepting := c.ready && c.gateway

/-- The arguments of `prepare_maintenance`. -/
structure Prepare where
  persistentFence : Bool := true
  operationId : Bool := true
  allowUnavailableHost : Bool := false
  reopenOnAbort : Bool := true
  deriving DecidableEq

/-- The points of `_close_and_drain`: before the gateway is closed, before the door is, and waiting
    for the requests inside. -/
inductive Drain where
  | closing | peerClosed | waiting
  deriving DecidableEq

inductive Task where
  /-- A request that was let in. -/
  | running
  | draining (call : Prepare) (d : Drain) (aborted : Bool)
  | drained (call : Prepare)
  | snapshotting (call : Prepare) (aborted : Bool)
  | snapshotted (call : Prepare) (aborted : Bool) (snapshot : Option Nat)
  /-- `cleanup_aborted_maintenance`, with or without the store. -/
  | aborting (call : Prepare) (store : Bool) (snapshot : Option Nat)
  | unfencing (call : Prepare) (snapshot : Nat)
  | probing (call : Prepare)
  /-- `reopen_admission` and `reopen_admission_sync`, before and after the gateway is opened. -/
  | reopening
  | reopened
  | clearing (snapshot : Nat)
  | shutProbing
  | shutDraining (d : Drain) (aborted : Bool)
  | shutRaising
  | ended
  deriving DecidableEq

inductive Call where
  | request
  /-- `issue_tailnet_bootstrap_proof`, within its rate or not. -/
  | bootstrapProof (allowed : Bool)
  | prepare (persistentFence operationId allowUnavailableHost : Bool)
  | clear (snapshot : Nat)
  | reopen
  | shutdown

/-- What befalls a step. A snapshot that fails can leave its fence. -/
inductive Outcome where
  | goes | fails | failsFenced | cancelled

variable (c : Config) (s : State)

/-- `self._accepting = False`. -/
def State.close (shutdown : Bool) : State :=
  { s with accepting := false, shut := s.shut || shutdown }

/-- The first section of `reopen_admission`. -/
def beginReopen : State × Task :=
  if c.ready then ({ s with accepting := false }, .reopening)
  else ({ s with accepting := false }, .ended)

/-- How `_close_and_drain` went on: it is somewhere, done, or ended by an error or a cancellation. -/
inductive Drained where
  | somewhere (d : Drain) (aborted : Bool)
  | done
  | raised

/-- A step of `_close_and_drain`. A cancellation takes effect once the gateway is closed. -/
def closeAndDrain (d : Drain) (aborted shutdown : Bool) (o : Outcome) : State × Drained :=
  match d, o with
  | d, .cancelled => (s, .somewhere d true)
  | .closing, .goes => ({ s with peerAccepting := false }, .somewhere .peerClosed aborted)
  | .closing, _ => (s, .raised)
  | .peerClosed, .goes =>
    if aborted then (s, .raised)
    else if s.inFlight = 0 then (s.close shutdown, .done)
    else (s.close shutdown, .somewhere .waiting false)
  | .peerClosed, _ => (s, .raised)
  | .waiting, .goes =>
    if aborted then (s, .raised)
    else if s.inFlight = 0 then (s, .done)
    else (s, .somewhere .waiting false)
  | .waiting, _ => (s, .somewhere .waiting aborted)

/-- The end of `cleanup_aborted_maintenance`. -/
def endCleanup (call : Prepare) : State × Task :=
  if call.reopenOnAbort then beginReopen c s else (s, .shutRaising)

/-- The first section of `cleanup_aborted_maintenance`. -/
def beginCleanup (call : Prepare) (store : Bool) (snapshot : Option Nat) : State × Task :=
  let s := if call.reopenOnAbort then s else s.close true
  if call.persistentFence && store then
    match snapshot with
    | some n => (s, .unfencing call n)
    | none => (s, .probing call)
  else endCleanup c s call

/-- `prepare_maintenance` once the requests are drained. -/
def beginSnapshot (call : Prepare) : State × Task :=
  if !c.store then
    if call.allowUnavailableHost && c.startupFailed then (s, .ended) else (s, .aborting call false none)
  else if call.persistentFence && !call.operationId then (s, .aborting call false none)
  else (s, .snapshotting call false)

/-- The worker of the snapshot: `maintenance_snapshot_and_fence` or `maintenance_snapshot`. -/
def takeSnapshot (call : Prepare) (aborted : Bool) (o : Outcome) : State × Task :=
  let fenced := { s with fence := some s.snapshots, snapshots := s.snapshots + 1, cleared := false }
  match o with
  | .cancelled => (s, .snapshotting call true)
  | .fails => (s, .snapshotted call aborted none)
  | .goes =>
    if !call.persistentFence then
      ({ s with snapshots := s.snapshots + 1 }, .snapshotted call aborted (some s.snapshots))
    else if s.fence.isSome then (s, .snapshotted call aborted none)
    else (fenced, .snapshotted call aborted (some s.snapshots))
  | .failsFenced =>
    if !call.persistentFence || s.fence.isSome then (s, .snapshotted call aborted none)
    else (fenced, .snapshotted call aborted none)

/-- `prepare_maintenance` once its snapshot is taken or has failed. -/
def endSnapshot (call : Prepare) (aborted : Bool) (snapshot : Option Nat) : Outcome → State × Task
  | .cancelled => (s, .snapshotted call true snapshot)
  | _ =>
    if aborted then (s, .aborting call true snapshot)
    else if snapshot.isSome then (s, .ended)
    else (s, .aborting call true none)

/-- `prepare_maintenance` while it drains. -/
def advanceDraining (call : Prepare) (d : Drain) (aborted : Bool) (o : Outcome) : State × Task :=
  match closeAndDrain s d aborted (!call.reopenOnAbort) o with
  | (s, .somewhere d aborted) => (s, .draining call d aborted)
  | (s, .done) => (s, .drained call)
  | (s, .raised) => (s, .aborting call false none)

/-- `shutdown` in a fenced host. -/
def advanceShutDraining (d : Drain) (aborted : Bool) (o : Outcome) : State × Task :=
  match closeAndDrain s d aborted true o with
  | (s, .somewhere d aborted) => (s, .shutDraining d aborted)
  | (s, .done) => (s, .ended)
  | (s, .raised) => (s, .shutRaising)

/-- The call of `prepare_maintenance` that `shutdown` makes. -/
def shutdownCall : Prepare :=
  { persistentFence := false, operationId := false, reopenOnAbort := false }

def start : Call → State × Task
  | .request =>
    if s.accepting && c.delegate then ({ s with inFlight := s.inFlight + 1 }, .running)
    else (s, .ended)
  | .bootstrapProof allowed =>
    if s.accepting && c.store then
      if allowed then ({ s with inFlight := s.inFlight + 1 }, .running)
      else ({ s with inFlight := s.inFlight + 1 - 1 }, .ended)
    else (s, .ended)
  | .prepare persistentFence operationId allowUnavailableHost =>
    (s, .draining ⟨persistentFence, operationId, allowUnavailableHost, true⟩ .closing false)
  | .clear snapshot => if c.store then (s, .clearing snapshot) else (s, .ended)
  | .reopen => beginReopen c { s with cleared := false }
  | .shutdown =>
    if c.store then ({ s with shutting := true }, .shutProbing)
    else ({ s with shutting := true }, .draining shutdownCall .closing false)

/-- A task goes on. -/
def advance : Task → Outcome → State × Task
  | .running, _ => ({ s with inFlight := s.inFlight - 1 }, .ended)
  | .draining call d aborted, o => advanceDraining s call d aborted o
  | .drained call, .cancelled => (s, .aborting call false none)
  | .drained call, _ => beginSnapshot c s call
  | .snapshotting call aborted, o => takeSnapshot s call aborted o
  | .snapshotted call aborted snapshot, o => endSnapshot s call aborted snapshot o
  | .aborting call store snapshot, _ => beginCleanup c s call store snapshot
  | .unfencing call n, .goes =>
    match s.fence with
    | none => (s, .probing call)
    | some m => if m = n then ({ s with fence := none }, .probing call) else (s, .ended)
  | .unfencing call n, .cancelled => (s, .unfencing call n)
  | .unfencing _ _, _ => (s, .ended)
  | .probing call, .goes => if s.fence.isSome then (s, .ended) else endCleanup c s call
  | .probing call, .cancelled => (s, .probing call)
  | .probing _, _ => (s, .ended)
  | .reopening, .goes => ({ s with peerAccepting := c.gateway }, .reopened)
  | .reopening, .cancelled => (s, .reopening)
  | .reopening, _ => ({ s with accepting := false }, .ended)
  | .reopened, _ => ({ s with accepting := c.ready }, .ended)
  | .clearing n, .goes =>
    if s.fence = some n then ({ s with fence := none, cleared := true }, .ended) else (s, .ended)
  | .clearing n, .cancelled => (s, .clearing n)
  | .clearing _, _ => (s, .ended)
  | .shutProbing, .goes =>
    if s.fence.isSome then (s, .shutDraining .closing false)
    else (s, .draining shutdownCall .closing false)
  | .shutProbing, .cancelled => (s, .ended)
  | .shutProbing, _ => (s, .shutRaising)
  | .shutDraining d aborted, o => advanceShutDraining s d aborted o
  | .shutRaising, .cancelled => (s, .ended)
  | .shutRaising, _ => (s.close true, .ended)
  | .ended, _ => (s, .ended)

abbrev Move := Pool.Move Call Outcome

/-- The host after a move. -/
def step : Pool State Task → Move → Pool State Task :=
  Pool.step (start c) (advance c)

def boot : Pool State Task := { shared := c.started }

end TeamHub.Host
