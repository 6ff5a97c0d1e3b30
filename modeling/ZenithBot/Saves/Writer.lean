import ZenithBot.Lib.Run

/-! How `sessions.json` is written (`SessionStore` in `agent_server.py`). Marks between two writes share
    one pending object. One worker waits for its window, detaches the object, encodes the sessions on the
    event loop and leaves the file to a thread; whoever awaits a save waits for the object's event and reads
    its error.

        worker:   created ─▶ waiting ─▶ writing ─▶ waiting, or the task ends
        thread:   queued ─▶ running ─▶ landed ─▶ finished        one at a time, by the lock

    A step is what runs between two awaits of a task, or one move of a thread. A snapshot is named by
    the moment it was encoded. Cancelling the worker does not stop its thread, which goes on as an
    orphan unless it had not started. -/

namespace Saves
open Lib

/-! ### Threads -/

/-- A snapshot on its way to the file. -/
structure Write where
  encodedAt : ℕ
  durable : Bool
  deriving DecidableEq

/-- Where `write_sessions_json_text` is: before the lock, holding it, past `os.replace`, or over. -/
inductive ThreadPhase where
  | queued
  | running
  | landed
  | finished (ok : Bool)
  deriving DecidableEq

structure Thread where
  write : Write
  phase : ThreadPhase
  deriving DecidableEq

inductive Move where
  | acquire
  | land
  | finish (ok : Bool)
  deriving DecidableEq

/-- A thread holds `SESSIONS_WRITE_LOCK`. -/
def Thread.holds (t : Thread) : Bool := decide (t.phase = .running) || decide (t.phase = .landed)

/-- One move of a thread; only a durable write can still fail after it has replaced the file. -/
def Thread.move (locked : Bool) (t : Thread) : Move → Thread
  | .acquire => if t.phase = .queued ∧ locked = false then { t with phase := .running } else t
  | .land => if t.phase = .running then { t with phase := .landed } else t
  | .finish true => if t.phase = .landed then { t with phase := .finished true } else t
  | .finish false =>
    if t.phase = .running ∨ t.phase = .landed ∧ t.write.durable = true then
      { t with phase := .finished false }
    else t

/-! ### The store -/

/-- A `PendingSessionSave`. -/
structure Pending where
  (durable wake done : Bool)
  error : Option String

/-- The task `_save_task`: `idle` if there is none, or it is done. -/
inductive Worker where
  | idle
  | created
  | waiting (pending : ℕ)
  | writing (pending : ℕ) (thread : Thread)
  deriving DecidableEq

inductive Outcome where
  /-- it does not wait -/
  | marked
  | waiting
  | returned
  | raised (error : String)
  deriving DecidableEq

/-- A call of `save`. -/
structure Call where
  (pending began : ℕ)
  (durable cancelled : Bool)
  outcome : Outcome

/-- The store and what happens around it. Pending objects and calls are numbered; `landed` lists what
    has replaced the file, in order, `complete` what was written completely. -/
structure Store where
  now : ℕ
  pendings : ℕ → Pending
  nextPending : ℕ
  pendingSave : Option ℕ
  worker : Worker
  orphans : List Thread
  calls : ℕ → Option Call
  nextCall : ℕ
  (landed complete : List Write)

/-- A store that has not been marked yet. -/
def Store.empty : Store where
  now := 0
  pendings := fun _ => ⟨false, false, false, none⟩
  nextPending := 0
  pendingSave := none
  worker := .idle
  orphans := []
  calls := fun _ => none
  nextCall := 0
  landed := []
  complete := []

/-- How the synchronous write of a cancelled worker ends. -/
inductive Fallback where
  | failed
  | landedOnly
  | written

inductive Op where
  | markDirty (durable wake : Bool)
  | save (durable flush : Bool)
  /-- the worker begins -/
  | start
  /-- its window is over: it detaches the pending object and encodes -/
  | encode (expired ok : Bool)
  /-- its thread moves, or one that it has lost -/
  | thread (move : Move)
  | orphan (i : ℕ) (move : Move)
  /-- it goes on after its thread -/
  | resume
  /-- it is cancelled; a queued thread may be dropped by the executor -/
  | cancelWorker (dropped : Bool) (fallback : Fallback)
  | cancelCaller (i : ℕ)
  | wakeCaller (i : ℕ)

namespace Store

variable (s : Store)

/-- `SESSIONS_WRITE_LOCK` is held. -/
def locked : Bool :=
  s.orphans.any Thread.holds || match s.worker with
    | .writing _ t => t.holds
    | _ => false

def settle (p : ℕ) (error : Option String) : Store :=
  { s with pendings := Function.update s.pendings p { s.pendings p with
      done := true, error := error.orElse fun _ => (s.pendings p).error } }

/-- `mark_dirty`, and the pending object it returns. -/
def markDirty (durable wake : Bool) : ℕ × Store :=
  let worker := if s.worker = .idle then .created else s.worker
  match s.pendingSave with
  | some p => (p, { s with
      worker := worker
      pendings := Function.update s.pendings p { s.pendings p with
        durable := (s.pendings p).durable || durable
        wake := (s.pendings p).wake || (wake || durable) } })
  | none => (s.nextPending, { s with
      worker := worker
      pendingSave := some s.nextPending
      nextPending := s.nextPending + 1
      pendings := Function.update s.pendings s.nextPending ⟨durable, wake || durable, false, none⟩ })

/-- `save` up to its wait; without `flush` and `durable` it only marks. -/
def save (durable flush : Bool) : Store :=
  let marked := s.markDirty durable (flush || durable)
  { marked.2 with
    calls := Function.update marked.2.calls marked.2.nextCall
      (some ⟨marked.1, s.now, durable, false, if flush || durable then .waiting else .marked⟩)
    nextCall := marked.2.nextCall + 1 }

/-- The head of the worker's loop. -/
def nextRound : Worker :=
  match s.pendingSave with
  | none => .idle
  | some p => .waiting p

/-- The worker's turn after its window: marks from here on belong to the next write. -/
def encode (s : Store) (expired ok : Bool) : Store :=
  match s.worker with
  | .waiting p =>
    if (s.pendings p).wake = false ∧ expired = false then s
    else
      let detached := { s with pendingSave := none }
      if ok then { detached with
        worker := .writing p ⟨⟨s.now, (s.pendings p).durable⟩, .queued⟩ }
      else { detached.settle p (some "could not encode the sessions") with worker := .idle }
  | _ => s

/-- A write that is not durable is complete once it has replaced the file. -/
def wrote (t : Thread) (move : Move) : Store :=
  { s with
    landed := if t.phase = .running ∧ move = .land then s.landed ++ [t.write] else s.landed
    complete := if t.phase = .running ∧ move = .land ∧ t.write.durable = false ∨
        t.phase = .landed ∧ move = .finish true ∧ t.write.durable = true then s.complete ++ [t.write]
      else s.complete }

/-- The worker goes on after its thread: the error of a failed write is the object's. -/
def resume : Store :=
  match s.worker with
  | .writing p ⟨_, .finished ok⟩ =>
    let settled := s.settle p (if ok then none else some "failed to persist sessions.json")
    { settled with worker := settled.nextRound }
  | _ => s

/-- The cancelled worker writes what is still pending, on the event loop. -/
def writeLeftover (fallback : Fallback) : Store :=
  match s.pendingSave with
  | none => s
  | some p =>
    let detached := { s with pendingSave := none }
    let write : Write := ⟨s.now, (s.pendings p).durable⟩
    if s.locked = true then detached.settle p (some "sessions.json writer is busy")
    else match fallback with
      | .failed => detached.settle p (some "sessions.json shutdown write failed")
      | .landedOnly => { detached.settle p (some "sessions.json shutdown write failed") with
          landed := s.landed ++ [write] }
      | .written => { detached.settle p none with
          landed := s.landed ++ [write], complete := s.complete ++ [write] }

def orphaned (t : Thread) (dropped : Bool) : List Thread :=
  match t.phase with
  | .finished _ => []
  | .queued => if dropped then [] else [t]
  | _ => [t]

/-- `asyncio.CancelledError` in the worker. Inside the write, its `finally` sets the event first, so the
    branch that would set an error finds it set. -/
def cancelWorker (dropped : Bool) (fallback : Fallback) : Store :=
  match s.worker with
  | .idle => s
  | .created => { s with worker := .idle }
  | .waiting _ => { s with worker := .idle }.writeLeftover fallback
  | .writing p t =>
    let left := { s.settle p none with
      worker := .idle, orphans := s.orphans ++ orphaned t dropped }
    let left := if left.pendingSave ≠ some p ∧ (left.pendings p).done = false then
      left.settle p (some "sessions.json writer cancelled") else left
    left.writeLeftover fallback

/-- A caller finds the event set. -/
def wakeCaller (i : ℕ) : Store :=
  match s.calls i with
  | none => s
  | some c =>
    if (s.pendings c.pending).done = false ∨ c.outcome ≠ .waiting then s
    else
      let outcome := match (s.pendings c.pending).error with
        | some e => Outcome.raised e
        | none => if c.cancelled then .raised "cancelled" else .returned
      { s with calls := Function.update s.calls i (some { c with outcome := outcome }) }

def cancelCaller (i : ℕ) : Store :=
  match s.calls i with
  | none => s
  | some c => { s with calls := Function.update s.calls i (some { c with cancelled := true }) }

def perform : Op → Store
  | .markDirty durable wake => (s.markDirty durable wake).2
  | .save durable flush => s.save durable flush
  | .start => match s.worker with
    | .created => { s with worker := s.nextRound }
    | _ => s
  | .encode expired ok => s.encode expired ok
  | .thread move => match s.worker with
    | .writing p t => { s.wrote t move with
        worker := .writing p (t.move (s.orphans.any Thread.holds) move) }
    | _ => s
  | .orphan i move => match s.orphans[i]? with
    | some t => { s.wrote t move with orphans := s.orphans.set i (t.move s.locked move) }
    | none => s
  | .resume => s.resume
  | .cancelWorker dropped fallback => s.cancelWorker dropped fallback
  | .cancelCaller i => s.cancelCaller i
  | .wakeCaller i => s.wakeCaller i

end Store

def step (s : Store) (op : Op) : Store := { s.perform op with now := s.now + 1 }

end Saves
