import ZenithBot.Lib.Pool

/-! The turn slot of one chat (`agent_server.py`): its entries in `BUSY_SESSIONS`, `CURRENT_TURNS` and
    `ACTIVE`, and what writes them: the admission of a turn with its runner, native Codex controls, and
    Stops.

        turn:     waiting ─▶ locked ─▶ reserved ─▶ starting ─▶ named ─▶ running
                                │          │           └──┬──────┘
                                ▼          ▼              ▼
                              ended ◀── leaving ◀────── failing

        control:  waiting ─▶ locked ─▶ reserved ─▶ bound ─▶ named or reviewing ─▶ running
                                           └─────────┴─── releasing ─▶ leaving ─▶ ended

        stop:     waiting ─▶ observing ─▶ watching ─▶ closing ─▶ ended
                                 ▲  └───▶ prebind ──────┘
                                 └──────────┘

    A step is one section under `ACTIVE_LOCK`, or the taking or leaving of the chat's lifecycle lock.
    Tasks are numbered as they start. The ids a task draws (admission, run, operation, reservation) are
    all its number: they are random and of different forms, so two are equal only if they are the same
    id of one task. -/

namespace Turns
open Lib

variable (c : Chat)

/-- The chat's record in `CURRENT_TURNS`. -/
structure CurrentTurn where
  runId : Option Nat := none
  /-- `_server_restart_admission_id`. -/
  admissionId : Option Nat := none
  /-- The purpose is `codex_native_control`. -/
  nativeControl : Bool := false
  controlReservationId : Option Nat := none
  /-- `provider_cross_chat_route_snapshot`. -/
  routeSnapshot : Option Nat := none
  deriving DecidableEq

/-- The chat's record in `ACTIVE`. -/
structure ActiveTurn where
  /-- The record as an object, which `is` compares. -/
  object : Nat
  runId : Option Nat
  nativeOperation : Bool := false
  controlReservationId : Option Nat := none
  providerThreadId : String := ""
  stopRequested : Bool := false
  nativeInterruptSent : Bool := false
  deriving DecidableEq

/-- The active record is the native operation of that reservation, on that thread if one is named. -/
def ActiveTurn.isControl (a : ActiveTurn) (thread : String) (expected : Nat) : Bool :=
  a.nativeOperation && a.controlReservationId == some expected
    && (thread == "" || a.providerThreadId == thread)

structure Slot where
  busy : Bool := false
  current : Option CurrentTurn := none
  active : Option ActiveTurn := none
  /-- Whose reservation put the entries there: no code reads this. -/
  reservedBy : Option Nat := none
  deriving DecidableEq

namespace Slot
variable (s : Slot)

def activeRunId : Option Nat := s.active.bind (·.runId)

def currentRunId : Option Nat := s.current.bind (·.runId)

def currentAdmissionId : Option Nat := s.current.bind (·.admissionId)

def currentReservationId : Option Nat := s.current.bind (·.controlReservationId)

end Slot

/-- What the sections of one chat read and write. -/
structure Chat where
  slot : Slot := {}
  /-- The chat is in `STOP_REQUESTS`. -/
  stopRequested : Bool := false
  stoppedRuns : List Nat := []
  /-- The chat is in `SERVER_MAINTENANCE_SESSIONS`. -/
  maintenance : Bool := false
  /-- `CODEX_CONTROL_TERMINAL_FENCES`. -/
  terminalFence : Option Nat := none
  /-- Which task holds the chat's lifecycle lock. -/
  lifecycle : Option Nat := none
  /-- The explicit Stop that has not ended, if any: `stop_cleanup_in_progress`. -/
  stopping : Option Nat := none
  started : Nat := 0
  objects : Nat := 0

namespace Chat
variable (c : Chat)

/-! ### The sections that write the slot -/

/-- The four pops that free the slot. -/
def vacate : Chat := { c with slot := {}, stopRequested := false }

/-- The reservation of `_start_turn_locked`. -/
def reserveTurn (n : Nat) : Chat :=
  { c with slot := { c.slot with busy := true, current := some { admissionId := some n }
                                 reservedBy := some n } }

/-- The reservation of `acquire_codex_control_thread`. -/
def reserveControl (n : Nat) : Chat :=
  { c with slot := { c.slot with
      busy := true
      current := some { nativeControl := true, controlReservationId := some n }
      reservedBy := some n } }

/-- What `_start_turn_locked` writes into the record it finds, whoever's it is. -/
def annotate (f : CurrentTurn → CurrentTurn) : Chat :=
  { c with slot := { c.slot with current := c.slot.current.map f } }

/-- What a native control or a Stop writes into the active record it finds. -/
def mark (f : ActiveTurn → ActiveTurn) : Chat :=
  { c with slot := { c.slot with active := c.slot.active.map f } }

/-- The id is neither empty nor the expected one. -/
def conflicts (expected : Nat) (id : Option Nat) : Bool := id.isSome && id != some expected

/-- Whether `release_turn_slot` finds the owner it was told to expect. -/
def ownsSlot (expectedRunId expectedAdmissionId : Option Nat) : Bool :=
  match expectedRunId, expectedAdmissionId with
  | some r, _ =>
    (c.slot.activeRunId == some r || c.slot.currentRunId == some r)
      && !(conflicts r c.slot.activeRunId || conflicts r c.slot.currentRunId)
  | none, some a => c.slot.currentAdmissionId == some a && c.slot.activeRunId.isNone
  -- Without an expectation nothing is compared.
  | none, none => true

def releaseTurnSlot (expectedRunId expectedAdmissionId : Option Nat) : Chat × Bool :=
  if c.ownsSlot expectedRunId expectedAdmissionId then (c.vacate, true) else (c, false)

def bindActiveTurn (r : Nat) (record : ActiveTurn) : Chat × Bool × Bool :=
  if !c.slot.busy || c.slot.currentRunId != some r || conflicts r c.slot.activeRunId then
    (c, false, false)
  else
    let stop := c.stopRequested || c.stoppedRuns.contains r
    ({ c with
        slot := { c.slot with active := some { record with stopRequested := stop } }
        stopRequested := c.stopRequested && !stop
        stoppedRuns := if stop then r :: c.stoppedRuns else c.stoppedRuns
        objects := c.objects + 1 }, true, stop)

def clearActiveProcess (expectedRunId : Nat) : Chat × Bool :=
  if c.slot.activeRunId = some expectedRunId then
    ({ c with slot := { c.slot with active := none } }, true)
  else (c, false)

def ownsReservation (expected : Nat) : Bool :=
  c.slot.busy && c.slot.current.any (·.nativeControl)
    && c.slot.currentReservationId == some expected && c.slot.active.isNone

def bindCodexControlReservation (expected : Nat) (record : ActiveTurn) : Chat × Bool × Bool :=
  if !c.ownsReservation expected then (c, false, false)
  else if c.stopRequested then (c, false, true)
  else
    ({ c with
        slot := { c.slot with
          active := some { record with controlReservationId := some expected } }
        objects := c.objects + 1 }, true, false)

def ownsControlSlot (thread : String) (expected : Nat) (allowPrebind : Bool) : Bool :=
  match c.slot.active with
  | some a => a.isControl thread expected
  | none => allowPrebind && c.slot.current.any (·.nativeControl)
      && c.slot.currentReservationId == some expected

def releaseCodexControlSlot (thread : String) (expected : Nat) (allowPrebind : Bool) : Chat × Bool :=
  if c.ownsControlSlot thread expected allowPrebind then (c.vacate, true) else (c, false)

def ownsOperation (operation : Nat) (thread : String) (reservation : Nat) : Bool :=
  c.slot.busy && !c.maintenance && c.slot.current.isSome
    && c.slot.active.any (·.isControl thread reservation)
    && c.slot.activeRunId == some operation && c.slot.currentReservationId == some reservation

def claimCodexControlTerminalPublication (operation : Nat) (thread : String) (reservation : Nat) :
    Chat × Bool :=
  if c.ownsOperation operation thread reservation then
    ({ c.vacate with maintenance := true, terminalFence := some reservation }, true)
  else (c, false)

def finishCodexControlTerminalPublication (reservation : Nat) : Chat :=
  if c.terminalFence = some reservation then { c with maintenance := false, terminalFence := none }
  else c

/-! ### The lifecycle lock and the Stop fence -/

def unlock (n : Nat) : Chat := if c.lifecycle = some n then { c with lifecycle := none } else c

def stopEnds (n : Nat) : Chat := if c.stopping = some n then { c with stopping := none } else c

end Chat

/-! ### The tasks -/

/-- What befalls a step: it goes through, fails or is cancelled, or which of several sections a task
    that is free to choose enters next. -/
inductive Outcome where
  | proceeds
  | fails
  | cancelled
  | routes (snapshot : Nat)
  | consume
  | thread (id : String)
  | bind (thread : String)
  | clear
  | release
  | claim
  | finish
  | observe (ready interrupts : Bool)
  | interruptFailed
  | deadline
  | unlock
  | maintain (on : Bool)
  deriving DecidableEq

/-- Where the admission of a turn is; `running` stands for its runner and the runner's supervisor. -/
inductive TurnPoint where
  | waiting
  | locked
  | reserved
  | starting
  | named
  /-- The startup failed: the slot is given up by run id if one was drawn. -/
  | failing (runId : Option Nat)
  | leaving
  | running
  | ended
  deriving DecidableEq

/-- `_start_turn_locked` and what its runner does to the slot: `bind_active_turn`,
    `clear_active_process` and the release by run id that `finalize_owned_turn_finished`,
    `reconcile_provider_task_exit` and the fallbacks share, in any order and any number of times. -/
def turnAdvance (n : Nat) : TurnPoint → Outcome → Chat × TurnPoint
  | .waiting, .proceeds =>
    if c.lifecycle = none then ({ c with lifecycle := some n }, .locked) else (c, .waiting)
  | .waiting, .cancelled => (c, .ended)
  | .locked, .proceeds =>
    if c.maintenance || c.slot.busy || c.stopping.isSome then (c, .leaving)
    else (c.reserveTurn n, .reserved)
  | .locked, .fails | .locked, .cancelled => (c, .leaving)
  | .reserved, .proceeds => (c, .starting)
  -- `turn_start_blocker` found a reason not to start.
  | .reserved, .fails => ((c.releaseTurnSlot none (some n)).1, .leaving)
  -- Nothing catches a cancellation here: the reservation stays behind.
  | .reserved, .cancelled => (c, .leaving)
  | .starting, .routes snapshot =>
    (c.annotate fun t => { t with routeSnapshot := some snapshot }, .starting)
  | .starting, .proceeds => (c.annotate fun t => { t with runId := some n }, .named)
  | .starting, .fails => (c, .failing none)
  -- Cancelled after the run id was drawn and before it was written down.
  | .starting, .cancelled => (c, .failing (some n))
  | .named, .proceeds => (c.unlock n, .running)
  | .named, .fails | .named, .cancelled => (c, .failing (some n))
  | .failing (some r), .proceeds => ((c.releaseTurnSlot (some r) none).1, .leaving)
  | .failing none, .proceeds => ((c.releaseTurnSlot none (some n)).1, .leaving)
  | .failing _, .cancelled => (c, .leaving)
  | .leaving, .proceeds => (c.unlock n, .ended)
  | .running, .bind thread =>
    ((c.bindActiveTurn n
        { object := c.objects, runId := some n, providerThreadId := thread }).1, .running)
  | .running, .clear => ((c.clearActiveProcess n).1, .running)
  | .running, .release => ((c.releaseTurnSlot (some n) none).1, .running)
  | p, _ => (c, p)

/-- Where a native control is. -/
inductive ControlPoint where
  | waiting
  | locked
  | reserved
  | bound (thread : String)
  | named (thread : String)
  /-- A review: its consumer is there before its operation is named. -/
  | reviewing (thread : String) (named : Bool)
  | releasing (thread : String) (allowPrebind : Bool)
  | leaving
  | running (thread : String)
  | ended
  deriving DecidableEq

/-- The sections of a control's consumer, in any order and any number of times. -/
def consumer (n : Nat) (thread : String) : Outcome → Chat
  | .release => (c.releaseCodexControlSlot thread n false).1
  | .claim => (c.claimCodexControlTerminalPublication n thread n).1
  | .finish => c.finishCodexControlTerminalPublication n
  | _ => c

/-- `acquire_codex_control_thread`, the endpoint around it and the consumer it starts. The reservation
    asks neither for the Stop fence nor for a queue. -/
def controlAdvance (n : Nat) : ControlPoint → Outcome → Chat × ControlPoint
  | .waiting, .proceeds =>
    if c.lifecycle = none then ({ c with lifecycle := some n }, .locked) else (c, .waiting)
  | .waiting, .cancelled => (c, .ended)
  | .locked, .proceeds =>
    if c.maintenance || c.slot.busy then (c, .leaving) else (c.reserveControl n, .reserved)
  | .locked, .fails | .locked, .cancelled => (c, .leaving)
  | .reserved, .thread id =>
    match c.bindCodexControlReservation n
      { object := c.objects, runId := none, nativeOperation := true, providerThreadId := id } with
    | (c', true, _) => (c', .bound id)
    | (c', false, _) => (c', .releasing id true)
  | .reserved, .fails => (c, .releasing "" true)
  | .reserved, .cancelled => (c, .leaving)
  -- The operation id goes into whatever record is active.
  | .bound id, .proceeds => (c.mark fun a => { a with runId := some n }, .named id)
  | .bound id, .consume => (c, .reviewing id false)
  | .bound id, .fails => (c, .releasing id false)
  | .bound _, .cancelled => (c, .leaving)
  | .named id, .proceeds => (c.unlock n, .running id)
  | .named id, .fails => (c, .releasing id false)
  | .named _, .cancelled => (c, .leaving)
  | .releasing id allowPrebind, .proceeds =>
    ((c.releaseCodexControlSlot id n allowPrebind).1, .leaving)
  | .releasing _ _, .cancelled => (c, .leaving)
  | .leaving, .proceeds => (c.unlock n, .ended)
  | .reviewing id false, .proceeds => (c.mark fun a => { a with runId := some n }, .reviewing id true)
  | .reviewing id true, .proceeds | .reviewing id _, .cancelled => (c.unlock n, .running id)
  | .reviewing id named, o => (consumer c n id o, .reviewing id named)
  | .running id, o => (consumer c n id o, .running id)
  | p, _ => (c, p)

/-- What the first section of `stop_turn` keeps of the slot it found. -/
structure Observed where
  /-- Whose slot that was, and whose it was at the first entry; no code reads these. -/
  (owner first : Option Nat)
  (object activeRunId admissionId controlReservationId : Option Nat)
  threadId : String
  deriving DecidableEq

/-- Where a Stop is. -/
inductive StopPoint where
  | waiting
  /-- About to enter the first section, again if it has found the slot of `first`. -/
  | observing (first : Option Nat)
  | prebind (o : Observed)
  | watching (o : Observed)
  /-- About to call `release_stopping_slot`. -/
  | closing (o : Observed) (expectedRunId : Option Nat) (allowPrebind : Bool)
  | ended
  deriving DecidableEq

def Slot.observed (s : Slot) (first : Option Nat) : Observed where
  owner := s.reservedBy
  first := first.or s.reservedBy
  object := s.active.map (·.object)
  activeRunId := s.activeRunId
  admissionId := s.currentAdmissionId
  controlReservationId := (s.active.bind (·.controlReservationId)).or s.currentReservationId
  threadId := (s.active.map (·.providerThreadId)).getD ""

def Observed.isActive (o : Observed) (s : Slot) : Bool :=
  s.active.isSome && s.active.map (·.object) == o.object

/-- The first section. A forced Stop, made for Force Send, requires that the provider has accepted the
    turn. -/
def observeStop (n : Nat) (forced ready interrupts : Bool) (first : Option Nat) : Chat × StopPoint :=
  match c.slot.active with
  | some a =>
    if forced && !ready then (c.stopEnds n, .ended)
    else
      ({ (c.mark fun a => { a with stopRequested := true
                                   nativeInterruptSent := a.nativeInterruptSent || interrupts })
          with stoppedRuns := a.runId.toList ++ c.stoppedRuns }, .watching (c.slot.observed first))
  | none =>
    if !c.slot.busy || forced then (c.stopEnds n, .ended)
    else ({ c with stopRequested := true }, .prebind (c.slot.observed first))

/-- One round of the wait for a provider that has not been bound. The last one finds the deadline
    passed. -/
def prebindRound (n : Nat) (o : Observed) (last : Bool) : Chat × StopPoint :=
  if c.slot.busy && o.admissionId.isSome && c.slot.currentAdmissionId != o.admissionId then
    -- A successor owns the chat.
    (c.stopEnds n, .ended)
  else if c.slot.active.isSome then (c, .observing o.first)
  else if !c.slot.busy then (c.stopEnds n, .ended)
  else if last then (c, .closing o c.slot.currentRunId true)
  else (c, .prebind o)

def releaseStoppingSlot (o : Observed) (expectedRunId : Option Nat) (allowPrebind : Bool) : Chat :=
  match o.controlReservationId with
  | some id => (c.releaseCodexControlSlot o.threadId id allowPrebind).1
  | none => (c.releaseTurnSlot expectedRunId none).1

/-- `stop_turn`. An explicit Stop raises its fence as it takes the lifecycle lock and keeps it until
    the inner call has ended; the lock itself may go at any time. A forced one only passes when there
    is no such fence. -/
def stopAdvance (n : Nat) (forced : Bool) : StopPoint → Outcome → Chat × StopPoint
  | .ended, .unlock => (c.unlock n, .ended)
  | p, .unlock => (c.unlock n, p)
  | .waiting, .proceeds =>
    if c.lifecycle = none && c.stopping = none then
      ({ c with lifecycle := some n, stopping := if forced then none else some n }, .observing none)
    else (c, .waiting)
  | .waiting, .cancelled => (c, .ended)
  | .observing first, .observe ready interrupts => observeStop c n forced ready interrupts first
  | .prebind o, .proceeds => prebindRound c n o false
  | .prebind o, .deadline => prebindRound c n o true
  | .watching o, .interruptFailed =>
    if o.isActive c.slot then (c.mark fun a => { a with nativeInterruptSent := false }, .watching o)
    else (c, .watching o)
  | .watching o, .proceeds => if o.isActive c.slot then (c, .watching o) else (c.stopEnds n, .ended)
  | .watching o, .deadline => (c, .closing o o.activeRunId false)
  | .closing o expectedRunId allowPrebind, .proceeds =>
    ((releaseStoppingSlot c o expectedRunId allowPrebind).stopEnds n, .ended)
  | .ended, _ => (c, .ended)
  | _, .cancelled => (c.stopEnds n, .ended)
  | p, _ => (c, p)

inductive Task where
  | turn (n : Nat) (p : TurnPoint)
  | control (n : Nat) (p : ControlPoint)
  | stop (n : Nat) (forced : Bool) (p : StopPoint)
  /-- Whoever else reserves the chat for maintenance. -/
  | upkeep (n : Nat)

def advance : Task → Outcome → Chat × Task
  | .turn n p, o => ((turnAdvance c n p o).1, .turn n (turnAdvance c n p o).2)
  | .control n p, o => ((controlAdvance c n p o).1, .control n (controlAdvance c n p o).2)
  | .stop n forced p, o =>
    ((stopAdvance c n forced p o).1, .stop n forced (stopAdvance c n forced p o).2)
  | .upkeep n, .maintain on => ({ c with maintenance := on }, .upkeep n)
  | .upkeep n, _ => (c, .upkeep n)

/-- What can be started for a chat. -/
inductive Request where
  | turn
  | control
  | stop (forced : Bool)
  | upkeep

def Request.task (n : Nat) : Request → Task
  | .turn => .turn n .waiting
  | .control => .control n .waiting
  | .stop forced => .stop n forced .waiting
  | .upkeep => .upkeep n

def start (r : Request) : Chat × Task :=
  ({ c with started := c.started + 1 }, r.task c.started)

abbrev World := Pool Chat Task

abbrev Move := Pool.Move Request Outcome

def World.step (w : World) (m : Move) : World := Pool.step start advance w m

end Turns
