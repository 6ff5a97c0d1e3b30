import ZenithBot.Jobs.Store
import ZenithBot.Lib.Run

/-! The life of one job: the store's operations on it in the order in which the scheduler, the manual
    requests and the users' edits perform them (`_scheduler_loop_until_failure`, `_start_job_run`,
    `_dispatch_pending_manual_run`). Jobs do not read each other and the scheduler takes them one by one, so
    the life of the store is the lives of its jobs, interleaved.

        list ─▶ listed ─▶ considered ─▶ checked ─▶ starting ─▶ idle          admitted
                              │                       └─▶ failing ─▶ idle    refused, then put off,
                              └─▶ idle   blocked                             failed or given up

    Any other operation can come in between. The scheduler's steps name the job's state as it was listed
    (`Due`) or dispatched (`Snapshot`). -/

namespace Jobs
open Lib

/-- What a run is dispatched with. -/
structure Snapshot where
  revision : ℕ
  scheduledRunAt : ℚ

/-- Where the scheduler is with the job. -/
inductive Phase where
  | idle
  | listed (due : Due)
  | considered (due : Due)
  | checked (due : Due)
  | starting (due : Due) (snapshot : Snapshot)
  | failing (due : Due) (snapshot : Snapshot)

/-- A manual run on its way: the claim `_manual_runs_in_flight`, then the dispatch. -/
inductive ManualRun where
  | none
  | claimed
  | starting (snapshot : Snapshot)

/-- A job of the store with what is under way for it; `fresh` is the next revision to draw. -/
structure Life where
  job : Job
  fresh : ℕ
  scheduler : Phase
  manual : ManualRun

inductive Event where
  /-- an edit by a user or an agent -/
  | edit (archived : Bool) (admits : Except HttpError Unit) (patch : Patch) (t : Readings)
  /-- the chat is archived -/
  | pauseForSession
  /-- the scheduler lists the job, takes its turn, finds a blocker, or checks and dispatches it -/
  | list (now : Reading)
  | consider
  | blocked (scheduleId : Option String) (now : Reading)
  | check (now : Reading)
  | snapshot (now : Reading)
  /-- the dispatch is admitted or refused -/
  | admitted (now : Reading)
  | refused
  /-- what follows a refusal -/
  | giveUp
  | repair
  | unavailable (now : Reading)
  | postpone (scheduleId : Option String) (now : Reading)
  | fail (now : Reading)
  /-- manual runs -/
  | requestManualRun
  | claim
  | manualSnapshot (now : Reading)
  | manualAdmitted (now : Reading)
  | manualRefused
  | manualDeferred
  | manualFailed
  | manualRepair
  /-- a pending server update ends -/
  | resumeUpdateParked (scheduleId activeScheduleId : Option String) (now : Reading)
  /-- any other call of `mark_ran`, as after a restart -/
  | markRan (a : Admission) (now : Reading)

/-! ### The scheduler's decisions -/

def Job.isDue (job : Job) (now : Reading) : Prop :=
  job.enabled = true ∧ truthy job.nextRunAt ∧ ∃ t ∈ job.nextRunAt, t ≤ now.1

instance (job : Job) (now : Reading) : Decidable (job.isDue now) :=
  inferInstanceAs (Decidable (_ ∧ _ ∧ _))

def Job.listed (job : Job) (now : Reading) : Phase :=
  if job.manualRunPending = true ∨ job.isDue now then
    .listed ⟨job.revision,
      if job.manualRunPending = false ∧ job.enabled = true ∧ truthy job.nextRunAt then job.nextRunAt
      else none⟩
  else .idle

/-- The check before a dispatch: the job is as it was listed, and due. -/
def Job.dispatches (job : Job) (due : Due) (now : Reading) : Prop :=
  job.revision = due.revision ∧ job.manualRunPending = false ∧
    (∀ t ∈ due.nextRunAt, job.nextRunAt.getD 0 = t) ∧ job.isDue now

instance (job : Job) (due : Due) (now : Reading) : Decidable (job.dispatches due now) :=
  inferInstanceAs (Decidable (_ ∧ _ ∧ _ ∧ _))

/-- The arguments with which `_start_job_run` calls `mark_ran`. -/
def Snapshot.admission (snapshot : Snapshot) (manual : Bool) : Admission :=
  ⟨manual, some snapshot.revision, some snapshot.scheduledRunAt, false⟩

/-! ### Steps -/

section
variable (cal : Calendar) (limits : Limits)

/-- The operation on the job that an event performs, with the revision it draws. -/
def Life.jobAfter (s : Life) : Event → Job
  | .edit archived admits patch t =>
    match s.job.update cal archived admits patch t s.fresh with
    | .ok job => job
    | .error _ => s.job
  | .pauseForSession => s.job.pauseForSession s.fresh
  | .blocked scheduleId now =>
    match s.scheduler with
    | .considered due => s.job.defer limits due scheduleId now s.fresh
    | _ => s.job
  | .admitted now =>
    match s.scheduler with
    | .starting _ snapshot => (s.job.markRan cal (snapshot.admission false) now s.fresh).1
    | _ => s.job
  | .repair =>
    match s.scheduler with
    | .failing _ snapshot => s.job.pauseForChatReferenceRepair snapshot.revision s.fresh
    | _ => s.job
  | .unavailable now =>
    match s.scheduler with
    | .failing due _ =>
      if due.nextRunAt = none then s.job else (s.job.deferRuntimeUnavailable limits due now s.fresh).2
    | _ => s.job
  | .postpone scheduleId now =>
    match s.scheduler with
    | .failing due _ => s.job.defer limits due scheduleId now s.fresh
    | _ => s.job
  | .fail now =>
    match s.scheduler with
    | .failing due _ => if s.job.revision = due.revision then s.job.failed cal now else s.job
    | _ => s.job
  | .requestManualRun => s.job.requestManualRun s.fresh
  | .manualAdmitted now =>
    match s.manual with
    | .starting snapshot => (s.job.markRan cal (snapshot.admission true) now s.fresh).1
    | _ => s.job
  | .manualDeferred => s.job.recordManualRunDeferred s.fresh
  | .manualFailed => s.job.clearFailedManualRun s.fresh
  | .manualRepair =>
    match s.manual with
    | .starting snapshot => s.job.pauseForChatReferenceRepair snapshot.revision s.fresh
    | _ => s.job
  | .resumeUpdateParked scheduleId activeScheduleId now =>
    s.job.resumeUpdateParked scheduleId activeScheduleId now s.fresh
  | .markRan a now => (s.job.markRan cal a now s.fresh).1
  | .list _ | .consider | .check _ | .snapshot _ | .refused | .giveUp | .claim
  | .manualSnapshot _ | .manualRefused => s.job

def Life.schedulerAfter (s : Life) (e : Event) : Phase :=
  match e, s.scheduler with
  | .list now, .idle => s.job.listed now
  | .consider, .listed due => if s.job.manualRunPending then .idle else .considered due
  | .blocked _ _, .considered _ => .idle
  | .check now, .considered due => if s.job.dispatches due now then .checked due else .idle
  | .snapshot now, .checked due => .starting due ⟨s.job.revision, s.job.occurrence now⟩
  | .admitted now, .starting due snapshot =>
    if (s.job.markRan cal (snapshot.admission false) now s.fresh).2 = none then .idle
    else .failing due snapshot
  | .refused, .starting due snapshot => .failing due snapshot
  | .unavailable now, .failing due snapshot =>
    if due.nextRunAt = none ∨ (s.job.deferRuntimeUnavailable limits due now s.fresh).1 = .exhausted then
      .failing due snapshot
    else .idle
  | .giveUp, .failing _ _ => .idle
  | .repair, .failing _ _ => .idle
  | .postpone _ _, .failing _ _ => .idle
  | .fail _, .failing _ _ => .idle
  | _, phase => phase

def Life.manualAfter (s : Life) (e : Event) : ManualRun :=
  match e, s.manual with
  | .claim, .none => if s.job.manualRunPending then .claimed else .none
  | .manualSnapshot now, .claimed => .starting ⟨s.job.revision, now.1⟩
  | .manualAdmitted _, .starting _ => .none
  | .manualRepair, .starting _ => .none
  | .manualRefused, _ => .none
  | _, manual => manual

def step (s : Life) (e : Event) : Life :=
  { job := s.jobAfter cal limits e
    fresh := s.fresh + 1
    scheduler := s.schedulerAfter cal limits e
    manual := s.manualAfter e }

end

/-- A job as it is created: nothing is under way. -/
def Life.born (job : Job) : Life := ⟨job, job.revision + 1, .idle, .none⟩

end Jobs
