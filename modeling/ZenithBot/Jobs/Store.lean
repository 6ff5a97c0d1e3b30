import ZenithBot.Jobs.Schedule

/-! What the job store does to one job (`JobStore` in `agent_server.py`). Every operation runs under the
    store's lock, so each is a function of the job; a clock reading and the revision it draws are its
    arguments. An edit takes a copy and stores it whole or not at all. The others write the stored job
    itself, so that one which raises half way leaves what it has written: `mark_ran` raises when the
    next occurrence cannot be computed, after the run is counted. -/

namespace Jobs
open Lib

variable (job : Job) (cal : Calendar)

/-! ### Small writes -/

/-- The job has no occurrence any more. -/
def Job.ended : Job :=
  { job with enabled := false, nextRunAt := none, scheduledRunAt := none }

/-- An enabled job moves to an occurrence; without one it ends. -/
def Job.movedTo (next : Option ℚ) : Job :=
  { job with nextRunAt := next, scheduledRunAt := next, enabled := next.isSome }

/-- `clear_job_runtime_unavailable_deferral` and `clear_job_update_park`. -/
def Job.cleared : Job := { job with unavailable := none, park := none }

/-- `job["_revision"] = new_job_revision()`. -/
def Job.revised (revision : ℕ) : Job := { job with revision := revision }

def Job.limitReached : Prop := ∃ m ∈ job.maxRuns, m ≤ job.runCount

instance (job : Job) : Decidable job.limitReached :=
  inferInstanceAs (Decidable (∃ m ∈ job.maxRuns, m ≤ job.runCount))

/-- Whether another occurrence follows a run. -/
def Job.recurring : Prop :=
  job.kind ≠ .interval ∨ job.loop = true ∨
    (job.intervalSeconds ≠ none ∧ ∃ m ∈ job.maxRuns, job.runCount < m)

instance (job : Job) : Decidable job.recurring := inferInstanceAs (Decidable (_ ∨ _ ∨ _))

/-! ### Edits -/

/-- The fields of an edit that concern the schedule. Where the source asks whether a key is in the
    patch, the outer option is that. -/
structure Patch where
  scheduleKind : Option String := none
  intervalSeconds : Option (Option ℤ) := none
  cronExpression : Option (Option String) := none
  rrule : Option (Option String) := none
  timezone : Option String := none
  nextRunAt : Option (Option String) := none
  loop : Option (Option Bool) := none
  maxRuns : Option (Option ℤ) := none
  enabled : Option Bool := none

/-- Clients that only know intervals send interval fields with every edit; a calendar schedule is not
    changed by them (`legacy_interval_patch`). -/
def Patch.modern (p : Patch) (current : ScheduleKind) : Patch :=
  if current ≠ .interval ∧ supplied p.scheduleKind = false ∧ p.intervalSeconds.join ≠ none ∧
      supplied p.cronExpression.join = false ∧ supplied p.rrule.join = false then
    { p with intervalSeconds := none, loop := none, maxRuns := none }
  else p

/-- The kind of the schedule after the edit. -/
def Patch.nextKind (p : Patch) (current : ScheduleKind) : Except HttpError ScheduleKind := do
  let kinds := suppliedKinds p.intervalSeconds.join p.cronExpression.join p.rrule.join
  refuseIf (1 < kinds.length) ⟨400, "choose only one schedule expression"⟩
  let requested ← explicitKind p.scheduleKind
  refuseIf (∃ kind ∈ requested, ∃ first ∈ kinds.head?, kind ≠ first)
    ⟨400, "schedule fields conflict with schedule_kind"⟩
  return requested.getD (kinds.headD current)

/-- The clock readings of one edit, in the order of the source. -/
structure Readings where
  (comparison ruleStart ruleAnchor schedule fallback reference : Reading)

/-- Whether the expression the patch supplies for the kind is another one than the job's. -/
def expressionChanged (p : Patch) (job : Job) (kind : ScheduleKind)
    (timezone : String) (t : Readings) : Except HttpError Bool :=
  match kind with
  | .interval =>
    if p.intervalSeconds.join = none then .ok false
    else (normalizeIntervalSeconds p.intervalSeconds.join).map fun i => decide (i ≠ job.intervalSeconds)
  | .cron =>
    if supplied p.cronExpression.join = false then .ok false
    else (cal.normalizeCronExpression (p.cronExpression.join.getD "") job.id).map fun e =>
      decide (some e ≠ job.cronExpression)
  | .rrule =>
    if supplied p.rrule.join = false then .ok false
    else (cal.normalizeRruleExpression (p.rrule.join.getD "") timezone
      ((pyOr job.scheduleStartAt (some t.comparison.1)).getD 0)).map fun e => decide (some e ≠ job.rrule)

/-- `max_runs` of an interval job after the edit, `loop` being already set. -/
def intervalMaxRuns (p : Patch) (job : Job) (loop : Bool) : Option ℤ :=
  match p.maxRuns with
  | some maxRuns => if loop then none else (maxRuns.map (max 1)).orElse fun _ => job.maxRuns
  | none =>
    if p.loop ≠ none ∧ loop = true then none
    else if (job.kind ≠ .interval ∨ p.loop ≠ none) ∧ loop = false then
      let kept := job.maxRuns.getD 1
      some (max (job.runCount + 1) (if kept = 0 then 1 else kept))
    else job.maxRuns

def calendarMaxRuns (p : Patch) (job : Job) : Option ℤ :=
  match p.maxRuns with
  | some maxRuns => maxRuns.map (max 1)
  | none => job.maxRuns

/-- The schedule of the edited job, but for its anchor. -/
def plan (p : Patch) (job : Job) (timezone : String) (t : Readings) :
    ScheduleKind → Except HttpError Plan
  | .interval => do
    let intervalSeconds ← normalizeIntervalSeconds (p.intervalSeconds.getD job.intervalSeconds)
    let loop := (p.loop.join).getD (decide (job.kind = .interval) && job.loop)
    return { job.toPlan with
      kind := .interval, timezone := timezone, intervalSeconds := intervalSeconds,
      cronExpression := none, rrule := none, loop := loop, maxRuns := intervalMaxRuns p job loop }
  | .cron => do
    let expression ← cal.normalizeCronExpression
      ((p.cronExpression.getD job.cronExpression).getD "") job.id
    return { job.toPlan with
      kind := .cron, timezone := timezone, intervalSeconds := none,
      cronExpression := some expression, rrule := none, loop := true,
      maxRuns := calendarMaxRuns p job }
  | .rrule => do
    let start : ℚ := if job.kind ≠ .rrule then t.ruleStart.1 else job.scheduleStartAt.getD t.ruleStart.1
    let expression ← cal.normalizeRruleExpression ((p.rrule.getD job.rrule).getD "") timezone
      ((pyOr (some start) (some t.ruleAnchor.1)).getD 0)
    return { job.toPlan with
      kind := .rrule, timezone := timezone, intervalSeconds := none, cronExpression := none,
      rrule := some expression, scheduleStartAt := some start, loop := true,
      maxRuns := calendarMaxRuns p job }

/-- The anchor of the edited schedule `plan`; `exact` is an explicit next run. -/
def Plan.reanchored (plan : Plan) (job : Job) (changed : Bool) (exact : Option (Option ℚ))
    (t : Readings) : Plan :=
  let start : Option ℚ :=
    if changed then
      match plan.kind with
      | .interval => some ((plan.intervalSeconds.map fun i : ℤ => t.schedule.1 + i).getD t.schedule.1)
      | .rrule => some ⌈t.schedule.1⌉
      | .cron => some t.schedule.1
    else plan.scheduleStartAt.orElse fun _ =>
      pyOr job.scheduledRunAt (pyOr job.nextRunAt (some t.fallback.1))
  { plan with
    -- the selected next run of an interval schedule is its new anchor
    scheduleStartAt := if plan.kind = .interval then exact.getD start else start }

/-- The occurrence of the edited job, which carries its new schedule already. -/
def Job.rescheduled (p : Patch) (wasEnabled changed : Bool)
    (exact : Option (Option ℚ)) (t : Readings) (job : Job) : Except HttpError Job :=
  if job.enabled = false then .ok job.ended
  else match exact with
    | some next => .ok { job with nextRunAt := next, scheduledRunAt := next }
    | none =>
      if p.nextRunAt ≠ none ∨ changed = true ∨ p.enabled = some true ∨ ¬ truthy job.nextRunAt then
        let restarts := decide (job.kind = .interval) && decide (p.enabled = some true) && !wasEnabled
        let start : Option ℚ :=
          if restarts then
            (job.intervalSeconds.map fun i : ℤ => t.reference.1 + i).orElse fun _ => job.scheduleStartAt
          else job.scheduleStartAt
        let job := { job with scheduleStartAt := start }
        (nextJobOccurrence cal job t.reference.1 false).map job.movedTo
      else .ok job

/-- `parse_job_timestamp` of an explicit next run: none if the patch has none. -/
def Patch.exactNextRun (p : Patch) (timezone : String) : Except HttpError (Option (Option ℚ)) :=
  match p.nextRunAt.join with
  | none => .ok none
  | some text => (parseJobTimestamp cal (some text) timezone).map some

/-- `JobStore.update` of the job found; `archived` says whether its chat is, `admits` is the checks of
    the text, the saved targets, the references, the backend and the context mode. -/
def Job.update (archived : Bool) (admits : Except HttpError Unit) (p : Patch)
    (t : Readings) (revision : ℕ) (job : Job) : Except HttpError Job := do
  admits
  refuseIf (archived = true ∧ p.enabled = some true)
    ⟨409, "unarchive this chat before enabling scheduled jobs"⟩
  let p := (if archived then { p with enabled := some false } else p).modern job.kind
  let kind ← p.nextKind job.kind
  let timezone ← cal.normalizeJobTimezone (p.timezone.getD job.timezone)
  -- each part is only looked at where those before it have found no change
  let moved ← (if kind ≠ job.kind then .ok true
    else (cal.normalizeJobTimezone job.timezone).map fun before => decide (timezone ≠ before) :
      Except HttpError Bool)
  let changed ← (if moved then .ok true else expressionChanged cal p job kind timezone t :
    Except HttpError Bool)
  let exact ← p.exactNextRun cal timezone
  let plan ← plan cal p job timezone t kind
  let edited := { job with toPlan := plan.reanchored job changed exact t }
  let enabled := p.enabled.getD job.enabled && !decide edited.limitReached
  let edited ← Job.rescheduled cal p job.enabled changed exact t { edited with enabled := enabled }
  return edited.cleared.revised revision

/-! ### Runs -/

/-- The arguments of `mark_ran`. -/
structure Admission where
  manual : Bool
  expectedRevision : Option ℕ
  scheduledRunAt : Option ℚ
  requireExactMatch : Bool

/-- The occurrence of a job at the moment of a run. -/
def Job.occurrence (now : Reading) : ℚ :=
  (pyOr job.scheduledRunAt (pyOr job.nextRunAt (some now.1))).getD now.1

/-- The occurrence a run is compared with. -/
def Job.current : Option ℚ := job.scheduledRunAt.orElse fun _ => job.nextRunAt

/-- The job with the run counted. -/
def Job.counted (manual : Bool) : Job :=
  { job with
    manualRunPending := job.manualRunPending && !manual
    runCount := job.runCount + 1 }

/-- `JobStore.mark_ran` of the job found: the job afterwards and what it raised. -/
def Job.markRan (a : Admission) (completedAt : Reading) (revision : ℕ)
    (job : Job) : Job × Option HttpError :=
  let admitted := a.scheduledRunAt.getD (job.occurrence completedAt)
  let sameRevision := decide (∀ r ∈ a.expectedRevision, job.revision = r)
  let sameOccurrence := decide (job.current = some admitted)
  if a.requireExactMatch = true ∧ (sameRevision = false ∨
      (a.manual = true ∧ job.manualRunPending = false) ∨
      (a.manual = false ∧ sameOccurrence = false)) then (job, none)
  else
    let advance := sameRevision || sameOccurrence
    let next := job.counted a.manual
    if a.manual = true ∧ next.enabled = true ∧ next.recurring ∧ ¬ next.limitReached ∧
        ∃ current ∈ job.current, completedAt.1 < current then
      -- a manual run before the next occurrence is additive
      (next.cleared.revised revision, none)
    else if advance = true ∧ next.enabled = true ∧ next.recurring ∧ ¬ next.limitReached then
      match nextJobOccurrence cal next (max admitted completedAt.1) false with
      | .error e => (next, some e)
      | .ok occurrence => ((next.movedTo occurrence).cleared.revised revision, none)
    else if next.limitReached ∨
        (advance = true ∧ (next.enabled = false ∨ ¬ next.recurring)) then
      (next.ended.cleared.revised revision, none)
    else (next.cleared.revised revision, none)

/-- The end of the scheduler's failure path. It draws no revision. -/
def Job.failed (failedAt : Reading) (job : Job) : Job :=
  if job.enabled = true ∧ job.recurring ∧ ¬ job.limitReached then
    match nextJobOccurrence cal job (max (job.occurrence failedAt) failedAt.1) false with
    | .error _ => job
    | .ok occurrence => (job.movedTo occurrence).cleared
  else job.ended.cleared

/-! ### Deferrals -/

/-- What the scheduler knows of a job it found due. -/
structure Due where
  revision : ℕ
  nextRunAt : Option ℚ

/-- The seconds a deferral waits, and how many an unavailable runtime is granted. -/
structure Limits where
  busyRetrySeconds : ℤ := 60
  runtimeUnavailableMaxDefers : ℕ := 3

/-- The moment of the next attempt. -/
def Limits.retryAt (limits : Limits) (now : Reading) : ℚ := now.1 + max limits.busyRetrySeconds 5

/-- The compare-and-set of a deferral. -/
def Job.stillDue (due : Due) : Prop :=
  job.enabled = true ∧ job.revision = due.revision ∧ ∀ t ∈ due.nextRunAt, job.nextRunAt = some t

instance (job : Job) (due : Due) : Decidable (job.stillDue due) :=
  inferInstanceAs (Decidable (_ ∧ _ ∧ _))

/-- The original `next_run_at` of a park: kept by a second park for the same update. -/
def Job.originalNextRunAt (job : Job) (scheduleId : String) : Option ℚ :=
  match job.park with
  | some park => if park.scheduleId = scheduleId then some park.originalNextRunAt else job.nextRunAt
  | none => job.nextRunAt

/-- `JobStore.defer`, as the scheduler calls it; `scheduleId` parks the occurrence for the pending
    server update of that id. A park without an occurrence raises. -/
def Job.defer (limits : Limits) (due : Due) (scheduleId : Option String) (now : Reading)
    (revision : ℕ) (job : Job) : Job :=
  if ¬ job.stillDue due then job
  else match scheduleId with
    | none => { job with nextRunAt := some (limits.retryAt now), park := none, revision := revision }
    | some sid =>
      match job.scheduledRunAt.orElse fun _ => due.nextRunAt, job.originalNextRunAt sid with
      | some occurrence, some original =>
        { job with
          nextRunAt := some (limits.retryAt now)
          revision := revision
          park := some ⟨sid, occurrence, original, revision⟩ }
      | _, _ => job

def Job.resumeUpdateParked (scheduleId activeScheduleId : Option String) (now : Reading)
    (revision : ℕ) (job : Job) : Job :=
  match job.park with
  | none => job
  | some park =>
    let parked := Py.strip park.scheduleId
    if parked = "" ∨ (∃ s ∈ scheduleId, parked ≠ s) ∨ (∃ s ∈ activeScheduleId, parked = s) then job
    else
      let exact := decide (job.revision = park.revision) && job.enabled &&
        decide (job.scheduledRunAt = some park.occurrence)
      { job with
        park := none
        nextRunAt := if exact then some (min park.originalNextRunAt now.1) else job.nextRunAt
        revision := revision }

/-- How an attempt to put off an unavailable runtime ends. -/
inductive Deferral where | deferred | exhausted | stale
  deriving DecidableEq

/-- How often the occurrence has been put off for an unavailable runtime. -/
def Job.deferCount (limits : Limits) (job : Job) (occurrence : ℚ) : ℕ :=
  match job.unavailable with
  | some u => if u.occurrence = occurrence then min u.deferCount limits.runtimeUnavailableMaxDefers else 0
  | none => 0

def Job.deferRuntimeUnavailable (limits : Limits) (due : Due) (now : Reading) (revision : ℕ)
    (job : Job) : Deferral × Job :=
  if ¬ job.stillDue due then (.stale, job)
  else match job.scheduledRunAt.orElse fun _ => due.nextRunAt with
    | none => (.stale, job)
    | some occurrence =>
      if limits.runtimeUnavailableMaxDefers ≤ job.deferCount limits occurrence then (.exhausted, job)
      else (.deferred, { job with
        park := none
        unavailable := some ⟨occurrence, job.deferCount limits occurrence + 1⟩
        nextRunAt := some (limits.retryAt now)
        revision := revision })

/-! ### Pauses and manual requests -/

def Job.pauseForSession (revision : ℕ) (job : Job) : Job :=
  if job.enabled = false ∧ job.manualRunPending = false then job
  else { job.ended.cleared with manualRunPending := false, revision := revision }

def Job.pauseForChatReferenceRepair (expectedRevision revision : ℕ) (job : Job) : Job :=
  if job.revision ≠ expectedRevision then job
  else { job.ended.cleared with manualRunPending := false, revision := revision }

/-- The store part of `JobStore.request_manual_run`. -/
def Job.requestManualRun (revision : ℕ) (job : Job) : Job :=
  if job.manualRunPending then job
  else { job with manualRunPending := true, revision := revision }

/-- `JobStore._record_manual_run_deferred`, when the reason is another one than the last. -/
def Job.recordManualRunDeferred (revision : ℕ) (job : Job) : Job :=
  if job.manualRunPending then job.revised revision else job

def Job.clearFailedManualRun (revision : ℕ) (job : Job) : Job :=
  if job.manualRunPending then { job with manualRunPending := false, revision := revision } else job

end Jobs
