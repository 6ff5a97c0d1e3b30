import Mathlib.Data.Rat.Floor
import ZenithBot.Lib.Guard
import ZenithBot.PyText

/-! Scheduled jobs and their occurrences (`agent_server.py`). A job keeps two times: `scheduled_run_at`
    is the occurrence it is at, `next_run_at` the moment to try it. They are set together and part when
    a run is put off. The next occurrence is computed from the anchor `schedule_start_at`, never from
    the time a run ended:

        interval   anchor, anchor + i, anchor + 2i, …          the first one after `after`
        cron       what `croniter` yields after `after`
        rrule      what `dateutil` yields from the anchor; with COUNT=n the first n that exist

    Times are rationals, seconds since the epoch; a time of zero is false, as in the source. -/

namespace Jobs
open Lib

variable (cal : Calendar)

/-- A reading of `time.time()`. -/
abbrev Reading : Type := { t : ℚ // 0 < t }

structure HttpError where
  statusCode : Nat
  detail : String

/-- `a or b` of optional times. -/
def pyOr (a b : Option ℚ) : Option ℚ :=
  match a with
  | none => b
  | some t => if t = 0 then b else some t

/-- `if t:` of an optional time. -/
def truthy (t : Option ℚ) : Prop := ∃ x ∈ t, x ≠ 0

instance (t : Option ℚ) : Decidable (truthy t) :=
  inferInstanceAs (Decidable (∃ x ∈ t, x ≠ 0))

/-! ### Jobs -/

inductive ScheduleKind where | interval | cron | rrule
  deriving DecidableEq

/-- What an edit can change of a job's schedule. -/
structure Plan where
  id : String
  kind : ScheduleKind
  intervalSeconds : Option ℤ
  (cronExpression rrule : Option String)
  timezone : String
  scheduleStartAt : Option ℚ
  loop : Bool
  maxRuns : Option ℤ

/-- The fields `_update_park_…`. -/
structure Park where
  scheduleId : String
  (occurrence originalNextRunAt : ℚ)
  revision : ℕ
  deriving DecidableEq

/-- The fields `_runtime_unavailable_…`. -/
structure Unavailable where
  occurrence : ℚ
  deferCount : ℕ

/-- A job of the store. -/
structure Job extends Plan where
  (scheduledRunAt nextRunAt : Option ℚ)
  enabled : Bool
  runCount : ℤ
  manualRunPending : Bool
  revision : ℕ
  park : Option Park
  unavailable : Option Unavailable

/-! ### Occurrences -/

/-- A local time that a rule yields. -/
structure Candidate where
  (fold datetimeExists : Bool)
  timestamp : ℚ

/-- What is asked of the calendar libraries (`zoneinfo`, `croniter`, `dateutil`): normal forms of names
    and expressions, the next time of a cron expression and of a rule without COUNT, and for a rule with
    COUNT=n the local times its recurrence yields, in order. -/
structure Calendar where
  normalizeJobTimezone : String → Except HttpError String
  /-- a text that is not blank, in a timezone -/
  parseTimestamp : String → String → Except HttpError ℚ
  /-- an expression, for a job -/
  normalizeCronExpression : String → String → Except HttpError String
  /-- an expression, in a timezone, from an anchor -/
  normalizeRruleExpression : String → String → ℚ → Except HttpError String
  /-- expression, job, timezone, anchor, after, inclusive -/
  nextCron : String → String → String → ℚ → ℚ → Bool → Except HttpError (Option ℚ)
  count : String → Option ℕ
  /-- expression, timezone, anchor -/
  times : String → String → ℚ → ℕ → Option Candidate
  /-- expression, timezone, anchor, after, inclusive -/
  nextRule : String → String → ℚ → ℚ → Bool → Except HttpError (Option ℚ)

/-- `timestamp > after or (inclusive and timestamp >= after)`. -/
def later (timestamp after : ℚ) (inclusive : Bool) : Prop :=
  after < timestamp ∨ (inclusive = true ∧ after ≤ timestamp)

instance (timestamp after : ℚ) (inclusive : Bool) : Decidable (later timestamp after inclusive) :=
  inferInstanceAs (Decidable (_ ∨ _))

/-- The interval branch of `next_job_occurrence`. -/
def nextInterval (anchor : ℚ) (intervalSeconds : Option ℤ) (after : ℚ) (inclusive : Bool) : Option ℚ :=
  let interval := intervalSeconds.getD 0
  if interval = 0 then if later anchor after inclusive then some anchor else none
  else if interval < 0 then none
  else if later anchor after inclusive then some anchor
  else
    let elapsed := max 0 (after - anchor)
    let steps := ⌊elapsed / interval⌋
    let candidate := anchor + steps * interval
    if candidate < after ∨ (inclusive = false ∧ candidate ≤ after) then some (candidate + interval)
    else some candidate

def maxRruleScan : ℕ := 20000

/-- A candidate that is not skipped: its local time exists and is not the second of its name. -/
def Candidate.valid (c : Candidate) : Prop := ¬ (c.fold = true ∨ c.datetimeExists = false)

instance (c : Candidate) : Decidable c.valid := inferInstanceAs (Decidable (¬ _))

/-- The loop over a rule with COUNT: `fuel` rounds are left, `seen` valid candidates have passed. -/
def scanCounted (times : ℕ → Option Candidate) (countLimit : ℕ) (after : ℚ) (inclusive : Bool) :
    (fuel iteration seen : ℕ) → Option ℚ
  | 0, _, _ => none
  | fuel + 1, iteration, seen =>
    match times iteration with
    | none => none
    | some candidate =>
      if candidate.valid then
        if countLimit < seen + 1 then none
        else if later candidate.timestamp after inclusive then some candidate.timestamp
        else scanCounted times countLimit after inclusive fuel (iteration + 1) (seen + 1)
      else scanCounted times countLimit after inclusive fuel (iteration + 1) seen

/-- The anchor: `schedule_start_at`, else `scheduled_run_at`, else `next_run_at`. -/
def Job.anchor (job : Job) : Option ℚ :=
  (job.scheduleStartAt.orElse fun _ => job.scheduledRunAt).orElse fun _ => job.nextRunAt

def nextJobOccurrence (job : Job) (after : ℚ) (inclusive : Bool) : Except HttpError (Option ℚ) :=
  match job.kind with
  | .interval => .ok (job.anchor.bind fun anchor =>
      nextInterval anchor job.intervalSeconds after inclusive)
  | .cron => do
    let timezone ← cal.normalizeJobTimezone job.timezone
    let anchor := job.anchor.getD after
    let expression ← cal.normalizeCronExpression (job.cronExpression.getD "") job.id
    cal.nextCron expression job.id timezone anchor (max after anchor) inclusive
  | .rrule => do
    let timezone ← cal.normalizeJobTimezone job.timezone
    let anchor := job.anchor.getD after
    let expression ← cal.normalizeRruleExpression (job.rrule.getD "") timezone anchor
    match cal.count expression with
    | some countLimit =>
      .ok (scanCounted (cal.times expression timezone anchor) countLimit after inclusive
        maxRruleScan 0 0)
    | none => cal.nextRule expression timezone anchor after inclusive

/-! ### Checks of a request -/

def maxJobIntervalSeconds : ℤ := 10 * 366 * 24 * 60 * 60

def normalizeIntervalSeconds : Option ℤ → Except HttpError (Option ℤ)
  | none => .ok none
  | some interval => do
    refuseIf (interval ≤ 0) ⟨400, "interval_seconds must be a positive integer"⟩
    refuseIf (maxJobIntervalSeconds < interval)
      ⟨400, "interval_seconds must be at most " ++ toString maxJobIntervalSeconds⟩
    return some interval

def parseJobTimestamp (value : Option String) (timezone : String) : Except HttpError (Option ℚ) :=
  match value with
  | none => .ok none
  | some text => if Py.blank text then .ok none else (cal.parseTimestamp text timezone).map some

def ScheduleKind.text : ScheduleKind → String
  | .interval => "interval"
  | .cron => "cron"
  | .rrule => "rrule"

/-- `VALID_JOB_SCHEDULE_KINDS`, by name. -/
def ScheduleKind.ofText (text : String) : Option ScheduleKind :=
  [ScheduleKind.interval, .cron, .rrule].find? fun kind => kind.text = text

/-- A `schedule_kind` of a request; a blank one is none. -/
def explicitKind (scheduleKind : Option String) : Except HttpError (Option ScheduleKind) :=
  let explicit := String.ofList ((Py.strip (scheduleKind.getD "")).toList.map Char.toLower)
  if explicit = "" then .ok none
  else match ScheduleKind.ofText explicit with
    | some kind => .ok (some kind)
    | none => .error ⟨400, "schedule_kind must be one of ['cron', 'interval', 'rrule']"⟩

/-- `str(value or "").strip()` is not empty. -/
def supplied (value : Option String) : Bool := value.any fun text => !Py.blank text

/-- The schedule kinds whose expression a request names. -/
def suppliedKinds (intervalSeconds : Option ℤ) (cronExpression rrule : Option String) :
    List ScheduleKind :=
  (if intervalSeconds.isSome then [.interval] else []) ++
    (if supplied cronExpression then [.cron] else []) ++ (if supplied rrule then [.rrule] else [])

def requestedJobScheduleKind (scheduleKind : Option String) (intervalSeconds : Option ℤ)
    (cronExpression rrule : Option String) : Except HttpError ScheduleKind := do
  let explicit ← explicitKind scheduleKind
  let kinds := suppliedKinds intervalSeconds cronExpression rrule
  refuseIf (1 < kinds.length)
    ⟨400, "choose only one of interval_seconds, cron_expression, or rrule"⟩
  let inferred := kinds.headD .interval
  refuseIf (kinds ≠ [] ∧ ∃ kind ∈ explicit, kind ≠ inferred)
    ⟨400, inferred.text ++ " schedule fields conflict with schedule_kind=" ++
      (explicit.map ScheduleKind.text).getD ""⟩
  return explicit.getD inferred

/-! ### Creation -/

/-- The fields of a `CreateJobRequest` that make the schedule. -/
structure CreateRequest where
  scheduleKind : Option String := none
  intervalSeconds : Option ℤ := none
  cronExpression : Option String := none
  rrule : Option String := none
  timezone : Option String := none
  firstRunAt : Option String := none
  loop : Bool := false
  maxRuns : Option ℤ := none
  enabled : Bool := true

/-- The expression of a new job, if its kind has it. -/
def expressionOf (kind wanted : ScheduleKind) (normalize : Except HttpError String) :
    Except HttpError (Option String) :=
  if kind = wanted then normalize.map some else .ok none

/-- The first occurrence of a new job. An explicit first run is exact, even when it is off-rule. -/
def firstOccurrence (now : Reading) (job : Job) : Option ℚ → Except HttpError (Option ℚ)
  | some first => .ok (some first)
  | none =>
    if job.kind = .interval then .ok (if job.intervalSeconds.isSome then job.scheduleStartAt else none)
    else nextJobOccurrence cal job now.1 false

def Job.started (now : Reading) (firstRunAt : Option ℚ) (job : Job) : Except HttpError Job :=
  if job.enabled = false then .ok job
  else (firstOccurrence cal now job firstRunAt).map fun next =>
    { job with
      nextRunAt := next
      scheduledRunAt := next
      enabled := next.isSome || decide (job.kind = .interval) }

/-- `JobStore.create` up to the store; `admits` is the checks of the text, the chat, the context mode
    and the references. -/
def create (admits : Except HttpError Unit) (jid : String) (req : CreateRequest)
    (now : Reading) (revision : ℕ) : Except HttpError Job := do
  admits
  let kind ← requestedJobScheduleKind req.scheduleKind req.intervalSeconds req.cronExpression req.rrule
  let timezone ← cal.normalizeJobTimezone (req.timezone.getD "")
  let intervalSeconds ← normalizeIntervalSeconds (if kind = .interval then req.intervalSeconds else none)
  let firstRunAt ← parseJobTimestamp cal req.firstRunAt timezone
  let ruleStart : ℚ := firstRunAt.getD (if kind = .rrule then ⌈now.1⌉ else now.1)
  let cronExpression ← expressionOf kind .cron
    (cal.normalizeCronExpression (req.cronExpression.getD "") jid)
  let rrule ← expressionOf kind .rrule
    (cal.normalizeRruleExpression (req.rrule.getD "") timezone ruleStart)
  let loop := decide (kind ≠ .interval) || req.loop
  let maxRuns : Option ℤ :=
    if kind ≠ .interval then req.maxRuns.map (max 1)
    else if loop then none else some (max 1 (req.maxRuns.getD 1))
  let start : ℚ :=
    if firstRunAt = none then (intervalSeconds.map fun i : ℤ => now.1 + i).getD ruleStart
    else ruleStart
  Job.started cal now firstRunAt
    { id := jid, kind := kind, intervalSeconds := intervalSeconds, cronExpression := cronExpression,
      rrule := rrule, timezone := timezone, scheduleStartAt := some start, loop := loop,
      maxRuns := maxRuns, scheduledRunAt := none, nextRunAt := none, enabled := req.enabled,
      runCount := 0, manualRunPending := false, revision := revision, park := none,
      unavailable := none }

end Jobs
