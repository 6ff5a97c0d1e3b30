import ZenithBot.Jobs.Life

/-! What can happen to a job, said once. `Ran` lists what `mark_ran` does, `update_ok` and `create_ok`
    what an edit and a new job are made of, `Change` what one event of a life does to the job, and
    `Moves` where it takes the scheduler. Every fact about lives is a case analysis of these. -/

namespace Jobs
open Lib

variable {cal : Calendar} {job : Job} {t : Readings} {p : Patch} {admits : Except HttpError Unit}
  {job' : Job} {timezone : String} {revision : ℕ} {now : Reading} {pl : Plan}

/-! ### Runs -/

/-- What `mark_ran` can do with a job. -/
inductive Ran (cal : Calendar) (a : Admission) (completedAt : Reading) (revision : ℕ) (job : Job) :
    Job × Option HttpError → Prop
  /-- the job is not exactly as the run was admitted -/
  | mismatch (hexact : a.requireExactMatch = true) : Ran cal a completedAt revision job (job, none)
  /-- the occurrence stays: it lies ahead of a manual run, or is not the one that ran -/
  | kept (hlimit : ¬ (job.counted a.manual).limitReached)
      (hstays : a.manual = true ∨ ¬ ((∀ r ∈ a.expectedRevision, job.revision = r) ∨
        job.current = some (a.scheduledRunAt.getD (job.occurrence completedAt)))) :
    Ran cal a completedAt revision job ((job.counted a.manual).cleared.revised revision, none)
  /-- the next occurrence follows -/
  | moved (henabled : job.enabled = true) (hrecurring : (job.counted a.manual).recurring)
      (hlimit : ¬ (job.counted a.manual).limitReached)
      (hadvance : (∀ r ∈ a.expectedRevision, job.revision = r) ∨
        job.current = some (a.scheduledRunAt.getD (job.occurrence completedAt)))
      (hmanual : a.manual = true → ∀ current ∈ job.current, current ≤ completedAt.1)
      (hexact : a.requireExactMatch = true → a.manual = true ∨
        job.current = some (a.scheduledRunAt.getD (job.occurrence completedAt)))
      {next : Option ℚ} (hnext : nextJobOccurrence cal (job.counted a.manual)
        (max (a.scheduledRunAt.getD (job.occurrence completedAt)) completedAt.1) false = .ok next) :
    Ran cal a completedAt revision job
      (((job.counted a.manual).movedTo next).cleared.revised revision, none)
  /-- the next occurrence cannot be computed -/
  | raised (henabled : job.enabled = true) (hlimit : ¬ (job.counted a.manual).limitReached)
      (e : HttpError) (hkind : job.kind ≠ .interval) :
    Ran cal a completedAt revision job (job.counted a.manual, some e)
  /-- it was the last run -/
  | ended (hlast : (job.counted a.manual).limitReached ∨ job.enabled = false ∨
      ¬ (job.counted a.manual).recurring) :
    Ran cal a completedAt revision job ((job.counted a.manual).ended.cleared.revised revision, none)

lemma nextJobOccurrence_interval (cal : Calendar) (job : Job) (hkind : job.kind = .interval)
    (after : ℚ) (inclusive : Bool) :
    nextJobOccurrence cal job after inclusive =
      .ok (job.anchor.bind fun anchor => nextInterval anchor job.intervalSeconds after inclusive) := by
  unfold nextJobOccurrence
  rw [hkind]

lemma markRan_ran (cal : Calendar) (a : Admission) (completedAt : Reading) (revision : ℕ)
    (job : Job) : Ran cal a completedAt revision job (job.markRan cal a completedAt revision) := by
  unfold Job.markRan
  dsimp only
  split
  · rename_i hexact
    exact .mismatch hexact.1
  rename_i hmatch
  split
  · rename_i hearly
    exact .kept hearly.2.2.2.1 (.inl hearly.1)
  rename_i hearly
  split
  · rename_i hadvance
    obtain ⟨hadvance, henabled, hrecurring, hlimit⟩ := hadvance
    cases hnext : nextJobOccurrence cal (job.counted a.manual)
        (max (a.scheduledRunAt.getD (job.occurrence completedAt)) completedAt.1) false with
    | error e =>
      refine @Ran.raised cal a completedAt revision job henabled hlimit e fun hkind => ?_
      rw [nextJobOccurrence_interval cal (job.counted a.manual) hkind] at hnext
      cases hnext
    | ok next =>
      refine @Ran.moved cal a completedAt revision job henabled hrecurring hlimit ?_
        (fun hm current hc => ?_) (fun hexact => ?_) next hnext
      · simpa only [Bool.or_eq_true, decide_eq_true_eq] using hadvance
      · by_contra hlt
        exact hearly ⟨hm, henabled, hrecurring, hlimit, current, hc, lt_of_not_ge hlt⟩
      · by_contra hother
        obtain ⟨hm, hother⟩ := not_or.1 hother
        exact hmatch ⟨hexact, .inr (.inr ⟨Bool.eq_false_iff.2 hm, decide_eq_false hother⟩)⟩
  rename_i hnot
  split
  · rename_i hlast
    refine .ended (hlast.imp_right fun h => h.2)
  · rename_i hlast
    have hlimit : ¬ (job.counted a.manual).limitReached := fun hl => hlast (.inl hl)
    refine .kept hlimit (.inr fun hadvance => ?_)
    have hadvance : (decide (∀ r ∈ a.expectedRevision, job.revision = r) || decide (job.current =
        some (a.scheduledRunAt.getD (job.occurrence completedAt)))) = true := by
      simpa only [Bool.or_eq_true, decide_eq_true_eq] using hadvance
    -- an enabled, recurring job would have moved, any other would have ended
    by_cases hgoes : (job.counted a.manual).enabled = true ∧ (job.counted a.manual).recurring
    · exact hnot ⟨hadvance, hgoes.1, hgoes.2, hlimit⟩
    · refine hlast (.inr ⟨hadvance, ?_⟩)
      by_cases hen : (job.counted a.manual).enabled = true
      · exact .inr fun hr => hgoes ⟨hen, hr⟩
      · exact .inl (Bool.eq_false_iff.2 hen)

/-- What the scheduler's failure path can do with a job: nothing when there is no telling what is next. -/
inductive Failed (cal : Calendar) (now : Reading) (job : Job) : Job → Prop
  | raised : Failed cal now job job
  | moved (henabled : job.enabled = true) (hrecurring : job.recurring) (hlimit : ¬ job.limitReached)
      {next : Option ℚ}
      (hnext : nextJobOccurrence cal job (max (job.occurrence now) now.1) false = .ok next) :
    Failed cal now job (job.movedTo next).cleared
  | ended (hlast : ¬ (job.enabled = true ∧ job.recurring ∧ ¬ job.limitReached)) :
    Failed cal now job job.ended.cleared

lemma Job.failed_failed (cal : Calendar) (now : Reading) (job : Job) :
    Failed cal now job (job.failed cal now) := by
  unfold Job.failed
  split
  · rename_i hrun
    split
    · exact .raised
    · rename_i hnext
      exact .moved hrun.1 hrun.2.1 hrun.2.2 hnext
  · rename_i hlast
    exact .ended hlast

/-! ### Edits and creation -/

/-- What an edit leaves of the occurrence. -/
lemma Job.rescheduled_ok {wasEnabled changed : Bool} {exact : Option (Option ℚ)}
    (h : Job.rescheduled cal p wasEnabled changed exact t job = .ok job') :
    (job.enabled = false ∧ job' = job.ended) ∨
    (job.enabled = true ∧ ∃ next, exact = some next ∧
      job' = { job with nextRunAt := next, scheduledRunAt := next }) ∨
    (job.enabled = true ∧ exact = none ∧ ∃ start next,
      (start = job.scheduleStartAt ∨ ∃ i ∈ job.intervalSeconds, start = some (t.reference.1 + (i : ℤ))) ∧
      nextJobOccurrence cal { job with scheduleStartAt := start } t.reference.1 false = .ok next ∧
      job' = Job.movedTo { job with scheduleStartAt := start } next) ∨
    (job.enabled = true ∧ exact = none ∧ changed = false ∧ truthy job.nextRunAt ∧ job' = job) := by
  unfold Job.rescheduled at h
  split at h
  · rename_i hdis
    cases h
    exact .inl ⟨hdis, rfl⟩
  rename_i hen
  have hen : job.enabled = true := by simpa using hen
  split at h
  · cases h
    exact .inr (.inl ⟨hen, _, rfl, rfl⟩)
  split at h
  · obtain ⟨next, hnext, rfl⟩ := map_ok h
    refine .inr (.inr (.inl ⟨hen, rfl, _, next, ?_, hnext, rfl⟩))
    split
    · cases hi : job.intervalSeconds with
      | none => exact .inl rfl
      | some i => exact .inr ⟨i, rfl, rfl⟩
    · exact .inl rfl
  · rename_i hkeep
    cases h
    refine .inr (.inr (.inr ⟨hen, rfl, ?_, ?_, rfl⟩))
    · exact Bool.eq_false_iff.2 fun hc => hkeep (.inr (.inl hc))
    · exact not_not.1 fun hn => hkeep (.inr (.inr (.inr hn)))

/-- Exactly the expression of its kind may be set. -/
def Plan.Single (plan : Plan) : Prop :=
  match plan.kind with
  | .interval => plan.cronExpression = none ∧ plan.rrule = none
  | .cron => plan.intervalSeconds = none ∧ plan.rrule = none
  | .rrule => plan.intervalSeconds = none ∧ plan.cronExpression = none

lemma normalizeIntervalSeconds_ok {value interval : Option ℤ}
    (h : normalizeIntervalSeconds value = .ok interval) : interval = value ∧ ∀ i ∈ interval, 0 < i := by
  cases value with
  | none => cases h; exact ⟨rfl, nofun⟩
  | some v =>
    obtain ⟨hpos, h⟩ := refuse_ok h
    obtain ⟨_, -, h⟩ := bind_ok h
    cases h
    refine ⟨rfl, ?_⟩
    rintro i hi
    cases hi
    exact not_le.1 hpos

/-- The edited schedule is of the kind asked for, has no other expression and a positive interval. -/
lemma plan_ok {kind : ScheduleKind} (h : plan cal p job timezone t kind = .ok pl) :
    pl.kind = kind ∧ pl.Single ∧ ∀ i ∈ pl.intervalSeconds, 0 < i := by
  cases kind with
  | interval =>
    obtain ⟨_, hinterval, h⟩ := bind_ok h
    cases h
    exact ⟨rfl, ⟨rfl, rfl⟩, (normalizeIntervalSeconds_ok hinterval).2⟩
  | cron | rrule => obtain ⟨_, -, h⟩ := bind_ok h; cases h; exact ⟨rfl, ⟨rfl, rfl⟩, nofun⟩

/-- An edit that leaves an interval schedule unchanged keeps its anchor, and its interval or none. -/
lemma plan_unchanged (h : plan cal p job timezone t .interval = .ok pl)
    (hsame : expressionChanged cal p job .interval timezone t = .ok false) :
    pl.scheduleStartAt = job.scheduleStartAt ∧ ∀ i ∈ pl.intervalSeconds, i ∈ job.intervalSeconds := by
  obtain ⟨interval, hinterval, h⟩ := bind_ok h
  cases h
  obtain ⟨rfl, -⟩ := normalizeIntervalSeconds_ok hinterval
  refine ⟨rfl, ?_⟩
  rintro i hi
  cases hp : p.intervalSeconds with
  | none => rw [hp] at hi; exact hi
  | some value =>
    rw [hp] at hi
    change value = some i at hi
    unfold expressionChanged at hsame
    simp only [hp, hi] at hsame
    obtain ⟨normalized, hnormal, heq⟩ := map_ok hsame
    obtain ⟨rfl, -⟩ := normalizeIntervalSeconds_ok hnormal
    have hsame : some i = job.intervalSeconds := by simpa using heq.symm
    exact hsame.symm

/-- EDIT: what an accepted edit is made of. -/
theorem Job.update_ok {archived : Bool} (h : job.update cal archived admits p t revision = .ok job') :
    ∃ (p' : Patch) (kind : ScheduleKind) (timezone : String) (changed enabled : Bool)
      (exact : Option (Option ℚ)) (pl : Plan) (edited : Job),
      (changed = false → kind = job.kind ∧ expressionChanged cal p' job kind timezone t = .ok false) ∧
      plan cal p' job timezone t kind = .ok pl ∧
      (enabled = true → ¬ Job.limitReached { job with toPlan := pl }) ∧
      Job.rescheduled cal p' job.enabled changed exact t
        { job with toPlan := pl.reanchored job changed exact t, enabled := enabled } = .ok edited ∧
      job' = edited.cleared.revised revision := by
  iterate 2 obtain ⟨_, -, h⟩ := bind_ok h
  obtain ⟨kind, -, h⟩ := bind_ok h
  obtain ⟨timezone, -, h⟩ := bind_ok h
  obtain ⟨moved, hmoved, h⟩ := bind_ok h
  obtain ⟨changed, hchanged, h⟩ := bind_ok h
  obtain ⟨exact, -, h⟩ := bind_ok h
  obtain ⟨pl, hplan, h⟩ := bind_ok h
  obtain ⟨edited, hedited, h⟩ := bind_ok h
  cases h
  refine ⟨_, kind, timezone, changed, _, exact, pl, edited, ?_, hplan, ?_, hedited, rfl⟩
  · rintro rfl
    cases moved with
    | true => cases hchanged
    | false =>
      refine ⟨not_not.1 fun hne => ?_, hchanged⟩
      rw [if_pos hne] at hmoved
      cases hmoved
  · intro henabled hlimit
    simp only [Bool.and_eq_true, Bool.not_eq_true', decide_eq_false_iff_not] at henabled
    exact henabled.2 hlimit

lemma Job.started_ok {firstRunAt : Option ℚ} (h : Job.started cal now firstRunAt job = .ok job') :
    (job.enabled = false ∧ job' = job) ∨
    (job.enabled = true ∧ ∃ next, firstOccurrence cal now job firstRunAt = .ok next ∧
      job' = { job with
        nextRunAt := next, scheduledRunAt := next,
        enabled := next.isSome || decide (job.kind = .interval) }) := by
  unfold Job.started at h
  split at h
  · rename_i hdis
    cases h
    exact .inl ⟨hdis, rfl⟩
  · rename_i hen
    obtain ⟨next, hnext, rfl⟩ := map_ok h
    exact .inr ⟨by simpa using hen, next, hnext, rfl⟩

lemma expressionOf_ok {kind wanted : ScheduleKind} {normalize : Except HttpError String}
    {expression : Option String} (h : expressionOf kind wanted normalize = .ok expression)
    (hne : kind ≠ wanted) : expression = none := by
  unfold expressionOf at h
  rw [if_neg hne] at h
  cases h
  rfl

/-- A job as `create` lays it out, before it is put at its first occurrence. -/
structure Drafted (cal : Calendar) (req : CreateRequest) (firstRunAt : Option ℚ) (base : Job) :
    Prop where
  parsed : parseJobTimestamp cal req.firstRunAt base.timezone = .ok firstRunAt
  single : base.toPlan.Single
  positive : ∀ i ∈ base.intervalSeconds, 0 < i
  anchored : ∀ first ∈ firstRunAt, base.scheduleStartAt = some first
  unlimited : ¬ base.limitReached
  scheduled : base.scheduledRunAt = none
  next : base.nextRunAt = none
  park : base.park = none
  manual : base.manualRunPending = false

/-- CREATE: what a new job is made of. -/
theorem create_ok {jid : String} {req : CreateRequest}
    (h : create cal admits jid req now revision = .ok job) :
    ∃ (firstRunAt : Option ℚ) (base : Job), Drafted cal req firstRunAt base ∧
      Job.started cal now firstRunAt base = .ok job := by
  obtain ⟨_, -, h⟩ := bind_ok h
  obtain ⟨kind, -, h⟩ := bind_ok h
  obtain ⟨timezone, -, h⟩ := bind_ok h
  obtain ⟨interval, hinterval, h⟩ := bind_ok h
  obtain ⟨firstRunAt, hfirst, h⟩ := bind_ok h
  obtain ⟨cron, hcron, h⟩ := bind_ok h
  obtain ⟨rrule, hrrule, h⟩ := bind_ok h
  obtain ⟨hnormal, hpositive⟩ := normalizeIntervalSeconds_ok hinterval
  refine ⟨firstRunAt, _, ⟨hfirst, ?_, hpositive, ?_, ?_, rfl, rfl, rfl, rfl⟩, h⟩
  · cases kind with
    | interval => exact ⟨expressionOf_ok hcron nofun, expressionOf_ok hrrule nofun⟩
    | cron => exact ⟨hnormal, expressionOf_ok hrrule nofun⟩
    | rrule => exact ⟨hnormal, expressionOf_ok hcron nofun⟩
  · rintro first hf
    cases hf
    rfl
  · rintro ⟨m, hm, hle⟩
    have hpos : 1 ≤ m := by
      dsimp only at hm
      split at hm
      · obtain ⟨x, -, rfl⟩ := Option.map_eq_some_iff.1 hm
        exact le_max_left 1 x
      · split at hm
        · cases hm
        · cases hm
          exact le_max_left 1 _
    exact absurd hle (not_le.2 (lt_of_lt_of_le one_pos hpos))

/-- The due entry the scheduler holds. -/
def Phase.due? : Phase → Option Due
  | .idle => none
  | .listed due | .considered due | .checked due | .starting due _ | .failing due _ => some due

/-! ### Deferrals -/

/-- A deferral does nothing, or gives the job another time to try its occurrence. -/
lemma Job.defer_cases (limits : Limits) (due : Due) (scheduleId : Option String) (now : Reading)
    (revision : ℕ) (job : Job) :
    job.defer limits due scheduleId now revision = job ∨ (job.stillDue due ∧ ∃ park : Option Park,
      (∀ m ∈ park, m.revision = revision ∧ (job.scheduledRunAt.orElse fun _ => due.nextRunAt) =
        some m.occurrence) ∧
      job.defer limits due scheduleId now revision =
        { job with
          nextRunAt := some (limits.retryAt now), park := park, unavailable := job.unavailable,
          revision := revision }) := by
  unfold Job.defer
  split
  · exact .inl rfl
  rename_i hdue
  refine (Classical.em _).imp_right fun hne => ⟨not_not.1 hdue, ?_⟩
  split
  · exact ⟨none, nofun, rfl⟩
  · dsimp only at hne ⊢
    split
    · rename_i occurrence original hoccurrence _
      refine ⟨some _, ?_, rfl⟩
      rintro m hm
      cases hm
      exact ⟨rfl, hoccurrence⟩
    · rename_i hmatch
      exact absurd (by split <;> first | (exfalso; exact hmatch _ _ ‹_› ‹_›) | rfl) hne

lemma Job.deferRuntimeUnavailable_cases (limits : Limits) (due : Due) (now : Reading)
    (revision : ℕ) (job : Job) :
    (job.deferRuntimeUnavailable limits due now revision).2 = job ∨
    (job.stillDue due ∧ ∃ unavailable : Option Unavailable,
      (job.deferRuntimeUnavailable limits due now revision).2 =
        { job with
          nextRunAt := some (limits.retryAt now), park := none, unavailable := unavailable,
          revision := revision }) := by
  unfold Job.deferRuntimeUnavailable
  split
  · exact .inl rfl
  rename_i hdue
  split
  · exact .inl rfl
  split
  · exact .inl rfl
  · exact .inr ⟨not_not.1 hdue, _, rfl⟩

lemma Job.resumeUpdateParked_cases (scheduleId active : Option String) (now : Reading)
    (revision : ℕ) (job : Job) :
    job.resumeUpdateParked scheduleId active now revision = job ∨
    ∃ next, (next = job.nextRunAt ∨ job.scheduledRunAt ≠ none) ∧ job.park ≠ none ∧
      job.resumeUpdateParked scheduleId active now revision =
        { job with nextRunAt := next, park := none, revision := revision } := by
  unfold Job.resumeUpdateParked
  split
  · exact .inl rfl
  rename_i park hpark
  dsimp only
  split
  · exact .inl rfl
  refine .inr ⟨_, ?_, by rw [hpark]; exact nofun, rfl⟩
  split
  · rename_i hexact
    right
    simp only [Bool.and_eq_true, decide_eq_true_eq] at hexact
    rw [hexact.2]
    exact nofun
  · exact .inl rfl

/-! ### Events -/

/-- Where the arguments of a call of `mark_ran` come from. -/
inductive Admits (s : Life) : Event → Admission → Prop
  | scheduled {due : Due} {snapshot : Snapshot} (now : Reading)
      (hs : s.scheduler = .starting due snapshot) :
    Admits s (.admitted now) (snapshot.admission false)
  | manual {snapshot : Snapshot} (now : Reading) (hs : s.manual = .starting snapshot) :
    Admits s (.manualAdmitted now) (snapshot.admission true)
  | other (a : Admission) (now : Reading) : Admits s (.markRan a now) a

inductive Change (cal : Calendar) (limits : Limits) (s : Life) (e : Event) : Job → Prop
  | same : Change cal limits s e s.job
  | edited {archived : Bool} {admits : Except HttpError Unit} {p : Patch} {t : Readings} {job : Job}
      (he : e = .edit archived admits p t)
      (h : s.job.update cal archived admits p t s.fresh = .ok job) : Change cal limits s e job
  | ran {a : Admission} {now : Reading} (ha : Admits s e a) {r : Job × Option HttpError}
      (h : Ran cal a now s.fresh s.job r) : Change cal limits s e r.1
  | failed {due : Due} {snapshot : Snapshot} {now : Reading} (he : e = .fail now)
      (hs : s.scheduler = .failing due snapshot) {job : Job} (h : Failed cal now s.job job) :
    Change cal limits s e job
  | putOff {due : Due} (hs : s.scheduler.due? = some due) (hlisted : s.scheduler ≠ .listed due)
      (h : s.job.stillDue due) (next : ℚ) (park : Option Park) (unavailable : Option Unavailable)
      (hpark : ∀ m ∈ park, m.revision = s.fresh ∧
        (s.job.scheduledRunAt.orElse fun _ => due.nextRunAt) = some m.occurrence) :
    Change cal limits s e
      { s.job with
        nextRunAt := some next, park := park, unavailable := unavailable, revision := s.fresh }
  | resumed (next : Option ℚ) (hnext : next = s.job.nextRunAt ∨ s.job.scheduledRunAt ≠ none)
      (hpark : s.job.park ≠ none) :
    Change cal limits s e { s.job with nextRunAt := next, park := none, revision := s.fresh }
  | paused (he : e = .pauseForSession ∨ e = .repair ∨ e = .manualRepair) : Change cal limits s e
      { s.job.ended.cleared with manualRunPending := false, revision := s.fresh }
  | requested (he : e = .requestManualRun) :
    Change cal limits s e { s.job with manualRunPending := true, revision := s.fresh }
  | answered (hm : s.job.manualRunPending = true) (manual : Bool) :
    Change cal limits s e { s.job with manualRunPending := manual, revision := s.fresh }

section
variable {cal : Calendar} {limits : Limits} {s : Life} {e : Event} {due : Due}

lemma Change.of_defer (hs : s.scheduler.due? = some due)
    (hlisted : s.scheduler ≠ .listed due) (scheduleId : Option String) (now : Reading) :
    Change cal limits s e (s.job.defer limits due scheduleId now s.fresh) := by
  rcases Job.defer_cases limits due scheduleId now s.fresh s.job with heq | ⟨hdue, park, hpark, heq⟩
  · rw [heq]; exact .same
  · rw [heq]; exact .putOff hs hlisted hdue _ park _ hpark

lemma Change.of_deferRuntimeUnavailable (hs : s.scheduler.due? = some due)
    (hlisted : s.scheduler ≠ .listed due) (now : Reading) :
    Change cal limits s e (s.job.deferRuntimeUnavailable limits due now s.fresh).2 := by
  rcases Job.deferRuntimeUnavailable_cases limits due now s.fresh s.job with heq | ⟨hdue, u, heq⟩
  · rw [heq]; exact .same
  · rw [heq]; exact .putOff hs hlisted hdue _ none u nofun

lemma Change.of_repair (he : e = .repair ∨ e = .manualRepair) (expected : ℕ) :
    Change cal limits s e (s.job.pauseForChatReferenceRepair expected s.fresh) := by
  unfold Job.pauseForChatReferenceRepair
  split
  · exact .same
  · exact .paused (.inr he)

end

/-- STEP: what one event does to the job. -/
theorem Life.jobAfter_change (cal : Calendar) (limits : Limits) (s : Life) (e : Event) :
    Change cal limits s e (s.jobAfter cal limits e) := by
  cases e with
  | edit archived admits patch t =>
    rw [Life.jobAfter]
    split
    · rename_i hjob
      exact .edited rfl hjob
    · exact .same
  | pauseForSession =>
    rw [Life.jobAfter, Job.pauseForSession]
    split
    · exact .same
    · exact .paused (.inl rfl)
  | blocked scheduleId now | postpone scheduleId now =>
    rw [Life.jobAfter]
    split
    · rename_i hs
      exact .of_defer (by rw [hs]; rfl) (by rw [hs]; exact nofun) scheduleId now
    · exact .same
  | admitted now =>
    rw [Life.jobAfter]
    split
    · rename_i hs
      exact .ran (.scheduled now hs) (markRan_ran ..)
    · exact .same
  | repair =>
    rw [Life.jobAfter]
    split
    · exact .of_repair (.inl rfl) _
    · exact .same
  | unavailable now =>
    rw [Life.jobAfter]
    split
    · rename_i hs
      split
      · exact .same
      · exact .of_deferRuntimeUnavailable (by rw [hs]; rfl) (by rw [hs]; exact nofun) now
    · exact .same
  | fail now =>
    rw [Life.jobAfter]
    split
    · rename_i hs
      split
      · exact .failed rfl hs (s.job.failed_failed cal now)
      · exact .same
    · exact .same
  | requestManualRun =>
    rw [Life.jobAfter, Job.requestManualRun]
    split
    · exact .same
    · exact .requested rfl
  | manualAdmitted now =>
    rw [Life.jobAfter]
    split
    · rename_i hs
      exact .ran (.manual now hs) (markRan_ran ..)
    · exact .same
  | manualDeferred =>
    rw [Life.jobAfter, Job.recordManualRunDeferred]
    split
    · rename_i hm
      exact .answered hm s.job.manualRunPending
    · exact .same
  | manualFailed =>
    rw [Life.jobAfter, Job.clearFailedManualRun]
    split
    · rename_i hm
      exact .answered hm false
    · exact .same
  | manualRepair =>
    rw [Life.jobAfter]
    split
    · exact .of_repair (.inr rfl) _
    · exact .same
  | resumeUpdateParked scheduleId active now =>
    rw [Life.jobAfter]
    rcases Job.resumeUpdateParked_cases scheduleId active now s.fresh s.job with
      heq | ⟨next, hnext, hpark, heq⟩
    · rw [heq]; exact .same
    · rw [heq]; exact .resumed next hnext hpark
  | markRan a now => exact .ran (.other a now) (markRan_ran ..)
  | list | consider | check | snapshot | refused | giveUp | claim | manualSnapshot | manualRefused =>
    exact .same

/-! ### The scheduler -/

inductive Moves (s : Life) (e : Event) : Phase → Prop
  | stay : Moves s e s.scheduler
  | leave : Moves s e .idle
  | list (now : Reading) (he : e = .list now) : Moves s e (s.job.listed now)
  | consider {due : Due} (he : e = .consider) (hs : s.scheduler = .listed due)
      (hm : s.job.manualRunPending = false) : Moves s e (.considered due)
  | check {due : Due} {now : Reading} (he : e = .check now) (hs : s.scheduler = .considered due)
      (h : s.job.dispatches due now) : Moves s e (.checked due)
  | snapshot {due : Due} {now : Reading} (he : e = .snapshot now) (hs : s.scheduler = .checked due) :
    Moves s e (.starting due ⟨s.job.revision, s.job.occurrence now⟩)
  | fail {due : Due} {snapshot : Snapshot} (hs : s.scheduler = .starting due snapshot) :
    Moves s e (.failing due snapshot)

lemma Life.schedulerAfter_moves (cal : Calendar) (limits : Limits) (s : Life) (e : Event) :
    Moves s e (s.schedulerAfter cal limits e) := by
  unfold Life.schedulerAfter
  split
  · exact .list _ rfl
  · rename_i due hs
    split
    · exact .leave
    · rename_i hm
      exact .consider rfl hs (Bool.eq_false_iff.2 hm)
  · exact .leave
  · rename_i now due hs
    split
    · rename_i h
      exact .check rfl hs h
    · exact .leave
  · rename_i now due hs
    exact .snapshot rfl hs
  · rename_i now due snapshot hs
    split
    · exact .leave
    · exact .fail hs
  · rename_i due snapshot hs
    exact .fail hs
  · rename_i now due snapshot hs
    split
    · exact hs ▸ Moves.stay
    · exact .leave
  · exact .leave
  · exact .leave
  · exact .leave
  · exact .leave
  · exact .stay

end Jobs
