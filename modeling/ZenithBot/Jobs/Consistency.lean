import ZenithBot.Jobs.Change

/-! A job's fields fit together in every state of its life. What each operation of the store writes is
    said once (`Ran` for `mark_ran`, one lemma for each of the others); none of them checks the
    invariant. Besides the four facts of the record, one more is carried: a job without an occurrence
    has no time to try it (`Sound.tried`), so a park always finds the occurrence it records. -/

namespace Jobs
open Lib

variable {job : Job} {cal : Calendar} {revision : ℕ} {admits : Except HttpError Unit} {now : Reading}
  {r : Job × Option HttpError} {job' : Job} {completedAt : Reading} {archived : Bool} {a : Admission}
  {t : Readings} {p : Patch} {e : Event}

/-! ### The record -/

/-- The fields of a job fit together. -/
structure Consistent (job : Job) : Prop where
  disabled : job.enabled = false → job.nextRunAt = none ∧ job.scheduledRunAt = none
  single : job.toPlan.Single
  exhausted : job.limitReached → job.enabled = false
  parked : ∀ park ∈ job.park, job.enabled = true ∧ park.revision = job.revision ∧
    job.scheduledRunAt = some park.occurrence

structure Sound (job : Job) : Prop extends Consistent job where
  tried : job.scheduledRunAt = none → job.nextRunAt = none

/-! ### Small writes -/

lemma sound_ended (job : Job) (h : job.toPlan.Single) : Sound job.ended.cleared where
  disabled := fun _ => ⟨rfl, rfl⟩
  single := h
  exhausted := fun _ => rfl
  parked := nofun
  tried := fun _ => rfl

lemma sound_movedTo (job : Job) (h : job.toPlan.Single) (hlimit : ¬ job.limitReached)
    (next : Option ℚ) : Sound (job.movedTo next).cleared where
  disabled := by
    intro hdis
    cases next with
    | none => exact ⟨rfl, rfl⟩
    | some t => cases hdis
  single := h
  exhausted := fun hl => absurd hl hlimit
  parked := nofun
  tried := fun hs => hs

section
variable (h : Sound job)
include h

lemma Sound.counted (manual : Bool) (hlimit : ¬ (job.counted manual).limitReached) :
    Sound (job.counted manual) :=
  { h with exhausted := fun hl => absurd hl hlimit }

lemma Sound.cleared : Sound job.cleared :=
  { h with parked := nofun }

/-- A park is bound to its revision, so a job without one may draw another. -/
lemma Sound.revised (hpark : job.park = none) (revision : ℕ) : Sound (job.revised revision) :=
  { h with parked := fun _ hp => absurd (hpark.symm.trans hp) nofun }

lemma Sound.manualRunPending (manual : Bool) :
    Sound { job with manualRunPending := manual } :=
  { h with }

/-- A job with an occurrence is put off: it stays enabled and unparked. -/
lemma Sound.delayed (henabled : job.enabled = true) {t : ℚ} (ht : job.scheduledRunAt = some t)
    (next : Option ℚ) (unavailable : Option Unavailable) (revision : ℕ) :
    Sound { job with
      nextRunAt := next, park := none, unavailable := unavailable, revision := revision } :=
  { h with
    disabled := fun hd => absurd (henabled.symm.trans hd) nofun
    parked := nofun
    tried := fun hs => absurd (ht.symm.trans hs) nofun }

end

/-! ### Runs -/

lemma Ran.sound (h : Ran cal a completedAt revision job r) (hs : Sound job) : Sound r.1 := by
  cases h with
  | mismatch => exact hs
  | kept hlimit => exact (hs.counted _ hlimit).cleared.revised rfl revision
  | moved _ _ hlimit =>
    exact (sound_movedTo (job.counted a.manual) hs.single hlimit _).revised rfl revision
  | raised henabled hlimit => exact hs.counted _ hlimit
  | ended => exact (sound_ended (job.counted a.manual) hs.single).revised rfl revision

lemma Failed.sound (h : Failed cal now job job') (hs : Sound job) : Sound job' := by
  cases h with
  | raised => exact hs
  | moved _ _ hlimit => exact sound_movedTo job hs.single hlimit _
  | ended => exact sound_ended job hs.single

lemma Ran.calm (h : Ran cal a completedAt revision job r) (hm : job.manualRunPending = false) :
    r.1.manualRunPending = false := by
  have hcounted : (job.counted a.manual).manualRunPending = false := by
    simp only [Job.counted, hm, Bool.false_and]
  cases h with
  | mismatch => exact hm
  | kept | moved | raised | ended => exact hcounted

/-! ### Deferrals -/

/-- A deferral that names a time finds the occurrence of the job. -/
lemma Job.stillDue.occurrence {due : Due} (h : job.stillDue due) (hs : Sound job)
    (hnext : due.nextRunAt ≠ none) : ∃ t, job.scheduledRunAt = some t := by
  obtain ⟨t, ht⟩ := Option.ne_none_iff_exists'.1 hnext
  cases hscheduled : job.scheduledRunAt with
  | some t => exact ⟨t, rfl⟩
  | none =>
    have hjob := h.2.2 t ht
    rw [hs.tried hscheduled] at hjob
    cases hjob

/-! ### Edits and creation -/

lemma Job.update_sound
    (h : job.update cal archived admits p t revision = .ok job') (hs : Sound job) : Sound job' := by
  obtain ⟨p', kind, timezone, changed, enabled, exact, pl, edited, -, hplan, hlimit, hedited, rfl⟩ :=
    Job.update_ok h
  have hsingle : (pl.reanchored job changed exact t).Single := (plan_ok hplan).2.1
  refine Sound.revised ?_ rfl revision
  rcases Job.rescheduled_ok hedited with ⟨-, rfl⟩ | ⟨hen, next, -, rfl⟩ |
    ⟨hen, -, start, next, -, -, rfl⟩ | ⟨hen, -, -, -, rfl⟩
  · exact sound_ended _ hsingle
  · refine ⟨⟨fun hd => absurd (hen.symm.trans hd) nofun, hsingle, fun hl => absurd hl (hlimit hen),
      nofun⟩, fun hn => hn⟩
  · refine sound_movedTo _ ?_ ?_ next
    · exact hsingle
    · exact hlimit hen
  · refine ⟨⟨fun hd => absurd (hen.symm.trans hd) nofun, hsingle, fun hl => absurd hl (hlimit hen),
      nofun⟩, hs.tried⟩

lemma Job.update_calm (h : job.update cal archived admits p t revision = .ok job') :
    job'.manualRunPending = job.manualRunPending := by
  obtain ⟨p', kind, timezone, changed, enabled, exact, pl, edited, -, -, -, hedited, rfl⟩ :=
    Job.update_ok h
  rcases Job.rescheduled_ok hedited with ⟨-, rfl⟩ | ⟨-, next, -, rfl⟩ |
    ⟨-, -, start, next, -, -, rfl⟩ | ⟨-, -, -, -, rfl⟩ <;> rfl

lemma create_sound {jid : String} {req : CreateRequest}
    (h : create cal admits jid req now revision = .ok job) :
    Sound job ∧ job.manualRunPending = false := by
  obtain ⟨firstRunAt, base, hbase, hstarted⟩ := create_ok h
  have hpark : ∀ m ∈ base.park, False := fun m hm => absurd (hbase.park.symm.trans hm) nofun
  rcases Job.started_ok hstarted with ⟨hdis, rfl⟩ | ⟨-, next, -, rfl⟩
  · refine ⟨⟨⟨fun _ => ⟨hbase.next, hbase.scheduled⟩, hbase.single,
      fun hl => absurd hl hbase.unlimited, fun m hm => (hpark m hm).elim⟩, fun _ => hbase.next⟩,
      hbase.manual⟩
  · refine ⟨⟨⟨?_, hbase.single, fun hl => absurd hl hbase.unlimited,
      fun m hm => (hpark m hm).elim⟩, fun hn => hn⟩, hbase.manual⟩
    intro hd
    have hnone : next = none := by
      cases next with
      | none => rfl
      | some t => simp at hd
    exact ⟨hnone, hnone⟩

/-! ### Lives -/

/-- What holds through a life without manual requests. -/
structure Life.Kept (s : Life) : Prop where
  sound : Sound s.job
  calm : s.job.manualRunPending = false
  due : ∀ due ∈ s.scheduler.due?, due.nextRunAt ≠ none

section
variable {cal : Calendar} {limits : Limits} {s : Life} {e : Event} {job : Job}

/-- STEP: every change keeps the job sound. -/
theorem Change.sound (h : Change cal limits s e job) (hs : s.Kept) (he : e ≠ .requestManualRun) :
    Sound job := by
  cases h with
  | same => exact hs.sound
  | edited _ h => exact Job.update_sound h hs.sound
  | ran _ h | failed _ _ h => exact h.sound hs.sound
  | @putOff due hdue _ h next park unavailable hpark =>
    obtain ⟨t, ht⟩ := h.occurrence hs.sound (hs.due due hdue)
    have hd := hs.sound.delayed h.1 ht (some next) unavailable s.fresh
    refine ⟨⟨hd.disabled, hd.single, hd.exhausted, ?_⟩, hd.tried⟩
    rintro m hm
    obtain ⟨hrevision, hoccurrence⟩ := hpark m hm
    rw [ht] at hoccurrence
    exact ⟨h.1, hrevision, ht.trans hoccurrence⟩
  | resumed next _ hpark =>
    obtain ⟨m, hm⟩ := Option.ne_none_iff_exists'.1 hpark
    obtain ⟨henabled, -, hscheduled⟩ := hs.sound.parked m hm
    exact hs.sound.delayed henabled hscheduled next s.job.unavailable s.fresh
  | paused => exact ((sound_ended s.job hs.sound.single).manualRunPending false).revised rfl s.fresh
  | requested hreq => exact absurd hreq he
  | answered hm => exact absurd (hs.calm.symm.trans hm) nofun

lemma Change.calm (h : Change cal limits s e job) (hs : s.Kept) (he : e ≠ .requestManualRun) :
    job.manualRunPending = false := by
  cases h with
  | same | putOff | resumed => exact hs.calm
  | edited _ h => exact (Job.update_calm h).trans hs.calm
  | ran _ h => exact h.calm hs.calm
  | failed _ _ h => cases h <;> exact hs.calm
  | paused => rfl
  | requested hreq => exact absurd hreq he
  | answered hm => exact absurd (hs.calm.symm.trans hm) nofun

end

lemma Job.listed_due (hm : job.manualRunPending = false) :
    ∀ due ∈ (job.listed now).due?, due.nextRunAt ≠ none := by
  unfold Job.listed
  split
  · rename_i hlist
    obtain ⟨henabled, htruthy, t, ht, -⟩ := hlist.resolve_left (by simp [hm])
    rintro due hdue
    cases hdue
    rw [if_pos ⟨hm, henabled, htruthy⟩, ht]
    exact nofun
  · exact nofun

lemma Moves.due {s : Life} {phase : Phase} (h : Moves s e phase) (hs : s.Kept) :
    ∀ due ∈ phase.due?, due.nextRunAt ≠ none := by
  have hkeep := hs.due
  cases h with
  | stay => exact hkeep
  | leave => exact nofun
  | list => exact Job.listed_due hs.calm
  | consider _ hphase | check _ hphase | snapshot _ hphase | fail hphase =>
    rw [hphase] at hkeep; exact hkeep

lemma step_kept {limits : Limits} {s : Life} (he : e ≠ .requestManualRun) (h : s.Kept) :
    (step cal limits s e).Kept where
  sound := (s.jobAfter_change cal limits e).sound h he
  calm := (s.jobAfter_change cal limits e).calm h he
  due := (s.schedulerAfter_moves cal limits e).due h

/-- RECORD: the fields of a job fit together in every state of its life, through any sequence of edits,
    runs, deferrals, parks, pauses and failures. -/
theorem job_record_consistent (cal : Calendar) (limits : Limits) (admits : Except HttpError Unit)
    (jid : String) (req : CreateRequest) (now : Reading) (revision : ℕ) (job : Job)
    (hcreate : create cal admits jid req now revision = .ok job) (es : List Event)
    (hes : ∀ e ∈ es, e ≠ .requestManualRun) :
    Consistent (run (step cal limits) (Life.born job) es).job := by
  obtain ⟨hsound, hcalm⟩ := create_sound hcreate
  have hborn : (Life.born job).Kept := ⟨hsound, hcalm, nofun⟩
  exact (run_inv_along (fun s e he hs => step_kept he hs) es _ (along_of_forall es _ hes) hborn).sound.1

/-- A calendar with one timezone, whose rules yield every tenth second after their anchor; `count` is
    the COUNT of every rule, and a time is a text of that length. -/
def tenSeconds (count : Option ℕ) : Calendar where
  normalizeJobTimezone := fun _ => .ok "UTC"
  parseTimestamp := fun text _ => .ok text.length
  normalizeCronExpression := fun expression _ => .ok expression
  normalizeRruleExpression := fun expression _ _ => .ok expression
  nextCron := fun _ _ _ _ _ _ => .ok none
  count := fun _ => count
  times := fun _ _ anchor n => some ⟨false, true, anchor + 10 * (n + 1)⟩
  nextRule := fun _ _ _ _ _ => .ok none

/-- An interval job that is listed when due and parked for a pending update. -/
theorem job_record_consistent_parked :
    let cal := tenSeconds none
    let now : ℕ → Reading := fun n => ⟨n + 1, n.cast_add_one_pos⟩
    ∃ job, create cal (.ok ()) "job" { intervalSeconds := some 60, loop := true } (now 0) 7 = .ok job ∧
      let es : List Event := [.list (now 100), .consider, .blocked (some "update") (now 100)]
      (run (step cal {}) (Life.born job) es).job.park = some ⟨"update", 61, 61, 10⟩ ∧
        Consistent (run (step cal {}) (Life.born job) es).job := by
  refine ⟨_, rfl, ?_, ?_⟩
  · decide +kernel
  · refine job_record_consistent (tenSeconds none) {} (.ok ()) "job"
      { intervalSeconds := some 60, loop := true } ⟨(0 : ℕ) + 1, Nat.cast_add_one_pos 0⟩ 7 _ ?_ _ ?_
    · rfl
    · simp

end Jobs
