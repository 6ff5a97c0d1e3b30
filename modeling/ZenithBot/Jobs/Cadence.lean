import Mathlib.Data.List.Destutter
import ZenithBot.Jobs.Consistency

/-! Interval jobs keep to their grid: the instants `start, start + i, start + 2i, …`. An occurrence is
    put on the grid by an edit and then moves along it, to the first instant after both the occurrence that
    ran or failed and the present. Deferrals, parks and a manual run ahead of it only change the time at
    which it is tried, unless that run is the job's last.

    A run is recorded with the revision and the occurrence of its dispatch; while the revision is the
    job's, so is the occurrence (`Life.Paced.snapshot`). A revision drawn afterwards is new, and only
    the scheduler's failure path moves a job without drawing one. -/

namespace Jobs
open Lib

variable {cal : Calendar} {job : Job} {i : ℤ} {now : Reading} {after : ℚ} {due : Due} {s : Life}
  {admits : Except HttpError Unit} {job' : Job} {limits : Limits} {start : ℚ} {fresh : ℕ} {e : Event}

/-! ### The grid -/

/-- The instants of an interval schedule. -/
def instants (start : ℚ) (i : ℤ) : Set ℚ := { x | ∃ k : ℕ, x = start + k * i }

/-- The instants after `t`. -/
def instantsAfter (start : ℚ) (i : ℤ) (t : ℚ) : Set ℚ := { x | x ∈ instants start i ∧ t < x }

lemma mem_instants_start (start : ℚ) (i : ℤ) : start ∈ instants start i :=
  ⟨0, by simp⟩

/-- NEXT: the interval branch finds the first instant after a time. -/
theorem nextInterval_isLeast (anchor after : ℚ) (hi : 0 < i) :
    ∃ x, nextInterval anchor (some i) after false = some x ∧
      IsLeast (instantsAfter anchor i after) x := by
  have hi' : (0 : ℚ) < i := by exact_mod_cast hi
  have hlater : ∀ x, later x after false ↔ after < x := by
    simp [later]
  unfold nextInterval
  simp only [Option.getD_some, hi.ne', if_false, not_lt.2 hi.le, hlater, true_and]
  by_cases hanchor : after < anchor
  · rw [if_pos hanchor]
    refine ⟨anchor, rfl, ⟨mem_instants_start anchor i, hanchor⟩, ?_⟩
    rintro x ⟨⟨k, rfl⟩, -⟩
    have : (0 : ℚ) ≤ k * i := by positivity
    linarith
  · rw [if_neg hanchor]
    have helapsed : 0 ≤ after - anchor := by linarith
    rw [max_eq_right helapsed]
    -- the number of whole intervals that have passed
    obtain ⟨n, hn⟩ := Int.eq_ofNat_of_zero_le (Int.floor_nonneg.2 (div_nonneg helapsed hi'.le))
    have hbelow : (n : ℚ) * i ≤ after - anchor := by
      have := Int.floor_le ((after - anchor) / i)
      rw [hn, le_div_iff₀ hi'] at this
      exact_mod_cast this
    have habove : after - anchor < (n + 1) * i := by
      have := Int.lt_floor_add_one ((after - anchor) / i)
      rw [hn, div_lt_iff₀ hi'] at this
      exact_mod_cast this
    rw [hn]
    have hcandidate : anchor + ((n : ℤ) : ℚ) * i ≤ after := by
      push_cast
      linarith
    rw [if_pos (.inr hcandidate)]
    refine ⟨_, rfl, ⟨⟨n + 1, by push_cast; ring⟩, by push_cast; linarith⟩, ?_⟩
    rintro x ⟨⟨k, rfl⟩, hx⟩
    have hk : (n : ℚ) * i < k * i := by linarith
    have hlt : n < k := by exact_mod_cast lt_of_mul_lt_mul_right hk hi'.le
    have hle : ((n + 1 : ℕ) : ℚ) * i ≤ k * i :=
      mul_le_mul_of_nonneg_right (by exact_mod_cast hlt) hi'.le
    push_cast at hle ⊢
    linarith

/-! ### Jobs on the grid -/

/-- The occurrence of an interval job is on its grid, only an occurrence is tried, and an enabled job
    with an anchor has one. -/
structure Paced (job : Job) : Prop where
  positive : ∀ i ∈ job.intervalSeconds, 0 < i
  aligned : job.kind = .interval → ∀ i ∈ job.intervalSeconds, ∀ t ∈ job.scheduledRunAt,
    ∃ start ∈ job.scheduleStartAt, t ∈ instants start i
  tried : job.kind = .interval → job.scheduledRunAt = none → job.nextRunAt = none
  held : job.kind = .interval → job.intervalSeconds ≠ none → job.enabled = true →
    job.scheduleStartAt ≠ none → job.scheduledRunAt ≠ none

/-- An interval job with an anchor finds its next occurrence on the grid. -/
lemma nextJobOccurrence_isLeast (job : Job) (hkind : job.kind = .interval)
    (hi : job.intervalSeconds = some i) (hpos : 0 < i)
    (hstart : job.scheduleStartAt = some start) {next : Option ℚ}
    (hnext : nextJobOccurrence cal job after false = .ok next) :
    ∃ x, next = some x ∧ IsLeast (instantsAfter start i after) x := by
  obtain ⟨x, hx, hleast⟩ := nextInterval_isLeast start after hpos
  have hanchor : job.anchor = some start := by rw [Job.anchor, hstart]; rfl
  rw [nextJobOccurrence_interval cal job hkind, hi, hanchor, Option.bind_some, hx] at hnext
  exact ⟨x, (Except.ok.inj hnext).symm, hleast⟩

lemma Paced.next (h : Paced job) (hkind : job.kind = .interval) (hi : job.intervalSeconds = some i)
    {next : Option ℚ} (hnext : nextJobOccurrence cal job after false = .ok next) :
    (job.scheduleStartAt = none ∧ job.scheduledRunAt = none ∧ next = none) ∨
    ∃ start x, job.scheduleStartAt = some start ∧ next = some x ∧
      IsLeast (instantsAfter start i after) x := by
  cases hstart : job.scheduleStartAt with
  | some start =>
    obtain ⟨x, hx, hleast⟩ := nextJobOccurrence_isLeast job hkind hi (h.positive i hi) hstart hnext
    exact .inr ⟨start, x, rfl, hx, hleast⟩
  | none =>
    -- without an anchor there is no occurrence to start from
    have hscheduled : job.scheduledRunAt = none := by
      cases ht : job.scheduledRunAt with
      | none => rfl
      | some t =>
        obtain ⟨start, hs, -⟩ := h.aligned hkind i hi t ht
        exact absurd (hstart.symm.trans hs) nofun
    have hanchor : job.anchor = none := by
      rw [Job.anchor, hstart, hscheduled, h.tried hkind hscheduled]; rfl
    rw [nextJobOccurrence_interval cal job hkind, hanchor] at hnext
    exact .inl ⟨rfl, hscheduled, (Except.ok.inj hnext).symm⟩

/-- The job is paced again as soon as what comes next is on the grid. -/
lemma Job.movedTo_paced (job : Job) {next : Option ℚ} (hpos : ∀ i ∈ job.intervalSeconds, 0 < i)
    (hgrid : job.kind = .interval → ∀ i ∈ job.intervalSeconds, ∀ t ∈ next,
      ∃ start ∈ job.scheduleStartAt, t ∈ instants start i) : Paced (job.movedTo next) where
  positive := hpos
  aligned := hgrid
  tried := fun _ hs => hs
  held := fun _ _ hen _ hs => by
    rw [show next = none from hs] at hen
    cases hen

/-- A job that moves along its schedule stays on the grid. -/
lemma Paced.movedTo (h : Paced job) {next : Option ℚ}
    (hnext : nextJobOccurrence cal job after false = .ok next) : Paced (job.movedTo next) := by
  refine job.movedTo_paced h.positive fun hkind i hi t ht => ?_
  rcases h.next hkind hi hnext with ⟨-, -, rfl⟩ | ⟨start, x, hstart, rfl, hleast⟩
  · cases ht
  · cases ht
    exact ⟨start, hstart, hleast.1.1⟩

lemma Paced.ended (h : Paced job) : Paced job.ended where
  positive := h.positive
  aligned := fun _ _ _ _ ht => absurd ht nofun
  tried := fun _ _ => rfl
  held := fun _ _ hen => absurd hen nofun

/-- What is not on the grid may be anything. -/
lemma Paced.of_eq (h : Paced job) (hplan : job'.toPlan = job.toPlan)
    (hscheduled : job'.scheduledRunAt = job.scheduledRunAt) (henabled : job'.enabled = job.enabled)
    (htried : job.kind = .interval → job.scheduledRunAt = none → job'.nextRunAt = none) :
    Paced job' where
  positive := by rw [hplan]; exact h.positive
  aligned := by rw [hplan, hscheduled]; exact h.aligned
  tried := by rw [hplan, hscheduled]; exact htried
  held := by rw [hplan, hscheduled, henabled]; exact h.held

lemma Ran.paced {a : Admission} {completedAt : Reading} {revision : ℕ} {r : Job × Option HttpError}
    (h : Ran cal a completedAt revision job r) (hp : Paced job) : Paced r.1 := by
  have hcounted : Paced (job.counted a.manual) := hp.of_eq rfl rfl rfl hp.tried
  cases h with
  | mismatch => exact hp
  | kept => exact hcounted.of_eq rfl rfl rfl hcounted.tried
  | moved _ _ _ _ _ _ hnext =>
    have hmoved := hcounted.movedTo hnext
    exact hmoved.of_eq rfl rfl rfl hmoved.tried
  | raised => exact hcounted
  | ended => exact hcounted.ended.of_eq rfl rfl rfl hcounted.ended.tried

lemma Failed.paced (h : Failed cal now job job') (hp : Paced job) : Paced job' := by
  cases h with
  | raised => exact hp
  | moved _ _ _ hnext =>
    have hmoved := hp.movedTo hnext
    exact hmoved.of_eq rfl rfl rfl hmoved.tried
  | ended => exact hp.ended.of_eq rfl rfl rfl hp.ended.tried

/-- The anchor of an edited schedule, when no next run is chosen. -/
lemma Plan.reanchored_some (plan : Plan) (job : Job) (changed : Bool) (t : Readings) :
    ∃ start, (plan.reanchored job changed none t).scheduleStartAt = some start ∧
      (changed = false → ∀ s ∈ plan.scheduleStartAt, start = s) := by
  have hpy : ∀ (a b : Option ℚ) (x : ℚ), ∃ y, pyOr a (pyOr b (some x)) = some y := by
    intro a b x
    unfold pyOr
    split
    · split
      · exact ⟨_, rfl⟩
      · split <;> exact ⟨_, rfl⟩
    · split
      · split
        · exact ⟨_, rfl⟩
        · split <;> exact ⟨_, rfl⟩
      · exact ⟨_, rfl⟩
  unfold Plan.reanchored
  simp only [Option.getD_none, ite_self]
  cases changed with
  | true =>
    cases plan.kind with
    | interval | cron | rrule => exact ⟨_, rfl, nofun⟩
  | false =>
    cases plan.scheduleStartAt with
    | some s => exact ⟨s, rfl, fun _ x hx => (Option.some.inj hx)⟩
    | none =>
      obtain ⟨y, hy⟩ := hpy job.scheduledRunAt job.nextRunAt t.fallback.1
      exact ⟨y, hy, fun _ => nofun⟩

/-- An edit leaves the job on the grid of the schedule it leaves. -/
lemma Job.update_paced {archived : Bool} {p : Patch} {t : Readings}
    {revision : ℕ} (h : job.update cal archived admits p t revision = .ok job')
    (hp : Paced job) : Paced job' := by
  obtain ⟨p', kind, timezone, changed, enabled, exact, pl, edited, hchanged, hplan, -, hedited, rfl⟩ :=
    Job.update_ok h
  obtain ⟨hkind, -, hpositive⟩ := plan_ok hplan
  have hbase : Paced { job with
      toPlan := pl.reanchored job changed exact t, enabled := enabled }.ended :=
    ⟨hpositive, fun _ _ _ _ ht => absurd ht nofun, fun _ _ => rfl, fun _ _ hen => absurd hen nofun⟩
  suffices hs : Paced edited from hs.of_eq rfl rfl rfl hs.tried
  rcases Job.rescheduled_ok hedited with ⟨-, rfl⟩ | ⟨-, next, rfl, rfl⟩ |
    ⟨-, rfl, start, next, hstart, hnext, rfl⟩ | ⟨-, rfl, hsame, htruthy, rfl⟩
  · exact hbase
  · -- the chosen next run is the anchor
    have hstart : pl.kind = .interval → (pl.reanchored job changed (some next) t).scheduleStartAt = next :=
      fun hk => if_pos hk
    refine ⟨hpositive, ?_, fun _ hn => hn, fun hk _ _ hs hn => hs ((hstart hk).trans hn)⟩
    intro hk i hi x hx
    exact ⟨x, (hstart hk).trans hx, mem_instants_start x i⟩
  · -- the occurrence is computed from the anchor, which exists
    obtain ⟨anchor, hanchor, -⟩ := pl.reanchored_some job changed t
    have hsome : ∃ a, start = some a := by
      rcases hstart with rfl | ⟨i, -, rfl⟩
      · exact ⟨anchor, hanchor⟩
      · exact ⟨_, rfl⟩
    obtain ⟨a, rfl⟩ := hsome
    refine Job.movedTo_paced _ hpositive fun hkind i hi t ht => ?_
    obtain ⟨x, rfl, hleast⟩ := nextJobOccurrence_isLeast _ hkind hi (hpositive i hi) rfl hnext
    cases ht
    exact ⟨_, rfl, hleast.1.1⟩
  · -- the schedule is as it was
    obtain ⟨rfl, hexpr⟩ := hchanged hsame
    refine ⟨hpositive, ?_, fun hk hs => hp.tried (hkind.symm.trans hk) hs, fun hk _ _ _ hs => ?_⟩
    swap
    · obtain ⟨x, hx, -⟩ := htruthy
      exact absurd ((hp.tried (hkind.symm.trans hk) hs).symm.trans hx) nofun
    intro hk i hi x hx
    have hjob : job.kind = .interval := hkind.symm.trans hk
    rw [hjob] at hplan hexpr
    obtain ⟨hstart, hinterval⟩ := plan_unchanged hplan hexpr
    obtain ⟨s, hs, hmem⟩ := hp.aligned hjob i (hinterval i hi) x hx
    obtain ⟨start, hstart', hkeep⟩ := pl.reanchored_some job changed t
    refine ⟨start, hstart', ?_⟩
    rw [hkeep hsame s (hstart.trans hs)]
    exact hmem

lemma create_paced {jid : String} {req : CreateRequest}
    {revision : ℕ} (h : create cal admits jid req now revision = .ok job) : Paced job := by
  obtain ⟨firstRunAt, base, hbase, hstarted⟩ := create_ok h
  rcases Job.started_ok hstarted with ⟨hdis, rfl⟩ | ⟨-, next, hnext, rfl⟩
  · refine ⟨hbase.positive, fun _ _ _ t ht => ?_, fun _ _ => hbase.next, fun _ _ hen => ?_⟩
    · exact absurd (hbase.scheduled.symm.trans ht) nofun
    · exact absurd (hdis.symm.trans hen) nofun
  · -- the first occurrence is the anchor
    have hfirst : base.kind = .interval → base.intervalSeconds ≠ none →
        next = base.scheduleStartAt := by
      intro hkind hi
      cases hf : firstRunAt with
      | some first =>
        rw [hf] at hnext
        exact (Except.ok.inj hnext).symm.trans (hbase.anchored first hf).symm
      | none =>
        rw [hf, firstOccurrence, if_pos hkind, if_pos (Option.isSome_iff_ne_none.2 hi)] at hnext
        exact (Except.ok.inj hnext).symm
    refine ⟨hbase.positive, ?_, fun _ hs => hs, fun hkind hi _ hs hn => ?_⟩
    · intro hkind i hi t ht
      have hi' : base.intervalSeconds ≠ none := fun hn => absurd (hn.symm.trans hi) nofun
      exact ⟨t, (hfirst hkind hi').symm.trans ht, mem_instants_start t i⟩
    · exact hs ((hfirst hkind hi).symm.trans hn)

/-! ### Lives on the grid -/

/-- An entry without a time is not of the job's revision. -/
def Due.Stale (job : Job) (due : Due) : Prop :=
  due.nextRunAt = none → job.kind = .interval → job.revision ≠ due.revision

/-- What the scheduler holds fits the job. An entry listed for a manual run names no time; when its turn
    comes without that run, the job has another revision, so nothing is put off on its word. -/
def Phase.Fits (job : Job) (fresh : ℕ) : Phase → Prop
  | .idle => True
  | .listed due => due.revision < fresh ∧ (due.nextRunAt = none → job.kind = .interval →
      job.revision = due.revision → job.manualRunPending = true)
  | .considered due | .checked due | .failing due _ => due.revision < fresh ∧ due.Stale job
  | .starting due snapshot => (due.revision < fresh ∧ due.Stale job) ∧ snapshot.revision < fresh ∧
      (job.revision = snapshot.revision →
        ∀ t ∈ job.scheduledRunAt, t = snapshot.scheduledRunAt ∨ t = 0)

/-- What holds through every life. -/
structure Life.Paced (s : Life) : Prop where
  job : Jobs.Paced s.job
  revision : s.job.revision < s.fresh
  scheduler : s.scheduler.Fits s.job s.fresh

/-- Past its turn, an entry without a time is stale. -/
lemma Phase.Fits.stale {phase : Phase} (h : phase.Fits job fresh)
    (hdue : phase.due? = some due) (hlisted : phase ≠ .listed due) : due.Stale job := by
  cases phase with
  | idle => cases hdue
  | listed d => cases hdue; exact absurd rfl hlisted
  | considered d | checked d | failing d snapshot => cases hdue; exact h.2
  | starting d snapshot => cases hdue; exact h.1.2

section
variable {cal : Calendar} {limits : Limits} {s : Life} {e : Event} {job : Job}

section
variable (h : Change cal limits s e job)
include h

/-- REVISION: a change draws a new revision, or leaves what a revision stands for; the scheduler's
    failure path alone moves the job without one. -/
theorem Change.revision :
    job.revision = s.fresh ∨ (job.revision = s.job.revision ∧ job.kind = s.job.kind ∧
      (s.job.kind = .interval → job.manualRunPending = s.job.manualRunPending) ∧
      (job.scheduledRunAt = s.job.scheduledRunAt ∨
        ∃ due snapshot, s.scheduler = .failing due snapshot)) := by
  cases h with
  | same => exact .inr ⟨rfl, rfl, fun _ => rfl, .inl rfl⟩
  | edited _ h =>
    obtain ⟨_, _, _, _, _, _, _, _, -, -, -, -, rfl⟩ := Job.update_ok h
    exact .inl rfl
  | ran _ h =>
    cases h with
    | mismatch => exact .inr ⟨rfl, rfl, fun _ => rfl, .inl rfl⟩
    | raised _ _ _ hkind => exact .inr ⟨rfl, rfl, fun hk => absurd hk hkind, .inl rfl⟩
    | kept | moved | ended => exact .inl rfl
  | failed _ hs h => cases h <;> exact .inr ⟨rfl, rfl, fun _ => rfl, .inr ⟨_, _, hs⟩⟩
  | putOff | resumed | paused | requested | answered => exact .inl rfl

lemma Change.paced (hs : s.Paced) : Jobs.Paced job := by
  cases h with
  | same => exact hs.job
  | edited _ h => exact Job.update_paced h hs.job
  | ran _ h | failed _ _ h => exact h.paced hs.job
  | @putOff due hdue hlisted h next park unavailable =>
    refine hs.job.of_eq rfl rfl rfl fun hkind hnone => ?_
    -- an entry with a time names the job's, which has none; one without is stale
    cases ht : due.nextRunAt with
    | some t => exact absurd ((hs.job.tried hkind hnone).symm.trans (h.2.2 t ht)) nofun
    | none => exact absurd h.2.1 (hs.scheduler.stale hdue hlisted ht hkind)
  | resumed next hnext =>
    refine hs.job.of_eq rfl rfl rfl fun hkind hnone => ?_
    exact (hnext.resolve_right fun h => h hnone).trans (hs.job.tried hkind hnone)
  | paused => exact hs.job.ended.of_eq rfl rfl rfl hs.job.ended.tried
  | requested | answered => exact hs.job.of_eq rfl rfl rfl hs.job.tried

lemma Change.stale (hdue : due.revision < s.fresh) (hstale : due.Stale s.job) : due.Stale job := by
  intro hnone hkind
  rcases h.revision with hrev | ⟨hrev, hk, -, -⟩
  · rw [hrev]; exact hdue.ne'
  · rw [hrev]; exact hstale hnone (hk ▸ hkind)

/-- What fits the job before a change fits it afterwards. -/
lemma Change.fits (phase : Phase) (hf : phase.Fits s.job s.fresh) (hs : ∀ due snapshot, s.scheduler =
      .failing due snapshot → ∀ due' snapshot', phase ≠ .starting due' snapshot') :
    phase.Fits job (s.fresh + 1) := by
  have hlater : ∀ {r : ℕ}, r < s.fresh → r < s.fresh + 1 := fun hr => lt_trans hr (Nat.lt_succ_self _)
  cases phase with
  | idle => trivial
  | listed due =>
    obtain ⟨hlt, hmanual⟩ := hf
    refine ⟨hlater hlt, fun hnone hkind hrev => ?_⟩
    rcases h.revision with hfresh | ⟨hsame, hk, hm, -⟩
    · exact absurd (hfresh.symm.trans hrev) hlt.ne'
    · have hkind' : s.job.kind = .interval := hk.symm.trans hkind
      exact (hm hkind').trans (hmanual hnone hkind' (hsame.symm.trans hrev))
  | considered due | checked due | failing due snapshot => exact ⟨hlater hf.1, h.stale hf.1 hf.2⟩
  | starting due snapshot =>
    obtain ⟨⟨hlt, hstale⟩, hsnap, hoccurrence⟩ := hf
    refine ⟨⟨hlater hlt, h.stale hlt hstale⟩, hlater hsnap, fun hrev t ht => ?_⟩
    rcases h.revision with hfresh | ⟨hsame, -, -, hscheduled⟩
    · exact absurd (hfresh.symm.trans hrev) hsnap.ne'
    · have hscheduled := hscheduled.resolve_right fun ⟨_, _, hfail⟩ => hs _ _ hfail _ _ rfl
      exact hoccurrence (hsame.symm.trans hrev) t (hscheduled.symm.trans ht)

end

end

lemma Job.listed_manual (h : job.listed now = .listed due) :
    due.revision = job.revision ∧ (due.nextRunAt = none → job.manualRunPending = true) := by
  unfold Job.listed at h
  split at h
  · rename_i hlist
    cases h
    refine ⟨rfl, fun hnone => ?_⟩
    by_contra hm
    obtain ⟨henabled, htruthy, t, ht, -⟩ := hlist.resolve_left hm
    rw [if_pos ⟨Bool.eq_false_iff.2 hm, henabled, htruthy⟩, ht] at hnone
    cases hnone
  · cases h

lemma Job.listed_ne_starting (job : Job) (now : Reading) (due : Due) (snapshot : Snapshot) :
    job.listed now ≠ .starting due snapshot := by
  unfold Job.listed
  split <;> exact nofun

lemma Job.listed_fits (h : job.revision < fresh) (now : Reading) :
    (job.listed now).Fits job fresh := by
  cases hlisted : job.listed now with
  | idle => trivial
  | listed due =>
    obtain ⟨hrev, hmanual⟩ := Job.listed_manual hlisted
    exact ⟨hrev ▸ h, fun hnone _ _ => hmanual hnone⟩
  | considered | checked | starting | failing =>
    unfold Job.listed at hlisted
    split at hlisted <;> cases hlisted

lemma Job.occurrence_eq {t : ℚ} (ht : job.scheduledRunAt = some t) (hne : t ≠ 0) :
    job.occurrence now = t := by
  simp only [Job.occurrence, ht, pyOr, if_neg hne, Option.getD_some]

/-- STEP: every event keeps the life on the grid. -/
theorem step_paced (e : Event) (h : s.Paced) : (step cal limits s e).Paced := by
  have hchange := s.jobAfter_change cal limits e
  have hphase := s.schedulerAfter_moves cal limits e
  refine ⟨hchange.paced h, ?_, ?_⟩
  · rcases hchange.revision with hrev | ⟨hrev, -⟩
    · exact lt_of_eq_of_lt hrev (Nat.lt_succ_self _)
    · exact lt_trans (lt_of_eq_of_lt hrev h.revision) (Nat.lt_succ_self _)
  have hfits := h.scheduler
  change (s.schedulerAfter cal limits e).Fits (s.jobAfter cal limits e) (s.fresh + 1)
  generalize s.schedulerAfter cal limits e = phase at hphase
  cases hphase with
  | stay => exact hchange.fits _ hfits fun _ _ hs _ _ => by rw [hs]; exact nofun
  | leave => trivial
  | list now he =>
    exact hchange.fits _ (Job.listed_fits h.revision now) fun _ _ _ => s.job.listed_ne_starting now
  | consider he hs hm =>
    rw [hs] at hfits
    refine hchange.fits (.considered _) ⟨hfits.1, fun hnone hkind hrev => ?_⟩ fun _ _ _ => nofun
    exact absurd (hfits.2 hnone hkind hrev) (by simp [hm])
  | check he hs =>
    rw [hs] at hfits
    exact hchange.fits (.checked _) hfits fun _ _ _ => nofun
  | snapshot he hs =>
    rw [hs] at hfits
    refine hchange.fits (.starting _ _) ⟨hfits, h.revision, fun _ t ht => ?_⟩
      fun _ _ hf => by rw [hs] at hf; cases hf
    by_cases hzero : t = 0
    · exact .inr hzero
    · exact .inl (Job.occurrence_eq ht hzero).symm
  | fail hs =>
    rw [hs] at hfits
    exact hchange.fits (.failing _ _) hfits.1 fun _ _ _ => nofun

/-! ### Between two edits -/

/-- The events between two edits: everything the scheduler, the manual requests, the updates, the
    archive and the reconciliation after a restart do. -/
def Event.between : Event → Bool
  | .edit .. => false
  | .markRan a _ => a.requireExactMatch
  | _ => true

/-- Every occurrence held afterwards was held before, or lies after the one held before. -/
def Advances (before after : Option ℚ) : Prop :=
  ∀ t ∈ after, before = some t ∨ ∃ t₀ ∈ before, t₀ < t

lemma Advances.refl (o : Option ℚ) : Advances o o := fun _ ht => .inl ht

lemma Advances.none (o : Option ℚ) : Advances o none := fun _ ht => absurd ht nofun

lemma Advances.trans {a b c : Option ℚ} (hab : Advances a b) (hbc : Advances b c) :
    Advances a c := by
  intro t ht
  rcases hbc t ht with hb | ⟨t1, ht1, hlt⟩
  · exact hab t hb
  · right
    rcases hab t1 ht1 with ha | ⟨t0, ht0, hlt0⟩
    · exact ⟨t1, ha, hlt⟩
    · exact ⟨t0, ht0, hlt0.trans hlt⟩

section
variable {cal : Calendar} {limits : Limits} {s : Life} {e : Event} {job : Job}

lemma Change.plan (h : Change cal limits s e job) (he : e.between = true) :
    job.toPlan = s.job.toPlan := by
  cases h with
  | edited hedit => subst hedit; cases he
  | ran _ h | failed _ _ h => cases h <;> rfl
  | same | putOff | resumed | paused | requested | answered => rfl

/-- The occurrence of a job is not after the moment a run of it is over. -/
lemma Job.le_occurrence : ∀ t ∈ job.scheduledRunAt, t ≤ max (job.occurrence now) now.1 := by
  intro t ht
  by_cases hzero : t = 0
  · rw [hzero]; exact now.2.le.trans (le_max_right _ _)
  · rw [Job.occurrence_eq ht hzero]; exact le_max_left _ _

/-- MOVE: between edits the occurrence stays, the job ends, or the schedule's next occurrence follows
    one that is not after `after`. -/
theorem Change.moved (h : Change cal limits s e job) (hs : s.Paced) (he : e.between = true) :
    (job.scheduledRunAt = s.job.scheduledRunAt ∧ job.enabled = s.job.enabled) ∨
    (job.scheduledRunAt = none ∧ job.enabled = false) ∨
    ∃ (ran : Job) (after : ℚ) (next : Option ℚ), ran.toPlan = s.job.toPlan ∧
      ran.scheduledRunAt = s.job.scheduledRunAt ∧ ran.nextRunAt = s.job.nextRunAt ∧
      ran.enabled = s.job.enabled ∧ s.job.enabled = true ∧
      nextJobOccurrence cal ran after false = .ok next ∧
      (∀ t ∈ s.job.scheduledRunAt, t ≤ after) ∧
      job.scheduledRunAt = next ∧ job.enabled = next.isSome := by
  cases h with
  | same | putOff | resumed | requested | answered => exact .inl ⟨rfl, rfl⟩
  | edited hedit => subst hedit; cases he
  | paused => exact .inr (.inl ⟨rfl, rfl⟩)
  | failed _ _ h =>
    cases h with
    | raised => exact .inl ⟨rfl, rfl⟩
    | moved hen _ _ hnext =>
      exact .inr (.inr ⟨s.job, _, _, rfl, rfl, rfl, rfl, hen, hnext, Job.le_occurrence, rfl, rfl⟩)
    | ended => exact .inr (.inl ⟨rfl, rfl⟩)
  | @ran a now ha r h =>
    cases h with
    | mismatch | kept | raised => exact .inl ⟨rfl, rfl⟩
    | ended => exact .inr (.inl ⟨rfl, rfl⟩)
    | moved hen _ _ hadvance hmanual hexact hnext =>
      refine .inr (.inr ⟨_, _, _, rfl, rfl, rfl, rfl, hen, hnext, fun t ht => ?_, rfl, rfl⟩)
      have hcurrent : s.job.current = some t := by
        rw [Job.current, show s.job.scheduledRunAt = some t from ht]
        rfl
      cases ha with
      | other =>
        rcases hexact he with hm | hsame
        · exact (hmanual hm t hcurrent).trans (le_max_right _ _)
        · exact (Option.some.inj (hcurrent.symm.trans hsame)).le.trans (le_max_left _ _)
      | manual => exact (hmanual rfl t hcurrent).trans (le_max_right _ _)
      | @scheduled due snapshot _ hphase =>
        have hfits := hs.scheduler
        rw [hphase] at hfits
        rcases hadvance with hrev | hsame
        · rcases hfits.2.2 (hrev _ rfl) t ht with heq | hzero
          · exact heq.le.trans (le_max_left _ _)
          · rw [hzero]; exact now.2.le.trans (le_max_right _ _)
        · have heq : t = snapshot.scheduledRunAt := Option.some.inj (hcurrent.symm.trans hsame)
          exact heq.le.trans (le_max_left _ _)

/-- What follows an occurrence lies after it. -/
lemma Advances.of_next {before next : Option ℚ} (hle : ∀ t ∈ before, t ≤ after)
    (hnext : ∀ x ∈ next, before ≠ Option.none ∧ after < x) : Advances before next := by
  intro x hx
  obtain ⟨hsome, hlt⟩ := hnext x hx
  obtain ⟨t, ht⟩ := Option.ne_none_iff_exists'.1 hsome
  exact .inr ⟨t, ht, (hle t ht).trans_lt hlt⟩

/-- STEP: between edits, the occurrence of an interval job only advances. -/
theorem Change.advances (h : Change cal limits s e job) (hs : s.Paced) (he : e.between = true)
    (hkind : s.job.kind = .interval) (hi : s.job.intervalSeconds = some i) :
    Advances s.job.scheduledRunAt job.scheduledRunAt := by
  rcases h.moved hs he with ⟨hsame, -⟩ | ⟨hnone, -⟩ |
    ⟨ran, after, next, hplan, hscheduled, hran, hen, henabled, hnext, hle, hjob, -⟩
  · rw [hsame]; exact .refl _
  · rw [hnone]; exact .none _
  rw [hjob]
  have hpaced : Jobs.Paced ran := hs.job.of_eq hplan hscheduled hen (by rw [hran]; exact hs.job.tried)
  rcases hpaced.next (by rw [hplan]; exact hkind) (by rw [hplan]; exact hi) hnext with
    ⟨-, -, rfl⟩ | ⟨start, x, hstart, rfl, hleast⟩
  · exact .none _
  refine Advances.of_next hle fun y hy => ?_
  cases hy
  refine ⟨hs.job.held hkind (by rw [hi]; exact nofun) henabled ?_, hleast.1.2⟩
  rw [hplan] at hstart
  rw [hstart]
  exact nofun

end

/-! ### What each event does to the occurrence -/

/-- The next occurrence is the first instant after `t`, unless the job has ended. -/
def Follows (job job' : Job) (i : ℤ) (t : ℚ) : Prop :=
  (job'.enabled = false ∧ job'.scheduledRunAt = none) ∨
    ∃ start ∈ job.scheduleStartAt, ∃ x ∈ job'.scheduledRunAt, IsLeast (instantsAfter start i t) x

/-- The deferrals and parks, and the requests and refusals of manual runs. -/
def Event.defers : Event → Bool
  | .blocked .. | .postpone .. | .unavailable .. | .resumeUpdateParked .. | .requestManualRun
  | .manualDeferred | .manualFailed => true
  | _ => false

/-- How one event treats the occurrence of an interval job. -/
structure Keeps (cal : Calendar) (limits : Limits) (i : ℤ) (s : Life) (e : Event) : Prop where
  /-- an occurrence that ran is followed by the first instant after it and the present -/
  admitted : ∀ now due snapshot, e = .admitted now → s.scheduler = .starting due snapshot →
    s.job.revision = snapshot.revision ∨ s.job.scheduledRunAt = some snapshot.scheduledRunAt →
    Follows s.job (step cal limits s e).job i (max snapshot.scheduledRunAt now.1) ∧
    (s.job.enabled = true ∧ s.job.scheduledRunAt ≠ none ∧ (s.job.counted false).recurring ∧
      ¬ (s.job.counted false).limitReached → (step cal limits s e).job.scheduledRunAt ≠ none)
  /-- and so is an occurrence that failed -/
  failed : ∀ now due snapshot, e = .fail now → s.scheduler = .failing due snapshot →
    s.job.revision = due.revision →
    Follows s.job (step cal limits s e).job i (max (s.job.occurrence now) now.1) ∧
    (s.job.enabled = true ∧ s.job.scheduledRunAt ≠ none ∧ s.job.recurring ∧
      ¬ s.job.limitReached → (step cal limits s e).job.scheduledRunAt ≠ none)
  /-- a deferral or a park leaves it alone -/
  deferred : e.defers = true → (step cal limits s e).job.scheduledRunAt = s.job.scheduledRunAt
  /-- and so does a manual run ahead of it, unless it was the last run -/
  early : ∀ now snapshot t, e = .manualAdmitted now → s.manual = .starting snapshot →
    s.job.scheduledRunAt = some t → now.1 < t →
    (step cal limits s e).job.scheduledRunAt = some t ∨
      ((s.job.counted true).limitReached ∨ s.job.enabled = false ∨ ¬ (s.job.counted true).recurring) ∧
        (step cal limits s e).job.enabled = false ∧ (step cal limits s e).job.scheduledRunAt = none

section
variable {cal : Calendar} {limits : Limits} {s : Life}

lemma Paced.follows (h : Paced job) (hkind : job.kind = .interval) (hi : job.intervalSeconds = some i)
    {next : Option ℚ} (hnext : nextJobOccurrence cal job after false = .ok next) :
    Follows job (job.movedTo next) i after ∧ (job.scheduledRunAt ≠ none → next ≠ none) := by
  rcases h.next hkind hi hnext with ⟨-, hnone, rfl⟩ | ⟨start, x, hstart, rfl, hleast⟩
  · exact ⟨.inl ⟨rfl, rfl⟩, fun hs => absurd hnone hs⟩
  · exact ⟨.inr ⟨start, hstart, x, rfl, hleast⟩, fun _ => nofun⟩

lemma keeps_deferred (he : e.defers = true) :
    (step cal limits s e).job.scheduledRunAt = s.job.scheduledRunAt := by
  have h := s.jobAfter_change cal limits e
  change (s.jobAfter cal limits e).scheduledRunAt = _
  generalize s.jobAfter cal limits e = job at h
  cases h with
  | same | putOff | resumed | requested | answered => rfl
  | edited h | failed h => subst h; cases he
  | ran ha => cases ha <;> cases he
  | paused h => rcases h with rfl | rfl | rfl <;> cases he

/-- EVENT: how one event treats the occurrence of an interval job. -/
theorem keeps (hs : s.Paced) (hkind : s.job.kind = .interval) (hi : s.job.intervalSeconds = some i)
    (e : Event) : Keeps cal limits i s e where
  admitted := by
    rintro now due snapshot rfl hphase hat
    have hran := markRan_ran cal (snapshot.admission false) now s.fresh s.job
    have hjob : (step cal limits s (.admitted now)).job =
        (s.job.markRan cal (snapshot.admission false) now s.fresh).1 := by
      simp only [step, Life.jobAfter, hphase]
    rw [hjob]
    generalize s.job.markRan cal (snapshot.admission false) now s.fresh = r at hran
    have hcounted : Jobs.Paced (s.job.counted false) := hs.job.of_eq rfl rfl rfl hs.job.tried
    cases hran with
    | mismatch hexact => cases hexact
    | raised _ _ _ hk => exact absurd hkind hk
    | kept _ hstays =>
      refine absurd ?_ (hstays.resolve_left (by rintro ⟨⟩))
      refine hat.imp (fun hr _ h => by cases h; exact hr) fun ht => ?_
      rw [Job.current, ht]; rfl
    | moved hen hrec hlim _ _ _ hnext =>
      obtain ⟨hfollows, hsome⟩ := hcounted.follows hkind hi hnext
      exact ⟨hfollows, fun h => hsome h.2.1⟩
    | ended hlast =>
      refine ⟨.inl ⟨rfl, rfl⟩, ?_⟩
      rintro ⟨hen, -, hrec, hlim⟩
      rcases hlast with hl | hd | hr
      · exact absurd hl hlim
      · cases hd.symm.trans hen
      · exact absurd hrec hr
  failed := by
    rintro now due snapshot rfl hphase hat
    have hjob : (step cal limits s (.fail now)).job = s.job.failed cal now := by
      simp only [step, Life.jobAfter, hphase, if_pos hat]
    rw [hjob]
    unfold Job.failed
    split
    · rw [nextJobOccurrence_interval cal s.job hkind]
      obtain ⟨hfollows, hsome⟩ := hs.job.follows hkind hi (nextJobOccurrence_interval cal s.job hkind _ false)
      exact ⟨hfollows, fun h => hsome h.2.1⟩
    · rename_i hstop
      exact ⟨.inl ⟨rfl, rfl⟩, fun h => absurd ⟨h.1, h.2.2⟩ hstop⟩
  deferred := keeps_deferred
  early := by
    rintro now snapshot t rfl hmanual ht hearly
    have hran := markRan_ran cal (snapshot.admission true) now s.fresh s.job
    have hjob : (step cal limits s (.manualAdmitted now)).job =
        (s.job.markRan cal (snapshot.admission true) now s.fresh).1 := by
      simp only [step, Life.jobAfter, hmanual]
    rw [hjob]
    generalize s.job.markRan cal (snapshot.admission true) now s.fresh = r at hran
    cases hran with
    | mismatch hexact => cases hexact
    | raised _ _ _ hk => exact absurd hkind hk
    | kept => exact .inl ht
    | moved _ _ _ _ hlate =>
      have hcurrent : s.job.current = some t := by rw [Job.current, ht]; rfl
      exact absurd (hlate rfl t hcurrent) (not_le.2 hearly)
    | ended hlast => exact .inr ⟨hlast, rfl, rfl⟩

end

/-! ### Runs -/

/-- Values that never decrease strictly increase from one change to the next. -/
lemma destutter_increasing {l : List ℚ} (h : l.Pairwise (· ≤ ·)) :
    (l.destutter (· ≠ ·)).Pairwise (· < ·) := by
  have hle : (l.destutter (· ≠ ·)).Pairwise (· ≤ ·) := h.sublist (List.destutter_sublist _ l)
  have hne := List.isChain_destutter (· ≠ ·) l
  refine (List.isChain_iff_getElem.2 fun n hn => ?_).pairwise
  exact lt_of_le_of_ne (hle.isChain.getElem n hn) (hne.getElem n hn)

/-- The occurrence of the later state has not fallen behind. -/
def Life.Precedes (a b : Life) : Prop := Advances a.job.scheduledRunAt b.job.scheduledRunAt

lemma Life.Precedes.refl (a : Life) : a.Precedes a := Advances.refl _

lemma Life.Precedes.trans (a b c : Life) (hab : a.Precedes b) (hbc : b.Precedes c) : a.Precedes c :=
  Advances.trans hab hbc

/-- Occurrences that advance strictly increase from one to the next. -/
lemma advances_increasing {l : List Life} (h : l.Pairwise Life.Precedes) :
    ((l.filterMap fun u => u.job.scheduledRunAt).destutter (· ≠ ·)).Pairwise (· < ·) := by
  refine destutter_increasing (List.pairwise_filterMap.2 (h.imp fun {a b} hab x hx y hy => ?_))
  rcases hab y hy with ha | ⟨t, ht, hlt⟩
  · exact (Option.some.inj (hx.symm.trans ha)).le
  · rw [Option.some.inj (hx.symm.trans ht)]; exact hlt.le

/-- A life between two edits, of an interval job. -/
structure Ticking (i : ℤ) (plan : Plan) (s : Life) : Prop where
  paced : s.Paced
  kind : plan.kind = .interval
  interval : plan.intervalSeconds = some i
  same : s.job.toPlan = plan

lemma Ticking.step {plan : Plan} (h : Ticking i plan s)
    (he : e.between = true) : Ticking i plan (step cal limits s e) where
  paced := step_paced e h.paced
  kind := h.kind
  interval := h.interval
  same := ((s.jobAfter_change cal limits e).plan he).trans h.same

lemma Ticking.job_kind {plan : Plan} (h : Ticking i plan s) :
    s.job.kind = .interval := (congrArg Plan.kind h.same).trans h.kind

lemma Ticking.job_interval {plan : Plan} (h : Ticking i plan s) :
    s.job.intervalSeconds = some i := (congrArg Plan.intervalSeconds h.same).trans h.interval

/-- CADENCE: after any life, between two edits an interval job holds only instants of its grid, in
    increasing order; what ran or failed is followed by the first instant after it and the present, and
    deferrals, parks and manual runs ahead leave the occurrence where it is, unless the manual run was the
    job's last. -/
theorem interval_jobs_never_drift (cal : Calendar) (limits : Limits) (admits : Except HttpError Unit)
    (jid : String) (req : CreateRequest) (now : Reading) (revision : ℕ) (job : Job)
    (hcreate : create cal admits jid req now revision = .ok job) (before : List Event) (s : Life)
    (hs : s = run (step cal limits) (Life.born job) before) (hkind : s.job.kind = .interval) (i : ℤ)
    (hi : s.job.intervalSeconds = some i) (es : List Event) (hes : ∀ e ∈ es, e.between = true) :
    let held := (trace (step cal limits) s es).filterMap fun u => u.job.scheduledRunAt
    (∀ t ∈ held, ∃ start ∈ s.job.scheduleStartAt, t ∈ instants start i) ∧
    (held.destutter (· ≠ ·)).Pairwise (· < ·) ∧
    ∀ xs e ys, es = xs ++ e :: ys → Keeps cal limits i (run (step cal limits) s xs) e := by
  have hborn : (Life.born job).Paced := ⟨create_paced hcreate, Nat.lt_succ_self _, trivial⟩
  have hpaced : s.Paced := by
    rw [hs]
    exact run_inv (fun u e hu => step_paced e hu) before _ hborn
  have hticking : Ticking i s.job.toPlan s := ⟨hpaced, hkind, hi, rfl⟩
  have halong : ∀ (xs : List Event) (u : Life), (∀ e ∈ xs, e.between = true) →
      Along (step cal limits) (fun _ e => e.between = true) u xs := fun xs u => along_of_forall xs u
  have hreach : ∀ xs, (∀ e ∈ xs, e.between = true) →
      Ticking i s.job.toPlan (run (step cal limits) s xs) := fun xs hxs =>
    run_inv_along (fun u e he hu => Ticking.step hu he) xs s (halong xs s hxs) hticking
  refine ⟨?_, ?_, ?_⟩
  · intro t ht
    obtain ⟨u, hu, htu⟩ := List.mem_filterMap.1 ht
    obtain ⟨xs, ys, rfl, rfl⟩ := mem_trace.1 hu
    have hx := hreach xs fun e he => hes e (List.mem_append_left ys he)
    obtain ⟨start, hstart, hmem⟩ := hx.paced.job.aligned hx.job_kind i hx.job_interval t htu
    exact ⟨start, (congrArg Plan.scheduleStartAt hx.same).symm.trans hstart, hmem⟩
  · refine advances_increasing (trace_pairwise Life.Precedes.trans
      (fun u e he hu => Ticking.step hu he) (fun u e he hu => ?_) es s (halong es s hes) hticking)
    exact (u.jobAfter_change cal limits e).advances hu.paced he hu.job_kind hu.job_interval
  · rintro xs e ys rfl
    have hx := hreach xs fun e he => hes e (List.mem_append_left _ he)
    exact keeps hx.paced hx.job_kind hx.job_interval e

/-- A job every minute that is put off and then runs late: it goes on at the next instant of its grid,
    skipping the one it missed. -/
theorem interval_jobs_never_drift_late :
    let cal := tenSeconds none
    let now : ℕ → Reading := fun n => ⟨n + 1, n.cast_add_one_pos⟩
    let es : List Event := [.list (now 60), .consider, .blocked none (now 60), .list (now 130),
      .consider, .check (now 130), .snapshot (now 130), .admitted (now 130)]
    ∃ job, create cal (.ok ()) "job" { intervalSeconds := some 60, loop := true } (now 0) 7 = .ok job ∧
      let held := (trace (step cal {}) (Life.born job) es).filterMap fun u => u.job.scheduledRunAt
      held.destutter (· ≠ ·) = [61, 181] ∧ (held.destutter (· ≠ ·)).Pairwise (· < ·) := by
  refine ⟨_, rfl, ?_, ?_⟩
  · decide +kernel
  · exact (interval_jobs_never_drift (tenSeconds none) {} (.ok ()) "job"
      { intervalSeconds := some 60, loop := true } ⟨(0 : ℕ) + 1, Nat.cast_add_one_pos 0⟩ 7 _ rfl [] _
      rfl rfl 60 rfl _ (by decide)).2.1

/-- A manual run ahead of the occurrence that is the job's last: the occurrence is cleared. -/
theorem last_manual_run_clears_occurrence :
    let cal := tenSeconds none
    let now : ℕ → Reading := fun n => ⟨n + 1, n.cast_add_one_pos⟩
    ∃ job, create cal (.ok ()) "job" { intervalSeconds := some 60 } (now 0) 7 = .ok job ∧
      let s := run (step cal {}) (Life.born job) [.requestManualRun, .claim, .manualSnapshot (now 1)]
      s.job.enabled = true ∧ s.job.scheduledRunAt = some 61 ∧ (now 1).1 < 61 ∧
        (step cal {} s (.manualAdmitted (now 1))).job.scheduledRunAt = none := by
  refine ⟨_, rfl, ?_⟩
  decide +kernel

end Jobs
