import Mathlib.Data.List.Sort
import Mathlib.Data.Finset.Dedup
import ZenithBot.Jobs.Cadence

/-! COUNT bounds the runs of a rule. The code strips COUNT from a rule and applies it again by counting
    the local times that exist, from the anchor on:

        rule:      t₀  t₁  –  t₃  t₄  t₅ …           – does not exist
        counted:   t₀  t₁     t₃                     COUNT=3

    so the next occurrence is the first counted time after a moment (`nextJobOccurrence_counted`). A job
    without an explicit first run is only ever at counted times. An explicit first run is exact and need
    not be one of them; if all n of them are after it, all n follow it. -/

namespace Jobs
open Lib List

variable {times : ℕ → Option Candidate} {cal : Calendar} {n : ℕ} {job : Job}

/-! ### Counted times -/

/-- The times of a rule that exist, among `fuel` candidates from `iteration` on. -/
def validTimes (times : ℕ → Option Candidate) : (fuel iteration : ℕ) → List ℚ
  | 0, _ => []
  | fuel + 1, iteration =>
    match times iteration with
    | none => []
    | some candidate =>
      if candidate.valid then candidate.timestamp :: validTimes times fuel (iteration + 1)
      else validTimes times fuel (iteration + 1)

/-- The times that COUNT=n leaves of a rule. -/
def countedTimes (times : ℕ → Option Candidate) (n : ℕ) : List ℚ :=
  (validTimes times maxRruleScan 0).take n

/-- SCAN: the loop finds the first counted time that is late enough. -/
theorem scanCounted_eq (times : ℕ → Option Candidate) (n : ℕ) (after : ℚ) (inclusive : Bool) :
    ∀ fuel iteration seen, scanCounted times n after inclusive fuel iteration seen =
      ((validTimes times fuel iteration).take (n - seen)).find? fun t => decide (later t after inclusive) := by
  intro fuel
  induction fuel with
  | zero => simp [scanCounted, validTimes]
  | succ fuel ih =>
    intro iteration seen
    unfold scanCounted validTimes
    cases times iteration with
    | none => simp
    | some candidate =>
      dsimp only
      by_cases hvalid : candidate.valid
      · rw [if_pos hvalid, if_pos hvalid]
        by_cases hcount : n < seen + 1
        · rw [if_pos hcount, show n - seen = 0 by omega]
          rfl
        · obtain ⟨m, hm⟩ : ∃ m, n - seen = m + 1 := ⟨n - seen - 1, by omega⟩
          rw [if_neg hcount, hm, take_succ_cons, find?_cons]
          by_cases hlater : later candidate.timestamp after inclusive
          · rw [if_pos hlater, decide_eq_true hlater]
          · rw [if_neg hlater, decide_eq_false hlater, ih, show n - (seen + 1) = m by omega]
      · rw [if_neg hvalid, if_neg hvalid, ih]

/-- The times a rule yields are in order, where they exist. -/
def Increasing (times : ℕ → Option Candidate) : Prop :=
  ∀ m n c c', m < n → times m = some c → times n = some c' → c.valid → c'.valid →
    c.timestamp < c'.timestamp

lemma mem_validTimes {t : ℚ} :
    ∀ {fuel iteration : ℕ}, t ∈ validTimes times fuel iteration →
      ∃ n c, iteration ≤ n ∧ times n = some c ∧ c.valid ∧ c.timestamp = t := by
  intro fuel
  induction fuel with
  | zero => intro iteration ht; cases ht
  | succ fuel ih =>
    intro iteration ht
    unfold validTimes at ht
    cases hc : times iteration with
    | none => rw [hc] at ht; cases ht
    | some candidate =>
      rw [hc] at ht
      dsimp only at ht
      have hrest : t ∈ validTimes times fuel (iteration + 1) →
          ∃ n c, iteration ≤ n ∧ times n = some c ∧ c.valid ∧ c.timestamp = t := by
        intro h
        obtain ⟨n, c, hn, h⟩ := ih h
        exact ⟨n, c, by omega, h⟩
      split at ht
      · rename_i hvalid
        rcases mem_cons.1 ht with rfl | ht
        · exact ⟨iteration, candidate, le_rfl, hc, hvalid, rfl⟩
        · exact hrest ht
      · exact hrest ht

lemma validTimes_increasing (h : Increasing times) :
    ∀ fuel iteration, (validTimes times fuel iteration).Pairwise (· < ·) := by
  intro fuel
  induction fuel with
  | zero => exact fun _ => Pairwise.nil
  | succ fuel ih =>
    intro iteration
    unfold validTimes
    cases hc : times iteration with
    | none => exact Pairwise.nil
    | some candidate =>
      dsimp only
      split
      · rename_i hvalid
        refine pairwise_cons.2 ⟨fun t ht => ?_, ih _⟩
        obtain ⟨n, c, hn, hc', hvalid', rfl⟩ := mem_validTimes ht
        exact h iteration n candidate c (by omega) hc hc' hvalid hvalid'
      · exact ih _

lemma countedTimes_increasing (h : Increasing times) (n : ℕ) :
    (countedTimes times n).Pairwise (· < ·) :=
  (validTimes_increasing h _ _).sublist (take_sublist _ _)

/-! ### Counted jobs -/

/-- The job has a rule with COUNT=n, whose recurrence yields `times`. -/
def Job.Counts (cal : Calendar) (job : Job) (n : ℕ) (times : ℕ → Option Candidate) : Prop :=
  job.kind = .rrule ∧ ∃ start timezone expression, job.scheduleStartAt = some start ∧
    cal.normalizeJobTimezone job.timezone = .ok timezone ∧
    cal.normalizeRruleExpression (job.rrule.getD "") timezone start = .ok expression ∧
    cal.count expression = some n ∧ times = cal.times expression timezone start

lemma Job.Counts.of_plan {job' : Job} (h : job.Counts cal n times) (hplan : job'.toPlan = job.toPlan) :
    job'.Counts cal n times := by
  unfold Job.Counts at h ⊢
  rw [hplan]
  exact h

/-- NEXT: a counted job goes on at the first counted time after a moment. -/
theorem nextJobOccurrence_counted (h : job.Counts cal n times) (after : ℚ) :
    nextJobOccurrence cal job after false =
      .ok ((countedTimes times n).find? fun t => decide (after < t)) := by
  obtain ⟨hkind, start, timezone, expression, hstart, htimezone, hexpression, hcount, rfl⟩ := h
  have hanchor : job.anchor.getD after = start := by rw [Job.anchor, hstart]; rfl
  have hlater : (fun t => decide (later t after false)) = fun t => decide (after < t) := by
    simp [later]
  unfold nextJobOccurrence
  rw [hkind]
  dsimp only
  rw [htimezone, ok_bind, hanchor, hexpression, ok_bind, hcount]
  dsimp only
  rw [scanCounted_eq, hlater]
  rfl

/-- A life of a counted job that is never edited. -/
structure Counting (cal : Calendar) (n : ℕ) (times : ℕ → Option Candidate) (first : Option ℚ)
    (s : Life) : Prop where
  paced : s.Paced
  counts : s.job.Counts cal n times
  held : s.job.enabled = true → s.job.scheduledRunAt ≠ none
  among : ∀ t ∈ s.job.scheduledRunAt, t ∈ countedTimes times n ∨ first = some t

section
variable {cal : Calendar} {limits : Limits} {n : ℕ} {times : ℕ → Option Candidate} {first : Option ℚ}
  {s : Life} {e : Event} {job : Job}

/-- What a counted job moves to is a counted time after the moment it moves from. -/
lemma find?_counted {l : List ℚ} {after x : ℚ} (h : x ∈ l.find? fun t => decide (after < t)) :
    x ∈ l ∧ after < x :=
  ⟨mem_of_find?_eq_some h, by simpa using find?_some h⟩

lemma Change.counted (h : Change cal limits s e job) (hs : Counting cal n times first s)
    (he : e.between = true) :
    (∀ t ∈ job.scheduledRunAt, t ∈ countedTimes times n ∨ first = some t) ∧
    (job.enabled = true → job.scheduledRunAt ≠ none) ∧
    Advances s.job.scheduledRunAt job.scheduledRunAt := by
  rcases h.moved hs.paced he with ⟨hsame, hen⟩ | ⟨hnone, hen⟩ |
    ⟨ran, after, next, hplan, -, -, -, henabled, hnext, hle, hjob, hen⟩
  · rw [hsame, hen]
    exact ⟨hs.among, hs.held, .refl _⟩
  · rw [hnone, hen]
    exact ⟨nofun, nofun, .none _⟩
  · rw [nextJobOccurrence_counted (hs.counts.of_plan hplan)] at hnext
    cases hnext
    rw [hjob, hen]
    refine ⟨fun t ht => .inl (find?_counted ht).1, fun h => Option.isSome_iff_ne_none.1 h, ?_⟩
    exact Advances.of_next hle fun x hx => ⟨hs.held henabled, (find?_counted hx).2⟩

lemma Counting.step (h : Counting cal n times first s) (he : e.between = true) :
    Counting cal n times first (step cal limits s e) where
  paced := step_paced e h.paced
  counts := h.counts.of_plan ((s.jobAfter_change cal limits e).plan he)
  held := ((s.jobAfter_change cal limits e).counted h he).2.1
  among := ((s.jobAfter_change cal limits e).counted h he).1

end

/-- CREATE: a new counted job is at its explicit first run, or at a counted time. -/
theorem create_counting {admits : Except HttpError Unit} {jid : String} {req : CreateRequest}
    {now : Reading} {revision : ℕ} (h : create cal admits jid req now revision = .ok job)
    (hcounts : job.Counts cal n times) {first : Option ℚ}
    (hfirst : parseJobTimestamp cal req.firstRunAt job.timezone = .ok first) :
    Counting cal n times first (Life.born job) ∧
      (∀ f ∈ first, job.scheduledRunAt = none ∨ job.scheduledRunAt = some f) := by
  have hpaced : (Life.born job).Paced := ⟨create_paced h, Nat.lt_succ_self _, trivial⟩
  obtain ⟨firstRunAt, base, hbase, hstarted⟩ := create_ok h
  rcases Job.started_ok hstarted with ⟨hdis, rfl⟩ | ⟨hen, next, hnext, rfl⟩
  · refine ⟨⟨hpaced, hcounts, fun hen => absurd (hdis.symm.trans hen) (by simp), ?_⟩,
      fun _ _ => .inl hbase.scheduled⟩
    exact fun t ht => absurd (hbase.scheduled.symm.trans ht) (by simp)
  · have hsame : firstRunAt = first := Except.ok.inj (hbase.parsed.symm.trans hfirst)
    subst hsame
    have hkind : base.kind = .rrule := hcounts.1
    have hbasecounts : base.Counts cal n times := hcounts.of_plan rfl
    have hheld : (next.isSome || decide (base.kind = .interval)) = true → next ≠ none := by
      rw [hkind]
      intro hsome
      exact Option.isSome_iff_ne_none.1 (by simpa using hsome)
    cases firstRunAt with
    | some f =>
      cases hnext
      exact ⟨⟨hpaced, hcounts, fun _ => by rintro ⟨⟩, fun t ht => .inr ht⟩, fun g hg => .inr hg⟩
    | none =>
      rw [firstOccurrence, if_neg (by rw [hkind]; simp),
        nextJobOccurrence_counted hbasecounts] at hnext
      cases hnext
      exact ⟨⟨hpaced, hcounts, hheld, fun t ht => .inl (find?_counted ht).1⟩, by simp⟩

/-! ### The bound -/

/-- Increasing values among those of an increasing list are a part of it, in its order. -/
lemma sublist_of_increasing {l1 l2 : List ℚ} (h1 : l1.Pairwise (· < ·)) (h2 : l2.Pairwise (· < ·))
    (h : ∀ t ∈ l1, t ∈ l2) : l1.Sublist l2 := by
  have hle : ∀ {l : List ℚ}, l.Pairwise (· < ·) → l.Pairwise (· ≤ ·) := fun hl =>
    hl.imp fun hab => hab.le
  have hnodup : l1.Nodup := h1.imp fun hab => hab.ne
  exact sublist_of_subperm_of_pairwise (subperm_of_subset hnodup h) (hle h1) (hle h2)

/-- Fewer than n of at most n counted times are left for an occurrence that is not before all n. -/
lemma length_after_lt {l rest : List ℚ} {f : ℚ} (hlength : l.length ≤ n)
    (hcond : l.length < n ∨ ∃ t ∈ l, t ≤ f) (hrest : rest.Sublist l) (hafter : ∀ t ∈ rest, f < t) :
    rest.length < n := by
  rcases hcond with hlt | ⟨t, ht, hle⟩
  · exact hrest.length_le.trans_lt hlt
  · refine lt_of_le_of_ne (hrest.length_le.trans hlength) fun heq => ?_
    -- the part would be the whole
    have hall : rest = l := hrest.eq_of_length_le (heq ▸ hlength)
    exact absurd (hafter t (hall ▸ ht)) (not_lt.2 hle)

/-- The occurrences that a life holds, each as often as it is entered. -/
def occurrencesHeld (cal : Calendar) (limits : Limits) (s : Life) (es : List Event) : List ℚ :=
  ((trace (step cal limits) s es).filterMap fun u => u.job.scheduledRunAt).destutter (· ≠ ·)

/-- COUNT: the occurrences of a rule with COUNT=n that is never edited are, in order, an explicit first
    run and times that the rule counts, so n + 1 at most; and n, unless an explicit first run is before n
    counted times. -/
theorem rrule_count_bounds_runs (cal : Calendar) (limits : Limits) (admits : Except HttpError Unit)
    (jid : String) (req : CreateRequest) (now : Reading) (revision : ℕ) (job : Job)
    (hcreate : create cal admits jid req now revision = .ok job) (n : ℕ)
    (times : ℕ → Option Candidate) (hcounts : job.Counts cal n times) (hincreasing : Increasing times)
    (first : Option ℚ) (hfirst : parseJobTimestamp cal req.firstRunAt job.timezone = .ok first)
    (es : List Event) (hes : ∀ e ∈ es, e.between = true) :
    let held := occurrencesHeld cal limits (Life.born job) es
    held.Pairwise (· < ·) ∧ held.Sublist (first.toList ++ countedTimes times n) ∧
      held.length ≤ n + 1 ∧
      ((∀ f ∈ first, (countedTimes times n).length < n ∨ ∃ t ∈ countedTimes times n, t ≤ f) →
        held.length ≤ n) := by
  obtain ⟨hborn, hstart⟩ := create_counting hcreate hcounts hfirst
  have halong : Along (step cal limits) (fun _ e => e.between = true) (Life.born job) es :=
    along_of_forall es _ hes
  have hadvance : (trace (step cal limits) (Life.born job) es).Pairwise Life.Precedes :=
    trace_pairwise Life.Precedes.trans (fun u e he hu => Counting.step hu he)
      (fun u e he hu => ((u.jobAfter_change cal limits e).counted hu he).2.2) es _ halong hborn
  have hheld : (occurrencesHeld cal limits (Life.born job) es).Pairwise (· < ·) :=
    advances_increasing hadvance
  have hcounted := countedTimes_increasing hincreasing n
  have hlength : (countedTimes times n).length ≤ n := length_take_le _ _
  -- where the occurrences come from
  have hfrom : ∀ t ∈ occurrencesHeld cal limits (Life.born job) es,
      (t ∈ countedTimes times n ∨ first = some t) ∧
      (job.scheduledRunAt = some t ∨ ∃ t₀ ∈ job.scheduledRunAt, t₀ < t) := by
    intro t ht
    obtain ⟨u, hu, htu⟩ := mem_filterMap.1 ((destutter_sublist _ _).subset ht)
    refine ⟨?_, trace_head Life.Precedes.refl hadvance u hu t htu⟩
    obtain ⟨xs, ys, rfl, rfl⟩ := mem_trace.1 hu
    have hxs := run_inv_along (fun u e he hu => Counting.step hu he) xs _
      ((along_append xs ys _).1 halong).1 hborn
    exact hxs.among t htu
  refine ⟨hheld, ?_⟩
  cases first with
  | none =>
    have hsub := sublist_of_increasing hheld hcounted fun t ht => (hfrom t ht).1.resolve_right nofun
    have hle := hsub.length_le.trans hlength
    exact ⟨hsub, hle.trans (Nat.le_succ n), fun _ => hle⟩
  | some f =>
    -- an explicit first run, then counted times after it
    have hlater : ∀ t ∈ occurrencesHeld cal limits (Life.born job) es, t = f ∨ f < t := by
      intro t ht
      rcases hstart f rfl with hnone | hsome
      · rcases (hfrom t ht).2 with h | ⟨t₀, h, -⟩ <;> rw [hnone] at h <;> cases h
      · rcases (hfrom t ht).2 with h | ⟨t₀, h, hlt⟩ <;> rw [hsome] at h <;> cases h
        · exact .inl rfl
        · exact .inr hlt
    have hrest : ((countedTimes times n).filter fun t => decide (f < t)).Sublist (countedTimes times n) :=
      filter_sublist
    have hsub : (occurrencesHeld cal limits (Life.born job) es).Sublist
        (f :: (countedTimes times n).filter fun t => decide (f < t)) := by
      refine sublist_of_increasing hheld (pairwise_cons.2 ⟨?_, hcounted.sublist hrest⟩) ?_
      · simp
      · intro t ht
        rcases hlater t ht with rfl | hlt
        · exact mem_cons_self
        · refine mem_cons_of_mem _ (mem_filter.2 ⟨?_, decide_eq_true hlt⟩)
          exact (hfrom t ht).1.resolve_right fun hf => hlt.ne (Option.some.inj hf)
    have hall := hsub.trans (hrest.cons_cons f)
    refine ⟨hall, hall.length_le.trans (Nat.succ_le_succ hlength), fun hcond => ?_⟩
    exact hsub.length_le.trans (length_after_lt hlength (hcond f rfl) hrest fun t ht => by
      simpa using (mem_filter.1 ht).2)

lemma tenSeconds_increasing (count : Option ℕ) (expression timezone : String) (anchor : ℚ) :
    Increasing ((tenSeconds count).times expression timezone anchor) := by
  intro m n c c' hlt hc hc' _ _
  cases hc
  cases hc'
  have : (m : ℚ) < n := by exact_mod_cast hlt
  linarith

/-- A rule with COUNT=2 that is given no first run: it runs once, fails once and ends. -/
theorem rrule_count_bounds_runs_two :
    let cal := tenSeconds (some 2)
    let now : ℕ → Reading := fun n => ⟨n + 1, n.cast_add_one_pos⟩
    let es : List Event := [.list (now 11), .consider, .check (now 11), .snapshot (now 11),
      .admitted (now 11), .list (now 40), .consider, .check (now 40), .snapshot (now 40),
      .refused, .fail (now 40)]
    ∃ job, create cal (.ok ()) "job" { rrule := some "r" } (now 0) 7 = .ok job ∧
      occurrencesHeld cal {} (Life.born job) es = [11, 21] ∧
      (occurrencesHeld cal {} (Life.born job) es).length ≤ 2 := by
  refine ⟨_, rfl, ?_, ?_⟩
  · decide +kernel
  · exact (rrule_count_bounds_runs (tenSeconds (some 2)) {} (.ok ()) "job" { rrule := some "r" }
      ⟨(0 : ℕ) + 1, Nat.cast_add_one_pos 0⟩ 7 _ rfl 2 _
      ⟨rfl, _, _, _, rfl, rfl, rfl, rfl, rfl⟩ (tenSeconds_increasing _ _ _ _) none rfl _
      (by decide)).2.2.2 nofun

/-- A rule with COUNT=1 and an explicit first run that is not one of its times: it runs twice. -/
theorem off_rule_first_run_is_not_counted :
    let cal := tenSeconds (some 1)
    let now : ℕ → Reading := fun n => ⟨n + 1, n.cast_add_one_pos⟩
    let es : List Event := [.list (now 5), .consider, .check (now 5), .snapshot (now 5),
      .admitted (now 5)]
    ∃ job, create cal (.ok ()) "job" { rrule := some "r", firstRunAt := some "00005" } (now 0) 7 =
        .ok job ∧ job.maxRuns = none ∧
      occurrencesHeld cal {} (Life.born job) es = [5, 15] ∧
      ¬ (occurrencesHeld cal {} (Life.born job) es).length ≤ 1 := by
  refine ⟨_, rfl, rfl, ?_, ?_⟩
  · decide +kernel
  · decide +kernel

end Jobs
