import Mathlib.Tactic
import ZenithBot.Saves.Writer

/-! What an awaited save may promise. A call is *served* at every moment in one of three ways:

        its pending object is still attached   ─▶  a later encoding will cover it
        the worker is writing the object       ─▶  the snapshot of that write covers it
        the object is done                     ─▶  it has an error, or a complete write covers it

    One thread at a time can still replace the file, so snapshots reach it in the order in which they
    were encoded. Both hold along every run in which the worker is never cancelled over a write that
    could still fail. -/

namespace Saves
open Lib List

/-! ### What is promised -/

/-- A snapshot encoded after the call began, fsynced if the call asked for it. -/
def Covers (c : Call) (w : Write) : Prop :=
  c.began < w.encodedAt ∧ (c.durable = true → w.durable = true)

def Covered (s : Store) (c : Call) : Prop := ∃ w ∈ s.complete, Covers c w

/-- A call that has returned is covered by a complete write, and what replaces the file is newer than
    what it replaces. -/
structure Honest (s : Store) : Prop where
  returned : ∀ i c, s.calls i = some c → c.outcome = .returned → Covered s c
  complete : ∀ w ∈ s.complete, w ∈ s.landed
  order : s.landed.Pairwise fun v w => v.encodedAt < w.encodedAt

/-- The snapshot is in its file for good: nothing that could fail is left of the write. -/
def Thread.Written (t : Thread) : Prop :=
  t.phase = .finished true ∨ t.phase = .landed ∧ t.write.durable = false

/-- The worker is not cancelled in the middle of a write. -/
def Unbroken (s : Store) : Op → Prop
  | .cancelWorker _ _ => match s.worker with
    | .writing _ t => t.Written
    | _ => True
  | _ => True

/-! ### The invariant -/

/-- An object whose event is not set yet. -/
structure Pending.Open (x : Pending) : Prop where
  done : x.done = false
  error : x.error = none

def Served (s : Store) (c : Call) : Prop :=
  s.pendingSave = some c.pending ∨
  (∃ t, s.worker = .writing c.pending t ∧ Covers c t.write) ∨
  (s.pendings c.pending).done = true ∧ ((s.pendings c.pending).error = none → Covered s c)

/-- The worker's thread before moment `n`: nothing newer has replaced the file, and it has done what
    its phase says. -/
structure ThreadFits (n : ℕ) (s : Store) (t : Thread) : Prop where
  past : t.write.encodedAt < n
  newest : t.phase = .queued ∨ t.phase = .running → ∀ w ∈ s.landed, w.encodedAt < t.write.encodedAt
  landed : t.phase = .landed → t.write ∈ s.landed
  complete : t.Written → t.write ∈ s.complete

structure CallFits (n : ℕ) (s : Store) (c : Call) : Prop where
  began : c.began < n
  made : c.pending < s.nextPending
  durable : c.durable = true → (s.pendings c.pending).durable = true
  served : Served s c
  returned : c.outcome = .returned → Covered s c

/-- The invariant before moment `n`. -/
structure Inv (n : ℕ) (s : Store) : Prop where
  attached : ∀ p, s.pendingSave = some p → p < s.nextPending
  waiting : ∀ p, s.worker = .waiting p → s.pendingSave = some p
  writing : ∀ p t, s.worker = .writing p t →
    p < s.nextPending ∧ s.pendingSave ≠ some p ∧ (s.pendings p).Open ∧ ThreadFits n s t
  isOpen : ∀ p, s.pendingSave = some p → (s.pendings p).Open
  orphans : ∀ t ∈ s.orphans, t.Written
  past : ∀ w ∈ s.landed, w.encodedAt < n
  order : s.landed.Pairwise fun v w => v.encodedAt < w.encodedAt
  complete : ∀ w ∈ s.complete, w ∈ s.landed
  calls : ∀ i c, s.calls i = some c → CallFits n s c

lemma Inv.honest {n : ℕ} {s : Store} (h : Inv n s) : Honest s where
  returned i c hc := (h.calls i c hc).returned
  complete := h.complete
  order := h.order

lemma empty_inv : Inv 0 .empty where
  attached _ := nofun
  waiting _ := nofun
  writing _ _ := nofun
  isOpen _ := nofun
  orphans _ := nofun
  past _ := nofun
  order := .nil
  complete _ := nofun
  calls _ _ := nofun

section Steps
variable {n : ℕ} {s : Store}
variable {i p : ℕ} {s' : Store} {c : Call} {durable : Bool} {t : Thread}
  {landed complete : List Write} {worker : Worker}

lemma ThreadFits.later (h : ThreadFits n s t) : ThreadFits (n + 1) s t :=
  { h with past := Nat.lt_succ_of_lt h.past }

lemma CallFits.later (h : CallFits n s c) : CallFits (n + 1) s c :=
  { h with began := Nat.lt_succ_of_lt h.began }

lemma Inv.later (h : Inv n s) : Inv (n + 1) s :=
  { h with
    writing := fun p t hw => by
      obtain ⟨hp, hne, he, ht⟩ := h.writing p t hw
      exact ⟨hp, hne, he, ht.later⟩
    past := fun w hw => Nat.lt_succ_of_lt (h.past w hw)
    calls := fun i c hc => (h.calls i c hc).later }

lemma Inv.covered (h : Inv n s) (hc : s.calls i = some c) (hdone : (s.pendings c.pending).done = true)
    (herr : (s.pendings c.pending).error = none) : Covered s c := by
  rcases (h.calls i c hc).served with hatt | ⟨t, hw, -⟩ | ⟨-, hcov⟩
  · simp [(h.isOpen _ hatt).done] at hdone
  · simp [(h.writing _ t hw).2.2.1.done] at hdone
  · exact hcov herr

/-! ### Marks and calls -/

/-- What `mark_dirty` does to the objects: the one it returns is attached and asks for no less, and no
    other changes. -/
structure Marked (s s' : Store) (p : ℕ) (durable : Bool) : Prop where
  attached : s'.pendingSave = some p
  kept : ∀ q, s.pendingSave = some q → q = p
  bound : p < s'.nextPending ∧ s.nextPending ≤ s'.nextPending
  others : ∀ q < s.nextPending, q ≠ p → s'.pendings q = s.pendings q
  durable : durable = true → (s'.pendings p).durable = true
  upgrades : p < s.nextPending → (s.pendings p).durable = true → (s'.pendings p).durable = true
  fresh : s.pendingSave = some p ∨ s.nextPending ≤ p
  isOpen : (s'.pendings p).Open
  worker : s'.worker = if s.worker = .idle then .created else s.worker
  calls : s'.calls = s.calls
  files : s'.orphans = s.orphans ∧ s'.landed = s.landed ∧ s'.complete = s.complete

lemma Inv.marked (h : Inv n s) (durable wake : Bool) :
    Marked s (s.markDirty durable wake).2 (s.markDirty durable wake).1 durable := by
  unfold Store.markDirty
  dsimp only
  split
  · rename_i p hp
    refine ⟨hp, fun q hq => (Option.some.inj (hp.symm.trans hq)).symm, ⟨h.attached p hp, le_rfl⟩,
      fun q _ hq => Function.update_of_ne hq _ _, fun hd => ?_, fun _ hd => ?_, .inl hp, ?_, rfl, rfl,
      rfl, rfl, rfl⟩
    · simp [hd]
    · simp [hd]
    · simpa using ⟨(h.isOpen p hp).done, (h.isOpen p hp).error⟩
  · rename_i hp
    refine ⟨rfl, fun q hq => absurd (hp.symm.trans hq) nofun, ⟨Nat.lt_succ_self _, Nat.le_succ _⟩,
      fun q _ hq => Function.update_of_ne hq _ _, fun hd => ?_, fun hlt => absurd hlt (lt_irrefl _),
      .inr le_rfl, ?_, rfl, rfl, rfl, rfl, rfl⟩
    · simp [hd]
    · simpa using ⟨rfl, rfl⟩

lemma Marked.served (hm : Marked s s' p durable) (hc : CallFits n s c) : Served s' c := by
  rcases hc.served with hatt | ⟨t, hw, hcov⟩ | ⟨hdone, herr⟩
  · exact .inl (hm.kept _ hatt ▸ hm.attached)
  · refine .inr (.inl ⟨t, ?_, hcov⟩)
    rw [hm.worker, hw, if_neg nofun]
  · by_cases hq : c.pending = p
    · exact .inl (hq ▸ hm.attached)
    · refine .inr (.inr ?_)
      unfold Covered
      rw [hm.others _ hc.made hq, hm.files.2.2]
      exact ⟨hdone, herr⟩

lemma Marked.callFits (hm : Marked s s' p durable) (hc : CallFits n s c) : CallFits (n + 1) s' c where
  began := Nat.lt_succ_of_lt hc.began
  made := hc.made.trans_le hm.bound.2
  durable hd := by
    by_cases hq : c.pending = p
    · exact hq ▸ hm.upgrades (hq ▸ hc.made) (hq ▸ hc.durable hd)
    · rw [hm.others _ hc.made hq]
      exact hc.durable hd
  served := hm.served hc
  returned ho := by
    unfold Covered
    rw [hm.files.2.2]
    exact hc.returned ho

/-- MARK: `mark_dirty` keeps the invariant. -/
theorem Marked.inv (hm : Marked s s' p durable) (h : Inv n s) : Inv (n + 1) s' where
  attached q hq := by
    rw [hm.attached] at hq
    exact Option.some.inj hq ▸ hm.bound.1
  waiting q hq := by
    rw [hm.worker] at hq
    split at hq
    · cases hq
    · rw [hm.attached, hm.kept q (h.waiting q hq)]
  writing q t hq := by
    rw [hm.worker] at hq
    split at hq
    · cases hq
    · obtain ⟨hlt, hne, he, ht⟩ := h.writing q t hq
      have hqp : q ≠ p := by
        rintro rfl
        exact hm.fresh.elim hne fun hle => absurd hlt (not_lt.2 hle)
      refine ⟨hlt.trans_le hm.bound.2, ?_, ?_, ?_⟩
      · rw [hm.attached]
        exact fun heq => hqp (Option.some.inj heq).symm
      · rw [hm.others q hlt hqp]
        exact he
      · exact ⟨Nat.lt_succ_of_lt ht.past, hm.files.2.1 ▸ ht.newest, hm.files.2.1 ▸ ht.landed,
          hm.files.2.2 ▸ ht.complete⟩
  isOpen q hq := by
    rw [hm.attached] at hq
    exact Option.some.inj hq ▸ hm.isOpen
  orphans := hm.files.1 ▸ h.orphans
  past w hw := Nat.lt_succ_of_lt (h.past w (hm.files.2.1 ▸ hw))
  order := hm.files.2.1 ▸ h.order
  complete := by
    rw [hm.files.2.1, hm.files.2.2]
    exact h.complete
  calls i c hc := hm.callFits (h.calls i c (hm.calls ▸ hc))

/-- FRAME: the clock, the calls and the lost threads may change. -/
theorem Inv.frame (h : Inv n s) {now k : ℕ} {orphans : List Thread} {calls : ℕ → Option Call}
    (horphans : ∀ t ∈ orphans, t.Written) (hcalls : ∀ i c, calls i = some c → CallFits n s c) :
    Inv n { s with now := now, orphans := orphans, calls := calls, nextCall := k } := by
  refine { h with writing := fun p t hw => ?_, orphans := horphans, calls := fun i c hc => ?_ }
  · obtain ⟨hp, hne, he, ht⟩ := h.writing p t hw
    exact ⟨hp, hne, he, ht.1, ht.2, ht.3, ht.4⟩
  · have hfits := hcalls i c hc
    exact ⟨hfits.1, hfits.2, hfits.3, hfits.4, hfits.5⟩

lemma Inv.call (h : Inv n s) (i : ℕ) (c : Call) (k : ℕ) (hc : CallFits n s c) :
    Inv n { s with calls := Function.update s.calls i (some c), nextCall := k } := by
  refine h.frame h.orphans fun j d hd => ?_
  by_cases hj : j = i
  · have hd : some c = some d := by simpa [hj] using hd
    exact Option.some.inj hd ▸ hc
  · exact h.calls j d (by simpa [hj] using hd)

/-- SAVE: the new call is attached to the object it has marked. -/
theorem save_inv (h : Inv s.now s) (durable flush : Bool) :
    Inv (s.now + 1) (s.save durable flush) := by
  have hm := h.marked durable (flush || durable)
  refine (hm.inv h).call _ _ _ ⟨Nat.lt_succ_self _, hm.bound.1, hm.durable, .inl hm.attached, ?_⟩
  dsimp only
  split <;> nofun

lemma cancelCaller_inv (h : Inv n s) (i : ℕ) : Inv n (s.cancelCaller i) := by
  unfold Store.cancelCaller
  split
  · exact h
  · rename_i c hc
    have hfits := h.calls i c hc
    exact h.call i _ s.nextCall ⟨hfits.1, hfits.2, hfits.3, hfits.4, hfits.5⟩

/-- WAKE: a call that finds the event set and no error is covered. -/
theorem wakeCaller_inv (h : Inv n s) (i : ℕ) : Inv n (s.wakeCaller i) := by
  unfold Store.wakeCaller
  split
  · exact h
  · rename_i c hc
    have hfits := h.calls i c hc
    split
    · exact h
    · rename_i hdone
      have hdone : (s.pendings c.pending).done = true := by
        simpa using fun hf => hdone (.inl hf)
      refine h.call i _ s.nextCall ⟨hfits.1, hfits.2, hfits.3, hfits.4, fun ho => ?_⟩
      cases herr : (s.pendings c.pending).error with
      | some e => simp [herr] at ho
      | none =>
        have hcov : Covered s c := h.covered hc hdone herr
        exact hcov

/-! ### The worker -/

/-- The object `p` leaves the worker or its attachment with its event set: with an error, or with every
    call that waits for it covered. -/
structure Settles (s s' : Store) (p : ℕ) : Prop where
  others : ∀ q, q ≠ p → s'.pendings q = s.pendings q
  done : (s'.pendings p).done = true
  durable : (s'.pendings p).durable = (s.pendings p).durable
  honest : (s'.pendings p).error = none → ∀ i c, s.calls i = some c → c.pending = p → Covered s' c
  attached : ∀ q, s'.pendingSave = some q → s.pendingSave = some q ∧ q ≠ p
  leaves : ∀ q, s.pendingSave = some q → q ≠ p → s'.pendingSave = some q
  worker : ∀ q t, s.worker = .writing q t → q = p
  next : s'.worker = .idle ∨ s'.worker = s'.nextRound
  same : s'.nextPending = s.nextPending ∧ s'.calls = s.calls ∧ s'.orphans = s.orphans
  landed : s'.landed = s.landed ∨ ∃ w, s'.landed = s.landed ++ [w] ∧ w.encodedAt = s.now
  grows : ∀ w ∈ s.complete, w ∈ s'.complete
  complete : ∀ w ∈ s'.complete, w ∈ s.complete ∨ w ∈ s'.landed

section
variable (hs : Settles s s' p)
include hs

/-- Between two writes the worker waits for what is attached, or is gone. -/
lemma Settles.not_writing (q : ℕ) (t : Thread) : s'.worker ≠ .writing q t := by
  intro hw
  rcases hs.next with h | h
  · exact absurd (h.symm.trans hw) nofun
  · unfold Store.nextRound at h
    split at h <;> exact absurd (h.symm.trans hw) nofun

lemma Settles.served (hi : s.calls i = some c) (hc : Served s c) : Served s' c := by
  by_cases hp : c.pending = p
  · exact .inr (.inr ⟨hp ▸ hs.done, fun he => hs.honest (hp ▸ he) i c hi hp⟩)
  · rcases hc with hatt | ⟨t, hw, -⟩ | ⟨hdone, herr⟩
    · exact .inl (hs.leaves _ hatt hp)
    · exact absurd (hs.worker _ t hw) hp
    · refine .inr (.inr ?_)
      rw [hs.others _ hp]
      refine ⟨hdone, fun he => ?_⟩
      obtain ⟨w, hw, hcov⟩ := herr he
      exact ⟨w, hs.grows w hw, hcov⟩

/-- SETTLE: an object that leaves honestly keeps the invariant. -/
theorem Settles.inv {m : ℕ} (h : Inv s.now s) (hm : s.now ≤ m)
    (hpast : ∀ w ∈ s'.landed, w.encodedAt < m) : Inv m s' where
  attached q hq := hs.same.1 ▸ h.attached q (hs.attached q hq).1
  waiting q hq := by
    rcases hs.next with hn | hn
    · exact absurd (hn.symm.trans hq) nofun
    · rw [hq] at hn
      unfold Store.nextRound at hn
      split at hn
      · cases hn
      · rename_i hsome
        cases hn
        exact hsome
  writing q t hq := absurd hq (hs.not_writing q t)
  isOpen q hq := by
    obtain ⟨hold, hne⟩ := hs.attached q hq
    rw [hs.others q hne]
    exact h.isOpen q hold
  orphans := hs.same.2.2 ▸ h.orphans
  past := hpast
  order := by
    rcases hs.landed with heq | ⟨v, heq, hv⟩
    · exact heq ▸ h.order
    · rw [heq, pairwise_append]
      refine ⟨h.order, pairwise_singleton _ _, fun w hw u hu => ?_⟩
      rw [mem_singleton.1 hu, hv]
      exact h.past w hw
  complete w hw := by
    rcases hs.complete w hw with hold | hnew
    · rcases hs.landed with heq | ⟨v, heq, -⟩
      · exact heq ▸ h.complete w hold
      · exact heq ▸ mem_append_left _ (h.complete w hold)
    · exact hnew
  calls i c hc := by
    rw [hs.same.2.1] at hc
    have hfits := h.calls i c hc
    refine ⟨hfits.began.trans_le hm, hs.same.1 ▸ hfits.made, fun hd => ?_,
      hs.served hc hfits.served, fun ho => ?_⟩
    · by_cases hp : c.pending = p
      · rw [hp, hs.durable, ← hp]
        exact hfits.durable hd
      · rw [hs.others _ hp]
        exact hfits.durable hd
    · obtain ⟨w, hw, hcov⟩ := hfits.returned ho
      exact ⟨w, hs.grows w hw, hcov⟩

/-- A write of this moment is the newest, so a step that settles an object ends in the invariant. -/
lemma Settles.inv_succ (h : Inv s.now s) : Inv (s.now + 1) s' := by
  refine hs.inv h (Nat.le_succ _) fun w hw => ?_
  rcases hs.landed with heq | ⟨v, heq, hv⟩
  · exact Nat.lt_succ_of_lt (h.past w (heq ▸ hw))
  · rw [heq, mem_append, mem_singleton] at hw
    rcases hw with hw | rfl
    · exact Nat.lt_succ_of_lt (h.past w hw)
    · omega

end

/-- The shape of all those steps: `settle`, with what is attached, the worker and the file. -/
lemma settles_settle (error : Option String) {pend : Option ℕ} (hopen : (s.pendings p).Open)
    (hhonest : error = none → ∀ i c, s.calls i = some c → c.pending = p → ∃ v ∈ complete, Covers c v)
    (hpend : ∀ q, pend = some q ↔ s.pendingSave = some q ∧ q ≠ p)
    (hworker : ∀ q t, s.worker = .writing q t → q = p)
    (hnext : worker = .idle ∨ worker = { s with pendingSave := pend }.nextRound)
    (hlanded : landed = s.landed ∨ ∃ w, landed = s.landed ++ [w] ∧ w.encodedAt = s.now)
    (hgrows : ∀ w ∈ s.complete, w ∈ complete) (hcomplete : ∀ w ∈ complete, w ∈ s.complete ∨ w ∈ landed) :
    Settles s { s.settle p error with
      pendingSave := pend, worker := worker, landed := landed, complete := complete } p where
  others q hq := Function.update_of_ne hq _ _
  done := by simp [Store.settle]
  durable := by simp [Store.settle]
  honest he := hhonest (by simpa [Store.settle, hopen.error] using he)
  attached q hq := (hpend q).1 hq
  leaves q hq hne := (hpend q).2 ⟨hq, hne⟩
  worker := hworker
  next := hnext
  same := ⟨rfl, rfl, rfl⟩
  landed := hlanded
  grows := hgrows
  complete := hcomplete

lemma detached_iff (hp : s.pendingSave = some p) (q : ℕ) :
    (none : Option ℕ) = some q ↔ s.pendingSave = some q ∧ q ≠ p := by
  constructor
  · nofun
  · rintro ⟨hq, hne⟩
    exact absurd (Option.some.inj (hq.symm.trans hp)) hne

lemma Inv.place (h : Inv n s) (hw : ∀ p t, s.worker ≠ .writing p t)
    (hnext : worker = .idle ∨ worker = s.nextRound) : Inv n { s with worker := worker } := by
  refine { h with waiting := fun q hq => ?_, writing := fun q t hq => ?_, calls := fun i c hc => ?_ }
  · rcases hnext with rfl | rfl
    · cases hq
    · unfold Store.nextRound at hq
      split at hq
      · cases hq
      · rename_i hsome
        cases hq
        exact hsome
  · rcases hnext with rfl | rfl
    · cases hq
    · unfold Store.nextRound at hq
      split at hq <;> cases hq
  · have hfits := h.calls i c hc
    refine { hfits with served := ?_ }
    rcases hfits.served with hatt | ⟨t, ht, -⟩ | hdone
    · exact .inl hatt
    · exact absurd ht (hw _ t)
    · exact .inr (.inr hdone)

/-- The worker detaches what it waits for and begins to write. -/
lemma Inv.detach (h : Inv s.now s) (hw : s.worker = .waiting p) :
    Inv (s.now + 1) { s with
      pendingSave := none
      worker := .writing p ⟨⟨s.now, (s.pendings p).durable⟩, .queued⟩ } where
  attached _ := nofun
  waiting _ := nofun
  writing q t hq := by
    obtain ⟨rfl, rfl⟩ := Worker.writing.inj hq
    have hp := h.waiting p hw
    exact ⟨h.attached p hp, nofun, h.isOpen p hp, Nat.lt_succ_self _, fun _ => h.past, nofun, nofun⟩
  isOpen _ := nofun
  orphans := h.orphans
  past w hw := Nat.lt_succ_of_lt (h.past w hw)
  order := h.order
  complete := h.complete
  calls i c hc := by
    have hfits := h.calls i c hc
    refine ⟨Nat.lt_succ_of_lt hfits.began, hfits.made, hfits.durable, ?_, hfits.returned⟩
    rcases hfits.served with hatt | ⟨t, ht, -⟩ | hdone
    · obtain rfl := Option.some.inj (hatt.symm.trans (h.waiting p hw))
      exact .inr (.inl ⟨_, rfl, hfits.began, hfits.durable⟩)
    · exact absurd (ht.symm.trans hw) nofun
    · exact .inr (.inr hdone)

/-- ENCODE: the snapshot is newer than all that waits for it and all that the file has held. -/
theorem encode_inv (h : Inv s.now s) (expired ok : Bool) : Inv (s.now + 1) (s.encode expired ok) := by
  unfold Store.encode
  split
  · rename_i p hw
    have hp := h.waiting p hw
    split
    · exact h.later
    · split
      · exact h.detach hw
      · exact (settles_settle (some _) (h.isOpen p hp) (fun he => nomatch he) (detached_iff hp)
          (fun q t hq => absurd (hq.symm.trans hw) nofun) (.inl rfl) (.inl rfl) (fun _ => id)
          (fun _ => .inl)).inv_succ h
  · exact h.later

/-! ### The thread -/

@[simp] lemma Thread.move_write (locked : Bool) (t : Thread) (m : Move) :
    (t.move locked m).write = t.write := by
  unfold Thread.move
  split <;> split <;> rfl

/-- A move replaces the file, or leaves it. -/
lemma wrote_landed (s : Store) (t : Thread) (locked : Bool) (m : Move) :
    (t.phase = .running ∧ (t.move locked m).phase = .landed ∧
      (s.wrote t m).landed = s.landed ++ [t.write]) ∨
    ((s.wrote t m).landed = s.landed ∧
      ((t.move locked m).phase = .queued ∨ (t.move locked m).phase = .running →
        t.phase = .queued ∨ t.phase = .running) ∧
      ((t.move locked m).phase = .landed → t.phase = .landed)) := by
  obtain ⟨⟨_, _⟩, phase⟩ := t
  rcases m with _ | _ | _ | _ <;> cases phase <;> cases locked <;> grind [Thread.move, Store.wrote]

/-- A move completes the write, or leaves it as complete as it was. -/
lemma wrote_complete (s : Store) (t : Thread) (locked : Bool) (m : Move) :
    ((s.wrote t m).complete = s.complete ∧ ((t.move locked m).Written → t.Written)) ∨
    ((s.wrote t m).complete = s.complete ++ [t.write] ∧
      ((t.move locked m).phase = .landed ∨ t.phase = .landed)) := by
  obtain ⟨⟨_, durable⟩, phase⟩ := t
  rcases m with _ | _ | _ | _ <;> cases phase <;> cases locked <;> cases durable <;>
    simp [Thread.move, Store.wrote, Thread.Written]

/-- A thread with nothing left to fail leaves the files alone, and stays so. -/
lemma Thread.Written.wrote (h : t.Written) (m : Move) : s.wrote t m = s := by
  obtain ⟨⟨_, _⟩, phase⟩ := t
  rcases h with h | ⟨h, h'⟩ <;> cases h <;> simp_all [Store.wrote]

lemma Thread.Written.move (h : t.Written) (locked : Bool) (m : Move) : (t.move locked m).Written := by
  obtain ⟨⟨_, _⟩, phase⟩ := t
  rcases m with _ | _ | _ | _ <;> rcases h with h | ⟨h, h'⟩ <;> cases h <;>
    simp_all [Thread.move, Thread.Written]

/-- The worker's thread gets on; only its own snapshot reaches the file. -/
lemma Inv.advance (h : Inv n s) {t' : Thread}
    (hw : s.worker = .writing p t) (hwrite : t'.write = t.write)
    (hfits : ThreadFits n { s with landed := landed, complete := complete } t')
    (hpast : ∀ w ∈ landed, w.encodedAt < n)
    (horder : landed.Pairwise fun v w => v.encodedAt < w.encodedAt)
    (hgrows : ∀ w ∈ s.complete, w ∈ complete) (hcomplete : ∀ w ∈ complete, w ∈ landed) :
    Inv n { s with worker := .writing p t', landed := landed, complete := complete } where
  attached := h.attached
  waiting _ := nofun
  writing q u hq := by
    obtain ⟨rfl, rfl⟩ := Worker.writing.inj hq
    obtain ⟨hp, hne, ho, -⟩ := h.writing p t hw
    exact ⟨hp, hne, ho, hfits.1, hfits.2, hfits.3, hfits.4⟩
  isOpen := h.isOpen
  orphans := h.orphans
  past := hpast
  order := horder
  complete := hcomplete
  calls i c hc := by
    have hcall := h.calls i c hc
    have hcov : Covered s c → ∃ w ∈ complete, Covers c w := fun ⟨w, hw, hc⟩ => ⟨w, hgrows w hw, hc⟩
    refine ⟨hcall.began, hcall.made, hcall.durable, ?_, fun ho => hcov (hcall.returned ho)⟩
    rcases hcall.served with hatt | ⟨u, hu, hc⟩ | ⟨hdone, herr⟩
    · exact .inl hatt
    · obtain ⟨hp, rfl⟩ := Worker.writing.inj (hw.symm.trans hu)
      exact .inr (.inl ⟨t', hp ▸ rfl, hwrite ▸ hc⟩)
    · exact .inr (.inr ⟨hdone, fun he => hcov (herr he)⟩)

lemma wrote_eq (s : Store) (t : Thread) (m : Move) (worker : Worker) :
    { s.wrote t m with worker := worker } = { s with
      worker := worker, landed := (s.wrote t m).landed, complete := (s.wrote t m).complete } := rfl

/-- A move of the thread, whose own write is what it adds to the file. -/
lemma ThreadFits.wrote (h : ThreadFits n s t) (locked : Bool) (m : Move) :
    ThreadFits n (s.wrote t m) (t.move locked m) := by
  have hland := wrote_landed s t locked m
  constructor <;> rw [t.move_write]
  · exact h.past
  · rcases hland with ⟨-, hph, -⟩ | ⟨hl, hph, -⟩
    · rw [hph]
      exact nofun
    · rw [hl]
      exact fun hq => h.newest (hph hq)
  · rcases hland with ⟨-, -, hl⟩ | ⟨hl, -, hph⟩ <;> rw [hl]
    · exact fun _ => mem_append_right _ (mem_singleton_self _)
    · exact fun hq => h.landed (hph hq)
  · rcases wrote_complete s t locked m with ⟨hc, hwr⟩ | ⟨hc, -⟩ <;> rw [hc]
    · exact fun hq => h.complete (hwr hq)
    · exact fun _ => mem_append_right _ (mem_singleton_self _)

/-- THREAD: a move of the worker's thread keeps the invariant. -/
theorem thread_inv (h : Inv n s) (hw : s.worker = .writing p t) (locked : Bool) (m : Move) :
    Inv n { s.wrote t m with worker := .writing p (t.move locked m) } := by
  obtain ⟨-, -, -, ht⟩ := h.writing p t hw
  have hthread := ht.wrote locked m
  have hland := wrote_landed s t locked m
  have hcomp := wrote_complete s t locked m
  have hkept : ∀ w ∈ s.landed, w ∈ (s.wrote t m).landed := by
    rcases hland with ⟨-, -, hl⟩ | ⟨hl, -⟩ <;> rw [hl]
    · exact fun w => mem_append_left _
    · exact fun w => id
  rw [wrote_eq]
  refine h.advance hw (t.move_write locked m) hthread ?_ ?_ ?_ ?_
  · rcases hland with ⟨-, -, hl⟩ | ⟨hl, -⟩ <;> rw [hl]
    · intro w hw
      rw [mem_append, mem_singleton] at hw
      rcases hw with hw | rfl
      · exact h.past w hw
      · exact ht.past
    · exact h.past
  · rcases hland with ⟨hph, -, hl⟩ | ⟨hl, -⟩ <;> rw [hl]
    · refine pairwise_append.2 ⟨h.order, pairwise_singleton _ _, fun w hw u hu => ?_⟩
      rw [mem_singleton.1 hu]
      exact ht.newest (.inr hph) w hw
    · exact h.order
  · rcases hcomp with ⟨hc, -⟩ | ⟨hc, -⟩ <;> rw [hc]
    · exact fun w => id
    · exact fun w => mem_append_left _
  · rcases hcomp with ⟨hc, -⟩ | ⟨hc, hph⟩ <;> rw [hc]
    · exact fun w hw => hkept w (h.complete w hw)
    · intro w hw
      rw [mem_append, mem_singleton] at hw
      rcases hw with hw | rfl
      · exact hkept w (h.complete w hw)
      · exact hph.elim (t.move_write locked m ▸ hthread.landed) fun hq => hkept _ (ht.landed hq)

/-! ### Ends of a write, and cancellation -/

/-- Whoever waits for the object being written is covered once the write cannot fail any more. -/
lemma Inv.succeeded (h : Inv n s) (hw : s.worker = .writing p t) (hph : t.Written)
    (hc : s.calls i = some c) (hp : c.pending = p) : Covered s c := by
  obtain ⟨-, hne, ho, ht⟩ := h.writing p t hw
  rcases (h.calls i c hc).served with hatt | ⟨u, hu, hcov⟩ | ⟨hdone, -⟩
  · exact absurd (hp ▸ hatt) hne
  · obtain ⟨-, rfl⟩ := Worker.writing.inj (hw.symm.trans hu)
    exact ⟨_, ht.complete hph, hcov⟩
  · rw [hp, ho.done] at hdone
    cases hdone

/-- What is attached while the worker writes is another object. -/
lemma still_attached_iff (hp : s.pendingSave ≠ some p) (q : ℕ) :
    s.pendingSave = some q ↔ s.pendingSave = some q ∧ q ≠ p := by
  constructor
  · intro hq
    refine ⟨hq, ?_⟩
    rintro rfl
    exact hp hq
  · exact And.left

/-- RESUME: the object is settled as the thread has ended. -/
theorem resume_inv (h : Inv s.now s) : Inv (s.now + 1) s.resume := by
  unfold Store.resume
  split
  · rename_i p w ok hw
    obtain ⟨-, hne, ho, ht⟩ := h.writing p _ hw
    refine (settles_settle (if ok then none else some _) ho ?_ (still_attached_iff hne)
      (fun q t hq => (Worker.writing.inj (hw.symm.trans hq)).1.symm) (.inr rfl) (.inl rfl)
      (fun _ => id) (fun _ => .inl)).inv_succ h
    intro he i c hc hp
    cases ok with
    | true => exact h.succeeded hw (.inl rfl) hc hp
    | false => cases he
  · exact h.later

/-- FALLBACK: without a thread that holds the lock, the leftover write is the newest snapshot. -/
theorem writeLeftover_inv (h : Inv s.now s) (hidle : s.worker = .idle) (fallback : Fallback) :
    Inv (s.now + 1) (s.writeLeftover fallback) := by
  have hnone : ∀ q t, s.worker = .writing q t → ∀ p, q = p :=
    fun q t hq => absurd (hidle.symm.trans hq) nofun
  unfold Store.writeLeftover
  split
  · exact h.later
  · rename_i p hp
    have ho := h.isOpen p hp
    split
    · exact (settles_settle (some _) ho (fun he => nomatch he) (detached_iff hp)
        (fun q t hq => hnone q t hq p) (.inl hidle) (.inl rfl) (fun _ => id) (fun _ => .inl)).inv_succ h
    · split
      · exact (settles_settle (some _) ho (fun he => nomatch he) (detached_iff hp)
          (fun q t hq => hnone q t hq p) (.inl hidle) (.inl rfl) (fun _ => id)
          (fun _ => .inl)).inv_succ h
      · exact (settles_settle (some _) ho (fun he => nomatch he) (detached_iff hp)
          (fun q t hq => hnone q t hq p) (.inl hidle) (.inr ⟨_, rfl, rfl⟩) (fun _ => id)
          (fun _ => .inl)).inv_succ h
      · refine (settles_settle none ho ?_ (detached_iff hp) (fun q t hq => hnone q t hq p) (.inl hidle)
          (.inr ⟨⟨s.now, _⟩, rfl, rfl⟩) (fun w => mem_append_left _) ?_).inv_succ h
        · rintro - i c hc rfl
          have hfits := h.calls i c hc
          exact ⟨_, mem_append_right _ (mem_singleton_self _), hfits.began, hfits.durable⟩
        · intro w hw
          rw [mem_append] at hw
          exact hw.imp_right fun hw => mem_append_right _ hw

lemma mem_orphaned {u : Thread} {dropped : Bool} (h : u ∈ Store.orphaned t dropped) : u = t := by
  unfold Store.orphaned at h
  split at h
  · cases h
  · split at h
    · cases h
    · exact mem_singleton.1 h
  · exact mem_singleton.1 h

/-- CANCEL: outside a write, and over one that cannot fail any more, nobody is misled. -/
theorem cancelWorker_inv (h : Inv s.now s) (dropped : Bool) (fallback : Fallback)
    (hunbroken : Unbroken s (.cancelWorker dropped fallback)) :
    Inv (s.now + 1) (s.cancelWorker dropped fallback) := by
  unfold Store.cancelWorker
  split
  · exact h.later
  · rename_i hw
    exact (h.place (fun p t hq => absurd (hw.symm.trans hq) nofun) (.inl rfl)).later
  · rename_i p hw
    have hplaced := h.place (fun p t hq => absurd (hw.symm.trans hq) nofun) (.inl rfl)
    exact writeLeftover_inv (s := { s with worker := .idle }) hplaced rfl fallback
  · rename_i p t hw
    obtain ⟨-, hne, ho, ht⟩ := h.writing p t hw
    have hph : t.Written := by
      simpa [Unbroken, hw] using hunbroken
    have hlost : ∀ u ∈ s.orphans ++ Store.orphaned t dropped, u.Written := by
      intro u hu
      rcases mem_append.1 hu with hu | hu
      · exact h.orphans u hu
      · rwa [mem_orphaned hu]
    dsimp only
    rw [if_neg (by simp [Store.settle])]
    have hleft : Inv s.now { s.settle p none with worker := .idle } :=
      (settles_settle none ho (fun _ i c hc hp => h.succeeded hw hph hc hp) (still_attached_iff hne)
        (fun q t hq => (Worker.writing.inj (hw.symm.trans hq)).1.symm) (.inl rfl) (.inl rfl)
        (fun _ => id) (fun _ => .inl)).inv h le_rfl h.past
    exact writeLeftover_inv (s := { s.settle p none with worker := .idle, orphans := _ })
      (hleft.frame hlost hleft.calls) rfl fallback

/-- STEP: a step that does not cancel the worker in the middle of a write keeps the invariant. -/
theorem perform_inv (h : Inv s.now s) (op : Op) (hunbroken : Unbroken s op) :
    Inv (s.now + 1) (s.perform op) := by
  cases op with
  | markDirty durable wake => exact (h.marked durable wake).inv h
  | save durable flush => exact save_inv h durable flush
  | start =>
    unfold Store.perform
    dsimp only
    split
    · rename_i hw
      exact (h.place (fun p t hq => absurd (hw.symm.trans hq) nofun) (.inr rfl)).later
    · exact h.later
  | encode expired ok => exact encode_inv h expired ok
  | thread move =>
    unfold Store.perform
    dsimp only
    split
    · rename_i hw
      exact (thread_inv h hw _ move).later
    · exact h.later
  | orphan i move =>
    unfold Store.perform
    dsimp only
    split
    · rename_i t ht
      have hwritten := h.orphans t (mem_of_getElem? ht)
      rw [hwritten.wrote move]
      refine (h.frame (fun u hu => ?_) h.calls).later
      rcases mem_or_eq_of_mem_set hu with hu | rfl
      · exact h.orphans u hu
      · exact hwritten.move _ move
    · exact h.later
  | resume => exact resume_inv h
  | cancelWorker dropped fallback => exact cancelWorker_inv h dropped fallback hunbroken
  | cancelCaller i => exact (cancelCaller_inv h i).later
  | wakeCaller i => exact (wakeCaller_inv h i).later

end Steps

/-! ### Runs -/

lemma step_inv (s : Store) (op : Op) (hunbroken : Unbroken s op) (h : Inv s.now s) :
    Inv (step s op).now (step s op) := by
  have hinv := perform_inv h op hunbroken
  exact hinv.frame hinv.orphans hinv.calls

/-- RUN: awaited saves are honest along every run in which the worker is never cancelled over a write
    that could still fail. -/
theorem saves_honest_unless_write_cancelled (ops : List Op) (hrun : Along step Unbroken .empty ops) :
    ∀ s ∈ trace step .empty ops, Honest s := by
  intro s hs
  obtain ⟨done, rest, rfl, rfl⟩ := mem_trace.1 hs
  have hdone := ((along_append done rest _).1 hrun).1
  have hinv : Inv (run step .empty done).now (run step .empty done) :=
    run_inv_along step_inv done .empty hdone empty_inv
  exact hinv.honest

/-- An awaited save, up to the encoding of its snapshot. -/
def encoded : List Op := [.save false true, .start, .encode false true]

/-- The same save to its end; the worker is cancelled once the file is replaced. -/
def awaited : List Op := encoded ++
  [.thread .acquire, .thread .land, .cancelWorker false .failed, .wakeCaller 0, .orphan 0 (.finish true)]

theorem saves_honest_awaited :
    Along step Unbroken .empty awaited ∧
    (run step .empty awaited).calls 0 = some ⟨0, 0, false, false, .returned⟩ ∧
    (∀ s ∈ trace step .empty awaited, Honest s) := by
  have halong : Along step Unbroken .empty awaited :=
    ⟨trivial, trivial, trivial, trivial, trivial, .inr ⟨rfl, rfl⟩, trivial, trivial, trivial⟩
  exact ⟨halong, rfl, saves_honest_unless_write_cancelled awaited halong⟩

/-- NOTHING IS LOST: when no object is attached and none is being written, every call is covered by a
    complete write, or its object holds an error. -/
theorem quiet_saves_settled (ops : List Op) (hrun : Along step Unbroken .empty ops) :
    let s := run step .empty ops
    s.pendingSave = none → (∀ p t, s.worker ≠ .writing p t) → ∀ i c, s.calls i = some c →
      Covered s c ∨ (s.pendings c.pending).error ≠ none := by
  intro s hnone hidle i c hc
  have hinv : Inv s.now s := run_inv_along step_inv ops .empty hrun empty_inv
  rcases (hinv.calls i c hc).served with h | ⟨t, h, -⟩ | ⟨-, h⟩
  · cases hnone.symm.trans h
  · cases hidle _ t h
  · exact (not_or_of_imp h).symm

/-- A call that does not wait, and one that does. -/
theorem quiet_saves_settled_awaited :
    let ops := .save false false :: awaited
    Along step Unbroken .empty ops ∧
      Covered (run step .empty ops) ⟨0, 0, false, false, .marked⟩ := by
  intro ops
  have halong : Along step Unbroken .empty ops := ⟨trivial, trivial, trivial, trivial, trivial, trivial,
    .inr ⟨rfl, rfl⟩, trivial, trivial, trivial⟩
  exact ⟨halong, (quiet_saves_settled ops halong rfl nofun 0 _ rfl).resolve_right (· rfl)⟩

/-- Cancelled over a write that has not begun, the worker reports a save that never replaced the file;
    and a thread it loses lands the older of two snapshots last. -/
theorem cancelled_write_reported_saved :
    (let s := run step .empty (encoded ++ [.cancelWorker true .failed, .wakeCaller 0])
     s.calls 0 = some ⟨0, 0, false, false, .returned⟩ ∧ s.landed = [] ∧ ¬Honest s) ∧
    (let s := run step .empty (encoded ++ [.cancelWorker false .failed] ++ encoded ++
       [.thread .acquire, .thread .land, .thread (.finish true), .resume, .wakeCaller 1,
         .orphan 0 .acquire, .orphan 0 .land])
     s.calls 1 = some ⟨1, 4, false, false, .returned⟩ ∧ s.landed = [⟨6, false⟩, ⟨2, false⟩] ∧
     ¬Honest s) := by
  refine ⟨⟨rfl, rfl, fun h => ?_⟩, rfl, rfl, fun h => ?_⟩
  · obtain ⟨w, hw, -⟩ := h.returned 0 _ rfl rfl
    cases hw
  · have horder := (pairwise_cons.1 h.order).1 ⟨2, false⟩ (mem_singleton_self _)
    exact absurd horder (by decide)

end Saves
