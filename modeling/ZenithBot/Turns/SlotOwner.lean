import ZenithBot.Lib.Run
import ZenithBot.Turns.SlotChange

/-! The turn slot has one owner. Three sections write without comparing an id: the startup of a turn
    annotates whatever record it finds, so does a native control with the active one, and a Stop of a
    reservation without a run id releases without asking. The lifecycle lock and the Stop fence protect
    these: a startup holds the lock, so the slot is its own or free (`TurnFits`, `ControlFits`), and a Stop
    about to release blindly has had its fence up since before its last look, so the slot is still the
    stranded reservation it saw (`StopFits`).

    The argument is by rely and guarantee: each kind of task keeps to `Does`, and what a task counts on
    survives such steps of the others. -/

namespace Turns
open Lib

variable {c : Chat} {n : Nat} {forced : Bool} {who : Option Nat} {o : Observed} {s : Slot} {c' : Chat}
  {p : TurnPoint} {first : Option Nat}

/-- For whom a task takes its next step: for itself, or, if it is a Stop, for the owner it has observed
    last or is about to observe. -/
def Task.acts (c : Chat) : Task → Option Nat
  | .turn n _ | .control n _ => some n
  | .stop _ _ (.observing _) => c.slot.reservedBy
  | .stop _ _ (.prebind o) | .stop _ _ (.watching o) | .stop _ _ (.closing o _ _) => o.owner
  | _ => none

/-- On whose behalf it does so: a Stop acts for the owner it observed first. -/
def Task.behalf (c : Chat) : Task → Option Nat
  | .stop _ _ (.observing first) => first.or c.slot.reservedBy
  | .stop _ _ (.prebind o) | .stop _ _ (.watching o) | .stop _ _ (.closing o _ _) => o.first
  | t => t.acts c

def World.mover (f : Chat → Task → Option Nat) (w : World) : Move → Option Nat
  | .start _ => none
  | .advance i _ => w.tasks[i]?.bind (f w.shared)

/-- Whatever move comes next leaves the slot alone, or it was free and becomes the mover's, or it
    belongs to the mover. -/
def Undisturbed (f : Chat → Task → Option Nat) (w : World) : Prop :=
  ∀ m : Move, (w.step m).shared.slot = w.shared.slot ∨
    (w.shared.slot.reservedBy = none ∧ (w.step m).shared.slot.reservedBy = w.mover f m) ∨
    w.shared.slot.reservedBy = w.mover f m

/-! ### What a turn counts on -/

def TurnPoint.holdsLock : TurnPoint → Bool
  | .waiting | .running | .ended => false
  | _ => true

/-- Between the reservation and the end of the startup. -/
def TurnPoint.startsUp : TurnPoint → Bool
  | .reserved | .starting | .named | .failing _ => true
  | _ => false

lemma TurnPoint.holdsLock_of_startsUp (h : p.startsUp = true) : p.holdsLock = true := by
  cases p <;> first | rfl | cases h

def TurnPoint.Counts (s : Slot) (n : Nat) : TurnPoint → Prop
  | .reserved | .starting => s.reservedBy = none ∨ s.reservedBy = some n
  | .failing runId => ∀ r, runId = some r → r = n
  | _ => True

lemma Chat.unlock_slot : (c.unlock n).slot = c.slot := by
  unfold Chat.unlock
  split <;> rfl

structure TurnFits (c : Chat) (n : Nat) (p : TurnPoint) : Prop where
  lock : p.holdsLock = true → c.lifecycle = some n
  fence : p.startsUp = true → c.stopping = none
  kind : c.slot.reservedBy = some n → c.slot.currentAdmissionId = some n
  counts : p.Counts c.slot n

namespace TurnFits
variable {c c' : Chat} {n m : Nat} {p : TurnPoint} {who : Option Nat}

/-- Steps of others leave a turn what it counts on. -/
lemma stable (h : TurnFits c m p) (hd : Does n who c c') (hm : m ≠ n) : TurnFits c' m p where
  lock hp := hd.keeps_lock hm (h.lock hp)
  fence hp := hd.keeps_no_fence (h.lock (TurnPoint.holdsLock_of_startsUp hp)) (h.fence hp)
  kind hr := by
    obtain ⟨hr', hc⟩ := hd.other hm hr
    rw [Slot.currentAdmissionId, hc]
    exact h.kind hr'
  counts := by
    cases p with
    | reserved | starting => exact hd.keeps_own hm (h.lock rfl) h.counts
    | failing => exact h.counts
    | _ => trivial

section
variable (h : TurnFits c n p)
include h

/-- So does a section of its own that leaves the reservation. -/
lemma leaves (hl : Leaves c c') : TurnFits c' n p where
  lock hp := hl.lifecycle.trans (h.lock hp)
  fence hp := hl.stopping.trans (h.fence hp)
  kind hr := by
    obtain ⟨hr', hc⟩ := hl.reserved hr
    rw [Slot.currentAdmissionId, hc]
    exact h.kind hr'
  counts := by
    cases p with
    | reserved | starting => exact hl.own h.counts
    | failing => exact h.counts
    | _ => trivial

lemma leaving (hp : p.holdsLock = true) : TurnFits c n .leaving :=
  ⟨fun _ => h.lock hp, nofun, h.kind, trivial⟩

lemma failing (hp : p.startsUp = true) {runId : Option Nat} (hr : ∀ r, runId = some r → r = n) :
    TurnFits c n (.failing runId) :=
  ⟨fun _ => h.lock (TurnPoint.holdsLock_of_startsUp hp), fun _ => h.fence hp, h.kind, hr⟩

lemma unlocked {q : TurnPoint} (hq : q.holdsLock = false) (hc : q.Counts c.slot n) :
    TurnFits (c.unlock n) n q := by
  refine ⟨fun h => ?_, fun h => ?_, by rw [Chat.unlock_slot]; exact h.kind,
    by rw [Chat.unlock_slot]; exact hc⟩
  · rw [hq] at h
    cases h
  · rw [TurnPoint.holdsLock_of_startsUp h] at hq
    cases hq

end

end TurnFits

/-- A write into the record that leaves its admission. -/
lemma TurnFits.annotate {f : CurrentTurn → CurrentTurn} (h : TurnFits c n p)
    (hf : ∀ t, (f t).admissionId = t.admissionId) (hr : c.slot.reservedBy = some n) :
    (c.annotate f).slot.currentAdmissionId = some n := by
  obtain ⟨t, ht, ha⟩ := Option.bind_eq_some_iff.mp (h.kind hr)
  simp only [Chat.annotate, Slot.currentAdmissionId, ht, Option.map_some, Option.bind_some, hf, ha]

/-- A write into the record of the slot, which is the turn's own while it starts up. -/
lemma annotate_does (hK : c.slot.Kept) (h : TurnFits c n .starting) {f : CurrentTurn → CurrentTurn}
    (hf : ∀ t : CurrentTurn, t.TurnOf n → (f t).TurnOf n)
    (hrun : ∀ t : CurrentTurn, t.runId = some n → (f t).runId = some n) :
    Does n (some n) c (c.annotate f) := by
  rcases h.counts with hfree | hown
  · refine Does.of_eq hK ?_ rfl rfl rfl rfl
    rw [Chat.annotate, hK.eq_free_of_unreserved hfree]
    rfl
  have hadm := h.kind hown
  refine Does.writes ?_ rfl (.inl ⟨rfl, fun a h => ⟨a, h, rfl, rfl⟩⟩) rfl rfl hown hown
    (fun hn => absurd rfl hn) fun hs => ?_
  · show Slot.Kept { c.slot with current := c.slot.current.map f }
    generalize c.slot = s at hK hown hadm
    cases hK with
    | free => cases hown
    | turn m t a hc ha =>
      cases hown
      exact .turn n (f t) a (hf t hc) fun x hx => ⟨(ha x hx).1, hrun t (ha x hx).2⟩
    | control m t a hc ha => exact nomatch hc.admission.symm.trans hadm
  · rw [h.fence rfl] at hs
    cases hs

/-- STEP: a turn acts for itself and finds what it counts on at its next point. -/
theorem turn_step (hK : c.slot.Kept) (h : TurnFits c n p) (o : Outcome) :
    Does n (some n) c (turnAdvance c n p o).1 ∧
      TurnFits (turnAdvance c n p o).1 n (turnAdvance c n p o).2 := by
  unfold turnAdvance
  split
  · -- takes the lock
    split
    · next hl => exact ⟨Does.locks hK hl, fun _ => rfl, nofun, h.kind, trivial⟩
    · exact ⟨.refl hK, h⟩
  · exact ⟨.refl hK, nofun, nofun, h.kind, trivial⟩
  · -- reserves
    split
    · exact ⟨.refl hK, h.leaving rfl⟩
    · next hg =>
      simp only [Bool.or_eq_true, not_or, Bool.not_eq_true, Option.isSome_eq_false_iff,
        Option.isNone_iff_eq_none] at hg
      obtain ⟨⟨_, hbusy⟩, hstop⟩ := hg
      have hfree := hK.eq_free hbusy
      have hobj : SameObject c (c.reserveTurn n) := by
        refine ⟨rfl, fun a ha => ?_⟩
        rw [Chat.reserveTurn, hfree] at ha
        cases ha
      refine ⟨⟨?_, rfl, .inl hobj, .inl rfl, .inl rfl,
          .inr (.inl ⟨by rw [hfree], h.lock rfl, rfl, rfl, .inl hstop⟩), ?_⟩,
        fun _ => h.lock rfl, fun _ => hstop, fun _ => rfl, .inr rfl⟩
      · rw [Chat.reserveTurn, hfree]
        exact .turn n _ none ⟨rfl, rfl, rfl, .inl rfl⟩ nofun
      · intro hs
        rw [hstop] at hs
        cases hs
  · exact ⟨.refl hK, h.leaving rfl⟩
  · exact ⟨.refl hK, h.leaving rfl⟩
  · exact ⟨.refl hK, fun _ => h.lock rfl, fun _ => h.fence rfl, h.kind, h.counts⟩
  · exact ⟨Chat.releaseTurnSlot_admission hK (h.fence rfl),
      (h.leaves Leaves.releaseTurnSlot).leaving rfl⟩
  · exact ⟨.refl hK, h.leaving rfl⟩
  · -- writes the route snapshot
    exact ⟨annotate_does hK h (fun _ ht => ⟨ht.1, ht.2, ht.3, ht.4⟩) fun _ hr => hr,
      h.lock, h.fence, h.annotate fun _ => rfl, h.counts⟩
  · -- writes the run id
    exact ⟨annotate_does hK h (fun _ ht => ⟨ht.1, ht.2, ht.3, .inr rfl⟩) fun _ _ => rfl,
      fun _ => h.lock rfl, fun _ => h.fence rfl, h.annotate fun _ => rfl, trivial⟩
  · exact ⟨.refl hK, h.failing rfl nofun⟩
  · exact ⟨.refl hK, h.failing rfl fun _ hr => (Option.some.inj hr).symm⟩
  · exact ⟨Does.unlocks hK, h.unlocked rfl trivial⟩
  · exact ⟨.refl hK, h.failing rfl fun _ hr => (Option.some.inj hr).symm⟩
  · exact ⟨.refl hK, h.failing rfl fun _ hr => (Option.some.inj hr).symm⟩
  · next r =>
    obtain rfl : r = n := h.counts r rfl
    exact ⟨Chat.releaseTurnSlot_run hK, (h.leaves Leaves.releaseTurnSlot).leaving rfl⟩
  · exact ⟨Chat.releaseTurnSlot_admission hK (h.fence rfl),
      (h.leaves Leaves.releaseTurnSlot).leaving rfl⟩
  · exact ⟨.refl hK, h.leaving rfl⟩
  · exact ⟨Does.unlocks hK, h.unlocked rfl trivial⟩
  · exact ⟨Chat.bindActiveTurn_does hK rfl rfl rfl, h.leaves Leaves.bindActiveTurn⟩
  · exact ⟨Chat.clearActiveProcess_does hK, h.leaves Leaves.clearActiveProcess⟩
  · exact ⟨Chat.releaseTurnSlot_run hK, h.leaves Leaves.releaseTurnSlot⟩
  · exact ⟨.refl hK, h⟩

/-! ### What a native control counts on -/

def ControlPoint.holdsLock : ControlPoint → Bool
  | .waiting | .running _ | .ended => false
  | _ => true

/-- The provider thread is bound and the operation has no name yet. -/
def ControlPoint.unnamed : ControlPoint → Bool
  | .bound _ | .reviewing _ false => true
  | _ => false

lemma ControlPoint.holdsLock_of_unnamed {p : ControlPoint} (h : p.unnamed = true) :
    p.holdsLock = true := by
  cases p <;> first | rfl | cases h

structure ControlFits (c : Chat) (n : Nat) (p : ControlPoint) : Prop where
  lock : p.holdsLock = true → c.lifecycle = some n
  kind : c.slot.reservedBy = some n → c.slot.currentReservationId = some n
  counts : p.unnamed = true → c.slot.reservedBy = none ∨ c.slot.reservedBy = some n

namespace ControlFits
variable {c c' : Chat} {n m : Nat} {p : ControlPoint} {who : Option Nat} {q : ControlPoint}

lemma stable (h : ControlFits c m p) (hd : Does n who c c') (hm : m ≠ n) : ControlFits c' m p where
  lock hp := hd.keeps_lock hm (h.lock hp)
  kind hr := by
    obtain ⟨hr', hc⟩ := hd.other hm hr
    rw [Slot.currentReservationId, hc]
    exact h.kind hr'
  counts hp := hd.keeps_own hm (h.lock (ControlPoint.holdsLock_of_unnamed hp)) (h.counts hp)

lemma leaves (h : ControlFits c n p) (hl : Leaves c c') : ControlFits c' n p where
  lock hp := hl.lifecycle.trans (h.lock hp)
  kind hr := by
    obtain ⟨hr', hc⟩ := hl.reserved hr
    rw [Slot.currentReservationId, hc]
    exact h.kind hr'
  counts hp := hl.own (h.counts hp)

lemma moves (h : ControlFits c n p) (hp : p.holdsLock = true)
    (hq : q.unnamed = true → c.slot.reservedBy = none ∨ c.slot.reservedBy = some n) :
    ControlFits c n q :=
  ⟨fun _ => h.lock hp, h.kind, hq⟩

lemma unlocked (h : ControlFits c n p) (hq : q.holdsLock = false) : ControlFits (c.unlock n) n q := by
  refine ⟨fun h => ?_, by rw [Chat.unlock_slot]; exact h.kind, fun h => ?_⟩
  · rw [hq] at h
    cases h
  · rw [ControlPoint.holdsLock_of_unnamed h] at hq
    cases hq

end ControlFits

/-- The operation id is written into the control's own record. -/
lemma name_operation_does {p : ControlPoint} (hK : c.slot.Kept) (h : ControlFits c n p)
    (hp : p.unnamed = true) : Does n (some n) c (c.mark fun a => { a with runId := some n }) := by
  rcases h.counts hp with hfree | hown
  · refine Does.of_eq hK ?_ rfl rfl rfl rfl
    rw [Chat.mark, hK.eq_free_of_unreserved hfree]
    rfl
  have hres := h.kind hown
  refine Does.writes ?_ rfl (.inl (Chat.mark_object fun _ => rfl)) rfl rfl hown hown
    (fun hn => absurd rfl hn) fun _ hs => ?_
  · show Slot.Kept { c.slot with active := c.slot.active.map fun a => { a with runId := some n } }
    generalize c.slot = s at hK hown hres
    cases hK with
    | free => cases hown
    | turn m t a hc ha => exact nomatch hc.reservation.symm.trans hres
    | control m t a hc ha =>
      cases hown
      refine .control n t _ hc fun x hx => ?_
      obtain ⟨y, hy, rfl⟩ := Option.map_eq_some_iff.mp hx
      exact ⟨(ha y hy).reservation, .inr rfl⟩
  · rw [hs.reservation] at hres
    cases hres

lemma consumer_does {id : String} (hK : c.slot.Kept) (o : Outcome) :
    Does n (some n) c (consumer c n id o) ∧ Leaves c (consumer c n id o) := by
  cases o with
  | release => exact ⟨Chat.releaseCodexControlSlot_does hK, .releaseCodexControlSlot⟩
  | claim => exact ⟨Chat.claim_does hK, .claim⟩
  | finish => exact ⟨Chat.finish_does hK, .finish⟩
  | _ => exact ⟨.refl hK, .refl⟩

/-- STEP: a native control acts for itself. -/
theorem control_step {p : ControlPoint} (hK : c.slot.Kept) (h : ControlFits c n p) (o : Outcome) :
    Does n (some n) c (controlAdvance c n p o).1 ∧
      ControlFits (controlAdvance c n p o).1 n (controlAdvance c n p o).2 := by
  unfold controlAdvance
  split
  · -- takes the lock
    split
    · next hl => exact ⟨Does.locks hK hl, fun _ => rfl, h.kind, nofun⟩
    · exact ⟨.refl hK, h⟩
  · exact ⟨.refl hK, nofun, h.kind, nofun⟩
  · -- reserves
    split
    · exact ⟨.refl hK, h.moves rfl nofun⟩
    · next hg =>
      simp only [Bool.or_eq_true, not_or, Bool.not_eq_true] at hg
      have hfree := hK.eq_free hg.2
      have hobj : SameObject c (c.reserveControl n) := by
        refine ⟨rfl, fun a ha => ?_⟩
        rw [Chat.reserveControl, hfree] at ha
        cases ha
      refine ⟨⟨?_, rfl, .inl hobj, .inl rfl, .inl rfl,
          .inr (.inl ⟨by rw [hfree], h.lock rfl, rfl, rfl, .inr rfl⟩), ?_⟩,
        fun _ => h.lock rfl, fun _ => rfl, nofun⟩
      · rw [Chat.reserveControl, hfree]
        exact .control n _ none ⟨rfl, rfl, rfl⟩ nofun
      · intro _ _ hs
        exact nomatch hs.busy.symm.trans hg.2
  · exact ⟨.refl hK, h.moves rfl nofun⟩
  · exact ⟨.refl hK, h.moves rfl nofun⟩
  · -- binds its provider thread
    next id =>
    have hb := Chat.bindCodexControlReservation_does (n := n) hK
      (x := ⟨c.objects, none, true, none, id, false, false⟩) rfl rfl
    have hl := Leaves.bindCodexControlReservation (c := c) (n := n)
      (x := ⟨c.objects, none, true, none, id, false, false⟩)
    obtain ⟨hd, hown⟩ := hb
    split
    · next c' _ heq =>
      rw [heq] at hd hown hl
      exact ⟨hd, (h.leaves hl).moves rfl fun _ => .inr (hown rfl)⟩
    · next c' _ heq =>
      rw [heq] at hd hl
      exact ⟨hd, (h.leaves hl).moves rfl nofun⟩
  · exact ⟨.refl hK, h.moves rfl nofun⟩
  · exact ⟨.refl hK, h.moves rfl nofun⟩
  · exact ⟨name_operation_does hK h rfl, fun _ => h.lock rfl, h.kind, nofun⟩
  · exact ⟨.refl hK, h.moves rfl fun _ => h.counts rfl⟩
  · exact ⟨.refl hK, h.moves rfl nofun⟩
  · exact ⟨.refl hK, h.moves rfl nofun⟩
  · exact ⟨Does.unlocks hK, h.unlocked rfl⟩
  · exact ⟨.refl hK, h.moves rfl nofun⟩
  · exact ⟨.refl hK, h.moves rfl nofun⟩
  · exact ⟨Chat.releaseCodexControlSlot_does hK,
      (h.leaves Leaves.releaseCodexControlSlot).moves rfl nofun⟩
  · exact ⟨.refl hK, h.moves rfl nofun⟩
  · exact ⟨Does.unlocks hK, h.unlocked rfl⟩
  · exact ⟨name_operation_does hK h rfl, fun _ => h.lock rfl, h.kind, nofun⟩
  · exact ⟨Does.unlocks hK, h.unlocked rfl⟩
  · exact ⟨Does.unlocks hK, h.unlocked rfl⟩
  · exact ⟨(consumer_does hK _).1, h.leaves (consumer_does hK _).2⟩
  · exact ⟨(consumer_does hK _).1, h.leaves (consumer_does hK _).2⟩
  · exact ⟨.refl hK, h⟩

/-! ### What a Stop counts on -/

/-- The ids that a Stop has kept are those of the owner it observed. -/
structure Observed.Names (o : Observed) : Prop where
  run : ∀ id, o.activeRunId = some id → o.owner = some id
  admission : ∀ id, o.admissionId = some id → o.owner = some id
  reservation : ∀ id, o.controlReservationId = some id → o.owner = some id

lemma observed_names (hK : s.Kept) : (s.observed first).Names where
  run _ h := hK.activeRunId_owner h
  admission _ h := hK.admission_owner h
  reservation id h := by
    rcases Option.or_eq_some_iff.mp h with h | ⟨_, h⟩
    · obtain ⟨a, ha, hr⟩ := Option.bind_eq_some_iff.mp h
      exact hK.active_owner ha (.inr hr)
    · exact hK.reservation_owner h

/-- A slot without an active record is known by its admission or by its reservation. -/
lemma observed_prebind (hK : s.Kept) (hb : s.busy = true) :
    (s.observed first).admissionId.isSome = true ∨
      (s.observed first).controlReservationId.isSome = true := by
  cases hK with
  | free => cases hb
  | turn n t a hc _ =>
    refine .inl ?_
    show t.admissionId.isSome = true
    rw [hc.admission]
    rfl
  | control n t a hc _ =>
    refine .inr ?_
    show ((a.bind (·.controlReservationId)).or t.controlReservationId).isSome = true
    rw [hc.reservation]
    cases a.bind (·.controlReservationId) <;> rfl

/-- An active record is known by its run or by its reservation. -/
lemma observed_active (hK : s.Kept) {a : ActiveTurn} (ha : s.active = some a)
    (hc : (s.observed first).controlReservationId = none) :
    (s.observed first).activeRunId.isSome = true := by
  have hrun : (s.observed first).activeRunId = a.runId := by
    simp only [Slot.observed, Slot.activeRunId, ha, Option.bind_some]
  have hres : (s.observed first).controlReservationId =
      a.controlReservationId.or s.currentReservationId := by
    simp only [Slot.observed, ha, Option.bind_some]
  rw [hrun]
  cases hK with
  | free => cases ha
  | turn n t x hc' hx =>
    rw [((hx a ha).1).run]
    rfl
  | control n t x hc' hx =>
    rw [hres, (hx a ha).reservation] at hc
    cases hc

def StopPoint.live : StopPoint → Bool
  | .waiting | .ended => false
  | _ => true

/-- While the active record is the one that was observed, so is the owner. -/
def Observed.Sees (c : Chat) (o : Observed) : Prop :=
  ∀ x, o.object = some x → x < c.objects ∧
    ∀ a, c.slot.active = some a → a.object = x → c.slot.reservedBy = o.owner

lemma Observed.Sees.does (h : o.Sees c) (hd : Does n who c c') : o.Sees c' := by
  intro x hx
  obtain ⟨hlt, hown⟩ := h x hx
  rcases hd.objects with ⟨hobj, hact⟩ | ⟨hobj, hact⟩
  · refine ⟨hobj ▸ hlt, fun a' ha' hax => ?_⟩
    obtain ⟨a, ha, haa, hr⟩ := hact a' ha'
    exact hr.trans (hown a ha (haa.trans hax))
  · refine ⟨by omega, fun a' ha' hax => ?_⟩
    have := hact a' ha'
    omega

def StopPoint.Counts (c : Chat) (forced : Bool) : StopPoint → Prop
  | .observing first => first.isSome = true → forced = false
  | .prebind o => forced = false ∧ o.Names ∧
      (o.admissionId.isSome = true ∨ o.controlReservationId.isSome = true)
  | .watching o => o.Names ∧ o.Sees c ∧
      (o.controlReservationId = none → o.activeRunId.isSome = true)
  | .closing o expectedRunId _ => o.Names ∧ (o.controlReservationId = none →
      (∀ r, expectedRunId = some r → o.owner = some r) ∧
      (expectedRunId = none → forced = false ∧ c.slot.Stranded ∧ c.slot.reservedBy = o.owner))
  | _ => True

structure StopFits (c : Chat) (n : Nat) (forced : Bool) (p : StopPoint) : Prop where
  fence : p.live = true → forced = false → c.stopping = some n
  counts : p.Counts c forced

namespace StopFits
variable {c c' : Chat} {n m : Nat} {forced : Bool} {p : StopPoint} {who : Option Nat}

/-- Steps of others leave a Stop what it counts on: a stranded reservation stays behind its fence. -/
lemma stable (h : StopFits c m forced p) (hd : Does n who c c') (hm : m ≠ n) :
    StopFits c' m forced p where
  fence hp hf := hd.keeps_fence hm (h.fence hp hf)
  counts := by
    cases p with
    | observing | prebind => exact h.counts
    | watching o => exact ⟨h.counts.1, h.counts.2.1.does hd, h.counts.2.2⟩
    | closing o expectedRunId pre =>
      refine ⟨h.counts.1, fun hc => ⟨(h.counts.2 hc).1, fun hr => ?_⟩⟩
      obtain ⟨hforced, hs, howner⟩ := (h.counts.2 hc).2 hr
      have hfence := h.fence rfl hforced
      have hslot : c'.slot = c.slot :=
        hd.stranded (by rw [hfence]; rfl) (fun heq => hm (Option.some.inj (hfence.symm.trans heq))) hs
      exact ⟨hforced, hslot ▸ hs, hslot ▸ howner⟩
    | _ => trivial

lemma ended : StopFits c n forced .ended := ⟨nofun, trivial⟩

end StopFits

section
variable (hK : c.slot.Kept)
include hK

lemma stop_ends : Does n who c (c.stopEnds n) ∧ StopFits (c.stopEnds n) n forced .ended :=
  ⟨(Does.refl hK).stopEnds rfl, StopFits.ended⟩

lemma observe_step (hfresh : ∀ a, c.slot.active = some a → a.object < c.objects)
    (h : StopFits c n forced (.observing first)) (ready interrupts : Bool) :
    Does n c.slot.reservedBy c (observeStop c n forced ready interrupts first).1 ∧
      StopFits (observeStop c n forced ready interrupts first).1 n forced
        (observeStop c n forced ready interrupts first).2 := by
  unfold observeStop
  split
  · next a ha =>
    split
    · exact stop_ends hK
    · have hmark := Chat.mark_does (n := n) (f := fun a => { a with
          stopRequested := true, nativeInterruptSent := a.nativeInterruptSent || interrupts })
        hK (fun _ => rfl) (fun _ => rfl) (fun _ => rfl) (by rw [ha]; rfl) rfl
      refine ⟨⟨hmark.kept, rfl, hmark.objects, .inl rfl, .inl rfl, hmark.slot, hmark.stranded⟩,
        fun _ hf => h.fence rfl hf, observed_names hK, ?_, observed_active hK ha⟩
      intro x hx
      simp only [Slot.observed, ha, Option.map_some, Option.some.injEq] at hx
      exact ⟨hx ▸ hfresh a ha, fun _ _ _ => rfl⟩
  · next ha =>
    split
    · exact stop_ends hK
    · next hg =>
      simp only [Bool.or_eq_true, Bool.not_eq_true', not_or, Bool.not_eq_false,
        Bool.not_eq_true] at hg
      exact ⟨Does.of_eq hK rfl rfl rfl rfl rfl, fun _ hf => h.fence rfl hf, hg.2, observed_names hK,
        observed_prebind hK hg.1⟩

lemma prebind_step (h : StopFits c n forced (.prebind o)) (last : Bool) :
    Does n o.owner c (prebindRound c n o last).1 ∧
      StopFits (prebindRound c n o last).1 n forced (prebindRound c n o last).2 := by
  unfold prebindRound
  split
  · exact stop_ends hK
  next hsame =>
  split
  · exact ⟨.refl hK, h.fence, fun _ => h.counts.1⟩
  next hactive =>
  split
  · exact stop_ends hK
  next hbusy =>
  split
  · -- the deadline has passed: the reservation is still the one that was observed
    simp only [Bool.not_eq_true', Bool.not_eq_false] at hbusy
    refine ⟨.refl hK, h.fence, h.counts.2.1, fun hc => ?_⟩
    obtain ⟨a, ha⟩ : ∃ a, o.admissionId = some a := by
      rcases h.counts.2.2 with ha | ha
      · exact Option.isSome_iff_exists.mp ha
      · rw [hc] at ha
        cases ha
    have hadm : c.slot.currentAdmissionId = some a := by
      simpa [hbusy, ha] using hsame
    have howner : c.slot.reservedBy = o.owner :=
      (hK.admission_owner hadm).trans (h.counts.2.1.admission a ha).symm
    refine ⟨fun r hr => howner.symm.trans (hK.currentRunId_owner hr), fun hr => ?_⟩
    refine ⟨h.counts.1, ⟨hbusy, by simpa using hactive, hr, ?_⟩, howner⟩
    obtain ⟨t, ht, hta⟩ := Option.bind_eq_some_iff.mp hadm
    generalize c.slot = s at hK ht
    cases hK with
    | free => cases ht
    | turn m t' x hc' _ =>
      exact hc'.reservation
    | control m t' x hc' _ =>
      cases ht
      exact nomatch hc'.admission.symm.trans hta
  · exact ⟨.refl hK, h⟩

/-- The release of a Stop acts for the owner it observed, also where nothing is compared. -/
lemma releaseStoppingSlot_does {pre : Bool} {r : Option Nat}
    (h : StopFits c n forced (.closing o r pre)) :
    Does n o.owner c (releaseStoppingSlot c o r pre) ∧
      (releaseStoppingSlot c o r pre).stopping = c.stopping := by
  unfold releaseStoppingSlot
  split
  · next id hid =>
    rw [h.counts.1.reservation id hid]
    exact ⟨Chat.releaseCodexControlSlot_does hK, Leaves.releaseCodexControlSlot.stopping⟩
  · next hc =>
    refine ⟨?_, Leaves.releaseTurnSlot.stopping⟩
    cases r with
    | some r =>
      rw [(h.counts.2 hc).1 r rfl]
      exact Chat.releaseTurnSlot_run hK
    | none =>
      obtain ⟨hforced, _, howner⟩ := (h.counts.2 hc).2 rfl
      exact Does.vacates howner fun _ hne => absurd (h.fence rfl hforced) hne

/-- STEP: a Stop acts for the owner it has observed last. -/
theorem stop_step {p : StopPoint} (hfresh : ∀ a, c.slot.active = some a → a.object < c.objects)
    (h : StopFits c n forced p) (o : Outcome) :
    Does n (Task.acts c (.stop n forced p)) c (stopAdvance c n forced p o).1 ∧
      StopFits (stopAdvance c n forced p o).1 n forced (stopAdvance c n forced p o).2 := by
  have hunlock : ∀ q, StopFits c n forced q → StopFits (c.unlock n) n forced q := by
    intro q hq
    unfold Chat.unlock
    split
    · exact ⟨hq.fence, hq.counts⟩
    · exact hq
  unfold stopAdvance
  split
  · exact ⟨Does.unlocks hK, StopFits.ended⟩
  · exact ⟨Does.unlocks hK, hunlock _ h⟩
  · -- takes the lock and, if explicit, raises the fence
    split
    · next hg =>
      simp only [Bool.and_eq_true, decide_eq_true_eq] at hg
      refine ⟨⟨hK, rfl, .inl (Does.same_object rfl rfl), .inr (.inl ⟨hg.1, rfl⟩), ?_, .inl rfl,
        fun _ _ _ => rfl⟩, ?_, nofun⟩
      · cases forced with
        | true => exact .inl hg.2.symm
        | false => exact .inr (.inl ⟨hg.2, hg.1, rfl⟩)
      · rintro _ rfl
        rfl
    · exact ⟨.refl hK, h⟩
  · exact ⟨.refl hK, StopFits.ended⟩
  · exact observe_step hK hfresh h _ _
  · exact prebind_step hK h false
  · exact prebind_step hK h true
  · -- the interrupt of the observed record failed
    split
    · next ob hact =>
      simp only [Observed.isActive, Bool.and_eq_true, beq_iff_eq] at hact
      obtain ⟨a, ha⟩ := Option.isSome_iff_exists.mp hact.1
      have howner : c.slot.reservedBy = ob.owner :=
        (h.counts.2.1 a.object (by rw [← hact.2, ha]; rfl)).2 a ha rfl
      have hd := Chat.mark_does (n := n) (f := fun a => { a with nativeInterruptSent := false })
        hK (fun _ => rfl) (fun _ => rfl) (fun _ => rfl) hact.1 howner
      exact ⟨hd, fun _ hf => h.fence rfl hf, h.counts.1, h.counts.2.1.does hd, h.counts.2.2⟩
    · exact ⟨.refl hK, h⟩
  · split
    · exact ⟨.refl hK, h⟩
    · exact stop_ends hK
  · -- turns to the release
    next ob =>
    refine ⟨.refl hK, h.fence, h.counts.1, fun hc => ⟨h.counts.1.run, fun hr => ?_⟩⟩
    have hsome := h.counts.2.2 hc
    rw [hr] at hsome
    cases hsome
  · obtain ⟨hd, hf⟩ := releaseStoppingSlot_does hK h
    exact ⟨hd.stopEnds hf, StopFits.ended⟩
  · exact ⟨.refl hK, h⟩
  · exact stop_ends hK
  · exact ⟨.refl hK, h⟩

end

/-! ### All tasks together -/

/-- What the task at place `i` counts on. -/
def Task.Fits (c : Chat) (i : Nat) : Task → Prop
  | .turn n p => n = i ∧ TurnFits c n p
  | .control n p => n = i ∧ ControlFits c n p
  | .stop n forced p => n = i ∧ StopFits c n forced p
  | .upkeep _ => True

lemma Task.Fits.stable {i j : Nat} {t : Task} (h : t.Fits c i) (hd : Does j who c c')
    (hne : i ≠ j) : t.Fits c' i := by
  cases t with
  | turn n p | control n p | stop n forced p => exact ⟨h.1, h.2.stable hd (h.1 ▸ hne)⟩
  | upkeep n => trivial

/-- STEP: every task acts for the one it should. -/
theorem advance_does {i : Nat} {t : Task} (hK : c.slot.Kept)
    (hfresh : ∀ a, c.slot.active = some a → a.object < c.objects) (h : t.Fits c i) (o : Outcome) :
    Does i (t.acts c) c (advance c t o).1 ∧ (advance c t o).2.Fits (advance c t o).1 i := by
  cases t with
  | turn n p =>
    obtain ⟨rfl, h⟩ := h
    exact ⟨(turn_step hK h o).1, rfl, (turn_step hK h o).2⟩
  | control n p =>
    obtain ⟨rfl, h⟩ := h
    exact ⟨(control_step hK h o).1, rfl, (control_step hK h o).2⟩
  | stop n forced p =>
    obtain ⟨rfl, h⟩ := h
    exact ⟨(stop_step hK hfresh h o).1, rfl, (stop_step hK hfresh h o).2⟩
  | upkeep n =>
    cases o with
    | maintain on => exact ⟨Does.of_eq hK rfl rfl rfl rfl rfl, trivial⟩
    | _ => exact ⟨.refl hK, trivial⟩

structure World.Inv (w : World) : Prop where
  kept : w.shared.slot.Kept
  fresh : ∀ a, w.shared.slot.active = some a → a.object < w.shared.objects
  count : w.shared.started = w.tasks.length
  owner : ∀ n, w.shared.slot.reservedBy = some n → n < w.tasks.length
  fits : ∀ (i : Nat) (t : Task), w.tasks[i]? = some t → t.Fits w.shared i

lemma Does.fresh (hd : Does n who c c') (h : ∀ a, c.slot.active = some a → a.object < c.objects) :
    ∀ a, c'.slot.active = some a → a.object < c'.objects := by
  intro a' ha'
  rcases hd.objects with ⟨hobj, hact⟩ | ⟨hobj, hact⟩
  · obtain ⟨a, ha, haa, _⟩ := hact a' ha'
    have := h a ha
    omega
  · have := hact a' ha'
    omega

namespace World.Inv
variable {w : World}

lemma start (h : w.Inv) (r : Request) : (w.step (.start r)).Inv where
  kept := h.kept
  fresh := h.fresh
  count := by
    show w.shared.started + 1 = (w.tasks ++ [_]).length
    rw [List.length_append, h.count]
    rfl
  owner n hn := by
    show n < (w.tasks ++ [_]).length
    have := h.owner n hn
    rw [List.length_append]
    omega
  fits i t ht := by
    -- The new task has a number that owns nothing; nothing else has changed.
    have hnew : w.shared.slot.reservedBy ≠ some w.shared.started := fun hr => by
      have := h.owner _ hr
      have := h.count
      omega
    rcases getElem?_concat_cases ht with ⟨rfl, rfl⟩ | ⟨_, ht⟩
    · cases r with
      | turn => exact ⟨h.count, nofun, nofun, fun hr => absurd hr hnew, trivial⟩
      | control => exact ⟨h.count, nofun, fun hr => absurd hr hnew, nofun⟩
      | stop forced => exact ⟨h.count, nofun, trivial⟩
      | upkeep => trivial
    · have hf := h.fits i t ht
      cases t with
      | turn n p => exact ⟨hf.1, hf.2.lock, hf.2.fence, hf.2.kind, hf.2.counts⟩
      | control n p => exact ⟨hf.1, hf.2.lock, hf.2.kind, hf.2.counts⟩
      | stop n forced p => exact ⟨hf.1, hf.2.fence, hf.2.counts⟩
      | upkeep n => trivial

lemma advance (h : w.Inv) (i : Nat) (o : Outcome) : (w.step (.advance i o)).Inv := by
  cases ht : w.tasks[i]? with
  | none =>
    rw [World.step, Pool.step_none ht]
    exact h
  | some t =>
    have hi : i < w.tasks.length := (List.getElem?_eq_some_iff.mp ht).1
    obtain ⟨hd, hfits⟩ := advance_does h.kept h.fresh (h.fits i t ht) o
    rw [World.step, Pool.step_some ht]
    refine ⟨hd.kept, hd.fresh h.fresh, ?_, fun n hn => ?_, fun j u hu => ?_⟩
    · exact hd.started.trans (h.count.trans (List.length_set ..).symm)
    · rw [List.length_set]
      by_cases hni : n = i
      · exact hni ▸ hi
      · exact h.owner n (hd.other hni hn).1
    · rcases getElem?_set_cases hu with ⟨rfl, rfl⟩ | ⟨hji, hu⟩
      · exact hfits
      · exact (h.fits j u hu).stable hd hji

lemma step (h : w.Inv) (m : Move) : (w.step m).Inv := by
  cases m with
  | start r => exact h.start r
  | advance i o => exact h.advance i o

lemma undisturbed (h : w.Inv) : Undisturbed Task.acts w := by
  intro m
  cases m with
  | start r => exact .inl rfl
  | advance i o =>
    cases ht : w.tasks[i]? with
    | none =>
      rw [World.step, Pool.step_none ht]
      exact .inl rfl
    | some t =>
      have hd := (advance_does h.kept h.fresh (h.fits i t ht) o).1
      have hb : w.mover Task.acts (.advance i o) = t.acts w.shared := by
        rw [World.mover, ht]
        rfl
      rw [hb, World.step, Pool.step_some ht]
      rcases hd.slot with hs | ⟨hfree, _, hwho, hs, _⟩ | ⟨hs, _⟩ | ⟨hs, _⟩
      · exact .inl hs
      · exact .inr (.inl ⟨hfree, hs.trans hwho.symm⟩)
      · exact .inr (.inr hs)
      · exact .inr (.inr hs)

lemma init : World.Inv { shared := {} } :=
  ⟨.free, nofun, rfl, nofun, fun _ _ h => by simp at h⟩

lemma reached (moves : List Move) : World.Inv (run World.step { shared := {} } moves) :=
  run_inv (fun _ m h => h.step m) moves _ init

end World.Inv

/-! ### A Stop that enters again -/

/-- The points at which a Stop would take the slot of a native control for the one it has observed. -/
def StopPoint.exposed : StopPoint → Bool
  | .prebind o => o.admissionId.isNone
  | .observing first => first.isSome
  | _ => false

def Task.exposed : Task → Bool
  | .stop _ _ p => p.exposed
  | _ => false

/-- No native control is reserved while a Stop is exposed. -/
def World.Spares (w : World) (m : Move) : Prop :=
  w.tasks.any Task.exposed = true → w.shared.slot.reservedBy = none →
    (w.step m).shared.slot.currentReservationId = none

instance (w : World) (m : Move) : Decidable (w.Spares m) := inferInstanceAs (Decidable (_ → _ → _))

/-- The slot is free or belongs to `who`. -/
def Slot.At (s : Slot) (who : Option Nat) : Prop := s.reservedBy = none ∨ s.reservedBy = who

/-- The owner that a Stop observed last is the one it observed first. -/
def StopPoint.Constant (c : Chat) : StopPoint → Prop
  | .observing first => first.isSome = true → c.slot.At first
  | .prebind o => o.first = o.owner ∧ (o.admissionId = none → c.slot.At o.owner)
  | .watching o | .closing o _ _ => o.first = o.owner
  | _ => True

lemma Does.at (hd : Does n who c c') (hf : c.stopping.isSome = true)
    (hs : c.slot.reservedBy = none → c'.slot.currentReservationId = none) (h : c.slot.At first) :
    c'.slot.At first := by
  rcases hd.slot with hs' | ⟨hfree, _, _, _, hstop | hres⟩ | ⟨_, hs'⟩ | ⟨hw, hw', _⟩
  · rwa [Slot.At, hs']
  · rw [hstop] at hf
    cases hf
  · exact nomatch (hs hfree).symm.trans hres
  · exact .inl (by rw [hs'])
  · rwa [Slot.At, hw', ← hw]

namespace StopPoint.Constant
variable {p : StopPoint}

/-- Steps of others that spare an exposed Stop leave it its owner. -/
lemma stable {m : Nat} (h : p.Constant c) (hfits : StopFits c m forced p) (hd : Does n who c c')
    (hs : p.exposed = true → c.slot.reservedBy = none → c'.slot.currentReservationId = none) :
    p.Constant c' := by
  cases p with
  | observing first =>
    intro hf
    have hfence := hfits.fence rfl (hfits.counts hf)
    exact hd.at (by rw [hfence]; rfl) (hs hf) (h hf)
  | prebind o =>
    refine ⟨h.1, fun ha => ?_⟩
    have hfence := hfits.fence rfl hfits.counts.1
    exact hd.at (by rw [hfence]; rfl) (hs (by rw [StopPoint.exposed, ha]; rfl)) (h.2 ha)
  | waiting | ended => trivial
  | watching | closing => exact h

lemma observed (hK : c.slot.Kept) (hb : c.slot.busy = true)
    (h : (StopPoint.observing first).Constant c) :
    (c.slot.observed first).first = (c.slot.observed first).owner := by
  cases first with
  | none => rfl
  | some a =>
    rcases h rfl with hfree | hown
    · rw [hK.eq_free_of_unreserved hfree] at hb
      cases hb
    · exact hown.symm

/-- So do its own. -/
lemma own (hK : c.slot.Kept) (hfits : StopFits c n forced p) (h : p.Constant c) (o : Outcome) :
    (stopAdvance c n forced p o).2.Constant (stopAdvance c n forced p o).1 := by
  have hunlock : ∀ q : StopPoint, q.Constant c → q.Constant (c.unlock n) := by
    intro q hq
    unfold Chat.unlock
    split <;> exact hq
  unfold stopAdvance
  split
  · trivial
  · exact hunlock _ h
  · split
    · exact nofun
    · trivial
  · trivial
  · -- the slot it finds is still that of the owner it knows
    unfold observeStop
    split
    · next a ha =>
      split
      · trivial
      · exact observed hK (hK.owned.active_busy (by rw [ha]; rfl)) h
    · split
      · trivial
      · next hg =>
        simp only [Bool.or_eq_true, Bool.not_eq_true', not_or, Bool.not_eq_false] at hg
        exact ⟨observed hK hg.1 h, fun _ => .inr rfl⟩
  · exact prebind hK hfits h false
  · exact prebind hK hfits h true
  · split <;> exact h
  · split
    · exact h
    · trivial
  · exact h
  · trivial
  · trivial
  · trivial
  · exact h
where
  prebind (hK : c.slot.Kept) {o : Observed} (hfits : StopFits c n forced (.prebind o))
      (h : (StopPoint.prebind o).Constant c) (last : Bool) :
      (prebindRound c n o last).2.Constant (prebindRound c n o last).1 := by
    unfold prebindRound
    split
    · trivial
    next hsame =>
    split
    · next hactive =>
      intro _
      rw [h.1]
      cases ha : o.admissionId with
      | none => exact h.2 ha
      | some a =>
        have hadm : c.slot.currentAdmissionId = some a := by
          simpa [hK.owned.active_busy hactive, ha] using hsame
        exact .inr ((hK.admission_owner hadm).trans (hfits.counts.2.1.admission a ha).symm)
    split
    · trivial
    split
    · exact h.1
    · exact h

end StopPoint.Constant

def World.Constant (w : World) : Prop :=
  ∀ (i n : Nat) (forced : Bool) (p : StopPoint), w.tasks[i]? = some (.stop n forced p) →
    p.Constant w.shared

lemma World.Constant.step {w : World} {m : Move} (h : w.Constant) (hinv : w.Inv) (hs : w.Spares m) :
    (w.step m).Constant := by
  intro j n forced p hj
  cases m with
  | start r =>
    rcases getElem?_concat_cases hj with ⟨_, hnew⟩ | ⟨_, hj⟩
    · cases r <;> cases hnew
      trivial
    · exact h j n forced p hj
  | advance i o =>
    cases ht : w.tasks[i]? with
    | none =>
      rw [World.step, Pool.step_none ht] at hj ⊢
      exact h j n forced p hj
    | some t =>
      have hstep : w.step (.advance i o) = ⟨(Turns.advance w.shared t o).1, _⟩ := Pool.step_some ht
      rw [World.Spares, hstep] at hs
      rw [hstep] at hj ⊢
      rcases getElem?_set_cases hj with ⟨rfl, heq⟩ | ⟨_, hj⟩
      · cases t with
        | stop k forced' q =>
          cases heq
          exact (h j _ _ _ ht).own hinv.kept (hinv.fits j _ ht).2 o
        | turn | control => cases heq
        | upkeep k => cases o <;> cases heq
      · refine (h j n forced p hj).stable (hinv.fits j _ hj).2
          (advance_does hinv.kept hinv.fresh (hinv.fits i t ht) o).1 fun he => hs ?_
        exact List.any_eq_true.mpr ⟨_, List.mem_of_getElem? hj, he⟩

lemma observing_free {forced : Bool} (hfree : c.slot = {}) (o : Outcome) :
    (stopAdvance c n forced (.observing first) o).1.slot = c.slot := by
  have hends : (c.stopEnds n).slot = c.slot := by
    unfold Chat.stopEnds
    split <;> rfl
  cases o <;> simp [stopAdvance, observeStop, hfree, Chat.unlock_slot, hends]

/-- Where every Stop acts for the owner it observed first, it acts on behalf of it. -/
lemma World.Constant.undisturbed {w : World} (h : w.Constant) (hinv : w.Inv) :
    Undisturbed Task.behalf w := by
  intro m
  have hacts := hinv.undisturbed m
  cases m with
  | start r => exact hacts
  | advance i o =>
    rw [World.mover] at hacts ⊢
    cases ht : w.tasks[i]? with
    | none => rwa [ht] at hacts
    | some t =>
      rw [ht] at hacts
      cases t with
      | turn | control | upkeep => exact hacts
      | stop n forced p =>
        have hc := h i n forced p ht
        rw [Option.bind_some] at hacts ⊢
        cases p with
        | waiting | ended => exact hacts
        | prebind o =>
          rw [Task.behalf, hc.1]
          exact hacts
        | watching o | closing o _ _ =>
          rw [Task.behalf, show o.first = o.owner from hc]
          exact hacts
        | observing first =>
          cases first with
          | none => exact hacts
          | some a =>
            rcases hc rfl with hfree | hown
            · left
              rw [World.step, Pool.step_some ht]
              exact observing_free (hinv.kept.eq_free_of_unreserved hfree) o
            · exact .inr (.inr hown)

/-- RUN: whatever is started for a chat, and however its steps interleave, the entries of the slot have
    one owner, and no step disturbs the slot of another than the one it is made for. A Stop that enters
    again acts for whom it then finds; that is the owner it observed first as long as no native control
    is reserved while it is exposed. -/
theorem turn_slot_has_one_owner (moves : List Move) :
    let w := run World.step { shared := {} } moves
    w.shared.slot.Owned ∧ Undisturbed Task.acts w ∧
      (Along World.step World.Spares { shared := {} } moves → Undisturbed Task.behalf w) := by
  have hinv := World.Inv.reached moves
  refine ⟨hinv.kept.owned, hinv.undisturbed, fun hspares => ?_⟩
  have hboth := run_inv_along (P := fun w : World => w.Inv ∧ w.Constant)
    (fun w m hs h => ⟨h.1.step m, h.2.step h.1 hs⟩) moves _ hspares
    ⟨.init, fun _ _ _ _ h => by simp at h⟩
  exact hboth.2.undisturbed hinv

/-- A turn is reserved and named, a Stop observes it, the turn is bound and the Stop goes back to its
    first section. -/
def reentered : List Move :=
  [.start .turn, .start (.stop false), .start .control,
    .advance 0 .proceeds, .advance 0 .proceeds, .advance 0 .proceeds, .advance 0 .proceeds,
    .advance 0 .proceeds, .advance 1 .proceeds, .advance 1 (.observe true false), .advance 1 .unlock,
    .advance 0 (.bind "t"), .advance 1 .proceeds]

theorem turn_slot_reentered :
    Along World.step World.Spares { shared := {} } reentered ∧
      (run World.step { shared := {} } reentered).shared.slot.reservedBy = some 0 ∧
      Undisturbed Task.behalf (run World.step { shared := {} } reentered) :=
  have hspares : Along World.step World.Spares { shared := {} } reentered := by decide
  ⟨hspares, by decide, (turn_slot_has_one_owner reentered).2.2 hspares⟩

/-- Meanwhile the turn ends and a native control is reserved and bound: the Stop marks its record. -/
theorem stop_takes_control :
    ¬ ∀ moves : List Move, Undisturbed Task.behalf (run World.step { shared := {} } moves) := by
  intro h
  have hmarks := h (reentered ++ [.advance 0 .release, .advance 2 .proceeds, .advance 2 .proceeds,
    .advance 2 (.thread "u")]) (.advance 1 (.observe true false))
  revert hmarks
  decide

/-- FENCE: in no interleaving does a turn start up while a Stop that is not forced is under way. -/
theorem no_startup_behind_fence (moves : List Move) (i j n m : Nat) (p : TurnPoint) (q : StopPoint) :
    let w := run World.step { shared := {} } moves
    ¬(w.tasks[i]? = some (.turn n p) ∧ w.tasks[j]? = some (.stop m false q) ∧
      p.startsUp = true ∧ q.live = true) := by
  rintro w ⟨hi, hj, hp, hq⟩
  have h : w.Inv := World.Inv.reached moves
  have hfence := (h.fits j _ hj).2.fence hq rfl
  cases ((h.fits i _ hi).2.fence hp).symm.trans hfence

end Turns
