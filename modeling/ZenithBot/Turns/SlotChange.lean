import ZenithBot.Turns.Slot

/-! What the sections of one chat do to its turn slot. The slot is free, a turn's or a native control's
    (`Slot.Kept`), and most sections compare an id before they write, so they can only touch a slot of
    their own. `Does n who` says all that a step of task `n`, taken on behalf of `who`, may do to the
    chat; the lemmas below give it for every section. -/

namespace Turns
open Lib

variable {x : ActiveTurn} {id r : Nat} {f : ActiveTurn → ActiveTurn} {a : Option Nat} {pre : Bool}

/-- The promise about the three entries. -/
structure Slot.Owned (s : Slot) : Prop where
  free : s.reservedBy = none → s.busy = false ∧ s.current = none ∧ s.active = none
  held : ∀ n, s.reservedBy = some n → s.busy = true ∧ s.current.isSome = true
  active_busy : s.active.isSome = true → s.busy = true
  current_ids : ∀ t, s.current = some t → ∀ id,
    t.runId = some id ∨ t.admissionId = some id ∨ t.controlReservationId = some id →
      s.reservedBy = some id
  active_ids : ∀ a, s.active = some a → ∀ id,
    a.runId = some id ∨ a.controlReservationId = some id → s.reservedBy = some id

/-! ### The shapes of the slot -/

structure CurrentTurn.TurnOf (n : Nat) (t : CurrentTurn) : Prop where
  admission : t.admissionId = some n
  reservation : t.controlReservationId = none
  native : t.nativeControl = false
  run : t.runId = none ∨ t.runId = some n

structure CurrentTurn.ControlOf (n : Nat) (t : CurrentTurn) : Prop where
  admission : t.admissionId = none
  reservation : t.controlReservationId = some n
  run : t.runId = none

structure ActiveTurn.TurnOf (n : Nat) (a : ActiveTurn) : Prop where
  run : a.runId = some n
  reservation : a.controlReservationId = none

structure ActiveTurn.ControlOf (n : Nat) (a : ActiveTurn) : Prop where
  reservation : a.controlReservationId = some n
  run : a.runId = none ∨ a.runId = some n

/-- The slot is free, or a turn's, which is active only under its run id, or a native control's. -/
inductive Slot.Kept : Slot → Prop
  | free : Kept {}
  | turn (n : Nat) (t : CurrentTurn) (a : Option ActiveTurn) (current : t.TurnOf n)
      (active : ∀ x, a = some x → x.TurnOf n ∧ t.runId = some n) : Kept ⟨true, some t, a, some n⟩
  | control (n : Nat) (t : CurrentTurn) (a : Option ActiveTurn) (current : t.ControlOf n)
      (active : ∀ x, a = some x → x.ControlOf n) : Kept ⟨true, some t, a, some n⟩

namespace Slot.Kept
variable {s : Slot} {id : Nat}

section
variable (h : s.Kept)
include h

lemma current_owner {t : CurrentTurn} (ht : s.current = some t)
    (hid : t.runId = some id ∨ t.admissionId = some id ∨ t.controlReservationId = some id) :
    s.reservedBy = some id := by
  cases h with
  | free => cases ht
  | turn n t' a hc ha =>
    cases ht
    rcases hid with hid | hid | hid
    · rcases hc.run with hr | hr <;> rw [hr] at hid
      · cases hid
      · exact hid
    · exact hc.admission.symm.trans hid
    · rw [hc.reservation] at hid
      cases hid
  | control n t' a hc ha =>
    cases ht
    rcases hid with hid | hid | hid
    · rw [hc.run] at hid
      cases hid
    · rw [hc.admission] at hid
      cases hid
    · exact hc.reservation.symm.trans hid

lemma active_owner (hx : s.active = some x)
    (hid : x.runId = some id ∨ x.controlReservationId = some id) : s.reservedBy = some id := by
  cases h with
  | free => cases hx
  | turn n t a hc ha =>
    obtain ⟨hrun, hres⟩ := (ha x hx).1
    rcases hid with hid | hid
    · exact hrun.symm.trans hid
    · rw [hres] at hid
      cases hid
  | control n t a hc ha =>
    obtain ⟨hres, hrun⟩ := ha x hx
    rcases hid with hid | hid
    · rcases hrun with hr | hr <;> rw [hr] at hid
      · cases hid
      · exact hid
    · exact hres.symm.trans hid

lemma activeRunId_owner (hr : s.activeRunId = some id) : s.reservedBy = some id := by
  obtain ⟨a, ha, hr⟩ := Option.bind_eq_some_iff.mp hr
  exact h.active_owner ha (.inl hr)

lemma currentRunId_owner (hr : s.currentRunId = some id) : s.reservedBy = some id := by
  obtain ⟨t, ht, hr⟩ := Option.bind_eq_some_iff.mp hr
  exact h.current_owner ht (.inl hr)

lemma admission_owner (hr : s.currentAdmissionId = some id) : s.reservedBy = some id := by
  obtain ⟨t, ht, hr⟩ := Option.bind_eq_some_iff.mp hr
  exact h.current_owner ht (.inr (.inl hr))

lemma reservation_owner (hr : s.currentReservationId = some id) : s.reservedBy = some id := by
  obtain ⟨t, ht, hr⟩ := Option.bind_eq_some_iff.mp hr
  exact h.current_owner ht (.inr (.inr hr))

lemma eq_free (hb : s.busy = false) : s = {} := by
  cases h with
  | free => rfl
  | turn | control => cases hb

lemma eq_free_of_unreserved (hr : s.reservedBy = none) : s = {} := by
  cases h with
  | free => rfl
  | turn | control => cases hr

lemma owned : s.Owned where
  free hr := by rw [h.eq_free_of_unreserved hr]; exact ⟨rfl, rfl, rfl⟩
  held n hr := by
    cases h with
    | free => cases hr
    | turn | control => exact ⟨rfl, rfl⟩
  active_busy ha := by
    cases h with
    | free => cases ha
    | turn | control => rfl
  current_ids _ ht _ hid := h.current_owner ht hid
  active_ids _ ha _ hid := h.active_owner ha hid

/-- Marks that leave the ids of the active record alone. -/
lemma mark (hrun : ∀ a, (f a).runId = a.runId)
    (hres : ∀ a, (f a).controlReservationId = a.controlReservationId) :
    Slot.Kept { s with active := s.active.map f } := by
  cases h with
  | free => exact .free
  | turn n t a hc ha =>
    refine .turn n t _ hc fun x hx => ?_
    obtain ⟨y, hy, rfl⟩ := Option.map_eq_some_iff.mp hx
    obtain ⟨⟨h1, h2⟩, h3⟩ := ha y hy
    exact ⟨⟨(hrun y).trans h1, (hres y).trans h2⟩, h3⟩
  | control n t a hc ha =>
    refine .control n t _ hc fun x hx => ?_
    obtain ⟨y, hy, rfl⟩ := Option.map_eq_some_iff.mp hx
    obtain ⟨h1, h2⟩ := ha y hy
    exact ⟨(hres y).trans h1, by rwa [hrun y]⟩

lemma bind_turn (hrun : s.currentRunId = some id) (hx : x.TurnOf id) :
    Slot.Kept { s with active := some x } := by
  have howner := h.currentRunId_owner hrun
  cases h with
  | free => cases hrun
  | turn n t a hc ha =>
    cases howner
    refine .turn id t _ hc fun y hy => ?_
    cases hy
    exact ⟨hx, hrun⟩
  | control n t a hc ha => exact nomatch hc.run.symm.trans hrun

lemma bind_control (hres : s.currentReservationId = some id) (hx : x.ControlOf id) :
    Slot.Kept { s with active := some x } := by
  have howner := h.reservation_owner hres
  cases h with
  | free => cases hres
  | turn n t a hc ha => exact nomatch hc.reservation.symm.trans hres
  | control n t a hc ha =>
    cases howner
    refine .control id t _ hc fun y hy => ?_
    cases hy
    exact hx

lemma clear : Slot.Kept { s with active := none } := by
  cases h with
  | free => exact .free
  | turn n t a hc _ => exact .turn n t none hc nofun
  | control n t a hc _ => exact .control n t none hc nofun

end

end Slot.Kept

/-- A reservation of a turn that was left behind before its run id was written down. -/
structure Slot.Stranded (s : Slot) : Prop where
  busy : s.busy = true
  active : s.active = none
  run : s.currentRunId = none
  reservation : s.currentReservationId = none

/-! ### What a step may do -/

/-- No active record but those that were there already, in the slot of the same owner. -/
def SameObject (c c' : Chat) : Prop :=
  c'.objects = c.objects ∧ ∀ a', c'.slot.active = some a' →
    ∃ a, c.slot.active = some a ∧ a.object = a'.object ∧ c'.slot.reservedBy = c.slot.reservedBy

def NewObject (c c' : Chat) : Prop :=
  c'.objects = c.objects + 1 ∧ ∀ a', c'.slot.active = some a' → a'.object = c.objects

/-- What task `n` may do to the chat in a step that it takes on behalf of `who`. -/
structure Does (n : Nat) (who : Option Nat) (c c' : Chat) : Prop where
  kept : c'.slot.Kept
  started : c'.started = c.started
  objects : SameObject c c' ∨ NewObject c c'
  /-- Nobody takes or leaves the lifecycle lock for another. -/
  lifecycle : c'.lifecycle = c.lifecycle ∨ (c.lifecycle = none ∧ c'.lifecycle = some n) ∨
    (c.lifecycle = some n ∧ c'.lifecycle = none)
  /-- The Stop fence goes up only when nobody holds that lock. -/
  stopping : c'.stopping = c.stopping ∨
    (c.stopping = none ∧ c.lifecycle = none ∧ c'.stopping = some n) ∨
    (c.stopping = some n ∧ c'.stopping = none)
  slot : c'.slot = c.slot ∨
    (c.slot.reservedBy = none ∧ c.lifecycle = some n ∧ who = some n ∧ c'.slot.reservedBy = some n ∧
      -- behind a fence only a native control reserves
      (c.stopping = none ∨ c'.slot.currentReservationId = some n)) ∨
    (c.slot.reservedBy = who ∧ c'.slot = {}) ∨
    (c.slot.reservedBy = who ∧ c'.slot.reservedBy = who ∧
      (who ≠ some n → c'.slot.current = c.slot.current))
  /-- Behind another one's fence a stranded reservation stays. -/
  stranded : c.stopping.isSome = true → c.stopping ≠ some n → c.slot.Stranded → c'.slot = c.slot

namespace Does
variable {n : Nat} {who : Option Nat} {c c' : Chat}
variable {m : Nat}

lemma same_object (hs : c'.slot = c.slot) (ho : c'.objects = c.objects) : SameObject c c' :=
  ⟨ho, fun a h => ⟨a, by rw [← hs]; exact h, rfl, by rw [hs]⟩⟩

lemma refl (hK : c.slot.Kept) : Does n who c c :=
  ⟨hK, rfl, .inl (same_object rfl rfl), .inl rfl, .inl rfl, .inl rfl, fun _ _ _ => rfl⟩

/-- A step that leaves the lock, the fence and the slot alone. -/
lemma of_eq (hK : c.slot.Kept) (hs : c'.slot = c.slot) (hn : c'.started = c.started)
    (ho : c'.objects = c.objects) (hl : c'.lifecycle = c.lifecycle)
    (hf : c'.stopping = c.stopping) : Does n who c c' :=
  ⟨hs ▸ hK, hn, .inl (same_object hs ho), .inl hl, .inl hf, .inl hs, fun _ _ _ => hs⟩

lemma locks (hK : c.slot.Kept) (h : c.lifecycle = none) :
    Does n who c { c with lifecycle := some n } :=
  ⟨hK, rfl, .inl (same_object rfl rfl), .inr (.inl ⟨h, rfl⟩), .inl rfl, .inl rfl, fun _ _ _ => rfl⟩

lemma unlocks (hK : c.slot.Kept) : Does n who c (c.unlock n) := by
  unfold Chat.unlock
  split
  · next h =>
    exact ⟨hK, rfl, .inl (same_object rfl rfl), .inr (.inr ⟨h, rfl⟩), .inl rfl, .inl rfl,
      fun _ _ _ => rfl⟩
  · exact refl hK

/-- A step that also takes the Stop's own fence down. -/
lemma stopEnds (h : Does n who c c') (hf : c'.stopping = c.stopping) :
    Does n who c (c'.stopEnds n) := by
  unfold Chat.stopEnds
  split
  · next hs =>
    exact ⟨h.kept, h.started, h.objects, h.lifecycle, .inr (.inr ⟨hf.symm.trans hs, rfl⟩), h.slot,
      h.stranded⟩
  · exact h

lemma vacates (h : c.slot.reservedBy = who)
    (hs : c.stopping.isSome = true → c.stopping ≠ some n → ¬ c.slot.Stranded) :
    Does n who c c.vacate :=
  ⟨.free, rfl, .inl ⟨rfl, nofun⟩, .inl rfl, .inl rfl, .inr (.inr (.inl ⟨h, rfl⟩)),
    fun h1 h2 h3 => absurd h3 (hs h1 h2)⟩

/-- The owner writes to its slot, or somebody marks the active record for it. -/
lemma writes (hK : c'.slot.Kept) (hn : c'.started = c.started)
    (ho : SameObject c c' ∨ NewObject c c') (hl : c'.lifecycle = c.lifecycle)
    (hf : c'.stopping = c.stopping) (h : c.slot.reservedBy = who) (h' : c'.slot.reservedBy = who)
    (hc : who ≠ some n → c'.slot.current = c.slot.current)
    (hs : c.stopping.isSome = true → ¬ c.slot.Stranded) : Does n who c c' :=
  ⟨hK, hn, ho, .inl hl, .inl hf, .inr (.inr (.inr ⟨h, h', hc⟩)), fun h1 _ h3 => absurd h3 (hs h1)⟩

section
variable (h : Does n who c c')
include h

/-- What a step leaves of the slot of another. -/
lemma other (hm : m ≠ n) (hr : c'.slot.reservedBy = some m) :
    c.slot.reservedBy = some m ∧ c'.slot.current = c.slot.current := by
  rcases h.slot with hs | ⟨_, _, _, hs, _⟩ | ⟨_, hs⟩ | ⟨hw, hs, hc⟩
  · exact ⟨by rw [← hs]; exact hr, by rw [hs]⟩
  · exact absurd (Option.some.inj (hr.symm.trans hs)) hm
  · rw [hs] at hr
    cases hr
  · have hwm : who = some m := hs.symm.trans hr
    exact ⟨hw.trans hwm, hc fun hn => hm (Option.some.inj (hwm.symm.trans hn))⟩

lemma keeps_lock (hm : m ≠ n) (hl : c.lifecycle = some m) : c'.lifecycle = some m := by
  rcases h.lifecycle with h | ⟨h, _⟩ | ⟨h, _⟩
  · exact h.trans hl
  · rw [h] at hl
    cases hl
  · exact absurd (Option.some.inj (hl.symm.trans h)) hm

lemma keeps_fence (hm : m ≠ n) (hs : c.stopping = some m) : c'.stopping = some m := by
  rcases h.stopping with h | ⟨h, _⟩ | ⟨h, _⟩
  · exact h.trans hs
  · rw [h] at hs
    cases hs
  · exact absurd (Option.some.inj (hs.symm.trans h)) hm

/-- Under the lock of another no fence goes up. -/
lemma keeps_no_fence (hl : c.lifecycle = some m) (hs : c.stopping = none) :
    c'.stopping = none := by
  rcases h.stopping with h | ⟨_, h, _⟩ | ⟨h, _⟩
  · exact h.trans hs
  · rw [h] at hl
    cases hl
  · rw [h] at hs
    cases hs

/-- Under the lock of `m` the slot of `m` stays its own or becomes free. -/
lemma keeps_own (hm : m ≠ n) (hl : c.lifecycle = some m)
    (hs : c.slot.reservedBy = none ∨ c.slot.reservedBy = some m) :
    c'.slot.reservedBy = none ∨ c'.slot.reservedBy = some m := by
  rcases h.slot with h | ⟨_, h, _⟩ | ⟨_, h⟩ | ⟨h, h', _⟩
  · rwa [h]
  · exact absurd (Option.some.inj (hl.symm.trans h)) hm
  · exact .inl (by rw [h])
  · rwa [h', ← h]

end

end Does

/-! ### The sections, on behalf of whom they act -/

namespace Chat
variable {c : Chat} {n : Nat}
variable {thread : String} {who : Option Nat}

lemma ownsSlot_run (h : c.ownsSlot (some r) a = true) :
    c.slot.activeRunId = some r ∨ c.slot.currentRunId = some r := by
  simp only [ownsSlot, Bool.and_eq_true, Bool.or_eq_true, beq_iff_eq] at h
  exact h.1

lemma ownsSlot_admission {a : Nat} (h : c.ownsSlot none (some a) = true) :
    c.slot.currentAdmissionId = some a := by
  simp only [ownsSlot, Bool.and_eq_true, beq_iff_eq] at h
  exact h.1

lemma ownsSlot_owner (hK : c.slot.Kept) (h : c.ownsSlot (some r) a = true) :
    c.slot.reservedBy = some r :=
  (ownsSlot_run h).elim hK.activeRunId_owner hK.currentRunId_owner

lemma not_stranded_of_ownsSlot (h : c.ownsSlot (some r) a = true) : ¬ c.slot.Stranded := by
  intro hs
  rcases ownsSlot_run h with h | h
  · rw [Slot.activeRunId, hs.active] at h
    cases h
  · rw [hs.run] at h
    cases h

lemma ownsControlSlot_owner (hK : c.slot.Kept) (h : c.ownsControlSlot thread id pre = true) :
    c.slot.reservedBy = some id := by
  unfold ownsControlSlot at h
  split at h
  · next a ha =>
    simp only [ActiveTurn.isControl, Bool.and_eq_true, beq_iff_eq] at h
    exact hK.active_owner ha (.inr h.1.2)
  · simp only [Bool.and_eq_true, beq_iff_eq] at h
    exact hK.reservation_owner h.2

lemma not_stranded_of_ownsControlSlot (h : c.ownsControlSlot thread id pre = true) :
    ¬ c.slot.Stranded := by
  intro hs
  simp only [ownsControlSlot, hs.active, hs.reservation, Bool.and_eq_true] at h
  cases h.2

section
variable (hK : c.slot.Kept)
include hK

lemma releaseTurnSlot_run : Does n (some r) c (c.releaseTurnSlot (some r) none).1 := by
  unfold releaseTurnSlot
  split
  · next h => exact Does.vacates (ownsSlot_owner hK h) fun _ _ => not_stranded_of_ownsSlot h
  · exact Does.refl hK

/-- A release by admission id acts for that admission; it is only made during a startup. -/
lemma releaseTurnSlot_admission (hf : c.stopping = none) {a : Nat} :
    Does n (some a) c (c.releaseTurnSlot none (some a)).1 := by
  unfold releaseTurnSlot
  split
  · next h =>
    refine Does.vacates (hK.admission_owner (ownsSlot_admission h)) fun h1 => ?_
    rw [hf] at h1
    cases h1
  · exact Does.refl hK

lemma releaseCodexControlSlot_does :
    Does n (some id) c (c.releaseCodexControlSlot thread id pre).1 := by
  unfold releaseCodexControlSlot
  split
  · next h =>
    exact Does.vacates (ownsControlSlot_owner hK h) fun _ _ => not_stranded_of_ownsControlSlot h
  · exact Does.refl hK

lemma claim_does {operation : Nat} :
    Does n (some id) c (c.claimCodexControlTerminalPublication operation thread id).1 := by
  unfold claimCodexControlTerminalPublication
  split
  · next h =>
    simp only [ownsOperation, Bool.and_eq_true, beq_iff_eq] at h
    have hres := h.2
    refine ⟨.free, rfl, .inl ⟨rfl, nofun⟩, .inl rfl, .inl rfl,
      .inr (.inr (.inl ⟨hK.reservation_owner hres, rfl⟩)), ?_⟩
    intro _ _ hs
    rw [hs.reservation] at hres
    cases hres
  · exact Does.refl hK

lemma finish_does : Does n who c (c.finishCodexControlTerminalPublication id) := by
  unfold finishCodexControlTerminalPublication
  split
  · exact Does.of_eq hK rfl rfl rfl rfl rfl
  · exact Does.refl hK

/-- A bind goes through only in the slot of a turn that has the run id. -/
lemma bindActiveTurn_does {record : ActiveTurn} (hr : record.runId = some n)
    (hres : record.controlReservationId = none) (ho : record.object = c.objects) :
    Does n (some n) c (c.bindActiveTurn n record).1 := by
  unfold bindActiveTurn
  split
  · exact Does.refl hK
  · next h =>
    simp only [Bool.or_eq_true, bne_iff_ne, not_or, not_not] at h
    have hrun := h.1.2
    have howner := hK.currentRunId_owner hrun
    refine Does.writes (hK.bind_turn hrun ⟨hr, hres⟩) rfl (.inr ⟨rfl, ?_⟩) rfl rfl howner howner
      (fun hn => absurd rfl hn) fun _ hs => ?_
    · rintro _ ⟨⟩
      exact ho
    · rw [hs.run] at hrun
      cases hrun

lemma clearActiveProcess_does : Does n (some n) c (c.clearActiveProcess n).1 := by
  unfold clearActiveProcess
  split
  · next h =>
    have howner := hK.activeRunId_owner h
    refine Does.writes hK.clear rfl (.inl ⟨rfl, nofun⟩) rfl rfl howner howner
      (fun hn => absurd rfl hn) fun _ hs => ?_
    rw [Slot.activeRunId, hs.active] at h
    cases h
  · exact Does.refl hK

/-- A bind of a native control, and that it left the control's own slot if it went through. -/
lemma bindCodexControlReservation_does (hr : x.runId = none) (ho : x.object = c.objects) :
    Does n (some n) c (c.bindCodexControlReservation n x).1 ∧
      ((c.bindCodexControlReservation n x).2.1 = true →
        (c.bindCodexControlReservation n x).1.slot.reservedBy = some n) := by
  unfold bindCodexControlReservation
  split
  · exact ⟨Does.refl hK, nofun⟩
  next h =>
  split
  · exact ⟨Does.refl hK, nofun⟩
  simp only [ownsReservation, Bool.not_eq_true', Bool.not_eq_false, Bool.and_eq_true, beq_iff_eq] at h
  have hres := h.1.2
  have howner := hK.reservation_owner hres
  refine ⟨Does.writes (hK.bind_control hres ⟨rfl, .inl hr⟩) rfl (.inr ⟨rfl, ?_⟩) rfl rfl howner
    howner (fun hn => absurd rfl hn) fun _ hs => ?_, fun _ => howner⟩
  · rintro _ ⟨⟩
    exact ho
  · rw [hs.reservation] at hres
    cases hres

end

lemma mark_object (hobj : ∀ a, (f a).object = a.object) : SameObject c (c.mark f) := by
  refine ⟨rfl, fun a' h => ?_⟩
  obtain ⟨a, ha, rfl⟩ := Option.map_eq_some_iff.mp h
  exact ⟨a, ha, (hobj a).symm, rfl⟩

lemma mark_does (hK : c.slot.Kept) (hrun : ∀ a, (f a).runId = a.runId)
    (hres : ∀ a, (f a).controlReservationId = a.controlReservationId)
    (hobj : ∀ a, (f a).object = a.object) (ha : c.slot.active.isSome = true)
    (hw : c.slot.reservedBy = who) : Does n who c (c.mark f) := by
  refine Does.writes (hK.mark hrun hres) rfl (.inl (mark_object hobj)) rfl rfl hw hw (fun _ => rfl)
    fun _ hs => ?_
  rw [hs.active] at ha
  cases ha

end Chat

/-- What most sections leave: the lock, the fence, and either an empty slot or its reservation. -/
structure Leaves (c c' : Chat) : Prop where
  lifecycle : c'.lifecycle = c.lifecycle
  stopping : c'.stopping = c.stopping
  slot : c'.slot = {} ∨
    (c'.slot.reservedBy = c.slot.reservedBy ∧ c'.slot.current = c.slot.current)

namespace Leaves
variable {c c' : Chat}
variable {n : Nat} {t : String}

lemma refl : Leaves c c := ⟨rfl, rfl, .inr ⟨rfl, rfl⟩⟩

lemma releaseTurnSlot {r : Option Nat} : Leaves c (c.releaseTurnSlot r a).1 := by
  unfold Chat.releaseTurnSlot
  split
  · exact ⟨rfl, rfl, .inl rfl⟩
  · exact refl

lemma bindActiveTurn : Leaves c (c.bindActiveTurn r x).1 := by
  unfold Chat.bindActiveTurn
  split
  · exact refl
  · exact ⟨rfl, rfl, .inr ⟨rfl, rfl⟩⟩

lemma clearActiveProcess : Leaves c (c.clearActiveProcess r).1 := by
  unfold Chat.clearActiveProcess
  split
  · exact ⟨rfl, rfl, .inr ⟨rfl, rfl⟩⟩
  · exact refl

lemma releaseCodexControlSlot : Leaves c (c.releaseCodexControlSlot t id pre).1 := by
  unfold Chat.releaseCodexControlSlot
  split
  · exact ⟨rfl, rfl, .inl rfl⟩
  · exact refl

lemma bindCodexControlReservation : Leaves c (c.bindCodexControlReservation n x).1 := by
  unfold Chat.bindCodexControlReservation
  split
  · exact refl
  · split
    · exact refl
    · exact ⟨rfl, rfl, .inr ⟨rfl, rfl⟩⟩

lemma claim {op : Nat} : Leaves c (c.claimCodexControlTerminalPublication op t id).1 := by
  unfold Chat.claimCodexControlTerminalPublication
  split
  · exact ⟨rfl, rfl, .inl rfl⟩
  · exact refl

lemma finish : Leaves c (c.finishCodexControlTerminalPublication id) := by
  unfold Chat.finishCodexControlTerminalPublication
  split
  · exact ⟨rfl, rfl, .inr ⟨rfl, rfl⟩⟩
  · exact refl

lemma reserved (h : Leaves c c') (hr : c'.slot.reservedBy = some n) :
    c.slot.reservedBy = some n ∧ c'.slot.current = c.slot.current := by
  rcases h.slot with h | ⟨h, hc⟩
  · rw [h] at hr
    cases hr
  · exact ⟨h.symm.trans hr, hc⟩

lemma own (h : Leaves c c') (hs : c.slot.reservedBy = none ∨ c.slot.reservedBy = some n) :
    c'.slot.reservedBy = none ∨ c'.slot.reservedBy = some n := by
  rcases h.slot with h | ⟨h, _⟩
  · exact .inl (by rw [h])
  · rwa [h]

end Leaves

end Turns
