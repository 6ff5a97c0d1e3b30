import ZenithBot.Lib.Run
import ZenithBot.TeamHub.Host

/-! Who may reopen a managed Hub, and when. The code leaves that to its callers: an aborted
    `prepare_maintenance` reopens although another one may have a fence, and nothing remembers that the host
    was shut down. So the promise holds when the operations come one after the other (`Orderly`), and two
    short runs show what happens otherwise.

    The invariant says what each program point of the operation in progress may count on (`Stands`), and
    what holds between two operations (`Idle`). Requests disturb neither, since a point that counts on
    an empty house also counts on a closed door. -/

namespace TeamHub.Host
open Lib List

variable {o : Outcome} {t : Task} {r : State × Task}

/-- An operation in progress. -/
def Task.control : Task → Bool
  | .running => false
  | .ended => false
  | _ => true

/-- A prepare with a persistent fence that has started its snapshot. -/
def Task.fencing : Task → Bool
  | .snapshotting call _ => call.persistentFence
  | _ => false

/-- The promise of the host. -/
structure Guarded (p : Pool State Task) : Prop where
  /-- From the start of a snapshot until its fence is cleared nobody is let in and nobody is in. -/
  closed : (p.shared.fence.isSome = true ∨ ∃ t ∈ p.tasks, t.fencing = true) →
    p.shared.accepting = false ∧ Task.running ∉ p.tasks
  /-- Between operations the host is open only if its peer gateway is. -/
  together : (∀ t ∈ p.tasks, t.control = false) → p.shared.accepting = true →
    p.shared.peerAccepting = true
  /-- A host that was shut stays closed. -/
  shut : p.shared.shut = true → p.shared.accepting = false
  /-- Who is counted is inside. -/
  count : p.shared.inFlight = p.tasks.countP (· = .running)

/-! ### What each point may count on -/

/-- The door is closed and nobody is inside. -/
structure Empty (s : State) : Prop where
  closed : s.accepting = false
  nobody : s.inFlight = 0

/-- The host between two operations. -/
structure Idle (s : State) : Prop where
  fenced : s.fence.isSome = true → Empty s
  together : s.accepting = true → s.peerAccepting = true

variable (c : Config)

/-- What holds at any time. -/
structure Always (s : State) : Prop where
  cleared : s.cleared = true → s.fence = none
  shut : s.shut = true → s.accepting = false
  shutting : s.shut = true → s.shutting = true
  stored : c.store = false → s.fence = none

/-- What an operation at a point may count on. -/
def Stands (s : State) : Task → Prop
  | .running | .ended => True
  | .draining _ .closing _ => s.fence = none
  | .draining _ .peerClosed _ => s.fence = none
  | .draining _ .waiting _ => s.fence = none ∧ s.accepting = false
  | .drained _ => s.fence = none ∧ Empty s
  | .snapshotting _ _ => s.fence = none ∧ Empty s ∧ c.store = true
  | .snapshotted call _ snapshot => Empty s ∧
      (s.fence = none ∨ call.persistentFence = true) ∧
      (call.persistentFence = true → ∀ n, snapshot = some n → s.fence = some n)
  | .aborting call store snapshot =>
      (store = false → s.fence = none) ∧ (store = true → Empty s) ∧
      (s.fence = none ∨ call.persistentFence = true) ∧
      (call.persistentFence = true → ∀ n, snapshot = some n → store = true → s.fence = some n)
  | .unfencing _ n => Empty s ∧ s.fence = some n
  | .probing _ => Empty s
  | .reopening => s.fence = none ∧ s.accepting = false
  | .reopened => s.fence = none ∧ s.accepting = false ∧ s.peerAccepting = true
  | .clearing _ => Idle s
  | .shutProbing => Idle s
  | .shutDraining _ _ => s.fence.isSome = true ∧ Empty s
  | .shutRaising => Idle s

/-- The operation is a shutdown. -/
def Task.shutdown : Task → Bool
  | .draining call _ _ | .drained call | .snapshotting call _ | .snapshotted call _ _
  | .aborting call _ _ | .unfencing call _ | .probing call => !call.reopenOnAbort
  | .shutProbing | .shutDraining _ _ | .shutRaising => true
  | _ => false

/-- What a step of an operation leaves. -/
structure Kept (s : State) (r : State × Task) : Prop where
  always : Always c r.1
  inFlight : r.1.inFlight = s.inFlight
  inside : r.2 ≠ .running
  stands : Stands c r.1 r.2
  role : r.2.control = true → r.2.shutdown = r.1.shutting
  idle : r.2.control = false → Idle r.1

section Steps
variable {c : Config} {s : State} {call : Prepare}
variable {aborted : Bool} {d : Drain}

lemma Kept.of_ended {s' : State} (ha : Always c s') (hn : s'.inFlight = s.inFlight) (hi : Idle s') :
    Kept c s (s', .ended) :=
  ⟨ha, hn, by simp, trivial, by simp [Task.control], fun _ => hi⟩

lemma Kept.of_control (hc : r.2.control = true) (ha : Always c r.1) (hn : r.1.inFlight = s.inFlight)
    (hs : Stands c r.1 r.2) (hr : r.2.shutdown = r.1.shutting) : Kept c s r := by
  refine ⟨ha, hn, fun h => ?_, hs, fun _ => hr, fun h => ?_⟩
  · rw [h] at hc
    cases hc
  · rw [h] at hc
    cases hc

lemma Empty.idle (h : Empty s) : Idle s where
  fenced _ := h
  together ha := by simp [h.closed] at ha

lemma Idle.of_free (hf : s.fence = none) (ht : s.accepting = true → s.peerAccepting = true) :
    Idle s where
  fenced h := by simp [hf] at h
  together := ht

section
variable (ha : Always c s)
include ha

lemma Always.close {shutdown : Bool} (hs : shutdown = s.shutting) :
    Always c (s.close shutdown) where
  cleared := ha.cleared
  shut _ := rfl
  shutting h := by
    simp only [State.close, Bool.or_eq_true] at h
    exact h.elim ha.shutting (hs ▸ id)
  stored := ha.stored

lemma beginReopen_kept (hf : s.fence = none) (hs : s.shutting = false) :
    Kept c s (beginReopen c s) := by
  have ha' : Always c { s with accepting := false } := { ha with shut := fun _ => rfl }
  unfold beginReopen
  split
  · exact .of_control rfl ha' rfl ⟨hf, rfl⟩ hs.symm
  · exact ⟨ha', rfl, nofun, trivial, nofun, fun _ => .of_free hf nofun⟩

lemma endCleanup_kept (hf : s.fence = none) (hrole : (!call.reopenOnAbort) = s.shutting)
    (hclosed : call.reopenOnAbort = false → s.accepting = false) :
    Kept c s (endCleanup c s call) := by
  unfold endCleanup
  split
  · next hr =>
    rw [hr] at hrole
    exact beginReopen_kept ha hf hrole.symm
  · next hr =>
    rw [Bool.not_eq_true] at hr
    rw [hr] at hrole
    have hidle : Idle s := .of_free hf fun h => by simp [hclosed hr] at h
    exact .of_control rfl ha rfl hidle hrole

section
variable (hrole : (!call.reopenOnAbort) = s.shutting) {snapshot : Option Nat}
include hrole

lemma beginCleanup_kept {store : Bool} (h : Stands c s (.aborting call store snapshot)) :
    Kept c s (beginCleanup c s call store snapshot) := by
  obtain ⟨hfree, hempty, hfence, hsnap⟩ := h
  -- a shutdown closes the door first
  obtain ⟨s', hs', ha', hclosed⟩ : ∃ s', (if call.reopenOnAbort then s else s.close true) = s' ∧
      Always c s' ∧ (call.reopenOnAbort = false → s'.accepting = false) ∧ s'.fence = s.fence ∧
      s'.inFlight = s.inFlight ∧ s'.shutting = s.shutting ∧ (Empty s → Empty s') := by
    cases hr : call.reopenOnAbort with
    | true => exact ⟨s, rfl, ha, nofun, rfl, rfl, rfl, id⟩
    | false =>
      rw [hr] at hrole
      exact ⟨s.close true, rfl, ha.close hrole, fun _ => rfl, rfl, rfl, rfl, fun h => ⟨rfl, h.nobody⟩⟩
  obtain ⟨hclosed, hf', hn', hsh', hempty'⟩ := hclosed
  have hrole' : (!call.reopenOnAbort) = s'.shutting := hrole.trans hsh'.symm
  unfold beginCleanup
  rw [hs']
  split
  · next hboth =>
    simp only [Bool.and_eq_true] at hboth
    have he := hempty' (hempty hboth.2)
    cases snapshot with
    | some n =>
      exact .of_control rfl ha' hn' ⟨he, hf'.trans (hsnap hboth.1 n rfl hboth.2)⟩ hrole'
    | none => exact .of_control rfl ha' hn' he hrole'
  · next hnot =>
    have hnone : s'.fence = none := by
      rw [hf']
      rcases hfence with hnone | hpersistent
      · exact hnone
      · cases hst : store with
        | false => exact hfree hst
        | true => simp [hpersistent, hst] at hnot
    have h := endCleanup_kept ha' hnone hrole' hclosed
    exact { h with inFlight := h.inFlight.trans hn' }

lemma beginSnapshot_kept (h : Stands c s (.drained call)) :
    Kept c s (beginSnapshot c s call) := by
  obtain ⟨hf, he⟩ := h
  have haborting : Kept c s (s, .aborting call false none) :=
    .of_control rfl ha rfl ⟨fun _ => hf, by simp, .inl hf, by simp⟩ hrole
  unfold beginSnapshot
  cases hst : c.store with
  | false =>
    simp only [Bool.not_false, if_true]
    split
    · exact .of_ended ha rfl he.idle
    · exact haborting
  | true =>
    simp only [Bool.not_true, Bool.false_eq_true, if_false]
    split
    · exact haborting
    · exact .of_control rfl ha rfl ⟨hf, he, hst⟩ hrole

lemma takeSnapshot_kept (h : Stands c s (.snapshotting call aborted)) :
    Kept c s (takeSnapshot s call aborted o) := by
  obtain ⟨hf, he, hst⟩ := h
  have hfailed : Kept c s (s, .snapshotted call aborted none) :=
    .of_control rfl ha rfl ⟨he, .inl hf, nofun⟩ hrole
  have hfenced : Always c { s with
      fence := some s.snapshots, snapshots := s.snapshots + 1, cleared := false } :=
    ⟨nofun, ha.shut, ha.shutting, fun hs => by simp [hst] at hs⟩
  cases o with
  | cancelled => exact .of_control rfl ha rfl ⟨hf, he, hst⟩ hrole
  | fails => exact hfailed
  | goes =>
    simp only [takeSnapshot]
    split
    · next hp =>
      refine .of_control rfl { ha with } rfl
        ⟨⟨he.closed, he.nobody⟩, .inl hf, ?_⟩ hrole
      intro hpersistent
      simp [hpersistent] at hp
    · next hp =>
      split
      · exact hfailed
      · refine .of_control rfl hfenced rfl ⟨⟨he.closed, he.nobody⟩, .inr (by simpa using hp), ?_⟩ hrole
        exact fun _ n hn => hn
  | failsFenced =>
    simp only [takeSnapshot]
    split
    · exact hfailed
    · next hnot =>
      refine .of_control rfl hfenced rfl ⟨⟨he.closed, he.nobody⟩, .inr ?_, nofun⟩ hrole
      simp only [Bool.or_eq_true, not_or, Bool.not_eq_true, Bool.not_eq_false'] at hnot
      exact hnot.1

lemma endSnapshot_kept (h : Stands c s (.snapshotted call aborted snapshot)) :
    Kept c s (endSnapshot s call aborted snapshot o) := by
  obtain ⟨he, hfence, hsnap⟩ := h
  have hend : Kept c s (if aborted then (s, .aborting call true snapshot)
      else if snapshot.isSome then (s, .ended) else (s, .aborting call true none)) := by
    split
    · exact .of_control rfl ha rfl ⟨nofun, fun _ => he, hfence, fun hp n hn _ => hsnap hp n hn⟩ hrole
    · split
      · exact ⟨ha, rfl, nofun, trivial, nofun, fun _ => he.idle⟩
      · exact .of_control rfl ha rfl ⟨nofun, fun _ => he, hfence, nofun⟩ hrole
  cases o with
  | cancelled => exact .of_control rfl ha rfl ⟨he, hfence, hsnap⟩ hrole
  | goes | fails | failsFenced => exact hend

end

end

/-- What a step of `_close_and_drain` can do. -/
inductive Drains (s : State) (shutdown : Bool) : Drain → State × Drained → Prop
  | stays (d : Drain) (aborted : Bool) : Drains s shutdown d (s, .somewhere d aborted)
  | raised (d : Drain) : Drains s shutdown d (s, .raised)
  | peer (aborted : Bool) :
      Drains s shutdown .closing ({ s with peerAccepting := false }, .somewhere .peerClosed aborted)
  | empty (hn : s.inFlight = 0) : Drains s shutdown .peerClosed (s.close shutdown, .done)
  | closed : Drains s shutdown .peerClosed (s.close shutdown, .somewhere .waiting false)
  | done (hn : s.inFlight = 0) : Drains s shutdown .waiting (s, .done)

lemma closeAndDrain_drains (s : State) (d : Drain) (aborted shutdown : Bool) (o : Outcome) :
    Drains s shutdown d (closeAndDrain s d aborted shutdown o) := by
  cases o with
  | cancelled => cases d <;> exact .stays _ true
  | goes =>
    cases d with
    | closing => exact .peer aborted
    | peerClosed =>
      simp only [closeAndDrain]
      split
      · exact .raised _
      · split
        · next hn => exact .empty hn
        · exact .closed
    | waiting =>
      simp only [closeAndDrain]
      split
      · exact .raised _
      · split
        · next hn => exact .done hn
        · exact .stays _ false
  | fails | failsFenced =>
    cases d with
    | closing | peerClosed => exact .raised _
    | waiting => exact .stays _ aborted

lemma advanceDraining_kept (ha : Always c s) (hrole : (!call.reopenOnAbort) = s.shutting)
    (h : Stands c s (.draining call d aborted)) :
    Kept c s (advanceDraining s call d aborted o) := by
  have hf : s.fence = none := by
    cases d with
    | closing | peerClosed => exact h
    | waiting => exact h.1
  rw [advanceDraining]
  generalize hr : closeAndDrain s d aborted (!call.reopenOnAbort) o = r
  cases (show Drains s (!call.reopenOnAbort) d r from hr ▸ closeAndDrain_drains s d aborted _ o) with
  | stays => exact .of_control rfl ha rfl (by cases d <;> exact h) hrole
  | raised => exact .of_control rfl ha rfl ⟨fun _ => hf, by simp, .inl hf, by simp⟩ hrole
  | peer => exact .of_control rfl { ha with } rfl hf hrole
  | empty hn => exact .of_control rfl (ha.close hrole) rfl ⟨hf, rfl, hn⟩ hrole
  | closed => exact .of_control rfl (ha.close hrole) rfl ⟨hf, rfl⟩ hrole
  | done hn => exact .of_control rfl ha rfl ⟨hf, h.2, hn⟩ hrole

/-- Closing a host that is closed and empty changes nothing but the gateway. -/
lemma advanceShutDraining_kept (ha : Always c s) (hrole : true = s.shutting)
    (h : Stands c s (.shutDraining d aborted)) : Kept c s (advanceShutDraining s d aborted o) := by
  obtain ⟨hf, he⟩ := h
  have hempty : Empty (s.close true) := ⟨rfl, he.nobody⟩
  rw [advanceShutDraining]
  generalize hr : closeAndDrain s d aborted true o = r
  cases (show Drains s true d r from hr ▸ closeAndDrain_drains s d aborted true o) with
  | stays => exact .of_control rfl ha rfl ⟨hf, he⟩ hrole
  | raised => exact .of_control rfl ha rfl he.idle hrole
  | peer =>
    exact .of_control rfl { ha with } rfl ⟨hf, he.closed, he.nobody⟩
      hrole
  | empty => exact .of_ended (ha.close hrole) rfl hempty.idle
  | closed => exact .of_control rfl (ha.close hrole) rfl ⟨hf, hempty⟩ hrole
  | done => exact .of_ended ha rfl he.idle

/-- STEP of an operation: what its next point may count on is there. -/
theorem advance_kept (hg : c.gateway = true) (ha : Always c s) (ht : t.control = true)
    (hrole : t.shutdown = s.shutting) (h : Stands c s t) : Kept c s (advance c s t o) := by
  cases t with
  | running => cases ht
  | ended => cases ht
  | draining call d aborted => exact advanceDraining_kept ha hrole h
  | drained call =>
    cases o with
    | cancelled =>
      exact .of_control rfl ha rfl ⟨fun _ => h.1, by simp, .inl h.1, by simp⟩ hrole
    | goes | fails | failsFenced => exact beginSnapshot_kept ha hrole h
  | snapshotting call aborted => exact takeSnapshot_kept ha hrole h
  | snapshotted call aborted snapshot => exact endSnapshot_kept ha hrole h
  | aborting call store snapshot => exact beginCleanup_kept ha hrole h
  | unfencing call n =>
    cases o with
    | goes =>
      simp only [advance, h.2]
      exact .of_control rfl ⟨fun _ => rfl, ha.shut, ha.shutting, fun _ => rfl⟩ rfl
        ⟨h.1.closed, h.1.nobody⟩ hrole
    | cancelled => exact .of_control rfl ha rfl h hrole
    | fails | failsFenced => exact .of_ended ha rfl h.1.idle
  | probing call =>
    cases o with
    | goes =>
      by_cases hf : s.fence.isSome = true
      · simp only [advance, hf]
        exact .of_ended ha rfl h.idle
      · simp only [advance, hf]
        exact endCleanup_kept ha (Option.not_isSome_iff_eq_none.1 hf) hrole fun _ => h.closed
    | cancelled => exact .of_control rfl ha rfl h hrole
    | fails | failsFenced => exact .of_ended ha rfl h.idle
  | reopening =>
    have hfailed : Always c { s with accepting := false } := { ha with shut := fun _ => rfl }
    cases o with
    | goes =>
      exact .of_control rfl { ha with } rfl ⟨h.1, h.2, hg⟩ hrole
    | cancelled => exact .of_control rfl ha rfl h hrole
    | fails | failsFenced => exact .of_ended hfailed rfl (.of_free h.1 (by simp))
  | reopened =>
    obtain ⟨hf, _, hpeer⟩ := h
    -- nobody has shut the host down: this is not a shutdown
    have hopen : Always c { s with accepting := c.ready } := by
      refine { ha with shut := fun hs => ?_ }
      have hshutting := ha.shutting hs
      rw [← hrole] at hshutting
      cases hshutting
    cases o <;> exact .of_ended hopen rfl (.of_free hf fun _ => hpeer)
  | clearing n =>
    cases o with
    | goes =>
      by_cases hf : s.fence = some n
      · simp only [advance, hf]
        exact .of_ended ⟨fun _ => rfl, ha.shut, ha.shutting, fun _ => rfl⟩ rfl (.of_free rfl h.together)
      · simp only [advance, hf]
        exact .of_ended ha rfl h
    | cancelled => exact .of_control rfl ha rfl h hrole
    | fails | failsFenced => exact .of_ended ha rfl h
  | shutProbing =>
    cases o with
    | goes =>
      by_cases hf : s.fence.isSome = true
      · simp only [advance, hf]
        exact .of_control rfl ha rfl ⟨hf, h.fenced hf⟩ hrole
      · simp only [advance, hf]
        exact .of_control rfl ha rfl (Option.not_isSome_iff_eq_none.1 hf) hrole
    | cancelled => exact .of_ended ha rfl h
    | fails | failsFenced => exact .of_control rfl ha rfl h hrole
  | shutDraining d aborted => exact advanceShutDraining_kept ha hrole h
  | shutRaising =>
    have hclosed : Idle (s.close true) := ⟨fun hf => ⟨rfl, (h.fenced hf).nobody⟩, by rintro ⟨⟩⟩
    cases o with
    | cancelled => exact .of_ended ha rfl h
    | goes | fails | failsFenced => exact .of_ended (ha.close hrole) rfl hclosed

end Steps

/-! ### Runs -/

section Runs
variable {c : Config} {p : Pool State Task}
variable {s : State}

/-- No operation is in progress, and nobody has shut the host down. -/
structure Quiet (p : Pool State Task) : Prop where
  alone : ∀ t ∈ p.tasks, t.control = false
  running : p.shared.shutting = false

/-- The operations come one after the other: none while another is in progress or after a shutdown,
    and no maintenance under a fence. A reopen follows a clear. -/
def Orderly (p : Pool State Task) : Move → Prop
  | .start (.prepare _ _ _) => Quiet p ∧ p.shared.fence = none
  | .start (.clear _) => Quiet p
  | .start .reopen => Quiet p ∧ p.shared.cleared = true
  | .start .shutdown => Quiet p
  | _ => True

instance (p : Pool State Task) : Decidable (Quiet p) :=
  decidable_of_iff ((∀ t ∈ p.tasks, t.control = false) ∧ p.shared.shutting = false)
    ⟨fun h => ⟨h.1, h.2⟩, fun h => ⟨h.alone, h.running⟩⟩

instance (p : Pool State Task) : ∀ m, Decidable (Orderly p m)
  | .start (.prepare _ _ _) => inferInstanceAs (Decidable (_ ∧ _))
  | .start (.clear _) => inferInstanceAs (Decidable (Quiet p))
  | .start .reopen => inferInstanceAs (Decidable (_ ∧ _))
  | .start .shutdown => inferInstanceAs (Decidable (Quiet p))
  | .start .request => .isTrue trivial
  | .start (.bootstrapProof _) => .isTrue trivial
  | .advance _ _ => .isTrue trivial

variable (c) in
structure Inv (p : Pool State Task) : Prop where
  always : Always c p.shared
  solo : ∀ (i j : Nat) (t u : Task), p.tasks[i]? = some t → p.tasks[j]? = some u →
    t.control = true → u.control = true → i = j
  stands : ∀ t ∈ p.tasks, Stands c p.shared t
  role : ∀ t ∈ p.tasks, t.control = true → t.shutdown = p.shared.shutting
  idle : (∀ t ∈ p.tasks, t.control = false) → Idle p.shared
  count : p.shared.inFlight = p.tasks.countP (· = .running)

lemma stands_of_not_control (h : t.control = false) : Stands c s t := by
  cases t with
  | running => trivial
  | ended => trivial
  | _ => cases h

/-- Under a fence the house is closed and empty at every point. -/
lemma Stands.empty (h : Stands c s t) (ht : t.control = true) (hf : s.fence.isSome = true) :
    Empty s := by
  have hnone : s.fence ≠ none := fun hnone => by simp [hnone] at hf
  cases t with
  | running => cases ht
  | ended => cases ht
  | draining call d aborted =>
    cases d with
    | closing | peerClosed => exact absurd h hnone
    | waiting => exact absurd h.1 hnone
  | drained call | shutDraining d aborted => exact h.2
  | snapshotting call aborted => exact h.2.1
  | snapshotted call aborted snapshot | unfencing call n => exact h.1
  | aborting call store snapshot =>
    cases store with
    | false => exact absurd (h.1 rfl) hnone
    | true => exact h.2.1 rfl
  | probing call => exact h
  | reopening | reopened => exact absurd h.1 hnone
  | clearing n | shutProbing | shutRaising => exact h.fenced hf

/-- The coming and going of requests disturbs no operation. -/
lemma Stands.requests {n : Nat} (h : Stands c s t) (hn : s.accepting = false → s.inFlight = 0 → n = 0) :
    Stands c { s with inFlight := n } t := by
  have he : Empty s → Empty { s with inFlight := n } := fun h => ⟨h.closed, hn h.closed h.nobody⟩
  have hi : Idle s → Idle { s with inFlight := n } := fun h => ⟨fun hf => he (h.fenced hf), h.together⟩
  cases t with
  | running => trivial
  | ended => trivial
  | draining call d aborted => cases d <;> exact h
  | drained call | shutDraining d aborted => exact ⟨h.1, he h.2⟩
  | snapshotting call aborted => exact ⟨h.1, he h.2.1, h.2.2⟩
  | snapshotted call aborted snapshot | unfencing call n => exact ⟨he h.1, h.2⟩
  | aborting call store snapshot => exact ⟨h.1, fun hs => he (h.2.1 hs), h.2.2⟩
  | probing call => exact he h
  | reopening => exact h
  | reopened => exact h
  | clearing n | shutProbing | shutRaising => exact hi h

lemma Inv.requests (h : Inv c p) {tasks : List Task} {n : Nat}
    (hold : ∀ (j : Nat) (u : Task), tasks[j]? = some u → u.control = true → p.tasks[j]? = some u)
    (hkept : ∀ u ∈ p.tasks, u.control = true → u ∈ tasks)
    (hn : p.shared.accepting = false → p.shared.inFlight = 0 → n = 0)
    (hcount : n = tasks.countP (· = .running)) :
    Inv c ⟨{ p.shared with inFlight := n }, tasks⟩ := by
  have hmem : ∀ {u : Task}, u ∈ tasks → u.control = true → u ∈ p.tasks := fun hu huc =>
    (getElem?_of_mem hu).elim fun j hj => mem_of_getElem? (hold j _ hj huc)
  refine ⟨{ h.always with },
    fun i j u v hu hv huc hvc => h.solo i j u v (hold i u hu huc) (hold j v hv hvc) huc hvc,
    fun u hu => ?_, fun u hu huc => h.role u (hmem hu huc) huc, fun hall => ?_, hcount⟩
  · cases huc : u.control with
    | true => exact (h.stands u (hmem hu huc)).requests hn
    | false => exact stands_of_not_control huc
  · have hi := h.idle fun u hu => by
      by_contra huc
      exact huc (hall u (hkept u hu (by simpa using huc)))
    exact ⟨fun hf => ⟨(hi.fenced hf).closed, hn (hi.fenced hf).closed (hi.fenced hf).nobody⟩,
      hi.together⟩

lemma Inv.join (h : Inv c p) {n : Nat} (ht : t.control = false)
    (hn : p.shared.accepting = false → p.shared.inFlight = 0 → n = 0)
    (hcount : n = (p.tasks ++ [t]).countP (· = .running)) :
    Inv c ⟨{ p.shared with inFlight := n }, p.tasks ++ [t]⟩ := by
  refine h.requests (fun j u hu huc => ?_) (fun u hu _ => mem_append_left _ hu) hn hcount
  rcases getElem?_concat_cases hu with ⟨_, rfl⟩ | ⟨_, hu⟩
  · exact absurd huc (by simp [ht])
  · exact hu

/-- One operation is in progress, and stands after a step. -/
lemma Inv.of_one {s : State} {tasks : List Task} {i : Nat} (hk : Kept c s r)
    (hi : tasks[i]? = some r.2)
    (hothers : ∀ (j : Nat) (u : Task), tasks[j]? = some u → j = i ∨ u.control = false)
    (hcount : s.inFlight = tasks.countP (· = .running)) : Inv c ⟨r.1, tasks⟩ := by
  have hone : ∀ {j : Nat} {u : Task}, tasks[j]? = some u → u.control = true → j = i := fun hu huc =>
    (hothers _ _ hu).resolve_right (by simp [huc])
  have hcases : ∀ {u : Task}, u ∈ tasks → u = r.2 ∨ u.control = false := by
    intro u hu
    obtain ⟨j, hj⟩ := getElem?_of_mem hu
    rcases hothers j u hj with rfl | hc
    · exact .inl (Option.some.inj (hj.symm.trans hi))
    · exact .inr hc
  refine ⟨hk.always, fun j k u v hu hv huc hvc => by rw [hone hu huc, hone hv hvc], fun u hu => ?_,
    fun u hu huc => ?_, fun hall => hk.idle (hall r.2 (mem_of_getElem? hi)),
    hk.inFlight.trans hcount⟩
  · rcases hcases hu with rfl | hc
    · exact hk.stands
    · exact stands_of_not_control hc
  · rcases hcases hu with rfl | hc
    · exact hk.role huc
    · exact absurd huc (by simp [hc])

section
variable (h : Inv c p)
include h

lemma Inv.begin (hq : ∀ t ∈ p.tasks, t.control = false) (hk : Kept c p.shared r) :
    Inv c ⟨r.1, p.tasks ++ [r.2]⟩ := by
  refine .of_one hk (i := p.tasks.length) (by simp) (fun j u hu => ?_) ?_
  · rcases getElem?_concat_cases hu with ⟨hj, _⟩ | ⟨_, hu⟩
    · exact .inl hj
    · exact .inr (hq u (mem_of_getElem? hu))
  · rw [h.count]
    simp [hk.inside]

lemma Inv.goOn {i : Nat} (hi : p.tasks[i]? = some t) (ht : t.control = true) (hk : Kept c p.shared r) :
    Inv c ⟨r.1, p.tasks.set i r.2⟩ := by
  obtain ⟨hlt, hget⟩ := List.getElem?_eq_some_iff.1 hi
  refine .of_one hk (i := i) (by simp [hlt]) (fun j u hu => ?_) ?_
  · rcases getElem?_set_cases hu with ⟨hj, _⟩ | ⟨hne, hu⟩
    · exact .inl hj
    · refine .inr (Bool.eq_false_iff.2 fun huc => ?_)
      exact hne (h.solo j i u t hu hi huc ht)
  · have hrunning : t ≠ .running := fun heq => by simp [heq, Task.control] at ht
    rw [h.count, countP_set hlt]
    simp [hget, hrunning, hk.inside]

lemma Inv.leave {i : Nat} (hi : p.tasks[i]? = some t) (ht : t.control = false) :
    Inv c ⟨(advance c p.shared t o).1, p.tasks.set i (advance c p.shared t o).2⟩ := by
  obtain ⟨hlt, hget⟩ := List.getElem?_eq_some_iff.1 hi
  cases t with
  | ended =>
    have hset : p.tasks.set i .ended = p.tasks := by rw [← hget, List.set_getElem_self]
    simp only [advance, hset]
    exact h
  | running =>
    simp only [advance]
    refine h.requests (fun j u hu huc => ?_) (fun u hu huc => ?_) (by omega) ?_
    · rcases getElem?_set_cases hu with ⟨_, rfl⟩ | ⟨_, hu⟩
      · cases huc
      · exact hu
    · obtain ⟨j, hj⟩ := getElem?_of_mem hu
      have hne : i ≠ j := by
        rintro rfl
        rw [hi] at hj
        cases hj
        cases huc
      exact mem_of_getElem? ((getElem?_set_ne hne).trans hj)
    · rw [h.count, countP_set hlt]
      simp [hget]
  | _ => cases ht

/-- A call that is refused, and one that is let in. -/
lemma Inv.join_ended : Inv c ⟨p.shared, p.tasks ++ [.ended]⟩ :=
  h.join rfl (fun _ hn => hn) (by simp [h.count])

lemma Inv.join_running (ha : p.shared.accepting = true) :
    Inv c ⟨{ p.shared with inFlight := p.shared.inFlight + 1 }, p.tasks ++ [.running]⟩ :=
  h.join rfl (by simp [ha]) (by simp [h.count])

end

/-- STEP: an orderly move keeps the invariant. -/
theorem step_inv (hg : c.gateway = true) {m : Move} (hm : Orderly p m)
    (h : Inv c p) : Inv c (step c p m) := by
  cases m with
  | start call =>
    cases call with
    | request =>
      simp only [step, Pool.step, start]
      split
      · next ha =>
        rw [Bool.and_eq_true] at ha
        exact h.join_running ha.1
      · exact h.join_ended
    | bootstrapProof allowed =>
      simp only [step, Pool.step, start]
      split
      · next ha =>
        rw [Bool.and_eq_true] at ha
        cases allowed with
        | true => exact h.join_running ha.1
        | false => exact h.join_ended
      · exact h.join_ended
    | prepare persistentFence operationId allowUnavailableHost =>
      obtain ⟨hq, hf⟩ := hm
      exact h.begin hq.alone (.of_control rfl h.always rfl hf hq.running.symm)
    | clear n =>
      simp only [step, Pool.step, start]
      split
      · exact h.begin hm.alone (.of_control rfl h.always rfl (h.idle hm.alone) hm.running.symm)
      · exact h.join_ended
    | reopen =>
      obtain ⟨hq, hcleared⟩ := hm
      have hk := beginReopen_kept (s := { p.shared with cleared := false })
        { h.always with cleared := fun h => Bool.noConfusion h } (h.always.cleared hcleared) hq.running
      exact h.begin hq.alone { hk with }
    | shutdown =>
      have ha : Always c { p.shared with shutting := true } :=
        { h.always with shutting := fun _ => rfl }
      have hidle : Idle { p.shared with shutting := true } :=
        ⟨fun hf => ⟨((h.idle hm.alone).fenced hf).closed, ((h.idle hm.alone).fenced hf).nobody⟩,
          (h.idle hm.alone).together⟩
      cases hst : c.store with
      | true =>
        simp only [step, Pool.step, start, hst]
        exact h.begin hm.alone (r := ({ p.shared with shutting := true }, .shutProbing))
          (.of_control rfl ha rfl hidle rfl)
      | false =>
        simp only [step, Pool.step, start, hst]
        exact h.begin hm.alone (r := ({ p.shared with shutting := true },
          .draining shutdownCall .closing false)) (.of_control rfl ha rfl (ha.stored hst) rfl)
  | advance i o =>
    cases hi : p.tasks[i]? with
    | none =>
      rw [step, Pool.step_none hi]
      exact h
    | some t =>
      rw [step, Pool.step_some hi]
      by_cases ht : t.control = true
      · have hmem := mem_of_getElem? hi
        exact h.goOn hi ht (advance_kept hg h.always ht (h.role t hmem ht) (h.stands t hmem))
      · exact h.leave hi (by simpa using ht)

lemma boot_inv (hg : c.gateway = true) : Inv c (boot c) where
  always := ⟨nofun, nofun, nofun, fun _ => rfl⟩
  solo i j t u hi := by simp [boot] at hi
  stands t ht := by simp [boot] at ht
  role t ht := by simp [boot] at ht
  idle _ := .of_free rfl fun ha => by
    have hready : c.ready = true := ha
    show (c.ready && c.gateway) = true
    rw [hready, hg]
    rfl
  count := rfl

lemma Inv.guarded (h : Inv c p) : Guarded p where
  closed hf := by
    suffices he : Empty p.shared by
      refine ⟨he.closed, fun hmem => ?_⟩
      have hcount := h.count
      rw [he.nobody] at hcount
      exact countP_eq_zero.1 hcount.symm _ hmem (by simp)
    rcases hf with hf | ⟨t, ht, hfencing⟩
    · by_cases hall : ∀ t ∈ p.tasks, t.control = false
      · exact (h.idle hall).fenced hf
      · simp only [not_forall] at hall
        obtain ⟨t, ht, hc⟩ := hall
        exact Stands.empty (h.stands t ht) (by simpa using hc) hf
    · cases t with
      | snapshotting call aborted => exact (h.stands _ ht).2.1
      | _ => cases hfencing
  together hall := (h.idle hall).together
  shut := h.always.shut
  count := h.count

end Runs

/-! ### Out of order -/

namespace Drill

def config : Config := ⟨true, true, false, true⟩

def after (moves : List Move) : Pool State Task := run (step config) (boot config) moves

/-- The first task takes these steps. -/
def first (os : List Outcome) : List Move := os.map (.advance 0)

def second (os : List Outcome) : List Move := os.map (.advance 1)

/-- A maintenance has started its snapshot; a second one is cancelled while it drains, and reopens. -/
def cancelledBeside : List Move :=
  [.start (.prepare true true false)] ++ first [.goes, .goes, .goes] ++
    [.start (.prepare true true false)] ++ second [.goes, .cancelled, .goes, .goes, .goes, .goes] ++
    [.start .request]

/-- A maintenance is aborted and about to reopen; the host is shut down in the meantime. -/
def reopensLate : List Move :=
  [.start (.prepare true true false)] ++ first [.goes, .cancelled, .goes, .goes, .goes] ++
    [.start .shutdown] ++ second [.goes, .goes, .goes, .goes, .goes, .goes] ++ first [.goes]

/-- One after the other: a maintenance, a clear, a reopen, a request, and a shutdown. -/
def inOrder : List Move :=
  [.start (.prepare true true false)] ++ first [.goes, .goes, .goes, .goes, .goes] ++
    [.start (.clear 0)] ++ second [.goes] ++ [.start .reopen, .advance 2 .goes, .advance 2 .goes,
      .start .request, .start .shutdown, .advance 4 .goes]

end Drill

/-- Out of order the promise fails: a request is let in during a snapshot, and a host that was shut
    down is open again while its gateway is closed. -/
theorem admission_reopened_out_of_order :
    ((Drill.after Drill.cancelledBeside).shared.accepting = true ∧
      (Drill.after Drill.cancelledBeside).tasks =
        [.snapshotting {} false, .ended, .running]) ∧
    ((Drill.after Drill.reopensLate).shared.shut = true ∧
      (Drill.after Drill.reopensLate).shared.accepting = true ∧
      (Drill.after Drill.reopensLate).shared.peerAccepting = false ∧
      (Drill.after Drill.reopensLate).tasks = [.ended, .ended]) := by
  decide +kernel

/-- ADMISSION: in every run whose operations come one after the other, the promise holds. -/
theorem admission_guarded (c : Config) (hg : c.gateway = true)
    (moves : List Move) (hm : Along (step c) Orderly (boot c) moves) :
    Guarded (run (step c) (boot c) moves) :=
  (run_inv_along (fun _ _ hm h => step_inv hg hm h) moves (boot c) hm (boot_inv hg)).guarded

/-- The rule at a maintenance that is cleared and reopened before the shutdown. -/
theorem admission_guarded_in_order :
    (Drill.after Drill.inOrder).tasks =
      [.ended, .ended, .ended, .running, .draining shutdownCall .closing false] ∧
    Guarded (Drill.after Drill.inOrder) :=
  ⟨by decide +kernel, admission_guarded Drill.config rfl Drill.inOrder (by decide +kernel)⟩

end TeamHub.Host
