import Mathlib.Algebra.Order.Group.Int
import Mathlib.Data.List.AList
import ZenithBot.Lib.Run

/-! The rate limits of the peer gateway (`SecurePeerGateway`, `secure_peer.py`). A call reads the clock,
    computes its minute and only then takes the lock; a bucket counts one minute and starts afresh
    when a call of another minute is charged to it.

        thread A   read: minute 0 ─────────────────────┐ lock
        thread B        read: minute 1, lock … lock    │    read: minute 1, lock
        bucket                (1,1) … (1,8)          (0,1)  (1,1)

    Threads that take the lock in the order of their minutes stay within the limits; a thread that
    comes late empties the bucket of the minute after its own. -/

namespace SecurePeer.RateLimit
open List

/-- The actions of `_allow_request`. -/
inductive RequestAction where
  | pair | health | poll
  deriving DecidableEq

/-- The actions of `_allow_peer_request`. -/
inductive PeerAction where
  | health | revoke | renew | routeRead | routeWrite | relaySubmit | relayClaim | relayReceipt | proxy
  | attachmentRead | attachmentUpload
  deriving DecidableEq

/-- The keys of `_pairing_rate`: of one source or peer, and of all of them. Their texts differ: no
    action has a colon in it, and no address and no peer id is `*`. -/
inductive Key where
  | source (action : RequestAction) (source : String)
  | sources (action : RequestAction)
  | peer (peerId : String) (action : PeerAction)
  | peers (action : PeerAction)
  deriving DecidableEq

/-- `_pairing_rate`: the minute and the count of each bucket. -/
abbrev Buckets := AList fun _ : Key => Int × Nat

/-- `_prune_rate_buckets_locked`. -/
def pruneRateBuckets (b : Buckets) (window : Int) : Buckets :=
  if 4096 < b.entries.length then
    ⟨b.entries.filter fun e => window - 1 ≤ e.2.1, b.nodupKeys.sublist filter_sublist⟩
  else b

/-- One more call in the bucket of `k`. -/
def charge (b : Buckets) (k : Key) (window : Int) : Buckets × Nat :=
  let previous := (b.lookup k).getD (window, 0)
  let count := (if previous.1 ≠ window then 0 else previous.2) + 1
  (pruneRateBuckets (b.insert k (window, count)) window, count)

/-- What both checks do under the lock: a call that its own bucket refuses is not charged to the
    shared one. -/
def allow (b : Buckets) (own shared : Key) (perSource globalLimit : Nat) (window : Int) :
    Buckets × Bool :=
  let (b₁, sourceCount) := charge b own window
  if perSource < sourceCount then (b₁, false)
  else
    let (b₂, globalCount) := charge b₁ shared window
    (b₂, globalCount ≤ globalLimit)

def RequestAction.limits : RequestAction → Nat × Nat
  | .pair => (8, 200)
  | .health => (60, 2000)
  | .poll => (120, 10000)

def PeerAction.limits : PeerAction → Nat × Nat
  | .health => (120, 4000)
  | .revoke => (8, 500)
  | .renew => (10, 500)
  | .routeRead => (120, 4000)
  | .routeWrite => (60, 2000)
  | .relaySubmit => (120, 4000)
  | .relayClaim => (120, 4000)
  | .relayReceipt => (240, 8000)
  | .proxy => (600, 20000)
  | .attachmentRead => (1200, 40000)
  | .attachmentUpload => (1200, 40000)

/-- `_allow_request`, from the lock on. -/
def allowRequest (b : Buckets) (source : String) (action : RequestAction) (window : Int) :
    Buckets × Bool :=
  allow b (.source action source) (.sources action) action.limits.1 action.limits.2 window

/-- `_allow_peer_request`, from the lock on. -/
def allowPeerRequest (b : Buckets) (peerId : String) (action : PeerAction) (window : Int) :
    Buckets × Bool :=
  allow b (.peer peerId action) (.peers action) action.limits.1 action.limits.2 window

inductive Call where
  | request (source : String) (action : RequestAction)
  | peer (peerId : String) (action : PeerAction)

def Call.allow (c : Call) (b : Buckets) (window : Int) : Buckets × Bool :=
  match c with
  | .request source action => allowRequest b source action window
  | .peer peerId action => allowPeerRequest b peerId action window

/-! ### Threads -/

/-- A call that has been through the lock. -/
structure Entry where
  call : Call
  window : Int
  granted : Bool

/-- The gateway: what the clock has shown, the calls that wait for the lock with the minute they
    computed, the buckets, and the calls that have been answered. -/
structure Gateway where
  clock : Int := 0
  waiting : List (Call × Int) := []
  buckets : Buckets := ∅
  log : List Entry := []

/-- A thread reads the clock, which does not go back, or the `i`-th that waits takes the lock. -/
inductive Move where
  | read (c : Call) (now : Int)
  | lock (i : Nat)

/-- A call under the lock. -/
def Gateway.enter (g : Gateway) (c : Call) (window : Int) : Gateway :=
  let r := c.allow g.buckets window
  { g with buckets := r.1, log := ⟨c, window, r.2⟩ :: g.log }

def Gateway.step (g : Gateway) : Move → Gateway
  | .read c now =>
    if now < g.clock then g
    else { g with clock := now, waiting := g.waiting ++ [(c, now / 60)] }
  | .lock i =>
    match g.waiting[i]? with
    | none => g
    | some (c, window) => { g with waiting := g.waiting.eraseIdx i }.enter c window

/-- The thread that takes the lock does not come after one of a later minute. -/
def InOrder (g : Gateway) : Move → Prop
  | .read _ _ => True
  | .lock i => ∀ p ∈ g.waiting[i]?, ∀ e ∈ g.log, e.window ≤ p.2

instance (g : Gateway) : ∀ m, Decidable (InOrder g m)
  | .read _ _ => isTrue trivial
  | .lock i => inferInstanceAs (Decidable (∀ p ∈ g.waiting[i]?, ∀ e ∈ g.log, e.window ≤ p.2))

/-! ### Buckets -/

def Call.own : Call → Key
  | .request source action => .source action source
  | .peer peerId action => .peer peerId action

def Call.shared : Call → Key
  | .request _ action => .sources action
  | .peer _ action => .peers action

def Key.limit : Key → Nat
  | .source action _ => action.limits.1
  | .sources action => action.limits.2
  | .peer _ action => action.limits.1
  | .peers action => action.limits.2

lemma Call.allow_eq (c : Call) (b : Buckets) (window : Int) :
    c.allow b window = RateLimit.allow b c.own c.shared c.own.limit c.shared.limit window := by
  cases c <;> rfl

lemma Call.own_ne_shared (c : Call) : c.own ≠ c.shared := by
  cases c <;> simp [own, shared]

def count (b : Buckets) (k : Key) (w : Int) : Nat :=
  match b.lookup k with
  | some (v, n) => if v = w then n else 0
  | none => 0

variable {b b' : Buckets} {k : Key} {u v w : Int} {c : Call} {g : Gateway}

lemma lookup_prune {p : Int × Nat} : p ∈ (pruneRateBuckets b w).lookup k → p ∈ b.lookup k := by
  unfold pruneRateBuckets
  split
  · intro h
    rw [AList.mem_lookup_iff] at h ⊢
    exact (mem_filter.1 h).1
  · exact id

/-- Pruning spares the minutes from `w - 1` on. -/
lemma count_prune (h : w ≤ v) : count (pruneRateBuckets b w) k v = count b k v := by
  unfold count
  cases hp : (pruneRateBuckets b w).lookup k with
  | some p => rw [lookup_prune (Option.mem_def.2 hp)]
  | none =>
    cases hb : b.lookup k with
    | none => rfl
    | some p =>
      have hv : p.1 ≠ v := by
        rintro rfl
        unfold pruneRateBuckets at hp
        split at hp
        · have hmem : ⟨k, p⟩ ∈ b.entries :=
            AList.mem_lookup_iff.1 (Option.mem_def.2 hb)
          have hkept : p ∈ AList.lookup k (⟨b.entries.filter fun e => w - 1 ≤ e.2.1,
              b.nodupKeys.sublist filter_sublist⟩) :=
            AList.mem_lookup_iff.2 (mem_filter.2 ⟨hmem, decide_eq_true (by show w - 1 ≤ p.1; omega)⟩)
          rw [hp] at hkept
          cases hkept
        · rw [hb] at hp
          cases hp
      exact (if_neg hv).symm

lemma charge_snd : (charge b k w).2 = count b k w + 1 := by
  unfold charge count
  cases b.lookup k with
  | none => simp
  | some p => by_cases h : p.1 = w <;> simp [h]

lemma count_charge_self : count (charge b k w).1 k w = count b k w + 1 := by
  have h : count (charge b k w).1 k w = (charge b k w).2 := by
    rw [charge, count_prune le_rfl, count, AList.lookup_insert]
    exact if_pos rfl
  rw [h, charge_snd]

lemma count_charge_later (h : w < v) : count (charge b k w).1 k v = 0 := by
  rw [charge, count_prune h.le, count, AList.lookup_insert]
  exact if_neg h.ne

lemma count_charge_ne {k' : Key} (hk : k' ≠ k) (h : w ≤ v) :
    count (charge b k w).1 k' v = count b k' v := by
  rw [charge, count_prune h, count, AList.lookup_insert_ne hk, count]

/-! ### The limits -/

/-- Calls of the minute `w` that were granted and charged to `k`. -/
def granted (log : List Entry) (k : Key) (w : Int) : Nat :=
  log.countP fun e => e.granted && e.window = w && (e.call.own = k || e.call.shared = k)

/-- What holds while the lock is taken in order. -/
structure Fair (g : Gateway) : Prop where
  bounded : ∀ k w, granted g.log k w ≤ k.limit
  counted : ∀ k w, (∀ e ∈ g.log, e.window ≤ w) → granted g.log k w ≤ count g.buckets k w

lemma granted_cons (e : Entry) (log : List Entry) (k : Key) (w : Int) :
    granted (e :: log) k w = granted log k w +
      if e.granted = true ∧ e.window = w ∧ (e.call.own = k ∨ e.call.shared = k) then 1 else 0 := by
  rw [granted, granted, countP_cons]
  simp [and_assoc]

lemma granted_of_later {log : List Entry} (h : ∀ e ∈ log, e.window < w) : granted log k w = 0 := by
  rw [granted, countP_eq_zero]
  intro e he
  simp [(h e he).ne]

/-- STEP: a call that takes the lock in order. -/
theorem Fair.enter (h : Fair g) (hw : ∀ e ∈ g.log, e.window ≤ w) : Fair (g.enter c w) := by
  have hbelow : ∀ k, granted g.log k w ≤ count g.buckets k w := fun k => h.counted k w hw
  -- it is enough to look at the minute of the call
  suffices hnow : ∀ k, granted (g.enter c w).log k w ≤ k.limit ∧
      granted (g.enter c w).log k w ≤ count (g.enter c w).buckets k w by
    refine ⟨fun k u => ?_, fun k u hu => ?_⟩
    · by_cases hu : w = u
      · exact hu ▸ (hnow k).1
      · rw [Gateway.enter, granted_cons, if_neg (by simp [hu])]
        exact h.bounded k u
    · rcases (hu _ mem_cons_self).eq_or_lt with rfl | hlt
      · exact (hnow k).2
      · rw [granted_of_later fun e he => ?_]
        · exact Nat.zero_le _
        · rcases mem_cons.1 he with rfl | he
          · exact hlt
          · exact (hw e he).trans_lt hlt
  intro k
  have hne := c.own_ne_shared
  have hk := hbelow k
  have hbound := h.bounded k w
  simp only [Gateway.enter, granted_cons, Call.allow_eq, RateLimit.allow, charge_snd]
  split
  · -- refused by its own bucket
    refine ⟨hbound, hk.trans ?_⟩
    by_cases heq : k = c.own
    · rw [heq, count_charge_self]
      exact Nat.le_succ _
    · rw [count_charge_ne heq le_rfl]
  · by_cases heq : k = c.own
    · subst heq
      rw [count_charge_ne hne le_rfl, count_charge_self]
      constructor <;> split <;> omega
    · by_cases hsh : k = c.shared
      · subst hsh
        rw [count_charge_self, count_charge_ne hne.symm le_rfl]
        simp only [decide_eq_true_eq]
        constructor <;> split <;> omega
      · rw [count_charge_ne hsh le_rfl, count_charge_ne heq le_rfl, if_neg (by tauto)]
        exact ⟨hbound, hk⟩

/-! ### Refused calls -/

/-- The answers to calls that take the lock one after the other. -/
def answers (b : Buckets) : List (Call × Int) → List Bool
  | [] => []
  | (c, w) :: rest => (c.allow b w).2 :: answers (c.allow b w).1 rest

/-- From the minute `w` on the buckets count the same, or both have counted up to the limit. -/
def Alike (w : Int) (b b' : Buckets) : Prop :=
  ∀ k v, w ≤ v → count b k v = count b' k v ∨ (k.limit ≤ count b k v ∧ k.limit ≤ count b' k v)

lemma Alike.charge (h : Alike w b b') (hu : w ≤ u) (k : Key) :
    Alike u (charge b k u).1 (charge b' k u).1 := by
  intro k' v hv
  by_cases hk : k' = k
  · subst hk
    rcases hv.eq_or_lt with rfl | hlt
    · rw [count_charge_self, count_charge_self]
      rcases h k' u hu with heq | ⟨hl, hr⟩
      · exact .inl (congrArg (· + 1) heq)
      · exact .inr ⟨Nat.le_succ_of_le hl, Nat.le_succ_of_le hr⟩
    · rw [count_charge_later hlt, count_charge_later hlt]
      exact .inl rfl
  · rw [count_charge_ne hk hv, count_charge_ne hk hv]
    exact h k' v (hu.trans hv)

lemma Alike.within (h : Alike w b b') (hu : w ≤ u) (k : Key) :
    k.limit < (RateLimit.charge b k u).2 ↔ k.limit < (RateLimit.charge b' k u).2 := by
  rw [charge_snd, charge_snd]
  rcases h k u hu with heq | ⟨hl, hr⟩
  · rw [heq]
  · exact iff_of_true (Nat.lt_succ_of_le hl) (Nat.lt_succ_of_le hr)

lemma Alike.allow (h : Alike w b b') (hu : w ≤ u) (c : Call) :
    (c.allow b u).2 = (c.allow b' u).2 ∧ Alike u (c.allow b u).1 (c.allow b' u).1 := by
  rw [c.allow_eq, c.allow_eq]
  simp only [RateLimit.allow]
  have hown := h.charge hu c.own
  by_cases hr : c.own.limit < (RateLimit.charge b c.own u).2
  · rw [if_pos hr, if_pos ((h.within hu c.own).1 hr)]
    exact ⟨rfl, hown⟩
  · rw [if_neg hr, if_neg fun hr' => hr ((h.within hu c.own).2 hr')]
    refine ⟨?_, hown.charge le_rfl c.shared⟩
    simpa using not_congr (hown.within le_rfl c.shared)

/-- RUN: buckets that are alike answer alike. -/
theorem Alike.answers : ∀ (calls : List (Call × Int)) (w : Int) (b b' : Buckets), Alike w b b' →
    (∀ p ∈ calls, w ≤ p.2) → (calls.map Prod.snd).Pairwise (· ≤ ·) →
    RateLimit.answers b calls = RateLimit.answers b' calls
  | [], _, _, _, _, _, _ => rfl
  | (c, u) :: rest, w, b, b', h, hw, hp => by
    rw [map_cons, pairwise_cons] at hp
    obtain ⟨hsame, hnext⟩ := h.allow (hw _ mem_cons_self) c
    rw [RateLimit.answers, RateLimit.answers, hsame, Alike.answers rest u _ _ hnext
      (fun p hp' => hp.1 _ (mem_map_of_mem hp')) hp.2]

lemma Key.limit_pos (k : Key) : 0 < k.limit := by
  rcases k with ⟨a, _⟩ | a | ⟨_, a⟩ | a <;> cases a <;>
    simp [limit, RequestAction.limits, PeerAction.limits]

/-- A call that its own bucket refuses leaves the buckets alike. -/
lemma alike_refused (h : c.own.limit < (charge b c.own w).2) : Alike w b (c.allow b w).1 := by
  rw [c.allow_eq, RateLimit.allow]
  simp only [if_pos h]
  rw [charge_snd] at h
  intro k v hv
  by_cases hk : k = c.own
  · subst hk
    rcases hv.eq_or_lt with rfl | hlt
    · rw [count_charge_self]
      exact .inr ⟨Nat.le_of_lt_succ h, h.le⟩
    · -- the bucket counts the minute `w`, and no other
      refine .inl ?_
      rw [count_charge_later hlt]
      have hpos : 0 < count b c.own w := (c.own.limit_pos).trans_le (Nat.le_of_lt_succ h)
      unfold count at hpos ⊢
      cases hb : b.lookup c.own with
      | none => rfl
      | some p =>
        simp only [hb] at hpos
        split at hpos
        · rename_i hp
          exact if_neg (hp ▸ hlt.ne)
        · cases hpos
  · exact .inl (count_charge_ne hk hv).symm

/-- RUN: the limits hold while the lock is taken in order. -/
theorem fair_run (moves : List Move) (h : Lib.Along Gateway.step InOrder {} moves) :
    Fair (Lib.run Gateway.step {} moves) := by
  refine Lib.run_inv_along (fun g m hm hg => ?_) moves _ h ⟨by simp [granted], by simp [granted]⟩
  cases m with
  | read c now =>
    rw [Gateway.step]
    split
    · exact hg
    · exact ⟨hg.bounded, hg.counted⟩
  | lock i =>
    simp only [Gateway.step]
    split
    · exact hg
    · rename_i c window hi
      have hg' : Fair { g with waiting := g.waiting.eraseIdx i } := ⟨hg.bounded, hg.counted⟩
      exact hg'.enter (hm (c, window) hi)

/-- LIMITS: in every run in which no thread takes the lock after one of a later minute, the calls of one
    minute that were granted stay within the limit of their source or peer and within the limit of
    all of them; and a call that its own bucket refuses changes no later answer. -/
theorem rate_limits_in_order (moves : List Move) (h : Lib.Along Gateway.step InOrder {} moves) :
    let g := Lib.run Gateway.step {} moves
    (∀ (c : Call) w, granted g.log c.own w ≤ c.own.limit ∧ granted g.log c.shared w ≤ c.shared.limit) ∧
    ∀ (c : Call) w, c.own.limit < (charge g.buckets c.own w).2 → ∀ later : List (Call × Int),
      (∀ p ∈ later, w ≤ p.2) → (later.map Prod.snd).Pairwise (· ≤ ·) →
      answers (c.allow g.buckets w).1 later = answers g.buckets later := by
  intro g
  have hfair : Fair g := fair_run moves h
  refine ⟨fun c w => ⟨hfair.bounded _ w, hfair.bounded _ w⟩, fun c w hc later hw hp => ?_⟩
  exact (Alike.answers later w _ _ (alike_refused hc) hw hp).symm

theorem rate_limits_in_order_sample :
    let c : Call := .request "10.0.0.1" .pair
    let moves : List Move := [.read c 59, .read c 60, .lock 0, .lock 0]
    Lib.Along Gateway.step InOrder {} moves ∧
      granted (Lib.run Gateway.step {} moves).log c.own 1 ≤ c.own.limit :=
  ⟨by decide +kernel, ((rate_limits_in_order _ (by decide +kernel)).1 _ 1).1⟩

/-- One thread reads the clock before the minute is over and takes the lock after eight of the next
    minute: a ninth call of that minute is granted. -/
theorem late_thread_resets_bucket :
    let c : Call := .request "10.0.0.1" .pair
    let g := Lib.run Gateway.step {} ([.read c 59] ++ replicate 9 (.read c 60) ++
      replicate 8 (.lock 1) ++ [.lock 0, .lock 0])
    c.own.limit < granted g.log c.own 1 := by
  decide +kernel

end SecurePeer.RateLimit
