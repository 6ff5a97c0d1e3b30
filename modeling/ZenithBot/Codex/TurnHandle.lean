import ZenithBot.Lib.Run

/-! The turn handles of the app-server client. `start_turn` registers a handle for its thread before it
    sends turn/start, so notifications of the turn find it even when they come before the response,
    and so do late ones of the thread's previous turn. A handle without an id takes the id of the first
    notification that has one, and the response has to agree with it.

    The client looks only at a handle's own fields to route a notification to it, so handles do not
    meet: the state is one handle, and every other one is a source of notifications. -/

namespace Codex
open Lib List

/-- A notification with the ids that `_notification_scope` finds in it, empty where there is none. -/
structure Notification where
  (method threadId turnId params : String)

/-- A handle with its subscription, whose filter is the handle's id, and the call of `start_turn` that
    made it. `taken` is what the owner took from the queue, `heard` what has arrived for the thread since
    the request. -/
structure Turn where
  threadId : String
  turnId : Option String := none
  active : Bool := true
  completed : Bool := false
  closed : Bool := false
  failed : Bool := false
  queue : List Notification := []
  result : Option (Except String String) := none
  taken : List Notification := []
  heard : List Notification := []

namespace Turn

variable (limit : Nat) (t : Turn) (n : Notification)

/-- What the owner of the handle gets to see. -/
def stream : List Notification := t.taken ++ t.queue

def hear : Turn := { t with heard := t.heard ++ [n] }

/-- `_matches` -/
def matched : Bool := n.threadId = t.threadId && t.turnId.all (n.turnId = ·)

/-- A full queue is emptied and ends with an error. -/
def put : Turn :=
  if t.closed then t
  else if t.queue.length < limit then { t with queue := t.queue ++ [n] }
  else { t with queue := [], failed := true, closed := true }

/-- A handle without an id takes any; one with an id moves on with `turn/started` only. -/
def bindId : Turn :=
  if t.active ∧ n.threadId = t.threadId ∧ n.turnId ≠ "" ∧
      (t.turnId = none ∨ n.method = "turn/started") then
    { t with turnId := some n.turnId }
  else t

def finish : Turn := { t with completed := true, active := false, closed := true }

def complete : Turn :=
  if n.method = "turn/completed" ∧ t.active ∧ n.threadId = t.threadId ∧
      (n.turnId = "" ∨ t.turnId = none ∨ t.turnId = some n.turnId) then t.finish
  else t

def finishScoped : Turn :=
  if n.threadId ≠ "" ∧ n.threadId = t.threadId ∧ (n.method = "turn/completed" ∧ n.turnId ≠ "" ∧
      t.turnId = some n.turnId ∨ n.method = "thread/closed") then { t with closed := true }
  else t

def routeNotification : Turn :=
  let bound := t.bindId n
  let fed := if bound.matched n then bound.put limit n else bound
  (fed.complete n).finishScoped n

/-- The rest of `start_turn`, once the response is there. -/
def startTurn (turnId : String) : Turn :=
  if turnId = "" then { t with result := some (.error "turn/start did not return a turn id") }
  else if t.turnId ≠ none ∧ t.turnId ≠ some turnId then
    { t with result := some (.error "turn/start response did not match its early notifications") }
  else { t with turnId := some turnId, result := some (.ok turnId) }

def releaseTurn : Turn := { t with active := false, closed := true }

end Turn

/-- What can happen to a handle. The client may have received more before `start_turn` goes on with the
    response. -/
inductive Event where
  | receives (n : Notification)
  | responds (turnId : String)
  | takes
  | releases

def step (limit : Nat) (t : Turn) : Event → Turn
  | .receives n =>
    if n.threadId = t.threadId then (t.routeNotification limit n).hear n
    else t.routeNotification limit n
  | .responds turnId => if t.result.isNone then t.startTurn turnId else t
  | .takes => { t with queue := t.queue.tail, taken := t.taken ++ t.queue.head?.toList }
  | .releases => t.releaseTurn

/-! ### Routing -/

section Routing
variable {limit : Nat} {t : Turn} {n : Notification}

lemma route_elsewhere (h : n.threadId ≠ t.threadId) : t.routeNotification limit n = t := by
  simp [Turn.routeNotification, Turn.bindId, Turn.matched, Turn.complete, Turn.finishScoped, h]

lemma route_over (ha : t.active = false) (hc : t.closed = true) :
    t.routeNotification limit n = t := by
  obtain ⟨_, _, _, _, _⟩ := t
  subst ha hc
  simp [Turn.routeNotification, Turn.bindId, Turn.put, Turn.complete, Turn.finishScoped]

lemma route_passes {i : String} (hopen : n.method ≠ "thread/closed") (hid : t.turnId = some i)
    (hi : n.turnId ≠ i) (hs : n.method = "turn/started" → n.turnId = "")
    (hm : n.turnId = "" → n.method ≠ "turn/completed") : t.routeNotification limit n = t := by
  have kept : t.bindId n = t := if_neg fun h => h.2.2.1 (hs (h.2.2.2.resolve_left (by simp [hid])))
  have runs : t.complete n = t := by
    refine if_neg fun ⟨h, _, _, h'⟩ => ?_
    rcases h' with h' | h' | h'
    · exact hm h' h
    · simp [hid] at h'
    · exact hi (Option.some.inj (h'.symm.trans hid))
  simp [Turn.routeNotification, kept, runs, Turn.matched, Turn.finishScoped, hid, hi, Ne.symm hi, hopen]

variable (hthread : n.threadId = t.threadId) (hopen : n.method ≠ "thread/closed")
  (hc : t.closed = false) (hroom : t.queue.length < limit)
include hthread hopen hc hroom

lemma route_blank (hid : t.turnId = none) (hn : n.turnId = "") (hm : n.method ≠ "turn/completed") :
    t.routeNotification limit n = { t with queue := t.queue ++ [n] } := by
  simp [Turn.routeNotification, Turn.bindId, Turn.matched, Turn.put, Turn.complete,
    Turn.finishScoped, hid, hn, hm, hc, hroom, hthread, hopen]

/-- A notification of the handle's turn, or one that makes its turn the handle's. -/
lemma route_follows (ha : t.active = true) (hn : n.turnId ≠ "")
    (hid : t.turnId = none ∨ t.turnId = some n.turnId ∨ n.method = "turn/started") :
    t.routeNotification limit n =
      let fed := { t with turnId := some n.turnId, queue := t.queue ++ [n] }
      if n.method = "turn/completed" then fed.finish else fed := by
  have bound : t.bindId n = { t with turnId := some n.turnId } := by
    unfold Turn.bindId
    split
    · rfl
    · rename_i hnot
      have hsome : t.turnId = some n.turnId := by
        by_contra hne
        exact hnot ⟨ha, hthread, hn, hid.imp_right fun h => h.resolve_left hne⟩
      rw [← hsome]
  simp only [Turn.routeNotification, bound]
  by_cases hm : n.method = "turn/completed" <;>
    simp [Turn.matched, Turn.put, Turn.complete, Turn.finish, Turn.finishScoped, ha, hc, hroom, hthread,
      hopen, hm]

end Routing

/-! ### Following one turn -/

/-- No notification of the turn `r` reaches the handle after this one. -/
def Notification.ends (r : String) (n : Notification) : Bool :=
  n.method = "turn/completed" && n.turnId = r ||
    n.method = "turn/started" && n.turnId ≠ r && n.turnId ≠ ""

/-- What may happen to the handle of the turn `r`. Before the response, a notification of another turn
    comes only behind one of `r`, and one of `r` never behind its end or the start of another turn. Once a
    completed turn has closed the handle, everything else may happen. -/
def Timely (limit : Nat) (r : String) (t : Turn) : Event → Prop
  | .receives n => n.threadId = t.threadId →
      (n.turnId = r → ∀ m ∈ t.heard, m.ends r = false) ∧
      (t.closed = false → t.queue.length < limit ∧ n.method ≠ "thread/closed" ∧
        (n.turnId = "" → n.method ≠ "turn/completed") ∧
        (n.turnId ≠ r → n.turnId ≠ "" → t.result ≠ none ∨
          n.method ≠ "turn/started" ∧ ∃ m ∈ t.heard, m.turnId = r))
  | .responds turnId => turnId = r
  | .takes => True
  | .releases => t.closed = true

instance (limit : Nat) (r : String) (t : Turn) : DecidablePred (Timely limit r t)
  | .receives _ => inferInstanceAs (Decidable (_ → _ ∧ _))
  | .responds _ => inferInstanceAs (Decidable (_ = _))
  | .takes => inferInstanceAs (Decidable True)
  | .releases => inferInstanceAs (Decidable (_ = _))

/-- A turn has been completed that is `r` or has started since. -/
def Ended (r : String) (heard : List Notification) : Prop :=
  ∃ n ∈ heard, n.method = "turn/completed" ∧ ∃ m ∈ heard, m.ends r = true ∧ m.turnId = n.turnId

/-- The handle has the id `r` or that of a turn that has started since. -/
structure Follows (r : String) (t : Turn) : Prop where
  stream : t.stream.filter (·.turnId = r) = t.heard.filter (·.turnId = r)
  unbound : t.turnId = none → t.result = none ∧ ∀ m ∈ t.heard, m.turnId ≠ r
  bound : ∀ i, t.turnId = some i → i = r ∨ t.result ≠ none ∧
    ∃ m ∈ t.heard, m.ends r = true ∧ m.turnId = i
  live : t.active = true ∧ t.closed = false ∧ t.completed = false ∨
    t.active = false ∧ t.closed = true ∧ t.turnId ≠ none ∧ Ended r t.heard

section Receive
variable {limit : Nat} {r : String} {t : Turn} {n : Notification} (h : Follows r t)
include h

/-- A notification of another turn that leaves the handle as it is. -/
lemma Follows.passed (hn : n.turnId ≠ r) : Follows r (t.hear n) := by
  have older {m} (hm : m ∈ t.heard) : m ∈ t.heard ++ [n] := mem_append_left _ hm
  refine ⟨?_, fun hid => ⟨(h.unbound hid).1, ?_⟩, fun i hi => ?_, h.live.imp_right ?_⟩
  · show t.stream.filter _ = (t.heard ++ [n]).filter _
    rw [h.stream]
    simp [hn]
  · show ∀ m ∈ t.heard ++ [n], m.turnId ≠ r
    simpa [or_imp, forall_and, hn] using (h.unbound hid).2
  · exact (h.bound i hi).imp_right fun ⟨hres, m, hm, he⟩ => ⟨hres, m, older hm, he⟩
  · exact fun ⟨ha, hc, hid, c, hc', hm, m, hm', he⟩ =>
      ⟨ha, hc, hid, c, older hc', hm, m, older hm', he⟩

/-- A notification of a turn that the handle follows or moves on to. -/
lemma Follows.fed (hthread : n.threadId = t.threadId) (hroom : t.queue.length < limit)
    (hopen : n.method ≠ "thread/closed") (ha : t.active = true) (hc : t.closed = false)
    (hx : t.completed = false) (hn : n.turnId ≠ "")
    (hid : t.turnId = none ∨ t.turnId = some n.turnId ∨ n.method = "turn/started")
    (hb : n.turnId = r ∨ t.result ≠ none ∧ ∃ m ∈ t.heard ++ [n], m.ends r = true ∧ m.turnId = n.turnId) :
    Follows r ((t.routeNotification limit n).hear n) := by
  have mem : n ∈ t.heard ++ [n] := by simp
  have grown : (t.taken ++ (t.queue ++ [n])).filter (·.turnId = r) =
      (t.heard ++ [n]).filter (·.turnId = r) := by
    rw [← append_assoc]
    show (t.stream ++ [n]).filter _ = _
    rw [filter_append, filter_append, h.stream]
  rw [route_follows hthread hopen hc hroom ha hn hid]
  by_cases hm : n.method = "turn/completed"
  · have ended : Ended r (t.heard ++ [n]) := by
      refine ⟨n, mem, hm, ?_⟩
      rcases hb with hr | ⟨_, hb⟩
      · exact ⟨n, mem, by simp [Notification.ends, hm, hr], rfl⟩
      · exact hb
    rw [if_pos hm]
    exact ⟨grown, nofun, fun i hi => Option.some.inj hi ▸ hb, .inr ⟨rfl, rfl, nofun, ended⟩⟩
  · rw [if_neg hm]
    exact ⟨grown, nofun, fun i hi => Option.some.inj hi ▸ hb, .inl ⟨ha, hc, hx⟩⟩

lemma Follows.receive (hr : r ≠ "") (hthread : n.threadId = t.threadId)
    (timely : Timely limit r t (.receives n)) : Follows r ((t.routeNotification limit n).hear n) := by
  obtain ⟨hlast, hrunning⟩ := timely hthread
  have last {m} (hm : m ∈ t.heard) (he : m.ends r = true) : n.turnId ≠ r :=
    fun hn => by simpa [he] using hlast hn m hm
  rcases h.live with ⟨ha, hc, hx⟩ | ⟨ha, hc, _, _, _, _, m, hm, he, _⟩
  rotate_left
  · rw [route_over ha hc]
    exact h.passed (last hm he)
  obtain ⟨hroom, hopen, hblank, hother⟩ := hrunning hc
  have fed := h.fed hthread hroom hopen ha hc hx
  by_cases own : n.turnId = r
  · refine fed (own ▸ hr) ?_ (.inl own)
    cases hid : t.turnId with
    | none => exact .inl rfl
    | some i =>
      rcases h.bound i hid with rfl | ⟨_, m, hm, he, _⟩
      · exact .inr (.inl (congrArg some own.symm))
      · exact absurd own (last hm he)
  cases hid : t.turnId with
  | none =>
    obtain ⟨hres, hnone⟩ := h.unbound hid
    by_cases hn : n.turnId = ""
    · rw [route_blank hthread hopen hc hroom hid hn (hblank hn)]
      refine Follows.passed { h with stream := ?_ } own
      rw [← h.stream]
      simp [Turn.stream, own]
    · rcases hother own hn with hno | ⟨_, m, hm, hmr⟩
      · exact absurd hres hno
      · exact absurd hmr (hnone m hm)
  | some i =>
    by_cases hs : n.method = "turn/started" ∧ n.turnId ≠ ""
    · refine fed hs.2 (.inr (.inr hs.1)) (.inr ⟨(hother own hs.2).resolve_right fun h => h.1 hs.1, n, ?_⟩)
      simp [Notification.ends, hs.1, hs.2, own]
    by_cases hi : n.turnId = i
    · obtain ⟨hres, m, hm, he, hmi⟩ := (h.bound i hid).resolve_left (hi ▸ own)
      have hn : n.turnId ≠ "" := fun hn => by simp [Notification.ends, hmi, ← hi, hn, hr.symm] at he
      exact fed hn (.inr (.inl (hi ▸ hid))) (.inr ⟨hres, m, by simp [hm], he, hmi.trans hi.symm⟩)
    · rw [route_passes hopen hid hi (fun h => by simpa [h] using hs) hblank]
      exact h.passed own

end Receive

/-- Until the response comes, the handle has no id or the right one. -/
lemma Follows.startTurn {r : String} {t : Turn} (hr : r ≠ "") (h : Follows r t)
    (hnone : t.result = none) :
    t.startTurn r = { t with turnId := some r, result := some (.ok r) } := by
  rw [Turn.startTurn, if_neg hr, if_neg]
  rintro ⟨hsome, hne⟩
  obtain ⟨i, hid⟩ := Option.ne_none_iff_exists'.1 hsome
  rcases h.bound i hid with rfl | ⟨hres, _⟩
  · exact hne hid
  · exact hres hnone

/-- STEP: whatever may happen leaves the handle with its turn. -/
theorem Follows.next {limit : Nat} {r : String} (hr : r ≠ "") (t : Turn) (e : Event)
    (timely : Timely limit r t e) (h : Follows r t) : Follows r (step limit t e) := by
  cases e with
  | receives n =>
    by_cases hthread : n.threadId = t.threadId
    · rw [step, if_pos hthread]
      exact h.receive hr hthread timely
    · rw [step, if_neg hthread, route_elsewhere hthread]
      exact h
  | responds turnId =>
    obtain rfl : turnId = r := timely
    rw [step]
    split
    · rename_i hnone
      rw [h.startTurn hr (Option.isNone_iff_eq_none.1 hnone)]
      exact ⟨h.stream, nofun, fun i hi => .inl (Option.some.inj hi).symm,
        h.live.imp_right fun ⟨ha, hc, _, hended⟩ => ⟨ha, hc, nofun, hended⟩⟩
    · exact h
  | takes =>
    refine { h with stream := ?_ }
    show (t.taken ++ t.queue.head?.toList ++ t.queue.tail).filter _ = t.heard.filter _
    rw [← h.stream]
    cases hq : t.queue <;> simp [Turn.stream, hq]
  | releases =>
    have hclosed : t.closed = true := timely
    rcases h.live with ⟨_, hc, _⟩ | hover
    · cases hclosed.symm.trans hc
    · exact ⟨h.stream, h.unbound, h.bound, .inr ⟨rfl, rfl, hover.2.2⟩⟩

/-- RUN: a handle whose events are timely follows its turn. -/
theorem turn_handle_follows_turn (limit : Nat) (thread r : String) (hr : r ≠ "") (events : List Event)
    (h : Along (step limit) (Timely limit r) { threadId := thread } events) :
    let t := run (step limit) { threadId := thread } events
    (t.result = none → (t.startTurn r).result = some (.ok r)) ∧
      (t.completed = true ∨ t.closed = true → Ended r t.heard) ∧
      t.stream.filter (·.turnId = r) = t.heard.filter (·.turnId = r) := by
  intro t
  have start : Follows r { threadId := thread } :=
    ⟨rfl, fun _ => ⟨rfl, forall_mem_nil _⟩, nofun, .inl ⟨rfl, rfl, rfl⟩⟩
  have follows : Follows r t := run_inv_along (Follows.next hr) events _ h start
  refine ⟨fun hnone => by rw [follows.startTurn hr hnone], fun hend => ?_, follows.stream⟩
  rcases follows.live with ⟨_, hc, hx⟩ | ⟨_, _, _, hended⟩
  · simp [hc, hx] at hend
  · exact hended

/-- An early notification of the turn, a late one of the previous turn, the response, the end, and what
    may come behind it. -/
theorem turn_handle_follows_turn_r :
    (run (step 2) { threadId := "t" } [.receives ⟨"turn/started", "t", "r", ""⟩,
      .receives ⟨"turn/completed", "t", "q", ""⟩, .responds "r", .takes,
      .receives ⟨"turn/completed", "t", "r", ""⟩, .receives ⟨"turn/started", "t", "s", ""⟩,
      .receives ⟨"thread/closed", "t", "", ""⟩, .releases]).stream.filter (·.turnId = "r") =
      [⟨"turn/started", "t", "r", ""⟩, ⟨"turn/completed", "t", "r", ""⟩] :=
  (turn_handle_follows_turn 2 "t" "r" (by decide) _ (by decide)).2.2

/-- A notification of the turn that was released comes late, before the response. -/
theorem late_notification_fails_start :
    (run (step 8192) { threadId := "t" } [.receives ⟨"item/completed", "t", "q", ""⟩,
      .responds "r"]).result =
      some (.error "turn/start response did not match its early notifications") := rfl

/-! ### Whatever comes -/

/-- What the owner sees is a part of what was heard, in its order, and the queue is within its limit. -/
structure InOrder (limit : Nat) (t : Turn) : Prop where
  stream : t.stream.Sublist t.heard
  room : t.queue.length ≤ limit

/-- STEP: a notification is put behind the others, or passes by, or empties the queue. -/
theorem InOrder.route {limit : Nat} {t : Turn} (h : InOrder limit t) (n : Notification) :
    InOrder limit ((t.routeNotification limit n).hear n) := by
  have hbound : InOrder limit (t.bindId n) := by
    unfold Turn.bindId
    split <;> exact ⟨h.stream, h.room⟩
  have hfed {u : Turn} (hu : InOrder limit u) : InOrder limit (u.hear n) ∧
      InOrder limit ((u.put limit n).hear n) := by
    have hpass := hu.stream.trans (sublist_append_left u.heard [n])
    refine ⟨⟨hpass, hu.room⟩, ?_⟩
    unfold Turn.put
    split
    · exact ⟨hpass, hu.room⟩
    · split
      · rename_i hroom
        refine ⟨?_, by simpa [Turn.hear] using Nat.succ_le_of_lt hroom⟩
        show (u.taken ++ (u.queue ++ [n])).Sublist (u.heard ++ [n])
        rw [← append_assoc]
        exact hu.stream.append (Sublist.refl [n])
      · refine ⟨?_, Nat.zero_le _⟩
        exact ((nil_sublist u.queue).append_left u.taken).trans hpass
  have hover {u : Turn} (hu : InOrder limit (u.hear n)) :
      InOrder limit (((u.complete n).finishScoped n).hear n) := by
    unfold Turn.finishScoped Turn.complete
    split <;> split <;> exact ⟨hu.stream, hu.room⟩
  unfold Turn.routeNotification
  apply hover
  split
  · exact (hfed hbound).2
  · exact (hfed hbound).1

lemma step_inOrder {limit : Nat} {t : Turn} (h : InOrder limit t) (e : Event) :
    InOrder limit (step limit t e) := by
  cases e with
  | receives n =>
    dsimp only [step]
    split
    · exact h.route n
    · rename_i hne
      rwa [route_elsewhere hne]
  | responds turnId =>
    dsimp only [step, Turn.startTurn]
    split_ifs <;> exact ⟨h.stream, h.room⟩
  | takes =>
    have hstream : (step limit t .takes).stream = t.stream := by
      show (t.taken ++ t.queue.head?.toList) ++ t.queue.tail = t.taken ++ t.queue
      rw [append_assoc]
      cases t.queue <;> rfl
    exact ⟨hstream ▸ h.stream, Nat.le_trans (tail_sublist _).length_le h.room⟩
  | releases => exact ⟨h.stream, h.room⟩

/-- ORDER: whatever happens, the owner of a handle sees a part of what arrived for the thread, in order
    and nothing twice, and the queue keeps to its limit. -/
theorem stream_in_order (limit : Nat) (thread : String) (events : List Event) :
    let t := run (step limit) { threadId := thread } events
    t.stream.Sublist t.heard ∧ t.queue.length ≤ limit := by
  intro t
  have h : InOrder limit t :=
    run_inv (P := InOrder limit) (fun _ e h => step_inOrder h e) events _ ⟨.refl [], Nat.zero_le _⟩
  exact ⟨h.stream, h.room⟩

end Codex
