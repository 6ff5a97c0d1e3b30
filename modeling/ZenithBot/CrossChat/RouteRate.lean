import Mathlib.Data.List.Perm.Subperm
import Mathlib.Tactic.Linarith
import ZenithBot.CrossChat.Exchange

/-! The rate limit of configured routes. Accepting a route exchange, or an instruction that a route
    authorizes, writes a rate event in the same transaction; the events older than the window are
    deleted there, and when the server starts.

        accepted, newest last        e₁    e₂  e₃        e₄
        rate events                        e₂  e₃        e₄
                                        |← window, ends at the last reading →|

    The table forgets, so the bound is about everything ever accepted, kept beside the store: an
    accepted effect that still counts is in the table. -/

namespace CrossChat
open Table List

/-- The arguments of `create_route_exchange_request`. -/
structure RouteRequest where
  (exchangeId legId requesterSessionId authorizationSourceRunId responderSessionId body : String)
  idempotencyKey : String
  maxLegs : Nat
  (expiresAt authorizationRouteId initialAction sourceUserInstruction : String)
  liveResponseLease : Bool
  (serverInstanceId timestamp : String)

/-- A row of `cross_chat_envelopes`. -/
structure Envelope where
  (id kind sourceSessionId sourceRunId targetSessionId body sourceUserInstruction : String)
  (idempotencyKey authorizationKind : String)
  authorizationRouteId : Option String
  (status createdAt updatedAt : String)

abbrev Envelopes := Table Envelope String Envelope.id

/-- The arguments of `create_instruction`. -/
structure InstructionRequest where
  (envelopeId sourceSessionId sourceRunId targetSessionId body idempotencyKey : String)
  sourceUserInstruction : String := ""
  authorizationKind : String := "explicit_prompt"
  authorizationRouteId : Option String := none
  initialStatus : String := "ready"
  timestamp : String

/-- What happens to the rate events, with the reading of the clock. -/
inductive RouteAct where
  | request (q : RouteRequest) (now : Rat)
  | instruct (q : InstructionRequest) (now : Rat)
  | start (now : Rat)

def RouteAct.clock : RouteAct → Rat
  | .request _ now => now
  | .instruct _ now => now
  | .start now => now

structure Accounting where
  store : Store
  envelopes : Envelopes := .empty
  accepted : List RateEvent := []

section Steps
variable (sha256 : String → String)

def RouteRequest.submit (q : RouteRequest) (s : Store) (now : Rat) :
    Store × Except Err (Option Exchange × Option Leg × Bool) :=
  createRouteExchangeRequest sha256 s q.exchangeId q.legId q.requesterSessionId
    q.authorizationSourceRunId q.responderSessionId q.body q.idempotencyKey q.maxLegs q.expiresAt
    q.authorizationRouteId q.initialAction q.sourceUserInstruction q.liveResponseLease
    q.serverInstanceId now q.timestamp

/-- The effect is new: it was neither refused nor a replay. -/
def created (r : Except Err (Option Exchange × Option Leg × Bool)) : Bool :=
  match r with
  | .ok (_, _, true) => true
  | _ => false

def RouteRequest.event (q : RouteRequest) (now : Rat) : RateEvent :=
  ⟨q.exchangeId, q.requesterSessionId, q.responderSessionId, now⟩

def createInstruction (s : Store) (envelopes : Envelopes) (q : InstructionRequest) (now : Rat) :
    Store × Envelopes × Except Err (Envelope × Bool) :=
  match validatedSourceUserInstruction q.sourceUserInstruction with
  | .error e => (s, envelopes, .error e)
  | .ok sourceUserInstruction =>
  if q.authorizationKind ∉ ["explicit_prompt", "configured_route"] then
    (s, envelopes, .error (.value "invalid cross-chat authorization kind"))
  else if q.authorizationKind = "configured_route" ∧ !isRouteId (q.authorizationRouteId.getD "") then
    (s, envelopes, .error (.value "configured route authorization requires a route id"))
  else if q.authorizationKind ≠ "configured_route" ∧ q.authorizationRouteId.isSome then
    (s, envelopes, .error (.value "explicit prompt authorization cannot carry a route id"))
  else if q.initialStatus ∉ ["ready", "waiting_admission"] then
    (s, envelopes, .error (.value "invalid initial cross-chat instruction status"))
  else match envelopes.rows.find? fun e =>
      e.sourceRunId = q.sourceRunId && e.idempotencyKey = q.idempotencyKey with
  | some e =>
    if e.kind ≠ "instruction"
        ∨ e.targetSessionId ≠ q.targetSessionId
        ∨ e.body ≠ q.body
        ∨ e.sourceUserInstruction ≠ sourceUserInstruction
        ∨ e.authorizationKind ≠ q.authorizationKind
        ∨ e.authorizationRouteId ≠ q.authorizationRouteId then
      (s, envelopes, .error (.http 409 "idempotency key was already used for a different handoff"))
    else (s, envelopes, .ok (e, false))
  | none =>
    match (if q.authorizationKind = "configured_route" then
      chargeConfiguredRouteRate s q.envelopeId q.sourceSessionId q.targetSessionId now else .ok s) with
    | .error e => (s, envelopes, .error e)
    | .ok s1 =>
      let e : Envelope := {
        id := q.envelopeId, kind := "instruction", sourceSessionId := q.sourceSessionId,
        sourceRunId := q.sourceRunId, targetSessionId := q.targetSessionId, body := q.body,
        sourceUserInstruction, idempotencyKey := q.idempotencyKey,
        authorizationKind := q.authorizationKind, authorizationRouteId := q.authorizationRouteId,
        status := q.initialStatus, createdAt := q.timestamp, updatedAt := q.timestamp }
      match envelopes.insert? e with
      | none => (s, envelopes, .error .integrity)
      | some envelopes => (s1, envelopes, .ok (e, true))

def InstructionRequest.event (q : InstructionRequest) (now : Rat) : RateEvent :=
  ⟨q.envelopeId, q.sourceSessionId, q.targetSessionId, now⟩

/-- A new instruction that a configured route authorizes. -/
def InstructionRequest.routed (q : InstructionRequest) (r : Except Err (Envelope × Bool)) : Bool :=
  match r with
  | .ok (_, true) => q.authorizationKind = "configured_route"
  | _ => false

def Accounting.step (w : Accounting) : RouteAct → Accounting
  | .request q now =>
    let r := q.submit sha256 w.store now
    { w with store := r.1, accepted := if created r.2 then q.event now :: w.accepted else w.accepted }
  | .instruct q now =>
    let r := createInstruction w.store w.envelopes q now
    ⟨r.1, r.2.1, if q.routed r.2.2 then q.event now :: w.accepted else w.accepted⟩
  | .start now =>
    { w with store := { w.store with rateEvents := w.store.rateEvents.deleteWhere fun e =>
        e.acceptedAtEpoch < now - routeRateWindowSeconds } }

end Steps

variable {sha256 : String → String}
variable {s s' : Store} {w w' : Accounting} {q : RouteRequest} {now t : Rat} {isExchange : String → Bool}

/-! ### One effect -/

lemma charge_exchanges {id source target : String}
    (h : chargeConfiguredRouteRate s id source target t = .ok s') : s'.exchanges = s.exchanges := by
  unfold chargeConfiguredRouteRate at h
  dsimp only at h
  split at h
  · split at h <;> cases h
    rfl
  · split at h
    · cases h
    · split at h <;> cases h
      rfl

/-- The rate events of `chat` on the side `col` that count at `t`. -/
def Store.recent (s : Store) (col : RateEvent → String) (chat : String) (t : Rat) : List RateEvent :=
  s.rateEvents.rows.filter fun e => col e = chat && t - routeRateWindowSeconds ≤ e.acceptedAtEpoch

/-- A charge for an effect that the table does not know. -/
lemma charge_new {id source target : String} (h : chargeConfiguredRouteRate s id source target t = .ok s')
    (hnew : s.rateEvents.find? id = none) :
    (∀ e, e ∈ s'.rateEvents ↔ (e ∈ s.rateEvents ∧ t - routeRateWindowSeconds ≤ e.acceptedAtEpoch) ∨
      e = ⟨id, source, target, t⟩) ∧
    (s.recent RateEvent.sourceSessionId source t).length < routeRateLimit ∧
    (s.recent RateEvent.targetSessionId target t).length < routeRateLimit := by
  have hcount : ∀ col : RateEvent → String, ∀ chat, (s.rateEvents.deleteWhere fun r =>
      r.acceptedAtEpoch < t - routeRateWindowSeconds).countWhere (fun r =>
        col r = chat && t - routeRateWindowSeconds ≤ r.acceptedAtEpoch) =
      (s.recent col chat t).length := by
    intro col chat
    rw [Table.countWhere, Table.deleteWhere, countP_eq_length_filter, filter_filter, Store.recent]
    congr 2
    funext e
    by_cases he : t - routeRateWindowSeconds ≤ e.acceptedAtEpoch
    · simp [not_lt.2 he]
    · simp [he]
  unfold chargeConfiguredRouteRate at h
  rw [hnew] at h
  dsimp only at h
  rw [hcount RateEvent.sourceSessionId, hcount RateEvent.targetSessionId] at h
  split at h
  · cases h
  rename_i hroom
  split at h
  · cases h
  rename_i table hins
  cases h
  rw [not_or, not_le, not_le] at hroom
  refine ⟨fun e => ?_, hroom.1, hroom.2⟩
  rw [mem_insert? hins, mem_deleteWhere, decide_eq_false_iff_not, not_lt]

/-- INVERSION: an effect is new, charged and recorded, or the store is as it was. -/
theorem submit_cases (sha256 : String → String) (q : RouteRequest) (s : Store) (now : Rat) :
    ((q.submit sha256 s now).1 = s ∧ created (q.submit sha256 s now).2 = false) ∨
    ∃ s1, s.exchanges.find? q.exchangeId = none ∧
      chargeConfiguredRouteRate s q.exchangeId q.requesterSessionId q.responderSessionId now =
        .ok s1 ∧
      (q.submit sha256 s now).1.rateEvents = s1.rateEvents ∧
      (∃ e, e.id = q.exchangeId ∧ ∀ x, x ∈ (q.submit sha256 s now).1.exchanges ↔
        x ∈ s1.exchanges ∨ x = e) ∧
      created (q.submit sha256 s now).2 = true := by
  unfold RouteRequest.submit createRouteExchangeRequest
  split
  · exact .inl ⟨rfl, rfl⟩
  split
  · exact .inl ⟨rfl, rfl⟩
  split
  · exact .inl ⟨rfl, rfl⟩
  split
  · split
    · exact .inl ⟨rfl, rfl⟩
    · split <;> exact .inl ⟨rfl, rfl⟩
  rename_i hfresh
  split
  · exact .inl ⟨rfl, rfl⟩
  rename_i s1 hcharge
  dsimp only
  split
  · exact .inl ⟨rfl, rfl⟩
  rename_i s2 hex
  split
  · exact .inl ⟨rfl, rfl⟩
  rename_i s3 hleg
  obtain ⟨-, t2, ht2, rfl⟩ := insertExchange_ok hex
  obtain ⟨-, t3, -, rfl⟩ := insertLeg_ok hleg
  exact .inr ⟨s1, hfresh, hcharge, rfl, ⟨_, rfl, fun x => mem_insert? ht2⟩, rfl⟩

/-- INVERSION: a routed instruction is new, charged and recorded; any other leaves the store alone. -/
theorem createInstruction_cases (s : Store) (envelopes : Envelopes) (q : InstructionRequest) (now : Rat) :
    let r := createInstruction s envelopes q now
    (∀ e ∈ envelopes, e ∈ r.2.1) ∧
      ((r.1 = s ∧ q.routed r.2.2 = false) ∨
      (chargeConfiguredRouteRate s q.envelopeId q.sourceSessionId q.targetSessionId now = .ok r.1 ∧
        (∀ e ∈ envelopes, e.id ≠ q.envelopeId) ∧ (∃ e ∈ r.2.1, e.id = q.envelopeId) ∧
        q.routed r.2.2 = true)) := by
  have hsame : ∀ e ∈ envelopes, e ∈ envelopes := fun _ => id
  unfold createInstruction
  split
  · exact ⟨hsame, .inl ⟨rfl, rfl⟩⟩
  iterate 4
    split
    · exact ⟨hsame, .inl ⟨rfl, rfl⟩⟩
  split
  · split <;> exact ⟨hsame, .inl ⟨rfl, rfl⟩⟩
  split
  · exact ⟨hsame, .inl ⟨rfl, rfl⟩⟩
  rename_i s1 hcharge
  dsimp only
  split
  · exact ⟨hsame, .inl ⟨rfl, rfl⟩⟩
  rename_i table hins
  refine ⟨fun e he => (mem_insert? hins).2 (.inl he), ?_⟩
  by_cases hkind : q.authorizationKind = "configured_route"
  · rw [if_pos hkind] at hcharge
    exact .inr ⟨hcharge, (insert?_eq_some hins).2, ⟨_, (mem_insert? hins).2 (.inr rfl), rfl⟩,
      decide_eq_true hkind⟩
  · rw [if_neg hkind] at hcharge
    cases hcharge
    exact .inl ⟨rfl, decide_eq_false hkind⟩

/-! ### The accounting -/

/-- The ids tell the two kinds of effects apart. -/
def RouteAct.Typed (isExchange : String → Bool) : RouteAct → Prop
  | .request q _ => isExchange q.exchangeId = true
  | .instruct q _ => isExchange q.envelopeId = false
  | .start _ => True

/-- There is an effect of this id. -/
def Accounting.Known (isExchange : String → Bool) (w : Accounting) (id : String) : Prop :=
  if isExchange id then ∃ x ∈ w.store.exchanges, x.id = id else ∃ e ∈ w.envelopes, e.id = id

lemma known_exchange {id : String} (h : isExchange id = true) :
    w.Known isExchange id ↔ ∃ x ∈ w.store.exchanges, x.id = id := by
  simp [Accounting.Known, h]

lemma known_envelope {id : String} (h : isExchange id = false) :
    w.Known isExchange id ↔ ∃ e ∈ w.envelopes, e.id = id := by
  simp [Accounting.Known, h]

lemma Accounting.Known.mono {id : String} (h : w.Known isExchange id)
    (hx : ∀ x ∈ w.store.exchanges, x ∈ w'.store.exchanges)
    (he : ∀ e ∈ w.envelopes, e ∈ w'.envelopes) : w'.Known isExchange id := by
  cases hid : isExchange id with
  | true =>
    obtain ⟨x, hmem, hxid⟩ := (known_exchange hid).1 h
    exact (known_exchange hid).2 ⟨x, hx x hmem, hxid⟩
  | false =>
    obtain ⟨e, hmem, heid⟩ := (known_envelope hid).1 h
    exact (known_envelope hid).2 ⟨e, he e hmem, heid⟩

/-- The effect touches `chat` on the side `col`, in the window that begins at `x`. -/
def inWindow (col : RateEvent → String) (chat : String) (x : Rat) (e : RateEvent) : Bool :=
  col e = chat && x ≤ e.acceptedAtEpoch && e.acceptedAtEpoch ≤ x + routeRateWindowSeconds

/-- What holds of the accounting when the clock has shown `now`. -/
structure RateOk (isExchange : String → Bool) (now : Rat) (w : Accounting) : Prop where
  /-- What was accepted is there, under its id. -/
  known : ∀ e ∈ w.accepted, w.Known isExchange e.effectId
  unique : (w.accepted.map RateEvent.effectId).Nodup
  charged : ∀ e ∈ w.store.rateEvents, e ∈ w.accepted
  /-- What still counts is in the table. -/
  counts : ∀ e ∈ w.accepted, now - routeRateWindowSeconds ≤ e.acceptedAtEpoch →
    e ∈ w.store.rateEvents
  past : ∀ e ∈ w.accepted, e.acceptedAtEpoch ≤ now
  source : ∀ chat x, (w.accepted.filter (inWindow (·.sourceSessionId) chat x)).length ≤ routeRateLimit
  target : ∀ chat x, (w.accepted.filter (inWindow (·.targetSessionId) chat x)).length ≤ routeRateLimit

section
variable (h : RateOk isExchange now w)
include h

lemma RateOk.later (ht : now ≤ t) : RateOk isExchange t w :=
  { h with
    counts := fun e he hc => h.counts e he (by linarith)
    past := fun e he => (h.past e he).trans ht }

/-- In a window that ends no earlier than now, only what is in the table has been accepted. -/
lemma RateOk.window_le (col : RateEvent → String) {chat : String} {x : Rat}
    (hx : now ≤ x + routeRateWindowSeconds) :
    (w.accepted.filter (inWindow col chat x)).length ≤ (w.store.recent col chat now).length := by
  refine (subperm_of_subset (h.unique.of_map.filter _) fun e he => ?_).length_le
  obtain ⟨hmem, hin⟩ := mem_filter.1 he
  simp only [inWindow, Bool.and_eq_true, decide_eq_true_eq] at hin
  have hcut : now - routeRateWindowSeconds ≤ e.acceptedAtEpoch := by linarith [hin.1.2]
  exact mem_filter.2 ⟨h.counts e hmem hcut, by simp [hin.1.1, hcut]⟩

/-- One more effect in a window that had room. -/
lemma RateOk.window_cons (col : RateEvent → String) (event : RateEvent)
    (hat : event.acceptedAtEpoch = now)
    (hroom : (w.store.recent col (col event) now).length < routeRateLimit)
    (hold : ∀ chat x, (w.accepted.filter (inWindow col chat x)).length ≤ routeRateLimit) (chat : String)
    (x : Rat) : ((event :: w.accepted).filter (inWindow col chat x)).length ≤ routeRateLimit := by
  by_cases hin : inWindow col chat x event = true
  · rw [filter_cons_of_pos hin]
    simp only [inWindow, Bool.and_eq_true, decide_eq_true_eq, hat] at hin
    obtain ⟨⟨rfl, -⟩, hend⟩ := hin
    exact Nat.lt_of_le_of_lt (h.window_le col hend) hroom
  · rw [filter_cons_of_neg hin]
    exact hold chat x

/-- CHARGE: an effect that was not accepted before is charged and entered. -/
theorem RateOk.charge (event : RateEvent) (hid : ¬w.Known isExchange event.effectId)
    (hat : event.acceptedAtEpoch = now) (hcharge : chargeConfiguredRouteRate w.store event.effectId
      event.sourceSessionId event.targetSessionId now = .ok s')
    (hrate : w'.store.rateEvents = s'.rateEvents) (haccepted : w'.accepted = event :: w.accepted)
    (hnew : w'.Known isExchange event.effectId)
    (hold : ∀ id, w.Known isExchange id → w'.Known isExchange id) : RateOk isExchange now w' := by
  have hfresh : event.effectId ∉ w.accepted.map RateEvent.effectId := by
    intro hmem
    obtain ⟨x, hx, hxid⟩ := mem_map.1 hmem
    exact hid (hxid ▸ h.known x hx)
  obtain ⟨hmem, hsource, htarget⟩ := charge_new hcharge
    (find?_eq_none.2 fun x hx hxid => hfresh (mem_map.2 ⟨x, h.charged x hx, hxid⟩))
  subst hat
  constructor <;> rw [haccepted]
  · rintro x (_ | ⟨_, hx⟩)
    · exact hnew
    · exact hold _ (h.known x hx)
  · exact nodup_cons.2 ⟨hfresh, h.unique⟩
  · intro x hx
    rw [hrate, hmem] at hx
    rcases hx with ⟨hx, -⟩ | rfl
    · exact mem_cons_of_mem _ (h.charged x hx)
    · exact mem_cons_self
  · intro x hx hcut
    rw [hrate, hmem]
    rcases mem_cons.1 hx with rfl | hx
    · exact .inr rfl
    · exact .inl ⟨h.counts x hx hcut, hcut⟩
  · rintro x (_ | ⟨_, hx⟩)
    · exact le_rfl
    · exact h.past x hx
  · exact h.window_cons _ event rfl hsource h.source
  · exact h.window_cons _ event rfl htarget h.target

lemma RateOk.request {q : RouteRequest} (hq : isExchange q.exchangeId = true) :
    RateOk isExchange now (w.step sha256 (.request q now)) := by
  rcases submit_cases sha256 q w.store now with ⟨hs, hc⟩ | ⟨s1, hfresh, hcharge, hrate, ⟨e, he, hex⟩, hc⟩
  · simp only [Accounting.step, hs, hc]
    exact h
  have hkept : ∀ x ∈ w.store.exchanges, x ∈ (w.step sha256 (.request q now)).store.exchanges :=
    fun x hx => (hex x).2 (.inl (charge_exchanges hcharge ▸ hx))
  refine h.charge (q.event now) (fun hknown => ?_) rfl hcharge hrate (by simp [Accounting.step, hc])
    ((known_exchange hq).2 ⟨e, (hex e).2 (.inr rfl), he⟩) fun _ hid => hid.mono hkept fun _ => id
  obtain ⟨x, hx, hxid⟩ := (known_exchange hq).1 hknown
  exact find?_eq_none.1 hfresh x hx hxid

lemma RateOk.instruct {q : InstructionRequest} (hq : isExchange q.envelopeId = false) :
    RateOk isExchange now (w.step sha256 (.instruct q now)) := by
  obtain ⟨hkept, ⟨hs, hc⟩ | ⟨hcharge, hfresh, hrow, hc⟩⟩ :=
    createInstruction_cases w.store w.envelopes q now
  · simp only [Accounting.step, hs, hc]
    exact { h with known := fun e he => (h.known e he).mono (fun _ => id) hkept }
  · refine h.charge (q.event now) (fun hknown => ?_) rfl hcharge rfl (by simp [Accounting.step, hc])
      ((known_envelope hq).2 hrow) fun _ hid => hid.mono (fun x hx => ?_) hkept
    · obtain ⟨e, he, heid⟩ := (known_envelope hq).1 hknown
      exact hfresh e he heid
    · exact charge_exchanges hcharge ▸ hx

lemma RateOk.start : RateOk isExchange now (w.step sha256 (.start now)) := by
  refine { h with
    charged := fun e he => h.charged e (mem_deleteWhere.1 he).1
    counts := ?_ }
  intro e he hcut
  exact mem_deleteWhere.2 ⟨h.counts e he hcut, decide_eq_false (not_lt.2 hcut)⟩

end

/-- RUN: readings that do not go back keep the accounting in order. -/
theorem rateOk_run : ∀ (acts : List RouteAct) (w : Accounting) (now : Rat), RateOk isExchange now w →
    (∀ a ∈ acts, now ≤ a.clock) → (acts.map RouteAct.clock).Pairwise (· ≤ ·) →
    (∀ a ∈ acts, a.Typed isExchange) →
    ∃ t, RateOk isExchange t (Lib.run (Accounting.step sha256) w acts)
  | [], _, now, h, _, _, _ => ⟨now, h⟩
  | a :: acts, w, now, h, hfirst, hclock, htyped => by
    have ha := h.later (hfirst a mem_cons_self)
    have hids := htyped a mem_cons_self
    rw [map_cons, pairwise_cons] at hclock
    refine rateOk_run acts _ a.clock ?_ (fun b hb => hclock.1 _ (mem_map_of_mem hb)) hclock.2
      fun b hb => htyped b (mem_cons_of_mem _ hb)
    cases a with
    | request q t => exact ha.request hids
    | instruct q t => exact ha.instruct hids
    | start t => exact ha.start

/-- SLIDING WINDOW: in any interval of the window's length the effects accepted for one source chat and
    for one target chat stay within the limit; no effect id is accepted twice, and what was accepted before
    or is refused leaves the store as it is. -/
theorem route_rate_sliding (sha256 : String → String) (s : Store) (envelopes : Envelopes)
    (acts : List RouteAct) (hclock : (acts.map RouteAct.clock).Pairwise (· ≤ ·))
    (isExchange : String → Bool) (hids : ∀ a ∈ acts, a.Typed isExchange) :
    let w := Lib.run (Accounting.step sha256) ⟨{ s with rateEvents := .empty }, envelopes, []⟩ acts
    (∀ chat x,
      (w.accepted.filter (inWindow (·.sourceSessionId) chat x)).length ≤ routeRateLimit ∧
      (w.accepted.filter (inWindow (·.targetSessionId) chat x)).length ≤ routeRateLimit) ∧
    (w.accepted.map RateEvent.effectId).Nodup ∧
    (∀ (q : RouteRequest) now, isExchange q.exchangeId = true →
      q.exchangeId ∈ w.accepted.map RateEvent.effectId →
      (q.submit sha256 w.store now).1 = w.store) ∧
    (∀ (q : RouteRequest) now, created (q.submit sha256 w.store now).2 = false →
      (q.submit sha256 w.store now).1 = w.store) ∧
    ∀ (q : InstructionRequest) now, isExchange q.envelopeId = false →
      q.envelopeId ∈ w.accepted.map RateEvent.effectId ∨
        q.routed (createInstruction w.store w.envelopes q now).2.2 = false →
      (createInstruction w.store w.envelopes q now).1 = w.store := by
  intro w
  have hempty : ∀ now, RateOk isExchange now ⟨{ s with rateEvents := .empty }, envelopes, []⟩ :=
    fun now => ⟨by simp, nodup_nil, fun e he => absurd he (Table.not_mem_empty e), by simp,
      by simp, by simp, by simp⟩
  obtain ⟨t, hok⟩ : ∃ t, RateOk isExchange t w := by
    cases acts with
    | nil => exact ⟨0, hempty 0⟩
    | cons a acts =>
      refine rateOk_run (a :: acts) _ a.clock (hempty _) (fun b hb => ?_) hclock hids
      rcases mem_cons.1 hb with rfl | hb
      · exact le_rfl
      · exact (pairwise_cons.1 hclock).1 _ (mem_map_of_mem hb)
  have hknown : ∀ id ∈ w.accepted.map RateEvent.effectId, w.Known isExchange id := by
    intro id hid
    obtain ⟨e, he, rfl⟩ := mem_map.1 hid
    exact hok.known e he
  refine ⟨fun chat x => ⟨hok.source chat x, hok.target chat x⟩, hok.unique, fun q now hq hmem => ?_,
    fun q now hc => ?_, fun q now hq hor => ?_⟩
  · rcases submit_cases sha256 q w.store now with ⟨hs, -⟩ | ⟨_, hfresh, -⟩
    · exact hs
    · obtain ⟨x, hx, hxid⟩ := (known_exchange hq).1 (hknown _ hmem)
      exact absurd hxid (Table.find?_eq_none.1 hfresh x hx)
  · rcases submit_cases sha256 q w.store now with ⟨hs, -⟩ | ⟨_, -, -, -, -, hc'⟩
    · exact hs
    · rw [hc] at hc'
      cases hc'
  · obtain ⟨_, ⟨hs, -⟩ | ⟨-, hfresh, -, hc⟩⟩ := createInstruction_cases w.store w.envelopes q now
    · exact hs
    · rcases hor with hmem | hnot
      · obtain ⟨e, he, heid⟩ := (known_envelope hq).1 (hknown _ hmem)
        exact absurd heid (hfresh e he)
      · rw [hnot] at hc
        cases hc

/-- A request of `alpha` to `beta`. -/
def sampleRequest (id : String) : RouteRequest where
  exchangeId := "exchange_" ++ id
  legId := "leg_" ++ id
  requesterSessionId := "alpha"
  authorizationSourceRunId := "run"
  responderSessionId := "beta"
  body := "hello"
  idempotencyKey := "key_" ++ id
  maxLegs := 6
  expiresAt := "2026-01-01T00:00:00Z"
  authorizationRouteId := "route_0123456789abcdef0123456789abcdef"
  initialAction := "request_reply"
  sourceUserInstruction := ""
  liveResponseLease := false
  serverInstanceId := "server"
  timestamp := "2025-12-31T00:00:00Z"

/-- An instruction of `alpha` to `beta`. -/
def sampleInstruction : InstructionRequest where
  envelopeId := "handoff_1"
  sourceSessionId := "alpha"
  sourceRunId := "run"
  targetSessionId := "beta"
  body := "hello"
  idempotencyKey := "key"
  authorizationKind := "configured_route"
  authorizationRouteId := some "route_0123456789abcdef0123456789abcdef"
  timestamp := "2025-12-31T00:00:00Z"

theorem route_rate_sliding_sample :
    let acts : List RouteAct := [.request (sampleRequest "1") 0, .start 5, .instruct sampleInstruction 7,
      .request (sampleRequest "2") 9, .request (sampleRequest "1") 12]
    let w := Lib.run (Accounting.step fun _ => "")
      ⟨{ Store.empty with rateEvents := .empty }, .empty, []⟩ acts
    w.accepted.length = 3 ∧ (w.accepted.map RateEvent.effectId).Nodup :=
  ⟨by decide +kernel, (route_rate_sliding (fun _ => "") Store.empty .empty _ (by decide +kernel)
    (fun id => id.toList.head? = some 'e') (by simp [RouteAct.Typed, sampleRequest, sampleInstruction])).2.1⟩

end CrossChat
