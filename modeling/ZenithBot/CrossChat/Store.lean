import Mathlib.Data.Rat.Defs
import ZenithBot.Lib.Run
import ZenithBot.Lib.Table

/-! The exchange tables of `CrossChatStore` (`agent_server.py`) and their constraints. An exchange is
    a bounded conversation between two chats; a leg is one message of it. The primary keys are
    carried by `Table`; every other constraint of the schema is checked by the insertions below,
    which raise `integrity` when one is violated. -/

namespace CrossChat

inductive ExchangeStatus where
  | waitingRequest | active | completed | failed | cancelled | expired
  deriving DecidableEq

/-- `CROSS_CHAT_EXCHANGE_TERMINAL_STATUSES`. -/
def ExchangeStatus.terminal : ExchangeStatus → Bool
  | .completed | .failed | .cancelled | .expired => true
  | _ => false

inductive LegStatus where
  | registered | submitting | queued | running | delivered | failed | cancelled | expired
  deriving DecidableEq

/-- `CROSS_CHAT_EXCHANGE_LEG_TERMINAL_STATUSES`. -/
def LegStatus.terminal : LegStatus → Bool
  | .delivered | .failed | .cancelled | .expired => true
  | _ => false

inductive LegKind where
  | request | reply | status
  deriving DecidableEq

inductive ResponseState where
  | opened | explicitCommitted | automaticCommitted | closed
  deriving DecidableEq

/-- The inbound leg has its one response. -/
def ResponseState.committed : ResponseState → Bool
  | .explicitCommitted | .automaticCommitted => true
  | _ => false

/-- A row of `cross_chat_exchanges`. -/
structure Exchange where
  (id requesterSessionId responderSessionId authorizationSourceRunId : String)
  authorizationKind : String := "explicit_prompt"
  authorizationRouteId : Option String := none
  initialAction : String := "request_reply"
  sourceUserInstruction : String
  status : ExchangeStatus
  (maxLegs usedLegs : Nat)
  activeLegId : Option String
  expiresAt : String
  errorCode : Option String := none
  error : Option String := none
  lifecycleStatus : String := ""
  liveResponseRequested : Bool := false
  liveResponseLease : Bool := false
  liveResponseInstanceId : String := ""
  (createdAt updatedAt : String)
  deriving DecidableEq

/-- A row of `cross_chat_exchange_legs`. -/
structure Leg where
  (id exchangeId : String)
  parentLegId : Option String
  ordinal : Nat
  (sourceSessionId sourceRunId sourceOwnerRunId targetSessionId : String)
  kind : LegKind
  expectsReply : Bool
  responseState : ResponseState
  body : String
  bodyChars : Nat
  (bodySha256 idempotencyKey : String)
  status : LegStatus := .registered
  queuedId : Option String := none
  queuePosition : Option Int := none
  targetRunId : Option String := none
  lifecycleStatus : String := ""
  errorCode : Option String := none
  error : Option String := none
  (createdAt updatedAt : String)
  deriving DecidableEq

/-- A row of `cross_chat_route_rate_events`. -/
structure RateEvent where
  (effectId sourceSessionId targetSessionId : String)
  acceptedAtEpoch : Rat

structure Store where
  exchanges : Table Exchange String Exchange.id
  legs : Table Leg String Leg.id
  rateEvents : Table RateEvent String RateEvent.effectId

def Store.empty : Store := ⟨.empty, .empty, .empty⟩

/-- What a transaction raises. -/
inductive Err where
  | http (statusCode : Nat) (detail : String)
  | value (message : String)
  | runtime (message : String)
  | integrity
  deriving DecidableEq

/-- The columns of two legs that a unique index of the schema forbids to agree. -/
def Leg.clashes (l l' : Leg) : Bool :=
  (l.exchangeId = l'.exchangeId && (l.ordinal = l'.ordinal || l.sourceRunId = l'.sourceRunId
    || l.idempotencyKey = l'.idempotencyKey))
  || (l.parentLegId.isSome && l.parentLegId = l'.parentLegId)

/-- `INSERT INTO cross_chat_exchanges`. -/
def insertExchange (s : Store) (e : Exchange) : Except Err Store :=
  if e.initialAction ∈ ["instruction", "request_reply"] ∧ 0 < e.maxLegs ∧ e.maxLegs ≤ 6 ∧
      e.usedLegs ≤ e.maxLegs ∧ e.requesterSessionId ≠ e.responderSessionId then
    match s.exchanges.insert? e with
    | some t => .ok { s with exchanges := t }
    | none => .error .integrity
  else .error .integrity

/-- `INSERT INTO cross_chat_exchange_legs`. -/
def insertLeg (s : Store) (l : Leg) : Except Err Store :=
  if (s.exchanges.find? l.exchangeId).isSome ∧ l.sourceSessionId ≠ l.targetSessionId ∧
      ∀ l' ∈ s.legs.rows, ¬ l'.clashes l then
    match s.legs.insert? l with
    | some t => .ok { s with legs := t }
    | none => .error .integrity
  else .error .integrity

/-- `UPDATE cross_chat_exchanges`. -/
def Store.updateExchanges (s : Store) (p : Exchange → Bool) (f : Exchange → Exchange)
    (hf : ∀ e, (f e).id = e.id) : Store :=
  { s with exchanges := s.exchanges.updateWhere p f hf }

/-- `UPDATE cross_chat_exchange_legs`. -/
def Store.updateLegs (s : Store) (p : Leg → Bool) (f : Leg → Leg) (hf : ∀ l, (f l).id = l.id) :
    Store :=
  { s with legs := s.legs.updateWhere p f hf }

lemma mem_updateExchanges {s : Store} {p : Exchange → Bool} {f : Exchange → Exchange}
    {hf : ∀ e, (f e).id = e.id} {e' : Exchange} :
    e' ∈ (s.updateExchanges p f hf).exchanges ↔ ∃ e ∈ s.exchanges, (if p e then f e else e) = e' :=
  List.mem_map

lemma mem_updateLegs {s : Store} {p : Leg → Bool} {f : Leg → Leg} {hf : ∀ l, (f l).id = l.id}
    {l' : Leg} : l' ∈ (s.updateLegs p f hf).legs ↔ ∃ l ∈ s.legs, (if p l then f l else l) = l' :=
  List.mem_map

lemma insertExchange_ok {s s' : Store} {e : Exchange} (h : insertExchange s e = .ok s') :
    (0 < e.maxLegs ∧ e.usedLegs ≤ e.maxLegs ∧ e.requesterSessionId ≠ e.responderSessionId) ∧
      ∃ t, s.exchanges.insert? e = some t ∧ s' = { s with exchanges := t } := by
  unfold insertExchange at h
  split at h
  · rename_i hc
    split at h
    · rename_i t ht
      cases h; exact ⟨⟨hc.2.1, hc.2.2.2.1, hc.2.2.2.2⟩, t, ht, rfl⟩
    · cases h
  · cases h

lemma insertLeg_ok {s s' : Store} {l : Leg} (h : insertLeg s l = .ok s') :
    ((∃ e ∈ s.exchanges, e.id = l.exchangeId) ∧ l.sourceSessionId ≠ l.targetSessionId ∧
      ∀ l' ∈ s.legs, l'.clashes l = false) ∧
      ∃ t, s.legs.insert? l = some t ∧ s' = { s with legs := t } := by
  unfold insertLeg at h
  split at h
  · rename_i hc
    obtain ⟨hx, hne, hclash⟩ := hc
    split at h
    · rename_i t ht
      cases h
      obtain ⟨e, he⟩ := Option.isSome_iff_exists.1 hx
      refine ⟨⟨⟨e, Table.find?_mem he, Table.find?_key he⟩, hne, fun l' hl' => ?_⟩, t, ht, rfl⟩
      exact Bool.eq_false_iff.2 (hclash l' hl')
    · cases h
  · cases h

end CrossChat
