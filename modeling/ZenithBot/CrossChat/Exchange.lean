import ZenithBot.CrossChat.Store

/-! The exchange transactions of `CrossChatStore`, one function each. A function returns the store it
    leaves behind and what it returns or raises; a transaction that raises inside is rolled back and
    leaves `s`. Two of them commit an expiry first and raise 410 afterwards.

    Clock readings are ISO timestamps compared as text, generated leg ids and the server's instance
    id are arguments, and `sha256` of a body is a parameter. -/

namespace CrossChat

variable (sha256 : String → String) (s : Store)

/-- `CROSS_CHAT_SOURCE_USER_INSTRUCTION_MAX_CHARS`. -/
def sourceUserInstructionMaxChars : Nat := 100000

/-- `validated_cross_chat_source_user_instruction`. -/
def validatedSourceUserInstruction (instruction : String) : Except Err String :=
  if sourceUserInstructionMaxChars < instruction.length then
    .error (.http 413 "source user instruction is too large for cross-chat delivery")
  else .ok instruction

/-- `PROVIDER_CROSS_CHAT_ROUTE_ID_RE.fullmatch`. -/
def isRouteId (id : String) : Bool :=
  id.toList.take 6 = "route_".toList && (id.toList.drop 6).length = 32 &&
    (id.toList.drop 6).all fun c => c.isDigit || ('a' ≤ c && c ≤ 'f')

def createExchangeObligation (exchangeId requesterSessionId authorizationSourceRunId
    responderSessionId : String) (maxLegs : Nat) (expiresAt sourceUserInstruction : String)
    (timestamp : String) : Store × Except Err (Option Exchange) :=
  match validatedSourceUserInstruction sourceUserInstruction with
  | .error e => (s, .error e)
  | .ok sourceUserInstruction =>
    match s.exchanges.find? exchangeId with
    | some record =>
      if record.requesterSessionId ≠ requesterSessionId
          ∨ record.authorizationSourceRunId ≠ authorizationSourceRunId
          ∨ record.responderSessionId ≠ responderSessionId
          ∨ record.sourceUserInstruction ≠ sourceUserInstruction then
        (s, .error (.http 409 "exchange id is already bound to another authorization"))
      else (s, .ok (some record))
    | none =>
      let e : Exchange := {
        id := exchangeId, requesterSessionId, responderSessionId, authorizationSourceRunId,
        sourceUserInstruction, status := .waitingRequest, maxLegs, usedLegs := 0,
        activeLegId := none, expiresAt, createdAt := timestamp, updatedAt := timestamp }
      match insertExchange s e with
      | .error err => (s, .error err)
      | .ok s' => (s', .ok (s'.exchanges.find? exchangeId))

/-- `PROVIDER_CROSS_CHAT_ROUTE_RATE_LIMIT`. -/
def routeRateLimit : Nat := 12

/-- `PROVIDER_CROSS_CHAT_ROUTE_RATE_WINDOW_SECONDS`. -/
def routeRateWindowSeconds : Rat := 3600

def chargeConfiguredRouteRate (effectId sourceSessionId targetSessionId : String)
    (acceptedAtEpoch : Rat) : Except Err Store :=
  match s.rateEvents.find? effectId with
  | some existing =>
    if existing.sourceSessionId ≠ sourceSessionId ∨ existing.targetSessionId ≠ targetSessionId then
      .error (.http 409 "configured route effect id is already bound")
    else .ok s
  | none =>
    let cutoff := acceptedAtEpoch - routeRateWindowSeconds
    let kept := s.rateEvents.deleteWhere fun r => r.acceptedAtEpoch < cutoff
    let sourceCount := kept.countWhere fun r =>
      r.sourceSessionId = sourceSessionId && cutoff ≤ r.acceptedAtEpoch
    let targetCount := kept.countWhere fun r =>
      r.targetSessionId = targetSessionId && cutoff ≤ r.acceptedAtEpoch
    if routeRateLimit ≤ sourceCount ∨ routeRateLimit ≤ targetCount then
      .error (.http 429 "agent cross-chat handoff rate limit exceeded")
    else match kept.insert? { effectId, sourceSessionId, targetSessionId, acceptedAtEpoch } with
    | none => .error .integrity
    | some t => .ok { s with rateEvents := t }

/-- An exchange of a configured route and its first leg. -/
def createRouteExchangeRequest (exchangeId legId requesterSessionId
    authorizationSourceRunId responderSessionId body idempotencyKey : String) (maxLegs : Nat)
    (expiresAt authorizationRouteId initialAction sourceUserInstruction : String)
    (liveResponseLease : Bool) (serverInstanceId : String) (acceptedAtEpoch : Rat)
    (timestamp : String) : Store × Except Err (Option Exchange × Option Leg × Bool) :=
  match validatedSourceUserInstruction sourceUserInstruction with
  | .error e => (s, .error e)
  | .ok sourceUserInstruction =>
  if !isRouteId authorizationRouteId then
    (s, .error (.value "configured route exchange requires a route id"))
  else if initialAction ∉ ["instruction", "request_reply"] then
    (s, .error (.value "configured route exchange has an invalid initial action"))
  else match s.exchanges.find? exchangeId with
  | some exchange =>
    match s.legs.find? legId with
    | none => (s, .error (.http 409 "route exchange is missing its initial request"))
    | some leg =>
      if exchange.requesterSessionId ≠ requesterSessionId
          ∨ exchange.authorizationSourceRunId ≠ authorizationSourceRunId
          ∨ exchange.responderSessionId ≠ responderSessionId
          ∨ exchange.maxLegs ≠ maxLegs
          ∨ exchange.expiresAt ≠ expiresAt
          ∨ exchange.authorizationKind ≠ "configured_route"
          ∨ exchange.authorizationRouteId ≠ some authorizationRouteId
          ∨ exchange.initialAction ≠ initialAction
          ∨ exchange.sourceUserInstruction ≠ sourceUserInstruction
          ∨ exchange.liveResponseRequested ≠ liveResponseLease
          ∨ leg.exchangeId ≠ exchangeId
          ∨ leg.ordinal ≠ 1
          ∨ leg.sourceSessionId ≠ requesterSessionId
          ∨ leg.sourceRunId ≠ authorizationSourceRunId
          ∨ leg.targetSessionId ≠ responderSessionId
          ∨ leg.body ≠ body
          ∨ leg.idempotencyKey ≠ idempotencyKey then
        (s, .error (.http 409
          "idempotency key was already used for a different route exchange request"))
      else (s, .ok (some exchange, some leg, false))
  | none =>
    match chargeConfiguredRouteRate s exchangeId requesterSessionId responderSessionId
        acceptedAtEpoch with
    | .error e => (s, .error e)
    | .ok s₁ =>
      let e : Exchange := {
        id := exchangeId, requesterSessionId, responderSessionId, authorizationSourceRunId,
        authorizationKind := "configured_route", authorizationRouteId := some authorizationRouteId,
        initialAction, sourceUserInstruction, liveResponseRequested := liveResponseLease,
        liveResponseLease, status := .active, maxLegs, usedLegs := 1, activeLegId := some legId,
        liveResponseInstanceId := if liveResponseLease then serverInstanceId else "",
        expiresAt, createdAt := timestamp, updatedAt := timestamp }
      let l : Leg := {
        id := legId, exchangeId, parentLegId := none, ordinal := 1,
        sourceSessionId := requesterSessionId, sourceRunId := authorizationSourceRunId,
        sourceOwnerRunId := authorizationSourceRunId, targetSessionId := responderSessionId,
        kind := .request, expectsReply := initialAction = "request_reply",
        responseState := .opened, body, bodyChars := body.length, bodySha256 := sha256 body,
        idempotencyKey, createdAt := timestamp, updatedAt := timestamp }
      match insertExchange s₁ e with
      | .error err => (s, .error err)
      | .ok s₂ =>
        match insertLeg s₂ l with
        | .error err => (s, .error err)
        | .ok s₃ => (s₃, .ok (s₃.exchanges.find? exchangeId, s₃.legs.find? legId, true))

/-- The queued source of waiting exchanges became a run. -/
def rebindExchangeSourceRun (exchangeIds : List String)
    (oldSourceRunId newSourceRunId timestamp : String) : Store × Except Err Unit :=
  if exchangeIds = [] then (s, .ok ())
  else
    let hit := fun e : Exchange => decide (e.authorizationSourceRunId = oldSourceRunId)
      && decide (e.id ∈ exchangeIds) && decide (e.status = .waitingRequest)
    if s.exchanges.countWhere hit ≠ exchangeIds.length then
      (s, .error (.runtime "cross-chat exchanges changed before source run binding"))
    else (s.updateExchanges hit (fun e => { e with
      authorizationSourceRunId := newSourceRunId, updatedAt := timestamp }) fun _ => rfl, .ok ())

/-- A lost synchronous wait becomes durable asynchronous delivery. -/
def downgradeLiveExchange (exchangeId activeLegId expectedInstanceId timestamp : String) :
    Store × Except Err (Option Exchange × Bool) :=
  let hit := fun e : Exchange => decide (e.id = exchangeId) && decide (e.status = .active)
    && decide (e.activeLegId = some activeLegId) && e.liveResponseLease
    && decide (e.liveResponseInstanceId = expectedInstanceId)
  let s' := s.updateExchanges hit (fun e => { e with
    liveResponseLease := false, liveResponseInstanceId := "", updatedAt := timestamp }) fun _ => rfl
  (s', .ok (s'.exchanges.find? exchangeId, s.exchanges.countWhere hit = 1))

/-- The assignment that ends an exchange. -/
def Exchange.settle (status : ExchangeStatus) (errorCode error : Option String)
    (timestamp : String) (e : Exchange) : Exchange :=
  { e with status, errorCode, error, lifecycleStatus := "", updatedAt := timestamp }

/-- The assignment that ends the delivery of a leg. -/
def Leg.settle (status : LegStatus) (errorCode error : Option String) (timestamp : String)
    (l : Leg) : Leg :=
  { l with status, errorCode, error, lifecycleStatus := "", updatedAt := timestamp }

/-- The leg takes no response any more. -/
def Leg.close (timestamp : String) (l : Leg) : Leg :=
  { l with responseState := .closed, updatedAt := timestamp }

/-- End the exchanges that satisfy `p`. -/
def Store.settle (s : Store) (p : Exchange → Bool) (status : ExchangeStatus)
    (errorCode error : Option String) (timestamp : String) : Store :=
  s.updateExchanges p (Exchange.settle status errorCode error timestamp) fun _ => rfl

/-- The authorized request of a waiting exchange. -/
def createInitialExchangeLeg (exchangeId sourceSessionId sourceRunId targetSessionId
    body idempotencyKey : String) (liveResponseLease : Bool)
    (legId serverInstanceId timestamp : String) :
    Store × Except Err (Option Exchange × Option Leg × Bool) :=
  match s.exchanges.find? exchangeId with
  | none => (s, .error (.http 404 "cross-chat exchange was not found"))
  | some exchange =>
    match s.legs.rows.find? fun l => l.exchangeId = exchangeId && l.sourceRunId = sourceRunId with
    | some leg =>
      if leg.ordinal ≠ 1 ∨ leg.sourceSessionId ≠ sourceSessionId
          ∨ leg.targetSessionId ≠ targetSessionId ∨ leg.body ≠ body
          ∨ leg.idempotencyKey ≠ idempotencyKey
          ∨ exchange.liveResponseRequested ≠ liveResponseLease then
        (s, .error (.http 409
          "idempotency key was already used for a different exchange request"))
      else (s, .ok (some exchange, some leg, false))
    | none =>
      if exchange.status ≠ .waitingRequest then
        (s, .error (.http 409 "exchange request was already committed"))
      else if exchange.authorizationSourceRunId ≠ sourceRunId then
        (s, .error (.http 403 "exchange is bound to another source run"))
      else if exchange.requesterSessionId ≠ sourceSessionId
          ∨ exchange.responderSessionId ≠ targetSessionId then
        (s, .error (.http 403 "exchange participants do not match the grant"))
      else if exchange.expiresAt ≤ timestamp then
        -- the expiry is committed before the 410 is raised
        (s.settle (fun e => e.id = exchangeId && e.status = .waitingRequest) .expired
          (some "expired") (some "exchange authorization expired before it was sent") timestamp,
          .error (.http 410 "cross-chat exchange expired"))
      else
        let l : Leg := {
          id := legId, exchangeId, parentLegId := none, ordinal := 1, sourceSessionId, sourceRunId,
          sourceOwnerRunId := sourceRunId, targetSessionId, kind := .request, expectsReply := true,
          responseState := .opened, body, bodyChars := body.length, bodySha256 := sha256 body,
          idempotencyKey, createdAt := timestamp, updatedAt := timestamp }
        match insertLeg s l with
        | .error err => (s, .error err)
        | .ok s₁ =>
          let s₂ := s₁.updateExchanges (fun e => e.id = exchangeId && e.status = .waitingRequest)
            (fun e => { e with
              status := .active, usedLegs := 1, activeLegId := some legId,
              liveResponseRequested := liveResponseLease, liveResponseLease := liveResponseLease,
              liveResponseInstanceId := if liveResponseLease then serverInstanceId else "",
              errorCode := none, error := none, updatedAt := timestamp }) fun _ => rfl
          (s₂, .ok (s₂.exchanges.find? exchangeId, s₂.legs.find? legId, true))

def responseKind (requestResponse : Bool) : LegKind := if requestResponse then .request else .reply

/-- A response that asks for another one needs a leg for that one too. -/
def requiredSlots (requestResponse : Bool) : Nat := if requestResponse then 2 else 1

def committedState (automatic : Bool) : ResponseState :=
  if automatic then .automaticCommitted else .explicitCommitted

/-- The run a leg was sent by; legs from before the column existed carry it as their source run. -/
def Leg.ownerRunId (l : Leg) : String :=
  if l.sourceOwnerRunId = "" then l.sourceRunId else l.sourceOwnerRunId

/-- Under a live lease one run answers several legs, so its durable run id is made unique. -/
def durableSourceRunId (exchange : Exchange) (sourceRunId : String) : String :=
  if exchange.liveResponseLease then
    sourceRunId ++ ":live:" ++ toString (exchange.usedLegs + 1)
  else sourceRunId

/-- The inbound leg once it has its response. -/
def Leg.answered (automatic : Bool) (timestamp : String) (l : Leg) : Leg :=
  { l with responseState := committedState automatic, updatedAt := timestamp }

def responseLeg (exchange : Exchange) (inbound : Leg) (sourceSessionId sourceRunId body : String)
    (requestResponse : Bool) (idempotencyKey legId timestamp : String) : Leg := {
  id := legId, exchangeId := exchange.id, parentLegId := some inbound.id,
  ordinal := exchange.usedLegs + 1, sourceSessionId,
  sourceRunId := durableSourceRunId exchange sourceRunId, sourceOwnerRunId := sourceRunId,
  targetSessionId := inbound.sourceSessionId, kind := responseKind requestResponse,
  expectsReply := requestResponse, responseState := .opened, body, bodyChars := body.length,
  bodySha256 := sha256 body, idempotencyKey, createdAt := timestamp, updatedAt := timestamp }

/-- The writes of an accepted response: the inbound leg is answered, the response is the next leg
    and the active one. -/
def recordResponse (exchange : Exchange) (inbound : Leg) (sourceSessionId sourceRunId
    body : String) (requestResponse : Bool) (idempotencyKey : String) (automatic : Bool)
    (legId timestamp : String) : Except Err Store :=
  let s₁ := s.updateLegs (fun l => l.id = inbound.id && l.responseState = .opened)
    (Leg.answered automatic timestamp) fun _ => rfl
  match insertLeg s₁ (responseLeg sha256 exchange inbound sourceSessionId sourceRunId body
      requestResponse idempotencyKey legId timestamp) with
  | .error err => .error err
  | .ok s₂ => .ok (s₂.updateExchanges (fun e => e.id = exchange.id && e.status = .active)
      (fun e => { e with
        usedLegs := exchange.usedLegs + 1, activeLegId := some legId, updatedAt := timestamp })
      fun _ => rfl)

/-- The one response to an inbound leg, which becomes the next leg. -/
def commitExchangeResponse (exchangeId inboundLegId sourceSessionId sourceRunId
    body : String) (requestResponse : Bool) (idempotencyKey : String) (automatic : Bool)
    (legId timestamp : String) : Store × Except Err (Option Exchange × Option Leg × Bool) :=
  match s.exchanges.find? exchangeId,
    (s.legs.find? inboundLegId).filter (·.exchangeId = exchangeId) with
  | some exchange, some inbound =>
    match s.legs.rows.find? fun l => l.parentLegId = some inboundLegId with
    | some existing =>
      if existing.ownerRunId = sourceRunId ∧ existing.sourceSessionId = sourceSessionId
          ∧ existing.body = body ∧ existing.kind = responseKind requestResponse
          ∧ existing.idempotencyKey = idempotencyKey then
        (s, .ok (some exchange, some existing, false))
      else (s, .error (.http 409 "response_already_committed"))
    | none =>
      if exchange.status ≠ .active then
        if exchange.status = .expired then (s, .error (.http 410 "expired"))
        else (s, .error (.http 409 "response_already_committed"))
      else if exchange.expiresAt ≤ timestamp ∧ !exchange.liveResponseRequested then
        -- the expiry is committed before the 410 is raised
        (s.settle (fun e => e.id = exchangeId && e.status = .active) .expired (some "expired")
          (some "exchange expired") timestamp,
          .error (.http 410 "expired"))
      else if inbound.responseState ≠ .opened then
        (s, .error (.http 409 "response_already_committed"))
      else if automatic && !inbound.expectsReply then
        (s, .error (.http 409 "response_already_committed"))
      else if inbound.targetSessionId ≠ sourceSessionId ∨ inbound.targetRunId ≠ some sourceRunId
          ∨ inbound.status ∉ [.running, .delivered] then
        (s, .error (.http 403 "response is not bound to this live delivery run"))
      else if ¬ ((sourceSessionId = exchange.requesterSessionId
              ∧ inbound.sourceSessionId = exchange.responderSessionId)
            ∨ (sourceSessionId = exchange.responderSessionId
              ∧ inbound.sourceSessionId = exchange.requesterSessionId))
          ∨ inbound.sourceSessionId = sourceSessionId then
        (s, .error (.http 403 "exchange participant pair is invalid"))
      else if exchange.maxLegs < exchange.usedLegs + requiredSlots requestResponse then
        (s, .error (.http 409 "budget_exhausted"))
      else
        match recordResponse sha256 s exchange inbound sourceSessionId sourceRunId body
            requestResponse idempotencyKey automatic legId timestamp with
        | .error err => (s, .error err)
        | .ok s' => (s', .ok (s'.exchanges.find? exchangeId, s'.legs.find? legId, true))
  | _, _ => (s, .error (.http 404 "cross-chat exchange leg was not found"))

/-! ### Updates and endings -/

/-- The columns `update_exchange_leg` may set; `none` leaves the column alone. -/
structure LegPatch where
  status : Option LegStatus := none
  queuedId : Option (Option String) := none
  queuePosition : Option (Option Int) := none
  targetRunId : Option (Option String) := none
  responseState : Option ResponseState := none
  lifecycleStatus : Option String := none
  errorCode : Option (Option String) := none
  error : Option (Option String) := none
  deriving DecidableEq

def LegPatch.apply (p : LegPatch) (timestamp : String) (l : Leg) : Leg :=
  { l with
    status := p.status.getD l.status, queuedId := p.queuedId.getD l.queuedId,
    queuePosition := p.queuePosition.getD l.queuePosition,
    targetRunId := p.targetRunId.getD l.targetRunId,
    responseState := p.responseState.getD l.responseState,
    lifecycleStatus := p.lifecycleStatus.getD l.lifecycleStatus,
    errorCode := p.errorCode.getD l.errorCode, error := p.error.getD l.error,
    updatedAt := timestamp }

/-- A terminal status resets the lifecycle marker unless the caller sets it. -/
def LegPatch.effective (p : LegPatch) : LegPatch :=
  if p.status.any LegStatus.terminal && p.lifecycleStatus.isNone then
    { p with lifecycleStatus := some "" }
  else p

/-- An empty `expected` puts no condition on the status. -/
def updateExchangeLeg (legId : String) (expected : List LegStatus) (changes : LegPatch)
    (timestamp : String) : Store × Except Err (Option Leg) :=
  if changes = {} then (s, .ok (s.legs.find? legId))
  else
    let hit := fun l : Leg => decide (l.id = legId)
      && (decide (expected = []) || decide (l.status ∈ expected))
    if s.legs.countWhere hit = 0 then (s, .ok none)
    else
      let s' := s.updateLegs hit (changes.effective.apply timestamp) fun _ => rfl
      (s', .ok (s'.legs.find? legId))

/-- The columns `update_exchange` may set; `none` leaves the column alone. -/
structure ExchangePatch where
  status : Option ExchangeStatus := none
  usedLegs : Option Nat := none
  activeLegId : Option (Option String) := none
  lifecycleStatus : Option String := none
  errorCode : Option (Option String) := none
  error : Option (Option String) := none
  deriving DecidableEq

def ExchangePatch.apply (p : ExchangePatch) (timestamp : String) (e : Exchange) : Exchange :=
  { e with
    status := p.status.getD e.status, usedLegs := p.usedLegs.getD e.usedLegs,
    activeLegId := p.activeLegId.getD e.activeLegId,
    lifecycleStatus := p.lifecycleStatus.getD e.lifecycleStatus,
    errorCode := p.errorCode.getD e.errorCode, error := p.error.getD e.error,
    updatedAt := timestamp }

/-- A terminal status resets the lifecycle marker unless the caller sets it. -/
def ExchangePatch.effective (p : ExchangePatch) : ExchangePatch :=
  if p.status.any ExchangeStatus.terminal && p.lifecycleStatus.isNone then
    { p with lifecycleStatus := some "" }
  else p

/-- An empty `expected` puts no condition on the status. -/
def updateExchange (exchangeId : String) (expected : List ExchangeStatus)
    (changes : ExchangePatch) (timestamp : String) : Store × Except Err (Option Exchange) :=
  if changes = {} then (s, .ok (s.exchanges.find? exchangeId))
  else
    let hit := fun e : Exchange => decide (e.id = exchangeId)
      && (decide (expected = []) || decide (e.status ∈ expected))
    if s.exchanges.countWhere hit = 0 then (s, .ok none)
    else
      let s' := s.updateExchanges hit (changes.effective.apply timestamp) fun _ => rfl
      if ∀ e ∈ s'.exchanges.rows, e.usedLegs ≤ e.maxLegs then
        (s', .ok (s'.exchanges.find? exchangeId))
      else (s, .error .integrity)

/-- Cancel only the leg that still owns this queue row. -/
def cancelExactQueuedExchangeLeg (exchangeId legId targetSessionId queuedId errorCode
    error timestamp : String) : Store × Except Err (Option (Option Exchange × Option Leg)) :=
  let owns := fun l : Leg => decide (l.id = legId) && decide (l.exchangeId = exchangeId)
    && decide (l.targetSessionId = targetSessionId) && decide (l.queuedId = some queuedId)
    && decide (l.status = .queued)
  match s.legs.rows.find? owns, s.exchanges.find? exchangeId with
  | some leg, some exchange =>
    if leg.kind ≠ .status ∧ exchange.status = .active ∧ exchange.activeLegId ≠ some legId then
      (s, .ok none)
    else
      let s₁ := s.updateLegs owns (fun l => (l.settle .cancelled (some errorCode) (some error)
        timestamp).close timestamp) fun _ => rfl
      let s₂ :=
        if leg.kind ≠ .status ∧ exchange.status = .active then
          s₁.settle (fun e => e.id = exchangeId && e.status = .active
            && e.activeLegId = some legId) .cancelled (some errorCode) (some error) timestamp
        else s₁
      (s₂, .ok (some (s₂.exchanges.find? exchangeId, s₂.legs.find? legId)))
  | _, _ => (s, .ok none)

/-- How an exchange is broken off. -/
inductive Ending where
  | failed | cancelled | expired
  deriving DecidableEq

def Ending.exchange : Ending → ExchangeStatus
  | .failed => .failed
  | .cancelled => .cancelled
  | .expired => .expired

def Ending.leg : Ending → LegStatus
  | .failed => .failed
  | .cancelled => .cancelled
  | .expired => .expired

/-- Close routing and the latest outbound leg. -/
def cancelExchange (exchangeId : String) (status : Ending) (errorCode error timestamp : String) :
    Store × Except Err (Option (Option Exchange × Option Leg)) :=
  match s.exchanges.find? exchangeId with
  | none => (s, .ok none)
  | some exchange =>
    let activeLegId := exchange.activeLegId.getD ""
    let leg? := if activeLegId = "" then none else s.legs.find? activeLegId
    let s' :=
      if exchange.status.terminal then s
      else
        let s₁ := s.settle
          (fun e => e.id = exchangeId && (e.status = .waitingRequest || e.status = .active))
          status.exchange (some errorCode) (some error) timestamp
        match leg? with
        | none => s₁
        | some leg =>
          if leg.status ∈ [.registered, .submitting, .queued] then
            s₁.updateLegs
              (fun l => l.id = activeLegId && l.status ∈ [.registered, .submitting, .queued])
              (fun l => (l.settle status.leg (some errorCode) (some error) timestamp).close timestamp)
              fun _ => rfl
          else if leg.status = .running then
            s₁.updateLegs (fun l => l.id = activeLegId && l.status = .running)
              (Leg.close timestamp) fun _ => rfl
          else s₁
    let exchange' := s'.exchanges.find? exchangeId
    (s', .ok (some (exchange', exchange'.bind fun e => e.activeLegId.bind s'.legs.find?)))

inductive LegEnd where
  | delivered
  | broken (e : Ending)
  deriving DecidableEq

def LegEnd.leg : LegEnd → LegStatus
  | .delivered => .delivered
  | .broken e => e.leg

/-- A failed run does not undo the response it has already committed: the leg counts as delivered. -/
def preservesResponse (leg : Leg) (status : LegEnd) (preserveCommittedResponse : Bool) : Bool :=
  preserveCommittedResponse && decide (status = .broken .failed) && leg.responseState.committed

def effectiveEnd (leg : Leg) (status : LegEnd) (preserveCommittedResponse : Bool) : LegEnd :=
  if preservesResponse leg status preserveCommittedResponse then .delivered else status

def effectiveError (leg : Leg) (status : LegEnd) (preserveCommittedResponse : Bool)
    (error : Option String) : Option String :=
  if preservesResponse leg status preserveCommittedResponse then none else error

/-- The delivery run of a leg ended. -/
def finishExchangeLeg (legId : String) (status : LegEnd)
    (errorCode error : Option String) (preserveCommittedResponse : Bool) (timestamp : String) :
    Store × Except Err (Option (Option Exchange × Option Leg)) :=
  match s.legs.find? legId with
  | none => (s, .ok none)
  | some leg =>
    if leg.status.terminal then
      (s, .ok ((s.exchanges.find? leg.exchangeId).map fun e => (some e, some leg)))
    else
      let effective := effectiveEnd leg status preserveCommittedResponse
      let s₁ := s.updateLegs
        (fun l => l.id = legId && l.status ∈ [.registered, .submitting, .queued, .running])
        (Leg.settle effective.leg (effectiveError leg status preserveCommittedResponse errorCode)
          (effectiveError leg status preserveCommittedResponse error) timestamp) fun _ => rfl
      let current := fun e : Exchange => decide (e.id = leg.exchangeId) && decide (e.status = .active)
      let s₂ :=
        if leg.kind ≠ .status ∧ (s.exchanges.find? leg.exchangeId).any (·.status = .active) then
          match effective with
          | .broken e => s₁.settle current e.exchange errorCode error timestamp
          | .delivered =>
            if leg.responseState = .opened ∧ !leg.expectsReply then
              (s₁.updateLegs (fun l => l.id = legId) (Leg.close timestamp) fun _ => rfl).settle
                current .completed none none timestamp
            else s₁
        else s₁
      (s₂, .ok (some (s₂.exchanges.find? leg.exchangeId, s₂.legs.find? legId)))

/-- At most one notice about the exchange, outside its chain. -/
def createExchangeStatusLeg (exchangeId sourceSessionId targetSessionId body errorCode
    legId timestamp : String) : Store × Except Err (Option Leg × Bool) :=
  match s.legs.rows.find? fun l => l.exchangeId = exchangeId && l.kind = .status with
  | some existing => (s, .ok (some existing, false))
  | none =>
    let l : Leg := {
      id := legId, exchangeId, parentLegId := none, ordinal := 0, sourceSessionId,
      sourceRunId := "status:" ++ exchangeId, sourceOwnerRunId := "status:" ++ exchangeId,
      targetSessionId, kind := .status, expectsReply := false, responseState := .closed, body,
      bodyChars := body.length, bodySha256 := sha256 body,
      idempotencyKey := "status:" ++ errorCode, errorCode := some errorCode,
      createdAt := timestamp, updatedAt := timestamp }
    match insertLeg s l with
    | .error err => (s, .error err)
    | .ok s' => (s', .ok (s'.legs.find? legId, true))

/-! ### The store as a machine -/

/-- One transaction, with everything its caller, the clock and the id generator decide. -/
inductive Op where
  | createExchangeObligation (exchangeId requesterSessionId authorizationSourceRunId
      responderSessionId : String) (maxLegs : Nat) (expiresAt sourceUserInstruction : String)
      (timestamp : String)
  | createRouteExchangeRequest (exchangeId legId requesterSessionId authorizationSourceRunId
      responderSessionId body idempotencyKey : String) (maxLegs : Nat)
      (expiresAt authorizationRouteId initialAction sourceUserInstruction : String)
      (liveResponseLease : Bool) (serverInstanceId : String) (acceptedAtEpoch : Rat)
      (timestamp : String)
  | rebindExchangeSourceRun (exchangeIds : List String)
      (oldSourceRunId newSourceRunId timestamp : String)
  | downgradeLiveExchange (exchangeId activeLegId expectedInstanceId timestamp : String)
  | createInitialExchangeLeg (exchangeId sourceSessionId sourceRunId targetSessionId body
      idempotencyKey : String) (liveResponseLease : Bool)
      (legId serverInstanceId timestamp : String)
  | commitExchangeResponse (exchangeId inboundLegId sourceSessionId sourceRunId body : String)
      (requestResponse : Bool) (idempotencyKey : String) (automatic : Bool)
      (legId timestamp : String)
  | updateExchangeLeg (legId : String) (expected : List LegStatus) (changes : LegPatch)
      (timestamp : String)
  | updateExchange (exchangeId : String) (expected : List ExchangeStatus)
      (changes : ExchangePatch) (timestamp : String)
  | cancelExactQueuedExchangeLeg (exchangeId legId targetSessionId queuedId errorCode error
      timestamp : String)
  | cancelExchange (exchangeId : String) (status : Ending) (errorCode error timestamp : String)
  | finishExchangeLeg (legId : String) (status : LegEnd) (errorCode error : Option String)
      (preserveCommittedResponse : Bool) (timestamp : String)
  | createExchangeStatusLeg (exchangeId sourceSessionId targetSessionId body errorCode legId
      timestamp : String)

/-- The store a transaction leaves behind. -/
def step : Op → Store
  | .createExchangeObligation a b c d m e f t => (createExchangeObligation s a b c d m e f t).1
  | .createRouteExchangeRequest a b c d e f g m h i j k live inst epoch t =>
    (createRouteExchangeRequest sha256 s a b c d e f g m h i j k live inst epoch t).1
  | .rebindExchangeSourceRun a b c t => (rebindExchangeSourceRun s a b c t).1
  | .downgradeLiveExchange a b c t => (downgradeLiveExchange s a b c t).1
  | .createInitialExchangeLeg a b c d e f live l inst t =>
    (createInitialExchangeLeg sha256 s a b c d e f live l inst t).1
  | .commitExchangeResponse a b c d e rr f auto l t =>
    (commitExchangeResponse sha256 s a b c d e rr f auto l t).1
  | .updateExchangeLeg a b c t => (updateExchangeLeg s a b c t).1
  | .updateExchange a b c t => (updateExchange s a b c t).1
  | .cancelExactQueuedExchangeLeg a b c d e f t => (cancelExactQueuedExchangeLeg s a b c d e f t).1
  | .cancelExchange a b c d t => (cancelExchange s a b c d t).1
  | .finishExchangeLeg a b c d e t => (finishExchangeLeg s a b c d e t).1
  | .createExchangeStatusLeg a b c d e f t => (createExchangeStatusLeg sha256 s a b c d e f t).1

/-- How the server calls the two general updates: it writes neither `used_legs` nor `active_leg_id`,
    sets only terminal statuses of an exchange, and `response_state` only to `closed`, on a leg of an
    exchange that is not active. -/
def CallerShape : Op → Prop
  | .updateExchange _ _ changes _ =>
    changes.usedLegs = none ∧ changes.activeLegId = none ∧
      ∀ st ∈ changes.status, st.terminal = true
  | .updateExchangeLeg legId _ changes _ =>
    changes.responseState = none ∨ (changes.responseState = some .closed ∧
      ∀ l ∈ s.legs.rows, l.id = legId →
        ∀ e ∈ s.exchanges.rows, e.id = l.exchangeId → e.status ≠ .active)
  | _ => True

instance (s : Store) : ∀ o, Decidable (CallerShape s o)
  | .updateExchange .. => inferInstanceAs (Decidable (_ ∧ _ ∧ _))
  | .updateExchangeLeg .. => inferInstanceAs (Decidable (_ ∨ _))
  | .createExchangeObligation .. | .createRouteExchangeRequest .. | .rebindExchangeSourceRun ..
  | .downgradeLiveExchange .. | .createInitialExchangeLeg .. | .commitExchangeResponse ..
  | .cancelExactQueuedExchangeLeg .. | .cancelExchange .. | .finishExchangeLeg ..
  | .createExchangeStatusLeg .. => isTrue trivial

end CrossChat
