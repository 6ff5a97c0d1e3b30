import Mathlib.Algebra.Group.Nat.Defs
import Mathlib.Data.List.Sort
import ZenithBot.SecurePeer.Store

/-! Routes and the relay (`secure_peer.py`): publishing and revoking routes, submitting an envelope,
    claiming an inbox under a lease, and the receipt that settles an envelope. As in the peers'
    transactions, an error rolls back, and a function that commits before it raises answers with an
    `Except`. `sha256` and `canonicalJson` are those of the standard library. -/

namespace SecurePeer
open Lib

variable {δ : Type} [DecidableEq δ] (s : Store δ) (call : Call) (peer : PeerAuthorization)

/-! ### Routes -/

/-- The validated fields of a route, its actions in canonical order. -/
def routeDescriptor (p : RoutePayload) : Except Err (Uuid × List RouteAction) := do
  let route ← uuid p.routeId "route_id"
  refuseIf (¬isRevision p.revision) (invalidRequest "route revision is invalid")
  refuseIf (¬isAlias p.routeAlias) (invalidRequest "route alias is invalid")
  let _ ← boundedText p.displayTitle "display_title" 1 160
  refuseIf (p.actions = [] ∨ ¬p.actions.Nodup) (invalidRequest "route actions are invalid")
  return (route, [RouteAction.instruction, .requestReply].filter p.actions.contains)

def routeCapacity : Err := .refused "route_capacity" "Secure route capacity is full" 503

/-- No room for one more route among those that satisfy `p`. -/
def Store.routesFull (p : Route → Bool) : Prop :=
  routeActivePerPeerLimit ≤ s.routes.countWhere (fun r => p r && r.status = .active) ∨
    routeTotalPerPeerLimit ≤ s.routes.countWhere p ∨ routeGlobalLimit ≤ s.routes.rows.length ∨
    call.databaseFull

instance (s : Store δ) (call : Call) (p : Route → Bool) : Decidable (s.routesFull call p) :=
  inferInstanceAs (Decidable (_ ∨ _))

/-- The host opens one of its chats to a peer. The route's identifier and revision, in `payload`,
    are drawn by the host. -/
def publishLocalRoute (hostServerIdentity teamId audiencePeerId
    chatId : String) (payload : RoutePayload) (publishedBy : String) :
    Except Err (Store δ × Route) := do
  let epoch ← requireCrossChat s call none
  let team ← identifier teamId "team_id"
  let audience ← uuid audiencePeerId "audience_peer_id"
  let chat ← identifier chatId "chat_id"
  let _ ← identifier publishedBy "published_by"
  let (routeId, actions) ← routeDescriptor payload
  let unavailable := Err.refused "peer_unavailable" "Route audience peer is unavailable" 404
  let peer ← getOr (s.peers.find? audience) unavailable
  refuseIf (peer.teamId ≠ team ∨ peer.status ≠ .active) unavailable
  refuseIf (peer.crossChatGrantEpoch ≠ some epoch) (.refused "cross_chat_reapproval_required"
    "Route audience peer requires fresh cross-chat approval" 403)
  refuseIf (s.routes.rows.any fun r => r.targetKind = .host && r.status = .active &&
      r.teamId = team && r.audiencePeerId = some audience &&
      (r.chatId = some chat || r.routeAlias = payload.routeAlias))
    (.refused "route_conflict" "This peer already has a route for that chat or alias" 409)
  checkAll (relayScopeOfAction peer.scopes) actions
  refuseIf (s.routesFull call fun r => r.audiencePeerId = some audience) routeCapacity
  let row : Route :=
    { id := routeId, serverIdentity := hostServerIdentity, targetKind := .host, peerId := none,
      audiencePeerId := some audience, teamId := team, revision := payload.revision,
      routeAlias := payload.routeAlias, displayTitle := payload.displayTitle, actions := actions,
      chatId := some chat, status := .active, createdAt := call.timestamp,
      updatedAt := call.timestamp }
  let s ← s.insertRoute row
  return (s, row)

/-- A peer opens one of its chats to the host. -/
def publishPeerRoute (payload : RoutePayload) : Except Err (Store δ × Route) := do
  let _ ← requireCrossChat s call (some peer)
  let (routeId, actions) ← routeDescriptor payload
  checkAll (relayScopeOfAction peer.scopes) actions
  match s.routes.find? routeId with
  | some existing =>
    -- the digests compared by the source are those of these five fields
    refuseIf (existing.peerId ≠ peer.peerId ∨ peer.peerId = none ∨
        existing.revision ≠ payload.revision ∨ existing.routeAlias ≠ payload.routeAlias ∨
        existing.displayTitle ≠ payload.displayTitle ∨ existing.actions ≠ actions)
      (.refused "idempotency_conflict" "route_id was reused with different content" 409)
    return (s, existing)
  | none =>
    refuseIf (s.routesFull call fun r => r.peerId.isSome && r.peerId = peer.peerId) routeCapacity
    -- an owner that is no peer violates the foreign key
    let owner ← getOr peer.peerId .integrity
    let row : Route :=
      { id := routeId, serverIdentity := peer.peerServerIdentity, targetKind := .peer,
        peerId := some owner, audiencePeerId := none, teamId := peer.teamId,
        revision := payload.revision, routeAlias := payload.routeAlias,
        displayTitle := payload.displayTitle, actions := actions, chatId := none,
        status := .active, createdAt := call.timestamp, updatedAt := call.timestamp }
    let s ← s.insertRoute row
    return (s, row)

/-- The envelope travels on the route. -/
def Letter.on (e : Letter δ) (route : Uuid) : Bool :=
  e.sourceRouteId = route || e.targetRouteId = route

namespace Store

/-- What `revoke_route` and `revoke_peer_route` do once the row to revoke is found: revoke it,
    expire the open exchanges that have an envelope on it, then those envelopes. -/
def retireRoute (route : Uuid) (revision : String) (timestamp : Nat) : Store δ :=
  let s := s.revokeRoutes (fun r => r.id = route) (fun _ => revision) timestamp
  let s := s.expireExchanges fun x =>
    s.envelopes.rows.any fun e => e.exchangeId = x.id && e.on route
  s.expireEnvelopes fun e => e.on route

end Store

def revokeRoute (routeId teamId expectedRevision revokedBy
    nextRevision : String) : Except Err (Store δ) := do
  let _ ← requireCrossChat s call none
  let route ← uuid routeId "route_id"
  let team ← identifier teamId "team_id"
  let _ ← identifier revokedBy "revoked_by"
  refuseIf (¬isRevision expectedRevision) (invalidRequest "expected route revision is invalid")
  refuseIf (¬s.routes.rows.any fun r => r.id = route && r.teamId = team &&
      r.revision = expectedRevision && r.status = .active)
    (.refused "route_changed" "Local route is unavailable or changed" 409)
  return s.retireRoute route nextRevision call.timestamp

def revokePeerRoute (routeId expectedRevision nextRevision : String) : Except Err (Store δ) := do
  let _ ← requireCrossChat s call (some peer)
  let route ← uuid routeId "route_id"
  refuseIf (¬isRevision expectedRevision) (invalidRequest "expected route revision is invalid")
  refuseIf (¬s.routes.rows.any fun r => r.id = route && r.peerId.isSome && r.peerId = peer.peerId &&
      r.teamId = peer.teamId && r.revision = expectedRevision && r.status = .active)
    (.refused "route_changed" "Peer route is unavailable or changed" 409)
  return s.retireRoute route nextRevision call.timestamp

/-- The answer is the number of routes retired. -/
def retireAgentRoutesLocally (revision : Uuid → String) : Store δ × Nat :=
  (s.retireAllRoutes (fun r => revision r.id) call.timestamp,
    s.routes.countWhere fun r => r.status = .active)

/-! ### Submission -/

/-- The payload of a submission after its checks. -/
structure Submission where
  (requestId sourceRouteId targetRouteId : Uuid)
  kind : RelayKind
  (exchangeId parentEnvelopeId : Option Uuid)

section Submit
variable (canonicalJson : EnvelopePayload → String) (sha256 : String → δ) (s : Store δ) (call : Call)
  (peer : PeerAuthorization)

/-- The checks `submit_envelope` makes before it opens its transaction. -/
def checkSubmission (payload : EnvelopePayload)
    (localRoute : Option Uuid) : Except Err Submission := do
  let requestId ← uuid payload.requestId "request_id"
  let sourceRouteId ← uuid payload.sourceRouteId "source_route_id"
  refuseIf (localRoute.any fun r => sourceRouteId ≠ r)
    (.refused "route_unavailable" "Source route does not match local authorization" 409)
  let targetRouteId ← uuid payload.targetRouteId "target_route_id"
  let kind ← getOr (RelayKind.ofText payload.kind) (invalidRequest "relay kind is invalid")
  relayScope peer.scopes kind
  refuseIf (¬isRevision payload.targetRouteRevision)
    (invalidRequest "target route revision is invalid")
  let exchangeId ← optionalUuid payload.exchangeId "exchange_id"
  let parentEnvelopeId ← optionalUuid payload.parentEnvelopeId "parent_envelope_id"
  refuseIf (¬(call.timestamp < payload.expiresAt ∧
      payload.expiresAt ≤ call.timestamp + maxRelayTtlSeconds))
    (invalidRequest "expires_at is outside the 72 hour bound")
  refuseIf (Py.blank payload.message ∨ 100000 < payload.message.length)
    (invalidRequest "relay body must contain exactly one bounded message")
  refuseIf (maxProxyBodyBytes < (canonicalJson payload).utf8ByteSize)
    (.refused "request_too_large" "Relay envelope is too large" 413)
  return ⟨requestId, sourceRouteId, targetRouteId, kind, exchangeId, parentEnvelopeId⟩

/-- The active route the submission comes from: the peer's own, or the host's named one. -/
def sourceRouteOf (sub : Submission) (localRoute : Option Uuid) : Option Route :=
  match localRoute with
  | none => (s.routes.find? sub.sourceRouteId).filter fun r => r.peerId.isSome &&
      r.peerId = peer.peerId && r.teamId = peer.teamId && r.targetKind = .peer && r.status = .active
  | some route => (s.routes.find? route).filter fun r => r.teamId = peer.teamId &&
      r.targetKind = .host && r.status = .active

/-- The capacity and rate limits of the relay. -/
def checkRelayLimits (window bytes : Nat) : Except Err Unit := do
  let ofPeer := fun e : Envelope δ => e.sourcePeerId.isSome && e.sourcePeerId = peer.peerId
  let usage := peer.peerId.bind fun id => s.usage.find? (id, window)
  refuseIf (relayActivePerPeerLimit ≤ s.envelopes.countWhere (fun e => ofPeer e && e.status.live) ∨
      relayActiveGlobalLimit ≤ s.envelopes.countWhere (fun e => e.status.live) ∨ call.databaseFull)
    (.refused "relay_capacity" "Secure relay capacity is full" 503)
  refuseIf (peer.peerId.isSome ∧ (relayRetainedPerPeerLimit ≤ s.envelopes.countWhere ofPeer ∨
      usage.any (fun u => relaySubmissionsPerPeerWindowLimit ≤ u.submissions) ∨
      relayBytesPerPeerWindowLimit < (usage.elim 0 UsageWindow.bodyBytes) + bytes))
    (.refused "rate_limited" "Secure relay limit for this peer is temporarily full" 429)

/-- `peer_certificate_expires_at` of the target, 0 if the peer has no current certificate. -/
def currentCertificateExpiry (peerId : Uuid) : Nat :=
  ((s.certificates.rows.find? fun c => c.peerId = peerId && c.supersededAt.isNone &&
    !c.activationRequired && c.revokedAt.isNone).map Certificate.expiresAt).getD 0

/-- The target route is addressed by its current revision and its peer, if it has one, can answer. -/
def targetAvailable (epoch : Nat) (peer : PeerAuthorization)
    (revision : String) (route : Route) : Bool :=
  let owner := route.peerId.bind s.peers.find?
  route.teamId = peer.teamId && route.status = .active && route.revision = revision &&
    (route.targetKind ≠ .peer ||
      (owner.any (fun p => p.status = .active) &&
        decide (call.timestamp + 60 < (route.peerId.map (currentCertificateExpiry s)).getD 0) &&
        owner.any (fun p => p.crossChatGrantEpoch = some epoch)))

def routesPaired (source target : Route) : Bool :=
  match source.targetKind with
  | .peer => target.targetKind = .host && peer.peerId.isSome && target.audiencePeerId = peer.peerId
  | .host => target.targetKind = .peer && source.audiencePeerId = target.peerId

/-- The target route of a submission, after every check on the pair of routes. -/
def targetRouteOf (epoch : Nat) (peer : PeerAuthorization)
    (revision : String) (sub : Submission) (source : Route) : Except Err Route := do
  let unavailable := Err.refused "route_unavailable" "Target route is unavailable or changed" 409
  let route ← getOr (s.routes.find? sub.targetRouteId) unavailable
  refuseIf (¬targetAvailable s call epoch peer revision route) unavailable
  refuseIf (¬routesPaired peer source route)
    (.refused "route_unavailable" "Routes are not paired for delivery" 409)
  refuseIf (¬source.grants sub.kind.action)
    (.refused "route_action_forbidden" "Source route does not grant this action" 403)
  refuseIf (¬route.grants sub.kind.action)
    (.refused "route_action_forbidden" "Target route does not allow this action" 403)
  match route.targetKind with
  | .host => return route
  | .peer =>
    let owner ← getOr (route.peerId.bind s.peers.find?) unavailable
    relayScope owner.scopes sub.kind
    return route

/-- The place of a new envelope in its exchange. -/
structure LegSlot where
  exchangeId : Uuid
  usedLegs : Nat
  parentLeg : Option Nat
  expiresAt : Nat

def exchangeChanged : Err := .refused "exchange_changed" "Relay exchange state changed" 409

/-- The first leg opens an exchange under a new identifier. -/
def openExchange (payload : EnvelopePayload)
    (sub : Submission) (source target : Route) (exchangeId : Uuid) :
    Except Err (Store δ × LegSlot) := do
  refuseIf (sub.parentEnvelopeId.isSome ∨ sub.kind = .response)
    (invalidRequest "Initial relay leg is invalid")
  let s ← s.insertExchange
    { id := exchangeId, teamId := peer.teamId, firstRouteId := source.id,
      secondRouteId := target.id, lastEnvelopeId := none, usedLegs := 1,
      createdAt := call.timestamp, expiresAt := payload.expiresAt, status := .opened }
  return (s, ⟨exchangeId, 1, none, payload.expiresAt⟩)

/-- A later leg answers the last envelope of an open exchange, on the same routes the other way. -/
def continueExchange (payload : EnvelopePayload) (sub : Submission)
    (source target : Route) (exchangeId : Uuid) : Except Err (Store δ × LegSlot) := do
  let parentId ← getOr sub.parentEnvelopeId
    (invalidRequest "Relay continuation requires its parent envelope")
  let exchange ← getOr (s.exchanges.find? exchangeId) exchangeChanged
  let parent ← getOr (s.envelopes.find? parentId) exchangeChanged
  refuseIf (parent.exchangeId ≠ exchangeId ∨ exchange.status ≠ .opened ∨
    exchange.lastEnvelopeId ≠ some parentId ∨ parent.targetRouteId ≠ source.id ∨
    parent.sourceRouteId ≠ target.id ∨ parent.targetRouteRevision ≠ source.revision ∨
    parent.sourceRouteRevision ≠ target.revision ∨ parent.kind ≠ .requestReply ∨
    exchange.expiresAt ≤ call.timestamp ∨ payload.expiresAt ≠ exchange.expiresAt) exchangeChanged
  let usedLegs := exchange.usedLegs + 1
  refuseIf (maxRelayLegs < usedLegs)
    (.refused "leg_budget_exhausted" "Relay exchange leg budget is exhausted" 409)
  refuseIf (sub.kind = .instruction) (invalidRequest "Relay continuation must be a response")
  refuseIf (sub.kind = .requestReply ∧ maxRelayLegs - usedLegs < 1)
    (.refused "leg_budget_exhausted" "Follow-up requires one terminal response slot" 409)
  return (s, ⟨exchangeId, usedLegs, some parent.usedLegs, exchange.expiresAt⟩)

/-- The place of the envelope: in a new exchange, or in the one it names. -/
def legSlot (payload : EnvelopePayload)
    (sub : Submission) (source target : Route) (newExchangeId : Uuid) :
    Except Err (Store δ × LegSlot) :=
  match sub.exchangeId with
  | none => openExchange s call peer payload sub source target newExchangeId
  | some id => continueExchange s call payload sub source target id

/-- The compare-and-set on the exchange row. A first leg finds the `used_legs` it inserted. -/
def advanceExchange (slot : LegSlot) (envelopeId : Uuid) (kind : RelayKind) :
    Except Err (Store δ) := do
  let expected := if 1 < slot.usedLegs then slot.usedLegs - 1 else 1
  let current := fun x : Exchange =>
    x.id = slot.exchangeId && x.usedLegs = expected && x.status = .opened
  let advance := fun x : Exchange => { x with
    lastEnvelopeId := some envelopeId, usedLegs := slot.usedLegs,
    status := if kind.terminal then .complete else .opened }
  refuseIf (¬s.exchanges.rows.any current) exchangeChanged
  return { s with exchanges := s.exchanges.updateWhere current advance fun _ => rfl }

/-- The row of an accepted envelope. -/
def newLetter (payload : EnvelopePayload)
    (sub : Submission) (source target : Route) (slot : LegSlot) (envelopeId : Uuid) : Letter δ :=
  { id := envelopeId, requestId := sub.requestId, sourcePeerId := peer.peerId,
    sourceRouteId := source.id, sourceServerIdentity := source.serverIdentity,
    sourceRouteRevision := source.revision, requestDigest := sha256 (canonicalJson payload),
    targetServerIdentity := target.serverIdentity, targetRouteId := target.id,
    targetPeerId := target.peerId, targetRouteRevision := payload.targetRouteRevision,
    kind := sub.kind, exchangeId := slot.exchangeId, parentEnvelopeId := sub.parentEnvelopeId,
    parentLeg := slot.parentLeg, usedLegs := slot.usedLegs, message := payload.message,
    createdAt := call.timestamp, expiresAt := slot.expiresAt }

/-- What `submit_envelope` answers; `max_legs` is always 6. -/
structure SubmitReply where
  envelopeId : Uuid
  status : EnvelopeStatus
  (usedLegs expiresAt : Nat)
  exchangeId : Uuid

/-- A peer's envelope counts against its usage window, the host's own does not. -/
def chargeSender (window bytes : Nat) : Except Err (Store δ) :=
  match peer.peerId with
  | some id => s.chargeUsage id window bytes
  | none => .ok s

/-- The writes of an accepted envelope: usage, the envelope, the exchange. -/
def recordLeg (letter : Letter δ) (slot : LegSlot) : Except Err (Store δ) := do
  let window := call.timestamp - call.timestamp % relayUsageWindowSeconds
  let s ← chargeSender s peer window letter.message.utf8ByteSize
  let s ← s.insertEnvelope { letter with status := .queued }
  advanceExchange s slot letter.id letter.kind

/-- `submit_local_envelope` is the same with the host's own authority and route. -/
def submitEnvelope
    (payload : EnvelopePayload) (localRoute : Option Uuid) (envelopeId newExchangeId : Uuid) :
    Except Err (Store δ × SubmitReply) := do
  let epoch ← requireCrossChat s call (some peer)
  let sub ← checkSubmission canonicalJson call peer payload localRoute
  let s := s.pruneRelayState call.timestamp
  let source ← getOr (sourceRouteOf s peer sub localRoute)
    (.refused "route_unavailable" "Source route is unavailable" 409)
  match s.envelopes.rows.find? fun e => e.sourceRouteId = source.id && e.requestId = sub.requestId with
  | some existing =>
    refuseIf (existing.requestDigest ≠ sha256 (canonicalJson payload))
      (.refused "idempotency_conflict" "request_id was reused with different content" 409)
    return (s, ⟨existing.id, existing.status, existing.usedLegs, existing.expiresAt,
      existing.exchangeId⟩)
  | none =>
    let window := call.timestamp - call.timestamp % relayUsageWindowSeconds
    checkRelayLimits s call peer window payload.message.utf8ByteSize
    let target ← targetRouteOf s call epoch peer payload.targetRouteRevision sub source
    let (s, slot) ← legSlot s call peer payload sub source target newExchangeId
    let letter := newLetter canonicalJson sha256 call peer payload sub source target slot envelopeId
    let s ← recordLeg s call peer letter slot
    return (s, ⟨envelopeId, .queued, slot.usedLegs, slot.expiresAt, slot.exchangeId⟩)

/-- The authority the host acts with on its own routes. -/
def localAuthorization (hostServerIdentity teamId : String) : PeerAuthorization :=
  { peerId := none, pairingId := none, peerServerIdentity := hostServerIdentity, teamId := teamId,
    scopes := [.crossChatInstruction, .crossChatRequestReply], certificateFingerprint := "",
    certificateExpiresAt := 2 ^ 63 - 1, peerDisplayName := hostServerIdentity }

def submitLocalEnvelope (hostServerIdentity teamId
    sourceRouteId : String) (payload : EnvelopePayload) (envelopeId newExchangeId : Uuid) :
    Except Err (Store δ × SubmitReply) := do
  let team ← identifier teamId "team_id"
  let route ← uuid sourceRouteId "source_route_id"
  submitEnvelope canonicalJson sha256 s call (localAuthorization hostServerIdentity team) payload
    (some route) envelopeId newExchangeId

end Submit

/-! ### Claims -/

/-- Which inbox `claim_inbox` reads: the calling peer's, one route of the host, the host's from one
    peer, or all of the host's. -/
inductive Inbox where
  | ofCaller
  | ofRoute (route : Uuid)
  | fromPeer (peer : Uuid)
  | allLocal

/-- `ORDER BY created_at,id`. -/
def Envelope.olderThan (e f : Envelope δ) : Prop :=
  e.createdAt < f.createdAt ∨ (e.createdAt = f.createdAt ∧ e.id.text ≤ f.id.text)

instance : DecidableRel (Envelope.olderThan (δ := δ)) := fun _ _ =>
  inferInstanceAs (Decidable (_ ∨ _))

/-- Both routes are active at the revisions the envelope was submitted under. -/
def Letter.routesCurrent (e : Letter δ) (source target : Route) : Bool :=
  source.status = .active && source.revision = e.sourceRouteRevision &&
    target.status = .active && target.revision = e.targetRouteRevision

/-- The envelope goes from a peer with a current grant to the host route opened to it. -/
def fromGrantedPeer (source target : Route) : Bool :=
  source.targetKind = .peer && target.targetKind = .host && source.peerId.isSome &&
    source.peerId = target.audiencePeerId &&
    (source.peerId.bind s.peers.find?).any fun p =>
      p.status = .active && p.crossChatGrantEpoch = some s.consentEpoch

/-- The rows of the joined routes that each inbox selects. -/
def Inbox.selects (hostServerIdentity : String) (peer : PeerAuthorization)
    (e : Letter δ) (source target : Route) : Inbox → Bool
  | .ofCaller => target.peerId.isSome && target.peerId = peer.peerId &&
      target.serverIdentity = peer.peerServerIdentity && target.teamId = peer.teamId &&
      target.targetKind = .peer && source.targetKind = .host &&
      source.audiencePeerId = target.peerId && source.serverIdentity = e.sourceServerIdentity
  | .ofRoute route => e.targetRouteId = route && e.targetServerIdentity = peer.peerServerIdentity &&
      fromGrantedPeer s source target
  | .fromPeer id => e.targetServerIdentity = hostServerIdentity && fromGrantedPeer s source target &&
      source.peerId = some id
  | .allLocal => e.targetServerIdentity = hostServerIdentity && fromGrantedPeer s source target

/-- A named receive route is an active one of the host. -/
def Inbox.reachable : Inbox → Bool
  | .ofRoute route => (s.routes.find? route).any fun r =>
      r.serverIdentity = peer.peerServerIdentity && r.teamId = peer.teamId &&
        r.targetKind = .host && r.status = .active
  | _ => true

/-- The queued envelopes an inbox holds, oldest first, each with its two routes. -/
def inboxRows (hostServerIdentity : String) (peer : PeerAuthorization)
    (inbox : Inbox) : List (Envelope δ × Route × Route) :=
  (s.envelopes.rows.insertionSort Envelope.olderThan).filterMap fun e =>
    match s.routes.find? e.sourceRouteId, s.routes.find? e.targetRouteId with
    | some source, some target =>
      if e.status = .queued ∧ e.routesCurrent source target ∧ source.teamId = target.teamId ∧
          inbox.selects s hostServerIdentity peer e.toLetter source target
      then some (e, source, target) else none
    | _, _ => none

/-- The leases that ran out are given back. -/
def Store.requeueExpiredLeases (timestamp : Nat) : Store δ :=
  let lapsed := fun e : Envelope δ => e.status = .claimed &&
    e.leaseExpiresAt.any (· ≤ timestamp) && decide (timestamp < e.expiresAt)
  let requeue := fun e : Envelope δ => { e with
    status := .queued, leaseOwner := none, leaseTokenHash := none, leaseExpiresAt := none }
  { s with envelopes := s.envelopes.updateWhere lapsed requeue fun _ => rfl }

/-- `UPDATE … SET status='claimed'` for each of the rows. -/
def Store.leaseEnvelopes (ids : List Uuid) (owner : String) (tokenHash : δ)
    (until_ : Nat) : Store δ :=
  let free := fun e : Envelope δ => ids.contains e.id && e.status = .queued
  let lease := fun e : Envelope δ => { e with
    status := .claimed, leaseOwner := some owner, leaseTokenHash := some tokenHash,
    leaseExpiresAt := some until_ }
  { s with envelopes := s.envelopes.updateWhere free lease fun _ => rfl }

/-- What `claim_inbox` answers. -/
structure ClaimReply (δ : Type) where
  leaseToken : Option String
  leaseExpiresAt : Option Nat
  envelopes : List (Letter δ)

def actionForbidden : Err :=
  .refused "route_action_forbidden" "Relay route grant no longer permits this action" 403

/-- The grants of both routes, and the caller's scope on its own inbox, still cover the row. -/
def checkClaimedRow (inbox : Inbox) (row : Envelope δ × Route × Route) : Except Err Unit := do
  refuseIf (¬row.2.1.grants row.1.kind.action ∨ ¬row.2.2.grants row.1.kind.action) actionForbidden
  match inbox with
  | .ofCaller => relayScope peer.scopes row.1.kind
  | _ => return ()

section Lease
variable (sha256 : String → δ) (s : Store δ) (call : Call) (peer : PeerAuthorization)

/-- The lease token is drawn at random. -/
def claimInbox (hostServerIdentity : String) (peer : PeerAuthorization)
    (leaseOwner : String) (limit : Nat) (inbox : Inbox) (leaseToken : String) :
    Except Err (Store δ × ClaimReply δ) := do
  let _ ← requireCrossChat s call (some peer)
  let owner ← identifier leaseOwner "lease_owner"
  refuseIf (¬(1 ≤ limit ∧ limit ≤ 50)) (invalidRequest "limit is invalid")
  let s := (s.pruneRelayState call.timestamp).requeueExpiredLeases call.timestamp
  refuseIf (¬inbox.reachable s peer)
    (.refused "route_unavailable" "Receive route is unavailable" 409)
  let rows := (inboxRows s hostServerIdentity peer inbox).take limit
  checkAll (checkClaimedRow peer inbox) rows
  let until_ := call.timestamp + relayLeaseSeconds
  let s := s.leaseEnvelopes (rows.map fun row => row.1.id) owner (sha256 leaseToken) until_
  return (s, { leaseToken := if rows.isEmpty then none else some leaseToken,
               leaseExpiresAt := if rows.isEmpty then none else some until_,
               envelopes := rows.map fun row => row.1.toLetter })

/-- `claim_local_inbox`, before its targets are resolved to chats. -/
def claimLocalInbox (hostServerIdentity leaseOwner : String)
    (peerId : Option String) (limit : Nat) (leaseToken : String) :
    Except Err (Store δ × ClaimReply δ) := do
  let peerId ← optionalUuid peerId "peer_id"
  claimInbox sha256 s call hostServerIdentity (localAuthorization hostServerIdentity "local-host")
    leaseOwner limit (peerId.elim .allLocal .fromPeer) leaseToken

/-- `claim_local_route_inbox`, before its targets are resolved to chats. -/
def claimLocalRouteInbox (hostServerIdentity teamId targetRouteId
    leaseOwner : String) (limit : Nat) (leaseToken : String) :
    Except Err (Store δ × ClaimReply δ) := do
  let team ← identifier teamId "team_id"
  let route ← uuid targetRouteId "target_route_id"
  claimInbox sha256 s call hostServerIdentity (localAuthorization hostServerIdentity team)
    leaseOwner limit (.ofRoute route) leaseToken

/-! ### Receipts -/

def leaseUnavailable : Err := .refused "lease_unavailable" "Relay lease is unavailable" 409

structure ReceiptReply where
  envelopeId : Uuid
  outcome : Outcome
  receivedAt : Nat

/-- The envelope is leased to the caller under this token. -/
def leaseHeld (localRoute : Option Uuid) (tokenHash : δ) (row : Envelope δ) : Bool :=
  row.targetServerIdentity = peer.peerServerIdentity &&
    (match localRoute with
      | none => peer.peerId.isSome && row.targetPeerId = peer.peerId
      | some route => row.targetRouteId = route) &&
    row.status = .claimed && row.leaseTokenHash = some tokenHash &&
    decide (call.timestamp < row.leaseExpiresAt.getD 0)

def receiveRoute (localRoute : Option Uuid) (row : Letter δ) : Option Route :=
  match localRoute with
  | none => (s.routes.find? row.targetRouteId).filter fun r => r.peerId.isSome &&
      r.peerId = peer.peerId && r.serverIdentity = peer.peerServerIdentity &&
      r.teamId = peer.teamId && r.targetKind = .peer && r.status = .active
  | some route => (s.routes.find? route).filter fun r =>
      r.serverIdentity = peer.peerServerIdentity && r.teamId = peer.teamId &&
      r.targetKind = .host && r.status = .active

/-- The route the envelope came from, still active at the revision it was submitted under. -/
def originRoute (row : Letter δ) : Option Route :=
  (s.routes.find? row.sourceRouteId).filter fun r => r.teamId = peer.teamId &&
    r.serverIdentity = row.sourceServerIdentity && r.revision = row.sourceRouteRevision &&
    r.status = .active

def Store.settleEnvelope (id : Uuid) (outcome : Outcome) : Store δ :=
  let settle := fun e : Envelope δ => { e with
    status := outcome.status, leaseOwner := none, leaseTokenHash := none, leaseExpiresAt := none }
  { s with envelopes := s.envelopes.updateWhere (fun e => e.id = id) settle fun _ => rfl }

/-- A peer settles an envelope only within its scopes. -/
def checkReceiptScope (localRoute : Option Uuid) (kind : RelayKind) : Except Err Unit :=
  match localRoute with
  | none => relayScope peer.scopes kind
  | some _ => .ok ()

/-- An envelope found expired is marked so, with its exchange, in a committed transaction before the
    error is raised. -/
def receiptEnvelope (envelopeId
    leaseToken : String) (outcome : Outcome) (localRoute : Option Uuid) :
    Except Err (Store δ × Except Err ReceiptReply) := do
  let _ ← requireCrossChat s call (some peer)
  let id ← uuid envelopeId "relay receipt"
  refuseIf (¬(32 ≤ leaseToken.length ∧ leaseToken.length ≤ 96)) leaseUnavailable
  match s.receipts.find? id with
  | some existing =>
    refuseIf (existing.targetPeerId ≠ peer.peerId ∨
        localRoute.any (fun r => existing.targetRouteId ≠ r) ∨ existing.outcome ≠ outcome)
      (.refused "receipt_conflict" "Relay receipt conflicts with prior outcome" 409)
    return (s, .ok ⟨id, outcome, existing.receivedAt⟩)
  | none =>
    let row ← getOr (s.envelopes.find? id) leaseUnavailable
    refuseIf (¬leaseHeld call peer localRoute (sha256 leaseToken) row) leaseUnavailable
    if row.expiresAt ≤ call.timestamp then
      let s := s.expireEnvelopes fun e => e.id = id
      return (s.expireExchanges fun x => x.id = row.exchangeId,
        .error (.refused "exchange_expired" "Relay exchange expired" 410))
    else
      let route ← getOr (receiveRoute s peer localRoute row.toLetter)
        (.refused "route_unavailable" "Receive route is unavailable or changed" 409)
      refuseIf (route.revision ≠ row.targetRouteRevision)
        (.refused "route_unavailable" "Receive route is unavailable or changed" 409)
      let source ← getOr (originRoute s peer row.toLetter) actionForbidden
      refuseIf (¬source.grants row.kind.action ∨ ¬route.grants row.kind.action) actionForbidden
      checkReceiptScope peer localRoute row.kind
      let s := s.settleEnvelope id outcome
      let s ← s.insertReceipt ⟨id, peer.peerId, route.id, outcome, call.timestamp⟩
      return (s, .ok ⟨id, outcome, call.timestamp⟩)

def receiptLocalEnvelope (hostServerIdentity teamId targetRouteId
    envelopeId leaseToken : String) (outcome : Outcome) :
    Except Err (Store δ × Except Err ReceiptReply) := do
  let team ← identifier teamId "team_id"
  let route ← uuid targetRouteId "target_route_id"
  receiptEnvelope sha256 s call (localAuthorization hostServerIdentity team) envelopeId leaseToken
    outcome (some route)

end Lease

end SecurePeer
