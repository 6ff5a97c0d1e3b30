import ZenithBot.Lib.Table
import ZenithBot.SecurePeer.Wire

/-! The tables of `SecurePeerStore` (`secure_peer.py`) and the statements its transactions are made
    of. Pairing requests become peers, peers hold certificates and routes, routes carry envelopes,
    and the envelopes of one conversation form an exchange. Keys are carried by `Table`; the other
    constraints of the schema are checked by the insertions below, which raise `integrity`.

    The columns of an envelope that no statement rewrites are its `Letter`; the status and the lease
    are the rest. Digests and lease tokens are values of an arbitrary type `δ`. -/

namespace SecurePeer
open Lib

/-! ### Constants -/

def pairingTtlSeconds : Nat := 10 * 60
def pairingClockSkewSeconds : Nat := 5 * 60
def clientCertTtlSeconds : Nat := 30 * 24 * 60 * 60
def clientCertRenewWindowSeconds : Nat := 7 * 24 * 60 * 60
def clientCertOverlapSeconds : Nat := 10 * 60
def renewalRequestTtlSeconds : Nat := 24 * 60 * 60
def activatedRenewalHistoryLimit : Nat := 8
def maxRelayTtlSeconds : Nat := 72 * 60 * 60
def maxRelayLegs : Nat := 6
def relayLeaseSeconds : Nat := 60
def peerHeartbeatLeaseSeconds : Nat := 90
def peerHeartbeatCoalesceSeconds : Nat := 15
def pairingStatusLimit : Nat := 512
def pairingTerminalRetainedLimit : Nat := 512
def routeActivePerPeerLimit : Nat := 128
def routeTotalPerPeerLimit : Nat := 512
def routeGlobalLimit : Nat := 10000
def relayActivePerPeerLimit : Nat := 256
def relayActiveGlobalLimit : Nat := 4096
def relayRetainedPerPeerLimit : Nat := 2048
def relayUsageWindowSeconds : Nat := 24 * 60 * 60
def relaySubmissionsPerPeerWindowLimit : Nat := 256
def relayBytesPerPeerWindowLimit : Nat := 4 * 1024 * 1024
def relayTerminalRetentionSeconds : Nat := 7 * 24 * 60 * 60
def secureStateLiveBytesLimit : Nat := 128 * 1024 * 1024
def maxProxyBodyBytes : Nat := 65536

/-! ### Rows -/

inductive PairingStatus where
  | pending | approved | rejected | cancelled | expired
  deriving DecidableEq

/-- `expired`, `rejected` or `cancelled`. -/
def PairingStatus.terminal : PairingStatus → Bool
  | .expired | .rejected | .cancelled => true
  | _ => false

structure Pairing (δ : Type) where
  (id requestId : Uuid)
  (requestDigest pollTokenHash : δ)
  (peerServerIdentity peerDisplayName peerPublicKeyPem : String)
  requestedScopes : List Scope
  sourceIp : Option String
  transcriptHash : String
  status : PairingStatus
  (createdAt expiresAt : Nat)
  decidedAt : Option Nat := none
  teamId : Option String := none
  scopes : List Scope := []
  approvedBy : Option String := none
  peerId : Option Uuid := none
  rejectionReason : Option String := none

inductive Authority where
  | active | revoked
  deriving DecidableEq

/-- A row of `peers`. -/
structure Peer where
  (id pairingId : Uuid)
  (peerServerIdentity teamId : String)
  scopes : List Scope
  (transcriptHash publicKeyPem : String)
  status : Authority
  crossChatGrantEpoch : Option Nat
  lastSeenAt : Option Nat := none
  leaseExpiresAt : Option Nat := none
  createdAt : Nat
  revokedAt : Option Nat := none
  revokedBy : Option String := none

structure Certificate where
  fingerprint : String
  peerId : Uuid
  (serial publicKeyPem : String)
  (issuedAt expiresAt : Nat)
  supersededAt : Option Nat := none
  validUntil : Nat
  revokedAt : Option Nat := none
  activationRequired : Bool := false
  deriving DecidableEq

inductive RenewalStatus where
  | issued | activated
  deriving DecidableEq

structure Renewal (δ : Type) where
  (requestId peerId : Uuid)
  (currentFingerprint newFingerprint : String)
  requestDigest : δ
  status : RenewalStatus
  (createdAt expiresAt : Nat)
  activatedAt : Option Nat := none

inductive TargetKind where
  | host | peer
  deriving DecidableEq

/-- A row of `peer_routes`. -/
structure Route where
  id : Uuid
  serverIdentity : String
  targetKind : TargetKind
  (peerId audiencePeerId : Option Uuid)
  (teamId revision routeAlias displayTitle : String)
  actions : List RouteAction
  chatId : Option String
  status : Authority
  (createdAt updatedAt : Nat)
  revokedAt : Option Nat := none

inductive ExchangeStatus where
  | opened | complete | expired
  deriving DecidableEq

/-- A row of `relay_exchanges`; `max_legs` is 6 in every row. -/
structure Exchange where
  id : Uuid
  teamId : String
  (firstRouteId secondRouteId : Uuid)
  lastEnvelopeId : Option Uuid
  (usedLegs createdAt expiresAt : Nat)
  status : ExchangeStatus

inductive EnvelopeStatus where
  | queued | claimed | delivered | failed | expired
  deriving DecidableEq

/-- `queued` or `claimed`. -/
def EnvelopeStatus.live : EnvelopeStatus → Bool
  | .queued | .claimed => true
  | _ => false

/-- The columns of a row of `relay_envelopes` that no statement rewrites. -/
structure Letter (δ : Type) where
  (id requestId : Uuid)
  sourcePeerId : Option Uuid
  sourceRouteId : Uuid
  (sourceServerIdentity sourceRouteRevision : String)
  requestDigest : δ
  targetServerIdentity : String
  targetRouteId : Uuid
  targetPeerId : Option Uuid
  targetRouteRevision : String
  kind : RelayKind
  exchangeId : Uuid
  parentEnvelopeId : Option Uuid
  parentLeg : Option Nat
  usedLegs : Nat
  message : String
  (createdAt expiresAt : Nat)

/-- A row of `relay_envelopes`. -/
structure Envelope (δ : Type) extends Letter δ where
  status : EnvelopeStatus
  leaseOwner : Option String := none
  leaseTokenHash : Option δ := none
  leaseExpiresAt : Option Nat := none

/-- What a receipt says became of an envelope. -/
inductive Outcome where
  | delivered | failed
  deriving DecidableEq

def Outcome.status : Outcome → EnvelopeStatus
  | .delivered => .delivered
  | .failed => .failed

/-- A row of `relay_receipts`. -/
structure Receipt where
  envelopeId : Uuid
  targetPeerId : Option Uuid
  targetRouteId : Uuid
  outcome : Outcome
  receivedAt : Nat

/-- A row of `relay_usage_windows`. -/
structure UsageWindow where
  peerId : Uuid
  (windowStart submissions bodyBytes : Nat)

/-- The database, with the consent epoch of `host_meta`. -/
structure Store (δ : Type) where
  consentEpoch : Nat
  pairings : Table (Pairing δ) Uuid Pairing.id
  peers : Table Peer Uuid Peer.id
  certificates : Table Certificate String Certificate.fingerprint
  renewals : Table (Renewal δ) Uuid Renewal.requestId
  routes : Table Route Uuid Route.id
  exchanges : Table Exchange Uuid Exchange.id
  envelopes : Table (Envelope δ) Uuid (fun e => e.id)
  receipts : Table Receipt Uuid Receipt.envelopeId
  usage : Table UsageWindow (Uuid × Nat) (fun u => (u.peerId, u.windowStart))

variable {δ : Type} (s : Store δ)

/-- A database just created; the first epoch is open if cross-chat was available then. -/
def Store.new (crossChatAvailable : Bool) : Store δ :=
  ⟨if crossChatAvailable then 1 else 0, .empty, .empty, .empty, .empty, .empty, .empty, .empty,
    .empty, .empty⟩

/-! ### Insertions

    Each checks the foreign keys and unique indexes of its table, then the primary key. -/

namespace Store

def hasPeer (id : Uuid) : Bool := (s.peers.find? id).isSome
def hasRoute (id : Uuid) : Bool := (s.routes.find? id).isSome

def insertPairing (p : Pairing δ) : Except Err (Store δ) := do
  refuseIf (s.pairings.rows.any fun q => q.requestId = p.requestId) .integrity
  let t ← getOr (s.pairings.insert? p) .integrity
  return { s with pairings := t }

def insertPeer (p : Peer) : Except Err (Store δ) := do
  refuseIf (s.peers.rows.any fun q => q.pairingId = p.pairingId) .integrity
  refuseIf (s.pairings.find? p.pairingId).isNone .integrity
  let t ← getOr (s.peers.insert? p) .integrity
  return { s with peers := t }

def insertCertificate (c : Certificate) : Except Err (Store δ) := do
  refuseIf (s.certificates.rows.any fun d => d.serial = c.serial) .integrity
  refuseIf (¬s.hasPeer c.peerId) .integrity
  let t ← getOr (s.certificates.insert? c) .integrity
  return { s with certificates := t }

def insertRenewal (r : Renewal δ) : Except Err (Store δ) := do
  refuseIf (s.renewals.rows.any fun q => q.newFingerprint = r.newFingerprint) .integrity
  refuseIf (¬s.hasPeer r.peerId) .integrity
  let t ← getOr (s.renewals.insert? r) .integrity
  return { s with renewals := t }

/-- One of the unique indexes over active routes forbids `q` and `r` together:
    `active_peer_route_alias`, `active_host_route_chat`, `active_host_route_alias`. -/
def routesClash (q r : Route) : Bool :=
  q.status = .active && q.teamId = r.teamId &&
    ((q.peerId.isSome && q.peerId = r.peerId && q.routeAlias = r.routeAlias) ||
      (q.targetKind = .host && r.targetKind = .host && q.audiencePeerId.isSome &&
        q.audiencePeerId = r.audiencePeerId &&
        ((q.chatId.isSome && q.chatId = r.chatId) || q.routeAlias = r.routeAlias)))

def insertRoute (r : Route) : Except Err (Store δ) := do
  refuseIf (s.routes.rows.any (routesClash · r)) .integrity
  refuseIf (r.peerId.any (!s.hasPeer ·) ∨ r.audiencePeerId.any (!s.hasPeer ·)) .integrity
  let t ← getOr (s.routes.insert? r) .integrity
  return { s with routes := t }

def insertExchange (x : Exchange) : Except Err (Store δ) := do
  refuseIf (¬s.hasRoute x.firstRouteId ∨ ¬s.hasRoute x.secondRouteId) .integrity
  let t ← getOr (s.exchanges.insert? x) .integrity
  return { s with exchanges := t }

def insertEnvelope (e : Envelope δ) : Except Err (Store δ) := do
  refuseIf (s.envelopes.rows.any fun q =>
    q.sourceRouteId = e.sourceRouteId && q.requestId = e.requestId) .integrity
  refuseIf (e.sourcePeerId.any (!s.hasPeer ·) ∨ e.targetPeerId.any (!s.hasPeer ·) ∨
    ¬s.hasRoute e.sourceRouteId ∨ ¬s.hasRoute e.targetRouteId ∨
    (s.exchanges.find? e.exchangeId).isNone) .integrity
  let t ← getOr (s.envelopes.insert? e) .integrity
  return { s with envelopes := t }

def insertReceipt (r : Receipt) : Except Err (Store δ) := do
  refuseIf ((s.envelopes.find? r.envelopeId).isNone ∨ r.targetPeerId.any (!s.hasPeer ·) ∨
    ¬s.hasRoute r.targetRouteId) .integrity
  let t ← getOr (s.receipts.insert? r) .integrity
  return { s with receipts := t }

/-- `INSERT INTO relay_usage_windows … ON CONFLICT DO UPDATE`. -/
def chargeUsage (peerId : Uuid) (window bytes : Nat) : Except Err (Store δ) := do
  match s.usage.find? (peerId, window) with
  | some _ =>
    let t := s.usage.updateWhere (fun u => u.peerId = peerId && u.windowStart = window)
      (fun u => { u with submissions := u.submissions + 1, bodyBytes := u.bodyBytes + bytes })
      fun _ => rfl
    return { s with usage := t }
  | none =>
    refuseIf (¬s.hasPeer peerId) .integrity
    let t ← getOr (s.usage.insert? ⟨peerId, window, 1, bytes⟩) .integrity
    return { s with usage := t }

end Store

/-! ### Updates shared by the transactions -/

def Exchange.expire (x : Exchange) : Exchange := { x with status := .expired }

/-- `SET status='expired'` on an envelope, its lease cleared. -/
def Envelope.expire (e : Envelope δ) : Envelope δ :=
  { e with status := .expired, leaseOwner := none, leaseTokenHash := none, leaseExpiresAt := none }

def Route.revoke (revision : String) (timestamp : Nat) (r : Route) : Route :=
  { r with status := .revoked, revision := revision, revokedAt := some timestamp,
           updatedAt := timestamp }

/-- The route belongs to the peer, as owner or as audience. -/
def Route.of (r : Route) (peerId : Uuid) : Bool :=
  r.peerId = some peerId || r.audiencePeerId = some peerId

def Route.grants (r : Route) (a : RouteAction) : Bool := r.actions.contains a

namespace Store

def expireExchanges (p : Exchange → Bool) : Store δ :=
  let isOpen := fun x : Exchange => x.status = .opened && p x
  { s with exchanges := s.exchanges.updateWhere isOpen Exchange.expire fun _ => rfl }

/-- Expire the queued or claimed envelopes that satisfy `p`. -/
def expireEnvelopes (p : Letter δ → Bool) : Store δ :=
  let isLive := fun e : Envelope δ => e.status.live && p e.toLetter
  { s with envelopes := s.envelopes.updateWhere isLive Envelope.expire fun _ => rfl }

def revokeRoutes (p : Route → Bool) (revision : Route → String) (timestamp : Nat) : Store δ :=
  let isActive := fun r : Route => r.status = .active && p r
  let revoke := fun r : Route => r.revoke (revision r) timestamp
  { s with routes := s.routes.updateWhere isActive revoke fun _ => rfl }

/-- Revoke every active route and expire the whole relay. -/
def retireAllRoutes (revision : Route → String) (timestamp : Nat) : Store δ :=
  let s := s.revokeRoutes (fun _ => true) revision timestamp
  let s := s.expireEnvelopes fun _ => true
  s.expireExchanges fun _ => true

def retired (timestamp : Nat) (e : Envelope δ) : Bool :=
  !e.status.live && decide (e.createdAt < timestamp - relayTerminalRetentionSeconds)

def pruneRelayState (timestamp : Nat) : Store δ :=
  let s := s.expireEnvelopes fun e => e.expiresAt ≤ timestamp
  let s := s.expireExchanges fun x => x.expiresAt ≤ timestamp
  let receipts := s.receipts.deleteWhere fun r =>
    s.envelopes.rows.any fun e => retired timestamp e && e.id = r.envelopeId
  let envelopes := s.envelopes.deleteWhere (retired timestamp)
  let exchanges := s.exchanges.deleteWhere fun x =>
    x.status ≠ .opened && decide (x.createdAt < timestamp - relayTerminalRetentionSeconds) &&
      !envelopes.rows.any fun e => e.exchangeId = x.id
  let currentWindow := timestamp - timestamp % relayUsageWindowSeconds
  let usage := s.usage.deleteWhere fun u =>
    decide (u.windowStart < currentWindow - 2 * relayUsageWindowSeconds)
  { s with receipts := receipts, envelopes := envelopes, exchanges := exchanges, usage := usage }

end Store

def Peer.revoke (timestamp : Nat) (actor : String) (p : Peer) : Peer :=
  { p with status := .revoked, revokedAt := some timestamp, revokedBy := some actor }

/-- A certificate of a revoked peer; an earlier revocation time and end of validity are kept. -/
def Certificate.revoke (timestamp : Nat) (c : Certificate) : Certificate :=
  { c with revokedAt := some (c.revokedAt.getD timestamp), validUntil := min c.validUntil timestamp }

namespace Store

def touches (peerId : Uuid) (e : Letter δ) : Bool :=
  e.sourcePeerId = some peerId || e.targetPeerId = some peerId ||
    s.routes.rows.any (fun r => r.of peerId && r.id = e.sourceRouteId) ||
    s.routes.rows.any (fun r => r.of peerId && r.id = e.targetRouteId)

/-- The peer, if it is active, and its certificates lose their authority. -/
def revokeAccount (peerId : Uuid) (timestamp : Nat) (actor : String) : Store δ :=
  let isActive := fun p : Peer => p.id = peerId && p.status = .active
  let ofPeer := fun c : Certificate => c.peerId = peerId
  { s with peers := s.peers.updateWhere isActive (Peer.revoke timestamp actor) fun _ => rfl,
           certificates := s.certificates.updateWhere (ofPeer ·) (Certificate.revoke timestamp)
            fun _ => rfl }

/-- `none` is its `False`. -/
def revokePeerInTransaction (peerId : Uuid) (timestamp : Nat) (actor revision : String) :
    Option (Store δ) :=
  if s.peers.rows.any fun p => p.id = peerId && p.status = .active then
    let s := s.revokeAccount peerId timestamp actor
    let s := s.revokeRoutes (·.of peerId) (fun _ => revision) timestamp
    some (s.expireEnvelopes (s.touches peerId))
  else none

end Store

/-! ### The cross-chat gate -/

/-- What a call reads besides its arguments: the clock, the runtime switch and the size of the
    database file. -/
structure Call where
  timestamp : Nat
  crossChatEnabled : Bool
  databaseLiveBytes : Nat := 0

def Call.databaseFull (c : Call) : Bool := decide (secureStateLiveBytesLimit ≤ c.databaseLiveBytes)

def peerRevoked : Err := .refused "peer_revoked" "Peer authentication is unavailable" 401
def reapprovalRequired : Err :=
  .refused "cross_chat_reapproval_required" "Peer cross-chat approval is not current" 403

/-- The consent epoch, if the host and the peer (if any) may relay in it. -/
def requireCrossChat (call : Call) (peer : Option PeerAuthorization) : Except Err Nat := do
  refuseIf (¬call.crossChatEnabled) (.refused "cross_chat_unavailable"
    "Secure cross-chat delivery is not enabled" 409)
  let epoch := s.consentEpoch
  refuseIf (epoch = 0) (.refused "cross_chat_consent_required"
    "Secure cross-chat consent must be activated before use" 409)
  match peer.bind fun a => a.peerId.map fun id => (a, id) with
  | none => return epoch
  | some (auth, id) =>
    refuseIf (auth.crossChatGrantEpoch ≠ some epoch) reapprovalRequired
    let row ← getOr (s.peers.find? id) peerRevoked
    refuseIf (row.status ≠ .active ∨ some row.pairingId ≠ auth.pairingId ∨
      row.peerServerIdentity ≠ auth.peerServerIdentity ∨ row.teamId ≠ auth.teamId ∨
      sameScopes row.scopes auth.scopes = false) peerRevoked
    refuseIf (row.crossChatGrantEpoch ≠ some epoch) reapprovalRequired
    return epoch

end SecurePeer
