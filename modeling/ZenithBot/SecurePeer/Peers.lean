import Mathlib.Data.List.Sort
import ZenithBot.SecurePeer.Store

/-! The life of a peer (`secure_peer.py`): pairing, approval, certificate renewal and activation,
    heartbeat, authentication and every way to revoke it. A function here is one transaction: it
    returns the committed store with the answer, or the error after which the transaction rolls
    back. Three of them commit and then raise; their answer is itself an `Except`.

    A call answered from `idempotency_records` commits nothing, so it is left out, and so are the
    audit rows. Values drawn at random (identifiers, revisions, certificate serials) are arguments. -/

namespace SecurePeer
open Lib

variable {δ : Type} [DecidableEq δ] (s : Store δ) (call : Call)

/-! ### Pairing -/

/-- A pairing request after `_normalize_pairing_payload`, with its digests. -/
structure PairingRequest (δ : Type) where
  requestId : Uuid
  createdAt : Nat
  (peerServerIdentity peerDisplayName peerPublicKeyPem : String)
  requestedScopes : List Scope
  (requestDigest pollTokenHash : δ)
  transcriptHash : String

/-- `COALESCE(decided_at,expires_at)`. -/
def Pairing.closedAt (p : Pairing δ) : Nat := p.decidedAt.getD p.expiresAt

/-- `ORDER BY COALESCE(decided_at,expires_at),created_at,id`. -/
def Pairing.olderThan (p q : Pairing δ) : Prop :=
  p.closedAt < q.closedAt ∨ (p.closedAt = q.closedAt ∧
    (p.createdAt < q.createdAt ∨ (p.createdAt = q.createdAt ∧ p.id.text ≤ q.id.text)))

instance : DecidableRel (Pairing.olderThan (δ := δ)) := fun _ _ =>
  inferInstanceAs (Decidable (_ ∨ _))

namespace Store

def expirePendingPairings (timestamp : Nat) (p : Pairing δ → Bool) : Store δ :=
  let due := fun q : Pairing δ => q.status = .pending && decide (q.expiresAt ≤ timestamp) && p q
  let expire := fun q : Pairing δ => { q with status := .expired, decidedAt := some timestamp }
  { s with pairings := s.pairings.updateWhere due expire fun _ => rfl }

/-- Terminal pairings past the retention, then the oldest beyond the retained limit. -/
def prunePairings (timestamp : Nat) : Store δ :=
  let kept := s.pairings.deleteWhere fun p =>
    p.status.terminal && decide (p.closedAt < timestamp - 7 * 24 * 60 * 60)
  let terminal := kept.rows.filter fun p => p.status.terminal
  let excess := (terminal.insertionSort Pairing.olderThan).take
    (terminal.length - pairingTerminalRetainedLimit)
  { s with pairings := kept.deleteWhere fun p => excess.any fun q => q.id = p.id }

def actionablePairingCount : Nat :=
  s.pairings.countWhere fun p => p.status = .pending ||
    (p.status = .approved &&
      (s.peers.rows.find? fun q => q.pairingId = p.id).all fun q => q.status = .active)

end Store

/-- The answer is the row that now stands for the request. -/
def submitPairing (request : PairingRequest δ) (pairingId : Uuid)
    (sourceIp : Option String) (externalActionableCount : Nat) :
    Except Err (Store δ × Pairing δ) := do
  let timestamp := call.timestamp
  let expiresAt := min (request.createdAt + pairingTtlSeconds) (timestamp + pairingTtlSeconds)
  match s.pairings.rows.find? fun p => p.requestId = request.requestId with
  | some existing =>
    refuseIf (existing.requestDigest ≠ request.requestDigest)
      (.refused "idempotency_conflict" "request_id was reused with different content" 409)
    let s := s.expirePendingPairings timestamp fun p => p.id = existing.id
    let row ← getOr (s.pairings.find? existing.id) .integrity
    return (s, row)
  | none =>
    refuseIf (request.createdAt < timestamp - pairingClockSkewSeconds ∨
        timestamp + pairingClockSkewSeconds < request.createdAt)
      (.refused "pairing_expired" "Pairing request time is outside the allowed window" 410)
    refuseIf (expiresAt ≤ timestamp) (.refused "pairing_expired" "Pairing request has expired" 410)
    let s := (s.expirePendingPairings timestamp fun _ => true).prunePairings timestamp
    let pending := s.pairings.countWhere fun p => p.status = .pending
    refuseIf (sourceIp.any fun ip => 16 ≤ s.pairings.countWhere fun p =>
        p.status = .pending && p.sourceIp = some ip)
      (.refused "rate_limited" "Too many pending pairings from this source" 429)
    refuseIf (pairingStatusLimit ≤ pending ∨
        pairingStatusLimit ≤ s.actionablePairingCount + externalActionableCount ∨
        5000 ≤ s.pairings.rows.length ∨ call.databaseFull)
      (.refused "pairing_capacity" "Pairing request capacity is temporarily full" 503)
    let row : Pairing δ :=
      { id := pairingId, requestId := request.requestId, requestDigest := request.requestDigest,
        pollTokenHash := request.pollTokenHash, peerServerIdentity := request.peerServerIdentity,
        peerDisplayName := request.peerDisplayName, peerPublicKeyPem := request.peerPublicKeyPem,
        requestedScopes := request.requestedScopes, sourceIp := sourceIp,
        transcriptHash := request.transcriptHash, status := .pending, createdAt := timestamp,
        expiresAt := expiresAt }
    let s ← s.insertPairing row
    return (s, row)

def pairingUnavailable : Err := .refused "pairing_unavailable" "Pairing is unavailable" 404
def pairingNotPending : Err := .refused "pairing_not_pending" "Pairing is no longer pending" 409

/-- `poll_pairing`, after `_authenticated_pairing`: a pending request found expired is marked so. -/
def pollPairing (pairingId : Uuid) (pollTokenHash : δ) : Except Err (Store δ × Pairing δ) := do
  let row ← getOr (s.pairings.find? pairingId) pairingUnavailable
  refuseIf (row.pollTokenHash ≠ pollTokenHash) pairingUnavailable
  let s := s.expirePendingPairings call.timestamp fun p => p.id = pairingId
  let row ← getOr (s.pairings.find? pairingId) .integrity
  return (s, row)

/-- `cancel_pairing`, after `_authenticated_pairing`. -/
def cancelPairing (pairingId : Uuid) (pollTokenHash : δ) : Except Err (Store δ) := do
  let (s, row) ← pollPairing s call pairingId pollTokenHash
  refuseIf (row.status ≠ .pending) pairingNotPending
  let cancel := fun p : Pairing δ =>
    { p with status := .cancelled, decidedAt := some call.timestamp }
  return { s with pairings := s.pairings.updateWhere (fun p => p.id = pairingId &&
    p.status = .pending) cancel fun _ => rfl }

/-- `[0-9a-f]{64}`. -/
def isTranscriptHash (hash : String) : Bool :=
  fullMatch (List.replicate 64 isHexDigit) hash.toList

/-- The checks `approve_pairing` and `reject_pairing` share. A pending request found expired is
    marked so in a committed transaction before the error is raised. -/
def decidablePairing (timestamp : Nat) (pairingId : Uuid)
    (expectedPeerServerIdentity expectedTranscriptHash : String) :
    Except Err (Store δ × Except Err (Pairing δ)) := do
  let row ← getOr (s.pairings.find? pairingId) pairingUnavailable
  if row.status = .pending ∧ row.expiresAt ≤ timestamp then
    return (s.expirePendingPairings timestamp fun p => p.id = pairingId, .error pairingNotPending)
  else
    refuseIf (row.status ≠ .pending) pairingNotPending
    refuseIf (row.peerServerIdentity ≠ expectedPeerServerIdentity ∨
        row.transcriptHash ≠ expectedTranscriptHash)
      (.refused "pairing_changed" "Pairing identity confirmation failed" 409)
    return (s, .ok row)

def rejectPairing (pairingId rejectedBy reason
    expectedPeerServerIdentity expectedTranscriptHash : String) :
    Except Err (Store δ × Except Err Unit) := do
  let pairingId ← uuid pairingId "pairing_id"
  let actor ← identifier rejectedBy "rejected_by"
  let expectedIdentity ← identifier expectedPeerServerIdentity "expected peer identity"
  refuseIf (¬isTranscriptHash expectedTranscriptHash)
    (invalidRequest "expected transcript hash is invalid")
  let reason ← boundedText reason "reason" 1 160
  let (s, row) ← decidablePairing s call.timestamp pairingId expectedIdentity expectedTranscriptHash
  match row with
  | .error e => return (s, .error e)
  | .ok _ =>
    let reject := fun p : Pairing δ => { p with
      status := .rejected, decidedAt := some call.timestamp, approvedBy := some actor,
      rejectionReason := some reason }
    let pending := fun p : Pairing δ => p.id = pairingId && p.status = .pending
    return ({ s with pairings := s.pairings.updateWhere pending reject fun _ => rfl }, .ok ())

/-! ### Approval and revocation -/

/-- `ORDER BY created_at,id`. -/
def Peer.olderThan (p q : Peer) : Prop :=
  p.createdAt < q.createdAt ∨ (p.createdAt = q.createdAt ∧ p.id.text ≤ q.id.text)

instance : DecidableRel Peer.olderThan := fun _ _ => inferInstanceAs (Decidable (_ ∨ _))

/-- `ORDER BY team_id,peer_server_identity,created_at,id`. -/
def Peer.listedBefore (p q : Peer) : Prop :=
  p.teamId < q.teamId ∨ (p.teamId = q.teamId ∧ (p.peerServerIdentity < q.peerServerIdentity ∨
    (p.peerServerIdentity = q.peerServerIdentity ∧ p.olderThan q)))

instance : DecidableRel Peer.listedBefore := fun _ _ => inferInstanceAs (Decidable (_ ∨ _))

namespace Store

/-- The active peers of one team and server identity, oldest first. -/
def activeLogicalPeers (teamId peerServerIdentity : String) : List Peer :=
  (s.peers.rows.filter fun p => p.status = .active && p.teamId = teamId &&
    p.peerServerIdentity = peerServerIdentity).insertionSort Peer.olderThan

/-- `_revoke_peer_in_transaction` for each of the peers, each time with a new revision. -/
def revokeEach (peerIds : List Uuid) (timestamp : Nat) (actor : String)
    (revision : Uuid → String) : Store δ :=
  peerIds.foldl (fun s id => (s.revokePeerInTransaction id timestamp actor (revision id)).getD s) s

end Store

/-- What `_issue_client_certificate` draws at random: the serial, and with it the fingerprint. -/
structure IssuedCertificate where
  (fingerprint serial : String)

/-- The epoch a peer approved with these scopes is granted: the current one for cross-chat. -/
def grantEpochFor (scopes : List Scope) : Except Err (Option Nat) :=
  if scopes.any Scope.crossChat then some <$> requireCrossChat s call none else .ok none

/-- The earlier peers of the same team and identity are superseded. -/
def approvePairing (pairingId teamId : String) (scopes : List Scope)
    (approvedBy expectedPeerServerIdentity expectedTranscriptHash : String) (peerId : Uuid)
    (issued : IssuedCertificate) (revision : Uuid → String) :
    Except Err (Store δ × Except Err (List Uuid)) := do
  let timestamp := call.timestamp
  let pairingId ← uuid pairingId "pairing_id"
  let teamId ← identifier teamId "team_id"
  let actor ← identifier approvedBy "approved_by"
  let expectedIdentity ← identifier expectedPeerServerIdentity "expected peer identity"
  refuseIf (¬isTranscriptHash expectedTranscriptHash)
    (invalidRequest "expected transcript hash is invalid")
  let scopes ← canonicalScopes scopes
  let grantEpoch ← grantEpochFor s call scopes
  let (s, row) ← decidablePairing s timestamp pairingId expectedIdentity expectedTranscriptHash
  match row with
  | .error e => return (s, .error e)
  | .ok row =>
    refuseIf (¬scopes.all row.requestedScopes.contains)
      (.refused "scope_escalation" "Approval scopes exceed the signed request" 409)
    let superseded := (s.activeLogicalPeers teamId row.peerServerIdentity).map Peer.id
    let s := s.revokeEach superseded timestamp actor revision
    let s ← s.insertPeer
      { id := peerId, pairingId := pairingId, peerServerIdentity := row.peerServerIdentity,
        teamId := teamId, scopes := scopes, transcriptHash := row.transcriptHash,
        publicKeyPem := row.peerPublicKeyPem, status := .active,
        crossChatGrantEpoch := grantEpoch, createdAt := timestamp }
    let s ← s.insertCertificate
      { fingerprint := issued.fingerprint, peerId := peerId, serial := issued.serial,
        publicKeyPem := row.peerPublicKeyPem, issuedAt := timestamp,
        expiresAt := timestamp + clientCertTtlSeconds,
        validUntil := timestamp + clientCertTtlSeconds }
    let approve := fun p : Pairing δ => { p with
      status := .approved, decidedAt := some timestamp, teamId := some teamId, scopes := scopes,
      approvedBy := some actor, peerId := some peerId }
    let pending := fun p : Pairing δ => p.id = pairingId && p.status = .pending
    return ({ s with pairings := s.pairings.updateWhere pending approve fun _ => rfl },
      .ok superseded)

/-- Which of the active peers of one team and identity `reconcile_active_logical_peers` keeps:
    the oldest preferred one, or else the oldest. -/
def retainedPeer (preferred : List Uuid) (p : Peer) : Option Peer :=
  let members := s.activeLogicalPeers p.teamId p.peerServerIdentity
  (members.find? fun q => preferred.contains q.id).or members.head?

/-- The peers `reconcile_active_logical_peers` revokes. -/
def supersededPeers (preferred : List Uuid) : List Uuid :=
  ((s.peers.rows.filter fun p => p.status = .active &&
    (retainedPeer s preferred p).all fun q => q.id ≠ p.id).insertionSort Peer.listedBefore).map Peer.id

def reconcileActiveLogicalPeers (preferredPeerIds : List String)
    (actor : String) (revision : Uuid → String) : Except Err (Store δ × List Uuid) := do
  let preferred ← preferredPeerIds.mapM fun id => uuid id "preferred_peer_id"
  let actor ← identifier actor "reconciliation actor"
  let superseded := supersededPeers s preferred
  return (s.revokeEach superseded call.timestamp actor revision, superseded)

/-- `_HEX_FP_RE`. -/
def isFingerprint (fingerprint : String) : Bool :=
  fullMatch ("sha256:".toList.map (fun c d => c == d) ++ List.replicate 64 isHexDigit)
    fingerprint.toList

def peerChanged : Err := .refused "peer_changed" "Peer certificate confirmation failed" 409

/-- The host revokes a peer it names by its current certificate. -/
def revokePeer (peerId teamId expectedCertificateFingerprint
    revokedBy revision : String) : Except Err (Store δ) := do
  let peerId ← uuid peerId "peer_id"
  refuseIf (¬isFingerprint expectedCertificateFingerprint)
    (invalidRequest "peer revocation target is invalid")
  let teamId ← identifier teamId "team_id"
  let actor ← identifier revokedBy "revoked_by"
  let unavailable := Err.refused "peer_unavailable" "Peer is unavailable" 404
  let certificate ← getOr (s.certificates.find? expectedCertificateFingerprint) unavailable
  refuseIf (certificate.peerId ≠ peerId ∨ certificate.supersededAt.isSome ∨
    certificate.activationRequired) unavailable
  let row ← getOr (s.peers.find? peerId) unavailable
  refuseIf (row.teamId ≠ teamId) unavailable
  refuseIf (row.status ≠ .active) peerChanged
  getOr (s.revokePeerInTransaction peerId call.timestamp actor revision) peerChanged

/-- From any certificate the peer owns; a revoked peer stays as it is. -/
def revokePeerForSelf (peer : PeerAuthorization) (revision : String) : Except Err (Store δ) := do
  let certificate ← getOr (s.certificates.find? peer.certificateFingerprint) peerChanged
  let peerId ← getOr peer.peerId peerChanged
  refuseIf (certificate.peerId ≠ peerId) peerChanged
  let row ← getOr (s.peers.find? peerId) peerChanged
  refuseIf (row.teamId ≠ peer.teamId) peerChanged
  if row.status = .active then
    getOr (s.revokePeerInTransaction peerId call.timestamp ("peer:" ++ peerId.text) revision)
      peerChanged
  else return s

/-- A new epoch, in which every earlier route and relay is void. -/
def activateCrossChatConsent (expectedEpoch : Nat)
    (activatedBy revision : String) : Except Err (Store δ) := do
  refuseIf (¬call.crossChatEnabled) (.refused "cross_chat_unavailable"
    "Secure cross-chat delivery is not enabled" 409)
  let _ ← identifier activatedBy "activated_by"
  refuseIf (s.consentEpoch ≠ expectedEpoch)
    (.refused "cross_chat_consent_changed" "Cross-chat consent epoch changed" 409)
  let s := { s with consentEpoch := s.consentEpoch + 1 }
  return s.retireAllRoutes (fun _ => revision) call.timestamp

/-! ### Heartbeat, certificates and authentication -/

/-- The answer says whether it was written or coalesced. -/
def recordPeerHeartbeat (peerId : String) : Except Err (Store δ × Bool) := do
  let peerId ← uuid peerId "peer_id"
  let row ← getOr (s.peers.find? peerId) (.refused "peer_unavailable" "Peer is unavailable" 404)
  refuseIf (row.status ≠ .active) peerRevoked
  let due := row.lastSeenAt.all (fun t => peerHeartbeatCoalesceSeconds ≤ call.timestamp - t) ||
    row.leaseExpiresAt.all fun t => t ≤ call.timestamp
  if due then
    let seen := fun p : Peer => { p with
      lastSeenAt := some call.timestamp,
      leaseExpiresAt := some (call.timestamp + peerHeartbeatLeaseSeconds) }
    let active := fun p : Peer => p.id = peerId && p.status = .active
    return ({ s with peers := s.peers.updateWhere active seen fun _ => rfl }, true)
  else return (s, false)

/-- A client certificate as it is presented: whether it parses, carries a signature of the host's
    CA, the client purpose alone and a readable binding, and what it then says. -/
structure PresentedCertificate where
  wellFormed : Bool
  fingerprint : String
  (notBefore notAfter : Nat)
  (bindingPeerId bindingPairingId : Uuid)
  (bindingPeerServerIdentity bindingTeamId : String)
  bindingScopes : List Scope
  bindingTranscriptHash : String

def authenticatePeer (certificate : PresentedCertificate)
    (allowPendingRenewal : Bool) : Except Err PeerAuthorization := do
  let required := Err.refused "peer_authentication_required" "Peer authentication is required" 401
  refuseIf (¬certificate.wellFormed) required
  refuseIf (¬(certificate.notBefore ≤ call.timestamp ∧ call.timestamp < certificate.notAfter))
    required
  let row ← getOr (s.certificates.find? certificate.fingerprint) peerRevoked
  let peer ← getOr (s.peers.find? row.peerId) peerRevoked
  let pairing ← getOr (s.pairings.find? peer.pairingId) peerRevoked
  refuseIf (peer.status ≠ .active ∨ row.revokedAt.isSome ∨ row.validUntil ≤ call.timestamp ∨
    (row.activationRequired ∧ ¬allowPendingRenewal)) peerRevoked
  refuseIf (¬(certificate.bindingPeerId = peer.id ∧ certificate.bindingPairingId = peer.pairingId ∧
    certificate.bindingPeerServerIdentity = peer.peerServerIdentity ∧
    certificate.bindingTeamId = peer.teamId ∧ certificate.bindingScopes = peer.scopes ∧
    certificate.bindingTranscriptHash = peer.transcriptHash)) required
  return { peerId := some peer.id, pairingId := some peer.pairingId,
           peerServerIdentity := peer.peerServerIdentity, teamId := peer.teamId,
           scopes := peer.scopes, certificateFingerprint := row.fingerprint,
           certificateExpiresAt := row.expiresAt, peerDisplayName := pairing.peerDisplayName,
           crossChatGrantEpoch := peer.crossChatGrantEpoch }

/-- A renewal request whose key, CSR and signature were verified. -/
structure RenewalRequest (δ : Type) where
  requestId : Uuid
  createdAt : Nat
  peerPublicKeyPem : String
  requestDigest : δ

def Certificate.current (c : Certificate) (peerId : Uuid) : Bool :=
  c.peerId = peerId && c.supersededAt.isNone && c.revokedAt.isNone && !c.activationRequired

/-- The answer is the fingerprint issued for the request. -/
def renewPeer (peer : PeerAuthorization) (request : RenewalRequest δ)
    (issued : IssuedCertificate) : Except Err (Store δ × String) := do
  let timestamp := call.timestamp
  match s.renewals.find? request.requestId with
  | some existing =>
    refuseIf (some existing.peerId ≠ peer.peerId ∨ existing.requestDigest ≠ request.requestDigest)
      (.refused "idempotency_conflict" "renewal request_id was reused with different content" 409)
    refuseIf (existing.expiresAt ≤ timestamp)
      (.refused "renewal_expired" "Renewal request has expired" 410)
    return (s, existing.newFingerprint)
  | none =>
    refuseIf (300 < timestamp - request.createdAt ∨ 300 < request.createdAt - timestamp)
      (.refused "renewal_expired" "Renewal request time is outside the allowed window" 410)
    let peerId ← getOr peer.peerId peerRevoked
    let current ← getOr (s.certificates.find? peer.certificateFingerprint) peerRevoked
    refuseIf (¬current.current peerId) peerRevoked
    let row ← getOr (s.peers.find? peerId) peerRevoked
    refuseIf (row.status ≠ .active) peerRevoked
    refuseIf (clientCertRenewWindowSeconds < current.expiresAt - timestamp)
      (.refused "renewal_not_due" "Client certificate renewal is not due" 409)
    refuseIf (s.renewals.rows.any fun r => r.peerId = peerId &&
        r.currentFingerprint = current.fingerprint && r.status = .issued &&
        decide (timestamp < r.expiresAt))
      (.refused "renewal_pending" "A certificate renewal is already pending" 409)
    let s ← s.insertCertificate
      { fingerprint := issued.fingerprint, peerId := peerId, serial := issued.serial,
        publicKeyPem := request.peerPublicKeyPem, issuedAt := timestamp,
        expiresAt := timestamp + clientCertTtlSeconds,
        validUntil := timestamp + clientCertTtlSeconds, activationRequired := true }
    let s ← s.insertRenewal
      { requestId := request.requestId, peerId := peerId,
        currentFingerprint := current.fingerprint, newFingerprint := issued.fingerprint,
        requestDigest := request.requestDigest, status := .issued, createdAt := timestamp,
        expiresAt := timestamp + renewalRequestTtlSeconds }
    return (s, issued.fingerprint)

/-- `ORDER BY activated_at DESC,request_id DESC`. -/
def Renewal.newerThan (r q : Renewal δ) : Prop :=
  q.activatedAt.getD 0 < r.activatedAt.getD 0 ∨
    (q.activatedAt.getD 0 = r.activatedAt.getD 0 ∧ q.requestId.text ≤ r.requestId.text)

instance : DecidableRel (Renewal.newerThan (δ := δ)) := fun _ _ =>
  inferInstanceAs (Decidable (_ ∨ _))

/-- The activated renewals of the peer beyond the replay window kept after `renewalId`. -/
def Store.oldRenewals (peerId renewalId : Uuid) : List (Renewal δ) :=
  ((s.renewals.rows.filter fun r => r.peerId = peerId && r.status = .activated &&
    r.requestId ≠ renewalId).insertionSort Renewal.newerThan).drop (activatedRenewalHistoryLimit - 1)

/-- The old certificate is good for a short overlap. -/
def Store.supersedeCertificate (old : Certificate) (timestamp : Nat) : Store δ :=
  let supersede := fun c : Certificate => { c with
    supersededAt := some timestamp,
    validUntil := min old.expiresAt (timestamp + clientCertOverlapSeconds) }
  let isOld := fun c : Certificate => c.fingerprint = old.fingerprint
  { s with certificates := s.certificates.updateWhere (isOld ·) supersede fun _ => rfl }

def Store.activateCertificate (new : Certificate) (peerId : Uuid) : Store δ :=
  let activate := fun c : Certificate => { c with activationRequired := false }
  let rekey := fun p : Peer => { p with publicKeyPem := new.publicKeyPem }
  let isNew := fun c : Certificate => c.fingerprint = new.fingerprint
  let isActive := fun p : Peer => p.id = peerId && p.status = .active
  let s := { s with certificates := s.certificates.updateWhere (isNew ·) activate fun _ => rfl }
  { s with peers := s.peers.updateWhere isActive rekey fun _ => rfl }

/-- The old certificate is superseded after a short overlap. -/
def activateRenewal (peer : PeerAuthorization) (requestId : String) : Except Err (Store δ) := do
  let timestamp := call.timestamp
  let renewalId ← uuid requestId "request_id"
  let unavailable := Err.refused "renewal_unavailable" "Certificate renewal is unavailable" 404
  let conflict := Err.refused "renewal_conflict" "Certificate renewal state changed" 409
  let row ← getOr (s.renewals.find? renewalId) unavailable
  let peerId ← getOr peer.peerId unavailable
  refuseIf (row.peerId ≠ peerId ∨ row.newFingerprint ≠ peer.certificateFingerprint) unavailable
  if row.status = .activated then return s
  else
    refuseIf (row.expiresAt ≤ timestamp)
      (.refused "renewal_expired" "Certificate renewal has expired" 410)
    let old ← getOr (s.certificates.find? row.currentFingerprint) conflict
    let new ← getOr (s.certificates.find? row.newFingerprint) conflict
    refuseIf (¬old.current peerId ∨ new.peerId ≠ peerId ∨ new.revokedAt.isSome ∨
      ¬new.activationRequired) conflict
    let s := s.supersedeCertificate old timestamp
    let s := s.activateCertificate new peerId
    let renewals := s.renewals.updateWhere (fun r => r.requestId = renewalId && r.status = .issued)
      (fun r => { r with status := .activated, activatedAt := some timestamp }) fun _ => rfl
    let s := { s with renewals := renewals }
    return { s with renewals := s.renewals.deleteWhere fun r =>
      (s.oldRenewals peerId renewalId).any fun q => q.requestId = r.requestId }

end SecurePeer
