import ZenithBot.TeamHub.Directory

/-! Device sessions and their refresh tokens (`HubStore` in `store.py`). A session is created with one
    refresh token of generation 0; `refresh` exchanges the token for one of the next generation; presenting
    a token that was exchanged revokes the session. Sessions are also revoked one by one and, when a device
    is lost, all at once for a principal.

    Random values (ids, tokens) and clock readings are arguments, of which nothing is assumed: a value
    that is not fresh runs into a constraint. The digest and the normalisers of texts are arbitrary
    functions. -/

namespace TeamHub
open Lib

def sessionTtlSeconds : Int := 30 * 24 * 60 * 60
def recoveryProofTtlSeconds : Int := 10 * 60

/-! ### Rows and their constraints -/

/-- A row of `device_sessions`. -/
structure Session where
  (id humanPrincipalId deviceLabel : String)
  refreshGeneration : Nat := 0
  (createdAt lastSeenAt expiresAt : Int)
  revokedAt : Option Int := none
  deriving DecidableEq

/-- The checks of a row of `device_sessions`. -/
def Session.check (x : Session) : Bool :=
  0 ≤ x.createdAt && x.createdAt ≤ x.lastSeenAt && x.createdAt < x.expiresAt &&
    x.revokedAt.all (x.createdAt ≤ ·)

/-- The checks of an updated row, and the trigger `device_session_counters_are_monotonic`. -/
def Session.mayBecome (old new : Session) : Bool :=
  new.check && old.refreshGeneration ≤ new.refreshGeneration && old.lastSeenAt ≤ new.lastSeenAt &&
    (old.revokedAt.isNone || new.revokedAt = old.revokedAt)

structure RefreshToken (δ : Type) where
  (id deviceSessionId : String)
  tokenHash : δ
  generation : Nat
  (createdAt expiresAt : Int)
  consumedAt : Option Int := none
  replacedByTokenId : Option String := none
  revokedAt : Option Int := none

variable {δ : Type}

/-- Neither consumed nor revoked. -/
def RefreshToken.live (r : RefreshToken δ) : Bool := r.consumedAt.isNone && r.revokedAt.isNone

/-- The checks of a row of `refresh_tokens`. -/
def RefreshToken.check (r : RefreshToken δ) : Bool :=
  0 ≤ r.createdAt && r.createdAt < r.expiresAt && r.consumedAt.all (r.createdAt ≤ ·) &&
    r.revokedAt.all (r.createdAt ≤ ·) && r.consumedAt.isNone == r.replacedByTokenId.isNone &&
    (r.consumedAt.isNone || r.revokedAt.isNone)

/-- The checks of an updated row, and the trigger `refresh_token_terminal_state_is_one_way`. -/
def RefreshToken.mayBecome (old new : RefreshToken δ) : Bool :=
  new.check &&
    (old.consumedAt.isNone || (new.consumedAt = old.consumedAt &&
      new.replacedByTokenId = old.replacedByTokenId)) &&
    (old.revokedAt.isNone || new.revokedAt = old.revokedAt)

/-- A row of `owner_recovery_claims`. -/
structure RecoveryClaim (δ : Type) where
  (id teamId ownerPrincipalId : String)
  tokenHash : δ
  deviceLabel : String
  (createdAt expiresAt : Int)
  consumedAt : Option Int := none
  consumedBySessionId : Option String := none
  revokedAt : Option Int := none

def RecoveryClaim.live (c : RecoveryClaim δ) : Bool := c.consumedAt.isNone && c.revokedAt.isNone

/-- The checks of a row of `owner_recovery_claims`. -/
def RecoveryClaim.check (c : RecoveryClaim δ) : Bool :=
  0 ≤ c.createdAt && c.createdAt < c.expiresAt && c.consumedAt.all (c.createdAt ≤ ·) &&
    c.revokedAt.all (c.createdAt ≤ ·) && c.consumedAt.isNone == c.consumedBySessionId.isNone &&
    (c.consumedAt.isNone || c.revokedAt.isNone)

/-- A row of `access_token_revocations`. -/
structure AccessRevocation (δ : Type) where
  jtiHash : δ
  deviceSessionId : String
  (expiresAt revokedAt : Int)

structure Hub (δ : Type) where
  dir : Directory δ
  sessions : Table Session String Session.id
  tokens : Table (RefreshToken δ) String RefreshToken.id
  recoveryClaims : Table (RecoveryClaim δ) String RecoveryClaim.id
  accessRevocations : Table (AccessRevocation δ) δ AccessRevocation.jtiHash

def Hub.empty : Hub δ := ⟨.empty, .empty, .empty, .empty, .empty⟩

/-- The functions on texts that the hub is built on: SHA-256, the normalised form of an e-mail
    address, of a request id (`none` when it is not valid), and the scheme of a URL. -/
structure Texts (δ : Type) where
  sha256 : String → δ
  email : String → Option String
  canonicalRequestId : String → Option String
  urlScheme : String → String

variable [DecidableEq δ] (texts : Texts δ) (s : Hub δ)

def tokenHash (value : String) : Option δ :=
  if 16 ≤ value.length ∧ value.length ≤ 4096 then some (texts.sha256 value) else none

def tokenDigest (token : String) : Option δ :=
  if 16 ≤ token.length ∧ token.length ≤ 512 then some (texts.sha256 token) else none

/-- `_email`. -/
def emailOf (value : String) : Except Err String :=
  getOr (texts.email value) (.value "email is invalid")

namespace Hub

variable (claims : AccessClaims)

/-! ### Statements -/

def insertSession (x : Session) : Except Err (Hub δ) := do
  refuseIf (x.check = false) .integrity
  refuseIf (s.dir.human? x.humanPrincipalId = none) .integrity
  let sessions ← getOr (s.sessions.insert? x) .integrity
  return { s with sessions := sessions }

/-- Two tokens that a unique index of `refresh_tokens` forbids to coexist. -/
def clashes (r r' : RefreshToken δ) : Bool :=
  r.tokenHash = r'.tokenHash ||
    (r.deviceSessionId = r'.deviceSessionId && r.generation = r'.generation)

def insertToken (r : RefreshToken δ) : Except Err (Hub δ) := do
  refuseIf (r.check = false) .integrity
  refuseIf (s.sessions.find? r.deviceSessionId = none) .integrity
  refuseIf (∃ r' ∈ s.tokens.rows, clashes r' r = true) .integrity
  let tokens ← getOr (s.tokens.insert? r) .integrity
  return { s with tokens := tokens }

/-- `UPDATE device_sessions SET revoked_at = ? WHERE … AND revoked_at IS NULL`. -/
def revokeSessionsWhere (p : Session → Bool) (timestamp : Int) : Except Err (Hub δ) := do
  let sessions ← getOr (s.sessions.update? (fun x => p x && x.revokedAt.isNone)
    (fun x => { x with revokedAt := some timestamp }) (fun _ => rfl) Session.mayBecome) .integrity
  return { s with sessions := sessions }

/-- `UPDATE refresh_tokens SET revoked_at = ? WHERE … AND consumed_at IS NULL AND revoked_at IS
    NULL`. -/
def revokeTokensWhere (p : RefreshToken δ → Bool) (timestamp : Int) : Except Err (Hub δ) := do
  let tokens ← getOr (s.tokens.update? (fun r => p r && r.live)
    (fun r => { r with revokedAt := some timestamp }) (fun _ => rfl) RefreshToken.mayBecome)
    .integrity
  return { s with tokens := tokens }

/-- The two statements that revoke one session. -/
def revokeOne (sessionId : String) (timestamp : Int) : Except Err (Hub δ) := do
  let s ← s.revokeSessionsWhere (fun x => x.id = sessionId) timestamp
  s.revokeTokensWhere (fun r => r.deviceSessionId = sessionId) timestamp

/-- The two statements that revoke every session of a principal. -/
def revokeAllOf (principalId : String) (timestamp : Int) : Except Err (Hub δ) := do
  let s ← s.revokeSessionsWhere (fun x => x.humanPrincipalId = principalId) timestamp
  s.revokeTokensWhere (fun r => s.sessions.rows.any fun x =>
    x.id = r.deviceSessionId && x.humanPrincipalId = principalId) timestamp

/-- A step of the directory inside a transaction of the hub. -/
def onDir (f : Directory δ → Except Err (Directory δ)) : Except Err (Hub δ) := do
  let dir ← f s.dir
  return { s with dir := dir }

/-! ### Creating a session -/

/-- The values `_create_session` draws at random. -/
structure NewSession where
  (sessionId refreshId refresh : String)

def createSession (principalId deviceLabel : String) (new : NewSession)
    (timestamp : Int) : Except Err (Hub δ) := do
  let label ← boundedText deviceLabel "device_label" 1 160
  let expiresAt := timestamp + sessionTtlSeconds
  let s ← s.insertSession
    { id := new.sessionId, humanPrincipalId := principalId, deviceLabel := label,
      createdAt := timestamp, lastSeenAt := timestamp, expiresAt := expiresAt }
  s.insertToken
    { id := new.refreshId, deviceSessionId := new.sessionId, tokenHash := texts.sha256 new.refresh,
      generation := 0, createdAt := timestamp, expiresAt := expiresAt }

/-! ### Refresh -/

/-- How a call of `refresh` that commits ends: with a new bundle, or with the error raised after a
    replay was committed. -/
inductive Verdict where
  | bundle (sessionId refreshToken : String) (refreshExpiresAt : Int)
  | replay

def tokenByHash (digest : δ) : Option (RefreshToken δ) :=
  s.tokens.rows.find? fun r => r.tokenHash = digest

/-- The branch of `refresh` for a token that was exchanged. -/
def replayed (session : Session) (timestamp : Int) : Except Err (Hub δ) := do
  let s ← s.revokeOne session.id timestamp
  s.onDir fun d => d.auditPrincipalTeams session.humanPrincipalId timestamp

/-- The trigger `refresh_token_rotation_stays_in_session`. -/
def hasReplacement (old new : RefreshToken δ) : Bool :=
  s.tokens.rows.any fun q => q.deviceSessionId = old.deviceSessionId &&
    some q.id = new.replacedByTokenId && q.generation = old.generation + 1 && q.live

/-- `UPDATE refresh_tokens SET consumed_at = ?, replaced_by_token_id = ?`, which must change one
    row. -/
def consume (refreshId replacementId : String) (timestamp : Int) : Except Err (Hub δ) := do
  let tokens ← getOr (s.tokens.update? (fun r => r.id = refreshId && r.live)
    (fun r => { r with consumedAt := some timestamp, replacedByTokenId := some replacementId })
    (fun _ => rfl) (fun old new => old.mayBecome new && s.hasReplacement old new)) .integrity
  refuseIf (s.tokens.countWhere (fun r => r.id = refreshId && r.live) ≠ 1) authenticationRequired
  return { s with tokens := tokens }

/-- `UPDATE device_sessions SET refresh_generation = ?, last_seen_at = ?`. -/
def advance (sessionId : String) (generation : Nat) (timestamp : Int) : Except Err (Hub δ) := do
  let sessions ← getOr (s.sessions.update? (fun x => x.id = sessionId && x.revokedAt.isNone)
    (fun x => { x with refreshGeneration := generation, lastSeenAt := timestamp }) (fun _ => rfl)
    Session.mayBecome) .integrity
  return { s with sessions := sessions }

/-- The branch of `refresh` that exchanges the token. -/
def rotate (r : RefreshToken δ) (session : Session) (principal : Principal)
    (replacement replacementId : String) (timestamp : Int) : Except Err (Hub δ) := do
  refuseIf (r.revokedAt.isSome = true ∨ session.revokedAt.isSome = true ∨
    principal.status ≠ .active ∨ r.expiresAt ≤ timestamp ∨ session.expiresAt ≤ timestamp)
    authenticationRequired
  let s ← s.insertToken
    { id := replacementId, deviceSessionId := session.id,
      tokenHash := texts.sha256 replacement, generation := r.generation + 1,
      createdAt := timestamp, expiresAt := session.expiresAt }
  let s ← s.consume r.id replacementId timestamp
  let s ← s.advance session.id (r.generation + 1) timestamp
  s.onDir fun d => d.auditPrincipalTeams session.humanPrincipalId timestamp

def refresh (refreshToken replacement replacementId : String) (timestamp : Int) :
    Except Err (Hub δ × Verdict) := do
  let digest ← getOr (tokenHash texts refreshToken) authenticationRequired
  let r ← getOr (s.tokenByHash digest) authenticationRequired
  let session ← getOr (s.sessions.find? r.deviceSessionId) authenticationRequired
  let principal ← getOr (s.dir.human? session.humanPrincipalId) authenticationRequired
  if r.consumedAt.isSome = true ∨ r.generation ≠ session.refreshGeneration then do
    let s ← s.replayed session timestamp
    return (s, .replay)
  else do
    let s ← s.rotate texts r session principal replacement replacementId timestamp
    return (s, .bundle session.id replacement session.expiresAt)

/-! ### Authentication of an access token -/

inductive AuthKind where
  | human | localAgentMail | managedServer | securePeer | other
  deriving DecidableEq

inductive TeamScope where
  | teamspaceRead | teamspaceWrite
  deriving DecidableEq

structure AccessClaims where
  (principalId sessionId jti : String)
  expiresAt : Int
  authKind : AuthKind := .human
  teamId : Option String := none
  /-- The scopes, each named once in this order when it is granted. -/
  scopes : List TeamScope := []
  peerId : Option String := none

/-- The row `_require_session` returns. -/
structure SessionView where
  id : String
  principal : Principal
  deviceLabel : String
  expiresAt : Int

/-- The service principal behind an automation credential: active, with this identifier, and an
    active automation member of the team. -/
def automationActor (principalId identifier teamId : String) : Option Principal :=
  (s.dir.principals.find? principalId).filter fun p =>
    p.kind = .service identifier && p.status = .active &&
      (s.dir.memberships.rows.any fun m => m.principalId = principalId && m.teamId = teamId &&
        m.role = .automation && m.status = .active)

def requireLocalAgentMail (timestamp : Int) : Option SessionView := do
  let teamId ← claims.teamId
  if claims.principalId ≠ Directory.localControlPrincipalId ∨ claims.expiresAt ≤ timestamp ∨
      claims.sessionId ≠ "local_agent_mail_session_" ++ teamId ∨
      claims.scopes ≠ [.teamspaceRead, .teamspaceWrite] ∨ claims.peerId.isSome = true then none
  else
    let p ← s.automationActor Directory.localControlPrincipalId
      Directory.localControlServiceIdentifier teamId
    some ⟨claims.sessionId, p, "AgentsDock agent mail", claims.expiresAt⟩

def requireManagedServer (timestamp : Int) : Option SessionView := do
  let teamId ← claims.teamId
  if claims.principalId ≠ Directory.managedServerPrincipalId ∨ claims.expiresAt ≤ timestamp ∨
      claims.sessionId ≠ "managed_server_session_" ++ teamId ∨
      claims.jti ≠ "managed_server_" ++ teamId ∨
      claims.scopes ≠ [.teamspaceRead, .teamspaceWrite] ∨ claims.peerId.isSome = true ∨
      ¬ ∃ n ∈ s.dir.nodes.rows, n.teamId = teamId ∧ n.status = .active ∧
        s.dir.managedHost = some n.serverIdentity then none
  else
    let p ← s.automationActor Directory.managedServerPrincipalId
      Directory.managedServerServiceIdentifier teamId
    some ⟨claims.sessionId, p, "AgentsDock managed server", claims.expiresAt⟩

def requireSecurePeer (timestamp : Int) : Option SessionView := do
  let teamId ← claims.teamId
  let peerId ← claims.peerId
  if claims.expiresAt ≤ timestamp ∨ claims.sessionId ≠ "secure_peer_session_" ++ peerId then none
  else
    let p ← s.automationActor claims.principalId ("agentsdock.secure-peer." ++ peerId) teamId
    some ⟨claims.sessionId, p, "Secure paired server", claims.expiresAt⟩

/-- The branch for people: the device session named by the token. -/
def requireHuman (timestamp : Int) : Option SessionView := do
  let x ← s.sessions.find? claims.sessionId
  let p ← s.dir.human? x.humanPrincipalId
  if x.humanPrincipalId = claims.principalId ∧ x.revokedAt = none ∧ timestamp < x.expiresAt ∧
      p.status = .active ∧
      ¬ ∃ v ∈ s.accessRevocations.rows, v.deviceSessionId = x.id ∧
        v.jtiHash = texts.sha256 claims.jti ∧ timestamp < v.expiresAt
  then some ⟨x.id, p, x.deviceLabel, x.expiresAt⟩ else none

def requireSession (timestamp : Int) : Except Err SessionView :=
  getOr (match claims.authKind with
    | .localAgentMail => s.requireLocalAgentMail claims timestamp
    | .managedServer => s.requireManagedServer claims timestamp
    | .securePeer => s.requireSecurePeer claims timestamp
    | .human => s.requireHuman texts claims timestamp
    | .other => none) authenticationRequired

/-! ### Revocation -/

/-- `INSERT OR IGNORE INTO access_token_revocations`. -/
def revokeAccess (timestamp : Int) : Hub δ :=
  if claims.expiresAt < 0 ∨ timestamp < 0 then s
  else match s.accessRevocations.insert?
      ⟨texts.sha256 claims.jti, claims.sessionId, claims.expiresAt, timestamp⟩ with
    | some t => { s with accessRevocations := t }
    | none => s

def revokeSession (refreshToken : String) (timestamp : Int) : Except Err (Hub δ) := do
  let digest ← getOr (tokenHash texts refreshToken) authenticationRequired
  let _ ← s.requireSession texts claims timestamp
  refuseIf (¬ ∃ r ∈ s.tokens.rows, r.deviceSessionId = claims.sessionId ∧ r.tokenHash = digest)
    authenticationRequired
  let s ← s.revokeOne claims.sessionId timestamp
  (s.revokeAccess texts claims timestamp).onDir fun d =>
    d.auditPrincipalTeams claims.principalId timestamp

/-- `revoke_device_session`, after the target's id was normalised. -/
def revokeDeviceSession (deviceSessionId : String) (timestamp : Int) : Except Err (Hub δ) := do
  let view ← s.requireSession texts claims timestamp
  refuseIf (view.principal.kind.isHuman = false) (.hub "forbidden" "Operation is not permitted" 403)
  refuseIf (¬ ∃ x ∈ s.sessions.rows, x.id = deviceSessionId ∧
    x.humanPrincipalId = claims.principalId) (.hub "not_found" "Resource not found" 404)
  let s ← s.revokeOne deviceSessionId timestamp
  s.onDir fun d => d.auditPrincipalTeams claims.principalId timestamp

/-! ### Recovery of a lost device -/

def recoveryUnavailable (status : Nat) : Err :=
  .hub "recovery_unavailable" "Device recovery is unavailable" status

/-- The memberships that `issue_device_recovery` selects. -/
def recoverable (email : String) (teamId : Option String) (requireOwner : Bool) : List Membership :=
  s.dir.memberships.rows.filter fun m =>
    (s.dir.human? m.principalId).any (fun p => p.kind = .human email && p.status = .active) &&
      m.status = .active && teamId.all (m.teamId = ·) && (!requireOwner || m.role = .owner)

/-- `UPDATE owner_recovery_claims SET revoked_at = ?` over the open claims of a principal. -/
def revokeClaims (principalId : String) (timestamp : Int) : Except Err (Hub δ) := do
  let claims ← getOr (s.recoveryClaims.update?
    (fun c => c.ownerPrincipalId = principalId && c.live)
    (fun c => { c with revokedAt := some timestamp }) (fun _ => rfl) (fun _ c => c.check)) .integrity
  return { s with recoveryClaims := claims }

def insertClaim (c : RecoveryClaim δ) : Except Err (Hub δ) := do
  refuseIf (c.check = false) .integrity
  refuseIf (∃ c' ∈ s.recoveryClaims.rows, c'.tokenHash = c.tokenHash) .integrity
  let claims ← getOr (s.recoveryClaims.insert? c) .integrity
  return { s with recoveryClaims := claims }

/-- The arguments of `issue_device_recovery` and what it draws at random or meets on the way: the
    proof file may fail to be written. -/
structure RecoveryRequest where
  (email deviceLabel : String)
  teamId : Option String := none
  requireOwner : Bool := false
  (proof claimId localMembershipId : String)
  proofWritten : Bool := true

def issueDeviceRecovery (q : RecoveryRequest) (timestamp : Int) : Except Err (Hub δ × String) := do
  let email ← emailOf texts q.email
  let label ← boundedText q.deviceLabel "device_label" 1 160
  let m ← getOr (match s.recoverable email q.teamId q.requireOwner with
    | [m] => some m
    | _ => none) (recoveryUnavailable 409)
  let s ← s.revokeAllOf m.principalId timestamp
  let s ← s.revokeClaims m.principalId timestamp
  refuseIf (q.proofWritten = false) .os
  let s ← s.insertClaim
    { id := q.claimId, teamId := m.teamId, ownerPrincipalId := m.principalId,
      tokenHash := texts.sha256 q.proof, deviceLabel := label, createdAt := timestamp,
      expiresAt := timestamp + recoveryProofTtlSeconds }
  let s ← s.onDir fun d => d.localControlPrincipal m.teamId q.localMembershipId timestamp
  let s ← s.onDir fun d => d.audit m.teamId Directory.localControlPrincipalId timestamp
  return (s, m.principalId)

def openClaim (digest : δ) (timestamp : Int) : Option (RecoveryClaim δ) :=
  s.recoveryClaims.rows.find? fun c => c.tokenHash = digest && c.live && timestamp < c.expiresAt &&
    (s.dir.memberships.rows.any fun m => m.teamId = c.teamId &&
      m.principalId = c.ownerPrincipalId && m.status = .active) &&
    (s.dir.principals.find? c.ownerPrincipalId).any fun p => p.status = .active

/-- `UPDATE owner_recovery_claims SET consumed_at = ?`, which must change one row. -/
def consumeClaim (claimId sessionId : String) (timestamp : Int) : Except Err (Hub δ) := do
  let isOpen := fun c : RecoveryClaim δ => c.id = claimId && c.live && timestamp < c.expiresAt
  let claims ← getOr (s.recoveryClaims.update? isOpen
    (fun c => { c with consumedAt := some timestamp, consumedBySessionId := some sessionId })
    (fun _ => rfl) (fun _ c => c.check)) .integrity
  refuseIf (s.recoveryClaims.countWhere isOpen ≠ 1) (recoveryUnavailable 403)
  return { s with recoveryClaims := claims }

def redeemDeviceRecovery (proof deviceLabel : String) (new : NewSession)
    (localMembershipId : String) (timestamp : Int) : Except Err (Hub δ) := do
  let digest ← getOr (tokenHash texts proof) (recoveryUnavailable 403)
  let label ← boundedText deviceLabel "device_label" 1 160
  let claim ← getOr (s.openClaim digest timestamp) (recoveryUnavailable 403)
  refuseIf (claim.deviceLabel ≠ label) (recoveryUnavailable 403)
  let s ← s.revokeAllOf claim.ownerPrincipalId timestamp
  let s ← s.createSession texts claim.ownerPrincipalId label new timestamp
  let s ← s.consumeClaim claim.id new.sessionId timestamp
  let s ← s.onDir fun d => d.localControlPrincipal claim.teamId localMembershipId timestamp
  s.onDir fun d => d.audit claim.teamId Directory.localControlPrincipalId timestamp

end Hub

/-! ### Joining the hub -/

namespace Directory

variable (d : Directory δ)

def credentialUnavailable : Err := .authentication "credential is invalid or unavailable"

/-- The invitation with this digest, while its issuer may still invite. -/
def invitation? (digest : δ) : Option (Invitation δ) :=
  d.invitations.rows.find? fun i => i.tokenHash = digest &&
    (d.memberships.rows.any fun m => m.teamId = i.teamId &&
      m.principalId = i.issuedByPrincipalId && m.status = .active &&
      (m.role = .owner || m.role = .admin)) &&
    (d.principals.find? i.issuedByPrincipalId).any fun p => p.status = .active

/-- The membership an invitation grants: the one the person has, or a new one. -/
def grantMembership (i : Invitation δ) (principalId membershipId : String)
    (timestamp : Int) : Except Err (Directory δ) :=
  match d.membership? i.teamId principalId with
  | some m => do
    refuseIf (m.status ≠ .active ∨ m.role ≠ i.role)
      (.authorization "existing membership conflicts with invitation")
    return d
  | none => d.insertMembership ⟨membershipId, i.teamId, principalId, i.role, .active,
      some i.issuedByPrincipalId, timestamp, timestamp⟩

/-- `UPDATE invitations SET redeemed_at = ?`, which must change one row. -/
def markRedeemed (id principalId : String) (timestamp : Int) : Except Err (Directory δ) := do
  let isOpen := fun i : Invitation δ =>
    i.id = id && i.redeemedAt.isNone && i.revokedAt.isNone && timestamp < i.expiresAt
  let invitations ← getOr (d.invitations.update? isOpen
    (fun i => { i with redeemedAt := some timestamp, redeemedByPrincipalId := some principalId })
    (fun _ => rfl) (fun _ i => i.redeemedAt.all (i.createdAt ≤ ·))) .integrity
  refuseIf (d.invitations.countWhere isOpen ≠ 1) credentialUnavailable
  return { d with invitations := invitations }

def redeemInvitation (digest : δ) (principalId membershipId : String)
    (timestamp : Int) : Except Err (Directory δ) := do
  let i ← getOr (d.invitation? digest) credentialUnavailable
  refuseIf (i.redeemedAt.isSome = true ∨ i.revokedAt.isSome = true ∨ i.expiresAt ≤ timestamp)
    credentialUnavailable
  let p ← getOr ((d.human? principalId).filter fun p => p.status = .active)
    (.authentication "human account is unavailable")
  refuseIf (¬ i.inviteeEmailNormalized.any fun e => p.kind = .human e) credentialUnavailable
  let d ← d.grantMembership i principalId membershipId timestamp
  d.markRedeemed i.id principalId timestamp

end Directory

namespace Hub

def invitationUnavailable : Err := .hub "invitation_unavailable" "Invitation is unavailable" 403

/-- `except (AuthenticationError, AuthorizationError)`. -/
def asInvitationError : Err → Err
  | .authentication _ | .authorization _ => invitationUnavailable
  | e => e

/-- The arguments of `redeem_invite` and what it draws at random. -/
structure InviteRequest where
  (inviteToken email displayName deviceLabel principalId membershipId : String)
  new : NewSession

/-- The transaction of `redeem_invite`. -/
def acceptInvitation (q : InviteRequest) (email : String) (digest : δ)
    (timestamp : Int) : Except Err (Hub δ) := do
  let i ← getOr (s.dir.invitations.rows.find? fun i => i.tokenHash = digest &&
    i.redeemedAt.isNone && i.revokedAt.isNone && timestamp < i.expiresAt) invitationUnavailable
  refuseIf (i.inviteeEmailNormalized ≠ some email) invitationUnavailable
  refuseIf (∃ p ∈ s.dir.principals.rows, p.kind = .human email)
    (.hub "invitation_requires_authentication" "Sign in to accept this invitation" 409)
  let name ← boundedText q.displayName "display_name" 1 160
  let s ← s.onDir fun d => d.insertPrincipal
    ⟨q.principalId, .human email, name, .active, timestamp, timestamp⟩
  let s ← s.onDir fun d => d.redeemInvitation digest q.principalId q.membershipId timestamp
  let s ← s.createSession texts q.principalId q.deviceLabel q.new timestamp
  s.onDir fun d => d.audit i.teamId q.principalId timestamp

def redeemInvite (q : InviteRequest) (timestamp : Int) : Except Err (Hub δ) := do
  let email ← emailOf texts q.email
  let digest ← getOr (tokenDigest texts q.inviteToken) invitationUnavailable
  (s.acceptInvitation texts q email digest timestamp).mapError asInvitationError

inductive Transport where
  | loopback | tailscaleServe | directIp
  deriving DecidableEq

/-- The server a hub belongs to. -/
structure Host where
  hubId : String
  managedHostIdentity : Option String := none
  managedServerInstanceId : Option String := none

/-- The arguments of `bootstrap` and what it draws at random. -/
structure BootstrapRequest where
  (proof email displayName deviceLabel : String)
  transport : Transport := .loopback
  requestId : Option String := none
  tailnetLogin : Option String := none
  hubUrl : Option String := none
  (principalId teamId membershipId localMembershipId managedMembershipId : String)
  new : NewSession

def bootstrapUnavailable (status : Nat) : Err :=
  .hub "bootstrap_unavailable" "Bootstrap is unavailable" status

def clean? (value : String) : Option String := (boundedText value "" 1 160).toOption

/-- A remote bootstrap is the one its delegation names. -/
def delegated (host : Host) (q : BootstrapRequest) (d : Delegation) : Bool :=
  let url := q.hubUrl.getD ""
  "bootstrap_remote.".toList.isPrefixOf q.proof.toList &&
    texts.canonicalRequestId (q.requestId.getD "") = some d.requestId &&
    host.managedHostIdentity = some d.serverIdentity &&
    host.managedServerInstanceId = some d.serverInstanceId && d.hubId = host.hubId &&
    d.hubUrl = url && (q.transport ≠ .tailscaleServe || texts.urlScheme d.hubUrl = "https") &&
    (q.transport ≠ .directIp || texts.urlScheme d.hubUrl = "http") &&
    texts.email (q.tailnetLogin.getD "") = some d.tailnetLoginNormalized &&
    texts.email q.email = some d.recipientEmailNormalized &&
    clean? q.displayName = some d.displayName && clean? q.deviceLabel = some d.deviceLabel

/-- The proof may be used over this transport. -/
def transportAllowed (host : Host) (q : BootstrapRequest) (c : BootstrapClaim δ) : Bool :=
  match q.transport, c.delegation with
  | .loopback, none => q.requestId.isNone && "bootstrap.".toList.isPrefixOf q.proof.toList
  | .loopback, some _ => false
  | _, none => false
  | _, some d => delegated texts host q d

def globallyEmpty : Bool :=
  s.dir.principals.rows.isEmpty && s.dir.teams.isEmpty && s.dir.memberships.rows.isEmpty &&
    s.sessions.rows.isEmpty

/-- `bootstrap_personal_team` in an empty directory. -/
def bootstrapPersonalTeam (q : BootstrapRequest) (timestamp : Int) : Except Err (Hub δ) := do
  let email ← emailOf texts q.email
  let name ← boundedText q.displayName "display_name" 1 160
  let s ← s.onDir fun d => d.insertPrincipal
    ⟨q.principalId, .human email, name, .active, timestamp, timestamp⟩
  let s ← s.onDir fun d => .ok { d with teams := d.teams ++ [q.teamId] }
  s.onDir fun d => d.insertMembership
    ⟨q.membershipId, q.teamId, q.principalId, .owner, .active, none, timestamp, timestamp⟩

/-- `UPDATE bootstrap_claims SET consumed_at = ?`, which must change one row. -/
def consumeBootstrap (claimId principalId : String) (timestamp : Int) (d : Directory δ) :
    Except Err (Directory δ) := do
  let isOpen := fun c : BootstrapClaim δ =>
    c.id = claimId && c.consumedAt.isNone && c.revokedAt.isNone && timestamp < c.expiresAt
  let claims ← getOr (d.bootstrapClaims.update? isOpen
    (fun c => { c with consumedAt := some timestamp, consumedByPrincipalId := some principalId })
    (fun _ => rfl) (fun _ c => c.consumedAt.all (c.createdAt ≤ ·))) .integrity
  refuseIf (d.bootstrapClaims.countWhere isOpen ≠ 1) (bootstrapUnavailable 403)
  return { d with bootstrapClaims := claims }

def bootstrap (host : Host) (s : Hub δ) (q : BootstrapRequest) (timestamp : Int) :
    Except Err (Hub δ) := do
  let digest ← getOr (tokenHash texts q.proof) (bootstrapUnavailable 403)
  refuseIf (s.globallyEmpty = false) (bootstrapUnavailable 409)
  let claim ← getOr (s.dir.bootstrapClaims.rows.find? fun c => c.tokenHash = digest &&
    c.consumedAt.isNone && c.revokedAt.isNone && timestamp < c.expiresAt) (bootstrapUnavailable 403)
  refuseIf (transportAllowed texts host q claim = false) (bootstrapUnavailable 403)
  let s ← s.bootstrapPersonalTeam texts q timestamp
  let s ← s.onDir fun d => d.localControlPrincipal q.teamId q.localMembershipId timestamp
  let s ← s.onDir fun d => d.managedServerPrincipal q.teamId q.managedMembershipId timestamp
  let s ← s.onDir (consumeBootstrap claim.id q.principalId timestamp)
  let s ← s.createSession texts q.principalId q.deviceLabel q.new timestamp
  s.onDir fun d => d.audit q.teamId q.principalId timestamp

end Hub

/-! ### Runs -/

/-- What the rest of the hub may do to the directory: accounts stay what they are, and a chain head
    that changes carries the time of the change. -/
structure Directory.Edited (timestamp : Int) (d d' : Directory δ) : Prop where
  account : ∀ p ∈ d.principals, p.kind.isHuman = true →
    ∃ p' ∈ d'.principals, p'.id = p.id ∧ p'.kind = p.kind
  head : ∀ h' ∈ d'.auditHeads, h' ∈ d.auditHeads ∨ h'.updatedAt = timestamp

omit [DecidableEq δ] in
lemma Directory.edited_iff {timestamp : Int} {d d' : Directory δ} :
    (∀ p ∈ d.principals.rows, p.kind.isHuman = true →
      ∃ p' ∈ d'.principals.rows, p'.id = p.id ∧ p'.kind = p.kind) ∧
    (∀ h' ∈ d'.auditHeads.rows, h' ∈ d.auditHeads.rows ∨ h'.updatedAt = timestamp) ↔
    d.Edited timestamp d' :=
  ⟨fun h => ⟨h.1, h.2⟩, fun h => ⟨h.account, h.head⟩⟩

instance (timestamp : Int) (d d' : Directory δ) : Decidable (d.Edited timestamp d') :=
  decidable_of_iff _ Directory.edited_iff

/-- An operation, with every clock reading and random value it meets. -/
inductive Op (δ : Type) where
  | bootstrap (host : Hub.Host) (q : Hub.BootstrapRequest) (timestamp : Int)
  | redeemInvite (q : Hub.InviteRequest) (timestamp : Int)
  | refresh (refreshToken replacement replacementId : String) (timestamp : Int)
  | revokeSession (claims : Hub.AccessClaims) (refreshToken : String) (timestamp : Int)
  | revokeDeviceSession (claims : Hub.AccessClaims) (deviceSessionId : String) (timestamp : Int)
  | issueDeviceRecovery (q : Hub.RecoveryRequest) (timestamp : Int)
  | redeemDeviceRecovery (proof deviceLabel : String) (new : Hub.NewSession)
      (localMembershipId : String) (timestamp : Int)
  /-- Everything else the hub does: it leaves sessions and tokens alone. -/
  | elsewhere (dir : Directory δ) (timestamp : Int)

/-- The clock reading of an operation. -/
def Op.timestamp : Op δ → Int
  | .bootstrap _ _ t | .redeemInvite _ t | .refresh _ _ _ t | .revokeSession _ _ t
  | .revokeDeviceSession _ _ t | .issueDeviceRecovery _ t | .redeemDeviceRecovery _ _ _ _ t
  | .elsewhere _ t => t

/-- The transaction an operation runs. -/
def Hub.perform : Op δ → Except Err (Hub δ)
  | .bootstrap host q t => s.bootstrap texts host q t
  | .redeemInvite q t => s.redeemInvite texts q t
  | .refresh token replacement id t => do return (← s.refresh texts token replacement id t).1
  | .revokeSession claims token t => s.revokeSession texts claims token t
  | .revokeDeviceSession claims id t => s.revokeDeviceSession texts claims id t
  | .issueDeviceRecovery q t => do return (← s.issueDeviceRecovery texts q t).1
  | .redeemDeviceRecovery proof label new m t => s.redeemDeviceRecovery texts proof label new m t
  | .elsewhere dir t => if s.dir.Edited t dir then .ok { s with dir := dir } else .error .integrity

/-- The state after an operation: a transaction that raises is rolled back. -/
def Hub.step (op : Op δ) : Hub δ :=
  match s.perform texts op with
  | .ok s' => s'
  | .error _ => s

end TeamHub
