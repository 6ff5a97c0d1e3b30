import ZenithBot.TeamHub.Sessions

/-! Invitations to a team and the administration of its human members (`auth.py`, `store.py`).

        issue_invite ──▶ open ──▶ redeemed   (redeem_invite by a new account, accept_invite by an
                          │                   account that is signed in)
                          └────▶ revoked     (revoke_invitation)

    A redemption creates a membership with the role of the invitation, or finds one that has it; only
    `update_human_membership` also writes the role or the status of a person's membership. Random values
    and clock readings are arguments, as in `Sessions`. -/

namespace TeamHub
open Lib

variable {δ : Type} (d : Directory δ)

def invitationMaxTtlSeconds : Int := 24 * 60 * 60
def minTtlSeconds : Int := 30

/-- A character that `IDENTITY_PATTERN` allows after the first. -/
def isIdentityChar (c : Char) : Bool :=
  c.isAlphanum || ['.', '_', ':', '@', '/', '-'].contains c

/-- `_identity`; `none` is its `ValueError`. -/
def identity? (value : String) : Option String :=
  let normalized := Py.strip value
  match normalized.toList with
  | [] => none
  | c :: cs =>
    if c.isAlphanum && 7 ≤ cs.length && cs.length ≤ 239 && cs.all isIdentityChar then
      some normalized
    else none

def resourceNotFound : Err := .hub "not_found" "Resource not found" 404
def forbidden : Err := .hub "forbidden" "Operation is not permitted" 403

/-- The roles that an invitation or an owner may give. -/
def Role.assignable : Role → Bool
  | .admin | .member | .guest => true
  | .owner | .automation => false

/-- The checks of an updated row of `memberships`, and the triggers
    `membership_revocation_is_terminal` and `active_owner_cannot_be_removed`. -/
def Membership.mayBecome (old new : Membership) : Bool :=
  new.createdAt ≤ new.updatedAt && (old.status ≠ .revoked || new.status = .revoked) &&
    (old.role ≠ .owner || old.status ≠ .active || (new.role = .owner && new.status = .active))

namespace Directory

/-! ### Statements -/

def requireTeamRole (teamId principalId : String) (allowed : List Role) :
    Except Err Membership := do
  let denied : Err := .authorization "active team role does not permit this operation"
  let m ← getOr ((d.membership? teamId principalId).filter fun m => m.status = .active &&
    (d.principals.find? principalId).any fun p => p.status = .active) denied
  refuseIf (m.role ∉ allowed) denied
  return m

/-- `_require_team_owner_for_human_administration`. -/
def requireTeamOwner (principalId teamId : String) : Except Err String := do
  let teamId ← getOr (identity? teamId) resourceNotFound
  let viewer ← (d.requireTeamRole teamId principalId
    [.owner, .admin, .member, .guest, .automation]).mapError fun _ => resourceNotFound
  refuseIf (viewer.role ≠ .owner) forbidden
  return teamId

def insertInvitation [DecidableEq δ] (d : Directory δ) (i : Invitation δ) :
    Except Err (Directory δ) := do
  refuseIf (i.createdAt < 0 ∨ i.expiresAt ≤ i.createdAt) .integrity
  refuseIf (∃ j ∈ d.invitations.rows, j.tokenHash = i.tokenHash) .integrity
  let invitations ← getOr (d.invitations.insert? i) .integrity
  return { d with invitations := invitations }

/-- `UPDATE invitations SET revoked_at = ?`, which must change one row. -/
def markRevoked (teamId id : String) (timestamp : Int) : Except Err (Directory δ) := do
  let isOpen := fun i : Invitation δ => i.id = id && i.teamId = teamId && i.redeemedAt.isNone &&
    i.revokedAt.isNone && timestamp < i.expiresAt
  let invitations ← getOr (d.invitations.update? isOpen
    (fun i => { i with revokedAt := some timestamp }) (fun _ => rfl)
    (fun _ i => i.revokedAt.all (i.createdAt ≤ ·))) .integrity
  refuseIf (d.invitations.countWhere isOpen ≠ 1) resourceNotFound
  return { d with invitations := invitations }

/-- `UPDATE memberships SET …, updated_at = ? WHERE team_id = ? AND principal_id = ?`. -/
def updateMembership (teamId principalId : String)
    (f : Membership → Membership) (hf : ∀ m, (f m).id = m.id) : Except Err (Directory δ) := do
  let memberships ← getOr (d.memberships.update?
    (fun m => m.teamId = teamId && m.principalId = principalId) f hf
    (fun old new => old.mayBecome new && d.compatible new)) .integrity
  return { d with memberships := memberships }

def setRole (teamId principalId : String) (role : Role) (timestamp : Int) :
    Except Err (Directory δ) :=
  d.updateMembership teamId principalId (fun m => { m with role := role, updatedAt := timestamp })
    fun _ => rfl

def setStatus (teamId principalId : String) (status : Status)
    (timestamp : Int) : Except Err (Directory δ) :=
  d.updateMembership teamId principalId
    (fun m => { m with status := status, updatedAt := timestamp }) fun _ => rfl

/-! ### Invitations -/

/-- The arguments of `issue_invite` and what it draws at random. -/
structure IssueRequest where
  (teamId inviteeEmail : String)
  role : Role
  ttlSeconds : Int
  (invitationId token : String)

def issueInvitation [DecidableEq δ] (texts : Texts δ) (d : Directory δ) (q : IssueRequest)
    (issuedByPrincipalId : String) (timestamp : Int) : Except Err (Directory δ) := do
  refuseIf (q.role.assignable = false)
    (.value "invitation role must be admin, member, or guest")
  let email ← emailOf texts q.inviteeEmail
  refuseIf (timestamp < 0) (.value "timestamp must be non-negative")
  refuseIf (q.ttlSeconds < minTtlSeconds ∨ invitationMaxTtlSeconds < q.ttlSeconds)
    (.value s!"ttl_seconds must be between {minTtlSeconds} and {invitationMaxTtlSeconds}")
  let _ ← d.requireTeamRole q.teamId issuedByPrincipalId [.owner, .admin]
  d.insertInvitation
    { id := q.invitationId, teamId := q.teamId, tokenHash := texts.sha256 q.token,
      inviteeEmailNormalized := some email, role := q.role,
      issuedByPrincipalId := issuedByPrincipalId, expiresAt := timestamp + q.ttlSeconds,
      createdAt := timestamp }

end Directory

namespace Hub

variable [DecidableEq δ] (texts : Texts δ) (s : Hub δ) (claims : AccessClaims)

/-- `except AuthorizationError`. -/
def asForbidden : Err → Err
  | .authorization _ => forbidden
  | e => e

def issueInvite (q : Directory.IssueRequest) (timestamp : Int) : Except Err (Hub δ) :=
  Except.mapError asForbidden do
    let _ ← s.requireSession texts claims timestamp
    let s ← s.onDir fun d => d.issueInvitation texts q claims.principalId timestamp
    s.onDir fun d => d.audit q.teamId claims.principalId timestamp

def revokeInvitation (teamId invitationId : String) (timestamp : Int) : Except Err (Hub δ) := do
  let invitationId ← getOr (identity? invitationId) resourceNotFound
  let _ ← s.requireSession texts claims timestamp
  let teamId ← s.dir.requireTeamOwner claims.principalId teamId
  let s ← s.onDir fun d => d.markRevoked teamId invitationId timestamp
  s.onDir fun d => d.audit teamId claims.principalId timestamp

def SessionView.emailNormalized (view : SessionView) : String :=
  match view.principal.kind with
  | .human email => email
  | _ => "None"

def acceptInvite (inviteToken membershipId : String) (timestamp : Int) : Except Err (Hub δ) := do
  let digest ← getOr (tokenDigest texts inviteToken) invitationUnavailable
  Except.mapError asInvitationError do
    let view ← s.requireSession texts claims timestamp
    let i ← getOr (s.dir.invitations.rows.find? fun i => i.tokenHash = digest &&
      i.redeemedAt.isNone && i.revokedAt.isNone && timestamp < i.expiresAt) invitationUnavailable
    refuseIf (i.inviteeEmailNormalized ≠ some view.emailNormalized) invitationUnavailable
    let s ← s.onDir fun d => d.redeemInvitation digest claims.principalId membershipId timestamp
    s.onDir fun d => d.audit i.teamId claims.principalId timestamp

/-! ### Memberships -/

/-- The statement of `update_human_membership` for the one change it was asked for. A status that
    passed the first checks is allowed from every status but `revoked`. -/
def changeMembership (target : Membership) (role : Option Role)
    (status : Option Status) (timestamp : Int) : Except Err (Directory δ) :=
  match role, status with
  | some role, _ => do
    refuseIf (target.status ≠ .active)
      (.hub "membership_not_active" "Membership must be active before changing role" 409)
    d.setRole target.teamId target.principalId role timestamp
  | none, some status => d.setStatus target.teamId target.principalId status timestamp
  | none, none => .error (.runtime "assert status is not None")

def updateHumanMembership (teamId principalId : String)
    (role : Option Role) (status : Option Status) (timestamp : Int) : Except Err (Hub δ) := do
  let principalId ← getOr (identity? principalId) resourceNotFound
  refuseIf (role.isNone = status.isNone)
    (.hub "invalid_request" "Exactly one membership change is required" 422)
  refuseIf (role.any (fun r => !r.assignable) = true)
    (.hub "invalid_request" "Membership role is invalid" 422)
  let _ ← s.requireSession texts claims timestamp
  let teamId ← s.dir.requireTeamOwner claims.principalId teamId
  let target ← getOr (s.dir.membership? teamId principalId) resourceNotFound
  refuseIf (principalId = claims.principalId ∨ s.dir.human? principalId = none ∨
    target.role = .owner ∨ target.role = .automation) resourceNotFound
  refuseIf (target.status = .revoked)
    (.hub "membership_terminal" "Membership has been permanently revoked" 409)
  let s ← s.onDir fun d => changeMembership d target role status timestamp
  s.onDir fun d => d.audit teamId claims.principalId timestamp

/-! ### Runs -/

/-- A call, with its clock reading and the random values it draws. -/
inductive Call (δ : Type) where
  | bootstrap (host : Host) (q : BootstrapRequest) (timestamp : Int)
  | issueInvite (claims : AccessClaims) (q : Directory.IssueRequest) (timestamp : Int)
  | revokeInvitation (claims : AccessClaims) (teamId invitationId : String) (timestamp : Int)
  | redeemInvite (q : InviteRequest) (timestamp : Int)
  | acceptInvite (claims : AccessClaims) (inviteToken membershipId : String) (timestamp : Int)
  | updateHumanMembership (claims : AccessClaims) (teamId principalId : String)
      (role : Option Role) (status : Option Status) (timestamp : Int)
  /-- Anything else the hub does to sessions, tokens, claims, nodes and audit chains. -/
  | elsewhere (rest : Hub δ)

/-- The account for which the call redeems an invitation, and the hub's clock at the call. -/
def Call.redeemer : Call δ → Option (String × Int)
  | .redeemInvite q t => some (q.principalId, t)
  | .acceptInvite claims _ _ t => some (claims.principalId, t)
  | _ => none

def Call.redeems (c : Call δ) : Bool := c.redeemer.isSome

/-- The transaction of a call. -/
def call : Call δ → Except Err (Hub δ)
  | .bootstrap host q t => s.bootstrap texts host q t
  | .issueInvite claims q t => s.issueInvite texts claims q t
  | .revokeInvitation claims team id t => s.revokeInvitation texts claims team id t
  | .redeemInvite q t => s.redeemInvite texts q t
  | .acceptInvite claims token id t => s.acceptInvite texts claims token id t
  | .updateHumanMembership claims team id role status t =>
    s.updateHumanMembership texts claims team id role status t
  | .elsewhere rest => .ok { rest with dir := { rest.dir with
      principals := s.dir.principals, teams := s.dir.teams, memberships := s.dir.memberships,
      invitations := s.dir.invitations } }

/-- The hub after a call: a transaction that raises is rolled back. -/
def after (c : Call δ) : Hub δ :=
  match s.call texts c with
  | .ok s' => s'
  | .error _ => s

end Hub

end TeamHub
