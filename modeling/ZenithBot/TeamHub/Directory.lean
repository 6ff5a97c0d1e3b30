import ZenithBot.Lib.Guard
import ZenithBot.Lib.Run
import ZenithBot.Lib.Table
import ZenithBot.PyText

/-! Who a Team Hub knows: principals, their memberships, the invitations and bootstrap claims they
    come from, and the head of each team's audit chain (`store.py`, `auth.py`, migrations 0001 to
    0005). A row of `principals` is stored with its row of `human_accounts` or `service_accounts`:
    the kind `human` carries the e-mail address, the kind `service` the identifier.

    A statement that breaks a constraint or a trigger raises `integrity`, which rolls the transaction
    back. Of the audit log only the chain heads are kept: they alone decide whether a later statement is
    refused. -/

namespace TeamHub
open Lib

/-! ### Rows -/

inductive Status where
  | active | suspended | revoked
  deriving DecidableEq

/-- The kind of a principal, with its account or the team it is scoped to. -/
inductive Kind where
  | human (emailNormalized : String)
  | service (serviceIdentifier : String)
  | node (scopeTeamId : String)
  | agent (scopeTeamId : String)
  | chat (scopeTeamId : String)
  deriving DecidableEq

/-- The principal has a row of `human_accounts`. -/
def Kind.isHuman : Kind → Bool
  | .human _ => true
  | _ => false

def Kind.isService : Kind → Bool
  | .service _ => true
  | _ => false

/-- `kind IN ('human', 'service', 'node', 'agent')`. -/
def Kind.mayAudit : Kind → Bool
  | .chat _ => false
  | _ => true

def Kind.scopeTeamId : Kind → Option String
  | .node team | .agent team | .chat team => some team
  | _ => none

/-- The unique columns of the two account tables. -/
def Kind.clashes : Kind → Kind → Bool
  | .human e, .human e' => e = e'
  | .service i, .service i' => i = i'
  | _, _ => false

/-- A row of `principals`. -/
structure Principal where
  id : String
  kind : Kind
  displayName : String
  status : Status := .active
  (createdAt updatedAt : Int)

inductive Role where
  | owner | admin | member | guest | automation
  deriving DecidableEq

/-- A row of `memberships`. -/
structure Membership where
  (id teamId principalId : String)
  role : Role
  status : Status
  invitedByPrincipalId : Option String := none
  (createdAt updatedAt : Int)

/-- A row of `invitations`. -/
structure Invitation (δ : Type) where
  (id teamId : String)
  tokenHash : δ
  inviteeEmailNormalized : Option String
  role : Role
  issuedByPrincipalId : String
  (expiresAt createdAt : Int)
  redeemedAt : Option Int := none
  redeemedByPrincipalId : Option String := none
  revokedAt : Option Int := none

/-- A row of `bootstrap_delegations`. -/
structure Delegation where
  (requestId serverIdentity serverInstanceId hubId hubUrl tailnetLoginNormalized : String)
  (recipientEmailNormalized displayName deviceLabel : String)

/-- A row of `bootstrap_claims`, with its delegation if it has one. -/
structure BootstrapClaim (δ : Type) where
  id : String
  tokenHash : δ
  (createdAt expiresAt : Int)
  consumedAt : Option Int := none
  consumedByPrincipalId : Option String := none
  revokedAt : Option Int := none
  delegation : Option Delegation := none

/-- A row of `nodes`. -/
structure Node where
  (id teamId serverIdentity : String)
  status : Status

/-- A row of `audit_chain_heads`. -/
structure AuditHead where
  teamId : String
  sequence : Nat
  updatedAt : Int
  deriving DecidableEq

structure Directory (δ : Type) where
  principals : Table Principal String Principal.id
  teams : List String
  memberships : Table Membership String Membership.id
  invitations : Table (Invitation δ) String Invitation.id
  bootstrapClaims : Table (BootstrapClaim δ) String BootstrapClaim.id
  nodes : Table Node String Node.id
  /-- The one row of `managed_host_bindings`. -/
  managedHost : Option String
  auditHeads : Table AuditHead String AuditHead.teamId

def Directory.empty {δ : Type} : Directory δ :=
  ⟨.empty, [], .empty, .empty, .empty, .empty, none, .empty⟩

/-- What a transaction raises. -/
inductive Err where
  | hub (code message : String) (status : Nat)
  | value (message : String)
  | authentication (message : String)
  | authorization (message : String)
  | runtime (message : String)
  | integrity
  | os
  deriving DecidableEq

def authenticationRequired : Err := .hub "authentication_required" "Authentication required" 401

def boundedText (value field : String) (minimum maximum : Nat) : Except Err String :=
  let normalized := Py.strip value
  if minimum ≤ normalized.length ∧ normalized.length ≤ maximum then .ok normalized
  else .error (.value
    s!"{field} must be between {minimum} and {maximum} characters")

namespace Directory

variable {δ : Type} (d : Directory δ)

/-- The principal with this id, joined with its row of `human_accounts`. -/
def human? (id : String) : Option Principal :=
  (d.principals.find? id).filter fun p => p.kind.isHuman

def membership? (teamId principalId : String) : Option Membership :=
  d.memberships.rows.find? fun m => m.teamId = teamId ∧ m.principalId = principalId

/-! ### Insertions -/

def insertPrincipal (p : Principal) : Except Err (Directory δ) := do
  refuseIf (p.createdAt < 0 ∨ p.updatedAt < p.createdAt) .integrity
  refuseIf (∃ q ∈ d.principals.rows, q.kind.clashes p.kind = true) .integrity
  let principals ← getOr (d.principals.insert? p) .integrity
  return { d with principals := principals }

/-- The trigger `memberships_require_compatible_principal`. -/
def compatible (m : Membership) : Bool :=
  match d.principals.find? m.principalId with
  | some p => if m.role = .automation then p.kind.isService else p.kind.isHuman
  | none => false

def insertMembership (m : Membership) : Except Err (Directory δ) := do
  refuseIf (m.createdAt < 0 ∨ m.updatedAt < m.createdAt) .integrity
  refuseIf (d.compatible m = false) .integrity
  refuseIf ((d.membership? m.teamId m.principalId).isSome = true) .integrity
  refuseIf (m.role = .owner ∧ m.status = .active ∧ ∃ o ∈ d.memberships.rows,
    o.teamId = m.teamId ∧ o.role = .owner ∧ o.status = .active) .integrity
  let memberships ← getOr (d.memberships.insert? m) .integrity
  return { d with memberships := memberships }

/-! ### The audit chain -/

/-- The trigger `audit_events_require_team_actor`. -/
def mayAct (teamId actor : String) : Bool :=
  (d.principals.find? actor).any fun p => p.kind.mayAudit &&
    (p.kind.scopeTeamId = some teamId ||
      d.memberships.rows.any fun m => m.teamId = teamId && m.principalId = actor)

/-- The chain head after one more event; the trigger `audit_chain_head_is_monotonic` refuses one
    that is older than the head. -/
def advanceHead (head : AuditHead) (timestamp : Int) :
    Option (Table AuditHead String AuditHead.teamId) :=
  d.auditHeads.update? (fun h => h.teamId = head.teamId)
    (fun h => { h with sequence := head.sequence + 1, updatedAt := timestamp }) (fun _ => rfl)
    (fun old new => new.sequence = old.sequence + 1 && old.updatedAt ≤ new.updatedAt &&
      0 ≤ new.updatedAt)

/-- The chain heads after one more event in the team. -/
def nextHeads (teamId : String) (timestamp : Int) :
    Option (Table AuditHead String AuditHead.teamId) :=
  match d.auditHeads.find? teamId with
  | none => d.auditHeads.insert? ⟨teamId, 1, timestamp⟩
  | some head => d.advanceHead head timestamp

def audit (teamId actorPrincipalId : String) (timestamp : Int) : Except Err (Directory δ) := do
  refuseIf (d.mayAct teamId actorPrincipalId = false) .integrity
  refuseIf (timestamp < 0) .integrity
  let heads ← getOr (d.nextHeads teamId timestamp) .integrity
  return { d with auditHeads := heads }

def activeTeams (principalId : String) : List String :=
  (d.memberships.rows.filter fun m => m.principalId = principalId && m.status = .active).map
    Membership.teamId

def auditTeams (actor : String) (timestamp : Int) :
    List String → Directory δ → Except Err (Directory δ)
  | [], d => .ok d
  | team :: teams, d => do auditTeams actor timestamp teams (← d.audit team actor timestamp)

def auditPrincipalTeams (principalId : String) (timestamp : Int) : Except Err (Directory δ) :=
  auditTeams principalId timestamp (d.activeTeams principalId) d

/-! ### Service principals -/

/-- The service principal, created on first use and checked afterwards. -/
def ensureService (p : Principal) (bad : String) : Except Err (Directory δ) :=
  match d.principals.find? p.id with
  | none => d.insertPrincipal p
  | some q => do
    refuseIf (q.kind ≠ p.kind ∨ q.status ≠ .active) (.runtime bad)
    return d

/-- Its automation membership, likewise. -/
def ensureAutomation (m : Membership) (bad : String) : Except Err (Directory δ) :=
  match d.membership? m.teamId m.principalId with
  | none => d.insertMembership m
  | some n => do
    refuseIf (n.role ≠ .automation ∨ n.status ≠ .active) (.runtime bad)
    return d

/-- What `_local_control_principal` and `_managed_server_principal` share. -/
def servicePrincipal (id identifier displayName badPrincipal badMembership : String)
    (d : Directory δ) (teamId membershipId : String) (timestamp : Int) :
    Except Err (Directory δ) := do
  let d ← d.ensureService ⟨id, .service identifier, displayName, .active, timestamp, timestamp⟩
    badPrincipal
  d.ensureAutomation ⟨membershipId, teamId, id, .automation, .active, none, timestamp, timestamp⟩
    badMembership

def localControlPrincipalId : String := "service_local_control"
def localControlServiceIdentifier : String := "agentsdock.team-hub.local-control"
def managedServerPrincipalId : String := "service_managed_server"
def managedServerServiceIdentifier : String := "agentsdock.team-hub.managed-server"

def localControlPrincipal : Directory δ → String → String → Int → Except Err (Directory δ) :=
  servicePrincipal localControlPrincipalId localControlServiceIdentifier "Team Hub local control"
    "invalid Team Hub local-control service principal"
    "invalid Team Hub local-control team membership"

def managedServerPrincipal : Directory δ → String → String → Int → Except Err (Directory δ) :=
  servicePrincipal managedServerPrincipalId managedServerServiceIdentifier
    "AgentsDock managed server" "invalid Team Hub managed-server service principal"
    "invalid Team Hub managed-server team membership"

end Directory

end TeamHub
