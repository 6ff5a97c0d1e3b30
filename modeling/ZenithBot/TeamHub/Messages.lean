import ZenithBot.TeamHub.Attachments
import ZenithBot.TeamHub.Invitations

/-! Team messages as their readers see them (`store.py`, migrations 0009, 0012 and 0013). A message is
    sent by a person or by a server, to persons, servers or the whole team; it may be revised, carry
    attachments and be deleted, which only adds a row to a journal. Every reader is a person or a
    server and owns one or two addresses of the team; what concerns none of them stays hidden.

    The rights of a caller are computed from the `Roster`; the tables of messages are the rest of the
    `Space`. A call reads the clock twice: in `_require_network_scope` and for itself. -/

namespace TeamHub.Mail
open Lib

variable {δ : Type}

/-! ### Rows -/

inductive PartyKind where
  | server | human | all
  deriving DecidableEq

def PartyKind.text : PartyKind → String
  | .server => "server"
  | .human => "human"
  | .all => "all"

/-- `sender_kind`, `sender_principal_id` and `sender_node_id`: a server is a principal and a node. -/
inductive Sender where
  | human (principalId : String)
  | server (principalId nodeId : String)
  deriving DecidableEq

def Sender.principalId : Sender → String
  | .human id | .server id _ => id

def Sender.nodeId : Sender → Option String
  | .human _ => none
  | .server _ node => some node

/-- `recipient_kind` with the id it comes with, which is not empty. -/
inductive Target where
  | server (nodeId : String)
  | human (principalId : String)
  | all
  deriving DecidableEq

def Target.kind : Target → PartyKind
  | .server _ => .server
  | .human _ => .human
  | .all => .all

inductive MessageKind where
  | message | skill
  deriving DecidableEq

inductive DeliveryState where
  | available | delivered | read
  deriving DecidableEq

/-- A row of `team_messages`. -/
structure Message where
  id : String
  queueOrdinal : Nat
  teamId : String
  kind : MessageKind := .message
  title : Option String := none
  bodyFormat : String := "markdown"
  (body bodySha256 : String)
  sender : Sender
  provenanceJson : String := "\x7b\x7d"
  inReplyToMessageId : Option String := none
  skillId : Option String := none
  skillVersion : Option Nat := none
  createdAt : Int

/-- A row of `team_message_recipients`. -/
structure Recipient where
  (id teamId messageId : String)
  target : Target
  state : DeliveryState := .available
  deliveredAt : Option Int := none
  readAt : Option Int := none

structure Revision where
  (teamId messageId : String)
  version : Nat
  (bodyFormat body bodySha256 : String)
  editor : Sender
  createdAt : Int

inductive ResourceKind where
  | message | bulletin
  deriving DecidableEq

/-- A row of `network_content_deletions`. -/
structure Deletion where
  sequence : Nat
  teamId : String
  resourceKind : ResourceKind
  resourceId : String
  deletedAt : Int

/-- A row of `network_peer_bindings`. -/
structure PeerBinding where
  (peerId teamId nodeId servicePrincipalId : String)
  status : Status

/-- An address of the team: the kind and the id of a person or a server. -/
abbrev Address := PartyKind × String

/-! ### What is told -/

structure Party where
  kind : PartyKind
  (id displayName : String)
  deriving DecidableEq

structure RecipientPublic where
  party : Party
  state : DeliveryState
  (deliveredAt readAt : Option Int)
  deriving DecidableEq

structure AttachmentPublic where
  id : String
  messageId : Option String
  (fileName mediaType : String)
  byteSize : Nat
  sha256 : String
  state : UploadState
  (receivedBytes createdAt : Nat)
  readyAt : Option Nat
  deriving DecidableEq

/-- The skill of a message. -/
structure SkillPublic where
  id : String
  slug : Option String
  version : Option Nat
  deriving DecidableEq

/-- The text of a message, in full or cut. -/
inductive Content where
  | body (text : String)
  | preview (text : String)
  deriving DecidableEq

structure MessagePublic where
  id : String
  sequence : Nat
  kind : MessageKind
  title : Option String
  bodyFormat : String
  bodyBytes : Nat
  bodySha256 : String
  sender : Party
  recipients : List RecipientPublic
  attachments : List AttachmentPublic
  inReplyToMessageId : Option String
  skill : Option SkillPublic
  provenance : List (String × Option String)
  createdAt : Int
  revision : Option (Nat × Option Int)
  content : Content
  delivery : Option (Option RecipientPublic)
  deriving DecidableEq

/-- `_team_message_revision_public`. -/
structure RevisionPublic where
  version : Nat
  bodyFormat : String
  bodyBytes : Nat
  bodySha256 : String
  editor : Party
  createdAt : Int
  content : Content
  deriving DecidableEq

/-- An entry of the deletion journal. -/
structure DeletionPublic where
  sequence : Nat
  kind : ResourceKind
  id : String
  deletedAt : Int
  deriving DecidableEq

/-- What a call answers. -/
inductive Response where
  | page (box : String) (address : Option (String × String)) (messages : List MessagePublic)
      (nextAfterSequence : Int) (hasMore : Bool)
  | message (item : MessagePublic)
  | revisions (messageId : String) (versions : List RevisionPublic)
  | attachment (item : AttachmentPublic)
  | opened (item : AttachmentPublic) (bytes : Bytes)
  | deletions (entries : List DeletionPublic) (nextAfterSequence : Int) (hasMore : Bool)
  | receipt (messageId : String) (recipients : List RecipientPublic)
  deriving DecidableEq

/-! ### The store -/

/-- What the rights of a caller are computed from. Of a row of `nodes` two more columns are read than
    the directory keeps; of skills only the slug, of the board only whether it can be read. -/
structure Roster (δ : Type) where
  hub : Hub δ
  nodePrincipal : String → String
  nodeDisplayName : String → String
  peerBindings : List PeerBinding
  managedHostIdentity : Option String
  skillSlug : String → String → Option String
  boardReadable : String → String → Bool

/-- What `canonical_fingerprint` digests of a receipt. -/
structure ReceiptFingerprint where
  (teamId messageId state : String)
  deriving DecidableEq

/-- A row of `request_idempotency` for `team.message.receipt`, with its stored response. -/
structure Receipt where
  (teamId principalId key : String)
  fingerprint : ReceiptFingerprint
  recipients : List RecipientPublic

structure Space (δ : Type) where
  roster : Roster δ
  messages : Table Message String Message.id
  recipients : Table Recipient String Recipient.id
  revisions : List Revision
  attachments : Table Attachment String Attachment.id
  deletions : List Deletion
  receipts : List Receipt
  /-- The content files. -/
  content : String → Option Bytes

/-- The functions the calls are built on: digests and normalisers, the public part of a provenance,
    the size of a response as JSON. -/
structure Tools (δ : Type) where
  texts : Texts δ
  sha256 : Bytes → String
  provenancePublic : String → List (String × Option String)
  pageBytes : Response → Nat

def maxNetworkPageItems : Int := 100
def maxNetworkPageResponseBytes : Nat := 1900000
def maxTeamMessagePreviewChars : Nat := 280

def invalid (message : String) : Err := .hub "invalid_request" message 422

/-! ### Rights -/

/-- `NETWORK_AUTOMATION_AUTH_KINDS`. -/
def automated : Hub.AuthKind → Bool
  | .securePeer | .localAgentMail | .managedServer => true
  | _ => false

/-- `MANAGED_HOST_AUTH_KINDS`. -/
def managedHost : Hub.AuthKind → Bool
  | .localAgentMail | .managedServer => true
  | _ => false

namespace Roster

def requireNetworkScope [DecidableEq δ] (texts : Texts δ) (r : Roster δ)
    (claims : Hub.AccessClaims) (teamId : String) (write : Bool) (now : Int) :
    Except Err Membership := do
  let _ ← r.hub.requireSession texts claims now
  let expectedScope : Hub.TeamScope := if write then .teamspaceWrite else .teamspaceRead
  refuseIf (automated claims.authKind = true ∧
    (claims.teamId ≠ some teamId ∨ expectedScope ∉ claims.scopes)) forbidden
  let roles : List Role :=
    if automated claims.authKind then [.automation]
    else if write then [.owner, .admin, .member]
    else [.owner, .admin, .member, .guest]
  (r.hub.dir.requireTeamRole teamId claims.principalId roles).mapError fun _ => resourceNotFound

def networkHostUnavailable : Err :=
  .hub "network_host_unavailable" "Designated host server identity is unavailable" 409

def boundNetworkNode (r : Roster δ) (claims : Hub.AccessClaims) (teamId : String) :
    Except Err String := do
  refuseIf (claims.authKind ≠ .securePeer ∨ claims.peerId = none)
    (.hub "network_peer_required" "A bound server connection is required" 403)
  let b ← getOr (r.peerBindings.find? fun b => some b.peerId = claims.peerId && b.teamId = teamId &&
      b.servicePrincipalId = claims.principalId && b.status = .active &&
      (r.hub.dir.nodes.rows.any fun n => n.teamId = teamId && n.id = b.nodeId && n.status = .active))
    (.hub "network_peer_unavailable" "Bound server identity is unavailable" 403)
  return b.nodeId

def callerNetworkNode (r : Roster δ) (claims : Hub.AccessClaims) (teamId : String) :
    Except Err String :=
  if claims.authKind = .securePeer then r.boundNetworkNode claims teamId
  else do
    let _ ← (r.hub.dir.requireTeamRole teamId claims.principalId
      (if managedHost claims.authKind then [.automation] else [.owner, .admin, .member])).mapError
      fun _ => resourceNotFound
    let host ← getOr r.managedHostIdentity networkHostUnavailable
    let n ← getOr (r.hub.dir.nodes.rows.find? fun n => n.teamId = teamId &&
      n.serverIdentity = host && n.status = .active &&
      (r.hub.dir.principals.find? (r.nodePrincipal n.id)).any fun p => p.status = .active)
      networkHostUnavailable
    return n.id

def ownedAddresses (r : Roster δ) (claims : Hub.AccessClaims) (teamId : String) (role : Role) :
    Except Err (List Address) :=
  if automated claims.authKind then do
    let node ← r.callerNetworkNode claims teamId
    return [(.server, node)]
  else
    let own : List Address := [(.human, claims.principalId)]
    if role = .owner ∨ role = .admin ∨ role = .member then
      match r.callerNetworkNode claims teamId with
      | .ok node => .ok (own ++ [(.server, node)])
      | .error (.hub "network_host_unavailable" _ _) => .ok own
      | .error e => .error e
    else .ok own

/-- The addresses of the caller in a team, none for a caller without an active membership. -/
def addresses (r : Roster δ) (claims : Hub.AccessClaims) (teamId : String) : List Address :=
  match r.hub.dir.requireTeamRole teamId claims.principalId
      [.owner, .admin, .member, .guest, .automation] with
  | .ok m => (r.ownedAddresses claims teamId m.role).toOption.getD []
  | .error _ => []

end Roster

/-! ### Selections -/

/-- The recipient as an address: `recipient_node_id or recipient_principal_id` with its kind. -/
def Target.address : Target → Option Address
  | .server id => some (.server, id)
  | .human id => some (.human, id)
  | .all => none

def PartyKind.rank : PartyKind → Nat
  | .all => 0
  | .human => 1
  | .server => 2

/-- `ORDER BY r.recipient_kind, r.id`. -/
def Recipient.before (r s : Recipient) : Bool :=
  r.target.kind.rank < s.target.kind.rank ||
    (r.target.kind.rank = s.target.kind.rank && r.id ≤ s.id)

/-- `ORDER BY created_at, id`. -/
def attachmentBefore (a b : Attachment) : Bool :=
  a.createdAt < b.createdAt || (a.createdAt = b.createdAt && a.id ≤ b.id)

namespace Space

variable (tools : Tools δ) (t : Space δ) (claims : Hub.AccessClaims) (now : Int)

def teamMessageRecipients (teamId messageId : String) : List Recipient :=
  (t.recipients.rows.filter fun r => r.teamId = teamId && r.messageId = messageId).insertionSort
    fun r s => r.before s = true

def revisionsOf (teamId messageId : String) : List Revision :=
  t.revisions.filter fun v => v.teamId = teamId && v.messageId = messageId

def attachmentsOf (teamId messageId : String) : List Attachment :=
  (t.attachments.rows.filter fun a => a.teamId = teamId &&
    a.messageId = some messageId).insertionSort fun a b => attachmentBefore a b = true

def deleted (teamId messageId : String) : Bool :=
  t.deletions.any fun d => d.teamId = teamId && d.resourceKind = .message && d.resourceId = messageId

def teamMessageWasVisible (m : Message) (owned : List Address) : Bool :=
  (match m.sender with
    | .human id => id = claims.principalId
    | .server _ node => owned.contains (.server, node)) ||
    t.recipients.rows.any fun r => r.teamId = m.teamId && r.messageId = m.id &&
      (r.target = .all || r.target.address.any owned.contains)

def teamMessageVisible (m : Message) (owned : List Address) : Bool :=
  !t.deleted m.teamId m.id && t.teamMessageWasVisible claims m owned

/-- The message was sent by the caller or addressed to it. -/
def concerns (m : Message) : Bool :=
  t.teamMessageWasVisible claims m (t.roster.addresses claims m.teamId)

/-- A row of `_team_message_select`: the message, its latest revision and the names it shows. -/
structure MessageRow where
  message : Message
  (currentBody currentBodyFormat currentBodySha256 : String)
  messageVersion : Nat
  messageEditedAt : Option Int
  senderPrincipalDisplayName : String
  (senderNodeDisplayName skillSlug : Option String)

/-- The revision that `MAX(latest.version)` selects. -/
def latestRevision (teamId messageId : String) : Option Revision :=
  let all := t.revisionsOf teamId messageId
  all.find? fun v => all.all fun w => w.version ≤ v.version

def nodeName (teamId : String) (nodeId : Option String) : Option String :=
  nodeId.bind fun id =>
    if t.roster.hub.dir.nodes.rows.any fun n => n.teamId = teamId && n.id = id then
      some (t.roster.nodeDisplayName id)
    else none

def principalName (principalId : String) : Option String :=
  (t.roster.hub.dir.principals.find? principalId).map Principal.displayName

/-- `_team_message_select`, for one message; without its sender it drops out of the join. -/
def messageRow (m : Message) : Option MessageRow := do
  let sender ← t.principalName m.sender.principalId
  let latest := t.latestRevision m.teamId m.id
  return {
    message := m
    currentBody := (latest.map Revision.body).getD m.body
    currentBodyFormat := (latest.map Revision.bodyFormat).getD m.bodyFormat
    currentBodySha256 := (latest.map Revision.bodySha256).getD m.bodySha256
    messageVersion := (latest.map Revision.version).getD 1
    messageEditedAt := latest.map Revision.createdAt
    senderPrincipalDisplayName := sender
    senderNodeDisplayName := t.nodeName m.teamId m.sender.nodeId
    skillSlug := m.skillId.bind (t.roster.skillSlug m.teamId) }

def selectMessage (teamId messageId : String) : Option MessageRow :=
  (t.messages.rows.find? fun m => m.teamId = teamId && m.id = messageId).bind t.messageRow

/-! ### Projections -/

def party (kind : PartyKind) (id : String) (displayName : Option String) : Party :=
  ⟨kind, id, (displayName.filter (· ≠ "")).getD (if kind = .all then "Team" else id)⟩

/-- `_team_sender_party`, also of the editor of a revision. -/
def senderParty (sender : Sender) (principalName nodeName : Option String) : Party :=
  match sender with
  | .server _ node => party .server node nodeName
  | .human id => party .human id principalName

def recipientPublic (r : Recipient) : RecipientPublic :=
  let p := match r.target with
    | .server id => party .server id (t.nodeName r.teamId (some id))
    | .human id => party .human id (t.principalName id)
    | .all => party .all "all" (some "Team")
  ⟨p, r.state, r.deliveredAt, r.readAt⟩

def attachmentPublic (a : Attachment) : AttachmentPublic :=
  ⟨a.id, a.messageId, a.fileName, a.mediaType, a.byteSize, a.storageKey, a.state, a.receivedBytes,
    a.createdAt, a.readyAt⟩

/-- `" ".join(body.split())`. -/
def joinWords (body : String) : String :=
  " ".intercalate (((body.toList.splitOnP Py.isSpace).filter (· ≠ [])).map String.ofList)

def preview (body : String) : String :=
  let text := joinWords body
  if maxTeamMessagePreviewChars < text.length then
    Py.clip (maxTeamMessagePreviewChars - 1) text ++ "…"
  else text

def contentOf (includeBody : Bool) (body : String) : Content :=
  if includeBody then .body body else .preview (preview body)

/-- The recipient rows of the caller. -/
def ownRecipients (teamId messageId : String) (owned : List Address) : List Recipient :=
  (t.teamMessageRecipients teamId messageId).filter fun r => r.target.address.any owned.contains

/-- The delivery a message shows its reader. -/
def delivery (m : Message) (owned : List Address) (address : Option Address) :
    Option RecipientPublic :=
  (((t.ownRecipients m.teamId m.id owned).map t.recipientPublic).filter fun r =>
    address.all fun a => r.party.kind = a.1 && r.party.id = a.2).head?

def messagePublic (row : MessageRow) (includeBody includeRevision : Bool)
    (owned : Option (List Address)) (deliveryAddress : Option Address) : MessagePublic :=
  let m := row.message
  { id := m.id
    sequence := m.queueOrdinal
    kind := m.kind
    title := if m.kind = .skill then m.title else none
    bodyFormat := row.currentBodyFormat
    bodyBytes := row.currentBody.utf8ByteSize
    bodySha256 := row.currentBodySha256
    sender := senderParty m.sender row.senderPrincipalDisplayName row.senderNodeDisplayName
    recipients := (t.teamMessageRecipients m.teamId m.id).map t.recipientPublic
    attachments := (t.attachmentsOf m.teamId m.id).map attachmentPublic
    inReplyToMessageId := m.inReplyToMessageId
    skill := m.skillId.map fun id => ⟨id, row.skillSlug, m.skillVersion⟩
    provenance := tools.provenancePublic m.provenanceJson
    createdAt := m.createdAt
    revision := if includeRevision then some (row.messageVersion, row.messageEditedAt) else none
    content := contentOf includeBody row.currentBody
    delivery := owned.map fun o => t.delivery m o deliveryAddress }

/-! ### Lists -/

/-- The arguments of `list_team_messages`; `since` is `none` when `_team_since` refuses it. -/
structure ListQuery where
  box : String
  addressKind : Option String := none
  addressId : Option String := none
  unread : Bool := false
  fromKind : Option String := none
  fromId : Option String := none
  since : Option (Option Int) := some none
  afterSequence : Int := 0
  limit : Int := 50
  includeRevision : Bool := false

/-- The checks before the database is opened. -/
def ListQuery.check (q : ListQuery) : Except Err (Option Int) := do
  refuseIf (q.box ∉ ["inbox", "feed", "sent"]) (invalid "Message box is invalid")
  refuseIf (¬ (1 ≤ q.limit ∧ q.limit ≤ maxNetworkPageItems)) (invalid "Message page limit is invalid")
  refuseIf (q.afterSequence < 0) (invalid "Message page cursor is invalid")
  refuseIf (q.fromKind.any (fun k => !(["server", "human"].contains k)) = true)
    (invalid "Sender filter is invalid")
  refuseIf (q.fromKind.isNone ≠ q.fromId.isNone) (invalid "Sender filter is invalid")
  getOr q.since (invalid "since is invalid")

def inboxAddress (q : ListQuery) (owned : List Address) : Except Err Address := do
  let kind := if q.addressKind.isNone && q.addressId.isNone then
    owned.head?.map fun a => a.1.text else q.addressKind
  let id := if q.addressKind.isNone && q.addressId.isNone then owned.head?.map Prod.snd
    else q.addressId
  getOr (owned.find? fun a => some a.1.text = kind && some a.2 = id)
    (.hub "forbidden" "This mailbox is not owned by the caller" 403)

/-- `m.sender_kind = 'human' AND m.sender_principal_id = ?`. -/
def sentByHuman (id : String) (m : Message) : Bool := m.sender = .human id

/-- `m.sender_kind = 'server' AND m.sender_node_id = ?`. -/
def sentByServer (id : String) (m : Message) : Bool :=
  match m.sender with
  | .server _ node => node = id
  | .human _ => false

/-- A recipient row that the join on an inbox selects. -/
def inInbox (q : ListQuery) (a : Address) (m : Message) (r : Recipient) : Bool :=
  r.teamId = m.teamId && r.messageId = m.id && r.target.address = some a &&
    (!q.unread || r.state ≠ .read)

/-- The rows a message contributes to a box: one for each recipient the join selects. -/
def boxRows (q : ListQuery) (owned : List Address)
    (address : Option Address) (m : Message) : List Message :=
  match q.box with
  | "feed" => (t.recipients.rows.filter fun r => r.teamId = m.teamId && r.messageId = m.id &&
      r.target = .all).map fun _ => m
  | "inbox" =>
    match address with
    | some a => (t.recipients.rows.filter (inInbox q a m)).map fun _ => m
    | none => []
  | _ =>
    if automated claims.authKind then
      match owned.find? fun a => a.1 = .server with
      | some a => if sentByServer a.2 m then [m] else []
      | none => []
    else if sentByHuman claims.principalId m then [m] else []

/-- The filters every box shares. -/
def selected (teamId : String) (q : ListQuery) (since : Option Int) (m : Message) : Bool :=
  m.teamId = teamId && q.afterSequence < m.queueOrdinal && !t.deleted m.teamId m.id &&
    (match q.fromKind, q.fromId with
      | some "server", some id => sentByServer id m
      | some "human", some id => sentByHuman id m
      | _, _ => true) && since.all (· ≤ m.createdAt)

/-- The rows of a page and the one after it. -/
def listRows (teamId : String) (q : ListQuery)
    (since : Option Int) (owned : List Address) (address : Option Address) : List MessageRow :=
  ((((t.messages.rows.filter (t.selected teamId q since)).flatMap
    (t.boxRows claims q owned address)).insertionSort
      fun m n => m.queueOrdinal ≤ n.queueOrdinal).filterMap t.messageRow).take (q.limit.toNat + 1)

def listTeamMessages [DecidableEq δ] (teamId : String) (q : ListQuery) : Except Err Response := do
  let since ← q.check
  let membership ← t.roster.requireNetworkScope tools.texts claims teamId false now
  let owned ← t.roster.ownedAddresses claims teamId membership.role
  let address ← (if q.box = "inbox" then some <$> inboxAddress q owned else .ok none :
    Except Err (Option Address))
  let rows := t.listRows claims teamId q since owned address
  let visible := rows.take q.limit.toNat
  let response := Response.page q.box (address.map fun a => (a.1.text, a.2))
    (visible.map fun row => t.messagePublic tools row false q.includeRevision
      (if q.box = "inbox" then some owned else none) address)
    ((visible.getLast?.map fun row => (row.message.queueOrdinal : Int)).getD q.afterSequence)
    (q.limit.toNat < rows.length)
  refuseIf (maxNetworkPageResponseBytes < tools.pageBytes response)
    (invalid "Message page exceeds the response limit; lower limit")
  return response

/-! ### Single messages -/

/-- The message of a call that may read it, with the caller's addresses. -/
def readable [DecidableEq δ] (teamId messageId : String) : Except Err (MessageRow × List Address) := do
  let membership ← t.roster.requireNetworkScope tools.texts claims teamId false now
  let row ← getOr ((t.selectMessage teamId messageId).filter fun _ => !t.deleted teamId messageId)
    resourceNotFound
  let owned ← t.roster.ownedAddresses claims teamId membership.role
  refuseIf (t.teamMessageVisible claims row.message owned = false) resourceNotFound
  return (row, owned)

def getTeamMessage [DecidableEq δ] (teamId messageId : String) (includeRevision : Bool) : Except Err
    Response := do
  let (row, owned) ← t.readable tools claims now teamId messageId
  return .message (t.messagePublic tools row true includeRevision (some owned) none)

/-- `_team_message_revision_public` of a revision; without its editor it drops out of the join. -/
def revisionPublic (v : Revision) : Option RevisionPublic := do
  let editor ← t.principalName v.editor.principalId
  return ⟨v.version, v.bodyFormat, v.body.utf8ByteSize, v.bodySha256,
    senderParty v.editor (some editor) (t.nodeName v.teamId v.editor.nodeId), v.createdAt,
    contentOf false v.body⟩

def firstRevision (m : Message) : Revision :=
  ⟨m.teamId, m.id, 1, m.bodyFormat, m.body, m.bodySha256, m.sender, m.createdAt⟩

/-- `_team_message_revisions_select`, latest first. -/
def revisionRows (teamId messageId : String) : List Revision :=
  (((t.messages.rows.filter fun m => m.teamId = teamId && m.id = messageId).map firstRevision) ++
    t.revisionsOf teamId messageId).insertionSort fun v w => w.version ≤ v.version

def listTeamMessageRevisions [DecidableEq δ] (teamId messageId : String) : Except Err Response := do
  let _ ← t.readable tools claims now teamId messageId
  return .revisions messageId ((t.revisionRows teamId messageId).filterMap t.revisionPublic)

/-! ### Attachments -/

def teamAttachmentRowVisible (teamId : String)
    (a : Attachment) (role : Role) (now : Int) : Except Err Bool :=
  match a.messageId with
  | none => .ok (a.uploadedBy = claims.principalId && now < a.expiresAt)
  | some messageId =>
    match t.selectMessage teamId messageId with
    | none => .ok false
    | some row => do
      let owned ← t.roster.ownedAddresses claims teamId role
      return t.teamMessageVisible claims row.message owned

def attachment? (teamId attachmentId : String) : Option Attachment :=
  t.attachments.rows.find? fun a => a.teamId = teamId && a.id = attachmentId

def readableAttachment [DecidableEq δ] (own : Int) (teamId attachmentId : String) : Except Err
    Attachment := do
  let membership ← t.roster.requireNetworkScope tools.texts claims teamId false now
  let a ← getOr (t.attachment? teamId attachmentId) resourceNotFound
  let visible ← t.teamAttachmentRowVisible claims teamId a membership.role own
  refuseIf (visible = false) resourceNotFound
  return a

def getTeamAttachment [DecidableEq δ] (own : Int) (teamId attachmentId : String) : Except Err
    Response := do
  let a ← t.readableAttachment tools claims now own teamId attachmentId
  return .attachment (attachmentPublic a)

/-- The bytes `_open_verified_team_attachment_blob` pins. -/
def verifiedBlob (storageKey : String) (byteSize : Nat) : Option Bytes :=
  (t.content storageKey).filter fun bytes => bytes.length = byteSize &&
    tools.sha256 bytes = storageKey

/-- The part of `open_team_attachment` after the attachment was found visible. -/
def openVisible (a : Attachment) : Except Err Response := do
  refuseIf (a.state ≠ .ready)
    (.hub "attachment_unavailable" "Attachment upload is not complete" 409)
  let bytes ← getOr (t.verifiedBlob tools a.storageKey a.byteSize)
    (.hub "attachment_unavailable" "Attachment bytes are unavailable" 404)
  return .opened (attachmentPublic a) bytes

def openTeamAttachment [DecidableEq δ] (own : Int) (teamId attachmentId : String) : Except Err
    Response := do
  let a ← t.readableAttachment tools claims now own teamId attachmentId
  t.openVisible tools a

/-! ### The deletion journal -/

/-- `message_visibility` of the query. -/
def deletionConcerns (owned : List Address) (d : Deletion) : Bool :=
  d.resourceKind = .message && t.messages.rows.any fun m => m.teamId = d.teamId &&
    m.id = d.resourceId && m.kind = .message &&
    (sentByHuman claims.principalId m ||
      ((owned.filter fun a => a.1 = .server).any fun a => sentByServer a.2 m) ||
      t.recipients.rows.any fun r => r.teamId = m.teamId && r.messageId = m.id &&
        (r.target = .all ||
          ((owned.filter fun a => a.1 = .human).any fun a => r.target = .human a.2) ||
          (owned.filter fun a => a.1 = .server).any fun a => r.target = .server a.2))

/-- The entries of a page and the one after it. -/
def deletionRows (owned : List Address) (teamId : String)
    (afterSequence limit : Int) : List Deletion :=
  ((t.deletions.filter fun d => d.teamId = teamId && afterSequence < d.sequence &&
    (t.deletionConcerns claims owned d ||
      (d.resourceKind = .bulletin && t.roster.boardReadable teamId claims.principalId))).insertionSort
        fun d e => d.sequence ≤ e.sequence).take (limit.toNat + 1)

def listNetworkContentDeletions [DecidableEq δ] (teamId : String) (afterSequence limit : Int) :
    Except Err Response := do
  refuseIf (afterSequence < 0) (invalid "Deletion page cursor is invalid")
  refuseIf (¬ (1 ≤ limit ∧ limit ≤ maxNetworkPageItems)) (invalid "Deletion page limit is invalid")
  let membership ← t.roster.requireNetworkScope tools.texts claims teamId false now
  let owned ← t.roster.ownedAddresses claims teamId membership.role
  let rows := t.deletionRows claims owned teamId afterSequence limit
  let visible := rows.take limit.toNat
  return .deletions (visible.map fun d => ⟨d.sequence, d.resourceKind, d.resourceId, d.deletedAt⟩)
    ((visible.getLast?.map fun d => (d.sequence : Int)).getD afterSequence)
    (limit.toNat < rows.length)

/-! ### Receipts -/

/-- The request of `record_team_message_receipt`. -/
structure ReceiptRequest where
  (state idempotencyKey : String)

/-- The row after a receipt. -/
def receive (state : String) (timestamp : Int) (r : Recipient) : Recipient :=
  if r.state = .read ∨ (r.state = .delivered ∧ state = "delivered") then r
  else if state = "delivered" then { r with state := .delivered, deliveredAt := some timestamp }
  else { r with state := .read, deliveredAt := some (r.deliveredAt.getD timestamp),
                readAt := some timestamp }

/-- `_idempotency_lookup` for `team.message.receipt`. -/
def receiptLookup (teamId principalId key : String)
    (fingerprint : ReceiptFingerprint) : Except Err (Option Response) :=
  match t.receipts.find? fun r => r.teamId = teamId && r.principalId = principalId && r.key = key with
  | none => .ok none
  | some r => do
    refuseIf (r.fingerprint ≠ fingerprint) (.hub "idempotency_conflict"
      "Idempotency key was already used with a different request" 409)
    return some (.receipt r.fingerprint.messageId r.recipients)

/-- The checks before the deletion journal is read. -/
def ReceiptRequest.check (q : ReceiptRequest) : Except Err Unit := do
  refuseIf (q.state ∉ ["delivered", "read"]) (invalid "Receipt state is invalid")
  refuseIf (¬ (8 ≤ q.idempotencyKey.length ∧ q.idempotencyKey.length ≤ 240))
    (invalid "idempotency_key must be 8-240 characters")

/-- The part of `record_team_message_receipt` after the message was found not to be deleted. -/
def receiptBody (own : Int) (teamId messageId : String)
    (q : ReceiptRequest) (role : Role) : Except Err (Space δ × Response) := do
  let fingerprint : ReceiptFingerprint := ⟨teamId, messageId, q.state⟩
  let cached ← t.receiptLookup teamId claims.principalId q.idempotencyKey fingerprint
  match cached with
  | some response => return (t, response)
  | none =>
    let owned ← t.roster.ownedAddresses claims teamId role
    let rows := t.ownRecipients teamId messageId owned
    refuseIf (rows = []) (.hub "forbidden" "This message is not addressed to the caller" 403)
    let recipients := t.recipients.updateWhere (fun r => rows.any fun x => x.id = r.id)
      (receive q.state own) fun r => by unfold receive; split <;> [rfl; split <;> rfl]
    let t' : Space δ := { t with recipients := recipients }
    let updated := ((t'.teamMessageRecipients teamId messageId).filter fun r =>
      rows.any fun x => x.id = r.id).map t'.recipientPublic
    let hub ← t'.roster.hub.onDir fun d => d.audit teamId claims.principalId own
    return ({ t' with
      roster := { t'.roster with hub := hub }
      receipts := t'.receipts ++
        [⟨teamId, claims.principalId, q.idempotencyKey, fingerprint, updated⟩] },
      .receipt messageId updated)

def recordTeamMessageReceipt [DecidableEq δ] (own : Int) (teamId messageId : String)
    (q : ReceiptRequest) : Except Err (Space δ × Response) := do
  q.check
  let membership ← t.roster.requireNetworkScope tools.texts claims teamId false now
  refuseIf (t.deleted teamId messageId = true) resourceNotFound
  t.receiptBody claims own teamId messageId q membership.role

/-! ### Calls -/

/-- A call of a reader. -/
inductive Query where
  | listTeamMessages (teamId : String) (q : ListQuery)
  | getTeamMessage (teamId messageId : String) (includeRevision : Bool)
  | listTeamMessageRevisions (teamId messageId : String)
  | getTeamAttachment (teamId attachmentId : String)
  | openTeamAttachment (teamId attachmentId : String)
  | listNetworkContentDeletions (teamId : String) (afterSequence limit : Int)
  | recordTeamMessageReceipt (teamId messageId : String) (q : ReceiptRequest)

/-- What a call answers, with the two clock readings it makes. -/
def respond [DecidableEq δ] (own : Int) : Query → Except Err Response
  | .listTeamMessages team q => t.listTeamMessages tools claims now team q
  | .getTeamMessage team id rev => t.getTeamMessage tools claims now team id rev
  | .listTeamMessageRevisions team id => t.listTeamMessageRevisions tools claims now team id
  | .getTeamAttachment team id => t.getTeamAttachment tools claims now own team id
  | .openTeamAttachment team id => t.openTeamAttachment tools claims now own team id
  | .listNetworkContentDeletions team start limit =>
    t.listNetworkContentDeletions tools claims now team start limit
  | .recordTeamMessageReceipt team id q => do
    return (← t.recordTeamMessageReceipt tools claims now own team id q).2

end Space

end TeamHub.Mail
