import Mathlib.Algebra.GroupWithZero.Nat
import Mathlib.Data.List.Sort
import ZenithBot.Lib.Crash
import ZenithBot.TeamHub.Directory

/-! Team attachments: metadata in SQLite, bytes in files (`store.py`, migrations 0009 and 0010). An
    upload is declared with its size and digest, its chunks are appended to a staging file, and the last one
    renames that file to its digest. Expired uploads leave tombstones, which a collector turns into unlinks.

    The functions are programs of `Lib.Crash`: each file operation and each commit is an action that may
    fail or find the process dead. A transaction works on a copy of the tables that its `COMMIT` puts in
    place. The control lease keeps the functions apart; creating a message takes no lease, so its
    bindings are the moves of the others, let in wherever no write transaction is open. Checks of owner,
    mode, link count and inode of a file nobody else touches are actions that may only fail. -/

namespace TeamHub
open Lib Prog

variable (sha256 : Bytes → String) (db : Db) (a : Attachment)

abbrev Bytes := List UInt8

/-! ### Rows and files -/

inductive UploadState where
  | uploading | ready | failed
  deriving DecidableEq

/-- A row of `team_attachments`. The table keeps only the number of bytes accepted so far; `accepted`
    is the bytes themselves, written in the same statement. -/
structure Attachment where
  (id teamId : String)
  messageId : Option String := none
  (fileName mediaType : String)
  byteSize : Nat
  storageKey : String
  state : UploadState := .uploading
  receivedBytes : Nat := 0
  accepted : Bytes := []
  uploadedBy : String
  createdAt : Nat
  readyAt : Option Nat := none
  expiresAt : Nat
  deriving DecidableEq

/-- `path_kind` and `path_key` of a tombstone. -/
inductive CleanupPath where
  | content (storageKey : String)
  | staging (attachmentId : String)
  deriving DecidableEq

/-- A row of `team_attachment_cleanup_queue`. -/
structure Tombstone where
  path : CleanupPath
  createdAt : Nat
  attemptCount : Nat := 0

/-- What `canonical_fingerprint` digests of a declaration. -/
structure Fingerprint where
  (teamId fileName mediaType : String)
  byteSize : Nat
  sha256 : String
  deriving DecidableEq

/-- A row of `request_idempotency` for `team.attachment.declare`. -/
structure Declared where
  (teamId principalId key : String)
  fingerprint : Fingerprint
  response : Attachment

structure Db where
  attachments : Table Attachment String Attachment.id := .empty
  cleanupQueue : Table Tombstone CleanupPath Tombstone.path := .empty
  declarations : List Declared := []

/-- The two kinds of files, and what became of staging files: the ones renamed to their content name
    and the ones unlinked because their digest was wrong. -/
structure Files where
  staging : String → Option Bytes := fun _ => none
  content : String → Option Bytes := fun _ => none
  published : List (String × Bytes) := []
  discarded : List (String × Bytes) := []

structure Depot where
  db : Db := {}
  files : Files := {}

/-- `TEAM_ATTACHMENT_UPLOAD_TTL_SECONDS`. -/
def uploadTtlSeconds : Nat := 24 * 60 * 60
/-- `TEAM_ATTACHMENT_CHUNK_BYTES`. -/
def chunkBytes : Nat := 8 * 1024 * 1024
/-- `TEAM_ATTACHMENT_CLEANUP_BATCH`. -/
def cleanupBatch : Nat := 2 * 128
/-- `MAX_TEAM_MESSAGE_ATTACHMENTS`. -/
def maxMessageAttachments : Nat := 16
/-- `MAX_TEAM_MESSAGE_ATTACHMENT_BYTES`. -/
def maxMessageAttachmentBytes : Nat := 2 * 1024 * 1024 * 1024

/-- The limits a hub is configured with. -/
structure Limits where
  (maxBytes quotaBytes : Nat)

/-! ### Errors -/

/-- How a function stops early; `failure` is `_TeamAttachmentFailure`. -/
inductive Stop where
  | raised (e : Err)
  | failure (e : Err)
  deriving DecidableEq

/-- A file operation or a commit that went wrong. -/
def Stop.io : Stop := .raised .os

/-- `except (OSError, RuntimeError)`. -/
def Stop.isIo : Stop → Bool
  | .raised .os | .raised (.runtime _) => true
  | _ => false

def notFound : Stop := .raised (.hub "not_found" "Resource not found" 404)
def invalidRequest (message : String) : Err := .hub "invalid_request" message 422
def unavailable (message : String) : Err := .hub "attachment_unavailable" message 409

/-! ### Messages bind attachments -/

/-- The part of `create_team_message` that binds attachments; `commits` says whether the rest of the
    transaction goes through. -/
structure Binding where
  (teamId principalId : String)
  attachmentIds : List String
  messageId : String
  timestamp : Nat
  commits : Bool := true

def unusable : Err := unavailable "An attachment is missing, unfinished, expired, or already used"

/-- An attachment the sender may bind now. -/
def Attachment.bindable (b : Binding) : Bool :=
  a.teamId = b.teamId && a.state = .ready && a.messageId.isNone && a.uploadedBy = b.principalId &&
    b.timestamp < a.expiresAt

def Db.find? (db : Db) (teamId attachmentId : String) : Option Attachment :=
  db.attachments.rows.find? fun a => a.teamId = teamId && a.id = attachmentId

/-- `UPDATE team_attachments SET f WHERE p`. -/
def Db.updateRows (p : Attachment → Bool) (f : Attachment → Attachment)
    (hf : ∀ a, (f a).id = a.id) : Db :=
  { db with attachments := db.attachments.updateWhere p f hf }

def bindableRows (db : Db) (b : Binding) : List String → Except Err (List Attachment)
  | [] => .ok []
  | id :: ids => do
    let a ← getOr (db.find? b.teamId id) unusable
    refuseIf (a.bindable b = false) unusable
    let rest ← bindableRows db b ids
    return a :: rest

def Db.bindAttachments (b : Binding) : Except Err Db := do
  refuseIf (maxMessageAttachments < b.attachmentIds.length ∨
      (b.attachmentIds.any fun id => !(8 ≤ id.length && id.length ≤ 240)) ∨ ¬b.attachmentIds.Nodup)
    (invalidRequest "Message attachments are invalid")
  let rows ← bindableRows db b b.attachmentIds
  refuseIf (maxMessageAttachmentBytes < (rows.map Attachment.byteSize).sum)
    (.hub "attachment_limit" "Attachments exceed the per-message limit" 413)
  let isBound := fun a : Attachment => a.teamId = b.teamId && b.attachmentIds.contains a.id &&
    a.messageId.isNone && a.state = .ready && b.timestamp < a.expiresAt
  return db.updateRows isBound (fun a => { a with messageId := some b.messageId }) fun _ => rfl

/-- The transaction of one message. -/
def Depot.bind (w : Depot) (b : Binding) : Depot :=
  match w.db.bindAttachments b with
  | .ok db => if b.commits then { w with db := db } else w
  | .error _ => w

/-- A function of the attachment store. -/
abbrev Task (α : Type) := Prog Depot Binding Stop α

/-- `with _write_transaction(connection)`. -/
def transaction {α : Type} (body : Db → Task (Db × α)) : Task α := do
  attempt .io
  let db ← read Depot.db
  let r ← body db
  act .io fun w => { w with db := r.1 }
  return r.2

/-! ### Files -/

/-- A file operation. -/
def touch (f : Files → Files) : Task Unit := act .io fun w => { w with files := f w.files }

/-- The files as they are. -/
def onDisk {α : Type} (f : Files → α) : Task α := read fun w => f w.files

namespace Files

def setStaging (w : Files) (id : String) (bytes : Option Bytes) : Files :=
  { w with staging := Function.update w.staging id bytes }

def writeByte (w : Files) (id : String) (position : Nat) (b : UInt8) : Files :=
  let bytes := (w.staging id).getD []
  w.setStaging id (some (bytes.take position ++ b :: bytes.drop (position + 1)))

/-- `os.replace` of the staging name by the content name. -/
def publish (w : Files) (id storageKey : String) : Files :=
  { w with staging := Function.update w.staging id none
           content := Function.update w.content storageKey (w.staging id)
           published := w.published ++ (w.staging id).toList.map (id, ·) }

/-- `os.unlink` of a staging name whose bytes are wrong. -/
def discard (w : Files) (id : String) : Files :=
  { w with staging := Function.update w.staging id none
           discarded := w.discarded ++ (w.staging id).toList.map (id, ·) }

/-- `os.unlink` of the file a tombstone names. -/
def unlink (w : Files) : CleanupPath → Files
  | .staging id => { w with staging := Function.update w.staging id none }
  | .content key => { w with content := Function.update w.content key none }

/-- The file a tombstone names. -/
def named (w : Files) : CleanupPath → Option Bytes
  | .staging id => w.staging id
  | .content key => w.content key

end Files

/-- The first chunk creates the staging file (`O_CREAT | O_EXCL`), a later one finds it. -/
def openStagingFile (id : String) (received : Nat) : Task Unit := do
  let found ← onDisk fun w => w.staging id
  if received = 0 then
    refuse (found.isSome) .io
    touch fun w => w.setStaging id (some [])
  else
    refuse (found.isNone) .io

/-- What was written beyond the accepted bytes is cut off. -/
def cutStagingFile (id : String) (received : Nat) : Task Unit := do
  let bytes ← onDisk fun w => (w.staging id).getD []
  if received < bytes.length then
    touch fun w => w.setStaging id (some (bytes.take received))
  else
    refuse (bytes.length < received) (.raised (.runtime "Team attachment upload state was lost"))

def openTeamAttachmentStaging (id : String) (received : Nat) : Task Unit := do
  attempt .io
  openStagingFile id received
  attempt .io
  cutStagingFile id received
  attempt .io

/-- The loop of `os.write`, a byte at a time: it may stop after any of them. -/
def writeAll (id : String) : Nat → Bytes → Task Unit
  | _, [] => pure ()
  | position, b :: bs => do
    touch fun w => w.writeByte id position b
    writeAll id (position + 1) bs

def verifyTeamAttachmentDescriptor (file : Files → Option Bytes)
    (expectedSize : Nat) : Task String := do
  attempt .io
  let found ← onDisk file
  let bytes ← lift (getOr found .io)
  refuse (bytes.length ≠ expectedSize) .io
  attempt .io
  return sha256 bytes

def openVerifiedTeamAttachmentBlob (storageKey : String) (byteSize : Nat) : Task Unit := do
  let digest ← verifyTeamAttachmentDescriptor sha256 (fun w => w.content storageKey) byteSize
  refuse (digest ≠ storageKey) .io

/-- `try: … except (OSError, RuntimeError): pass else: True`. -/
def succeeds (m : Task Unit) : Task Bool :=
  handle (do m; return true) fun e => if e.isIo then return false else raise e

def teamAttachmentStagingAbsent (id : String) : Task Bool := do
  attempt .io
  onDisk fun w => (w.staging id).isNone

def unlinkOpenTeamAttachmentStaging (id : String) : Task Unit := do
  attempt .io
  touch fun w => w.discard id
  attempt .io

/-! ### Declaring -/

def isToken (c : Char) : Bool := c.isAlphanum || "!#$&^_.+-".toList.contains c

/-- `TEAM_ATTACHMENT_MEDIA_TYPE_RE`. -/
def isMediaType (s : String) : Bool :=
  let type := s.toList.takeWhile isToken
  match s.toList.dropWhile isToken with
  | '/' :: rest =>
    let subtype := rest.takeWhile isToken
    let parametersOk := match rest.dropWhile isToken with
      | [] => true
      | ';' :: p => 1 ≤ p.length && p.length ≤ 90 && p.all fun c => ' ' ≤ c && c ≤ '~'
      | _ => false
    1 ≤ type.length && type.length ≤ 64 && 1 ≤ subtype.length && subtype.length ≤ 64 && parametersOk
  | _ => false

/-- `TEAM_ATTACHMENT_FILE_NAME_RE` and the checks beside it. -/
def isFileName (s : String) : Bool :=
  1 ≤ s.length && s.length ≤ 255 &&
    (s.toList.all fun c => !(c.toNat ≤ 0x1f || c.toNat = 0x7f || c = '/' || c = '\\')) &&
    Py.strip s = s && s ≠ "." && s ≠ ".."

def isHex (c : Char) : Bool := ('0' ≤ c && c ≤ '9') || ('a' ≤ c && c ≤ 'f')

/-- `TEAM_ATTACHMENT_STORAGE_KEY_RE`. -/
def isStorageKey (s : String) : Bool := s.length = 64 && s.toList.all isHex

/-- `TEAM_ATTACHMENT_ID_RE`. -/
def isAttachmentId (s : String) : Bool :=
  s.toList.take 5 = "tatt_".toList && s.length = 37 && (s.toList.drop 5).all isHex

def teamSha256Hex (value : String) : Except Err String := do
  let digest := String.ofList ((Py.strip value).toList.map Char.toLower)
  refuseIf (isStorageKey digest = false) (invalidRequest "sha256 must be 64 hex characters")
  return digest

/-- A declaration as requested, with what authorises it: `scope` is the refusal of
    `_require_network_scope`, if any. -/
structure Declaration where
  (principalId teamId : String)
  scope : Option Err := none
  (fileName mediaType : String)
  byteSize : Nat
  (sha256 idempotencyKey attachmentId : String)
  timestamp : Nat

/-- The checks before any transaction. -/
def Declaration.fingerprint (d : Declaration) (limits : Limits) : Except Err Fingerprint := do
  refuseIf (isFileName d.fileName = false) (invalidRequest "Attachment file name is invalid")
  let mediaType := Py.strip d.mediaType
  refuseIf (isMediaType mediaType = false) (invalidRequest "Attachment media type is invalid")
  refuseIf (d.byteSize < 1) (invalidRequest "Attachment size is invalid")
  refuseIf (limits.maxBytes < d.byteSize)
    (.hub "attachment_limit" "Attachment exceeds the per-file size limit" 413)
  let storageKey ← teamSha256Hex d.sha256
  refuseIf (¬(8 ≤ d.idempotencyKey.length ∧ d.idempotencyKey.length ≤ 240))
    (invalidRequest "idempotency_key must be 8-240 characters")
  return ⟨d.teamId, d.fileName, mediaType, d.byteSize, storageKey⟩

def Db.idempotencyLookup (d : Declaration) (fingerprint : Fingerprint) :
    Except Err (Option Attachment) :=
  match db.declarations.find? fun r =>
      r.teamId = d.teamId && r.principalId = d.principalId && r.key = d.idempotencyKey with
  | none => .ok none
  | some r => do
    refuseIf (r.fingerprint ≠ fingerprint) (.hub "idempotency_conflict"
      "Idempotency key was already used with a different request" 409)
    return some r.response

/-- The row is bound to a message, or its upload has not expired. -/
def Attachment.live (timestamp : Nat) : Bool :=
  a.messageId.isSome || timestamp < a.expiresAt

def Db.usedBytes (teamId : String) (timestamp : Nat) : Nat :=
  ((db.attachments.rows.filter fun a => a.teamId = teamId && a.state ≠ .failed &&
    a.live timestamp).map Attachment.byteSize).sum

def Db.duplicateReady (f : Fingerprint) (timestamp : Nat) : Bool :=
  db.attachments.rows.any fun a => a.teamId = f.teamId && a.storageKey = f.sha256 &&
    a.state = .ready && a.byteSize = f.byteSize && a.live timestamp

def Declaration.row (d : Declaration) (f : Fingerprint) (alreadyStored : Bool) : Attachment :=
  { id := d.attachmentId, teamId := d.teamId, fileName := f.fileName, mediaType := f.mediaType,
    byteSize := f.byteSize, storageKey := f.sha256,
    state := if alreadyStored then .ready else .uploading,
    receivedBytes := if alreadyStored then f.byteSize else 0,
    uploadedBy := d.principalId, createdAt := d.timestamp,
    readyAt := if alreadyStored then some d.timestamp else none,
    expiresAt := d.timestamp + uploadTtlSeconds }

/-- The transaction of `declare_team_attachment`. The reclamation before it runs under a lease of its
    own and is an operation of its own. -/
def declareTeamAttachment (limits : Limits) (d : Declaration) : Task Attachment := do
  let f ← lift ((d.fingerprint limits).mapError .raised)
  attempt .io
  transaction fun db => do
    lift (match d.scope with | some e => .error (.raised e) | none => .ok ())
    let cached ← lift ((db.idempotencyLookup d f).mapError .raised)
    match cached with
    | some response =>
      let existing := db.find? d.teamId response.id
      refuse ((existing.map (·.live d.timestamp)).getD false = false) (.raised (unavailable
        "Attachment declaration expired; declare it again with a new idempotency key"))
      return (db, response)
    | none =>
      refuse (limits.quotaBytes < db.usedBytes d.teamId d.timestamp + f.byteSize)
        (.raised (.hub "attachment_limit" "Team attachment storage quota exceeded" 413))
      let alreadyStored ← (if db.duplicateReady f d.timestamp then
          succeeds (openVerifiedTeamAttachmentBlob sha256 f.sha256 f.byteSize)
        else pure false : Task Bool)
      let row := d.row f alreadyStored
      let attachments ← lift (getOr (db.attachments.insert? row) (.raised .integrity))
      return ({ db with attachments := attachments
                        declarations := db.declarations ++
                          [⟨d.teamId, d.principalId, d.idempotencyKey, f, row⟩] }, row)

/-! ### Chunks -/

/-- A chunk as requested. -/
structure Chunk where
  (principalId teamId attachmentId : String)
  scope : Option Err := none
  (offset total : Nat)
  data : Bytes
  timestamp : Nat

/-- The row after `_mark_team_attachment_ready_locked`. -/
def Attachment.ready (a : Attachment) (timestamp : Nat) : Attachment :=
  { a with receivedBytes := a.byteSize, state := .ready, readyAt := some timestamp,
           expiresAt := timestamp + uploadTtlSeconds }

/-- `_mark_team_attachment_ready_locked`; the schema refuses a row ready before it was created. -/
def markTeamAttachmentReady (timestamp : Nat) : Task (Db × Attachment) := do
  refuse (timestamp < a.createdAt) (.raised .integrity)
  let isUploading := fun b : Attachment => b.id = a.id && b.state = .uploading
  return (db.updateRows isUploading (·.ready timestamp) fun _ => rfl, a.ready timestamp)

/-- A replay of the last chunk of an upload whose bytes were renamed before its row was committed. -/
def replayedFinalChunk (c : Chunk) : Task Bool := do
  let absent ← teamAttachmentStagingAbsent a.id
  if absent then
    let verified ← succeeds (openVerifiedTeamAttachmentBlob sha256 a.storageKey a.byteSize)
    if verified then
      attempt .io
      let bytes ← onDisk fun w => (w.content a.storageKey).getD []
      let stillAbsent ← teamAttachmentStagingAbsent a.id
      return (bytes.drop c.offset).take c.data.length = c.data && stillAbsent
    else return false
  else return false

/-- The staging file is complete: it is verified and renamed, or unlinked. -/
def publishTeamAttachment : Task Unit := do
  let digest ← handle (verifyTeamAttachmentDescriptor sha256 (fun w => w.staging a.id) a.byteSize)
    fun e => raise (if e.isIo then
      .failure (unavailable "Attachment upload staging changed; declare it again") else e)
  if digest ≠ a.storageKey then
    let _ ← succeeds (unlinkOpenTeamAttachmentStaging a.id)
    raise (.failure (.hub "attachment_hash_mismatch"
      "Uploaded bytes do not match the declared SHA-256" 422))
  attempt .io
  touch fun w => w.publish a.id a.storageKey
  attempt .io

/-- The row after a chunk that is not the last. -/
def Attachment.receive (data : Bytes) : Attachment :=
  { a with receivedBytes := a.receivedBytes + data.length, accepted := a.accepted ++ data }

def appendChunk (c : Chunk) : Task (Db × Attachment) := do
  handle (openTeamAttachmentStaging a.id a.receivedBytes) fun e => raise (if e.isIo then
    .failure (unavailable "Attachment upload staging is unsafe; declare it again") else e)
  writeAll a.id a.receivedBytes c.data
  attempt .io
  if a.receivedBytes + c.data.length < a.byteSize then
    return (db.updateRows (·.id = a.id) (·.receive c.data) fun _ => rfl, a.receive c.data)
  else
    publishTeamAttachment sha256 a
    markTeamAttachmentReady db a c.timestamp

/-- The part of `_write_team_attachment_chunk_locked` about a row that is still uploading. -/
def uploadChunk (c : Chunk) : Task (Db × Attachment) := do
  let replayed ← (if c.offset = a.receivedBytes ∧ a.receivedBytes + c.data.length = a.byteSize then
      replayedFinalChunk sha256 a c
    else pure false : Task Bool)
  if replayed then markTeamAttachmentReady db a c.timestamp
  else if c.offset + c.data.length ≤ a.receivedBytes then return (db, a)
  else
    refuse (c.offset ≠ a.receivedBytes)
      (.raised (.hub "conflict" "Attachment chunk offset is not contiguous" 409))
    refuse (a.byteSize < a.receivedBytes + c.data.length)
      (.raised (invalidRequest "Attachment chunk exceeds the declared size"))
    appendChunk sha256 db a c

def writeTeamAttachmentChunkLocked (c : Chunk) : Task Attachment :=
  transaction fun db => do
    lift (match c.scope with | some e => .error (.raised e) | none => .ok ())
    let a ← lift (getOr (db.find? c.teamId c.attachmentId) notFound)
    refuse (a.uploadedBy ≠ c.principalId) notFound
    refuse (a.live c.timestamp = false)
      (.failure (unavailable "Attachment upload expired; declare it again"))
    refuse (c.total ≠ a.byteSize) (.raised (invalidRequest "Attachment range total is wrong"))
    match a.state with
    | .ready =>
      refuse (a.byteSize < c.offset + c.data.length)
        (.raised (.hub "conflict" "Attachment is already complete" 409))
      return (db, a)
    | .failed => raise (.raised (unavailable "Attachment upload failed; declare it again"))
    | .uploading => uploadChunk sha256 db a c

def Chunk.isUploading (c : Chunk) (a : Attachment) : Bool :=
  a.teamId = c.teamId && a.id = c.attachmentId && a.state = .uploading

/-- A failure is recorded in a transaction of its own. -/
def writeTeamAttachmentChunk (c : Chunk) : Task Attachment := do
  refuse (c.data = []) (.raised (invalidRequest "Attachment chunk is empty"))
  refuse (chunkBytes < c.data.length)
    (.raised (.hub "request_too_large" "Attachment chunk is too large" 413))
  refuse (c.total < 1) (.raised (invalidRequest "Attachment range is invalid"))
  attempt .io
  handle (writeTeamAttachmentChunkLocked sha256 c) fun e =>
    match e with
    | .failure error => do
      Prog.yield Depot.bind
      transaction fun db => return (db.updateRows c.isUploading
        (fun a => { a with state := .failed }) fun _ => rfl, ())
      raise (.raised error)
    | e => raise e

/-! ### Reclaiming -/

/-- `_validate_team_attachment_cleanup_key`. -/
def CleanupPath.valid : CleanupPath → Bool
  | .staging id => isAttachmentId id
  | .content key => isStorageKey key

def invalidCleanupKey : Stop := .raised (.runtime "Team attachment cleanup key is invalid")

def unlinkTeamAttachmentCleanupPath (path : CleanupPath) : Task Unit := do
  refuse (path.valid = false) invalidCleanupKey
  attempt .io
  let found ← onDisk fun w => w.named path
  if found.isSome then
    attempt .io
    touch fun w => w.unlink path
    attempt .io
  else
    attempt .io

/-- The metadata still needs the file. -/
def Db.protects : CleanupPath → Bool
  | .staging id => db.attachments.rows.any fun a => a.id = id
  | .content key => db.attachments.rows.any fun a => a.storageKey = key && a.state = .ready

/-- `ORDER BY attempt_count,created_at,path_kind,path_key`. -/
def Tombstone.before (t u : Tombstone) : Bool :=
  let kind : CleanupPath → Nat × String
    | .content key => (0, key)
    | .staging id => (1, id)
  t.attemptCount < u.attemptCount || (t.attemptCount = u.attemptCount && (t.createdAt < u.createdAt ||
    (t.createdAt = u.createdAt && ((kind t.path).1 < (kind u.path).1 ||
      ((kind t.path).1 = (kind u.path).1 && (kind t.path).2 ≤ (kind u.path).2)))))

/-- One round of the collector; the accumulator is `completed` and `failed`. -/
def drainOne (acc : List CleanupPath × List CleanupPath) (path : CleanupPath) :
    Task (List CleanupPath × List CleanupPath) := do
  Prog.yield Depot.bind
  if path.valid = false then return (acc.1, acc.2 ++ [path])
  else
    let guarded ← read fun w => w.db.protects path
    if guarded then return (acc.1 ++ [path], acc.2)
    else
      Prog.yield Depot.bind
      let unlinked ← succeeds (unlinkTeamAttachmentCleanupPath path)
      if unlinked then return (acc.1 ++ [path], acc.2) else return (acc.1, acc.2 ++ [path])

/-- The tombstones after a round: the completed ones are gone, the failed ones wait. -/
def Db.retire (completed failed : List CleanupPath) : Db :=
  let queue := db.cleanupQueue.deleteWhere fun t => completed.contains t.path
  let retried := fun t : Tombstone => { t with attemptCount := t.attemptCount + 1 }
  { db with cleanupQueue :=
      queue.updateWhere (fun t => failed.contains t.path) retried fun _ => rfl }

def drainTeamAttachmentCleanupQueue (limit : Nat) : Task Nat := do
  attempt .io
  let pending ← read fun w =>
    ((w.db.cleanupQueue.rows.insertionSort fun t u => t.before u = true).take limit).map Tombstone.path
  let acc ← forEach drainOne ([], []) pending
  Prog.yield Depot.bind
  if acc.1 ≠ [] ∨ acc.2 ≠ [] then
    transaction fun db => return (db.retire acc.1 acc.2, acc.1.length)
  else
    return acc.1.length

/-- A reclamation as requested. -/
structure Purge where
  timestamp : Nat
  teamId : Option String := none
  limit : Nat := 128

/-- `ORDER BY expires_at,id`. -/
def Attachment.before (a b : Attachment) : Bool :=
  a.expiresAt < b.expiresAt || (a.expiresAt = b.expiresAt && a.id ≤ b.id)

/-- The expired uploads no message is bound to, oldest first. -/
def Db.stale (p : Purge) : List Attachment :=
  ((db.attachments.rows.filter fun a => a.messageId.isNone && a.expiresAt ≤ p.timestamp &&
    (match p.teamId with | some team => a.teamId = team | none => true)).insertionSort
      fun a b => a.before b = true).take p.limit

/-- `INSERT OR IGNORE INTO team_attachment_cleanup_queue`. -/
def Db.enqueue (timestamp : Nat) (path : CleanupPath) : Db :=
  { db with cleanupQueue := (db.cleanupQueue.insert? ⟨path, timestamp, 0⟩).getD db.cleanupQueue }

/-- The transaction of `purge_expired_team_attachments`. -/
def purgeStale (p : Purge) (db : Db) : Except Stop (Db × Nat) := do
  let stale := db.stale p
  refuseIf (stale.any fun a => !(CleanupPath.staging a.id).valid) invalidCleanupKey
  let db := stale.foldl (fun db a => db.enqueue p.timestamp (.staging a.id)) db
  let db := { db with attachments :=
    db.attachments.deleteWhere fun a => stale.any fun b => b.id = a.id }
  let keys := (stale.map Attachment.storageKey).dedup
  refuseIf (keys.any fun key => !(CleanupPath.content key).valid) invalidCleanupKey
  let unreferenced := keys.filter fun key => !db.protects (.content key)
  return (unreferenced.foldl (fun db key => db.enqueue p.timestamp (.content key)) db, stale.length)

def purgeExpiredTeamAttachments (p : Purge) : Task Nat := do
  refuse (¬(1 ≤ p.limit ∧ p.limit ≤ 4096))
    (.raised (.value "attachment reclaim limit must be between 1 and 4096"))
  attempt .io
  let reclaimed ← transaction fun db => lift (purgeStale p db)
  Prog.yield Depot.bind
  let _ ← drainTeamAttachmentCleanupQueue (min 8192 (max cleanupBatch (p.limit * 2)))
  return reclaimed

/-! ### Runs -/

/-- A call, with what befalls it. -/
inductive Request where
  | declare (d : Declaration) (fates : List (Fate Binding))
  | writeChunk (c : Chunk) (fates : List (Fate Binding))
  | bind (b : Binding)
  | purge (p : Purge) (fates : List (Fate Binding))

/-- The depot after a call. -/
def Depot.step (limits : Limits) (w : Depot) : Request → Depot
  | .declare d fates => (declareTeamAttachment sha256 limits d w fates).2.1
  | .writeChunk c fates => (writeTeamAttachmentChunk sha256 c w fates).2.1
  | .bind b => w.bind b
  | .purge p fates => (purgeExpiredTeamAttachments p w fates).2.1

end TeamHub
