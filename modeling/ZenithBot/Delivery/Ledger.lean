import Mathlib.Algebra.Group.Int.Defs
import ZenithBot.Lib.Run
import ZenithBot.Lib.Table
import ZenithBot.PyText

/-! The local admission ledger for secure-peer deliveries (`secure_peer_delivery.py`): one row per
    remote envelope, from the moment it is claimed on the relay until its chat turn has finished.
    Every operation is one database transaction; an operation that raises is rolled back and
    leaves the ledger as it was, so each is a function into `Except`, whose error is the raised
    message.

    The digest of a claim and of a response intent (`sha256` over canonical JSON) and the hash of a
    result text are parameters: nothing below depends on how they are computed. -/

namespace Delivery

inductive State where
  | prepared | authorized | queued | running | completed | failed
  deriving DecidableEq

/-- `TERMINAL_DELIVERY_STATES`. -/
def State.terminal : State → Bool
  | .completed | .failed => true
  | _ => false

def maxNonterminalDeliveries : Nat := 2048

/-- An envelope as the relay hands it over. Missing or null identities are the empty text, missing
    numbers 0; `body` is the message of an object with the single key `message` holding a text, `none` for
    every other body. -/
structure Envelope where
  (envelopeId requestId teamId : String)
  sourcePeerId : Option String
  (sourceServerIdentity sourceRouteId sourceRouteRevision : String)
  targetPeerId : Option String
  (targetServerIdentity targetRouteId targetRouteRevision action kind exchangeId : String)
  parentEnvelopeId : Option String
  parentLeg : Option Int
  (usedLegs maxLegs expiresAt : Int)
  body : Option String

/-- The immutable part of a claim: the envelope and the local target it was resolved to. -/
structure Claim extends Envelope where
  (transportRole connectionId targetChatId : String)

/-- What a response intent is digested over. -/
structure Intent where
  (requestId body : String)
  requestResponse : Bool

/-- A row of `secure_peer_deliveries`. -/
structure Row where
  claim : Claim
  (claimDigest leaseToken : String)
  state : State := .prepared
  queuedId : Option String := none
  runId : Option String := none
  admissionRetryAt : Option Int := none
  admissionAttempts : Nat := 0
  admissionLastError : Option String := none
  responseCommitted : Bool := false
  responseRequestId : Option String := none
  responseRequestDigest : Option String := none
  responseBody : Option String := none
  responseRequestResponse : Option Bool := none
  responseRetryAt : Option Int := none
  responseAttempts : Nat := 0
  responseLastError : Option String := none
  resultHash : Option String := none
  error : Option String := none
  (createdAt updatedAt : Int)

/-- Primary key of a row. -/
def Row.envelopeId (r : Row) : String := r.claim.envelopeId

abbrev Ledger := Table Row String Row.envelopeId

variable (claimDigest : Claim → String) (intentDigest : Intent → String) (sha256 : String → String)
  (l : Ledger)

/-- The exact claim, or the reason it is refused. -/
def claim (env : Envelope) (transportRole connectionId leaseToken targetChatId : String) :
    Except String Claim :=
  let exact : Claim := { env with transportRole, connectionId, targetChatId }
  if transportRole ∉ ["host", "client"] then .error "secure peer delivery role is invalid"
  else if env.action ∉ ["instruction", "request_reply"] then
    .error "secure peer delivery action is invalid"
  else if env.kind ∉ ["instruction", "request_reply", "response"] then
    .error "secure peer delivery kind is invalid"
  else if !env.body.any (fun m => !Py.blank m && m.length ≤ 100000) then
    .error "secure peer delivery body is invalid"
  else if "" ∈ [env.envelopeId, env.requestId, connectionId, leaseToken, env.teamId,
      env.sourceServerIdentity, env.sourceRouteId, env.sourceRouteRevision,
      env.targetServerIdentity, env.targetRouteId, env.targetRouteRevision, targetChatId,
      env.exchangeId] then
    .error "secure peer delivery identity is incomplete"
  else if env.maxLegs ≠ 6 ∨ ¬(1 ≤ env.usedLegs ∧ env.usedLegs ≤ 6) then
    .error "secure peer delivery leg budget is invalid"
  else .ok exact

def OwnersUnique : Prop := l.UniqueOn Row.queuedId ∧ l.UniqueOn Row.runId

instance (l : Ledger) : Decidable (OwnersUnique l) := inferInstanceAs (Decidable (_ ∧ _))

/-- A statement that writes an owner column raises when a unique index is violated. -/
def checked : Except String Ledger :=
  if OwnersUnique l then .ok l else .error "UNIQUE constraint failed"

def nonterminal (r : Row) : Bool := !r.state.terminal

/-- Prepared deliveries whose exchange has expired are failed before room is looked for. -/
def expirePrepared (now : Int) : Ledger :=
  l.updateWhere (fun r => r.state = .prepared && r.claim.expiresAt ≤ now)
    (fun r => { r with
      state := .failed, error := some "secure peer exchange expired", updatedAt := now })
    fun _ => rfl

/-- Record a claimed envelope once. A redelivery of the same claim returns the row that is there,
    with the new lease token while the row is still prepared. -/
def prepare (env : Envelope)
    (transportRole connectionId leaseToken targetChatId : String) (now : Int) :
    Except String (Ledger × Option Row × Bool) :=
  match claim env transportRole connectionId leaseToken targetChatId with
  | .error e => .error e
  | .ok exact =>
    match l.find? exact.envelopeId with
    | some row =>
      if row.claimDigest ≠ claimDigest exact then .error "secure peer envelope identity changed"
      else if row.state = .prepared ∧ row.leaseToken ≠ leaseToken then
        let l' := l.updateWhere (fun r => r.envelopeId = exact.envelopeId && r.state = .prepared
            && r.claimDigest = claimDigest exact)
          (fun r => { r with leaseToken := leaseToken, updatedAt := now }) fun _ => rfl
        .ok (l', l'.find? exact.envelopeId, false)
      else .ok (l, some row, false)
    | none =>
      let l₁ := expirePrepared l now
      if maxNonterminalDeliveries ≤ l₁.countWhere nonterminal then
        .error "secure peer delivery capacity is full"
      else
        let row : Row := { claim := exact, claimDigest := claimDigest exact, leaseToken,
                           createdAt := now, updatedAt := now }
        match l₁.insert? row with
        | none => .error "UNIQUE constraint failed"
        | some l₂ => .ok (l₂, some row, true)

/-- The columns `_transition` may set besides the state; `none` leaves the column alone. -/
structure Patch where
  queuedId : Option (Option String) := none
  runId : Option (Option String) := none
  resultHash : Option (Option String) := none
  error : Option (Option String) := none

def Patch.apply (p : Patch) (state : State) (now : Int) (r : Row) : Row :=
  { r with
    queuedId := p.queuedId.getD r.queuedId, runId := p.runId.getD r.runId,
    resultHash := p.resultHash.getD r.resultHash, error := p.error.getD r.error,
    state := state, updatedAt := now }

/-- The ledger after a call, with the row it returns, or its `ValueError`. -/
abbrev Answer := Except String (Ledger × Option Row)

/-- Move one row to `state` if it is in one of the `expected` states. -/
def transition (envelopeId : String) (expected : List State) (state : State)
    (patch : Patch) (now : Int) : Answer :=
  let hit := fun r : Row => decide (r.envelopeId = envelopeId) && decide (r.state ∈ expected)
  match checked (l.updateWhere hit (patch.apply state now) fun _ => rfl) with
  | .error e => .error e
  | .ok l' => if l.countWhere hit ≠ 1 then .ok (l', none) else .ok (l', l'.find? envelopeId)

def authorize (envelopeId : String) (now : Int) : Answer :=
  transition l envelopeId [.prepared, .authorized] .authorized {} now

/-- Fail only a delivery that no queued row and no run owns. -/
def failOwnerlessAuthorized (envelopeId error : String) (now : Int) : Answer :=
  let l' := l.updateWhere
    (fun r => r.envelopeId = envelopeId && r.state = .authorized
      && r.queuedId = none && r.runId = none)
    (fun r => { r with
      state := .failed, error := some (Py.clip 400 error), admissionRetryAt := none,
      admissionLastError := none, updatedAt := now }) fun _ => rfl
  .ok (l', l'.find? envelopeId)

/-- Hand an authorized delivery to its queued row or run, or a queued one to the run its row became;
    repeating the call changes nothing. -/
def bindOwner (envelopeId : String) (queuedId runId : Option String) (now : Int) : Answer :=
  if queuedId = none ∧ runId = none then .error "secure peer delivery owner is empty"
  else match l.find? envelopeId with
  | none => .ok (l, none)
  | some row =>
    match row.state with
    | .authorized =>
      let next : State := if runId.isSome then .running else .queued
      match checked (l.updateWhere
          (fun r => r.envelopeId = envelopeId && r.state = .authorized
            && r.queuedId = none && r.runId = none)
          (fun r => { r with
            state := next, queuedId := queuedId, runId := runId, admissionRetryAt := none,
            admissionLastError := none, updatedAt := now }) fun _ => rfl) with
      | .error e => .error e
      | .ok l' => .ok (l', l'.find? envelopeId)
    | .queued =>
      if row.queuedId ≠ queuedId ∨ row.runId ≠ none then .ok (l, none)
      else if runId = none then .ok (l, some row)
      else match checked (l.updateWhere
          (fun r => r.envelopeId = envelopeId && r.state = .queued
            && r.queuedId.isSome && r.queuedId = queuedId && r.runId = none)
          (fun r => { r with
            state := .running, runId := runId, admissionRetryAt := none,
            admissionLastError := none, updatedAt := now }) fun _ => rfl) with
      | .error e => .error e
      | .ok l' => .ok (l', l'.find? envelopeId)
    | .running =>
      if row.queuedId ≠ queuedId ∨ row.runId ≠ runId then .ok (l, none) else .ok (l, some row)
    | _ => .ok (l, none)

/-- Bounded exponential backoff of both retry queues, in seconds. -/
def backoff (attempts : Nat) : Int := min 300 (2 ^ min attempts 8)

/-- Schedule another attempt to admit an authorized delivery. -/
def deferAdmission (envelopeId error : String) (now : Int) : Answer :=
  match l.find? envelopeId with
  | none => .ok (l, none)
  | some row =>
    if row.state ≠ .authorized ∨ row.queuedId ≠ none ∨ row.runId ≠ none then .ok (l, some row)
    else
      let attempts := row.admissionAttempts + 1
      let l' := l.updateWhere
        (fun r => r.envelopeId = envelopeId && r.state = .authorized
          && r.queuedId = none && r.runId = none)
        (fun r => { r with
          admissionAttempts := attempts, admissionRetryAt := some (now + backoff attempts),
          admissionLastError := some (Py.clip 400 error), updatedAt := now }) fun _ => rfl
      .ok (l', l'.find? envelopeId)

/-- The turn ended. Only a failure may end a delivery that was never authorized. -/
def finish (envelopeId : String) (succeeded : Bool) (resultText : String)
    (error : Option String) (now : Int) : Answer :=
  transition l envelopeId
    (if succeeded then [.authorized, .queued, .running]
      else [.prepared, .authorized, .queued, .running])
    (if succeeded then .completed else .failed)
    { resultHash := some (if resultText = "" then none else some (sha256 resultText)),
      error := some error } now

/-! ### Response intents -/

def open_ (s : State) : Bool := s = .authorized || s = .queued || s = .running

/-- Save the one response of a delivery before it is sent. -/
def prepareResponse (envelopeId requestId body : String) (requestResponse : Bool)
    (now : Int) : Answer :=
  if requestId = "" ∨ Py.blank body ∨ 100000 < body.length then
    .error "secure peer response intent is invalid"
  else
    let digest := intentDigest { requestId, body, requestResponse }
    match l.find? envelopeId with
    | none => .ok (l, none)
    | some row =>
      if !open_ row.state ∨ row.claim.kind = "instruction" then .ok (l, none)
      else match row.responseRequestDigest with
      | some existing =>
        if existing ≠ digest then .error "secure peer response intent changed"
        else .ok (l, some row)
      | none =>
        let l' := l.updateWhere
          (fun r => r.envelopeId = envelopeId && r.responseRequestDigest = none
            && !r.responseCommitted && open_ r.state)
          (fun r => { r with
            responseRequestId := some requestId, responseRequestDigest := some digest,
            responseBody := some body, responseRequestResponse := some requestResponse,
            responseRetryAt := some now, responseAttempts := 0, responseLastError := none,
            updatedAt := now }) fun _ => rfl
        .ok (l', l'.find? envelopeId)

/-- The relay has the response. -/
def markResponseCommitted (envelopeId : String) (requestId : Option String)
    (now : Int) : Answer :=
  let l' := l.updateWhere
    (fun r => r.envelopeId = envelopeId && open_ r.state && !r.responseCommitted
      && (requestId = none || r.responseRequestId = requestId))
    (fun r => { r with
      responseCommitted := true, responseRetryAt := none, responseLastError := none,
      updatedAt := now }) fun _ => rfl
  .ok (l', l'.find? envelopeId)

/-- Forget an uncommitted response. -/
def clearResponseIntent (envelopeId requestId : String) (now : Int) : Answer :=
  let l' := l.updateWhere
    (fun r => r.envelopeId = envelopeId && r.responseRequestId = some requestId
      && !r.responseCommitted && open_ r.state)
    (fun r => { r with
      responseRequestId := none, responseRequestDigest := none, responseBody := none,
      responseRequestResponse := none, responseRetryAt := none, responseAttempts := 0,
      responseLastError := none, updatedAt := now }) fun _ => rfl
  .ok (l', l'.find? envelopeId)

/-- Schedule another attempt to send the response. -/
def deferResponse (envelopeId requestId error : String) (now : Int) : Answer :=
  match l.find? envelopeId with
  | none => .ok (l, none)
  | some row =>
    if !open_ row.state ∨ row.responseRequestId ≠ some requestId ∨ row.responseCommitted then
      .ok (l, some row)
    else
      let attempts := row.responseAttempts + 1
      let l' := l.updateWhere
        (fun r => r.envelopeId = envelopeId && r.responseRequestId = some requestId
          && !r.responseCommitted && open_ r.state)
        (fun r => { r with
          responseAttempts := attempts, responseRetryAt := some (now + backoff attempts),
          responseLastError := some (Py.clip 400 error), updatedAt := now }) fun _ => rfl
      .ok (l', l'.find? envelopeId)

/-- Forget deliveries that ended before the retention period. -/
def prune (retainSeconds now : Int) : Except String (Ledger × Nat) :=
  let old := fun r : Row => r.state.terminal && decide (r.updatedAt < now - retainSeconds)
  .ok (l.deleteWhere old, l.countWhere old)

/-! ### The ledger as a machine -/

/-- One call of the ledger, with everything the caller and the clock decide. -/
inductive Op where
  | prepare (env : Envelope) (transportRole connectionId leaseToken targetChatId : String)
      (now : Int)
  | authorize (envelopeId : String) (now : Int)
  | failOwnerlessAuthorized (envelopeId error : String) (now : Int)
  | bindOwner (envelopeId : String) (queuedId runId : Option String) (now : Int)
  | deferAdmission (envelopeId error : String) (now : Int)
  | finish (envelopeId : String) (succeeded : Bool) (resultText : String)
      (error : Option String) (now : Int)
  | prepareResponse (envelopeId requestId body : String) (requestResponse : Bool) (now : Int)
  | markResponseCommitted (envelopeId : String) (requestId : Option String) (now : Int)
  | clearResponseIntent (envelopeId requestId : String) (now : Int)
  | deferResponse (envelopeId requestId error : String) (now : Int)
  | prune (retainSeconds now : Int)

/-- The ledger an operation would commit, or the error it raises. -/
def perform : Op → Except String Ledger
  | .prepare env role connection lease chat now =>
    (prepare claimDigest l env role connection lease chat now).map Prod.fst
  | .authorize id now => (authorize l id now).map Prod.fst
  | .failOwnerlessAuthorized id e now => (failOwnerlessAuthorized l id e now).map Prod.fst
  | .bindOwner id q r now => (bindOwner l id q r now).map Prod.fst
  | .deferAdmission id e now => (deferAdmission l id e now).map Prod.fst
  | .finish id ok text e now => (finish sha256 l id ok text e now).map Prod.fst
  | .prepareResponse id req body rr now =>
    (prepareResponse intentDigest l id req body rr now).map Prod.fst
  | .markResponseCommitted id req now => (markResponseCommitted l id req now).map Prod.fst
  | .clearResponseIntent id req now => (clearResponseIntent l id req now).map Prod.fst
  | .deferResponse id req e now => (deferResponse l id req e now).map Prod.fst
  | .prune retain now => (prune l retain now).map Prod.fst

/-- A raised error rolls the transaction back. -/
def step (o : Op) : Ledger :=
  match perform claimDigest intentDigest sha256 l o with
  | .ok l' => l'
  | .error _ => l

end Delivery
