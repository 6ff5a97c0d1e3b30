import ZenithBot.Lib.Run
import ZenithBot.SecurePeer.Peers
import ZenithBot.SecurePeer.Relay

/-! The secure peer store as a machine: every transaction of `SecurePeerStore` with its arguments and
    what it reads from outside, and the store it leaves. A `World` is a store together with the
    history its users can tell apart: the envelopes ever created, the claims that handed envelopes
    out, the receipts ever recorded. The history is read off the stores and the answers; no
    transaction can see it. -/

namespace SecurePeer
open Lib

variable {δ : Type} [DecidableEq δ]

/-- What the host is: its identity and the two functions it takes digests with. -/
structure Host (δ : Type) where
  serverIdentity : String
  canonicalJson : EnvelopePayload → String
  sha256 : String → δ

/-- One call of a transaction of `SecurePeerStore`. -/
inductive Action (δ : Type) where
  | submitPairing (request : PairingRequest δ) (pairingId : Uuid) (sourceIp : Option String)
      (externalActionableCount : Nat)
  | pollPairing (pairingId : Uuid) (pollTokenHash : δ)
  | listPairings
  | cancelPairing (pairingId : Uuid) (pollTokenHash : δ)
  | rejectPairing (pairingId rejectedBy reason expectedPeerServerIdentity
      expectedTranscriptHash : String)
  | approvePairing (pairingId teamId : String) (scopes : List Scope) (approvedBy
      expectedPeerServerIdentity expectedTranscriptHash : String) (peerId : Uuid)
      (issued : IssuedCertificate) (revision : Uuid → String)
  | reconcileActiveLogicalPeers (preferredPeerIds : List String) (actor : String)
      (revision : Uuid → String)
  | revokePeer (peerId teamId expectedCertificateFingerprint revokedBy revision : String)
  | revokePeerForSelf (peer : PeerAuthorization) (revision : String)
  | activateCrossChatConsent (expectedEpoch : Nat) (activatedBy revision : String)
  | recordPeerHeartbeat (peerId : String)
  | renewPeer (peer : PeerAuthorization) (request : RenewalRequest δ) (issued : IssuedCertificate)
  | activateRenewal (peer : PeerAuthorization) (requestId : String)
  | publishLocalRoute (teamId audiencePeerId chatId : String) (payload : RoutePayload)
      (publishedBy : String)
  | publishPeerRoute (peer : PeerAuthorization) (payload : RoutePayload)
  | revokeRoute (routeId teamId expectedRevision revokedBy nextRevision : String)
  | revokePeerRoute (peer : PeerAuthorization) (routeId expectedRevision nextRevision : String)
  | retireAgentRoutesLocally (revision : Uuid → String)
  | submitEnvelope (peer : PeerAuthorization) (payload : EnvelopePayload)
      (envelopeId newExchangeId : Uuid)
  | submitLocalEnvelope (teamId sourceRouteId : String) (payload : EnvelopePayload)
      (envelopeId newExchangeId : Uuid)
  | claimInbox (peer : PeerAuthorization) (leaseOwner : String) (limit : Nat) (leaseToken : String)
  | claimLocalInbox (leaseOwner : String) (peerId : Option String) (limit : Nat)
      (leaseToken : String)
  | claimLocalRouteInbox (teamId targetRouteId leaseOwner : String) (limit : Nat)
      (leaseToken : String)
  | receiptEnvelope (peer : PeerAuthorization) (envelopeId leaseToken : String) (outcome : Outcome)
  | receiptLocalEnvelope (teamId targetRouteId envelopeId leaseToken : String) (outcome : Outcome)

/-- A call and what it reads from outside. -/
structure Op (δ : Type) where
  call : Call
  action : Action δ

/-- What the caller sees, as far as the relay is concerned. -/
inductive Reply (δ : Type) where
  | refused (e : Err)
  | done
  | submitted (reply : SubmitReply)
  | claimed (reply : ClaimReply δ)
  | receipted (reply : ReceiptReply)

/-- The end of a transaction: an error rolls back to `s`. -/
def settle {α : Type} (s : Store δ) (answer : α → Reply δ) : Except Err (Store δ × α) → Store δ × Reply δ
  | .error e => (s, .refused e)
  | .ok (s', a) => (s', answer a)

/-- The answer of a transaction that may raise after it committed. -/
def Reply.raising {α : Type} (answer : α → Reply δ) : Except Err α → Reply δ
  | .error e => .refused e
  | .ok a => answer a

/-- The same where the answer may be an error raised after the commit. -/
def settleRaising {α : Type} (s : Store δ) (answer : α → Reply δ) :
    Except Err (Store δ × Except Err α) → Store δ × Reply δ :=
  settle s (Reply.raising answer)

/-- The same for a transaction without an answer. -/
def settleUnit (s : Store δ) : Except Err (Store δ) → Store δ × Reply δ
  | .error e => (s, .refused e)
  | .ok s' => (s', .done)

/-- The store after a call, and its answer. -/
def perform (h : Host δ) (s : Store δ) (op : Op δ) : Store δ × Reply δ :=
  let call := op.call
  match op.action with
  | .submitPairing request pairingId sourceIp external =>
    settle s (fun _ => .done) (submitPairing s call request pairingId sourceIp external)
  | .pollPairing pairingId hash => settle s (fun _ => .done) (pollPairing s call pairingId hash)
  | .listPairings => (s.expirePendingPairings call.timestamp fun _ => true, .done)
  | .cancelPairing pairingId hash => settleUnit s (cancelPairing s call pairingId hash)
  | .rejectPairing pairingId rejectedBy reason identity transcript =>
    settleRaising s (fun _ => .done)
      (rejectPairing s call pairingId rejectedBy reason identity transcript)
  | .approvePairing pairingId teamId scopes approvedBy identity transcript peerId issued revision =>
    settleRaising s (fun _ => .done) (approvePairing s call pairingId teamId scopes approvedBy
      identity transcript peerId issued revision)
  | .reconcileActiveLogicalPeers preferred actor revision =>
    settle s (fun _ => .done) (reconcileActiveLogicalPeers s call preferred actor revision)
  | .revokePeer peerId teamId fingerprint revokedBy revision =>
    settleUnit s (revokePeer s call peerId teamId fingerprint revokedBy revision)
  | .revokePeerForSelf peer revision => settleUnit s (revokePeerForSelf s call peer revision)
  | .activateCrossChatConsent expected activatedBy revision =>
    settleUnit s (activateCrossChatConsent s call expected activatedBy revision)
  | .recordPeerHeartbeat peerId => settle s (fun _ => .done) (recordPeerHeartbeat s call peerId)
  | .renewPeer peer request issued => settle s (fun _ => .done) (renewPeer s call peer request issued)
  | .activateRenewal peer requestId => settleUnit s (activateRenewal s call peer requestId)
  | .publishLocalRoute teamId audience chatId payload publishedBy =>
    settle s (fun _ => .done)
      (publishLocalRoute s call h.serverIdentity teamId audience chatId payload publishedBy)
  | .publishPeerRoute peer payload => settle s (fun _ => .done) (publishPeerRoute s call peer payload)
  | .revokeRoute routeId teamId expected revokedBy next =>
    settleUnit s (revokeRoute s call routeId teamId expected revokedBy next)
  | .revokePeerRoute peer routeId expected next =>
    settleUnit s (revokePeerRoute s call peer routeId expected next)
  | .retireAgentRoutesLocally revision => ((retireAgentRoutesLocally s call revision).1, .done)
  | .submitEnvelope peer payload envelopeId exchangeId =>
    settle s .submitted
      (submitEnvelope h.canonicalJson h.sha256 s call peer payload none envelopeId exchangeId)
  | .submitLocalEnvelope teamId routeId payload envelopeId exchangeId =>
    settle s .submitted (submitLocalEnvelope h.canonicalJson h.sha256 s call h.serverIdentity teamId
      routeId payload envelopeId exchangeId)
  | .claimInbox peer owner limit token =>
    settle s .claimed (claimInbox h.sha256 s call h.serverIdentity peer owner limit .ofCaller token)
  | .claimLocalInbox owner peerId limit token =>
    settle s .claimed (claimLocalInbox h.sha256 s call h.serverIdentity owner peerId limit token)
  | .claimLocalRouteInbox teamId routeId owner limit token =>
    settle s .claimed
      (claimLocalRouteInbox h.sha256 s call h.serverIdentity teamId routeId owner limit token)
  | .receiptEnvelope peer envelopeId token outcome =>
    settleRaising s .receipted (receiptEnvelope h.sha256 s call peer envelopeId token outcome none)
  | .receiptLocalEnvelope teamId routeId envelopeId token outcome =>
    settleRaising s .receipted
      (receiptLocalEnvelope h.sha256 s call h.serverIdentity teamId routeId envelopeId token outcome)

/-! ### History -/

structure Created (δ : Type) where
  payload : Option EnvelopePayload
  letter : Letter δ

/-- A claim that handed envelopes out. -/
structure Handout (δ : Type) where
  token : String
  timestamp : Nat
  letters : List (Letter δ)

/-- A receipt as it was recorded, with the token presented for it. -/
structure Settlement where
  envelopeId : Uuid
  token : Option String
  outcome : Outcome

def Action.payload? : Action δ → Option EnvelopePayload
  | .submitEnvelope _ payload _ _ | .submitLocalEnvelope _ _ payload _ _ => some payload
  | _ => none

/-- The identifiers a submission draws: the envelope's and the exchange's. -/
def Action.drawn? : Action δ → Option (Uuid × Uuid)
  | .submitEnvelope _ _ envelopeId exchangeId => some (envelopeId, exchangeId)
  | .submitLocalEnvelope _ _ _ envelopeId exchangeId => some (envelopeId, exchangeId)
  | _ => none

def Action.leaseToken? : Action δ → Option String
  | .claimInbox _ _ _ token | .claimLocalInbox _ _ _ token => some token
  | .claimLocalRouteInbox _ _ _ _ token => some token
  | _ => none

def Action.presentedToken? : Action δ → Option String
  | .receiptEnvelope _ _ token _ | .receiptLocalEnvelope _ _ _ token _ => some token
  | _ => none

def newEnvelopes (s s' : Store δ) : List (Letter δ) :=
  (s'.envelopes.rows.filter fun e => (s.envelopes.find? e.id).isNone).map Envelope.toLetter

def newReceipts (s s' : Store δ) : List Receipt :=
  s'.receipts.rows.filter fun r => (s.receipts.find? r.envelopeId).isNone

/-- What a claim's answer hands out. -/
def Reply.handout (timestamp : Nat) : Reply δ → List (Handout δ)
  | .claimed reply => reply.leaseToken.toList.map fun token => ⟨token, timestamp, reply.envelopes⟩
  | _ => []

/-- A store and the history it has. -/
structure World (δ : Type) where
  store : Store δ
  clock : Nat
  created : List (Created δ)
  handouts : List (Handout δ)
  settlements : List Settlement

/-- A new database, with no history. -/
def World.new (crossChatAvailable : Bool) : World δ := ⟨.new crossChatAvailable, 0, [], [], []⟩

/-- One transaction. -/
def step (h : Host δ) (w : World δ) (op : Op δ) : World δ :=
  let r := perform h w.store op
  { store := r.1
    clock := op.call.timestamp
    created := w.created ++ (newEnvelopes w.store r.1).map fun l => ⟨op.action.payload?, l⟩
    handouts := w.handouts ++ r.2.handout op.call.timestamp
    settlements := w.settlements ++ (newReceipts w.store r.1).map fun x =>
      ⟨x.envelopeId, op.action.presentedToken?, x.outcome⟩ }

/-- The letters of one exchange, in the order of their creation. -/
def legs (created : List (Created δ)) (exchangeId : Uuid) : List (Letter δ) :=
  (created.map Created.letter).filter fun l => l.exchangeId = exchangeId

def Handout.returns (a : Handout δ) (envelopeId : Uuid) : Prop := ∃ l ∈ a.letters, l.id = envelopeId

instance (a : Handout δ) (envelopeId : Uuid) : Decidable (a.returns envelopeId) :=
  inferInstanceAs (Decidable (∃ l ∈ a.letters, l.id = envelopeId))

def lastToken (handouts : List (Handout δ)) (envelopeId : Uuid) : Option String :=
  (handouts.reverse.find? fun a => a.returns envelopeId).map Handout.token

/-! ### A short run

    One peer pairs with the host, each side opens a route to the other, the peer asks and the host
    answers. The theorems below are instantiated at this run and at its prefixes. -/

namespace Sample

def uuidText (digit : Char) : String :=
  "00000000-0000-4000-8000-00000000000" ++ String.singleton digit

def uuid0 : Uuid := ⟨uuidText '0', by decide +kernel⟩
def uuid1 : Uuid := ⟨uuidText '1', by decide +kernel⟩
def uuid2 : Uuid := ⟨uuidText '2', by decide +kernel⟩
def uuid6 : Uuid := ⟨uuidText '6', by decide +kernel⟩
def uuid7 : Uuid := ⟨uuidText '7', by decide +kernel⟩
def uuid8 : Uuid := ⟨uuidText '8', by decide +kernel⟩
def uuid9 : Uuid := ⟨uuidText '9', by decide +kernel⟩

def revision (digit : Char) : String := "rev_" ++ String.ofList (List.replicate 32 digit)
def transcript : String := String.ofList (List.replicate 64 'a')
def fingerprint : String := "sha256:" ++ transcript
def scopes : List Scope := [.crossChatInstruction, .crossChatRequestReply]
def token : String := "lease.0123456789abcdef0123456789abcdef"

/-- Digests that are the texts themselves. -/
def host : Host String := ⟨"host-server", EnvelopePayload.message, id⟩

def call (timestamp : Nat) : Call := { timestamp := timestamp, crossChatEnabled := true }

def peer : PeerAuthorization :=
  { peerId := some uuid2, pairingId := some uuid1, peerServerIdentity := "peer-server",
    teamId := "team-alpha", scopes := scopes, certificateFingerprint := fingerprint,
    certificateExpiresAt := 0, peerDisplayName := "Peer", crossChatGrantEpoch := some 1 }

def question : EnvelopePayload :=
  { requestId := uuidText '5', sourceRouteId := uuidText '4', targetRouteId := uuidText '3',
    targetRouteRevision := revision 'a', kind := "request_reply", exchangeId := none,
    parentEnvelopeId := none, expiresAt := 2000, message := "question" }

def answer : EnvelopePayload :=
  { requestId := uuidText '8', sourceRouteId := uuidText '3', targetRouteId := uuidText '4',
    targetRouteRevision := revision 'b', kind := "response", exchangeId := some (uuidText '7'),
    parentEnvelopeId := some (uuidText '6'), expiresAt := 2000, message := "answer" }

/-- The peer is paired and both routes are open. -/
def setUp : List (Op String) :=
  [⟨call 1000, .submitPairing ⟨uuid0, 1000, "peer-server", "Peer", "key", scopes, "request", "poll",
      transcript⟩ uuid1 none 0⟩,
   ⟨call 1001, .approvePairing (uuidText '1') "team-alpha" scopes "owner-admin" "peer-server"
      transcript uuid2 ⟨fingerprint, "01"⟩ fun _ => revision '0'⟩,
   ⟨call 1002, .publishLocalRoute "team-alpha" (uuidText '2') "chat-00001"
      ⟨uuidText '3', revision 'a', "local", "Local", [.instruction, .requestReply]⟩ "owner-admin"⟩,
   ⟨call 1003, .publishPeerRoute peer
      ⟨uuidText '4', revision 'b', "remote", "Remote", [.instruction, .requestReply]⟩⟩]

def asked : List (Op String) := setUp ++ [⟨call 1004, .submitEnvelope peer question uuid6 uuid7⟩]

/-- The host takes the question and settles it. -/
def delivered : List (Op String) := asked ++
  [⟨call 1005, .claimLocalInbox "owner-worker" none 20 token⟩,
   ⟨call 1006, .receiptLocalEnvelope "team-alpha" (uuidText '3') (uuidText '6') token .delivered⟩]

/-- The host answers. -/
def answered : List (Op String) := delivered ++
  [⟨call 1007, .submitLocalEnvelope "team-alpha" (uuidText '3') answer uuid9 uuid8⟩]

end Sample

end SecurePeer
