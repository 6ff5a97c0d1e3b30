import ZenithBot.Lib.Guard
import ZenithBot.PyText

/-! What crosses the wire of the secure peer protocol (`secure_peer.py`): identifiers and their
    validators, scopes and route actions, the authority an authenticated peer acts with, and the
    errors, with the code, the text and the HTTP status the source raises. A validated identifier is
    a `Uuid`, which carries the proof that its text is the canonical text of a version 4 UUID. -/

namespace SecurePeer
open Lib

/-- `SecurePeerError`, or a constraint of the schema violated (`sqlite3.IntegrityError`). -/
inductive Err where
  | refused (code message : String) (statusCode : Nat)
  | integrity

def invalidRequest (message : String) : Err := .refused "invalid_request" message 422

/-! ### Identifiers -/

def isHexDigit (c : Char) : Bool := ('0' ≤ c && c ≤ '9') || ('a' ≤ c && c ≤ 'f')

/-- `re.fullmatch` of a pattern that is a sequence of character classes. -/
def fullMatch : List (Char → Bool) → List Char → Bool
  | [], [] => true
  | p :: ps, c :: cs => p c && fullMatch ps cs
  | _, _ => false

/-- `_UUID4_RE`: the canonical text of a version 4 UUID. -/
def uuid4Pattern : List (Char → Bool) :=
  let hex := fun n => List.replicate n isHexDigit
  let dash := [fun c => c == '-']
  hex 8 ++ dash ++ hex 4 ++ dash ++ [fun c => c == '4'] ++ hex 3 ++ dash ++
    [fun c => c == '8' || c == '9' || c == 'a' || c == 'b'] ++ hex 3 ++ dash ++ hex 12

/-- A UUID in canonical form, of version 4. -/
structure Uuid where
  text : String
  canonical : fullMatch uuid4Pattern text.toList = true
  deriving DecidableEq

lemma Uuid.ext_text {u v : Uuid} (h : u.text = v.text) : u = v := by
  cases v; cases h; rfl

/-- `str(uuid.UUID(value)) == value` and version 4. -/
def uuid (value field : String) : Except Err Uuid :=
  if h : fullMatch uuid4Pattern value.toList = true then .ok ⟨value, h⟩
  else .error (invalidRequest (field ++ " is invalid"))

/-- An optional identifier of a payload: `null` is kept, anything else is validated. -/
def optionalUuid (value : Option String) (field : String) : Except Err (Option Uuid) :=
  match value with
  | none => .ok none
  | some v => do
    let u ← uuid v field
    return some u

lemma uuid_ok {value field : String} {u : Uuid} (h : uuid value field = .ok u) :
    u.text = value := by
  unfold uuid at h
  split at h
  · cases h; rfl
  · cases h

def boundedText (value field : String) (minimum maximum : Nat) : Except Err String := do
  let chars := value.toList
  refuseIf (chars.head?.any Py.isSpace ∨ chars.getLast?.any Py.isSpace ∨
      ¬(minimum ≤ value.utf8ByteSize ∧ value.utf8ByteSize ≤ maximum) ∨
      chars.any (fun c => c.toNat < 0x20 || c.toNat == 0x7f))
    (invalidRequest (field ++ " is invalid"))
  return value

/-- `_bounded_text`, then `_ID_RE`. -/
def identifier (value field : String) : Except Err String := do
  let result ← boundedText value field 8 240
  let first := fun c : Char => c.isAlphanum
  let later := fun c : Char => c.isAlphanum || "._:@/-".toList.contains c
  refuseIf (¬(8 ≤ result.length ∧ result.length ≤ 240 ∧ result.toList.head?.any first ∧
      result.toList.tail.all later))
    (invalidRequest (field ++ " is invalid"))
  return result

/-- `rev_[0-9a-f]{32}`: the revision of a route. -/
def isRevision (revision : String) : Bool :=
  fullMatch ("rev_".toList.map (fun c d => c == d) ++ List.replicate 32 isHexDigit) revision.toList

/-- `[a-z][a-z0-9_-]{0,31}`: the alias of a route. -/
def isAlias (value : String) : Bool :=
  let lower := fun c : Char => 'a' ≤ c && c ≤ 'z'
  value.toList.head?.any lower &&
    value.toList.tail.all (fun c => lower c || c.isDigit || c == '_' || c == '-') &&
    decide (value.length ≤ 32)

/-! ### Scopes, actions and relay kinds -/

inductive Scope where
  | teamspaceRead | teamspaceWrite | crossChatInstruction | crossChatRequestReply
  deriving DecidableEq

def scopeOrder : List Scope :=
  [.teamspaceRead, .teamspaceWrite, .crossChatInstruction, .crossChatRequestReply]

/-- `scope.startswith("cross_chat.")`. -/
def Scope.crossChat : Scope → Bool
  | .crossChatInstruction | .crossChatRequestReply => true
  | _ => false

/-- Equality of two scope lists as `frozenset`s. -/
def sameScopes (a b : List Scope) : Bool := scopeOrder.all fun s => a.contains s == b.contains s

/-- No duplicates, at least one, listed in `SCOPE_ORDER`. -/
def canonicalScopes (scopes : List Scope) : Except Err (List Scope) := do
  refuseIf (scopes = [] ∨ ¬scopes.Nodup) (invalidRequest "scopes are invalid")
  return scopeOrder.filter scopes.contains

/-- What a route lets through. -/
inductive RouteAction where
  | instruction | requestReply
  deriving DecidableEq

inductive RelayKind where
  | instruction | requestReply | response
  deriving DecidableEq

/-- The kinds as the wire spells them. -/
def RelayKind.ofText (kind : String) : Option RelayKind :=
  if kind = "instruction" then some .instruction
  else if kind = "request_reply" then some .requestReply
  else if kind = "response" then some .response
  else none

/-- `required_action` of a relay of this kind. -/
def RelayKind.action : RelayKind → RouteAction
  | .instruction => .instruction
  | _ => .requestReply

/-- No reply may follow a relay of this kind. -/
def RelayKind.terminal : RelayKind → Bool
  | .requestReply => false
  | _ => true

/-- The scope `_relay_scope` requires for a relay of this kind. -/
def RelayKind.scope : RelayKind → Scope
  | .instruction => .crossChatInstruction
  | _ => .crossChatRequestReply

def relayScope (scopes : List Scope) (kind : RelayKind) : Except Err Unit :=
  refuseIf (kind.scope ∉ scopes) (.refused "forbidden" "Peer scope does not permit this relay" 403)

/-- `_relay_scope` at a route action, whose text is also a relay kind. -/
def relayScopeOfAction (scopes : List Scope) : RouteAction → Except Err Unit
  | .instruction => relayScope scopes .instruction
  | .requestReply => relayScope scopes .requestReply

/-- The local host acts with `peer_id = ""`, which is `none` here. -/
structure PeerAuthorization where
  (peerId pairingId : Option Uuid)
  (peerServerIdentity teamId : String)
  scopes : List Scope
  certificateFingerprint : String
  certificateExpiresAt : Nat
  peerDisplayName : String
  crossChatGrantEpoch : Option Nat := none

/-- The payload of `submit_envelope`, its body the one message the source requires. -/
structure EnvelopePayload where
  (requestId sourceRouteId targetRouteId targetRouteRevision kind : String)
  (exchangeId parentEnvelopeId : Option String)
  expiresAt : Nat
  message : String

/-- The payload of `publish_peer_route`. -/
structure RoutePayload where
  (routeId revision routeAlias displayTitle : String)
  actions : List RouteAction

end SecurePeer
