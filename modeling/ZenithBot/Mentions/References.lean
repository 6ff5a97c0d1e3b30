import Mathlib.Data.List.Sort
import ZenithBot.Lib.Guard
import ZenithBot.Lib.Utf16
import ZenithBot.PyText

/-! Mentions in a prompt (`agent_server.py`). A client sends references that say which part of the
    prompt names which chat or team member: `@Title` for a chat, `@@Name` for a team. Ranges are counted in
    UTF-16 units.

        prompt      ask @Planner about @@ana
        chat            ╰──────╯
        team                           ╰───╯

    The validators accept a list of references or refuse all of it. The chat validator also rewrites:
    a pair that an old client sent for one mention is collapsed, and a local `direct_message` becomes a
    `route`. A text is a list of characters, so it has no lone surrogates. -/

namespace Mentions
open Lib Py

variable (r : ChatReference)

structure HttpError where
  statusCode : ℕ
  detail : String

abbrev Text : Type := List Char

/-! ### References -/

inductive Action where
  | directMessage
  | route
  | requestReply
  | instruction
  | finalResult
  deriving DecidableEq

inductive RouteAction where
  | instruction
  | requestReply
  deriving DecidableEq

/-- The fields of a target on a secure peer. -/
structure Peer where
  (serverIdentity connectionId routeId routeRevision : String)
  deriving DecidableEq

/-- `validate_target_discriminator`: what a local reference and one to a secure peer may carry. -/
def Discriminates (peer : Option Peer) (sessionId : String) (action : Action)
    (routeAction : Option RouteAction) (grantIntent : Bool) : Prop :=
  match peer with
  | none => (routeAction ≠ none → action = .route) ∧
      (grantIntent = true → action = .route ∧ routeAction = none)
  | some p => grantIntent = false ∧ routeAction = none ∧
      (action = .instruction ∨ action = .requestReply) ∧ sessionId = p.routeId

/-- A `ChatReference`; `peer` is its `target_kind` with the fields that go with it. -/
structure ChatReference where
  sessionId : String
  displayTitleSnapshot : Text
  (sourceTextStart sourceTextEnd : ℕ)
  action : Action
  routeAction : Option RouteAction
  grantIntent : Bool
  peer : Option Peer
  bounds : (1 ≤ sessionId.length ∧ sessionId.length ≤ 128) ∧
    (1 ≤ displayTitleSnapshot.length ∧ displayTitleSnapshot.length ≤ 240) ∧ 1 ≤ sourceTextEnd
  plain : displayTitleSnapshot.head? ≠ some '@'
  discriminates : Discriminates peer sessionId action routeAction grantIntent

inductive TeamKind where
  | recipient
  | skill
  deriving DecidableEq

inductive RecipientKind where
  | server
  | human
  | all
  deriving DecidableEq

structure TeamReference where
  kind : TeamKind
  recipientKind : Option RecipientKind
  (teamId targetId : String)
  displayNameSnapshot : Text
  (sourceTextStart sourceTextEnd : ℕ)
  named : 1 ≤ displayNameSnapshot.length ∧ displayNameSnapshot.length ≤ 160
  upright : sourceTextStart < sourceTextEnd
  shape : match kind with
    | .recipient => ∃ r, recipientKind = some r ∧ (r = .all → targetId = "all" ∧
        (displayNameSnapshot = "all".toList ∨ displayNameSnapshot = "bulletin".toList))
    | .skill => recipientKind = none

/-- A range of a prompt. -/
abbrev Span : Type := ℕ × ℕ

def ChatReference.span : Span := (r.sourceTextStart, r.sourceTextEnd)

def TeamReference.span (r : TeamReference) : Span := (r.sourceTextStart, r.sourceTextEnd)

/-! ### Spans of the prompt -/

def utf16Slice (prompt : Text) (start stop : ℕ) : Except HttpError Text :=
  getOr (Utf16.slice prompt start stop) ⟨400, "reference range splits a Unicode character"⟩

/-- What may stand before and after a mention. -/
def delimited (before after : Option Char) : Bool :=
  (match before with
    | none => true
    | some c => isSpace c || c == '(' || c == '[' || c == '\x7b') &&
  (match after with
    | none => true
    | some c => isSpace c)

/-- `chat_reference_has_token_boundaries`. -/
def hasTokenBoundaries (prompt : Text) (span : Span) : Except HttpError Bool := do
  let before ← utf16Slice prompt 0 span.1
  let after ← utf16Slice prompt span.2 (Utf16.length prompt)
  return delimited before.getLast? after.head?

def ChatReference.marker : Text := '@' :: r.displayTitleSnapshot

/-- `chat_reference_marker_candidates`. -/
def ChatReference.markerCandidates : List Text :=
  if r.peer = none ∧ r.action = .route then [r.marker, '@' :: r.marker] else [r.marker]

def TeamReference.marker (r : TeamReference) : Text := '@' :: '@' :: r.displayNameSnapshot

/-- Lexicographic order of spans. -/
def Span.le (a b : Span) : Prop := a.1 < b.1 ∨ a.1 = b.1 ∧ a.2 ≤ b.2

instance : DecidableRel Span.le := fun a b => inferInstanceAs (Decidable (a.1 < b.1 ∨ _))

/-- Two neighbours of the sorted spans overlap. -/
def overlapping : List Span → Bool
  | a :: b :: rest => b.1 < a.2 || overlapping (b :: rest)
  | _ => false

/-! ### The server around the validators -/

/-- What the validators read of a session: `cross_chat_delivery_client_capabilities` raises or not. -/
structure Session where
  archived : Bool
  deliverable : Except HttpError Unit

structure Desk where
  /-- `AGENT_TOKEN` is set -/
  authenticated : Bool
  sessions : String → Option Session
  deleting : String → Bool
  tombstone : String → Bool
  /-- `SECURE_PEER_AGENT_RELAY_ENABLED`, and the text for its absence -/
  relayEnabled : Bool
  relayUnavailable : String
  /-- `remote_route_delivery_available` -/
  routeDelivery : Bool
  /-- `SECURE_PEER_RUNTIME.validate_remote_reference` -/
  validateRemoteReference : String → ChatReference → Except HttpError Unit
  /-- `repr` of an id -/
  quoted : String → String
  /-- `str.casefold` -/
  casefold : String → String

def routesCapability : String := "agent_cross_chat_routes_v2"
def handoffsV2Capability : String := "cross_chat_handoffs_v2"

/-! ### Rewriting -/

/-- A direct message that becomes a route carries what a route may carry. -/
lemma Discriminates.route {peer : Option Peer} {sessionId : String} {action : Action}
    {routeAction : Option RouteAction} {grantIntent : Bool} (hlocal : peer = none)
    (_ : Discriminates peer sessionId action routeAction grantIntent) :
    Discriminates peer sessionId .route none grantIntent := by
  subst hlocal
  exact ⟨fun _ => rfl, fun _ => ⟨rfl, rfl⟩⟩

def ChatReference.canonical : ChatReference :=
  if h : r.peer = none ∧ r.action = .directMessage then
    { r with action := .route, routeAction := none, discriminates := r.discriminates.route h.1 }
  else r

def ChatReference.groupKey : String × Text :=
  (strip r.sessionId, r.displayTitleSnapshot)

def groupOf (references : List ChatReference) (key : String × Text) : List (ChatReference × ℕ) :=
  references.zipIdx.filter fun x => x.1.peer = none ∧ x.1.groupKey = key

/-- The old two-entry shape: a group of one direct message and one route. -/
def legacyPair (group : List (ChatReference × ℕ)) : Option ((ChatReference × ℕ) × (ChatReference × ℕ)) :=
  if group.length ≠ 2 then none
  else match group.filter (·.1.action = .directMessage), group.filter (·.1.action = .route) with
    | [direct], [route] => some (direct, route)
    | _, _ => none

/-- A range that can be cut out of the prompt. -/
def ChatReference.inside (prompt : Text) : Bool :=
  r.sourceTextStart < r.sourceTextEnd && r.sourceTextEnd ≤ Utf16.length prompt

/-- The reference covers exactly the text `marker`, as a delimited token. -/
def covers (prompt : Text) (span : Span) (marker : Text) : Except HttpError Bool := do
  let text ← utf16Slice prompt span.1 span.2
  return text = marker

/-- Which of a legacy pair is dropped, if any. -/
def droppedOf (prompt : Text) (direct route : ChatReference × ℕ) : Except HttpError (Option ℕ) := do
  if direct.1.inside prompt = false ∨ route.1.inside prompt = false then return none
  else
    let single ← covers prompt direct.1.span direct.1.marker
    if single = false then return none
    else
      let double ← covers prompt route.1.span ('@' :: route.1.marker)
      if double = false then return none
      else
        let first ← hasTokenBoundaries prompt direct.1.span
        if first = false then return none
        else
          let second ← hasTokenBoundaries prompt route.1.span
          if second = false then return none
          else return some (if route.1.routeAction ≠ none then direct.2 else route.2)

def dropFrom (prompt : Text) (references : List ChatReference) (key : String × Text) :
    Except HttpError (Option ℕ) :=
  match legacyPair (groupOf references key) with
  | none => .ok none
  | some (direct, route) => droppedOf prompt direct route

def collapseLegacyDualLocalReferences (prompt : Text) (references : List ChatReference) :
    Except HttpError (List ChatReference) := do
  let keys := ((references.filter (·.peer = none)).map ChatReference.groupKey).dedup
  let dropped ← keys.mapM (dropFrom prompt references)
  return (references.zipIdx.filter fun x => some x.2 ∉ dropped).map Prod.fst

/-! ### `validate_chat_references` -/

def grantIntentError : HttpError :=
  ⟨400, "durable route grant intent requires an exact canonical local @Chat reference"⟩

/-- The first loop: what a grant intent asks of its reference. -/
def checkGrantIntent (prompt : Text) (capabilities : List String) (r : ChatReference) :
    Except HttpError Unit := do
  if r.grantIntent = false then return ()
  else
    refuseIf (r.peer ≠ none ∨ r.action ≠ .route ∨ r.routeAction ≠ none) grantIntentError
    let exact ← covers prompt r.span r.marker
    refuseIf (exact = false) grantIntentError
    let token ← hasTokenBoundaries prompt r.span
    refuseIf (token = false) grantIntentError
    refuseIf (routesCapability ∉ capabilities)
      ⟨409, "durable cross-chat grants require an updated client"⟩

/-- A reference that may make the source a return target. -/
def ChatReference.asksReply : Bool :=
  r.action = .requestReply || r.routeAction = some .requestReply

/-- The requester becomes the return target of a bounded exchange. -/
def checkReplyTarget (desk : Desk) (source : String) (references : List ChatReference)
    (capabilities : List String) : Except HttpError Unit := do
  if references.any ChatReference.asksReply = false then return ()
  else
    refuseIf (handoffsV2Capability ∉ capabilities)
      ⟨400, "request/reply chat references require the cross_chat_handoffs_v2 client capability"⟩
    let session ← getOr (desk.sessions source) ⟨404, "source chat was not found"⟩
    session.deliverable

/-- What identifies a grant. -/
inductive GrantKey where
  | peer (peer : Peer) (action : Action)
  | here (target : String) (action : Action)
  deriving DecidableEq

/-- The main loop's state. -/
structure Admitted where
  seen : List GrantKey
  (hereDestinations peerDestinations : List (String × Action))
  spans : List Span
  references : List ChatReference

def Admitted.none : Admitted := ⟨[], [], [], [], []⟩

def ambiguousTarget : HttpError :=
  ⟨400, "cross-chat target is ambiguous across local and secure peer routes"⟩

/-- What is asked of every reference's span. -/
def checkSpan (prompt : Text) (r : ChatReference) : Except HttpError Unit := do
  refuseIf (r.displayTitleSnapshot.head? = some '@') ⟨400, "chat reference display title cannot begin with @"⟩
  refuseIf (r.sourceTextEnd ≤ r.sourceTextStart) ⟨400, "chat reference range is empty"⟩
  refuseIf (Utf16.length prompt < r.sourceTextEnd) ⟨400, "chat reference range is outside the prompt"⟩
  let text ← utf16Slice prompt r.sourceTextStart r.sourceTextEnd
  refuseIf (text ∉ r.markerCandidates)
    ⟨400, "chat reference range does not match its display-title snapshot"⟩
  let token ← hasTokenBoundaries prompt r.span
  refuseIf (token = false) ⟨400, "chat reference marker is not delimited from surrounding text"⟩

def admitPeer (desk : Desk) (source : String) (s : Admitted) (r : ChatReference) (peer : Peer) :
    Except HttpError Admitted := do
  refuseIf (desk.relayEnabled = false) ⟨400, desk.relayUnavailable⟩
  refuseIf (desk.routeDelivery = false) ⟨503,
    "secure peer chat delivery is unavailable until its durable route and exchange gate is active"⟩
  desk.validateRemoteReference source r
  refuseIf (GrantKey.peer peer r.action ∈ s.seen) ⟨400, "duplicate secure peer chat reference grant"⟩
  refuseIf ((peer.routeId, r.action) ∈ s.hereDestinations) ambiguousTarget
  return { s with
    seen := s.seen ++ [.peer peer r.action]
    peerDestinations := s.peerDestinations ++ [(peer.routeId, r.action)]
    spans := s.spans ++ [r.span]
    references := s.references ++ [r] }

/-- The chat a local reference names. -/
def ChatReference.target : String := strip r.sessionId

/-- A target that can take a delivery. -/
def checkTarget (desk : Desk) (source target : String) : Except HttpError Unit := do
  refuseIf (target = source) ⟨400, "a chat cannot hand off to itself"⟩
  let missing : HttpError := ⟨404, "target chat " ++ desk.quoted target ++ " was not found"⟩
  let session ← getOr (desk.sessions target) missing
  refuseIf (desk.deleting target = true ∨ desk.tombstone target = true) missing
  refuseIf (session.archived = true) ⟨409, "target chat " ++ desk.quoted target ++ " is archived"⟩
  session.deliverable

/-- A local reference, in its current form. -/
def admitHere (desk : Desk) (source : String) (s : Admitted) (r : ChatReference) :
    Except HttpError Admitted := do
  let normalized := r.canonical
  checkTarget desk source normalized.target
  refuseIf (GrantKey.here normalized.target normalized.action ∈ s.seen)
    ⟨400, "duplicate chat reference grant"⟩
  refuseIf ((normalized.target, normalized.action) ∈ s.peerDestinations) ambiguousTarget
  return { s with
    seen := s.seen ++ [.here normalized.target normalized.action]
    hereDestinations := s.hereDestinations ++ [(normalized.target, normalized.action)]
    spans := s.spans ++ [r.span]
    references := s.references ++ [normalized] }

/-- One round of the main loop. -/
def admitReference (desk : Desk) (source : String) (prompt : Text) (s : Admitted) (r : ChatReference) :
    Except HttpError Admitted := do
  checkSpan prompt r
  match r.peer with
  | some peer => admitPeer desk source s r peer
  | none => admitHere desk source s r

def validateChatReferences (desk : Desk) (source : String) (prompt : Text)
    (references : List ChatReference) (capabilities : List String) :
    Except HttpError (List ChatReference) := do
  if references = [] then return []
  else
    refuseIf (desk.authenticated = false)
      ⟨503, "cross-chat handoffs require authenticated AgentsServer mode"⟩
    checkAll (checkGrantIntent prompt capabilities) references
    let kept ← collapseLegacyDualLocalReferences prompt references
    checkReplyTarget desk source kept capabilities
    let admitted ← kept.foldlM (admitReference desk source prompt) .none
    refuseIf (overlapping (admitted.spans.insertionSort Span.le) = true)
      ⟨400, "chat reference ranges overlap"⟩
    return admitted.references

/-! ### `validate_team_references` -/

/-- What identifies a team grant. -/
def TeamReference.key (r : TeamReference) : TeamKind × String × Option RecipientKind × String :=
  (r.kind, r.teamId, r.recipientKind, r.targetId)

/-- A name that shows as one token. -/
def visibleName (name : Text) : Bool :=
  name.head? ≠ some '@' && String.ofList name = strip (String.ofList name) &&
    name.all fun c => c ≠ '\r' && c ≠ '\n' && c ≠ '\x00'

/-- One round of the loop, after the keys `seen`. -/
def checkTeamReference (prompt : Text) (seen : List (TeamKind × String × Option RecipientKind × String))
    (r : TeamReference) : Except HttpError (List (TeamKind × String × Option RecipientKind × String)) := do
  refuseIf (visibleName r.displayNameSnapshot = false)
    ⟨400, "team reference display name is not a visible token"⟩
  refuseIf (Utf16.length prompt < r.sourceTextEnd) ⟨400, "team reference range is outside the prompt"⟩
  let exact ← covers prompt r.span r.marker
  refuseIf (exact = false)
    ⟨400, "team reference range does not match its visible @@ display-name snapshot"⟩
  let token ← hasTokenBoundaries prompt r.span
  refuseIf (token = false) ⟨400, "team reference marker is not delimited from surrounding text"⟩
  refuseIf (r.key ∈ seen) ⟨400, "duplicate team reference grant"⟩
  return seen ++ [r.key]

def validateTeamReferences (prompt : Text) (references : List TeamReference)
    (chatReferences : List ChatReference) : Except HttpError (List TeamReference) := do
  if references = [] then return []
  else
    let _ ← references.foldlM (checkTeamReference prompt) []
    refuseIf (overlapping ((chatReferences.map ChatReference.span ++
        references.map TeamReference.span).insertionSort Span.le) = true)
      ⟨400, "chat and team reference ranges overlap"⟩
    return references

end Mentions
