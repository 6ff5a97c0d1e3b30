import ZenithBot.Lib.Guard
import ZenithBot.PyText

/-! Queued messages and what the provider receives of them (`agent_server.py`). A queued row keeps the
    user's message several times: `prompt`, `display_prompt` and `steering_prompt`, `file_ids` and
    `display_file_ids`, and the last entry of `steering_lineage`. Each reader takes another:

        build_turn_provider_prompt   the last lineage entry, of two or more; else prompt, file_ids
        prepare_steered_turn         steering_prompt, display_file_ids; else prompt, file_ids

    The copies of a plain row and of a steered row agree. An edit of the prompt writes all of its
    copies, an edit of the attachments only `file_ids`. -/

namespace Turns
open Lib

/-! ### Attachments and messages -/

/-- One round of `merged_file_ids`; what is merged is also what was seen. -/
def mergeFileId (merged : List String) (value : String) : List String :=
  let fileId := Py.strip value
  if fileId = "" ∨ fileId ∈ merged then merged else merged ++ [fileId]

def mergedFileIds (fileIds : List String) : List String := fileIds.foldl mergeFileId []

/-- An entry of a steering lineage. -/
structure Message where
  prompt : String
  fileIds : List String
  deriving DecidableEq

/-- An entry as `normalize_steering_lineage` keeps it, if it has anything to say. -/
def Message.normalize (m : Message) : Option Message :=
  let fileIds := mergedFileIds m.fileIds
  if Py.blank m.prompt = false ∨ fileIds ≠ [] then some ⟨m.prompt, fileIds⟩ else none

def normalizeSteeringLineage (lineage : List Message) : List Message :=
  lineage.filterMap Message.normalize

/-- What a turn in `CURRENT_TURNS` says about its message. -/
structure RunningTurn where
  runId : Option String
  prompt : String
  fileIds : List String
  steeringLineage : List Message

def turnSteeringLineage : Option RunningTurn → List Message
  | none => []
  | some turn =>
    let lineage := normalizeSteeringLineage turn.steeringLineage
    if lineage ≠ [] then lineage
    else
      let fileIds := mergedFileIds turn.fileIds
      if Py.blank turn.prompt = true ∧ fileIds = [] then [] else [⟨turn.prompt, fileIds⟩]

structure Row where
  queuedId : String
  purpose : Option String := none
  prompt : String
  displayPrompt : Option String := none
  steeringPrompt : Option String := none
  fileIds : List String
  displayFileIds : Option (List String) := none
  steeringLineage : List Message := []
  steerInterruptedRunId : Option String := none
  replaysInterruptedMessage : Option Bool := none

def prepareSteeredTurn (selected : Row) (interrupted : Option RunningTurn) : Row :=
  let steeringPrompt := selected.steeringPrompt.getD selected.prompt
  let selectedFileIds := selected.displayFileIds.getD selected.fileIds
  let interruptedLineage := turnSteeringLineage interrupted
  let steeringMessage : Message := ⟨steeringPrompt, mergedFileIds selectedFileIds⟩
  if (Py.blank steeringPrompt = true ∧ selectedFileIds = []) ∨ interruptedLineage = [] then selected
  else if interruptedLineage.getLast? = some steeringMessage then selected
  else { selected with
    steeringPrompt := some steeringPrompt
    displayPrompt := some (selected.displayPrompt.getD steeringPrompt)
    prompt := steeringPrompt
    steeringLineage := interruptedLineage ++ [steeringMessage]
    displayFileIds := some selectedFileIds
    fileIds := selectedFileIds
    steerInterruptedRunId := interrupted.bind RunningTurn.runId
    replaysInterruptedMessage := some false }

/-! ### The provider prompt -/

/-- The message `build_turn_provider_prompt` builds its prompt from. -/
def providerMessage (prompt : String) (fileIds : List String) (steeringLineage : List Message) :
    Message :=
  let lineage := normalizeSteeringLineage steeringLineage
  if 2 ≤ lineage.length then lineage.getLastD ⟨prompt, fileIds⟩ else ⟨prompt, fileIds⟩

/-- `line` is what the prompt says of a file of the chat. -/
def fileAttachmentPromptLines (line : String → Option String) (fileIds : List String) : List String :=
  (mergedFileIds fileIds).filterMap line

def buildUserProviderPrompt (line : String → Option String) (prompt : String)
    (fileIds : List String) : String :=
  let lines := fileAttachmentPromptLines line fileIds
  if lines = [] then prompt
  else prompt ++ "\n\n[Attached files]\n" ++ String.intercalate "\n" lines ++ "\n" ++
    "Use these local paths directly when needed.\n"

def buildTurnProviderPrompt (line : String → Option String) (prompt : String)
    (fileIds : List String) (steeringLineage : List Message) : String :=
  let current := providerMessage prompt fileIds steeringLineage
  buildUserProviderPrompt line current.prompt current.fileIds

/-! ### Edits -/

structure HttpError where
  statusCode : Nat
  detail : String

def crossChatDeliveryPurposes : List String :=
  ["cross_chat_handoff_delivery", "secure_peer_handoff_delivery"]

/-- `owned` says which ids are files of the chat. -/
def validateSessionFileIds (owned : String → Bool) (fileIds : List String) :
    Except HttpError (List String) := do
  let merged := mergedFileIds fileIds
  refuseIf (merged.all owned = false) ⟨404, "file not found in session"⟩
  return merged

/-- The attachments of a request, validated if it names any. -/
def validatedFileIds (owned : String → Bool) :
    Option (List String) → Except HttpError (Option (List String))
  | none => .ok none
  | some fileIds => (validateSessionFileIds owned fileIds).map some

/-- The fields of an `UpdateQueuedTurnRequest` that carry the message. -/
structure Edit where
  prompt : Option String := none
  fileIds : Option (List String) := none

/-- The lineage with a new text in its last entry. -/
def editLast (prompt : String) (lineage : List Message) : List Message :=
  match lineage.getLast? with
  | none => lineage
  | some last => lineage.dropLast ++ [{ last with prompt := prompt }]

/-- The copies of the prompt that an edit writes. -/
def Row.editPrompt (r : Row) (prompt : String) : Row :=
  let lineage := normalizeSteeringLineage r.steeringLineage
  { r with
    prompt := prompt
    displayPrompt := r.displayPrompt.map fun _ => prompt
    steeringPrompt := r.steeringPrompt.map fun _ => prompt
    steeringLineage := if lineage = [] then r.steeringLineage else editLast prompt lineage }

/-- `update_queued_turn` for the row found; `references` is the validation of the references against
    the edited row, the registrations that follow from them and the durable event. -/
def updateQueuedTurn (owned : String → Bool) (references : Row → Except HttpError Unit) (r : Row)
    (req : Edit) : Except HttpError Row := do
  let validated ← validatedFileIds owned req.fileIds
  refuseIf (∃ p ∈ r.purpose, p ∈ crossChatDeliveryPurposes)
    ⟨409, "cross-chat delivery messages are immutable"⟩
  refuseIf (∃ p ∈ req.prompt, Py.blank p = true) ⟨400, "prompt is empty"⟩
  let r := (req.prompt.map r.editPrompt).getD r
  let r := (validated.map fun fileIds => { r with fileIds := fileIds }).getD r
  references r
  return r

end Turns
