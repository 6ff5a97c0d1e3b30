import ZenithBot.Lib.Json
import ZenithBot.Lib.Lines
import ZenithBot.Lib.Run
import ZenithBot.Lib.Utf8

/-! One chat's `events.jsonl` and the three functions that append to it: `append_event`,
    `append_imported_events` and `append_durable_event_batch`. All three run under the chat's delivery lock,
    so an operation is one whole call with what goes wrong in it: each write may stop after any number of
    characters, each rollback and repair may fail before or after its effect, and the process may die at any
    of these points and come back with an empty sequence cache and any value in `latest_event_seq`.

    A byte of a file is the character with its number, and what the writers put there is ASCII. A
    missing file is an empty one, as it is to every function below. -/

namespace EventLog
open Json

/-! ### Events -/

/-- The number of an event of the canonical shape. -/
def durableEventSeq (event : Json) : Option Nat :=
  match event.get? (text "seq") with
  | some (.number ⟨false, value, none, none⟩) => if value = 0 then none else some value
  | _ => none

/-- A line of the log: an object that carries its sequence number. -/
structure Event where
  fields : List (Text × Json)
  seq : Nat
  durable : durableEventSeq (.object fields) = some seq

/-- The text of an event, without its line feed. -/
def Event.line (e : Event) : List Char := dumps (.object e.fields)

/-- What a caller may attach to an event: anything but a sequence number. -/
structure Payload where
  fields : List (Text × Json)
  noSeq : ∀ f ∈ fields, f.1 ≠ text "seq"

/-- One event to append, with the identifier and the time it gets. -/
structure Spec where
  (id sessionId type ts : Text)
  payload : Payload

/-- Storing a key in a `dict`: it keeps its place when it is there already. -/
def setField (fields : List (Text × Json)) (f : Text × Json) : List (Text × Json) :=
  if fields.any (·.1 = f.1) then fields.map fun g => if g.1 = f.1 then f else g else fields ++ [f]

/-- The fields every event starts with. -/
def headFields (seq : Nat) (spec : Spec) : List (Text × Json) :=
  [(text "seq", .number (.ofNat seq)), (text "id", .string spec.id),
    (text "session_id", .string spec.sessionId), (text "type", .string spec.type),
    (text "ts", .string spec.ts)]

/-- The stored event: the head, then `**payload` over it. -/
def eventFields (seq : Nat) (spec : Spec) : List (Text × Json) :=
  spec.payload.fields.foldl setField (headFields seq spec)

lemma get?_setField {key : Text} {f : Text × Json} (h : f.1 ≠ key) (fields : List (Text × Json)) :
    (Json.object (setField fields f)).get? key = (Json.object fields).get? key := by
  unfold setField
  split
  · -- the rewritten pairs have the key of `f`, so none of them is looked at
    have hsame : (fun g : Text × Json => decide ((if g.1 = f.1 then f else g).1 = key)) =
        fun g => decide (g.1 = key) := by
      funext g
      split
      · rename_i hg; simp [hg]
      · rfl
    simp only [Json.get?, ← List.map_reverse, List.find?_map, Function.comp_def, hsame]
    cases hfind : fields.reverse.find? fun g => g.1 = key with
    | none => rfl
    | some g =>
      have hg : g.1 = key := by simpa using List.find?_some hfind
      simp [hg, Ne.symm h]
  · simp [Json.get?, h]

lemma get?_foldl_setField {key : Text} :
    ∀ (fs fields : List (Text × Json)), (∀ f ∈ fs, f.1 ≠ key) →
      (Json.object (fs.foldl setField fields)).get? key = (Json.object fields).get? key
  | [], _, _ => rfl
  | f :: fs, fields, h => by
    rw [List.foldl_cons, get?_foldl_setField fs _ fun g hg => h g (List.mem_cons_of_mem _ hg)]
    exact get?_setField (h f List.mem_cons_self) fields

lemma durableEventSeq_eventFields {seq : Nat} (hseq : 0 < seq) (spec : Spec) :
    durableEventSeq (.object (eventFields seq spec)) = some seq := by
  have hget : (Json.object (eventFields seq spec)).get? (text "seq") = some (.number (.ofNat seq)) := by
    rw [eventFields, get?_foldl_setField _ _ spec.payload.noSeq]
    rfl
  rw [durableEventSeq, hget]
  simp [Number.ofNat, Nat.ne_of_gt hseq]

def Spec.event (prev : Nat) (spec : Spec) : Event where
  fields := eventFields (prev + 1) spec
  seq := prev + 1
  durable := durableEventSeq_eventFields prev.succ_pos spec

def batchEvents : Nat → List Spec → List Event
  | _, [] => []
  | prev, spec :: specs => spec.event prev :: batchEvents (prev + 1) specs

def fileOf (events : List Event) : List Char := Lines.frame (events.map Event.line)

/-! ### Reading the log back -/

/-- What `bytes.strip` takes away. -/
def isSpace (c : Char) : Bool := c = ' ' || c = '\t' || c = '\n' || c = '\r' || c = '\x0b' || c = '\x0c'

/-- The number of the event on a line, if there is one. -/
def lineSeq (raw : List Char) : Option Nat :=
  if raw.all isSpace then none else (loads (Lib.Utf8.decodeReplace raw)).bind durableEventSeq

/-- The number of the event that a complete record is; faulty UTF-8 is not complete. -/
def recordSeq (raw : List Char) : Option Nat :=
  (Lib.Utf8.decode raw).bind fun text => (loads text).bind durableEventSeq

/-- The size of the pieces in which a log is read from its end. -/
def chunkSize : Nat := 256 * 1024

/-- `last_event_seq_from_file`, with pieces of any size. -/
def lastEventSeqFrom (chunk : Nat) (file : List Char) : Nat :=
  (Lines.scanBack lineSeq chunk file file.length file.length []).getD 0

def lastEventSeqFromFile : List Char → Nat := lastEventSeqFrom chunkSize

/-- `repair_event_log_tail`, with pieces of any size: the repaired file and its last durable number. -/
def repairTail (chunk : Nat) (file : List Char) : List Char × Nat :=
  match file.getLast? with
  | none => (file, 0)
  | some last =>
    if last = '\n' then (file, lastEventSeqFrom chunk file)
    else
      let lineStart := Lines.lastStart chunk file file.length file.length
      match recordSeq (file.drop lineStart) with
      | some seq => (file ++ ['\n'], seq)
      | none => (file.take lineStart, lastEventSeqFrom chunk (file.take lineStart))

def repairEventLogTail : List Char → List Char × Nat := repairTail chunkSize

/-! ### What can go wrong -/

/-- How a repair or a rollback ends. One that fails, or in which the process dies, may have taken
    effect; a process that died comes back with a reloaded `latest_event_seq`. -/
inductive Fate where
  | done
  | failed (applied : Bool)
  | crashed (applied : Bool) (reloaded : Nat)

def Fate.applied : Fate → Bool
  | .done => true
  | .failed applied => applied
  | .crashed applied _ => applied

/-- How a write ends: all of it is in the file, or only so many of its bytes. -/
inductive WriteFate where
  | done
  | failed (bytes : Nat)
  | crashed (bytes : Nat) (reloaded : Nat)

/-! ### The state of one chat -/

/-- The file, the chat's entry in `EVENT_SEQ_CACHE`, its `latest_event_seq`, and as history every event
    ever completely written, those a rollback took out again, and the rest. -/
structure Log where
  file : List Char
  cache : Option Nat
  stored : Nat
  (written undone kept : List Event)

/-- A new chat. -/
def Log.empty (stored : Nat) : Log := ⟨[], none, stored, [], [], []⟩

/-- The process dies and a new one reads the sessions again. -/
def Log.restart (l : Log) (reloaded : Nat) : Log := { l with cache := none, stored := reloaded }

/-- The file after a repair that may not have got that far. -/
def Log.repair (l : Log) (fate : Fate) : Log :=
  { l with file := if fate.applied then (repairEventLogTail l.file).1 else l.file }

/-- `none` when the repair of a cold cache does not return. -/
def nextEventSeq (fate : Fate) (l : Log) : Log × Option Nat :=
  match l.cache with
  | some seq => ({ l with cache := some (seq + 1) }, some (seq + 1))
  | none =>
    match fate with
    | .done =>
      let seq := max (repairEventLogTail l.file).2 l.stored + 1
      ({ l.repair fate with cache := some seq }, some seq)
    | .failed _ => (l.repair fate, none)
    | .crashed _ reloaded => ((l.repair fate).restart reloaded, none)

def reconcileEventSeqAfterFailedWrite (consumedHighWater : Nat) (fate : Fate) (l : Log) : Log :=
  match fate with
  | .done =>
    let repairedSeq := (repairEventLogTail l.file).2
    { l.repair fate with cache := some (max (max consumedHighWater repairedSeq) l.stored) }
  | .failed _ => { l.repair fate with cache := none }
  | .crashed _ reloaded => (l.repair fate).restart reloaded

/-- Those events whose text lies within the first `bytes` bytes of their lines. -/
def complete : Nat → List Event → List Event
  | _, [] => []
  | bytes, e :: events =>
    if e.line.length ≤ bytes then e :: complete (bytes - (e.line.length + 1)) events else []

/-- The first `bytes` bytes of the lines of `events` reach the file. -/
def Log.write (l : Log) (events : List Event) (bytes : Nat) : Log :=
  { l with
    file := l.file ++ (fileOf events).take bytes
    written := l.written ++ complete bytes events
    kept := l.kept ++ complete bytes events }

/-- All of their bytes do. -/
def Log.writeAll (l : Log) (events : List Event) : Log := l.write events (fileOf events).length

/-- `truncate(original_size)`, where `l` is the log that had this size. -/
def Log.truncateTo (torn l : Log) : Log :=
  { torn with
    file := torn.file.take l.file.length
    undone := torn.undone ++ torn.kept.drop l.kept.length
    kept := torn.kept.take l.kept.length }

/-! ### The three writers -/

/-- `metadata` says whether `update_session_event_metadata` gets to the number. -/
def appendEvent (spec : Spec) (allocation : Fate) (write : WriteFate) (reconcile : Fate)
    (metadata : Bool) (l : Log) : Log :=
  match nextEventSeq allocation l with
  | (l, none) => l
  | (l, some seq) =>
    let event := spec.event (seq - 1)
    match write with
    | .done =>
      let l := l.writeAll [event]
      if metadata then { l with stored := event.seq } else l
    | .failed bytes => reconcileEventSeqAfterFailedWrite seq reconcile (l.write [event] bytes)
    | .crashed bytes reloaded => (l.write [event] bytes).restart reloaded

/-- What befalls one batch. -/
structure BatchFates where
  allocation : Fate
  write : WriteFate
  (rollback reconcile : Fate)

/-- What the two batch writers share, with the events committed. A failed batch gives its numbers back:
    only `first_seq - 1` counts as consumed. -/
def appendBatch (specs : List Spec) (fates : BatchFates) (l : Log) : Log × List Event :=
  if specs.isEmpty then (l, [])
  else
    match nextEventSeq fates.allocation l with
    | (l, none) => (l, [])
    | (l, some firstSeq) =>
      let events := batchEvents (firstSeq - 1) specs
      match fates.write with
      | .done => ({ l.writeAll events with cache := some (firstSeq - 1 + specs.length) }, events)
      | .failed bytes =>
        let torn := l.write events bytes
        let l := if fates.rollback.applied then torn.truncateTo l else torn
        match fates.rollback with
        | .crashed _ reloaded => (l.restart reloaded, [])
        | _ => (reconcileEventSeqAfterFailedWrite (firstSeq - 1) fates.reconcile l, [])
      | .crashed bytes reloaded => ((l.write events bytes).restart reloaded, [])

def appendImportedEvents (specs : List Spec) (fates : BatchFates) (l : Log) : Log :=
  (appendBatch specs fates l).1

/-- The metadata follows each event for which its update goes through. -/
def appendDurableEventBatch (specs : List Spec) (fates : BatchFates) (metadata : List Bool) (l : Log) :
    Log :=
  let (l, events) := appendBatch specs fates l
  let updated := ((events.zip metadata).filter Prod.snd).map fun p => p.1.seq
  { l with stored := updated.getLast?.getD l.stored }

/-! ### Runs -/

inductive Op where
  | appendEvent (spec : Spec) (allocation : Fate) (write : WriteFate) (reconcile : Fate)
      (metadata : Bool)
  | appendImportedEvents (specs : List Spec) (fates : BatchFates)
  | appendDurableEventBatch (specs : List Spec) (fates : BatchFates) (metadata : List Bool)
  | restart (reloaded : Nat)

def step (l : Log) : Op → Log
  | .appendEvent spec allocation write reconcile metadata =>
    appendEvent spec allocation write reconcile metadata l
  | .appendImportedEvents specs fates => appendImportedEvents specs fates l
  | .appendDurableEventBatch specs fates metadata => appendDurableEventBatch specs fates metadata l
  | .restart reloaded => l.restart reloaded

end EventLog
