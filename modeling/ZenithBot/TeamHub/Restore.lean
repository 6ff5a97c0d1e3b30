import Mathlib.Data.List.Dedup
import Mathlib.Data.List.Sort
import ZenithBot.Lib.Crash
import ZenithBot.TeamHub.Directory

/-! Offline restore of a maintenance snapshot (`store.py`). A restore copies the snapshot into a staging
    directory, moves the live files into `previous` and the copies into their place. Two control files say
    how far it got: the journal, which recovery reads, and the receipt, which outlives it; both are replaced
    atomically.

    Files are contents of an arbitrary type with a digest; the attachment tree is one such content. The
    checks of a valid snapshot (manifest, schema, proofs against the database) are actions that may only
    fail. The directory is the managed files, at most one staging directory (taking the lock removes
    every other) and the control files. -/

namespace TeamHub.Restore
open Lib Prog

/-! ### Names -/

def database : String := "team-hub.sqlite3"
def signingKey : String := "access-token-signing.key"
def wal : String := "team-hub.sqlite3-wal"
def shm : String := "team-hub.sqlite3-shm"
def bootstrapProof : String := "bootstrap-owner.proof"
def fence : String := "maintenance-fence.json"
def attachments : String := "attachments"

/-- `bootstrap-owner.proof`, or `[A-Za-z0-9_]{8,240}\.proof`. -/
def isProofName (name : String) : Bool :=
  let stem := name.toList.take (name.length - 6)
  name = bootstrapProof || (name.toList.drop (name.length - 6) = ".proof".toList &&
    8 ≤ stem.length && stem.length ≤ 240 && stem.all fun c => c.isAlphanum || c = '_')

/-- `_restore_target_kind` knows the name. -/
def isTarget (name : String) : Bool :=
  [attachments, database, signingKey, wal, shm, bootstrapProof, fence].contains name ||
    isProofName name

/-! ### The directory -/

inductive Phase where
  | prepared | committed
  deriving DecidableEq

/-- The digests that identify a generation. -/
structure Generation where
  (databaseSha256 signingKeySha256 : String)
  proofs : List (String × String)
  attachments : String
  deriving DecidableEq

/-- `.restore-transaction.json`. -/
structure Journal where
  state : Phase
  staging : String
  (oldTargets newTargets : List String)
  newGeneration : Generation

/-- Which restore a receipt is about. -/
structure Call where
  (reason hubId hostServerIdentity operationId snapshot snapshotManifestSha256 : String)
  deriving DecidableEq

/-- `.restore-completion.json`. -/
structure Receipt where
  state : Phase
  call : Call
  generation : Generation

/-- A staging directory; `linked` says that a file in it is a hard link. -/
structure Staging (φ : Type) where
  linked : Bool := false
  staged : String → Option φ := fun _ => none
  previous : Option (String → Option φ) := none

structure Root (φ : Type) where
  live : String → Option φ
  staging : Option (String × Staging φ) := none
  journal : Option Journal := none
  receipt : Option Receipt := none

/-- The directory with a file put into, or taken out of, `previous`. -/
def Staging.setPrevious {φ : Type} (s : Staging φ) (name : String) (file : Option φ) : Staging φ :=
  { s with previous := s.previous.map fun previous => Function.update previous name file }

/-- The directory with a staged copy, or without it. -/
def Staging.setStaged {φ : Type} (s : Staging φ) (name : String) (file : Option φ) : Staging φ :=
  { s with staged := Function.update s.staged name file }

/-- A maintenance generation; `linked` says that it has a ready attachment, whose blob is staged by
    a hard link. -/
structure Snapshot (φ : Type) where
  (database signingKey : φ)
  proofs : List (String × φ)
  attachments : φ
  linked : Bool

/-- The call and what it finds: `proofNames` are the proofs in the directory, `fenceMatches` is
    `_maintenance_fence_control_unlocked`, `privateFence` says that a fence is of format 2, and
    `handoffMatches` that no other reactivation is handed over. -/
structure Site (φ : Type) where
  digest : φ → String
  proofNames : List String
  fenceMatches : φ → Bool
  privateFence : φ → Bool
  handoffMatches : Bool
  call : Call
  snapshot : Snapshot φ

variable {φ : Type} (site : Site φ) (w : Root φ)

def fileIn (files : List (String × φ)) (name : String) : Option φ :=
  (files.find? fun p => p.1 = name).map Prod.snd

namespace Site

/-- The files of the snapshot outside its attachment tree. -/
def flatFiles : List (String × φ) :=
  [(database, site.snapshot.database), (signingKey, site.snapshot.signingKey)] ++
    site.snapshot.proofs

/-- `replacements`. -/
def files : List (String × φ) :=
  site.flatFiles ++ [(attachments, site.snapshot.attachments)]

/-- What the snapshot puts under a name. -/
def fileOf (name : String) : Option φ := fileIn site.files name

/-- `managed_targets` and the attachments. -/
def managed : List String :=
  [database, signingKey, wal, shm, bootstrapProof, fence] ++ site.proofNames ++ [attachments]

def generation : Generation where
  databaseSha256 := site.digest site.snapshot.database
  signingKeySha256 := site.digest site.snapshot.signingKey
  proofs := site.snapshot.proofs.map fun p => (p.1, site.digest p.2)
  attachments := site.digest site.snapshot.attachments

/-- The files other than the proofs have the digests of the generation. -/
def verified (files : String → Option φ) (g : Generation) : Bool :=
  (files database).map site.digest = some g.databaseSha256 &&
    (files signingKey).map site.digest = some g.signingKeySha256 &&
    (files attachments).map site.digest = some g.attachments

/-- All of them have. -/
def holds (files : String → Option φ) (g : Generation) : Bool :=
  site.verified files g && g.proofs.all fun p => (files p.1).map site.digest = some p.2

def receipt (state : Phase) : Receipt := ⟨state, site.call, site.generation⟩

end Site

/-- A step of the restore. -/
abbrev Job (φ α : Type) := Prog (Root φ) Empty Err α

namespace Root

def setLive (name : String) (file : Option φ) : Root φ :=
  { w with live := Function.update w.live name file }

def onStaging (f : Staging φ → Staging φ) : Root φ :=
  { w with staging := w.staging.map fun p => (p.1, f p.2) }

/-- The file waiting in `previous`. -/
def prior (name : String) : Option φ :=
  w.staging.bind fun p => p.2.previous.bind fun previous => previous name

def copy (name : String) : Option φ := w.staging.bind fun p => p.2.staged name

/-- `os.replace(root / name, previous / name)`. -/
def retire (name : String) : Root φ :=
  (w.onStaging fun s => s.setPrevious name (w.live name)).setLive name none

/-- `os.replace(staged, root / name)`. -/
def install (name : String) : Root φ :=
  (w.onStaging fun s => s.setStaged name none).setLive name (w.copy name)

/-- `os.replace(previous / name, root / name)`. -/
def putBack (name : String) : Root φ :=
  (w.onStaging fun s => s.setPrevious name none).setLive name (w.prior name)

/-- The directory that the journal names. -/
def hasStaging (name : String) : Bool :=
  match w.staging with
  | some p => p.1 = name
  | none => false

def hasPrevious : Bool :=
  match w.staging with
  | some p => p.2.previous.isSome
  | none => false

end Root

/-- Something that changes nothing the model keeps: a check, a copy to a temporary file, an fsync. -/
def anyOp : Job φ Unit := attempt .os

/-- `shutil.rmtree(staging)`. -/
def rmtree : Job φ Unit := do
  act .os fun w => w.onStaging fun _ => {}
  act .os fun w => { w with staging := none }

/-! ### The control files -/

/-- `_restore_transaction_targets`. -/
def ValidTargets (names : List String) : Prop :=
  names.length ≤ 4104 ∧ (∀ n ∈ names, isTarget n = true) ∧ names.Nodup

/-- `_restore_transaction_generation`: the proofs are those among the new targets. -/
def ValidGeneration (g : Generation) (newTargets : List String) : Prop :=
  g.proofs.length ≤ 4096 ∧ (g.proofs.map Prod.fst).Nodup ∧
    (∀ n ∈ g.proofs.map Prod.fst, isProofName n = true ∧ n ∈ newTargets) ∧
    ∀ n ∈ newTargets, isProofName n = true → n ∈ g.proofs.map Prod.fst

/-- The checks of `_read_restore_transaction_journal`. -/
def Journal.Valid (j : Journal) : Prop :=
  ValidTargets j.oldTargets ∧ ValidTargets j.newTargets ∧
    (∀ n ∈ [database, signingKey, fence], n ∈ j.oldTargets) ∧
    (∀ n ∈ [database, signingKey, attachments], n ∈ j.newTargets) ∧
    (∀ n ∈ [wal, shm, fence], n ∉ j.newTargets) ∧ ValidGeneration j.newGeneration j.newTargets

instance (names : List String) : Decidable (ValidTargets names) :=
  inferInstanceAs (Decidable (_ ∧ _))

instance (g : Generation) (names : List String) : Decidable (ValidGeneration g names) :=
  inferInstanceAs (Decidable (_ ∧ _))

instance (j : Journal) : Decidable j.Valid := inferInstanceAs (Decidable (_ ∧ _))

def writeRestoreTransactionJournal (j : Journal) : Job φ Unit := do
  refuse (¬j.Valid) (.runtime "Team Hub restore transaction journal is invalid")
  anyOp
  act .os fun w => { w with journal := some j }
  anyOp

def writeRestoreCompletionReceipt (r : Receipt) : Job φ Unit := do
  let existing ← read Root.receipt
  match existing with
  | some old =>
    refuse (old.call ≠ r.call ∨ old.generation ≠ r.generation)
      (.runtime "another Team Hub restore receipt is pending")
    refuse (old.state = .committed ∧ r.state = .prepared)
      (.runtime "the Team Hub restore is already committed")
    anyOp
    act .os fun w => { w with receipt := some r }
    anyOp
  | none =>
    anyOp
    act .os fun w => { w with receipt := some r }
    anyOp

/-! ### Recovery -/

/-- One name of a rollback: the new file is discarded and the old one put back. -/
def rollBackOne (j : Journal) (name : String) : Job φ Unit := do
  let prior ← read fun w => w.prior name
  let target ← read fun w => w.live name
  if j.oldTargets.contains name then
    if prior.isSome then
      if target.isSome then
        act .os fun w => w.setLive name none
        anyOp
        act .os fun w => w.putBack name
        anyOp
      else
        act .os fun w => w.putBack name
        anyOp
    else
      refuse (target.isNone) (.runtime "Team Hub restore transaction cannot recover old state")
  else
    refuse (prior.isSome) (.runtime "Team Hub restore transaction journal is inconsistent")
    if target.isSome then
      act .os fun w => w.setLive name none
      anyOp
    else return ()

def sorted (names : List String) : List String := names.insertionSort (· ≤ ·)

def Journal.names (j : Journal) : List String :=
  sorted (j.oldTargets ++ j.newTargets.filter fun n => !j.oldTargets.contains n)

/-- A prepared transaction is undone. -/
def rollBack (j : Journal) : Job φ Unit := do
  let moved ← read fun w => w.hasStaging j.staging && w.hasPrevious
  let _ ← (if moved then do
      anyOp
      forEach (fun _ name => rollBackOne j name) () j.names
    else pure () : Job φ Unit)
  let live ← read Root.live
  refuse (j.oldTargets.any fun n => (live n).isNone)
    (.runtime "Team Hub restore transaction cannot recover old state")
  refuse (j.newTargets.any fun n => !j.oldTargets.contains n && (live n).isSome)
    (.runtime "Team Hub restore transaction rollback is incomplete")

def checkCommitted (j : Journal) : Job φ Unit := do
  let live ← read Root.live
  refuse (j.newTargets.any fun n => (live n).isNone)
    (.runtime "Team Hub committed restore transaction is incomplete")
  refuse (j.oldTargets.any fun n => !j.newTargets.contains n && (live n).isSome)
    (.runtime "Team Hub committed restore transaction is inconsistent")
  refuse (site.holds live j.newGeneration = false)
    (.runtime "Team Hub committed restore transaction generation is invalid")
  anyOp

/-- The end of a recovery: the staging directory goes, then the journal, then a prepared receipt. -/
def retireTransaction (j : Journal) : Job φ Unit := do
  let present ← read fun w => w.hasStaging j.staging
  let _ ← (if present then rmtree else pure () : Job φ Unit)
  anyOp
  act .os fun w => { w with journal := none }
  anyOp
  if j.state = .prepared then
    act .os fun w => { w with receipt := none }
    anyOp
  else return ()

def recoverInterruptedRestore : Job φ Unit := do
  anyOp
  let journal ← read Root.journal
  let j ← lift (getOr journal .os)
  refuse (¬j.Valid) (.runtime "Team Hub restore transaction journal is invalid")
  let receipt ← read Root.receipt
  let r ← lift (getOr receipt (.runtime "Team Hub restore completion receipt is missing"))
  refuse (r.generation ≠ j.newGeneration)
    (.runtime "Team Hub restore completion receipt is missing")
  refuse (j.state = .committed ∧ r.state ≠ .committed)
    (.runtime "Team Hub committed restore receipt is incomplete")
  let _ ← (match j.state with
    | .prepared => rollBack j
    | .committed => checkCommitted site j : Job φ Unit)
  retireTransaction j

/-- `_cleanup_abandoned_restore_staging_unlocked`: every file of an abandoned directory must have a
    single link. -/
def cleanupAbandonedRestoreStaging (protectedName : Option String) : Job φ Unit := do
  anyOp
  let staging ← read Root.staging
  match staging with
  | none => return ()
  | some (name, s) =>
    if protectedName = some name then return ()
    else
      refuse (s.linked = true) .os
      rmtree

/-- `_clear_orphaned_host_reactivation_restore_fence_unlocked`. -/
def clearOrphanedRestoreFence : Job φ Unit := do
  let w ← read id
  match w.journal, w.staging, w.live fence with
  | none, none, some file =>
    if site.privateFence file then
      act .os fun w => w.setLive fence none
      anyOp
    else anyOp
  | _, _, _ => return ()

/-- `_restore_recovery_pending`. -/
def Root.pending : Bool :=
  w.journal.isSome || (w.live fence).isSome || w.staging.isSome

def maintenanceControlLock : Job φ Unit := do
  anyOp
  let pending ← read Root.pending
  if pending then
    let journal ← read Root.journal
    cleanupAbandonedRestoreStaging (journal.map Journal.staging)
    let _ ← (if journal.isSome then recoverInterruptedRestore site else pure () : Job φ Unit)
    cleanupAbandonedRestoreStaging none
    clearOrphanedRestoreFence site
  else return ()

/-! ### The restore -/

/-- The snapshot is copied into the staging directory. -/
def stageSnapshot : Job φ Unit := do
  forEach (fun _ p => act .os fun w => w.onStaging fun s => s.setStaged p.1 (some p.2)) ()
    site.flatFiles
  anyOp
  act .os fun w => w.onStaging fun s => { s with linked := site.snapshot.linked }
  act .os fun w => w.onStaging fun s => s.setStaged attachments (some site.snapshot.attachments)
  let copies ← read Root.copy
  refuse (site.holds copies site.generation = false)
    (.runtime "Team Hub snapshot file digest is invalid")
  act .os fun w => w.onStaging fun s => { s with previous := some fun _ => none }
  anyOp

/-- The journal of a transaction on the live files. -/
def Site.journal (live : String → Option φ) (staging : String) (state : Phase) : Journal where
  state := state
  staging := staging
  oldTargets := sorted (site.managed.filter fun n => (live n).isSome).dedup
  newTargets := sorted (site.files.map Prod.fst)
  newGeneration := site.generation

def commitRestore (j : Journal) : Job φ Unit := do
  writeRestoreCompletionReceipt (site.receipt .committed)
  writeRestoreTransactionJournal { j with state := .committed }

/-- The body of the `try` of `_restore_maintenance_snapshot_unlocked`; the commit has fates of its
    own. -/
def installSnapshot (staging : String) (commitFates : List (Fate Empty)) : Job φ Unit := do
  stageSnapshot site
  let live ← read Root.live
  let j := site.journal live staging .prepared
  writeRestoreCompletionReceipt (site.receipt .prepared)
  writeRestoreTransactionJournal j
  forEach (fun _ name => act .os fun w => w.retire name) () j.oldTargets
  anyOp
  forEach (fun _ name => act .os fun w => w.install name) () (site.files.map Prod.fst)
  anyOp
  let live ← read Root.live
  refuse (site.verified live site.generation = false)
    (.runtime "Team Hub restored state verification failed")
  under commitFates (commitRestore site j)
  recoverInterruptedRestore site

/-- The `except` clause: what was begun is undone, or finished if it was committed. -/
def recoverAfter (e : Err) : Job φ Unit := do
  let pending ← read Root.journal
  match pending with
  | none => raise e
  | some j =>
    handle (recoverInterruptedRestore site) fun _ =>
      raise (.runtime "Team Hub interrupted restore recovery failed")
    refuse (j.state = .prepared) e

/-- The `finally` clause. -/
def dropStaging : Job φ Unit := do
  let w ← read id
  if w.journal.isNone && w.staging.isSome then handle rmtree fun _ => return ()
  else return ()

/-- `_restore_maintenance_snapshot_unlocked` with `verify_only=False`. -/
def restoreMaintenanceSnapshotUnlocked (staging : String)
    (commitFates : List (Fate Empty)) : Job φ Unit := do
  let marker ← read fun w => w.live fence
  let marker ← lift (getOr marker (.runtime "Team Hub maintenance fence is missing"))
  refuse (site.fenceMatches marker = false)
    (.runtime "Team Hub maintenance fence does not match")
  anyOp
  act .os fun w => { w with staging := some (staging, {}) }
  finallyDo (handle (installSnapshot site staging commitFates) (recoverAfter site)) dropStaging

def restoreMaintenanceSnapshot (staging : String)
    (commitFates : List (Fate Empty)) : Job φ Unit := do
  maintenanceControlLock site
  restoreMaintenanceSnapshotUnlocked site staging commitFates

/-! ### Confirmation -/

/-- `_verify_restore_receipt_generation_unlocked`. -/
def Site.quiescent (live : String → Option φ) (g : Generation) : Bool :=
  ([fence, wal, shm].all fun n => (live n).isNone) && site.holds live g &&
    ((bootstrapProof :: site.proofNames).all fun n =>
      (live n).isNone || (g.proofs.map Prod.fst).contains n)

def confirmRestoredMaintenanceSnapshot : Job φ Unit := do
  maintenanceControlLock site
  anyOp
  let receipt ← read Root.receipt
  let r ← lift (getOr receipt (.runtime "Team Hub restore completion receipt is missing"))
  refuse (r.state ≠ .committed) (.runtime "Team Hub restore completion receipt is missing")
  refuse (r.call ≠ site.call) (.runtime "Team Hub restore completion receipt does not match")
  let live ← read Root.live
  refuse ((live fence).isSome) (.runtime "preserved Team Hub state is already in maintenance")
  anyOp
  refuse (site.quiescent live r.generation = false) (.runtime "Team Hub restored generation changed")
  refuse (site.handoffMatches = false) (.runtime "Team Hub reactivation handoff does not match")

/-! ### Runs -/

/-- A call, with what befalls it. -/
inductive Move where
  | restore (staging : String) (fates commitFates : List (Fate Empty))
  | recover (fates : List (Fate Empty))
  | confirm (fates : List (Fate Empty))

/-- The directory after a call. -/
def step : Move → Root φ
  | .restore staging fates commitFates =>
    (restoreMaintenanceSnapshot site staging commitFates w fates).2.1
  | .recover fates => (maintenanceControlLock site w fates).2.1
  | .confirm fates => (confirmRestoredMaintenanceSnapshot site w fates).2.1

end TeamHub.Restore
