import Mathlib.Data.List.AList
import Mathlib.Data.List.Sort
import Mathlib.Data.String.Basic
import ZenithBot.Lib.Crash
import ZenithBot.TeamHub.Directory

/-! Maintenance control of a managed Hub (`store.py`): the fence that keeps writers out while a
    snapshot is the truth, the handoff of a host reactivation to its installer, and the journal that
    swaps a snapshot for a newer one under the same name. Every operation takes
    `maintenance_control_lock` first, and taking it reads all of these files.

    Only a kill befalls an operation. A file written in place can be left empty or torn, which is not
    JSON; a rename, a link and an unlink are single actions. Inodes are not used twice. A generation is
    its manifest, whether its other files are all there, and whether one of them is a hard link; what is
    read from a sound database always passes. -/

namespace TeamHub.Maintenance
open Lib Prog

variable (site : Site) (w : Root)

/-! ### Texts -/

/-- `left`, something that `p` accepts, `right`. -/
def between (left right : String) (p : List Char → Bool) (s : String) : Bool :=
  left.length + right.length ≤ s.length && s.toList.take left.length = left.toList &&
    s.toList.drop (s.length - right.length) = right.toList &&
    p ((s.toList.drop left.length).take (s.length - left.length - right.length))

def isHexDigit (c : Char) : Bool := c.isDigit || ('a' ≤ c && c ≤ 'f')

/-- `[0-9a-f]{n}`. -/
def isHex (n : Nat) (cs : List Char) : Bool := cs.length = n && cs.all isHexDigit

/-- `[A-Za-z0-9_.:-]{8,240}`. -/
def isHubId (s : String) : Bool :=
  8 ≤ s.length && s.length ≤ 240 && s.toList.all fun c => c.isAlphanum || ['_', '.', ':', '-'].contains c

/-- `IDENTITY_PATTERN`: an alphanumeric character and 7 to 239 more, dots, colons and so on allowed. -/
def isIdentity (s : String) : Bool :=
  8 ≤ s.length && s.length ≤ 240 && (s.toList.take 1).all Char.isAlphanum &&
    s.toList.all fun c => c.isAlphanum || ['.', '_', ':', '@', '/', '-'].contains c

/-- `[A-Za-z0-9][A-Za-z0-9._:-]{0,127}`. -/
def isOperationId (s : String) : Bool :=
  1 ≤ s.length && s.length ≤ 128 && (s.toList.take 1).all Char.isAlphanum &&
    s.toList.all fun c => c.isAlphanum || ['.', '_', ':', '-'].contains c

/-- `[0-9a-f]{64}`. -/
def isDigest (s : String) : Bool := isHex 64 s.toList

/-- `snapshot_[A-Za-z0-9_]+`. -/
def isSnapshotName : String → Bool :=
  between "snapshot_" "" fun cs => !cs.isEmpty && cs.all fun c => c.isAlphanum || c = '_'

/-- `host-reactivation-[0-9a-f]{24}`. -/
def isReactivationId : String → Bool := between "host-reactivation-" "" (isHex 24)

/-- `MAINTENANCE_FENCE_STAGING_RE`. -/
def isFenceStaging : String → Bool :=
  between ".maintenance-fence-host-reactivation-" ".pending" (isHex 24)

/-- `SNAPSHOT_REBASE_RETIRED_RE`. -/
def isRetiredName : String → Bool := between ".snapshot-rebase-" ".old" (isHex 24)

/-- `secrets.token_hex(12)`. -/
structure Token where
  text : String
  hex : isHex 24 text.toList = true

/-- `f"snapshot_{time.time_ns():020d}_{secrets.token_hex(8)}"`, as far as the code depends on it. -/
structure SnapshotName where
  text : String
  named : isSnapshotName text = true

def hostReactivation : String := "host-reactivation"
def serverUpdate : String := "server-update"

/-! ### Files -/

/-- What a file holds that is written in place. -/
inductive Text (α : Type) where
  | empty
  | torn
  | whole (value : α)

structure File (α : Type) where
  inode : Nat
  text : Text α

/-- `maintenance-fence.json`. -/
structure Fence where
  format : Nat := 1
  (reason operationId hubId hostServerIdentity snapshot : String)
  snapshotManifestSha256 : Option String

/-- `_maintenance_fence_payload_valid`. -/
structure Fence.Valid (f : Fence) : Prop where
  format : f.format = 1 ∨ f.format = 2 ∧ f.reason = hostReactivation ∧
    isReactivationId f.operationId = true
  hubId : isHubId f.hubId = true
  host : isIdentity f.hostServerIdentity = true
  reason : 1 ≤ f.reason.length ∧ f.reason.length ≤ 80
  operationId : isOperationId f.operationId = true
  snapshot : isSnapshotName f.snapshot = true
  digest : ∀ d ∈ f.snapshotManifestSha256, isDigest d = true

instance (f : Fence) : Decidable f.Valid :=
  decidable_of_iff ((f.format = 1 ∨ f.format = 2 ∧ f.reason = hostReactivation ∧
      isReactivationId f.operationId = true) ∧ isHubId f.hubId = true ∧
      isIdentity f.hostServerIdentity = true ∧ (1 ≤ f.reason.length ∧ f.reason.length ≤ 80) ∧
      isOperationId f.operationId = true ∧ isSnapshotName f.snapshot = true ∧
      ∀ d ∈ f.snapshotManifestSha256, isDigest d = true)
    ⟨fun ⟨a, b, c, d, e, g, h⟩ => ⟨a, b, c, d, e, g, h⟩,
      fun ⟨a, b, c, d, e, g, h⟩ => ⟨a, b, c, d, e, g, h⟩⟩

inductive HandoffState where
  | creating | unclaimed | adopted
  deriving DecidableEq

/-- `.host-reactivation-handoff.json`. -/
structure Handoff where
  state : HandoffState
  (hubId hostServerIdentity operationId snapshot : String)
  fenceInode : Nat
  fenceStaging : String

/-- The checks of `_read_host_reactivation_handoff_unlocked`. -/
def Handoff.Valid (h : Handoff) : Prop :=
  isHubId h.hubId = true ∧ isIdentity h.hostServerIdentity = true ∧
    isReactivationId h.operationId = true ∧ isSnapshotName h.snapshot = true ∧
    0 < h.fenceInode ∧ isFenceStaging h.fenceStaging = true

instance (h : Handoff) : Decidable h.Valid := inferInstanceAs (Decidable (_ ∧ _))

/-- `.snapshot-rebase.json`. -/
structure Rebase where
  (hubId hostServerIdentity operationId target targetManifestSha256 replacement : String)
  (replacementManifestSha256 retired : String)

/-- The checks of `_recover_snapshot_rebase_unlocked`. -/
def Rebase.Valid (j : Rebase) : Prop :=
  isSnapshotName j.target = true ∧ isSnapshotName j.replacement = true ∧ j.replacement ≠ j.target ∧
    isDigest j.targetManifestSha256 = true ∧ isDigest j.replacementManifestSha256 = true ∧
    isRetiredName j.retired = true

instance (j : Rebase) : Decidable j.Valid := inferInstanceAs (Decidable (_ ∧ _))

/-- `manifest.json`; `contents` stands for the digests and the schema version. -/
structure Manifest where
  (reason hubId hostServerIdentity contents : String)

/-- A directory of `maintenance-backups`. -/
structure Generation where
  manifest : Option Manifest := none
  intact : Bool := false
  linked : Bool := false

/-- The names in `maintenance-backups`: a generation, one being staged, a retired one. -/
inductive Place where
  | snapshot (name : String)
  | staging (name : String)
  | retired (name : String)
  deriving DecidableEq

abbrev Backups := AList fun _ : Place => Generation

structure Root where
  inodes : Nat := 1
  fence : Option (File Fence) := none
  fenceStaging : Option (String × File Fence) := none
  handoff : Option (File Handoff) := none
  rebase : Option (File Rebase) := none
  backups : Backups := ∅

/-- The Hub of the directory, and the digest of manifests. -/
structure Site where
  (hubId host : String)
  sha256 : Manifest → String

/-- An operation. -/
abbrev Job (α : Type) := Prog Root Empty Err α

/-- A control file: how it is found in, and put into, the directory. -/
structure Slot (α : Type) where
  get : Root → Option (File α)
  set : Option (File α) → Root → Root

def fenceSlot : Slot Fence := ⟨Root.fence, fun f w => { w with fence := f }⟩

def handoffSlot : Slot Handoff := ⟨Root.handoff, fun f w => { w with handoff := f }⟩

def rebaseSlot : Slot Rebase := ⟨Root.rebase, fun f w => { w with rebase := f }⟩

def fenceStagingSlot (name : String) : Slot Fence where
  get w := w.fenceStaging.bind fun p => if p.1 = name then some p.2 else none
  set f w := { w with fenceStaging := f.map fun f => (name, f) }

section Control
variable {α : Type}

/-- `create_secret_file` and `_create_owned_maintenance_fence`: the file is created empty and then
    written. -/
def create (slot : Slot α) (value : α) : Job Nat := do
  let present ← read slot.get
  refuse (present.isSome = true) .os
  let inode ← read Root.inodes
  perform fun w => slot.set (some ⟨inode, .empty⟩) { w with inodes := inode + 1 }
  perform (slot.set (some ⟨inode, .torn⟩))
  perform (slot.set (some ⟨inode, .whole value⟩))
  return inode

/-- `_replace_private_control_file_unlocked`: a temporary file is renamed over the old one. -/
def replace (slot : Slot α) (value : α) : Job Unit := do
  let inode ← read Root.inodes
  perform fun w => slot.set (some ⟨inode, .whole value⟩) { w with inodes := inode + 1 }

def unlink (slot : Slot α) : Job Unit := perform (slot.set none)

/-- `_read_private_regular_file` and `json.loads`. -/
def readText (message : String) : Text α → Except Err α
  | .empty => .error .os
  | .torn => .error (.runtime message)
  | .whole value => .ok value

end Control

/-- The fence has a second name. -/
def Root.hardLinked : Bool :=
  match w.fence, w.fenceStaging with
  | some f, some s => f.inode = s.2.inode
  | _, _ => false

/-- The fence, read as a private file with a single link. -/
def Root.readFence : Except Err (Option Fence) :=
  match w.fence with
  | none => .ok none
  | some f =>
    if w.hardLinked then .error .os
    else (readText "Team Hub maintenance fence is invalid" f.text).map some

/-- `_read_host_reactivation_handoff_unlocked`. -/
def Root.readHandoff : Except Err (Option Handoff) := do
  match w.handoff with
  | none => return none
  | some file =>
    let h ← readText "Team Hub reactivation handoff is invalid" file.text
    refuseIf (¬h.Valid) (.runtime "Team Hub reactivation handoff is invalid")
    return some h

/-! ### Generations -/

namespace Root

variable (w : Root)

def generation (p : Place) : Option Generation := w.backups.lookup p

def has (p : Place) : Bool := (w.generation p).isSome

def put (p : Place) (g : Generation) : Root := { w with backups := w.backups.insert p g }

def drop (p : Place) : Root := { w with backups := w.backups.erase p }

/-- The directory with a generation changed. -/
def onGeneration (p : Place) (f : Generation → Generation) : Root :=
  match w.generation p with
  | some g => w.put p (f g)
  | none => w

/-- `os.replace(p, q)`. -/
def rename (p q : Place) : Root :=
  match w.generation p with
  | some g => (w.drop p).put q g
  | none => w

end Root

/-- `os.replace` of directories: the new name must be free. -/
def rename (p q : Place) : Job Unit := do
  let taken ← read fun w => w.has q
  refuse (taken = true) .os
  perform fun w => w.rename p q

def rmtree (p : Place) : Job Unit := do
  perform fun w => w.onGeneration p fun g => { g with intact := false }
  perform fun w => w.onGeneration p fun g => { g with intact := false, manifest := none }
  perform fun w => w.drop p

/-- `_sha256_private_regular_file(snapshot / "manifest.json")`. -/
def Site.manifestDigest (p : Place) : Option String :=
  ((w.generation p).bind Generation.manifest).map site.sha256

/-- `_restore_maintenance_snapshot_unlocked` with `verify_only=True`, after its look at the fence. -/
def verifyGeneration (p : Place) (hubId host reason : String) : Except Err Unit := do
  let g ← getOr (w.generation p) .os
  let m ← getOr g.manifest .os
  refuseIf (m.hubId ≠ hubId ∨ m.hostServerIdentity ≠ host ∨ m.reason ≠ reason)
    (.runtime "Team Hub snapshot identity is invalid")
  refuseIf (g.intact = false) (.runtime "Team Hub snapshot file digest is invalid")

/-! ### The fence -/

/-- `maintenance_fence` of a store with these identities. -/
def maintenanceFence (hubId host : String) : Except Err (Option Fence) := do
  match ← w.readFence with
  | none => return none
  | some f =>
    refuseIf (¬f.Valid ∨ f.hubId ≠ hubId ∨ f.hostServerIdentity ≠ host)
      (.runtime "Team Hub maintenance fence is invalid")
    return some f

def maintenanceOperationId (value : String) : Except Err String := do
  let operationId ← boundedText value "operation_id" 1 128
  if isOperationId operationId then .ok operationId
  else .error (.value "operation_id is invalid")

/-- What a caller says about the fence it means; the snapshot is a name in `maintenance-backups`. -/
structure Expected where
  (hubId host reason operationId snapshot : String)

/-- The generation under the name has the recorded digest. -/
def Site.checkDigest (name digest : String) : Except Err Unit := do
  let actual ← getOr (site.manifestDigest w (.snapshot name))
    (.runtime "Team Hub maintenance snapshot generation is missing")
  refuseIf (digest ≠ actual) (.runtime "Team Hub maintenance snapshot generation changed")

def maintenanceFenceControl (e : Expected) (verifySnapshotDigest : Bool) :
    Except Err (Option Fence) := do
  match ← w.readFence with
  | none => return none
  | some f =>
    refuseIf (¬f.Valid ∨ f.hubId ≠ e.hubId ∨ f.hostServerIdentity ≠ e.host ∨ f.reason ≠ e.reason)
      (.runtime "Team Hub maintenance fence does not match")
    let operationId ← maintenanceOperationId e.operationId
    refuseIf (f.operationId ≠ operationId) (.runtime "Team Hub maintenance operation does not match")
    refuseIf (f.snapshot ≠ e.snapshot) (.runtime "Team Hub maintenance snapshot does not match")
    match verifySnapshotDigest, f.snapshotManifestSha256 with
    | true, some digest =>
      site.checkDigest w e.snapshot digest
      return some f
    | _, _ => return some f

/-- `_restore_maintenance_snapshot_unlocked` with `verify_only=True` and a fence. -/
def verifyFencedSnapshot (e : Expected) : Except Err Unit := do
  let marker ← maintenanceFenceControl site w e true
  refuseIf (marker.isNone = true) (.runtime "Team Hub maintenance fence is missing")
  verifyGeneration w (.snapshot e.snapshot) e.hubId e.host e.reason

/-! ### Taking the lock -/

def cleanupOrphanedMaintenanceFenceStaging : Job Unit := do
  let w ← read id
  if w.handoff.isNone && w.fenceStaging.isSome then
    perform fun w => { w with fenceStaging := none }
  else return ()

def verifySnapshotRebaseGeneration (p : Place) (j : Rebase)
    (digest : String) : Except Err Unit := do
  let actual ← getOr (site.manifestDigest w p) .os
  refuseIf (isDigest digest = false ∨ actual ≠ digest)
    (.runtime "Team Hub snapshot rebase generation changed")
  verifyGeneration w p j.hubId j.hostServerIdentity serverUpdate

def bindSelectedGeneration (marker : Fence) (digest : String) : Job Unit :=
  replace fenceSlot { marker with snapshotManifestSha256 := some digest }

/-- A replacement that does not verify is discarded and the old generation put back. -/
def undoRebase (marker : Fence) (j : Rebase) (bad : Place) (e : Err) : Job Unit := do
  rmtree bad
  rename (.retired j.retired) (.snapshot j.target)
  bindSelectedGeneration marker j.targetManifestSha256
  unlink rebaseSlot
  raise e

/-- The generation a rebase goes on with, by what is left of it: its digest, and whether the retired
    one is still to be removed. -/
def selectGeneration (marker : Fence) (j : Rebase) : Job (String × Bool) := do
  let target := Place.snapshot j.target
  let replacement := Place.snapshot j.replacement
  let retired := Place.retired j.retired
  let verify (p : Place) (digest : String) : Job Unit :=
    look fun w => verifySnapshotRebaseGeneration site w p j digest
  let w ← read id
  match w.has target, w.has replacement, w.has retired with
  | true, true, false =>
    verify target j.targetManifestSha256
    rmtree replacement
    return (j.targetManifestSha256, false)
  | false, true, true =>
    verify retired j.targetManifestSha256
    handle (verify replacement j.replacementManifestSha256) (undoRebase marker j replacement)
    rename replacement target
    return (j.replacementManifestSha256, true)
  | true, false, true =>
    verify retired j.targetManifestSha256
    handle (verify target j.replacementManifestSha256) (undoRebase marker j target)
    return (j.replacementManifestSha256, true)
  | false, false, true =>
    verify retired j.targetManifestSha256
    rename retired target
    return (j.targetManifestSha256, false)
  | true, false, false =>
    verify target j.targetManifestSha256
    return (j.targetManifestSha256, false)
  | _, _, _ => raise (.runtime "Team Hub snapshot rebase state is invalid")

/-- `_recover_snapshot_rebase_unlocked`, from a journal that was read. -/
def finishRebase (j : Rebase) : Job Unit := do
  refuse (¬j.Valid) (.runtime "Team Hub snapshot rebase journal is invalid")
  let marker ← look fun w => maintenanceFenceControl site w
    ⟨j.hubId, j.hostServerIdentity, serverUpdate, j.operationId, j.target⟩ false
  let marker ← lift (getOr marker (.runtime "Team Hub snapshot rebase fence is missing"))
  let (selected, retiredExists) ← selectGeneration site marker j
  bindSelectedGeneration marker selected
  look fun w => verifySnapshotRebaseGeneration site w (.snapshot j.target) j
    (if selected = j.replacementManifestSha256 then j.replacementManifestSha256
     else j.targetManifestSha256)
  unlink rebaseSlot
  if retiredExists then rmtree (.retired j.retired)
  else return ()

def recoverSnapshotRebase : Job Unit := do
  let file ← read Root.rebase
  match file with
  | none => return ()
  | some file =>
    let j ← lift (readText "Team Hub snapshot rebase journal is invalid" file.text)
    finishRebase site j

/-- The retired generations. -/
def Root.retiredPlaces : List Place :=
  w.backups.keys.filter fun p => match p with
    | .retired _ => true
    | _ => false

def cleanupOrphanedSnapshotRebaseRetired : Job Unit := do
  let w ← read id
  if w.rebase.isSome then return ()
  else forEach (fun _ p => rmtree p) () w.retiredPlaces

/-- `_clear_orphaned_host_reactivation_restore_fence_unlocked`: the fence must be readable. -/
def clearOrphanedRestoreFence : Job Unit := do
  let fence ← look Root.readFence
  match fence with
  | none => return ()
  | some f =>
    if f.format = 2 then
      refuse (¬f.Valid) (.runtime "Team Hub maintenance fence is invalid")
      unlink fenceSlot
    else return ()

/-- What taking `maintenance_control_lock` does in a directory without a restore. -/
def maintenanceControlLock : Job Unit := do
  cleanupOrphanedMaintenanceFenceStaging
  recoverSnapshotRebase site
  cleanupOrphanedSnapshotRebaseRetired
  clearOrphanedRestoreFence

/-! ### Snapshots -/

/-- A snapshot to be taken: its name, what its manifest will say, whether the Hub has a ready
    attachment (its blob is staged by a hard link), and what befalls its staging. -/
structure SnapshotCall where
  name : SnapshotName
  contents : String
  linked : Bool
  staging : List (Fate Empty) := []

def Root.stagingPlaces : List Place :=
  w.backups.keys.filter fun p => match p with
    | .staging _ => true
    | _ => false

/-- `_cleanup_abandoned_snapshot_staging_unlocked`: every file must have a single link. -/
def cleanupAbandonedSnapshotStaging : Job Unit := do
  let w ← read id
  refuse (w.stagingPlaces.any fun p => (w.generation p).any Generation.linked) .os
  forEach (fun _ p => rmtree p) () w.stagingPlaces

/-- The generation is built under its temporary name, its manifest last, and verified. -/
def stageSnapshot (reason : String) (verify : Bool) (call : SnapshotCall) : Job Unit := do
  let temporary := Place.staging call.name.text
  perform fun w => w.put temporary {}
  perform fun w => w.onGeneration temporary fun g => { g with linked := call.linked }
  perform fun w => w.onGeneration temporary fun g => { g with intact := true }
  let manifest : Manifest := ⟨reason, site.hubId, site.host, call.contents⟩
  perform fun w => w.onGeneration temporary fun g => { g with manifest := some manifest }
  if verify then
    let fence ← read Root.fence
    refuse (reason ≠ serverUpdate ∧ fence.isSome = true)
      (.runtime "preserved Team Hub state is already in maintenance")
    look fun w => verifyGeneration w temporary site.hubId site.host reason
  else return ()

/-- The published generations, newest first. -/
def Root.generations : List String :=
  (w.backups.keys.filterMap fun p => match p with
    | .snapshot name => some name
    | _ => none).insertionSort fun a b => b ≤ a

def Root.protectedReactivation (site : Site) : Option String :=
  w.generations.find? fun name => ((w.generation (.snapshot name)).bind Generation.manifest).any
    fun m => m.reason = hostReactivation && m.hubId = site.hubId && m.hostServerIdentity = site.host

/-- Old generations go, but not the fenced one and not the newest of a reactivation. -/
def prune (keep : Int) : Job Unit := do
  let retained := (max 1 (min keep 10)).toNat
  let w ← read id
  let fence ← look fun w => maintenanceFence w site.hubId site.host
  forEach (fun _ name =>
    if fence.map Fence.snapshot = some name ∨ w.protectedReactivation site = some name then return ()
    else rmtree (.snapshot name)) () (w.generations.drop retained)

/-- The staged generation is published under its name. -/
def publishSnapshot (reason : String) (verify : Bool) (call : SnapshotCall) : Job Unit := do
  stageSnapshot site reason verify call
  perform fun w => w.rename (.staging call.name.text) (.snapshot call.name.text)

/-- The `except` clause of a snapshot. -/
def discardStaging (call : SnapshotCall) (e : Err) : Job String := do
  let left ← read fun w => w.has (.staging call.name.text)
  let _ ← (if left then rmtree (.staging call.name.text) else pure () : Job Unit)
  raise e

/-- A generation is not published over another. -/
def maintenanceSnapshotUnlocked (reason : String) (keep : Int) (verify : Bool)
    (call : SnapshotCall) : Job String := do
  let reason ← lift (boundedText reason "reason" 1 80)
  handle (do
      cleanupAbandonedSnapshotStaging
      let taken ← read fun w => w.has (.snapshot call.name.text)
      refuse (taken = true) .os
      under call.staging (publishSnapshot site reason verify call)
      prune site keep
      return call.name.text)
    (discardStaging call)

/-! ### Operations -/

/-- `writing` is what befalls the writing of the fence. -/
def maintenanceSnapshotAndFence (reason operationId : String) (keep : Int)
    (call : SnapshotCall) (writing : List (Fate Empty)) : Job String := do
  let operationId ← lift (maintenanceOperationId operationId)
  maintenanceControlLock site
  let active ← read Root.fence
  refuse (active.isSome = true) (.runtime "Team Hub maintenance is already active")
  let snapshot ← maintenanceSnapshotUnlocked site reason keep false call
  let reason ← lift (boundedText reason "reason" 1 80)
  let digest ← look fun w => getOr (site.manifestDigest w (.snapshot snapshot)) .os
  let marker : Fence :=
    ⟨1, reason, operationId, site.hubId, site.host, snapshot, some digest⟩
  handle (do
      let _ ← under writing (create fenceSlot marker)
      return snapshot)
    fun e => do
      let existing ← look fun w => maintenanceFenceControl site w
        ⟨site.hubId, site.host, reason, operationId, snapshot⟩ true
      if existing.isSome then return snapshot else raise e

/-- The handoff is about the same reactivation and in the state. -/
def Handoff.Matches (h : Handoff) (e : Expected) (state : HandoffState) : Prop :=
  h.hubId = e.hubId ∧ h.hostServerIdentity = e.host ∧ h.operationId = e.operationId ∧
    h.snapshot = e.snapshot ∧ h.state = state

instance (h : Handoff) (e : Expected) (state : HandoffState) : Decidable (h.Matches e state) :=
  inferInstanceAs (Decidable (_ ∧ _))

/-- `_consume_host_reactivation_handoff_unlocked` with `remove=False`. -/
def checkHandoff (e : Expected) (state : HandoffState) : Except Err Unit := do
  match ← w.readHandoff with
  | none => return ()
  | some h =>
    refuseIf (¬h.Matches e state) (.runtime "Team Hub reactivation handoff does not match")
    let marker ← getOr w.fence .os
    refuseIf (marker.inode ≠ h.fenceInode)
      (.runtime "Team Hub reactivation fence ownership changed")

/-- `_consume_host_reactivation_handoff_unlocked` with `remove=True`. -/
def consumeHostReactivationHandoff (e : Expected) (state : HandoffState) : Job Unit := do
  let handoff ← look Root.readHandoff
  match handoff with
  | none => return ()
  | some h =>
    refuse (¬h.Matches e state) (.runtime "Team Hub reactivation handoff does not match")
    unlink handoffSlot

/-- The end of a clear: the fence goes, then an adopted handoff. -/
def clearFence (e : Expected) : Job Bool := do
  look fun w => if e.reason = hostReactivation then checkHandoff w e .adopted else .ok ()
  unlink fenceSlot
  handle (do
      let _ ← (if e.reason = hostReactivation then consumeHostReactivationHandoff e .adopted
        else pure () : Job Unit)
      return true)
    fun err => do
      let fence ← read Root.fence
      if fence.isNone then return true else raise err

def clearMaintenanceFence (reason operationId snapshot : String) : Job Bool := do
  let reason ← lift (boundedText reason "reason" 1 80)
  let operationId ← lift (maintenanceOperationId operationId)
  maintenanceControlLock site
  let e : Expected := ⟨site.hubId, site.host, reason, operationId, snapshot⟩
  let marker ← look fun w => maintenanceFenceControl site w e true
  match marker with
  | none => return false
  | some _ => clearFence e

def clearMaintenanceFenceControl (e : Expected) (inode : Option Nat) : Job Bool := do
  maintenanceControlLock site
  let marker ← look fun w => maintenanceFenceControl site w e true
  match marker with
  | none => return false
  | some _ =>
    let file ← read Root.fence
    refuse (∃ i ∈ inode, file.map File.inode ≠ some i)
      (.runtime "Team Hub maintenance fence ownership changed")
    clearFence e

/-- `writing` is what befalls the writing of the journal. -/
def rebaseMaintenanceSnapshot (host hubId operationId target : String)
    (call : SnapshotCall) (token : Token) (writing : List (Fate Empty)) : Job String := do
  let operationId ← lift (maintenanceOperationId operationId)
  maintenanceControlLock site
  let e : Expected := ⟨hubId, host, serverUpdate, operationId, target⟩
  look fun w => verifyFencedSnapshot site w e
  let replacement ← maintenanceSnapshotUnlocked site serverUpdate 3 true call
  refuse (site.hubId ≠ hubId) (.runtime "Team Hub maintenance source identity changed")
  let targetDigest ← look fun w => getOr (site.manifestDigest w (.snapshot target)) .os
  let replacementDigest ← look fun w => getOr (site.manifestDigest w (.snapshot replacement)) .os
  let retired := ".snapshot-rebase-" ++ token.text ++ ".old"
  let journal : Rebase :=
    ⟨hubId, host, operationId, target, targetDigest, replacement, replacementDigest, retired⟩
  let _ ← under writing (create rebaseSlot journal)
  handle (do
      rename (.snapshot target) (.retired retired)
      rename (.snapshot replacement) (.snapshot target)
      recoverSnapshotRebase site)
    fun err => do
      recoverSnapshotRebase site
      raise err
  return target

/-- What a handoff says about its fence. -/
def Handoff.expected (h : Handoff) : Expected :=
  ⟨h.hubId, h.hostServerIdentity, hostReactivation, h.operationId, h.snapshot⟩

def ownFence (h : Handoff) (message : String) : Except Err Bool := do
  match ← maintenanceFenceControl site w h.expected true with
  | none => return false
  | some _ =>
    refuseIf (w.fence.map File.inode ≠ some h.fenceInode) (.runtime message)
    return true

/-- A fence that nobody adopted goes with its handoff. -/
def retireUnclaimed (h : Handoff) : Job (Option Handoff) := do
  let owned ← look fun w =>
    ownFence site w h "Team Hub reactivation handoff fence ownership changed"
  let _ ← (if owned then unlink fenceSlot else pure () : Job Unit)
  unlink handoffSlot
  return none

def checkStaged (h : Handoff) (file : File Fence) : Except Err Unit := do
  let f ← readText "Team Hub creating reactivation fence is invalid" file.text
  refuseIf (¬f.Valid ∨ f.hubId ≠ h.hubId ∨ f.hostServerIdentity ≠ h.hostServerIdentity ∨
      f.reason ≠ hostReactivation ∨ f.operationId ≠ h.operationId ∨ f.snapshot ≠ h.snapshot)
    (.runtime "Team Hub creating reactivation fence does not match")

/-- What a reactivation left that died before its handoff was offered. -/
def recoverCreating (h : Handoff) : Job (Option Handoff) := do
  let staging := fenceStagingSlot h.fenceStaging
  let marker ← read Root.fence
  let staged ← read staging.get
  refuse ((∃ f ∈ marker, f.inode ≠ h.fenceInode) ∨ ∃ f ∈ staged, f.inode ≠ h.fenceInode)
    (.runtime "Team Hub creating reactivation fence ownership changed")
  match marker, staged with
  | none, none =>
    unlink handoffSlot
    return none
  | none, some file =>
    lift (checkStaged h file)
    unlink staging
    unlink handoffSlot
    return none
  | some _, some _ =>
    unlink staging
    retireUnclaimed site h
  | some _, none => retireUnclaimed site h

def recoverHostReactivationHandoff : Job (Option Handoff) := do
  let handoff ← look Root.readHandoff
  match handoff with
  | none => return none
  | some h =>
    match h.state with
    | .creating => recoverCreating site h
    | .unclaimed => retireUnclaimed site h
    | .adopted =>
      let owned ← look fun w =>
        ownFence site w h "Team Hub adopted reactivation fence ownership changed"
      if owned then return some h
      else
        -- the fence is gone, so the handoff no longer owns anything
        unlink handoffSlot
        return none

/-- The arguments of a reactivation: the snapshot, the token of its operation, and what befalls the
    writing of the handoff and the linking of the fence. -/
structure PrepareCall where
  snapshot : SnapshotCall
  token : Token
  writing : List (Fate Empty) := []
  linking : List (Fate Empty) := []

def PrepareCall.operationId (call : PrepareCall) : String := "host-reactivation-" ++ call.token.text

def PrepareCall.fenceStaging (call : PrepareCall) : String :=
  ".maintenance-fence-" ++ call.operationId ++ ".pending"

/-- What a reactivation returns. -/
structure Prepared where
  (hubId snapshot operationId : String)
  inode : Nat
  deriving DecidableEq

/-- `os.link(fence_staging, maintenance-fence.json)`, and the staging name goes. -/
def linkFence (staging : String) (inode : Nat) : Job Unit := do
  let present ← read Root.fence
  refuse (present.isSome = true) .os
  perform fun w => { w with fence := w.fenceStaging.map Prod.snd }
  let linked ← read Root.fence
  refuse (linked.map File.inode ≠ some inode)
    (.runtime "Team Hub reactivation source fence changed")
  unlink (fenceStagingSlot staging)

/-- The `except` clause of a reactivation: what still names the staged fence is removed. -/
def abandonReactivation (call : PrepareCall) (inode : Nat) (e : Err) : Job Unit := do
  let staging := fenceStagingSlot call.fenceStaging
  let fence ← read Root.fence
  refuse (∃ f ∈ fence, f.inode ≠ inode)
    (.runtime "Team Hub reactivation source fence remains fail-closed")
  unlink fenceSlot
  let staged ← read staging.get
  refuse (∃ f ∈ staged, f.inode ≠ inode)
    (.runtime "Team Hub reactivation source fence remains fail-closed")
  unlink staging
  let handoff ← look Root.readHandoff
  refuse (∃ h ∈ handoff, h.operationId ≠ call.operationId ∨ h.state = .adopted ∨
      h.fenceInode ≠ inode) (.runtime "Team Hub reactivation handoff remains fail-closed")
  unlink handoffSlot
  raise e

/-- The fence of a reactivation is published with its handoff. -/
def publishReactivation (snapshot : String) (call : PrepareCall) : Job Prepared := do
  let digest ← look fun w => getOr (site.manifestDigest w (.snapshot snapshot)) .os
  let operationId := call.operationId
  let marker : Fence :=
    ⟨1, hostReactivation, operationId, site.hubId, site.host, snapshot, some digest⟩
  let inode ← create (fenceStagingSlot call.fenceStaging) marker
  let handoff : Handoff :=
    ⟨.creating, site.hubId, site.host, operationId, snapshot, inode, call.fenceStaging⟩
  handle (do
      let _ ← under call.writing (create handoffSlot handoff)
      under call.linking (linkFence call.fenceStaging inode)
      let control ← look fun w => maintenanceFenceControl site w handoff.expected true
      refuse (control.isNone = true)
        (.runtime "Team Hub reactivation source fence could not be verified")
      replace handoffSlot { handoff with state := .unclaimed })
    (abandonReactivation call inode)
  return ⟨site.hubId, snapshot, operationId, inode⟩

def prepareManagedHostReactivation (host : String) (call : PrepareCall) : Job Prepared := do
  refuse (site.host ≠ host)
    (.runtime "preserved Team Hub state is bound to a different AgentsServer host")
  maintenanceControlLock site
  let resumable ← recoverHostReactivationHandoff site
  match resumable with
  | some h =>
    look fun w =>
      verifyFencedSnapshot site w ⟨h.hubId, host, hostReactivation, h.operationId, h.snapshot⟩
    return ⟨h.hubId, h.snapshot, h.operationId, h.fenceInode⟩
  | none =>
    let fence ← look fun w => maintenanceFence w "" host
    refuse (fence.isSome = true)
      (.runtime "preserved Team Hub state is already in managed maintenance")
    let snapshot ← maintenanceSnapshotUnlocked site hostReactivation 3 true call.snapshot
    publishReactivation site snapshot call

def checkAdoption (host : String) (p : Prepared) : Except Err Handoff := do
  let h ← getOr (← w.readHandoff) (.runtime "Team Hub reactivation handoff is missing")
  refuseIf (h.hubId ≠ p.hubId ∨ h.hostServerIdentity ≠ host ∨ h.operationId ≠ p.operationId ∨
      h.snapshot ≠ p.snapshot ∨ h.fenceInode ≠ p.inode ∨ h.state = .creating)
    (.runtime "Team Hub reactivation handoff does not match")
  let e : Expected := ⟨p.hubId, host, hostReactivation, p.operationId, p.snapshot⟩
  let marker ← maintenanceFenceControl site w e true
  let file ← getOr w.fence .os
  refuseIf (marker.isNone = true ∨ file.inode ≠ p.inode)
    (.runtime "Team Hub reactivation fence ownership changed")
  verifyFencedSnapshot site w e
  return h

def adoptPreparedHostReactivation (host : String) (p : Prepared) : Job Unit := do
  maintenanceControlLock site
  let h ← look fun w => checkAdoption site w host p
  if h.state = .unclaimed then replace handoffSlot { h with state := .adopted }
  else return ()

def checkAbort (host : String) (p : Prepared) : Except Err Bool := do
  match ← w.readFence with
  | none => return false
  | some f =>
    let e : Expected := ⟨p.hubId, host, hostReactivation, p.operationId, p.snapshot⟩
    let _ ← maintenanceFenceControl site w e true
    refuseIf (f.format ≠ 1 ∨ w.fence.map File.inode ≠ some p.inode)
      (.runtime "Team Hub reactivation preflight fence does not match")
    verifyFencedSnapshot site w e
    checkHandoff w e .unclaimed
    return true

def abortPreparedHostReactivation (host : String) (p : Prepared) : Job Bool := do
  maintenanceControlLock site
  let present ← look fun w => checkAbort site w host p
  if present then
    unlink fenceSlot
    consumeHostReactivationHandoff ⟨p.hubId, host, hostReactivation, p.operationId, p.snapshot⟩
      .unclaimed
    return true
  else return false

/-! ### Runs -/

/-- A call, with what befalls it. -/
inductive Move where
  | snapshotAndFence (reason operationId : String) (keep : Int) (call : SnapshotCall)
      (writing fates : List (Fate Empty))
  | clear (reason operationId snapshot : String) (fates : List (Fate Empty))
  | clearControl (e : Expected) (inode : Option Nat) (fates : List (Fate Empty))
  | rebase (host hubId operationId target : String) (call : SnapshotCall) (token : Token)
      (writing fates : List (Fate Empty))
  | prepare (host : String) (call : PrepareCall) (fates : List (Fate Empty))
  | adopt (host : String) (p : Prepared) (fates : List (Fate Empty))
  | abort (host : String) (p : Prepared) (fates : List (Fate Empty))

/-- The directory after a call. -/
def step : Move → Root
  | .snapshotAndFence reason operationId keep call writing fates =>
    (maintenanceSnapshotAndFence site reason operationId keep call writing w fates).2.1
  | .clear reason operationId snapshot fates =>
    (clearMaintenanceFence site reason operationId snapshot w fates).2.1
  | .clearControl e inode fates => (clearMaintenanceFenceControl site e inode w fates).2.1
  | .rebase host hubId operationId target call token writing fates =>
    (rebaseMaintenanceSnapshot site host hubId operationId target call token writing w fates).2.1
  | .prepare host call fates => (prepareManagedHostReactivation site host call w fates).2.1
  | .adopt host p fates => (adoptPreparedHostReactivation site host p w fates).2.1
  | .abort host p fates => (abortPreparedHostReactivation site host p w fates).2.1

end TeamHub.Maintenance
