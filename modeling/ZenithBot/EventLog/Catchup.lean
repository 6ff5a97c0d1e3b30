import Mathlib.Algebra.Group.Int.Defs
import Mathlib.Algebra.Group.Nat.Defs
import ZenithBot.EventLog.Log

/-! How a client that comes back is brought up to date: `send_event_catchup` pages through the log with
    `read_event_catchup_batch`, which resumes where the last page stopped or where the sparse index
    `events.idx` points.

    The log changes meanwhile. A `Disk` is what stands at the path and every file that stood there
    before; a `Timeline` is the disk at every instant, with appends and atomic replacements in between.
    The batch writers write in a thread of their own, so an append may show only a part of a line for a
    while. A page is a function of the instants at which it looks at the disk (`Look`), so any
    interleaving is a choice of instants. Nothing is assumed of what the index holds and which events a
    page shows. -/

namespace EventLog
open Json

variable (disk : Nat → Disk)

/-! ### Files and their history -/

/-- `st_dev` and `st_ino`. -/
structure FileId where
  (dev ino : Nat)
  deriving DecidableEq

/-- One generation of the log: its whole lines, and what there is of the one being written. -/
structure Gen where
  id : FileId
  events : List Event
  torn : List Char := []
  unended : '\n' ∉ torn := by simp
  increasing : (events.map Event.seq).Pairwise (· < ·)

/-- The file at the path, and those it replaced, which readers may still have open. -/
structure Disk where
  current : Gen
  old : List Gen
  distinct : ((current :: old).map Gen.id).Nodup

/-- What the file holds, to whoever has it open. -/
def Disk.gen? (d : Disk) (id : FileId) : Option Gen := (d.current :: d.old).find? fun g => g.id = id

def Disk.events (d : Disk) (id : FileId) : List Event := (d.gen? id).elim [] Gen.events

def Disk.torn (d : Disk) (id : FileId) : List Char := (d.gen? id).elim [] Gen.torn

def Disk.file (d : Disk) (id : FileId) : List Char := fileOf (d.events id) ++ d.torn id

/-- `path.read_bytes()`. -/
def Disk.text (d : Disk) : List Char := d.file d.current.id

/-- What may happen to the log: nothing, an append that completes some lines, or a replacement that
    drops some events, by a file with a new identity (`Disk.distinct`). -/
inductive Disk.Next (d : Disk) : Disk → Prop
  | stay : Next d d
  | append (d' : Disk) (more : List Event) (hid : d'.current.id = d.current.id)
      (hevents : d'.current.events = d.current.events ++ more) (htext : d.text <+: d'.text)
      (hold : d'.old = d.old) : Next d d'
  | replace (d' : Disk) (hsub : d'.current.events.Sublist d.current.events)
      (hold : d'.old = d.current :: d.old) : Next d d'

/-- The disk at every instant. -/
structure Timeline where
  disk : Nat → Disk
  next : ∀ t, (disk t).Next (disk (t + 1))

/-! ### Numbers of read lines -/

/-- What `write_event_index` puts into `events.idx`. -/
structure IndexFile where
  (version inode : Nat)
  entries : List (Nat × Nat)

/-- The instants at which `event_index_resume_offset` looks at the path, what it finds in `events.idx`,
    and which of its calls fail. -/
structure IndexLook where
  sized : Nat
  sizeFails : Bool
  index : Option IndexFile
  (listed first rebuilt : Nat)
  rebuildFails : Bool
  second : Nat

def candidate (after : Nat) (entries : List (Nat × Nat)) : Option (Nat × Nat) :=
  (entries.takeWhile fun e => e.1 ≤ after).getLast?

/-- `EventCatchupContinuation`. -/
structure Continuation where
  offset : Nat
  file : FileId
  (size scanned : Nat)

/-- The instants of one page: when the file is opened and measured, the index consulted, the path
    compared with the open file, the last line read, the open file measured and the path looked at again. -/
structure Look where
  present : Bool
  (opened measured : Nat)
  index : IndexLook
  checked : Nat
  checkFails : Bool
  (read finished ended : Nat)
  endFails : Bool

/-- The state of the loop over the lines. -/
structure Scan where
  (nextOffset highest : Nat)
  out : List Json

end EventLog
