import ZenithBot.TeamHub.AttachmentBytes

/-! When an interrupted chunk can be sent again. A call for the next chunk of an upload goes through
    these stages, and may be cut short between any two file operations:

      open the staging file  ─▶  write  ─▶  fsync  ─▶  commit                    (not the last chunk)
                                                  └─▶  verify ─▶ rename ─▶ commit (the last chunk)

    Once an upload has accepted bytes, the same call takes it up at every stage: a staging file is cut
    back to the accepted bytes, and content renamed before its row was committed is recognised. The
    first chunk insists that there is no staging file, so a call cut short after creating it finds its
    own file in the way. -/

namespace TeamHub
open Lib Prog List

variable {sha256 : Bytes → String}
variable {bytes : Bytes} {id : String} {w' : Depot}

/-! ### The call and its outcomes -/

/-- The next contiguous chunk of a declared upload that has not expired, sent by its owner; the last
    one completes the declared content. -/
structure NextChunk (sha256 : Bytes → String) (w : Depot) (a : Attachment) (c : Chunk) : Prop where
  row : w.db.find? c.teamId c.attachmentId = some a
  uploading : a.state = .uploading
  owner : a.uploadedBy = c.principalId
  scope : c.scope = none
  live : a.live c.timestamp = true
  declared : a.createdAt ≤ c.timestamp
  total : c.total = a.byteSize
  offset : c.offset = a.receivedBytes
  nonempty : c.data ≠ []
  small : c.data.length ≤ chunkBytes
  fits : a.receivedBytes + c.data.length ≤ a.byteSize
  content : a.receivedBytes + c.data.length = a.byteSize →
    sha256 (a.accepted ++ c.data) = a.storageKey

/-- The row once the chunk is accepted. -/
def Attachment.after (a : Attachment) (c : Chunk) : Attachment :=
  if a.receivedBytes + c.data.length < a.byteSize then a.receive c.data else a.ready c.timestamp

/-- The chunk sent again at another time. -/
def Chunk.at (c : Chunk) (timestamp : Nat) : Chunk := { c with timestamp := timestamp }

/-- The process died, an `OSError` came out of the call, or its transaction was committed. -/
def Interrupted {α : Type} : End Stop α → Prop
  | .done _ => True
  | .raised e => e = .io
  | .died => True

/-- The upload goes on from `w`: it has not failed, it has accepted the chunk or not, and sending the
    chunk again is accepted and brings it forward. -/
def Resumes (sha256 : Bytes → String) (a : Attachment) (c : Chunk) (w : Depot) : Prop :=
  ∃ a', w.db.find? c.teamId c.attachmentId = some a' ∧ a'.state ≠ .failed ∧
    (a'.receivedBytes = a.receivedBytes ∨
      a'.receivedBytes = a.receivedBytes + c.data.length) ∧
    ∀ t, a.createdAt ≤ t → a'.live t = true →
      ∃ b w', writeTeamAttachmentChunk sha256 (c.at t) w [] = (.done b, w', []) ∧
        w'.db.find? c.teamId c.attachmentId = some b ∧
        b.receivedBytes = a.receivedBytes + c.data.length ∧
        b.state = if a.receivedBytes + c.data.length = a.byteSize then .ready else .uploading

/-- The upload has accepted bytes, and they are in its staging file or, for the last chunk, in the
    content file. -/
def CanResume (sha256 : Bytes → String) (w : Files) (a : Attachment) (c : Chunk) : Prop :=
  0 < a.receivedBytes ∧ ((w.staging a.id).isSome = true ∨
    (a.receivedBytes + c.data.length = a.byteSize ∧ Stored sha256 w a))

section Rows
variable {w : Depot} {a : Attachment} {c : Chunk} {team : String}

/-- An update that leaves the keys alone changes a row in place. -/
lemma Db.find?_updateRows {db : Db} {p : Attachment → Bool} {f : Attachment → Attachment}
    {hf : ∀ a, (f a).id = a.id} (hteam : ∀ a, (f a).teamId = a.teamId) :
    (db.updateRows p f hf).find? team id =
      (db.find? team id).map fun a => if p a then f a else a := by
  have hk : ((fun a : Attachment => decide (a.teamId = team) && decide (a.id = id)) ∘
      fun a => if p a then f a else a) =
      fun a => decide (a.teamId = team) && decide (a.id = id) := by
    funext x
    by_cases hp : p x <;> simp [hp, hf, hteam]
  show List.find? _ (List.map _ _) = _
  rw [List.find?_map, hk]
  rfl

lemma NextChunk.mem (h : NextChunk sha256 w a c) : a ∈ w.db.attachments := Db.find?_mem h.row

lemma NextChunk.pos (h : NextChunk sha256 w a c) : 0 < c.data.length :=
  length_pos_iff.2 h.nonempty

/-- The chunk at another time, in a depot that still has the row. -/
lemma NextChunk.again (h : NextChunk sha256 w a c) {t : Nat}
    (hrow : w'.db.find? c.teamId c.attachmentId = some a) (hcreated : a.createdAt ≤ t)
    (hlive : a.live t = true) : NextChunk sha256 w' a (c.at t) :=
  { h with row := hrow, live := hlive, declared := hcreated }

lemma Attachment.after_received (h : a.receivedBytes + c.data.length ≤ a.byteSize) :
    (a.after c).receivedBytes = a.receivedBytes + c.data.length := by
  unfold Attachment.after
  split
  · rfl
  · show a.byteSize = _
    omega

lemma Attachment.after_state (hup : a.state = .uploading)
    (h : a.receivedBytes + c.data.length ≤ a.byteSize) :
    (a.after c).state =
      if a.receivedBytes + c.data.length = a.byteSize then .ready else .uploading := by
  unfold Attachment.after
  split
  · rw [if_neg (by omega)]; exact hup
  · rw [if_pos (by omega)]; rfl

/-- A message that binds ready rows leaves an uploading one alone. -/
lemma bind_find? (hup : a.state = .uploading) (h : w.db.find? team id = some a)
    (b : Binding) : (w.bind b).db.find? team id = some a := by
  rcases w.bind_cases b with hb | ⟨p, hf, hp, hb⟩ <;> rw [hb]
  · exact h
  · refine (Db.find?_updateRows (by exact fun _ => rfl)).trans ?_
    rw [h, Option.map_some, if_neg]
    exact fun hpa => nomatch hup.symm.trans (Attachment.bindable_ready (hp a (Db.find?_mem h) hpa))

lemma bind_files (b : Binding) : (w.bind b).files = w.files := by
  rcases w.bind_cases b with hb | ⟨p, hf, _, hb⟩ <;> rw [hb]

end Rows

/-! ### Holding a property through a program -/

section Holding
variable {α β : Type} {I : Depot → Prop} {w : Depot} {Q : β → Depot → Prop}
variable {P : α → Depot → Prop} {k : Unit → Task β} {m : Task α}

lemma sure_attempt_bind (hw : I w) (hk : (k ()).Sure (holding I Q) w) :
    (attempt Stop.io >>= k).Sure (holding I Q) w :=
  sure_bind (sure_attempt hk ⟨hw, io_ne_failure⟩ hw)

lemma sure_touch_bind {f : Files → Files} (hw : I w)
    (hk : (k ()).Sure (holding I Q) { w with files := f w.files }) :
    (touch f >>= k).Sure (holding I Q) w :=
  sure_bind (sure_act hk ⟨hw, io_ne_failure⟩ hw)

lemma sure_onDisk_bind {post : Post Depot Stop β} {f : Files → α} {v : α} {k : α → Task β}
    (hv : f w.files = v) (hk : (k v).Sure post w) : (onDisk f >>= k).Sure post w := by
  refine sure_bind (sure_read ?_)
  rw [hv]
  exact hk

lemma sure_holding_bind {k : α → Task β} (hm : m.Sure (holding I P) w)
    (hk : ∀ a w', I w' → P a w' → (k a).Sure (holding I Q) w') : (m >>= k).Sure (holding I Q) w :=
  hm.next fun a w' h => hk a w' h.1 h.2

variable {a : Attachment} {c : Chunk}

/-- VERIFY: a file of the right size gives its digest. -/
theorem verify_sure {file : Files → Option Bytes} (hw : I w) (hf : file w.files = some bytes) :
    (verifyTeamAttachmentDescriptor sha256 file bytes.length).Sure
      (holding I fun digest w' => w' = w ∧ digest = sha256 bytes) w := by
  refine sure_attempt_bind hw (sure_onDisk_bind hf ?_)
  refine sure_bind (sure_lift rfl (sure_bind (sure_refuse (not_not.2 rfl) ?_)))
  exact sure_attempt_bind hw (sure_pure ⟨hw, rfl, rfl⟩)

/-- The content is there and nothing is staged: left alone, the last chunk is recognised. -/
lemma replayed_calm (hst : w.files.staging a.id = none) (hstored : Stored sha256 w.files a)
    (hagrees : (((w.files.content a.storageKey).getD []).drop c.offset).take c.data.length = c.data) :
    replayedFinalChunk sha256 a c w [] = (.done true, w, []) := by
  obtain ⟨bytes, hbytes, hlen, hsha⟩ := hstored
  have habsent : teamAttachmentStagingAbsent a.id w [] = (.done true, w, []) := by
    show (End.done (w.files.staging a.id).isNone, w, []) = _
    rw [hst]; rfl
  have hopen : succeeds (openVerifiedTeamAttachmentBlob sha256 a.storageKey a.byteSize) w [] =
      (.done true, w, []) := by
    have hsure : (openVerifiedTeamAttachmentBlob sha256 a.storageKey a.byteSize).Sure
        (holding (· = w) fun _ _ => True) w := by
      rw [← hlen]
      refine sure_holding_bind (verify_sure rfl hbytes) ?_
      rintro digest w' rfl ⟨-, rfl⟩
      exact sure_refuse (not_not.2 hsha) ⟨rfl, trivial⟩
    obtain ⟨u, w', hrun, hw', -⟩ := hsure.calm
    unfold succeeds handle
    rw [bind_done hrun, hw']
    rfl
  unfold replayedFinalChunk
  rw [bind_done habsent, if_pos rfl, bind_done hopen, if_pos rfl]
  rw [bind_done (attempt_nil _), bind_done rfl, bind_done habsent]
  show (End.done _, w, []) = _
  rw [hagrees]
  simp

end Holding

/-! ### An upload that can be taken up -/

section Upload
variable {db : Db} {w : Depot} {a : Attachment} {c : Chunk}

/-- Inside a transaction on `db`: rows and files agree, and the upload can be taken up. -/
def Waiting (sha256 : Bytes → String) (db : Db) (a : Attachment) (c : Chunk) (w : Depot) : Prop :=
  Within sha256 db w ∧ CanResume sha256 w.files a c

section
variable (hinj : Function.Injective sha256) (hw : Within sha256 db w) (ha : a ∈ db.attachments)
  (hup : a.state = .uploading) (hpos : 0 < a.receivedBytes)

include hw ha hup hpos in
/-- OPEN: the staging file is there and is cut back to the accepted bytes. -/
theorem open_sure (hst : w.files.staging a.id = some bytes) :
    (openTeamAttachmentStaging a.id a.receivedBytes).Sure (holding (Waiting sha256 db a c)
      fun _ w' => w'.files.staging a.id = some a.accepted) w := by
  have hok := hw.2 a (hw.1 ▸ ha)
  have hcut : bytes.take a.receivedBytes = a.accepted := hok.staged hup bytes hst
  have hcount := hok.counted hup
  have hlen : a.receivedBytes ≤ bytes.length := by
    rw [← hcount, ← hcut, length_take]; omega
  have hwait : Waiting sha256 db a c w := ⟨hw, hpos, .inl (by rw [hst]; rfl)⟩
  refine sure_attempt_bind hwait ?_
  have hfound : (openStagingFile a.id a.receivedBytes).Sure
      (holding (Waiting sha256 db a c) fun _ w' => w' = w) w := by
    refine sure_onDisk_bind hst ?_
    rw [if_neg (Nat.pos_iff_ne_zero.1 hpos)]
    exact sure_refuse (by simp) ⟨hwait, rfl⟩
  refine sure_holding_bind hfound ?_
  rintro _ w' - rfl
  refine sure_attempt_bind hwait ?_
  have hcutfile : (cutStagingFile a.id a.receivedBytes).Sure (holding (Waiting sha256 db a c)
      fun _ w'' => w''.files.staging a.id = some a.accepted) w' := by
    refine sure_onDisk_bind (v := bytes) (by rw [hst]; rfl) ?_
    split
    · rw [hcut]
      have hw' := hw.setStaging ha hup
        (by simpa using Attachment.Extended.append hcount [])
      refine sure_act ⟨⟨hw', hpos, .inl ?_⟩, setStaging_self⟩ ⟨hwait, io_ne_failure⟩ hwait
      rw [setStaging_self]; rfl
    · refine sure_refuse (by omega) ⟨hwait, ?_⟩
      rw [take_of_length_le (by omega)] at hcut
      exact hst.trans (congrArg some hcut)
  refine sure_holding_bind hcutfile ?_
  intro _ w'' hw'' hst'
  exact sure_attempt ⟨hw'', hst'⟩ ⟨hw'', io_ne_failure⟩ hw''

include ha hup hpos in
/-- WRITE: after any number of bytes the file is what was accepted and those bytes. -/
theorem writeAll_sure (hcount : a.accepted.length = a.receivedBytes) :
    ∀ (data written : Bytes) {w : Depot}, Within sha256 db w →
      w.files.staging a.id = some (a.accepted ++ written) →
      (writeAll a.id (a.receivedBytes + written.length) data).Sure
        (holding (Waiting sha256 db a c) fun _ w' => w'.files.staging a.id =
          some (a.accepted ++ (written ++ data))) w
  | [], written, w, hw, hst => by
    refine sure_pure ⟨⟨hw, hpos, .inl ?_⟩, ?_⟩
    · rw [hst]; rfl
    · rw [append_nil]; exact hst
  | b :: data, written, w, hw, hst => by
    have hfile := writeByte_append (b := b) hcount hst
    refine sure_touch_bind ⟨hw, hpos, .inl (by rw [hst]; rfl)⟩ ?_
    rw [hfile]
    have hw' := hw.setStaging ha hup (.append hcount (written ++ [b]))
    have next := writeAll_sure hcount data (written ++ [b]) hw' setStaging_self
    simpa [Nat.add_assoc] using next

lemma staging_failure (message : String) {e : Stop} (he : e ≠ .failure .os) :
    (if e.isIo then Stop.failure (unavailable message) else e) ≠ .failure .os := by
  split
  · intro h; cases h
  · exact he

include hinj hw ha hup hpos in
/-- PUBLISH: the complete content is verified and renamed. -/
theorem publish_sure (hst : w.files.staging a.id = some (a.accepted ++ c.data))
    (hcount : a.accepted.length = a.receivedBytes)
    (hlast : a.receivedBytes + c.data.length = a.byteSize)
    (hsha : sha256 (a.accepted ++ c.data) = a.storageKey) :
    (publishTeamAttachment sha256 a).Sure (holding (Waiting sha256 db a c) fun _ _ => True) w := by
  have hlen : (a.accepted ++ c.data).length = a.byteSize := by
    rw [length_append, hcount, hlast]
  have hwait : Waiting sha256 db a c w := ⟨hw, hpos, .inl (by rw [hst]; rfl)⟩
  have hverify : (verifyTeamAttachmentDescriptor sha256 (fun w => w.staging a.id) a.byteSize).Sure
      (holding (Waiting sha256 db a c) fun digest w' =>
        w' = w ∧ digest = sha256 (a.accepted ++ c.data)) w := hlen ▸ verify_sure hwait hst
  refine sure_holding_bind (P := fun digest w' => w' = w ∧ digest = sha256 (a.accepted ++ c.data))
    (sure_handle (hverify.mono (fun _ _ => id) (fun e w' h => ?_) fun _ => id)) ?_
  · exact ensures_raise ⟨h.1, staging_failure _ h.2⟩
  rintro digest w' - ⟨rfl, rfl⟩
  rw [if_neg (not_not.2 hsha)]
  have hw' : Within sha256 db { w' with files := w'.files.publish a.id a.storageKey } :=
    ⟨hw.1, hw.2.publish hinj (hw.1 ▸ ha) hup hst (.append hcount c.data) hlen hsha⟩
  have hwait' : Waiting sha256 db a c { w' with files := w'.files.publish a.id a.storageKey } :=
    ⟨hw', hpos, .inr ⟨hlast, publish_stored hst hlen hsha⟩⟩
  refine sure_attempt_bind hwait (sure_touch_bind hwait ?_)
  exact sure_attempt ⟨hwait', trivial⟩ ⟨hwait', io_ne_failure⟩ hwait'

end

/-- The row the chunk leaves behind, found by its key. -/
def Accepted (a : Attachment) (c : Chunk) (r : Db × Attachment) : Prop :=
  r.2 = a.after c ∧ r.1.find? c.teamId c.attachmentId = some r.2

lemma markReady_sure {I : Depot → Prop} (hw : I w) (hrow : db.find? c.teamId c.attachmentId = some a)
    (hup : a.state = .uploading) (hcreated : a.createdAt ≤ c.timestamp)
    (hlast : ¬ a.receivedBytes + c.data.length < a.byteSize) :
    (markTeamAttachmentReady db a c.timestamp).Sure (holding I fun r _ => Accepted a c r) w := by
  refine sure_bind (sure_refuse (by omega) (sure_pure ⟨hw, ?_, ?_⟩))
  · rw [Attachment.after, if_neg hlast]
  · refine (Db.find?_updateRows (by exact fun _ => rfl)).trans ?_
    rw [hrow, Option.map_some]
    simp [hup]

/-- APPEND: the staging file is there; the chunk is written, and the last one published. -/
theorem append_sure (hinj : Function.Injective sha256) (h : NextChunk sha256 w a c)
    (hw : Within sha256 w.db w) (hpos : 0 < a.receivedBytes) (hst : w.files.staging a.id = some bytes) :
    (appendChunk sha256 w.db a c).Sure
      (holding (Waiting sha256 w.db a c) fun r _ => Accepted a c r) w := by
  have hcount := (hw.2 a h.mem).counted h.uploading
  refine sure_holding_bind
    (sure_handle ((open_sure hw h.mem h.uploading hpos hst).mono (fun _ _ => id)
      (fun e w' h' => ?_) fun _ => id)) ?_
  · exact ensures_raise ⟨h'.1, staging_failure _ h'.2⟩
  intro _ w1 hw1 hst1
  have hwrite := writeAll_sure (c := c) h.mem h.uploading hpos hcount c.data [] hw1.1
    (by rw [append_nil]; exact hst1)
  refine sure_holding_bind hwrite ?_
  intro _ w2 hw2 hst2
  refine sure_attempt_bind hw2 ?_
  split
  · rename_i hmore
    refine sure_pure ⟨hw2, ?_, ?_⟩
    · rw [Attachment.after, if_pos hmore]
    · refine (Db.find?_updateRows (by exact fun _ => rfl)).trans ?_
      rw [h.row, Option.map_some, if_pos (by simp)]
  · rename_i hlast
    have hfits := h.fits
    have hend : a.receivedBytes + c.data.length = a.byteSize := by omega
    refine sure_holding_bind
      (publish_sure hinj hw2.1 h.mem h.uploading hpos hst2 hcount hend (h.content hend)) ?_
    intro _ w3 hw3 _
    exact markReady_sure hw3 h.row h.uploading h.declared hlast

/-- An upload whose staging file is in the way, or gone, takes no chunk. -/
def Blocked (w : Files) (a : Attachment) : Prop :=
  (a.receivedBytes = 0 ∧ (w.staging a.id).isSome = true) ∨
    (0 < a.receivedBytes ∧ w.staging a.id = none)

lemma append_blocked {data : Db} (hb : Blocked w.files a) :
    (appendChunk sha256 data a c).Ensures (holding (· = w) fun _ _ => False) w := by
  have hopen : (openTeamAttachmentStaging a.id a.receivedBytes).Ensures
      (holding (· = w) fun _ _ => False) w := by
    refine attempt_then ⟨rfl, io_ne_failure⟩ rfl ?_
    refine holding_bind (read_then ?_) fun _ _ _ => False.elim
    rcases hb with ⟨hzero, hsome⟩ | ⟨hpos, hnone⟩
    · rw [if_pos hzero]
      exact refuse_then ⟨rfl, io_ne_failure⟩ fun hno => absurd hsome hno
    · rw [if_neg (Nat.pos_iff_ne_zero.1 hpos)]
      exact ensures_refuse (fun _ => ⟨rfl, io_ne_failure⟩)
        fun hno => absurd (Option.isNone_iff_eq_none.2 hnone) hno
  refine holding_bind
    (ensures_handle (hopen.mono (fun _ _ => id) (fun e w' h => ?_) fun _ => id)) fun _ _ _ => False.elim
  exact ensures_raise ⟨h.1, staging_failure _ h.2⟩

/-- The part of a call about a chunk that is next in line. -/
lemma uploadChunk_eq (h : NextChunk sha256 w a c) :
    uploadChunk sha256 w.db a c = (do
      let replayed ← (if a.receivedBytes + c.data.length = a.byteSize then
          replayedFinalChunk sha256 a c else pure false : Task Bool)
      if replayed then markTeamAttachmentReady w.db a c.timestamp
      else appendChunk sha256 w.db a c) := by
  have hpos := h.pos
  have hfits := h.fits
  have hoff := h.offset
  unfold uploadChunk
  have hnot : ¬ c.offset + c.data.length ≤ a.receivedBytes := by omega
  have hcond : (c.offset = a.receivedBytes ∧ a.receivedBytes + c.data.length = a.byteSize) ↔
      a.receivedBytes + c.data.length = a.byteSize := and_iff_right hoff
  simp only [hcond, if_neg hnot]
  have hcont : (refuse (c.offset ≠ a.receivedBytes)
      (.raised (.hub "conflict" "Attachment chunk offset is not contiguous" 409)) : Task Unit) =
      pure () := if_neg (not_not.2 hoff)
  have hsize : (refuse (a.byteSize < a.receivedBytes + c.data.length)
      (.raised (invalidRequest "Attachment chunk exceeds the declared size")) : Task Unit) =
      pure () := if_neg (by omega)
  rw [hcont, hsize]
  rfl

/-- UPLOAD: from an upload that can be taken up, the chunk is accepted unless something befalls it,
    and whatever befalls it, the upload can be taken up again. -/
theorem uploadChunk_sure (hinj : Function.Injective sha256) (h : NextChunk sha256 w a c)
    (hs : Sound sha256 w) (hres : CanResume sha256 w.files a c) :
    (uploadChunk sha256 w.db a c).Sure
      (holding (Waiting sha256 w.db a c) fun r _ => Accepted a c r) w := by
  have hw : Within sha256 w.db w := ⟨rfl, hs⟩
  have hwait : Waiting sha256 w.db a c w := ⟨hw, hres⟩
  obtain ⟨hpos, hwhere⟩ := hres
  rw [uploadChunk_eq h]
  cases hst : w.files.staging a.id with
  | some bytes =>
    -- the staging file is there, so no replay is looked for
    have happend := append_sure hinj h hw hpos hst
    split
    · have habsent : (teamAttachmentStagingAbsent a.id).Sure
          (holding (Waiting sha256 w.db a c) fun b w' => w' = w ∧ b = false) w := by
        refine sure_attempt_bind hwait (sure_read ⟨hwait, rfl, ?_⟩)
        show (w.files.staging a.id).isNone = false
        rw [hst]; rfl
      refine sure_holding_bind (P := fun b w' => w' = w ∧ b = false) ?_ ?_
      · refine sure_holding_bind habsent ?_
        rintro _ w' hw' ⟨rfl, rfl⟩
        exact sure_pure ⟨hw', rfl, rfl⟩
      · rintro _ w' - ⟨rfl, rfl⟩
        exact happend
    · exact sure_bind (sure_pure happend)
  | none =>
    obtain ⟨hlast, hstored⟩ := hwhere.resolve_left (by rw [hst]; simp)
    have hfound : (((w.files.content a.storageKey).getD []).drop c.offset).take c.data.length =
        c.data := by
      obtain ⟨bytes, hbytes, hlen, hsha⟩ := hstored
      have hcount := (hs a h.mem).counted h.uploading
      rw [hinj (hsha.trans (h.content hlast).symm)] at hbytes
      rw [hbytes, Option.getD_some, h.offset, ← hcount, drop_left, take_length]
    have hready := markReady_sure hwait h.row h.uploading h.declared (by omega)
    rw [if_pos hlast]
    refine sure_bind_calm ?_ (replayed_calm hst hstored hfound) hready
    refine (holding_of_reads replayed_reads hwait).imp ?_
    rintro replayed w' ⟨-, rfl, -⟩
    cases replayed with
    | true => exact hready.safe
    | false =>
      exact (holding_of_reads (append_blocked (.inr ⟨hpos, hst⟩)) hwait).imp fun _ _ hno => hno.2.2.elim

end Upload

/-! ### The call -/

section Call
variable {w : Depot} {a : Attachment} {c : Chunk}
variable {w0 : Depot} {b : Attachment}

/-- The row is as before the chunk, and the upload can be taken up. -/
def Pending (sha256 : Bytes → String) (a : Attachment) (c : Chunk) (w : Depot) : Prop :=
  w.db.find? c.teamId c.attachmentId = some a ∧ Sound sha256 w ∧ CanResume sha256 w.files a c

lemma Pending.bind (hup : a.state = .uploading) (h : Pending sha256 a c w) (b : Binding) :
    Pending sha256 a c (w.bind b) := by
  refine ⟨bind_find? hup h.1 b, h.2.1.bind b, ?_⟩
  rw [bind_files]; exact h.2.2

/-- The chunk is accepted and its row committed, or the upload is pending. -/
def settled (sha256 : Bytes → String) (a : Attachment) (c : Chunk) : Post Depot Stop Attachment :=
  ⟨fun b w => b = a.after c ∧ w.db.find? c.teamId c.attachmentId = some b,
    fun e w => Pending sha256 a c w ∧ e ≠ .failure .os, Pending sha256 a c⟩

lemma sure_transaction {α : Type} {post : Post Depot Stop α} {body : Db → Task (Db × α)}
    (hfail : post.raised .io w) (hdie : post.died w)
    (hbody : (body w.db).Sure (committing post) w) : (transaction body).Sure post w := by
  refine sure_bind (sure_attempt (sure_bind (sure_read ?_)) hfail hdie)
  refine hbody.next ?_
  rintro r w' ⟨hdone, hraised, hdied⟩
  exact sure_bind (sure_act (sure_pure hdone) hraised hdied)

/-- What a call does with the row it found. -/
def onRow (sha256 : Bytes → String) (db : Db) (b : Attachment) (c : Chunk) : Task (Db × Attachment) :=
  match b.state with
  | .ready => do
    refuse (b.byteSize < c.offset + c.data.length)
      (.raised (.hub "conflict" "Attachment is already complete" 409))
    return (db, b)
  | .failed => raise (.raised (unavailable "Attachment upload failed; declare it again"))
  | .uploading => uploadChunk sha256 db b c

lemma locked_sure_of {post : Post Depot Stop Attachment}
    (hscope : c.scope = none) (hrow : w.db.find? c.teamId c.attachmentId = some b)
    (howner : b.uploadedBy = c.principalId) (hlive : b.live c.timestamp = true)
    (htotal : c.total = b.byteSize) (hfail : post.raised .io w) (hdie : post.died w)
    (hbody : (onRow sha256 w.db b c).Sure (committing post) w) :
    (writeTeamAttachmentChunkLocked sha256 c).Sure post w := by
  refine sure_transaction hfail hdie ?_
  refine sure_bind (sure_lift (by rw [hscope]) ?_)
  refine sure_bind (sure_lift (by rw [hrow]; rfl) ?_)
  refine sure_bind (sure_refuse (not_not.2 howner) ?_)
  refine sure_bind (sure_refuse (by rw [hlive]; decide) ?_)
  exact sure_bind (sure_refuse (not_not.2 htotal) hbody)

lemma locked_sure (hinj : Function.Injective sha256) (h : NextChunk sha256 w a c)
    (hp : Pending sha256 a c w) :
    (writeTeamAttachmentChunkLocked sha256 c).Sure (settled sha256 a c) w := by
  have hpending : ∀ w', Waiting sha256 w.db a c w' → Pending sha256 a c w' := by
    rintro w' ⟨⟨hdb, hs⟩, hres⟩
    exact ⟨by rw [hdb]; exact h.row, hs, hres⟩
  refine locked_sure_of h.scope h.row h.owner h.live h.total ⟨hp, io_ne_failure⟩ hp ?_
  rw [onRow, h.uploading]
  refine (uploadChunk_sure hinj h hp.2.1 hp.2.2).mono ?_ ?_ hpending
  · rintro r w' ⟨hw', hrow, hfind⟩
    exact ⟨⟨hrow, hfind⟩, ⟨hpending w' hw', io_ne_failure⟩, hpending w' hw'⟩
  · rintro e w' ⟨hw', he⟩
    exact ⟨hpending w' hw', he⟩

lemma recordFailure_ensures (hup : a.state = .uploading) {error : Err} (he : error ≠ .os)
    (hp : Pending sha256 a c w) :
    (do Prog.yield Depot.bind
        transaction fun db => return (db.updateRows c.isUploading
          (fun a => { a with state := .failed }) fun _ => rfl, ())
        raise (.raised error) : Task Attachment).Ensures
      ⟨fun _ _ => False, fun e w' => e = .io → Pending sha256 a c w', Pending sha256 a c⟩ w := by
  refine ensures_bind (ensures_yield (fun _ b h => h.bind hup b) ?_ hp)
  intro w' hp'
  refine ensures_bind (ensures_transaction (fun _ => hp') hp' (ensures_pure ⟨?_, fun _ => hp', hp'⟩))
  exact ensures_raise fun heq => absurd (Stop.raised.inj heq) he

/-- CALL: a pending upload takes its next chunk unless something befalls the call; a death or an
    `OSError` leaves it pending. -/
theorem call_sure (hinj : Function.Injective sha256) (h : NextChunk sha256 w a c)
    (hp : Pending sha256 a c w) :
    (writeTeamAttachmentChunk sha256 c).Sure
      ⟨fun b w' => b = a.after c ∧ w'.db.find? c.teamId c.attachmentId = some b,
        fun e w' => e = .io → Pending sha256 a c w', Pending sha256 a c⟩ w := by
  have hpos := h.pos
  have hfits := h.fits
  have htotal := h.total
  refine sure_bind (sure_refuse h.nonempty (sure_bind (sure_refuse (not_lt.2 h.small) ?_)))
  refine sure_bind (sure_refuse (by omega) (sure_bind (sure_attempt ?_ (fun _ => hp) hp)))
  refine sure_handle ((locked_sure hinj h hp).mono (fun _ _ => id) ?_ fun _ => id)
  rintro e w' ⟨hp', he⟩
  cases e with
  | raised e => exact ensures_raise fun _ => hp'
  | failure error =>
    refine (recordFailure_ensures h.uploading (fun heq => he (by rw [heq])) hp').imp fun _ _ => False.elim

lemma pending_resumes (hinj : Function.Injective sha256) (h : NextChunk sha256 w0 a c)
    (hp : Pending sha256 a c w) : Resumes sha256 a c w := by
  refine ⟨a, hp.1, by rw [h.uploading]; decide, .inl rfl, fun t hcreated hlive => ?_⟩
  have hnext := h.again hp.1 hcreated hlive
  obtain ⟨b, w', hrun, rfl, hfind⟩ := (call_sure hinj hnext hp).calm
  exact ⟨_, w', hrun, hfind, Attachment.after_received h.fits,
    Attachment.after_state h.uploading h.fits⟩

/-- Left alone, a call that finds no fault with its chunk is what its transaction is. -/
lemma call_calm (hne : c.data ≠ []) (hsmall : c.data.length ≤ chunkBytes) (htotal : 1 ≤ c.total)
    (h : writeTeamAttachmentChunkLocked sha256 c w [] = (.done b, w', [])) :
    writeTeamAttachmentChunk sha256 c w [] = (.done b, w', []) := by
  unfold writeTeamAttachmentChunk
  rw [bind_done (refuse_done hne _ _), bind_done (refuse_done (not_lt.2 hsmall) _ _),
    bind_done (refuse_done (by omega) _ _)]
  exact handle_done h

lemma accepted_resumes (h : NextChunk sha256 w0 a c)
    (hrow : w.db.find? c.teamId c.attachmentId = some (a.after c)) : Resumes sha256 a c w := by
  have hpos := h.pos
  have hfits := h.fits
  have hsize : (a.after c).byteSize = a.byteSize := by
    unfold Attachment.after; split <;> rfl
  have howner : (a.after c).uploadedBy = c.principalId := by
    unfold Attachment.after; split <;> exact h.owner
  have hreceived := Attachment.after_received hfits
  have hstate := Attachment.after_state h.uploading hfits
  refine ⟨a.after c, hrow, ?_, .inr hreceived, fun t _ hlive => ?_⟩
  · rw [hstate]; split <;> decide
  have hbody : (onRow sha256 w.db (a.after c) (c.at t)).Sure
      (committing ⟨fun b w' => b = a.after c ∧ w' = w, fun _ _ => True, fun _ => True⟩) w := by
    have hdone : (committing ⟨fun b w' => b = a.after c ∧ w' = w, fun _ _ => True,
        fun _ => True⟩).done (w.db, a.after c) w := ⟨⟨rfl, rfl⟩, trivial, trivial⟩
    unfold onRow
    rw [hstate]
    by_cases hlast : a.receivedBytes + c.data.length = a.byteSize
    · rw [if_pos hlast]
      refine sure_bind (sure_refuse ?_ (sure_pure hdone))
      rw [hsize]
      show ¬ a.byteSize < c.offset + c.data.length
      rw [h.offset]; omega
    · rw [if_neg hlast]
      have hreplay : ¬ ((c.at t).offset = (a.after c).receivedBytes ∧
          (a.after c).receivedBytes + (c.at t).data.length = (a.after c).byteSize) := by
        show ¬ (c.offset = _ ∧ _)
        rw [h.offset]; omega
      have hold : (c.at t).offset + (c.at t).data.length ≤ (a.after c).receivedBytes := by
        show c.offset + c.data.length ≤ _
        rw [h.offset, hreceived]
      unfold uploadChunk
      rw [if_neg hreplay]
      refine sure_bind (sure_pure ?_)
      show Sure (if _ then _ else _) _ _
      rw [if_pos hold]
      exact sure_pure hdone
  obtain ⟨b, w', hrun, rfl, rfl⟩ := (locked_sure_of (c := c.at t) h.scope hrow howner hlive
    (h.total.trans hsize.symm) trivial trivial hbody).calm
  refine ⟨_, w', call_calm h.nonempty h.small ?_ hrun, hrow, hreceived, hstate⟩
  show 1 ≤ c.total
  rw [h.total]; omega

/-! ### An upload that cannot -/

/-- BLOCKED: with its staging file in the way, or gone, an upload accepts no chunk, whatever befalls
    the call. -/
theorem call_blocked (h : NextChunk sha256 w a c) (hb : Blocked w.files a)
    (hno : a.receivedBytes + c.data.length = a.byteSize → w.files.staging a.id = none →
      ¬ Stored sha256 w.files a) :
    (writeTeamAttachmentChunk sha256 c).Ensures
      ⟨fun _ _ => False, fun _ _ => True, fun _ => True⟩ w := by
  have hupload : (uploadChunk sha256 w.db a c).Ensures
      ⟨fun _ _ => False, fun _ _ => True, fun _ => True⟩ w := by
    have happend : (appendChunk sha256 w.db a c).Ensures
        ⟨fun _ _ => False, fun _ _ => True, fun _ => True⟩ w :=
      (append_blocked hb).mono (fun _ _ hf => hf.2.elim) (fun _ _ _ => trivial) fun _ _ => trivial
    rw [uploadChunk_eq h]
    split
    · rename_i hlast
      refine replayed_reads.bind ?_ (fun _ _ _ => trivial) fun _ _ => trivial
      rintro replayed w' ⟨rfl, hr⟩
      cases replayed with
      | true => exact absurd (hr rfl).stored (hno hlast (hr rfl).unstaged)
      | false => exact happend
    · exact ensures_bind (ensures_pure happend)
  have hlocked : (writeTeamAttachmentChunkLocked sha256 c).Ensures
      ⟨fun _ _ => False, fun _ _ => True, fun _ => True⟩ w := by
    refine ensures_transaction trivial trivial (ensures_lift_bind (fun _ _ => ?_) fun _ _ => trivial)
    refine ensures_lift_bind (fun b hrow => ?_) fun _ _ => trivial
    obtain rfl : a = b := Option.some.inj (h.row.symm.trans (getOr_ok hrow))
    refine refuse_then trivial fun _ => refuse_then trivial fun _ => refuse_then trivial fun _ => ?_
    rw [h.uploading]
    exact hupload.imp fun _ _ => False.elim
  refine refuse_then trivial fun _ => refuse_then trivial fun _ => refuse_then trivial fun _ => ?_
  refine attempt_then trivial trivial ?_
  refine ensures_handle (hlocked.mono (fun _ _ => id) (fun e w' _ => ?_) fun _ => id)
  cases e with
  | raised e => exact ensures_raise trivial
  | failure error =>
    refine ensures_true.next fun _ _ _ => ?_
    exact ensures_true.next fun _ _ _ => ensures_raise trivial

lemma blocked_not_resumes (h : NextChunk sha256 w0 a c)
    (hrow : w.db.find? c.teamId c.attachmentId = some a) (hb : Blocked w.files a) (hno : a.receivedBytes
      + c.data.length = a.byteSize → w.files.staging a.id = none → ¬ Stored sha256 w.files a) :
    ¬ Resumes sha256 a c w := by
  rintro ⟨a', hrow', -, -, hagain⟩
  obtain rfl : a = a' := Option.some.inj (hrow.symm.trans hrow')
  obtain ⟨b, w', hrun, -⟩ := hagain c.timestamp h.declared h.live
  have hmet := (call_blocked (h.again hrow h.declared h.live) hb hno).met []
  rw [hrun] at hmet
  exact hmet

lemma create_then_die (h : NextChunk sha256 w a c) (hzero : a.receivedBytes = 0)
    (hst : w.files.staging a.id = none) :
    ∃ fates, writeTeamAttachmentChunk sha256 c w fates =
      (.died, { w with files := w.files.setStaging a.id (some []) }, []) := by
  have hopen : openTeamAttachmentStaging a.id a.receivedBytes w [.happens, .happens, .dies] =
      (.died, { w with files := w.files.setStaging a.id (some []) }, []) := by
    have hcreate : openStagingFile a.id a.receivedBytes w [.happens, .dies] =
        (.done (), { w with files := w.files.setStaging a.id (some []) }, [.dies]) := by
      unfold openStagingFile
      rw [bind_done (by show (End.done (w.files.staging a.id), w, _) = _; rw [hst]),
        if_pos hzero]
      rfl
    unfold openTeamAttachmentStaging
    rw [bind_done (attempt_happens _ _), bind_done hcreate]
    rfl
  have happend : appendChunk sha256 w.db a c w [.happens, .happens, .dies] =
      (.died, { w with files := w.files.setStaging a.id (some []) }, []) := by
    exact bind_died (handle_died hopen)
  have hupload : ∃ fates, uploadChunk sha256 w.db a c w fates =
      (.died, { w with files := w.files.setStaging a.id (some []) }, []) := by
    rw [uploadChunk_eq h]
    by_cases hlast : a.receivedBytes + c.data.length = a.byteSize
    · -- the content may be there already: it is not read
      have hreplay : replayedFinalChunk sha256 a c w
          [.happens, .fails, .happens, .happens, .dies] =
          (.done false, w, [.happens, .happens, .dies]) := by
        unfold replayedFinalChunk
        rw [bind_done (a := true)
          (by show (End.done (w.files.staging a.id).isNone, w, _) = _; rw [hst]; rfl)]
        rfl
      refine ⟨[.happens, .fails, .happens, .happens, .dies], ?_⟩
      rw [if_pos hlast, bind_done hreplay]
      exact happend
    · refine ⟨[.happens, .happens, .dies], ?_⟩
      rw [if_neg hlast]
      exact happend
  obtain ⟨fates, hupload⟩ := hupload
  have hlocked : writeTeamAttachmentChunkLocked sha256 c w (.happens :: fates) =
      (.died, { w with files := w.files.setStaging a.id (some []) }, []) := by
    unfold writeTeamAttachmentChunkLocked transaction
    rw [bind_done (attempt_happens _ _), bind_done rfl]
    refine bind_died ?_
    dsimp only
    rw [h.scope, h.row, bind_done rfl, bind_done rfl,
      bind_done (refuse_done (not_not.2 h.owner) _ _),
      bind_done (refuse_done (by rw [h.live]; decide) _ _),
      bind_done (refuse_done (not_not.2 h.total) _ _), h.uploading]
    exact hupload
  have hpos := h.pos
  have hfits := h.fits
  have htotal := h.total
  refine ⟨.happens :: .happens :: fates, ?_⟩
  unfold writeTeamAttachmentChunk
  rw [bind_done (refuse_done h.nonempty _ _), bind_done (refuse_done (not_lt.2 h.small) _ _),
    bind_done (refuse_done (by omega) _ _)]
  exact handle_died hlocked

lemma die_at_once (h : NextChunk sha256 w a c) :
    writeTeamAttachmentChunk sha256 c w [.dies] = (.died, w, []) := by
  have hpos := h.pos
  have hfits := h.fits
  have htotal := h.total
  unfold writeTeamAttachmentChunk
  rw [bind_done (refuse_done h.nonempty _ _), bind_done (refuse_done (not_lt.2 h.small) _ _),
    bind_done (refuse_done (by omega) _ _)]
  exact bind_died rfl

end Call

/-- RESUME: in every depot reached, the next chunk of an upload can be sent again after any call for
    it that was cut short, whatever befell that call, exactly when the upload has accepted bytes and
    they are in place. -/
theorem interrupted_upload_resumes_iff (sha256 : Bytes → String) (hinj : Function.Injective sha256)
    (limits : Limits) (requests : List Request) (a : Attachment) (c : Chunk)
    (h : NextChunk sha256 (run (Depot.step sha256 limits) {} requests) a c) :
    let w := run (Depot.step sha256 limits) {} requests
    (∀ fates, Interrupted (writeTeamAttachmentChunk sha256 c w fates).1 →
      Resumes sha256 a c (writeTeamAttachmentChunk sha256 c w fates).2.1) ↔
    CanResume sha256 w.files a c := by
  have hs := run_sound hinj limits requests
  generalize run (Depot.step sha256 limits) {} requests = w at h hs ⊢
  constructor
  · intro hall
    by_contra hno
    by_cases hcreate : a.receivedBytes = 0 ∧ w.files.staging a.id = none
    · obtain ⟨fates, hrun⟩ := create_then_die h hcreate.1 hcreate.2
      have hres := hall fates (by rw [hrun]; trivial)
      rw [hrun] at hres
      have hin : (w.files.setStaging a.id (some [])).staging a.id = some [] := setStaging_self
      refine blocked_not_resumes (w := { w with files := w.files.setStaging a.id (some []) }) h h.row
        (.inl ⟨hcreate.1, ?_⟩) (fun _ hnone => ?_) hres
      · rw [hin]; rfl
      · cases hin.symm.trans hnone
    · have hres := hall [.dies] (by rw [die_at_once h]; trivial)
      rw [die_at_once h] at hres
      refine blocked_not_resumes h h.row ?_ (fun hlast hnone hstored => ?_) hres
      · rcases Nat.eq_zero_or_pos a.receivedBytes with hzero | hpos
        · refine .inl ⟨hzero, Option.isSome_iff_ne_none.2 fun hnone => hcreate ⟨hzero, hnone⟩⟩
        · refine .inr ⟨hpos, Option.not_isSome_iff_eq_none.1 fun hsome => hno ⟨hpos, .inl hsome⟩⟩
      · have hpos : 0 < a.receivedBytes :=
          Nat.pos_of_ne_zero fun hzero => hcreate ⟨hzero, hnone⟩
        exact hno ⟨hpos, .inr ⟨hlast, hstored⟩⟩
  · intro hres fates hcut
    have hmet := (call_sure hinj h ⟨h.row, hs, hres⟩).safe.met fates
    generalize writeTeamAttachmentChunk sha256 c w fates = r at hcut hmet ⊢
    match r, hcut, hmet with
    | (.done b, w', fs), _, ⟨hb, hrow⟩ => exact accepted_resumes h (hb ▸ hrow)
    | (.raised e, w', fs), he, hp => exact pending_resumes hinj h (hp he)
    | (.died, w', fs), _, hp => exact pending_resumes hinj h hp

namespace Upload

/-- The row of the declared upload, with `n` bytes of its content accepted. -/
def row (n : Nat) : Attachment :=
  { id := attachmentId, teamId := "team", fileName := "notes.txt", mediaType := "text/plain",
    byteSize := 32, storageKey := digest content, receivedBytes := n, accepted := content.take n,
    uploadedBy := "alice", createdAt := 1000, expiresAt := 1000 + uploadTtlSeconds }

lemma nextChunk_half :
    NextChunk digest (run (Depot.step digest limits) {} half) (row 16)
      (chunk 16 (content.drop 16)) :=
  ⟨by decide +kernel, rfl, rfl, rfl, by decide, by decide, rfl, rfl, by decide, by decide, by decide,
    fun _ => by decide +kernel⟩

end Upload

/-- The rule at an upload of which half has arrived. -/
theorem interrupted_upload_resumes_half :
    let w := run (Depot.step Upload.digest Upload.limits) {} Upload.half
    let c := Upload.chunk 16 (Upload.content.drop 16)
    NextChunk Upload.digest w (Upload.row 16) c ∧
    ∀ fates, Interrupted (writeTeamAttachmentChunk Upload.digest c w fates).1 →
      Resumes Upload.digest (Upload.row 16) c (writeTeamAttachmentChunk Upload.digest c w fates).2.1 :=
  ⟨Upload.nextChunk_half,
    (interrupted_upload_resumes_iff Upload.digest Upload.digest_injective Upload.limits Upload.half
      (Upload.row 16) (Upload.chunk 16 (Upload.content.drop 16)) Upload.nextChunk_half).2
      ⟨by decide, .inl (by decide +kernel)⟩⟩

/-- A first chunk cut short after its staging file was created: nothing is accepted, and the same
    chunk sent again fails the upload for good. -/
theorem first_chunk_not_resumed :
    let w := run (Depot.step Upload.digest Upload.limits) {} [.declare Upload.declaration []]
    let c := Upload.chunk 0 (Upload.content.take 16)
    let cut := writeTeamAttachmentChunk Upload.digest c w
      [.happens, .happens, .happens, .happens, .dies]
    let again := writeTeamAttachmentChunk Upload.digest c cut.2.1 []
    NextChunk Upload.digest w (Upload.row 0) c ∧ cut.1 = .died ∧
    (cut.2.1.db.find? "team" Upload.attachmentId).map (fun a => (a.state, a.receivedBytes)) =
      some (.uploading, 0) ∧
    again.1 = .raised (.raised
      (unavailable "Attachment upload staging is unsafe; declare it again")) ∧
    (again.2.1.db.find? "team" Upload.attachmentId).map Attachment.state = some .failed := by
  refine ⟨⟨by decide +kernel, rfl, rfl, rfl, by decide, by decide, rfl, rfl, by decide, by decide,
    by decide, by decide⟩, ?_⟩
  decide +kernel

end TeamHub
