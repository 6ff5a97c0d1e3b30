import ZenithBot.TeamHub.AttachmentBytes
import ZenithBot.TeamHub.MessagePrivacy

/-! Who can open the bytes of an attachment. Access is decided on rows, the bytes are shared by digest.
    A row becomes ready in two ways, and only the first one costs its uploader the bytes:

        last chunk of an upload         the uploader has sent all of the content
        declaration of known content    the uploader has named its digest and size

    The history of a run records what each principal has sent. Where a declaration of known content is
    made only by those who already have that content, every ready row is backed by the history, and
    opening one needs the bytes or a message. -/

namespace TeamHub.Mail
open Lib

variable {δ : Type}

/-- What befalls the actions of a call that runs alone. -/
inductive Mishap where
  | happens | fails | dies

def Mishap.fate : Mishap → Fate Binding
  | .happens => .happens
  | .fails => .fails
  | .dies => .dies

/-- A message to be created, with its attachments; `commits` says whether the checks of
    `create_team_message` outside the attachments pass. -/
structure Outgoing where
  message : Message
  recipients : List Recipient
  attachmentIds : List String
  timestamp : Nat
  commits : Bool := true

def Outgoing.binding (o : Outgoing) : Binding :=
  ⟨o.message.teamId, o.message.sender.principalId, o.attachmentIds, o.message.id, o.timestamp, o.commits⟩

/-- Messages and attachments together, with the history of completed uploads: who sent which bytes.
    The attachments and the content of `base` are not used. -/
structure Share (δ : Type) where
  base : Space δ
  depot : Depot := {}
  sent : List (String × Bytes) := []

inductive Act where
  | declare (d : Declaration) (mishaps : List Mishap)
  | writeChunk (c : Chunk) (mishaps : List Mishap)
  | create (o : Outgoing)
  | delete (d : Deletion) (allowed : Bool)
  | purge (p : Purge) (mishaps : List Mishap)

namespace Share

/-- The store as its readers see it. -/
def space (s : Share δ) : Space δ :=
  { s.base with attachments := s.depot.db.attachments, content := s.depot.files.content }

/-- The upload that a chunk completed: its sender, and all bytes accepted of it. -/
def completed (before after : Depot) (c : Chunk) : List (String × Bytes) :=
  match before.db.find? c.teamId c.attachmentId with
  | some a =>
    if a.state = .uploading ∧ a.uploadedBy = c.principalId ∧
        (after.db.find? c.teamId c.attachmentId).any (fun b => b.state = .ready) = true then
      [(c.principalId, a.accepted ++ c.data)]
    else []
  | none => []

def insertRecipients (t : Table Recipient String Recipient.id) :
    List Recipient → Option (Table Recipient String Recipient.id)
  | [] => some t
  | r :: rs => (t.insert? r).bind fun t' => insertRecipients t' rs

/-- `create_team_message`. -/
def create (s : Share δ) (o : Outgoing) : Share δ :=
  match s.base.messages.insert? o.message, insertRecipients s.base.recipients o.recipients with
  | some messages, some recipients =>
    match s.depot.db.bindAttachments o.binding with
    | .ok _ =>
      if o.commits then
        { s with
          base := { s.base with messages := messages, recipients := recipients }
          depot := s.depot.bind o.binding }
      else s
    | .error _ => s
  | _, _ => s

/-- `delete_team_message`; `allowed` says whether the caller may. -/
def delete (s : Share δ) (d : Deletion) (allowed : Bool) : Share δ :=
  let deletable := s.base.messages.rows.any fun m =>
    m.teamId = d.teamId && m.id = d.resourceId && m.kind = .message
  if allowed && deletable && !s.base.deleted d.teamId d.resourceId then
    { s with base := { s.base with deletions := s.base.deletions ++ [d] } }
  else s

/-- The state after a call. -/
def step (sha256 : Bytes → String) (limits : Limits) (s : Share δ) : Act → Share δ
  | .declare d mishaps =>
    { s with depot := s.depot.step sha256 limits (.declare d (mishaps.map Mishap.fate)) }
  | .writeChunk c mishaps =>
    let depot := s.depot.step sha256 limits (.writeChunk c (mishaps.map Mishap.fate))
    { s with depot := depot, sent := s.sent ++ completed s.depot depot c }
  | .create o => s.create o
  | .delete d allowed => s.delete d allowed
  | .purge p mishaps =>
    { s with depot := s.depot.step sha256 limits (.purge p (mishaps.map Mishap.fate)) }

/-! ### The history backs every ready row -/

def HasSent (sha256 : Bytes → String) (s : Share δ) (principalId digest : String) : Prop :=
  ∃ bytes, (principalId, bytes) ∈ s.sent ∧ sha256 bytes = digest

/-- Rows and files agree, and who has a ready row has sent its content. -/
def Honest (sha256 : Bytes → String) (s : Share δ) : Prop :=
  Kept sha256 (fun a => HasSent sha256 s a.uploadedBy a.storageKey) s.depot

/-- Known content is declared only by who already has a ready attachment with it, and no chunk is
    written to an unfinished upload whose wrong bytes were unlinked. -/
def Fair (limits : Limits) (s : Share δ) : Act → Prop
  | .declare d _ => ∀ f, d.fingerprint limits = .ok f → s.depot.db.duplicateReady f d.timestamp = true →
    ∃ a ∈ s.depot.db.attachments.rows, a.uploadedBy = d.principalId ∧ a.state = .ready ∧
      a.storageKey = f.sha256
  | .writeChunk c _ => ∀ a, s.depot.db.find? c.teamId c.attachmentId = some a →
    a.state = .uploading → ∀ x ∈ s.depot.files.discarded, x.1 ≠ a.id
  | .create _ | .delete .. | .purge .. => True

section Steps
variable {sha256 : Bytes → String} {limits : Limits} {s : Share δ}
variable {a : Attachment} {c : Chunk}

lemma HasSent.mono {s' : Share δ} {p d : String} (h : HasSent sha256 s p d)
    (hs : ∀ x ∈ s.sent, x ∈ s'.sent) : HasSent sha256 s' p d := by
  obtain ⟨bytes, hb, hd⟩ := h
  exact ⟨bytes, hs _ hb, hd⟩

/-- The row that the chunk completes. -/
structure Finished (sha256 : Bytes → String) (w : Depot) (c : Chunk) (b : Attachment) : Prop where
  team : b.teamId = c.teamId
  id : b.id = c.attachmentId
  owner : b.uploadedBy = c.principalId
  upload : ∃ a, w.db.find? c.teamId c.attachmentId = some a ∧ a.state = .uploading ∧
    a.uploadedBy = c.principalId ∧ sha256 (a.accepted ++ c.data) = b.storageKey

lemma Finished.hasSent {after : Depot} {b : Attachment}
    (h : Finished sha256 s.depot c b) (hb : b ∈ after.db.attachments) (hready : b.state = .ready) :
    ∃ bytes, (b.uploadedBy, bytes) ∈ completed s.depot after c ∧ sha256 bytes = b.storageKey := by
  obtain ⟨a, hfind, hup, howner, hsha⟩ := h.upload
  refine ⟨a.accepted ++ c.data, ?_, hsha⟩
  have hafter := find?_of_mem hb
  rw [h.team, h.id] at hafter
  unfold completed
  rw [hfind, hafter, h.owner]
  simp [hup, howner, hready]

lemma honest_writeChunk (hinj : Function.Injective sha256) {mishaps : List Mishap}
    (hfair : Fair limits s (.writeChunk c mishaps)) (h : Honest sha256 s) :
    Honest sha256 (s.step sha256 limits (.writeChunk c mishaps)) := by
  -- while the call runs, a ready row is backed by the history so far or is the one completed now
  let R : Attachment → Prop := fun a =>
    HasSent sha256 s a.uploadedBy a.storageKey ∨ Finished sha256 s.depot c a
  have hR : Unbound R := by
    rintro a id (ha | ha)
    · exact .inl ha
    · exact .inr { ha with }
  have hgrants : ChunkGrants sha256 R s.depot c := by
    intro a t hfind howner hup hcompletes
    have hk := List.find?_some hfind
    simp only [Bool.and_eq_true, decide_eq_true_eq] at hk
    rcases hcompletes with hsha | ⟨x, hx, hid⟩
    · exact .inr ⟨hk.1, hk.2, howner, a, hfind, hup, howner, hsha⟩
    · exact absurd hid (hfair a hfind hup x hx)
  have hkept := step_kept (r := .writeChunk c (mishaps.map Mishap.fate)) hinj limits hR hgrants
    ⟨h.1, fun a ha hready => .inl (h.2 a ha hready)⟩
  refine ⟨hkept.1, fun b hb hready => ?_⟩
  rcases hkept.2 b hb hready with hold | hnew
  · exact hold.mono fun _ => List.mem_append_left _
  · obtain ⟨bytes, hbytes, hsha⟩ := hnew.hasSent hb hready
    exact ⟨bytes, List.mem_append_right _ hbytes, hsha⟩

/-- STEP: a fair call keeps every ready row backed by the history. -/
theorem honest_step (hinj : Function.Injective sha256) (s : Share δ) (act : Act)
    (hfair : Fair limits s act) (h : Honest sha256 s) : Honest sha256 (s.step sha256 limits act) := by
  cases act with
  | declare d mishaps =>
    refine step_kept hinj limits (fun _ _ => id) ?_ h
    intro f hf hdup
    obtain ⟨a, ha, howner, hready, hkey⟩ := hfair f hf hdup
    have hsent : HasSent sha256 s a.uploadedBy a.storageKey := h.2 a ha hready
    rw [howner, hkey] at hsent
    exact hsent
  | writeChunk c mishaps => exact honest_writeChunk hinj hfair h
  | create o =>
    show Honest sha256 (s.create o)
    unfold create
    split
    · split
      · split
        · exact h.bind (fun _ _ => id) o.binding
        · exact h
      · exact h
    · exact h
  | delete d allowed =>
    show Honest sha256 (s.delete d allowed)
    unfold delete
    dsimp only
    split <;> exact h
  | purge p mishaps =>
    exact step_kept hinj limits (fun _ _ => id) trivial h

/-- RUN: in every state that fair calls reach, ready rows are backed by the history. -/
theorem honest_run (hinj : Function.Injective sha256) (base : Space δ) (acts : List Act)
    (hfair : Along (step sha256 limits) (Fair limits) { base := base } acts) :
    Honest sha256 (run (step sha256 limits) { base := base } acts) :=
  run_inv_along (honest_step hinj) acts _ hfair ⟨nofun, nofun⟩

lemma bind_binder {w : Depot} {b : Binding} (ha : a ∈ (w.bind b).db.attachments) :
    a ∈ w.db.attachments ∨ a.uploadedBy = b.principalId := by
  rcases w.bind_cases b with hb | ⟨p, hf, hp, hb⟩ <;> rw [hb] at ha
  · exact .inl ha
  · obtain ⟨a', ha', ⟨hpa, rfl⟩ | ⟨_, rfl⟩⟩ := Table.updateWhere_cases ha
    · have hbindable := hp a' ha' hpa
      simp only [Attachment.bindable, Bool.and_eq_true, decide_eq_true_eq] at hbindable
      exact .inr hbindable.1.2
    · exact .inl ha'

lemma create_binder (o : Outgoing) (ha : a ∈ (s.create o).depot.db.attachments) :
    a ∈ s.depot.db.attachments ∨ a.uploadedBy = o.message.sender.principalId := by
  unfold create at ha
  split at ha
  · split at ha
    · split at ha
      · exact bind_binder ha
      · exact .inl ha
    · exact .inl ha
  · exact .inl ha

end Steps

/-- OPEN: whoever opens an attachment after fair calls has sent its content, or may read a message it
    is bound to, and then the uploader has sent it, who alone could bind it. -/
theorem attachment_bytes_earned [DecidableEq δ] (tools : Tools δ)
    (hinj : Function.Injective tools.sha256) (limits : Limits) (base : Space δ) (acts : List Act)
    (hfair : Along (step tools.sha256 limits) (Fair limits) { base := base } acts) :
    let s := run (step tools.sha256 limits) { base := base } acts
    (∀ claims now own teamId attachmentId item bytes,
      s.space.openTeamAttachment tools claims now own teamId attachmentId = .ok (.opened item bytes) →
      HasSent tools.sha256 s claims.principalId item.sha256 ∨
        ∃ messageId response, s.space.getTeamMessage tools claims now teamId messageId false = .ok response ∧
          s.space.deleted teamId messageId = false ∧
          ∃ a ∈ s.depot.db.attachments, a.messageId = some messageId ∧ a.storageKey = item.sha256 ∧
            HasSent tools.sha256 s a.uploadedBy item.sha256) ∧
    ∀ o, ∀ a ∈ (s.create o).depot.db.attachments,
      a ∈ s.depot.db.attachments ∨ a.uploadedBy = o.message.sender.principalId := by
  intro s
  refine ⟨fun claims now own teamId attachmentId item bytes h => ?_, fun o a => create_binder o⟩
  obtain ⟨a, ha, h⟩ := bind_ok h
  obtain ⟨hready, h⟩ := refuse_ok h
  obtain ⟨_, _, h⟩ := bind_ok h
  cases h
  obtain ⟨hfound, hright⟩ := Space.readableAttachment_ok ha
  have hmem : a ∈ s.depot.db.attachments := (Space.attachment?_eq_some hfound).1
  have hsent := (honest_run hinj base acts hfair).2 a hmem (not_not.1 hready)
  rcases hright with ⟨_, hown⟩ | ⟨id, p, hb, hp⟩
  · exact .inl (hown ▸ hsent)
  · have hread : ∃ response, s.space.getTeamMessage tools claims now teamId id false = .ok response := by
      unfold Space.getTeamMessage
      rw [hp]
      exact ⟨_, rfl⟩
    obtain ⟨response, hread⟩ := hread
    exact .inr ⟨id, response, hread, (Space.readable_ok hp).2.2, a, hmem, hb, rfl, hsent⟩

/-- A member declares content by digest and size. -/
def naming (principalId attachmentId : String) : Act :=
  .declare { Upload.declaration with
    principalId := principalId, teamId := "t", attachmentId := attachmentId, timestamp := 100 } []

/-- A member declares content and sends it. -/
def uploading (principalId attachmentId : String) : List Act :=
  [naming principalId attachmentId,
    .writeChunk ⟨principalId, "t", attachmentId, none, 0, 32, Upload.content, 100⟩ []]

def secondId : String := "tatt_" ++ String.ofList (List.replicate 32 '1')

/-- The attachment as it is told once it is ready. -/
def stored (attachmentId : String) : AttachmentPublic :=
  ⟨attachmentId, none, "notes.txt", "text/plain", 32, Upload.digest Upload.content, .ready, 32, 100,
    some 100⟩

/-- The three members, and no message. -/
def quietTeam : Space String := { Space.letter [] with messages := .empty, recipients := .empty }

def hexTools : Tools String := { Space.plainTools with sha256 := Upload.digest }

/-- A member who uploads a file can open it, and has sent it. -/
theorem own_upload_earned :
    Along (step hexTools.sha256 Upload.limits) (Fair Upload.limits) { base := quietTeam }
      (uploading "u1" Upload.attachmentId) ∧
    let s := run (step hexTools.sha256 Upload.limits) { base := quietTeam }
      (uploading "u1" Upload.attachmentId)
    ∃ item, s.space.openTeamAttachment hexTools Space.reader 300 300 "t" Upload.attachmentId =
        .ok (.opened item Upload.content) ∧
      (HasSent hexTools.sha256 s Space.reader.principalId item.sha256 ∨ ∃ messageId response,
        s.space.getTeamMessage hexTools Space.reader 300 "t" messageId false = .ok response ∧
        s.space.deleted "t" messageId = false ∧ ∃ a ∈ s.depot.db.attachments,
          a.messageId = some messageId ∧ a.storageKey = item.sha256 ∧
            HasSent hexTools.sha256 s a.uploadedBy item.sha256) := by
  have fair : Along (step hexTools.sha256 Upload.limits) (Fair Upload.limits) { base := quietTeam }
      (uploading "u1" Upload.attachmentId) := by
    have nothing : (step hexTools.sha256 Upload.limits { base := quietTeam }
      (naming "u1" Upload.attachmentId)).depot.files.discarded = [] := by decide +kernel
    refine ⟨(fun f _ h => nomatch h), fun a _ _ x hx => ?_, trivial⟩
    cases hx
  refine ⟨fair, ?_⟩
  have earned := (attachment_bytes_earned hexTools Upload.digest_injective Upload.limits quietTeam
    (uploading "u1" Upload.attachmentId) fair).1 Space.reader 300 300 "t" Upload.attachmentId
    (stored Upload.attachmentId) Upload.content
  exact ⟨stored Upload.attachmentId, by decide +kernel, earned (by decide +kernel)⟩

/-- Two members: the second uploads a private file, the first names its digest and size and opens it,
    with no message in the team and without having sent a byte. -/
theorem digest_suffices :
    let s := run (step hexTools.sha256 Upload.limits) { base := quietTeam }
      (uploading "u2" Upload.attachmentId ++ [naming "u1" secondId])
    s.space.openTeamAttachment hexTools Space.reader 300 300 "t" secondId =
        .ok (.opened (stored secondId) Upload.content) ∧
      s.sent = [("u2", Upload.content)] ∧ s.space.messages.rows = [] := by
  decide +kernel

end Share

end TeamHub.Mail
