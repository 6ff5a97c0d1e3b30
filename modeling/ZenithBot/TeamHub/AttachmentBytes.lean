import ZenithBot.TeamHub.Attachments

/-! A ready attachment has its bytes. The invariant is a property of one row against the files
    (`RowOk`), so each kind of write to the files or to the table needs one lemma: which rows it can
    touch, and why they stay right. The programs are then followed once, with the tables fixed inside
    a transaction (`inside`); a death or an error at any point leaves the old tables and files that
    suit them.

    Shared content is safe because a digest names one content: whoever renames a file to a name that
    is already there renames the same bytes. -/

namespace TeamHub
open Lib Prog Table List

variable {sha256 : Bytes → String}
variable {bytes : Bytes} {α : Type} {id : String} {a : Attachment} {c : Chunk} {db : Db}
  {path : CleanupPath}

/-! ### The invariant -/

/-- The content file of the row is there, of the declared size and digest. -/
def Stored (sha256 : Bytes → String) (w : Files) (a : Attachment) : Prop :=
  ∃ bytes, w.content a.storageKey = some bytes ∧ bytes.length = a.byteSize ∧
    sha256 bytes = a.storageKey

/-- The bytes begin with the chunks accepted so far. -/
def Attachment.Extended (a : Attachment) (bytes : Bytes) : Prop :=
  bytes.take a.receivedBytes = a.accepted

/-- What was accepted of an upload is in its staging file, or in complete content that was renamed to
    the content name, or in complete bytes that were unlinked because their digest was wrong. -/
def Resumable (sha256 : Bytes → String) (w : Files) (a : Attachment) : Prop :=
  (∃ bytes, w.staging a.id = some bytes ∧ a.Extended bytes) ∨
  (∃ bytes, (a.id, bytes) ∈ w.published ∧ a.Extended bytes ∧ bytes.length = a.byteSize ∧
    sha256 bytes = a.storageKey) ∨
  ∃ bytes, (a.id, bytes) ∈ w.discarded ∧ a.Extended bytes ∧ bytes.length = a.byteSize ∧
    sha256 bytes ≠ a.storageKey

/-- A row and the files agree. -/
structure RowOk (sha256 : Bytes → String) (w : Files) (a : Attachment) : Prop where
  ready : a.state = .ready → Stored sha256 w a
  bound : a.messageId ≠ none → a.state = .ready
  counted : a.state = .uploading → a.accepted.length = a.receivedBytes
  staged : a.state = .uploading → ∀ bytes, w.staging a.id = some bytes → a.Extended bytes
  resumable : a.state = .uploading → 0 < a.receivedBytes → Resumable sha256 w a

/-- Every row and the files agree. -/
def Sound (sha256 : Bytes → String) (w : Depot) : Prop :=
  ∀ a ∈ w.db.attachments, RowOk sha256 w.files a

/-! ### Writes to the table -/

section Rows
variable {w : Depot} {p : Attachment → Bool} {f : Attachment → Attachment}
  {hf : ∀ a, (f a).id = a.id} {b : Binding}

lemma Sound.updateRows (h : Sound sha256 w)
    (hp : ∀ a ∈ w.db.attachments, p a = true → RowOk sha256 w.files (f a)) :
    Sound sha256 { w with db := w.db.updateRows p f hf } := by
  intro a' ha'
  obtain ⟨a, ha, ⟨hpa, rfl⟩ | ⟨_, rfl⟩⟩ := updateWhere_cases ha'
  · exact hp a ha hpa
  · exact h a' ha

lemma Sound.updateRow (h : Sound sha256 w) (ha : a ∈ w.db.attachments)
    (hp : ∀ b, p b = true → b.id = a.id) (hok : RowOk sha256 w.files (f a)) :
    Sound sha256 { w with db := w.db.updateRows p f hf } := by
  refine h.updateRows fun b hb hpb => ?_
  rw [w.db.attachments.eq_of_key hb ha (hp b hpb)]
  exact hok

lemma Db.find?_mem {team : String} (h : db.find? team id = some a) :
    a ∈ db.attachments := mem_of_find?_eq_some h

lemma find?_of_mem (ha : a ∈ db.attachments) : db.find? a.teamId a.id = some a := by
  cases hf : db.find? a.teamId a.id with
  | none =>
    have := find?_eq_none.1 hf a ha
    simp at this
  | some b =>
    have hb := find?_some hf
    simp only [Bool.and_eq_true, decide_eq_true_eq] at hb
    rw [db.attachments.eq_of_key (Db.find?_mem hf) ha hb.2]

lemma bindableRows_ok : ∀ {ids : List String} {rows : List Attachment},
    bindableRows db b ids = .ok rows → ∀ id ∈ ids,
      ∃ a, db.find? b.teamId id = some a ∧ a.bindable b = true
  | [], _, _, id, hid => nomatch hid
  | i :: ids, _, h, id, hid => by
    obtain ⟨a, ha, h⟩ := found_ok h
    obtain ⟨hok, h⟩ := refuse_ok h
    obtain ⟨rest, hrest, _⟩ := bind_ok h
    rcases mem_cons.1 hid with rfl | hid
    · exact ⟨a, ha, by simpa using hok⟩
    · exact bindableRows_ok hrest id hid

lemma Depot.bind_cases (w : Depot) (b : Binding) : w.bind b = w ∨ ∃ p hf,
    (∀ a ∈ w.db.attachments, p a = true → a.bindable b = true) ∧ w.bind b = { w with
      db := w.db.updateRows p (fun a => { a with messageId := some b.messageId }) hf } := by
  unfold Depot.bind
  split
  · rename_i db hdb
    obtain ⟨_, _, hdb⟩ := bind_ok hdb
    obtain ⟨rows, hrows, hdb⟩ := bind_ok hdb
    obtain ⟨_, _, hdb⟩ := bind_ok hdb
    cases hdb
    split
    · refine .inr ⟨_, fun _ => rfl, fun a ha hp => ?_, rfl⟩
      simp only [Bool.and_eq_true, decide_eq_true_eq, contains_iff_mem] at hp
      obtain ⟨x, hx, hbindable⟩ := bindableRows_ok hrows a.id hp.1.1.1.2
      have hfind := find?_of_mem ha
      rw [hp.1.1.1.1, hx] at hfind
      rwa [← Option.some.inj hfind]
    · exact .inl rfl
  · exact .inl rfl

lemma Attachment.bindable_ready (h : a.bindable b = true) : a.state = .ready := by
  simp only [Attachment.bindable, Bool.and_eq_true, decide_eq_true_eq] at h
  exact h.1.1.1.2

/-- BIND: a message binds ready rows only. -/
theorem Sound.bind (h : Sound sha256 w) (b : Binding) : Sound sha256 (w.bind b) := by
  rcases w.bind_cases b with hb | ⟨p, hf, hp, hb⟩ <;> rw [hb]
  · exact h
  · refine h.updateRows fun a ha hpa => ?_
    have hok := h a ha
    have hready := Attachment.bindable_ready (hp a ha hpa)
    exact { hok with bound := fun _ => hready }

lemma enqueue_attachments (timestamp : Nat) (path : α → CleanupPath) (xs : List α) (db : Db) :
    (xs.foldl (fun db x => db.enqueue timestamp (path x)) db).attachments = db.attachments := by
  induction xs generalizing db with
  | nil => rfl
  | cons x xs ih => exact ih (db.enqueue timestamp (path x))

lemma purgeStale_rows {p : Purge} {r : Db × Nat} (h : purgeStale p db = .ok r)
    (ha : a ∈ r.1.attachments) : a ∈ db.attachments := by
  iterate 2 obtain ⟨_, _, h⟩ := bind_ok h
  cases h
  rw [enqueue_attachments p.timestamp CleanupPath.content] at ha
  have hkept := (mem_deleteWhere.1 ha).1
  rwa [enqueue_attachments p.timestamp (fun a : Attachment => CleanupPath.staging a.id)] at hkept

end Rows

/-! ### Writes to the files -/

section FilesOf
variable {w : Files} {a b : Attachment} {w' : Files}

lemma RowOk.frame (h : RowOk sha256 w b)
    (hc : b.state = .ready → w'.content b.storageKey = w.content b.storageKey)
    (hs : w'.staging b.id = w.staging b.id) (hp : ∀ x ∈ w.published, x ∈ w'.published)
    (hd : ∀ x ∈ w.discarded, x ∈ w'.discarded) : RowOk sha256 w' b where
  ready hready := by
    obtain ⟨bytes, hb, hrest⟩ := h.ready hready
    exact ⟨bytes, (hc hready).trans hb, hrest⟩
  bound := h.bound
  counted := h.counted
  staged hup bytes hb := h.staged hup bytes (hs.symm.trans hb)
  resumable hup hpos := by
    rcases h.resumable hup hpos with ⟨x, hx, hext⟩ | ⟨x, hx, hrest⟩ | ⟨x, hx, hrest⟩
    · exact .inl ⟨x, hs.trans hx, hext⟩
    · exact .inr (.inl ⟨x, hp _ hx, hrest⟩)
    · exact .inr (.inr ⟨x, hd _ hx, hrest⟩)

/-- An uploading row whose staging file changes. -/
lemma RowOk.resume (h : RowOk sha256 w a) (hup : a.state = .uploading)
    (hst : ∀ bytes, w'.staging a.id = some bytes → a.Extended bytes) (hr : Resumable sha256 w' a) :
    RowOk sha256 w' a where
  ready hready := by rw [hup] at hready; cases hready
  bound := h.bound
  counted := h.counted
  staged _ := hst
  resumable _ _ := hr

end FilesOf

section Writes
variable {w : Depot} {a : Attachment}

/-- STAGING: the staging file of an uploading row may be rewritten as long as it begins with what was
    accepted. -/
theorem Sound.setStaging (h : Sound sha256 w) (ha : a ∈ w.db.attachments) (hup : a.state = .uploading)
    (hb : a.Extended bytes) :
    Sound sha256 { w with files := w.files.setStaging a.id (some bytes) } := by
  intro b hbm
  by_cases hid : b.id = a.id
  · obtain rfl := w.db.attachments.eq_of_key hbm ha hid
    have hst : (w.files.setStaging b.id (some bytes)).staging b.id = some bytes :=
      Function.update_self ..
    refine (h b ha).resume hup (fun x hx => ?_) (.inl ⟨bytes, hst, hb⟩)
    rwa [← Option.some.inj (hst.symm.trans hx)]
  · exact (h b hbm).frame (fun _ => rfl) (Function.update_of_ne hid ..) (fun _ => id) fun _ => id

lemma mem_append_map {l : List (String × Bytes)} {o : Option Bytes} (h : o = some bytes) :
    (id, bytes) ∈ l ++ o.toList.map (id, ·) := by
  subst h
  exact mem_append_right _ mem_cons_self

lemma removed_staging (staging : String → Option Bytes) (a : Attachment) (bytes : Bytes)
    (h : Function.update staging a.id none a.id = some bytes) : a.Extended bytes := by
  rw [Function.update_self] at h
  cases h

/-- DISCARD: complete bytes with a wrong digest are unlinked. -/
theorem Sound.discard (h : Sound sha256 w) (ha : a ∈ w.db.attachments) (hup : a.state = .uploading)
    (hst : w.files.staging a.id = some bytes) (hb : a.Extended bytes) (hlen : bytes.length = a.byteSize)
    (hsha : sha256 bytes ≠ a.storageKey) :
    Sound sha256 { w with files := w.files.discard a.id } := by
  intro b hbm
  by_cases hid : b.id = a.id
  · obtain rfl := w.db.attachments.eq_of_key hbm ha hid
    exact (h b ha).resume hup (removed_staging _ b)
      (.inr (.inr ⟨bytes, mem_append_map hst, hb, hlen, hsha⟩))
  · exact (h b hbm).frame (fun _ => rfl) (Function.update_of_ne hid ..) (fun _ => id)
      fun _ => mem_append_left _

/-- PUBLISH: verified bytes take the content name. Rows that are ready under that name keep the same
    bytes, for a digest has one content. -/
theorem Sound.publish (hinj : Function.Injective sha256) (h : Sound sha256 w)
    (ha : a ∈ w.db.attachments) (hup : a.state = .uploading) (hst : w.files.staging a.id = some bytes)
    (hb : a.Extended bytes) (hlen : bytes.length = a.byteSize) (hsha : sha256 bytes = a.storageKey) :
    Sound sha256 { w with files := w.files.publish a.id a.storageKey } := by
  intro b hbm
  by_cases hid : b.id = a.id
  · obtain rfl := w.db.attachments.eq_of_key hbm ha hid
    exact (h b ha).resume hup (removed_staging _ b)
      (.inr (.inl ⟨bytes, mem_append_map hst, hb, hlen, hsha⟩))
  · refine (h b hbm).frame (fun hready => ?_) (Function.update_of_ne hid ..)
      (fun _ => mem_append_left _) fun _ => id
    show Function.update w.files.content a.storageKey (w.files.staging a.id) b.storageKey = _
    by_cases hkey : b.storageKey = a.storageKey
    · obtain ⟨old, hold, _, hsha'⟩ := (h b hbm).ready hready
      have same : old = bytes := hinj (by rw [hsha', hkey, hsha])
      rw [hold, hkey, Function.update_self, hst, same]
    · exact Function.update_of_ne hkey ..

lemma publish_stored (hst : w.files.staging a.id = some bytes) (hlen : bytes.length = a.byteSize)
    (hsha : sha256 bytes = a.storageKey) : Stored sha256 (w.files.publish a.id a.storageKey) a :=
  ⟨bytes, (Function.update_self ..).trans hst, hlen, hsha⟩

/-- UNLINK: a file no row needs may go. -/
theorem Sound.unlink (h : Sound sha256 w) (hp : w.db.protects path = false) :
    Sound sha256 { w with files := w.files.unlink path } := by
  intro b hbm
  cases path with
  | staging i =>
    have hne : b.id ≠ i := by
      intro hid
      exact absurd hp (by simpa [Db.protects] using ⟨b, hbm, hid⟩)
    exact (h b hbm).frame (fun _ => rfl) (Function.update_of_ne hne ..) (fun _ => id) fun _ => id
  | content key =>
    refine (h b hbm).frame (fun hready => Function.update_of_ne (fun hkey => ?_) ..) rfl
      (fun _ => id) fun _ => id
    exact absurd hp (by simpa [Db.protects] using ⟨b, hbm, hkey, hready⟩)

end Writes

/-! ### Inside a transaction -/

section Inside
variable {db : Db} {w : Depot} {α β : Type}
variable {Q : β → Depot → Prop} {k : Unit → Task β}

/-- The tables are as the transaction found them, and the files suit them. -/
def Within (sha256 : Bytes → String) (db : Db) (w : Depot) : Prop := w.db = db ∧ Sound sha256 w

/-- Inside a transaction on `db`: `Q` when it goes on, and nothing lost when it stops. -/
def inside (sha256 : Bytes → String) (db : Db) (Q : α → Depot → Prop) : Post Depot Stop α :=
  ⟨fun a w => Within sha256 db w ∧ Q a w, fun _ => Within sha256 db, Within sha256 db⟩

/-- A body whose tables may be committed, or not. -/
def committing (post : Post Depot Stop α) : Post Depot Stop (Db × α) :=
  ⟨fun r w' => post.done r.2 { w' with db := r.1 } ∧ post.raised .io w' ∧ post.died w',
    post.raised, post.died⟩

lemma ensures_transaction {post : Post Depot Stop α} {body : Db → Task (Db × α)}
    (hfail : post.raised .io w) (hdie : post.died w)
    (hbody : (body w.db).Ensures (committing post) w) : (transaction body).Ensures post w := by
  refine attempt_then hfail hdie (read_then (hbody.next ?_))
  rintro r w' ⟨hdone, hraised, hdied⟩
  exact ensures_bind (ensures_act (ensures_pure hdone) hraised hdied)

lemma inside_touch {f : Files → Files} (hw : Within sha256 db w)
    (hk : (k ()).Ensures (inside sha256 db Q) { w with files := f w.files }) :
    (touch f >>= k).Ensures (inside sha256 db Q) w :=
  ensures_bind (ensures_act hk hw hw)

lemma inside_look {f : Files → α} {v : α} {k : α → Task β} (hv : f w.files = v)
    (hk : (k v).Ensures (inside sha256 db Q) w) :
    (onDisk f >>= k).Ensures (inside sha256 db Q) w := by
  refine read_then ?_
  rw [hv]
  exact hk

lemma inside_lift {x : Except Stop α} {k : α → Task β} (hw : Within sha256 db w)
    (hk : ∀ a, x = .ok a → (k a).Ensures (inside sha256 db Q) w) :
    (lift x >>= k).Ensures (inside sha256 db Q) w :=
  ensures_bind (ensures_lift hk fun _ _ => hw)

lemma inside_bind {m : Task α} {P : α → Depot → Prop} {k : α → Task β}
    (hm : m.Ensures (inside sha256 db P) w)
    (hk : ∀ a w', Within sha256 db w' → P a w' → (k a).Ensures (inside sha256 db Q) w') :
    (m >>= k).Ensures (inside sha256 db Q) w :=
  hm.next fun a w' h => hk a w' h.1 h.2

end Inside

/-! ### Reading files -/

section Reading
variable {β : Type} {I : Depot → Prop} {db : Db} {w : Depot} {a : Attachment}
variable {P : α → Depot → Prop} {Q : β → Depot → Prop} {m : Task α}

/-- `I` at every end, and no end is the failure of an upload by a bare `OSError`. -/
def holding (I : Depot → Prop) (Q : α → Depot → Prop) : Post Depot Stop α :=
  ⟨fun r w => I w ∧ Q r w, fun e w => I w ∧ e ≠ .failure .os, I⟩

lemma io_ne_failure : Stop.io ≠ .failure .os := by decide

lemma holding_bind {k : α → Task β} (hm : m.Ensures (holding I P) w)
    (hk : ∀ a w', I w' → P a w' → (k a).Ensures (holding I Q) w') :
    (m >>= k).Ensures (holding I Q) w :=
  hm.next fun a w' h => hk a w' h.1 h.2

lemma verify_reads {file : Files → Option Bytes} {size : Nat} :
    (verifyTeamAttachmentDescriptor sha256 file size).Ensures (holding (· = w) fun digest _ =>
      ∃ bytes, file w.files = some bytes ∧ bytes.length = size ∧ digest = sha256 bytes) w := by
  refine attempt_then ⟨rfl, io_ne_failure⟩ rfl (read_then ?_)
  refine ensures_bind (ensures_lift (fun bytes hbytes => ?_) fun e he => ?_)
  · refine refuse_then ⟨rfl, io_ne_failure⟩ fun hsize => ?_
    exact attempt_then ⟨rfl, io_ne_failure⟩ rfl (ensures_pure ⟨rfl, bytes, getOr_ok hbytes, not_not.1 hsize, rfl⟩)
  · exact getOr_errors (P := fun e => w = w ∧ e ≠ .failure .os) ⟨rfl, io_ne_failure⟩ e he

lemma stagingAbsent_reads :
    (teamAttachmentStagingAbsent id).Ensures
      (holding (· = w) fun absent _ => absent = (w.files.staging id).isNone) w :=
  attempt_then ⟨rfl, io_ne_failure⟩ rfl (ensures_read ⟨rfl, rfl⟩)

lemma blob_reads :
    (openVerifiedTeamAttachmentBlob sha256 a.storageKey a.byteSize).Ensures
      (holding (· = w) fun _ _ => Stored sha256 w.files a) w := by
  refine holding_bind verify_reads ?_
  rintro digest w rfl ⟨bytes, hbytes, hlen, rfl⟩
  exact ensures_refuse (fun _ => ⟨rfl, io_ne_failure⟩)
    fun hsha => ⟨rfl, bytes, hbytes, hlen, not_not.1 hsha⟩

lemma succeeds_reads {m : Task Unit} {P : Prop} (hm : m.Ensures (holding (· = w) fun _ _ => P) w) :
    (succeeds m).Ensures (holding (· = w) fun b _ => b = true → P) w := by
  refine ensures_handle (hm.bind ?_ ?_ fun _ => id)
  · rintro _ w' ⟨rfl, hp⟩
    exact ensures_pure ⟨rfl, fun _ => hp⟩
  · rintro e w' ⟨rfl, he⟩
    show Ensures (if _ then _ else _) _ _
    split
    · exact ensures_pure ⟨rfl, by simp⟩
    · exact ensures_raise ⟨rfl, he⟩

lemma succeeds_always {m : Task Unit} {P : Depot → Prop} (hm : m.Ensures (.always P) w) :
    (succeeds m).Ensures (.always P) w := by
  refine ensures_handle (hm.bind (fun _ _ h => ensures_pure h) (fun e w' h => ?_) fun _ => id)
  show Ensures (if _ then _ else _) _ _
  split
  · exact ensures_pure h
  · exact ensures_raise h

lemma holding_of_reads (hm : m.Ensures (holding (· = w) P) w) (hw : I w) :
    m.Ensures (holding I fun r w' => w' = w ∧ P r w') w := by
  refine hm.mono ?_ ?_ ?_
  · rintro r w' ⟨rfl, hp⟩
    exact ⟨hw, rfl, hp⟩
  · rintro e w' ⟨rfl, he⟩
    exact ⟨hw, he⟩
  · rintro w' rfl
    exact hw

lemma inside_of_reads (hm : m.Ensures (holding (· = w) P) w) (hw : Within sha256 db w) :
    m.Ensures (inside sha256 db fun r w' => w' = w ∧ P r w') w :=
  (holding_of_reads hm hw).mono (fun _ _ => id) (fun _ _ h => h.1) fun _ => id

/-- The content is there and ends with the chunk, and nothing is staged. -/
structure Replayed (sha256 : Bytes → String) (w : Files) (a : Attachment) (c : Chunk) : Prop where
  stored : Stored sha256 w a
  unstaged : w.staging a.id = none
  agrees : (((w.content a.storageKey).getD []).drop c.offset).take c.data.length = c.data

/-- A replay is only recognised when nothing is staged and the content is there; looking for it
    changes nothing. -/
lemma replayed_reads :
    (replayedFinalChunk sha256 a c).Ensures
      (holding (· = w) fun b _ => b = true → Replayed sha256 w.files a c) w := by
  refine holding_bind stagingAbsent_reads ?_
  rintro absent w' rfl habsent
  cases absent with
  | false => exact ensures_pure ⟨rfl, by simp⟩
  | true =>
    refine holding_bind (succeeds_reads blob_reads) ?_
    rintro verified w rfl hstored
    cases verified with
    | false => exact ensures_pure ⟨rfl, by simp⟩
    | true =>
      refine attempt_then ⟨rfl, io_ne_failure⟩ rfl (read_then (holding_bind stagingAbsent_reads ?_))
      rintro _ w' rfl -
      refine ensures_pure ⟨rfl, fun hb => ⟨hstored rfl, ?_, ?_⟩⟩
      · exact Option.isNone_iff_eq_none.1 habsent.symm
      · exact of_decide_eq_true (Bool.and_eq_true_iff.1 hb).1

end Reading

/-! ### Uploading -/

section Uploading
variable {db : Db} {w : Depot} {a : Attachment} {c : Chunk}

lemma setStaging_self {w : Files} {bytes : Option Bytes} :
    (w.setStaging id bytes).staging id = bytes := Function.update_self ..

/-- Bytes that begin with what was accepted are at least as long. -/
lemma Attachment.Extended.append (hcount : a.accepted.length = a.receivedBytes) (data : Bytes) :
    a.Extended (a.accepted ++ data) := by
  unfold Attachment.Extended
  rw [← hcount, take_left]

lemma writeByte_append {w : Files} {written : Bytes} {b : UInt8}
    (hcount : a.accepted.length = a.receivedBytes)
    (hst : w.staging a.id = some (a.accepted ++ written)) :
    w.writeByte a.id (a.receivedBytes + written.length) b =
      w.setStaging a.id (some (a.accepted ++ (written ++ [b]))) := by
  have hlen : (a.accepted ++ written).length = a.receivedBytes + written.length := by
    rw [length_append, hcount]
  simp only [Files.writeByte, hst, Option.getD_some, ← hlen, take_length]
  rw [drop_eq_nil_of_le (Nat.le_succ _), append_assoc]

lemma receive_extended (hcount : a.accepted.length = a.receivedBytes) (data : Bytes) :
    (a.receive data).Extended (a.accepted ++ data) := by
  show take (a.receivedBytes + data.length) (a.accepted ++ data) = a.accepted ++ data
  rw [← hcount, ← length_append, take_length]

lemma RowOk.receive (hok : RowOk sha256 w.files a) (hup : a.state = .uploading) {data : Bytes}
    (hst : w.files.staging a.id = some (a.accepted ++ data)) :
    RowOk sha256 w.files (a.receive data) where
  ready hready := by cases hup.symm.trans hready
  bound := hok.bound
  counted _ := by
    show (a.accepted ++ data).length = a.receivedBytes + data.length
    rw [length_append, hok.counted hup]
  staged _ bytes hb := by
    rw [← Option.some.inj (hst.symm.trans hb)]
    exact receive_extended (hok.counted hup) data
  resumable _ _ := .inl ⟨_, hst, receive_extended (hok.counted hup) data⟩

lemma RowOk.becomeReady {t : Nat} (hst : Stored sha256 w.files a) :
    RowOk sha256 w.files (a.ready t) where
  ready _ := hst
  bound _ := rfl
  counted h := by cases h
  staged h := by cases h
  resumable h := by cases h

/-- The chunk completes the content the upload was declared for; or it follows bytes that were
    unlinked before. -/
def Completes (sha256 : Bytes → String) (w : Files) (a : Attachment) (c : Chunk) : Prop :=
  sha256 (a.accepted ++ c.data) = a.storageKey ∨ ∃ x ∈ w.discarded, x.1 = a.id

/-- The tables after a chunk: sound, and no row is newly ready but the completed one. -/
structure ChunkDone (sha256 : Bytes → String) (db : Db) (a : Attachment) (earned : Prop)
    (db' : Db) (w : Depot) : Prop where
  sound : Sound sha256 { w with db := db' }
  ready : ∀ b ∈ db'.attachments, b.state = .ready → b ∈ db.attachments ∨ (∃ t, b = a.ready t) ∧ earned

lemma ChunkDone.mono {earned earned' : Prop} {db' : Db} (h : ChunkDone sha256 db a earned db' w)
    (himp : earned → earned') : ChunkDone sha256 db a earned' db' w :=
  ⟨h.sound, fun b hb hready => (h.ready b hb hready).imp_right (And.imp_right himp)⟩

lemma markTeamAttachmentReady_ensures {t : Nat} {earned : Prop} (hw : Within sha256 db w)
    (ha : a ∈ db.attachments) (hst : Stored sha256 w.files a) (he : earned) :
    (markTeamAttachmentReady db a t).Ensures
      (inside sha256 db fun r => ChunkDone sha256 db a earned r.1) w := by
  refine refuse_then hw fun _ => ensures_pure ⟨hw, ?_⟩
  obtain ⟨rfl, hs⟩ := hw
  have only : ∀ b : Attachment, (decide (b.id = a.id) && decide (b.state = .uploading)) = true →
      b.id = a.id := fun b hb => by simpa using (Bool.and_eq_true_iff.1 hb).1
  refine ⟨hs.updateRow ha only (.becomeReady hst), fun b hb _ => ?_⟩
  obtain ⟨b', hb', ⟨hp, rfl⟩ | ⟨_, rfl⟩⟩ := updateWhere_cases hb
  · rw [w.db.attachments.eq_of_key hb' ha (only b' hp)]
    exact .inr ⟨⟨t, rfl⟩, he⟩
  · exact .inl hb'

/-- A replay is earned: the content begins with what was accepted and ends with the chunk. -/
lemma Replayed.completes (hinj : Function.Injective sha256) (hok : RowOk sha256 w.files a)
    (hup : a.state = .uploading) (hr : Replayed sha256 w.files a c) (hoff : c.offset = a.receivedBytes)
    (hlast : a.receivedBytes + c.data.length = a.byteSize) : Completes sha256 w.files a c := by
  obtain ⟨bytes, hbytes, hlen, hsha⟩ := hr.stored
  have hdata : bytes.drop a.receivedBytes = c.data := by
    have hagrees := hr.agrees
    rw [hbytes, Option.getD_some, hoff, take_of_length_le] at hagrees
    · exact hagrees
    · rw [length_drop]
      omega
  have earned : bytes.take a.receivedBytes = a.accepted → Completes sha256 w.files a c := by
    intro htake
    left
    rw [← htake, ← hdata, take_append_drop, hsha]
  rcases Nat.eq_zero_or_pos a.receivedBytes with hzero | hpos
  · have hnil := eq_nil_of_length_eq_zero ((hok.counted hup).trans hzero)
    exact earned (by rw [hzero, hnil, take_zero])
  · rcases hok.resumable hup hpos with ⟨x, hx, _⟩ | ⟨x, _, hext, _, hsha'⟩ | ⟨x, hx, _⟩
    · rw [hr.unstaged] at hx
      cases hx
    · exact earned (by rw [hinj (hsha.trans hsha'.symm)]; exact hext)
    · exact .inr ⟨_, hx, rfl⟩

variable (hinj : Function.Injective sha256) (hw : Within sha256 db w) (ha : a ∈ db.attachments)
  (hup : a.state = .uploading)

section
include hw ha hup

lemma Within.setStaging (hb : a.Extended bytes) :
    Within sha256 db { w with files := w.files.setStaging a.id (some bytes) } :=
  ⟨hw.1, hw.2.setStaging (hw.1 ▸ ha) hup hb⟩

lemma openStagingFile_ensures :
    (openStagingFile a.id a.receivedBytes).Ensures
      (inside sha256 db fun _ w' => ∃ bytes, w'.files.staging a.id = some bytes) w := by
  refine inside_look rfl ?_
  split
  · rename_i hzero
    refine refuse_then hw fun _ => ?_
    have hcount := (hw.2 a (hw.1 ▸ ha)).counted hup
    have hnil : a.Extended [] := by
      rw [Attachment.Extended, take_nil, eq_nil_of_length_eq_zero (hcount.trans hzero)]
    exact ensures_act ⟨hw.setStaging ha hup hnil, [], setStaging_self⟩ hw hw
  · refine ensures_refuse (fun _ => hw) fun hsome => ⟨hw, ?_⟩
    exact Option.ne_none_iff_exists'.1 (by simpa using hsome)

lemma cutStagingFile_ensures (hst : w.files.staging a.id = some bytes) :
    (cutStagingFile a.id a.receivedBytes).Ensures
      (inside sha256 db fun _ w' => w'.files.staging a.id = some a.accepted) w := by
  have hok := hw.2 a (hw.1 ▸ ha)
  have hcut : bytes.take a.receivedBytes = a.accepted := hok.staged hup bytes hst
  refine inside_look (v := bytes) (by rw [hst]; rfl) ?_
  split
  · rw [hcut]
    have hw' := hw.setStaging ha hup (by simpa using Attachment.Extended.append (hok.counted hup) [])
    exact ensures_act ⟨hw', setStaging_self⟩ hw hw
  · refine ensures_refuse (fun _ => hw) fun _ => ⟨hw, ?_⟩
    rw [take_of_length_le (by omega)] at hcut
    exact hst.trans (congrArg some hcut)

/-- The staging file of an upload, opened: it holds what was accepted and nothing else. -/
lemma openTeamAttachmentStaging_ensures :
    (openTeamAttachmentStaging a.id a.receivedBytes).Ensures
      (inside sha256 db fun _ w' => w'.files.staging a.id = some a.accepted) w := by
  refine attempt_then hw hw (inside_bind (openStagingFile_ensures hw ha hup) ?_)
  rintro _ w hw ⟨bytes, hst⟩
  refine attempt_then hw hw (inside_bind (cutStagingFile_ensures hw ha hup hst) ?_)
  intro _ w hw hst
  exact ensures_attempt ⟨hw, hst⟩ hw hw

end

include ha hup in
/-- WRITE: after any number of bytes the file is what was accepted and those bytes. -/
theorem writeAll_ensures (hcount : a.accepted.length = a.receivedBytes) :
    ∀ (data written : Bytes) {w : Depot},
    Within sha256 db w → w.files.staging a.id = some (a.accepted ++ written) →
      (writeAll a.id (a.receivedBytes + written.length) data).Ensures
        (inside sha256 db fun _ w' => w'.files.staging a.id = some (a.accepted ++ (written ++ data))) w
  | [], written, w, hw, hst => ensures_pure ⟨hw, by rw [append_nil]; exact hst⟩
  | b :: data, written, w, hw, hst => by
    have hfile := writeByte_append (b := b) hcount hst
    refine inside_touch hw ?_
    rw [hfile]
    have hw' := hw.setStaging ha hup (.append hcount (written ++ [b]))
    have next := writeAll_ensures hcount data (written ++ [b]) hw' setStaging_self
    simpa [Nat.add_assoc] using next

include hinj hw ha hup

/-- The complete staging file is renamed, or unlinked, or left. -/
lemma publishTeamAttachment_ensures (hst : w.files.staging a.id = some bytes)
    (hb : a.Extended bytes) :
    (publishTeamAttachment sha256 a).Ensures (inside sha256 db fun _ w' =>
      Stored sha256 w'.files a ∧ sha256 bytes = a.storageKey) w := by
  refine inside_bind (P := fun digest w' => w' = w ∧ bytes.length = a.byteSize ∧
    digest = sha256 bytes) ?_ ?_
  · refine ensures_handle ((inside_of_reads verify_reads hw).mono ?_
      (fun _ _ hw' => ensures_raise hw') fun _ => id)
    rintro digest w' ⟨hw', rfl, bytes', hbytes', hlen, rfl⟩
    obtain rfl : bytes = bytes' := Option.some.inj (hst.symm.trans hbytes')
    exact ⟨hw', rfl, hlen, rfl⟩
  rintro digest w hw ⟨rfl, hlen, rfl⟩
  have ha' : a ∈ w.db.attachments := hw.1 ▸ ha
  split
  · rename_i hsha
    have hw' : Within sha256 db { w with files := w.files.discard a.id } :=
      ⟨hw.1, hw.2.discard ha' hup hst hb hlen hsha⟩
    have hunlink : (unlinkOpenTeamAttachmentStaging a.id).Ensures (.always (Within sha256 db)) w :=
      attempt_then hw hw (ensures_bind (ensures_act (ensures_attempt hw' hw' hw') hw hw))
    exact (succeeds_always hunlink).bind (fun _ _ h => ensures_bind (ensures_raise h)) (fun _ _ => id)
      fun _ => id
  · rename_i hsha
    rw [not_not] at hsha
    refine attempt_then hw hw (inside_touch hw ?_)
    have hw' : Within sha256 db { w with files := w.files.publish a.id a.storageKey } :=
      ⟨hw.1, hw.2.publish hinj ha' hup hst hb hlen hsha⟩
    exact ensures_attempt ⟨hw', publish_stored hst hlen hsha, hsha⟩ hw' hw'

lemma appendChunk_ensures :
    (appendChunk sha256 db a c).Ensures (inside sha256 db fun r =>
      ChunkDone sha256 db a (sha256 (a.accepted ++ c.data) = a.storageKey) r.1) w := by
  have hcount := (hw.2 a (hw.1 ▸ ha)).counted hup
  refine inside_bind (P := fun _ w' => w'.files.staging a.id = some a.accepted) ?_ ?_
  · refine ensures_handle ((openTeamAttachmentStaging_ensures hw ha hup).mono (fun _ _ => id) ?_
      fun _ => id)
    exact fun _ _ hw' => ensures_raise hw'
  intro _ w hw hst
  have hwrite := writeAll_ensures ha hup hcount c.data [] hw (by rw [append_nil]; exact hst)
  refine inside_bind hwrite ?_
  intro _ w hw hst
  refine attempt_then hw hw ?_
  split
  · refine ensures_pure ⟨hw, ?_⟩
    obtain ⟨rfl, hs⟩ := hw
    refine ⟨hs.updateRow ha (fun b hb => by simpa using hb) ((hs a ha).receive hup hst), ?_⟩
    intro b hb hready
    obtain ⟨b', hb', ⟨hid, rfl⟩ | ⟨_, rfl⟩⟩ := updateWhere_cases hb
    · -- the row that received the chunk is still uploading
      rw [w.db.attachments.eq_of_key hb' ha (by simpa using hid)] at hready
      cases hup.symm.trans hready
    · exact .inl hb'
  · refine inside_bind (publishTeamAttachment_ensures hinj hw ha hup hst (.append hcount c.data)) ?_
    rintro _ w hw ⟨hstored, hsha⟩
    exact markTeamAttachmentReady_ensures hw ha hstored hsha

lemma uploadChunk_ensures :
    (uploadChunk sha256 db a c).Ensures (inside sha256 db fun r =>
      ChunkDone sha256 db a (Completes sha256 w.files a c) r.1) w := by
  refine inside_bind (P := fun b w' => b = true →
    Stored sha256 w'.files a ∧ Completes sha256 w.files a c) ?_ ?_
  · split
    · rename_i hlast
      refine (inside_of_reads replayed_reads hw).imp ?_
      rintro b w ⟨hw, rfl, hr⟩
      refine ⟨hw, fun hb => ⟨(hr hb).stored, ?_⟩⟩
      exact (hr hb).completes hinj (hw.2 a (hw.1 ▸ ha)) hup hlast.1 hlast.2
    · exact ensures_pure ⟨hw, by simp⟩
  intro replayed w' hw' hst
  split
  · exact markTeamAttachmentReady_ensures hw' ha (hst ‹_›).1 (hst ‹_›).2
  split
  · exact ensures_pure ⟨hw', by obtain ⟨rfl, hs⟩ := hw'; exact hs, fun b hb _ => .inl hb⟩
  · refine refuse_then hw' fun _ => refuse_then hw' fun _ => ?_
    refine (appendChunk_ensures hinj hw' ha hup).imp fun r w'' h => ⟨h.1, h.2.mono .inl⟩

end Uploading

/-! ### The calls -/

/-- Every ready row meets `R`. -/
def Backed (R : Attachment → Prop) (w : Depot) : Prop :=
  ∀ a ∈ w.db.attachments, a.state = .ready → R a

/-- What every call keeps: rows and files agree, and ready rows meet `R`. -/
def Kept (sha256 : Bytes → String) (R : Attachment → Prop) (w : Depot) : Prop :=
  Sound sha256 w ∧ Backed R w

/-- A property of rows that does not depend on the message they are bound to. -/
def Unbound (R : Attachment → Prop) : Prop := ∀ a id, R a → R { a with messageId := some id }

section Calls
variable {w : Depot} {R : Attachment → Prop} {d : Declaration}

lemma Within.kept {w' : Depot} (hw : Within sha256 w.db w') (h : Kept sha256 R w) :
    Kept sha256 R w' := ⟨hw.2, by unfold Backed; rw [hw.1]; exact h.2⟩

/-- Fewer rows and other tombstones. -/
lemma Kept.fewer (h : Kept sha256 R w) (hdb : ∀ a ∈ db.attachments, a ∈ w.db.attachments) :
    Kept sha256 R { w with db := db } :=
  ⟨fun a ha => h.1 a (hdb a ha), fun a ha => h.2 a (hdb a ha)⟩

lemma Kept.bind (hR : Unbound R) (h : Kept sha256 R w) (b : Binding) :
    Kept sha256 R (w.bind b) := by
  refine ⟨h.1.bind b, ?_⟩
  rcases w.bind_cases b with hb | ⟨p, hf, _, hb⟩ <;> rw [hb]
  · exact h.2
  · exact forall_updateWhere h.2 fun a ha hready => hR a _ (ha hready)

lemma kept_transaction {body : Db → Task (Db × α)} (h : Kept sha256 R w)
    (hbody : (body w.db).Ensures (inside sha256 w.db fun r w' => Kept sha256 R { w' with db := r.1 }) w) :
    (transaction body).Ensures (.always (Kept sha256 R)) w :=
  ensures_transaction h h (hbody.mono (fun _ _ hr => ⟨hr.2, hr.1.kept h, hr.1.kept h⟩)
    (fun _ _ hw => hw.kept h) fun _ hw => hw.kept h)

/-- The row of a declaration: ready if the content was verified, empty otherwise. -/
lemma Declaration.row_ok {w : Files} {f : Fingerprint} {stored : Bool}
    (hst : stored = true → Stored sha256 w (d.row f true)) : RowOk sha256 w (d.row f stored) := by
  cases stored with
  | true => exact ⟨fun _ => hst rfl, fun h => absurd rfl h, nofun, nofun, nofun⟩
  | false => exact ⟨nofun, fun h => absurd rfl h, fun _ => rfl, fun _ _ _ => rfl,
      fun _ h => absurd h (Nat.lt_irrefl 0)⟩

lemma declareTeamAttachment_kept {limits : Limits} (h : Kept sha256 R w)
    (hd : ∀ f, d.fingerprint limits = .ok f → w.db.duplicateReady f d.timestamp = true →
      R (d.row f true)) :
    (declareTeamAttachment sha256 limits d).Ensures (.always (Kept sha256 R)) w := by
  refine ensures_bind (ensures_lift (fun f hf => ?_) fun _ _ => h)
  refine attempt_then h h (kept_transaction h ?_)
  have hw : Within sha256 w.db w := ⟨rfl, h.1⟩
  refine inside_lift hw fun _ _ => inside_lift hw fun cached _ => ?_
  cases cached with
  | some response => exact refuse_then hw fun _ => ensures_pure ⟨hw, h⟩
  | none =>
    refine refuse_then hw fun _ => ?_
    refine inside_bind (P := fun b w' => b = true → Stored sha256 w'.files (d.row f true) ∧
      w.db.duplicateReady f d.timestamp = true) ?_ ?_
    · split
      · rename_i hdup
        refine (inside_of_reads (succeeds_reads (blob_reads (a := d.row f true))) hw).imp ?_
        rintro b w ⟨hw, rfl, hb⟩
        exact ⟨hw, fun ht => ⟨hb ht, hdup⟩⟩
      · exact ensures_pure ⟨hw, by simp⟩
    intro stored w' hw' hst
    refine inside_lift hw' fun t ht => ensures_pure ⟨hw', ?_⟩
    constructor
    · intro a ha
      rcases (mem_insert? (getOr_ok ht)).1 ha with hold | rfl
      · exact hw'.2 a (hw'.1 ▸ hold)
      · exact Declaration.row_ok fun hs => (hst hs).1
    · intro a ha hready
      rcases (mem_insert? (getOr_ok ht)).1 ha with hold | rfl
      · exact h.2 a hold hready
      · cases stored with
        | true => exact hd f (mapError_ok hf) (hst rfl).2
        | false => cases hready

/-- CHUNK: a call for a chunk keeps what its transaction, a message and the record of a failure
    keep. -/
theorem writeTeamAttachmentChunk_keeps {P : Depot → Prop} (h : P w)
    (hlocked : (writeTeamAttachmentChunkLocked sha256 c).Ensures (.always P) w)
    (hbind : ∀ w b, P w → P (w.bind b)) (hfailed : ∀ w, P w → P { w with
      db := w.db.updateRows c.isUploading (fun a => { a with state := .failed }) fun _ => rfl }) :
    (writeTeamAttachmentChunk sha256 c).Ensures (.always P) w := by
  refine refuse_then h fun _ => refuse_then h fun _ => refuse_then h fun _ => attempt_then h h ?_
  refine ensures_handle (hlocked.mono (fun _ _ => id) ?_ fun _ => id)
  intro e w h
  cases e with
  | raised e => exact ensures_raise h
  | failure e =>
    refine always_then (ensures_yield hbind (fun _ => id) h) fun _ w h => ?_
    exact always_then (ensures_transaction h h (ensures_pure ⟨hfailed w h, h, h⟩)) fun _ w h =>
      ensures_raise h

lemma Chunk.isUploading_state (h : c.isUploading a = true) : a.state = .uploading := by
  simp only [Chunk.isUploading, Bool.and_eq_true, decide_eq_true_eq] at h
  exact h.2

/-- The chunk makes only such rows ready as meet `R`. -/
def ChunkGrants (sha256 : Bytes → String) (R : Attachment → Prop) (w : Depot) (c : Chunk) : Prop :=
  ∀ a t, w.db.find? c.teamId c.attachmentId = some a → a.uploadedBy = c.principalId →
    a.state = .uploading → Completes sha256 w.files a c → R (a.ready t)

lemma writeTeamAttachmentChunkLocked_kept (hinj : Function.Injective sha256) (h : Kept sha256 R w)
    (hc : ChunkGrants sha256 R w c) :
    (writeTeamAttachmentChunkLocked sha256 c).Ensures (.always (Kept sha256 R)) w := by
  refine kept_transaction h ?_
  have hw : Within sha256 w.db w := ⟨rfl, h.1⟩
  refine inside_lift hw fun _ _ => inside_lift hw fun a ha => ?_
  have hfind := getOr_ok ha
  refine refuse_then hw fun howner => refuse_then hw fun _ => refuse_then hw fun _ => ?_
  split
  · exact refuse_then hw fun _ => ensures_pure ⟨hw, h⟩
  · exact ensures_raise hw
  · rename_i hup
    refine (uploadChunk_ensures hinj hw (Db.find?_mem hfind) hup).imp fun r w' hr => ⟨hr.1, hr.2.sound, ?_⟩
    intro b hb hready
    rcases hr.2.ready b hb hready with hold | ⟨⟨t, rfl⟩, hearned⟩
    · exact h.2 b hold hready
    · exact hc a t hfind (not_not.1 howner) hup hearned

lemma writeTeamAttachmentChunk_kept (hinj : Function.Injective sha256) (hR : Unbound R)
    (h : Kept sha256 R w) (hc : ChunkGrants sha256 R w c) :
    (writeTeamAttachmentChunk sha256 c).Ensures (.always (Kept sha256 R)) w := by
  refine writeTeamAttachmentChunk_keeps h (writeTeamAttachmentChunkLocked_kept hinj h hc)
    (fun _ b h => h.bind hR b) fun w h => ⟨h.1.updateRows fun a ha hp => ?_, ?_⟩
  · have hok := h.1 a ha
    have hfree : a.messageId = none := by
      by_contra hb
      cases (Chunk.isUploading_state hp).symm.trans (hok.bound hb)
    exact ⟨nofun, fun hb => absurd hfree hb, nofun, nofun, nofun⟩
  · intro a' ha' hready
    obtain ⟨a, ha, ⟨_, rfl⟩ | ⟨_, rfl⟩⟩ := updateWhere_cases ha'
    · cases hready
    · exact h.2 a' ha hready

/-- Binding needs no new file and frees none. -/
lemma bind_protects (b : Binding) (path : CleanupPath) :
    (w.bind b).db.protects path = w.db.protects path := by
  rcases w.bind_cases b with hb | ⟨p, hf, _, hb⟩ <;> rw [hb]
  cases path <;> simp only [Db.protects, Db.updateRows, Table.updateWhere, any_map] <;>
    congr 1 <;> funext a <;> dsimp only [Function.comp] <;> split <;> rfl

/-- What every write of the collector keeps, and every message. -/
structure Collects (P : Depot → Prop) : Prop where
  bind : ∀ w b, P w → P (w.bind b)
  unlink : ∀ w path, P w → w.db.protects path = false →
    P { w with files := w.files.unlink path }
  retire : ∀ w completed failed, P w → P { w with db := w.db.retire completed failed }

section Collecting
variable {P : Depot → Prop} (hP : Collects P)
include hP

lemma unlinkTeamAttachmentCleanupPath_keeps (h : P w) (hp : w.db.protects path = false) :
    (unlinkTeamAttachmentCleanupPath path).Ensures (.always P) w := by
  refine refuse_then h fun _ => attempt_then h h (read_then ?_)
  split
  · have h' := hP.unlink w path h hp
    exact attempt_then h h (ensures_bind (ensures_act (ensures_attempt h' h' h') h h))
  · exact ensures_attempt h h h

/-- COLLECT: what a round unlinks was not needed when it looked, and no binding made it so. -/
theorem drainOne_keeps (acc : List CleanupPath × List CleanupPath) (path : CleanupPath) (h : P w) :
    (drainOne acc path).Ensures (.always P) w := by
  refine always_then (ensures_yield hP.bind (fun _ => id) h) fun _ w h => ?_
  split
  · exact ensures_pure h
  refine read_then ?_
  split
  · exact ensures_pure h
  · rename_i hp
    refine ensures_bind (ensures_yield (P := fun w => P w ∧ w.db.protects path = false)
      (fun w b hs => ?_) ?_ ⟨h, by simpa using hp⟩)
    · exact ⟨hP.bind w b hs.1, (bind_protects b path).trans hs.2⟩
    · intro w hs
      refine always_then (succeeds_always (unlinkTeamAttachmentCleanupPath_keeps hP hs.1 hs.2)) ?_
      intro b w h
      split <;> exact ensures_pure h

lemma drainTeamAttachmentCleanupQueue_keeps (limit : Nat) (h : P w) :
    (drainTeamAttachmentCleanupQueue limit).Ensures (.always P) w := by
  refine attempt_then h h (read_then ?_)
  refine always_then (ensures_forEach (I := fun _ => P)
    (fun path _ acc w h => drainOne_keeps hP acc path h) (fun _ _ => id) h) fun acc w h => ?_
  refine always_then (ensures_yield hP.bind (fun _ => id) h) fun _ w h => ?_
  split
  · exact ensures_transaction h h (ensures_pure ⟨hP.retire w acc.1 acc.2 h, h, h⟩)
  · exact ensures_pure h

/-- RECLAIM: a reclamation keeps what its transaction and the collector keep. -/
theorem purgeExpiredTeamAttachments_keeps (p : Purge) (h : P w)
    (hstale : ∀ r, purgeStale p w.db = .ok r → P { w with db := r.1 }) :
    (purgeExpiredTeamAttachments p).Ensures (.always P) w := by
  refine refuse_then h fun _ => attempt_then h h ?_
  refine always_then (ensures_transaction h h ?_) fun _ w h => ?_
  · exact ensures_lift (fun r hr => ⟨hstale r hr, h, h⟩) fun _ _ => h
  refine always_then (ensures_yield hP.bind (fun _ => id) h) fun _ w h => ?_
  exact always_then (drainTeamAttachmentCleanupQueue_keeps hP _ h) fun _ w h => ensures_pure h

end Collecting

lemma Kept.collects (hR : Unbound R) : Collects (Kept sha256 R) where
  bind _ b h := h.bind hR b
  unlink _ _ h hp := ⟨h.1.unlink hp, h.2⟩
  retire _ _ _ h := h

end Calls

/-! ### Runs -/

/-- The call makes only such rows ready as meet `R`. -/
def Grants (sha256 : Bytes → String) (limits : Limits) (R : Attachment → Prop) (w : Depot) :
    Request → Prop
  | .declare d _ => ∀ f, d.fingerprint limits = .ok f →
    w.db.duplicateReady f d.timestamp = true → R (d.row f true)
  | .writeChunk c _ => ChunkGrants sha256 R w c
  | .bind _ | .purge _ _ => True

/-- STEP: every call keeps rows and files together, whatever befalls it. -/
theorem step_kept (hinj : Function.Injective sha256) (limits : Limits) {R : Attachment → Prop}
    (hR : Unbound R) {w : Depot} {r : Request} (hr : Grants sha256 limits R w r)
    (h : Kept sha256 R w) : Kept sha256 R (w.step sha256 limits r) := by
  cases r with
  | declare d fates => exact (declareTeamAttachment_kept h hr).always fates
  | writeChunk c fates => exact (writeTeamAttachmentChunk_kept hinj hR h hr).always fates
  | bind b => exact h.bind hR b
  | purge p fates =>
    exact (purgeExpiredTeamAttachments_keeps (Kept.collects hR) p h fun r hr =>
      h.fewer fun a => purgeStale_rows hr).always fates

lemma step_sound (hinj : Function.Injective sha256) (limits : Limits) (w : Depot) (r : Request)
    (h : Sound sha256 w) : Sound sha256 (w.step sha256 limits r) := by
  have any : Grants sha256 limits (fun _ => True) w r := by
    cases r <;> simp [Grants, ChunkGrants]
  exact (step_kept hinj limits (fun _ _ _ => trivial) any ⟨h, fun _ _ _ => trivial⟩).1

/-- RUN: in every state reached from an empty depot, rows and files agree. -/
theorem run_sound (hinj : Function.Injective sha256) (limits : Limits) (requests : List Request) :
    Sound sha256 (run (Depot.step sha256 limits) {} requests) :=
  run_inv (step_sound hinj limits) requests {} nofun

/-- What the metadata of attachments promises about the files. -/
structure AttachmentsKept (sha256 : Bytes → String) (w : Depot) : Prop where
  ready : ∀ a ∈ w.db.attachments, a.state = .ready → Stored sha256 w.files a
  bound : ∀ a ∈ w.db.attachments, a.messageId ≠ none → Stored sha256 w.files a
  uploading : ∀ a ∈ w.db.attachments, a.state = .uploading → 0 < a.receivedBytes →
    a.accepted.length = a.receivedBytes ∧ Resumable sha256 w.files a

lemma Sound.attachmentsKept {w : Depot} (h : Sound sha256 w) : AttachmentsKept sha256 w where
  ready a ha := (h a ha).ready
  bound a ha hb := (h a ha).ready ((h a ha).bound hb)
  uploading a ha hup hpos := ⟨(h a ha).counted hup, (h a ha).resumable hup hpos⟩

namespace Upload

/-- A digest free of collisions: the bytes in hexadecimal. -/
def hexDigit (n : Nat) : Char := "0123456789abcdef".toList.getD n '0'

def hexByte (b : UInt8) : List Char := [hexDigit (b.toNat / 16), hexDigit (b.toNat % 16)]

def digest (bytes : Bytes) : String := String.ofList (bytes.flatMap hexByte)

lemma hexDigit_inj : ∀ n < 16, ∀ m < 16, hexDigit n = hexDigit m → n = m := by decide

lemma hexByte_inj {b c : UInt8} (h : hexByte b = hexByte c) : b = c := by
  have hb := b.toNat_lt
  have hc := c.toNat_lt
  obtain ⟨hhigh, hlow⟩ := cons.inj h
  have high := hexDigit_inj _ (by omega) _ (by omega) hhigh
  have low := hexDigit_inj _ (by omega) _ (by omega) (cons.inj hlow).1
  exact UInt8.toNat_inj.1 (by omega)

lemma hex_inj : ∀ {xs ys : Bytes}, xs.flatMap hexByte = ys.flatMap hexByte → xs = ys
  | [], [], _ => rfl
  | [], _ :: _, h => by cases h
  | _ :: _, [], h => by cases h
  | x :: xs, y :: ys, h => by
    obtain ⟨hx, hxs⟩ := append_inj h rfl
    rw [hexByte_inj hx, hex_inj hxs]

lemma digest_injective : Function.Injective digest := fun _ _ h =>
  hex_inj (by simpa [digest] using congrArg String.toList h)

def content : Bytes := replicate 32 7

def attachmentId : String := "tatt_" ++ String.ofList (replicate 32 '0')

def limits : Limits := ⟨1000, 1000⟩

def declaration : Declaration :=
  { principalId := "alice", teamId := "team", fileName := "notes.txt", mediaType := "text/plain",
    byteSize := 32, sha256 := digest content, idempotencyKey := "declare-1",
    attachmentId := attachmentId, timestamp := 1000 }

def chunk (offset : Nat) (data : Bytes) : Chunk :=
  { principalId := "alice", teamId := "team", attachmentId := attachmentId, offset := offset,
    total := 32, data := data, timestamp := 1001 }

/-- The upload is declared and half of it has arrived. -/
def half : List Request :=
  [.declare declaration [], .writeChunk (chunk 0 (content.take 16)) []]

/-- The other half is wrong: its bytes are unlinked, and the process dies before the failure is
    recorded. -/
def wrong : List Request := half ++
  [.writeChunk (chunk 16 (replicate 16 8)) (replicate 27 .happens ++ [.dies])]

def sent : List Request := half ++
  [.writeChunk (chunk 16 (content.drop 16)) [],
   .bind ⟨"team", "alice", [attachmentId], "message", 1002, true⟩]

end Upload

/-- A death between the unlink of wrong bytes and the record of the failure leaves an upload with
    accepted bytes, no staging file, and nothing ever renamed. -/
theorem wrong_digest_loses_staging :
    Function.Injective Upload.digest ∧
      let w := run (Depot.step Upload.digest Upload.limits) {} Upload.wrong
      (∃ a ∈ w.db.attachments.rows, a.state = .uploading ∧ 0 < a.receivedBytes ∧
        w.files.staging a.id = none) ∧ w.files.published = [] :=
  ⟨Upload.digest_injective, by decide +kernel⟩

/-- ATTACHMENTS: with a digest free of collisions, in every state reached a ready or bound attachment
    has its bytes, and no accepted byte of an upload is lost but with content whose digest is wrong. -/
theorem ready_attachment_has_bytes (sha256 : Bytes → String) (hinj : Function.Injective sha256)
    (limits : Limits) (requests : List Request) :
    AttachmentsKept sha256 (run (Depot.step sha256 limits) {} requests) :=
  (run_sound hinj limits requests).attachmentsKept

/-- The rule at an attachment uploaded in two chunks and bound to a message. -/
theorem ready_attachment_has_bytes_sent :
    Function.Injective Upload.digest ∧
      ((run (Depot.step Upload.digest Upload.limits) {} Upload.sent).db.attachments.rows.map
        fun a => (a.state, a.messageId)) = [(.ready, some "message")] ∧
      AttachmentsKept Upload.digest (run (Depot.step Upload.digest Upload.limits) {} Upload.sent) :=
  ⟨Upload.digest_injective, by decide +kernel,
    ready_attachment_has_bytes Upload.digest Upload.digest_injective Upload.limits Upload.sent⟩

end TeamHub
